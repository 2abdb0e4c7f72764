import SourceMerge.Proofs.Options.Values
import SourceMerge.Proofs.Text.Split

/-!
# SourceMerge.Proofs.Options.Reading

What becomes of the values of options.  `Fits` lists the values that an option takes,
kind by kind.  Options are read exactly if all keys name options and the value that
counts for each option fits it; otherwise the first value that does not fit is the
fault.

All these faults are faults of the configuration but two (`Escapes`).  A reference to a
function of a module whose name begins with a point cannot even be looked up
(`Hook.NamesRelative`).  And an integer with too many digits cannot be written, be it the
key that a message would show, or the value of an option that takes numbers for texts.
The options are read in the order of `Options.order`, so reading meets with such a value
if nothing that is read before it does not fit.
-/

namespace SourceMerge

/-! ## references to functions -/

namespace Hook

/-- The name of the module begins with a point, and a function is named. -/
def NamesRelative (reference : Text) : Prop :=
  ∃ name function, reference = '.' :: name ++ ':' :: function ∧ ':' ∉ name ∧ function ≠ []

theorem descend_ne_relativeModule (here : Member) (names : List Text) :
    descend here names ≠ .error .relativeModule := by
  induction names generalizing here with
  | nil => simp [descend]
  | cons name rest ih =>
      cases here with
      | function hook => simp [descend]
      | constant value => simp [descend]
      | group group members hook =>
          rw [descend]
          cases members.lookup name with
          | none => simp
          | some member => exact ih member

theorem missingModule_ne_relativeModule (modules : List HookModule) (name : Text) :
    missingModule modules name ≠ .relativeModule := by
  simp only [missingModule]
  split <;> simp

/-- What a module that is not relative holds under a path is not relative. -/
theorem find_of_head? {modules : List HookModule} {reference moduleName path : Text}
    (hcut : Text.cutAt ':' reference = (moduleName, some path))
    (hhead : moduleName.head? ≠ some '.') : find modules reference ≠ .error .relativeModule := by
  rw [find, hcut]
  simp only
  split_ifs with hempty
  · simp
  cases modules.find? (·.name == moduleName) with
  | none => simpa using missingModule_ne_relativeModule modules moduleName
  | some module =>
      simp only
      cases module.members.lookup ((Text.splitOn '.' path).headD []) with
      | none => simp
      | some member =>
          simp only
          have hdescend := descend_ne_relativeModule member (Text.splitOn '.' path).tail
          split
          · next fault hfault => simpa [hfault] using hdescend
          · split <;> simp

/-- References to relative modules are refused as such, whatever modules there are. -/
theorem find_eq_relativeModule_iff {modules : List HookModule} {reference : Text} :
    find modules reference = .error .relativeModule ↔ NamesRelative reference := by
  constructor
  · intro h
    obtain ⟨moduleName, path, hcut⟩ : ∃ moduleName path,
        Text.cutAt ':' reference = (moduleName, some path) := by
      cases hcut : Text.cutAt ':' reference with
      | mk moduleName path? =>
          cases path? with
          | none => simp [find, hcut] at h
          | some path => exact ⟨moduleName, path, rfl⟩
    by_cases hhead : moduleName.head? = some '.'
    · obtain ⟨name, rfl⟩ := List.head?_eq_some_iff.mp hhead
      obtain ⟨hreference, hcolon⟩ := Text.cutAt_eq_some hcut
      refine ⟨name, path, hreference, fun hmem => hcolon (List.mem_cons_of_mem _ hmem), ?_⟩
      rintro rfl
      simp [find, hcut] at h
    · exact absurd h (find_of_head? hcut hhead)
  · rintro ⟨name, function, rfl, hcolon, hfunction⟩
    have hcolon : ':' ∉ '.' :: name := by simpa using hcolon
    rw [find, Text.cutAt_append hcolon]
    simp [hfunction]

end Hook

/-! ## values that fit -/

namespace Options

variable {modules : List HookModule} {base : Option Text}

/-- The values that an option takes. -/
inductive Fits (modules : List HookModule) : OptionName → OptionValue → Prop
  /-- Nothing stands for no text, no change of the sources and no name of the map. -/
  | null {n : OptionName}
      (h : n ∈ [.separator, .banner, .footer, .stripBanners, .process, .mapName]) :
      Fits modules n (.data .null)
  | text {n : OptionName} (h : n ∈ [.separator, .banner, .footer, .mapName]) (t : Text) :
      Fits modules n (.data (.text t))
  | flag {n : OptionName} (h : n ∈ [.stripBanners, .process, .sourceMap]) (b : Bool) :
      Fits modules n (.data (.bool b))
  /-- Whether there is a map may be said in words. -/
  | word {t : Text} {b : Bool} (h : (Data.text t).asBool? = some b) :
      Fits modules .sourceMap (.data (.text t))
  | settings {n : OptionName} (h : n ∈ [.stripBanners, .process]) (entries : Entries) :
      Fits modules n (.data (.map entries))
  /-- A text that names a function. -/
  | reference {t : Text} {hook : Hook} (h : Hook.find modules t = .ok hook) :
      Fits modules .process (.data (.text t))
  /-- A name of a way to deliver the map, in whatever case. -/
  | style {d : Data} {t : Text} (htext : d.asText = .ok t)
      (h : (Mapping.Delivery.ofName? t).isSome) : Fits modules .mapStyle (.data d)
  /-- Numbers count as paths too. -/
  | path {d : Data} {t : Text} (htext : d.asText = .ok t) : Fits modules .root (.data d)
  | hook {n : OptionName} (h : n ∈ [.process, .mapName]) (k : Hook) : Fits modules n (.hook k)
  | transform (t : Transform) : Fits modules .process (.transform t)

section Readers

variable {v : OptionValue}

theorem exists_readText_iff {n : OptionName} (hn : n ∈ [.separator, .banner, .footer])
    (key : Text) : (∃ t, readText key v = .ok t) ↔ Fits modules n v := by
  simp only [List.mem_cons, List.not_mem_nil, or_false] at hn
  constructor
  · rintro ⟨t, h⟩
    unfold readText at h
    split at h
    · obtain rfl | rfl | rfl := hn <;> exact .null (by simp)
    · obtain rfl | rfl | rfl := hn <;> exact .text (by simp) _
    · cases h
  · intro h
    obtain rfl | rfl | rfl := hn
    all_goals
      cases h with
      | null | text => exact ⟨_, rfl⟩
      | _ => simp_all

theorem exists_readStripBanners_iff :
    (∃ kinds, readStripBanners v = .ok kinds) ↔ Fits modules .stripBanners v := by
  constructor
  · rintro ⟨kinds, h⟩
    unfold readStripBanners at h
    split at h
    · exact .null (by simp)
    · exact .flag (by simp) _
    · exact .flag (by simp) _
    · exact .settings (by simp) _
    · cases h
  · intro h
    cases h with
    | null | settings => exact ⟨_, rfl⟩
    | flag _ b => cases b <;> exact ⟨_, rfl⟩
    | _ => simp_all

theorem exists_readProcess_iff :
    (∃ process, readProcess modules v = .ok process) ↔ Fits modules .process v := by
  constructor
  · rintro ⟨process, h⟩
    unfold readProcess at h
    split at h
    · exact .null (by simp)
    · exact .flag (by simp) _
    · exact .flag (by simp) _
    · exact .settings (by simp) _
    · split at h
      · next hook hfind => exact .reference hfind
      · cases h
    · exact .transform _
    · exact .hook (by simp) _
    · cases h
  · intro h
    cases h with
    | null | settings | hook | transform => exact ⟨_, rfl⟩
    | flag _ b => cases b <;> exact ⟨_, rfl⟩
    | reference hfind => exact ⟨_, by rw [readProcess, hfind]⟩
    | _ => simp_all

theorem exists_readSourceMap_iff :
    (∃ b, readSourceMap v = .ok b) ↔ Fits modules .sourceMap v := by
  constructor
  · rintro ⟨b, h⟩
    unfold readSourceMap at h
    split at h
    · next d =>
      split at h
      · next b hb =>
        cases d with
        | bool b => exact .flag (by simp) b
        | text t => exact .word hb
        | _ => cases hb
      · cases h
    · cases h
  · intro h
    cases h with
    | flag _ b => exact ⟨b, rfl⟩
    | word hb => exact ⟨_, by rw [readSourceMap, hb]⟩
    | _ => simp_all

theorem exists_readMapStyle_iff :
    (∃ t, readMapStyle v = .ok t) ↔ Fits modules .mapStyle v := by
  constructor
  · rintro ⟨t, h⟩
    unfold readMapStyle at h
    split at h
    · split at h
      · next htext =>
        split at h
        · next hstyle => exact .style htext hstyle
        · cases h
      · cases h
      · cases h
    · cases h
  · intro h
    cases h with
    | style htext hstyle => exact ⟨_, by rw [readMapStyle, htext]; exact if_pos hstyle⟩
    | _ => simp_all

theorem exists_readMapName_iff :
    (∃ name, readMapName base v = .ok name) ↔ Fits modules .mapName v := by
  constructor
  · rintro ⟨name, h⟩
    unfold readMapName at h
    split at h
    · exact .null (by simp)
    · exact .text (by simp) _
    · exact .hook (by simp) _
    · cases h
  · intro h
    cases h with
    | null | text | hook => exact ⟨_, rfl⟩
    | _ => simp_all

theorem exists_readRoot_iff : (∃ t, readRoot base v = .ok t) ↔ Fits modules .root v := by
  constructor
  · rintro ⟨t, h⟩
    unfold readRoot at h
    split at h
    · split at h
      · next htext => exact .path htext
      · cases h
      · cases h
    · cases h
  · intro h
    cases h with
    | path htext => exact ⟨_, by rw [readRoot, htext]⟩
    | _ => simp_all

end Readers

/-! ## options that are read -/

/-- The fault that an answer is. -/
def faultOf {ε α : Type} : Except ε α → Option ε
  | .ok _ => none
  | .error e => some e

theorem faultOf_eq_none {ε α : Type} {x : Except ε α} : faultOf x = none ↔ ∃ a, x = .ok a := by
  cases x <;> simp [faultOf]

theorem faultOf_eq_some {ε α : Type} {x : Except ε α} {e : ε} :
    faultOf x = some e ↔ x = .error e := by
  cases x <;> simp [faultOf]

/-- What the value that counts for an option has against it. -/
def misfit? (modules : List HookModule) (base : Option Text) (vs : Values) :
    OptionName → Option OptionCause
  | .separator => faultOf (readOr vs .separator ({} : Options).separator (readText "separator"))
  | .banner => faultOf (readOr vs .banner ({} : Options).banner (readText "banner"))
  | .footer => faultOf (readOr vs .footer ({} : Options).footer (readText "footer"))
  | .stripBanners =>
    faultOf (readOr vs .stripBanners ({} : Options).stripBanners readStripBanners)
  | .process => faultOf (readOr vs .process ({} : Options).process (readProcess modules))
  | .sourceMap => faultOf (readOr vs .sourceMap ({} : Options).sourceMap readSourceMap)
  | .mapStyle => faultOf (readOr vs .mapStyle ({} : Options).mapStyle readMapStyle)
  | .mapName => faultOf (readOr vs .mapName ({} : Options).mapName (readMapName base))
  | .root => faultOf (readOr vs .root (base.getD ({} : Options).root) (readRoot base))

/-- The options in the order in which they are read. -/
def order : List OptionName :=
  [.separator, .banner, .footer, .stripBanners, .process, .sourceMap, .mapStyle, .mapName, .root]

theorem mem_order (n : OptionName) : n ∈ order := by cases n <;> simp [order]

/-- **The first value that does not fit is the fault** of the options. -/
theorem faultOf_read (vs : Values) :
    faultOf (read modules base vs) = order.findSome? (misfit? modules base vs) := by
  simp only [read, order, List.findSome?_cons, List.findSome?_nil, misfit?]
  -- Each reading ends the walk on both sides, or neither.
  cases readOr vs .separator ({} : Options).separator (readText "separator") with
  | error cause => rfl
  | ok separator =>
  cases readOr vs .banner ({} : Options).banner (readText "banner") with
  | error cause => rfl
  | ok banner =>
  cases readOr vs .footer ({} : Options).footer (readText "footer") with
  | error cause => rfl
  | ok footer =>
  cases readOr vs .stripBanners ({} : Options).stripBanners readStripBanners with
  | error cause => rfl
  | ok kinds =>
  cases readOr vs .process ({} : Options).process (readProcess modules) with
  | error cause => rfl
  | ok process =>
  cases readOr vs .sourceMap ({} : Options).sourceMap readSourceMap with
  | error cause => rfl
  | ok sourceMap =>
  cases readOr vs .mapStyle ({} : Options).mapStyle readMapStyle with
  | error cause => rfl
  | ok mapStyle =>
  cases readOr vs .mapName ({} : Options).mapName (readMapName base) with
  | error cause => rfl
  | ok mapName =>
  cases readOr vs .root (base.getD ({} : Options).root) (readRoot base) <;> rfl

section Misfit

variable {α : Type} {vs : Values} {n : OptionName} {default : α}
  {reader : OptionValue → Except OptionCause α}

/-- An option is read if the value that is given for it, if any, is read. -/
theorem faultOf_readOr_eq_none (h : ∀ v, (∃ a, reader v = .ok a) ↔ Fits modules n v) :
    faultOf (readOr vs n default reader) = none ↔ ∀ v, vs.get? n = some v → Fits modules n v := by
  rw [faultOf_eq_none, readOr]
  cases vs.get? n with
  | none => simp
  | some v => simp [h]

/-- An option has a fault if a value is given for it that has. -/
theorem faultOf_readOr_eq_some {cause : OptionCause} :
    faultOf (readOr vs n default reader) = some cause ↔
      ∃ v, vs.get? n = some v ∧ reader v = .error cause := by
  rw [faultOf_eq_some, readOr]
  cases vs.get? n <;> simp

theorem misfit?_eq_none_iff :
    misfit? modules base vs n = none ↔ ∀ v, vs.get? n = some v → Fits modules n v := by
  cases n with
  | separator => exact faultOf_readOr_eq_none fun v => exists_readText_iff (by simp) _
  | banner => exact faultOf_readOr_eq_none fun v => exists_readText_iff (by simp) _
  | footer => exact faultOf_readOr_eq_none fun v => exists_readText_iff (by simp) _
  | stripBanners => exact faultOf_readOr_eq_none fun v => exists_readStripBanners_iff
  | process => exact faultOf_readOr_eq_none fun v => exists_readProcess_iff
  | sourceMap => exact faultOf_readOr_eq_none fun v => exists_readSourceMap_iff
  | mapStyle => exact faultOf_readOr_eq_none fun v => exists_readMapStyle_iff
  | mapName => exact faultOf_readOr_eq_none fun v => exists_readMapName_iff
  | root => exact faultOf_readOr_eq_none fun v => exists_readRoot_iff

end Misfit

theorem exists_read_iff {vs : Values} :
    (∃ o, read modules base vs = .ok o) ↔ ∀ n v, vs.get? n = some v → Fits modules n v := by
  rw [← faultOf_eq_none, faultOf_read, List.findSome?_eq_none_iff]
  simp only [mem_order, forall_true_left, misfit?_eq_none_iff]

/-- What is read before an option. -/
def earlier (n : OptionName) : List OptionName := order.takeWhile (· ≠ n)

/-- Reading meets with a value that does not fit if all values that are read before it
fit. -/
theorem read_eq_error_iff {vs : Values} {cause : OptionCause} :
    read modules base vs = .error cause ↔
      ∃ n, misfit? modules base vs n = some cause ∧
        ∀ m ∈ earlier n, ∀ v, vs.get? m = some v → Fits modules m v := by
  rw [← faultOf_eq_some, faultOf_read, List.findSome?_eq_some_iff]
  simp only [misfit?_eq_none_iff]
  constructor
  · rintro ⟨before, n, after, horder, hmisfit, hfits⟩
    have hnodup : (before ++ n :: after).Nodup := by rw [← horder]; decide
    have hn : ∀ m ∈ before, decide (m ≠ n) = true := fun m hm => by
      rw [decide_eq_true_eq]
      rintro rfl
      exact (List.nodup_append.mp hnodup).2.2 m hm m List.mem_cons_self rfl
    have hbefore : earlier n = before := by
      rw [earlier, horder, List.takeWhile_append_of_pos hn]
      simp
    exact ⟨n, hmisfit, by rwa [hbefore]⟩
  · rintro ⟨n, hmisfit, hfits⟩
    refine ⟨earlier n, n, (order.dropWhile (· ≠ n)).tail, ?_, hmisfit, hfits⟩
    cases n <;> rfl

/-! ## faults that escape -/

/-- The values whose fault is none of the configuration. -/
inductive Escaping : OptionName → OptionValue → Prop
  /-- A text that names a function of a relative module. -/
  | reference {t : Text} (h : Hook.NamesRelative t) : Escaping .process (.data (.text t))
  /-- An integer that stands for a text and cannot be written. -/
  | number {n : OptionName} (hn : n ∈ [.mapStyle, .root]) {k : Int} (h : Data.isShort k = false) :
      Escaping n (.data (.int k))

/-- A reading ends with a fault that is none of the configuration. -/
def EndsAstray {α : Type} (x : Except OptionCause α) : Prop :=
  ∃ cause, x = .error cause ∧ cause.isOfConfiguration = false

section EndsAstray

variable {α : Type} {v : OptionValue}

@[simp] theorem not_endsAstray_ok (a : α) : ¬ EndsAstray (.ok a) := by
  rintro ⟨cause, h, -⟩
  cases h

@[simp] theorem endsAstray_error {cause : OptionCause} :
    EndsAstray (.error cause : Except OptionCause α) ↔ cause.isOfConfiguration = false := by
  simp [EndsAstray]

theorem not_endsAstray_readText (key : Text) : ¬ EndsAstray (readText key v) := by
  unfold readText
  split <;> simp [OptionCause.isOfConfiguration]

theorem not_endsAstray_readStripBanners : ¬ EndsAstray (readStripBanners v) := by
  unfold readStripBanners
  split <;> simp [OptionCause.isOfConfiguration]

theorem not_endsAstray_readSourceMap : ¬ EndsAstray (readSourceMap v) := by
  unfold readSourceMap
  split
  · split <;> simp [OptionCause.isOfConfiguration]
  · simp [OptionCause.isOfConfiguration]

theorem not_endsAstray_readMapName : ¬ EndsAstray (readMapName base v) := by
  unfold readMapName
  split <;> simp [OptionCause.isOfConfiguration]

theorem isOfConfiguration_processReference {reference : Text} {fault : ReferenceFault} :
    (OptionCause.processReference reference fault).isOfConfiguration = false ↔
      fault = .relativeModule := by
  cases fault <;> simp [OptionCause.isOfConfiguration]

theorem endsAstray_readProcess : EndsAstray (readProcess modules v) ↔ Escaping .process v := by
  constructor
  · intro h
    unfold readProcess at h
    split at h
    case h_5 t =>
      split at h
      · simp at h
      · next fault hfind =>
        rw [endsAstray_error, isOfConfiguration_processReference] at h
        exact .reference (Hook.find_eq_relativeModule_iff.mp (h ▸ hfind))
    all_goals simp [OptionCause.isOfConfiguration] at h
  · intro h
    cases h with
    | reference h => simp [readProcess, Hook.find_eq_relativeModule_iff.mpr h,
        OptionCause.isOfConfiguration]
    | number hn => simp at hn

theorem asText_eq_overlong {d : Data} (h : d.asText = .error .overlong) :
    ∃ k, d = .int k ∧ Data.isShort k = false := by
  unfold Data.asText at h
  split at h
  · cases h
  · next k =>
    split at h
    · cases h
    · next hlong => exact ⟨k, rfl, Bool.eq_false_iff.mpr hlong⟩
  · cases h
  · cases h

theorem endsAstray_readMapStyle : EndsAstray (readMapStyle v) ↔ Escaping .mapStyle v := by
  constructor
  · intro h
    unfold readMapStyle at h
    split at h
    · split at h
      · split at h <;> simp [OptionCause.isOfConfiguration] at h
      · simp [OptionCause.isOfConfiguration] at h
      · next htext =>
        obtain ⟨k, rfl, hlong⟩ := asText_eq_overlong htext
        exact .number (by simp) hlong
    · simp [OptionCause.isOfConfiguration] at h
  · intro h
    cases h with
    | number _ hlong => simp [readMapStyle, Data.asText, hlong, OptionCause.isOfConfiguration]

theorem endsAstray_readRoot : EndsAstray (readRoot base v) ↔ Escaping .root v := by
  constructor
  · intro h
    unfold readRoot at h
    split at h
    · split at h
      · simp at h
      · simp [OptionCause.isOfConfiguration] at h
      · next htext =>
        obtain ⟨k, rfl, hlong⟩ := asText_eq_overlong htext
        exact .number (by simp) hlong
    · simp [OptionCause.isOfConfiguration] at h
  · intro h
    cases h with
    | number _ hlong => simp [readRoot, Data.asText, hlong, OptionCause.isOfConfiguration]

end EndsAstray

/-- Of most options no value escapes. -/
theorem not_escaping {n : OptionName} {v : OptionValue} (hn : n ∉ [.process, .mapStyle, .root]) :
    ¬ Escaping n v := by
  intro h
  cases h <;> simp_all

/-- An option is astray if the value that counts for it is. -/
theorem exists_misfit?_iff {vs : Values} {n : OptionName} :
    (∃ cause, misfit? modules base vs n = some cause ∧ cause.isOfConfiguration = false) ↔
      ∃ v, vs.get? n = some v ∧ Escaping n v := by
  have hread : ∀ {α : Type} {m : OptionName} {default : α}
      {reader : OptionValue → Except OptionCause α},
      (∀ v, EndsAstray (reader v) ↔ Escaping m v) →
      ((∃ cause, faultOf (readOr vs m default reader) = some cause ∧
        cause.isOfConfiguration = false) ↔ ∃ v, vs.get? m = some v ∧ Escaping m v) := by
    intro α m default reader h
    simp only [faultOf_readOr_eq_some, ← h]
    constructor
    · rintro ⟨cause, ⟨v, hv, hcause⟩, hout⟩
      exact ⟨v, hv, cause, hcause, hout⟩
    · rintro ⟨v, hv, cause, hcause, hout⟩
      exact ⟨cause, ⟨v, hv, hcause⟩, hout⟩
  cases n with
  | separator =>
      exact hread fun v => iff_of_false (not_endsAstray_readText _) (not_escaping (by simp))
  | banner =>
      exact hread fun v => iff_of_false (not_endsAstray_readText _) (not_escaping (by simp))
  | footer =>
      exact hread fun v => iff_of_false (not_endsAstray_readText _) (not_escaping (by simp))
  | stripBanners =>
      exact hread fun v => iff_of_false not_endsAstray_readStripBanners (not_escaping (by simp))
  | process => exact hread fun v => endsAstray_readProcess
  | sourceMap =>
      exact hread fun v => iff_of_false not_endsAstray_readSourceMap (not_escaping (by simp))
  | mapStyle => exact hread fun v => endsAstray_readMapStyle
  | mapName =>
      exact hread fun v => iff_of_false not_endsAstray_readMapName (not_escaping (by simp))
  | root => exact hread fun v => endsAstray_readRoot

/-- What ends the reading of options with a fault that is none of the configuration. -/
inductive Escapes (modules : List HookModule) (given : List (Data × OptionValue)) : Prop
  /-- The first key that names no option cannot be written in the message. -/
  | key {before after : List (Data × OptionValue)} {e : Data × OptionValue}
      (hgiven : given = before ++ e :: after) (hnamed : AllNamed before)
      (hunknown : OptionName.ofKey? e.1 = none) (hlong : e.1.isWritable = false)
  /-- The value of an option escapes, and everything that is read before it fits. -/
  | value (hnamed : AllNamed given) {n : OptionName} {v : OptionValue}
      (hfits : ∀ m ∈ earlier n, ∀ w, lastGiven? given m = some w → Fits modules m w)
      (hgiven : lastGiven? given n = some v) (hescapes : Escaping n v)

/-! ## options of a configuration -/

/-- Options are read from values by name, each from the value that is given last. -/
theorem exists_ofEntries_iff {context : Text} {given : List (Data × OptionValue)} :
    (∃ o, ofEntries modules base context given = .ok o) ↔
      AllNamed given ∧ ∀ n v, lastGiven? given n = some v → Fits modules n v := by
  constructor
  · rintro ⟨o, h⟩
    obtain ⟨vs, hvs, h⟩ := bind_eq_ok.mp h
    obtain ⟨hnamed, -, hget⟩ := Values.ofEntries_eq_ok hvs
    refine ⟨hnamed, fun n => ?_⟩
    rw [← hget]
    exact exists_read_iff.mp ⟨o, mapError_eq_ok.mp h⟩ n
  · rintro ⟨hnamed, hfits⟩
    obtain ⟨vs, hvs⟩ := Values.exists_ofEntries hnamed context
    obtain ⟨-, -, hget⟩ := Values.ofEntries_eq_ok hvs
    obtain ⟨o, ho⟩ := exists_read_iff.mpr fun n v hv => hfits n v (by rwa [← hget])
    exact ⟨o, bind_eq_ok.mpr ⟨vs, hvs, mapError_eq_ok.mpr ho⟩⟩

/-- The fault is an unknown key, or what a value has against its option. -/
theorem ofEntries_eq_error_iff {context : Text} {given : List (Data × OptionValue)}
    {f : OptionFault} :
    ofEntries modules base context given = .error f ↔
      Values.ofEntries context given = .error f ∨ ∃ vs, Values.ofEntries context given = .ok vs ∧
        ∃ cause, read modules base vs = .error cause ∧ f = ⟨context, cause⟩ := by
  change (Values.ofEntries context given).bind _ = _ ↔ _
  cases Values.ofEntries context given with
  | error g => simp [Except.bind]
  | ok vs =>
      cases hread : read modules base vs <;> simp [Except.bind, hread, Except.mapError, eq_comm]

/-- An unknown key is a fault of the configuration if it can be written. -/
theorem isOfConfiguration_ofKey (key : Data) :
    (OptionCause.ofKey key).isOfConfiguration = key.isWritable := by
  unfold OptionCause.ofKey Data.display?
  cases key.isWritable <;> rfl

/-- **How the options of a configuration end.**  They are read exactly if all keys name
options and the value that is given last for each option fits it.  Otherwise the fault
is told of the context, and it is a fault of the configuration, with these exceptions
(`Escapes`): the process names a function of a relative module, or an integer has too
many digits to be written, and reading gets that far.  Looking a module up is taken to
end, however many points its name has. -/
theorem ofEntries_ends (modules : List HookModule) (base : Option Text) (context : Text)
    (given : List (Data × OptionValue)) :
    ((∃ o, ofEntries modules base context given = .ok o) ↔
        AllNamed given ∧ ∀ n v, lastGiven? given n = some v → Fits modules n v) ∧
      (∀ f, ofEntries modules base context given = .error f → f.context = context) ∧
      ((∃ f, ofEntries modules base context given = .error f ∧ f.isOfConfiguration = false) ↔
        Escapes modules given) := by
  refine ⟨exists_ofEntries_iff, fun f h => ?_, ?_, ?_⟩
  · rcases ofEntries_eq_error_iff.mp h with hkey | ⟨vs, -, cause, -, rfl⟩
    · obtain ⟨before, e, after, -, -, -, rfl⟩ := Values.ofEntries_eq_error_iff.mp hkey
      rfl
    · rfl
  · rintro ⟨f, h, hescapes⟩
    rcases ofEntries_eq_error_iff.mp h with hkey | ⟨vs, hvs, cause, hread, rfl⟩
    · obtain ⟨before, e, after, hgiven, hnamed, hunknown, rfl⟩ :=
        Values.ofEntries_eq_error_iff.mp hkey
      exact .key hgiven hnamed hunknown ((isOfConfiguration_ofKey e.1).symm.trans hescapes)
    · obtain ⟨hnamed, -, hget⟩ := Values.ofEntries_eq_ok hvs
      obtain ⟨n, hmisfit, hfits⟩ := read_eq_error_iff.mp hread
      obtain ⟨v, hv, hescaping⟩ := exists_misfit?_iff.mp ⟨cause, hmisfit, hescapes⟩
      simp only [hget] at hfits hv
      exact .value hnamed hfits hv hescaping
  · intro h
    cases h with
    | @key before after e hgiven hnamed hunknown hlong =>
        refine ⟨_, ofEntries_eq_error_iff.mpr (.inl (Values.ofEntries_eq_error_iff.mpr
          ⟨before, e, after, hgiven, hnamed, hunknown, rfl⟩)), ?_⟩
        exact (isOfConfiguration_ofKey e.1).trans hlong
    | @value hnamed n v hfits hgiven hescaping =>
        obtain ⟨vs, hvs⟩ := Values.exists_ofEntries hnamed context
        obtain ⟨-, -, hget⟩ := Values.ofEntries_eq_ok hvs
        simp only [← hget] at hfits hgiven
        obtain ⟨cause, hmisfit, hescapes⟩ := exists_misfit?_iff.mpr ⟨v, hgiven, hescaping⟩
        have hread := read_eq_error_iff.mpr ⟨n, hmisfit, hfits⟩
        exact ⟨⟨context, cause⟩, ofEntries_eq_error_iff.mpr (.inr ⟨vs, hvs, _, hread, rfl⟩),
          hescapes⟩

/-- A function of a relative module is no fault of the configuration. -/
theorem ofEntries_escapes_relative :
    ¬ ∀ (modules : List HookModule) (base : Option Text) (context : Text)
      (given : List (Data × OptionValue)),
        (∃ o, ofEntries modules base context given = .ok o) ∨
          ∃ f, ofEntries modules base context given = .error f ∧ f.isOfConfiguration = true := by
  intro hall
  rcases hall [] none "options" [(.text "process", .data (.text ".mod:fn"))] with
    ⟨o, h⟩ | ⟨f, h, hconf⟩
  · cases h
  · rw [← Except.error.inj h] at hconf
    cases hconf

end Options

end SourceMerge
