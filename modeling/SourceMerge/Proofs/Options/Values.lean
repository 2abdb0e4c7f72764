import Mathlib.Data.List.Induction
import Mathlib.Data.List.Nodup
import SourceMerge.Options
import SourceMerge.Proofs.Store.Snapshot

/-!
# SourceMerge.Proofs.Options.Values

What options are given.  Values are looked up by option and not by key, so the
spelling of a key does not count: of several values for one option the last one is
taken, under whichever of its names they are given (`ofEntries_eq_ok`).  That carries
over to values laid over other ones (`get?_overlay`).

Reading only looks values up, so two tables that hold the same values give the same
options (`read_congr`).
-/

namespace SourceMerge.Options

/-- The value that is given last for an option, under any of its spellings. -/
def lastGiven? (given : List (Data × OptionValue)) (n : OptionName) : Option OptionValue :=
  (given.reverse.find? fun e => decide (OptionName.ofKey? e.1 = some n)).map (·.2)

/-- Every key names an option. -/
def AllNamed (given : List (Data × OptionValue)) : Prop :=
  ∀ e ∈ given, ∃ n, OptionName.ofKey? e.1 = some n

/-- One value under one key, or under two names of one option. -/
def SameOption {α : Type} (e e' : Data × α) : Prop :=
  e.2 = e'.2 ∧ (e.1 = e'.1 ∨ ∃ n, OptionName.ofKey? e.1 = some n ∧ OptionName.ofKey? e'.1 = some n)

/-! ## the last value -/

section Last

variable {given : List (Data × OptionValue)} {e : Data × OptionValue} {n m : OptionName}

theorem lastGiven?_concat (h : OptionName.ofKey? e.1 = some m) (n : OptionName) :
    lastGiven? (given ++ [e]) n = if n = m then some e.2 else lastGiven? given n := by
  rw [lastGiven?, List.reverse_append, List.reverse_singleton, List.singleton_append,
    List.find?_cons, h]
  by_cases hn : n = m
  · simp [hn]
  · simp [hn, Ne.symm hn, lastGiven?]

/-- **What is given later counts**, however it is spelled. -/
theorem lastGiven?_append (first later : List (Data × OptionValue)) (n : OptionName) :
    lastGiven? (first ++ later) n = (lastGiven? later n).or (lastGiven? first n) := by
  rw [lastGiven?, List.reverse_append, List.find?_append, Option.map_or]
  rfl

theorem allNamed_append {first later : List (Data × OptionValue)} :
    AllNamed (first ++ later) ↔ AllNamed first ∧ AllNamed later :=
  List.forall_mem_append

end Last

/-! ## tables of values -/

namespace Values

variable {vs : Values} {n m : OptionName} {v : OptionValue}

theorem get?_cons (row : OptionName × OptionValue) (vs : Values) (n : OptionName) :
    get? (row :: vs) n = if n = row.1 then some row.2 else get? vs n := by
  rw [get?, List.lookup_cons]
  by_cases h : n = row.1
  · rw [if_pos h, beq_iff_eq.mpr h]
  · rw [if_neg h, beq_eq_false_iff_ne.mpr h]
    rfl

/-- An option holds the value that was set last. -/
theorem get?_insert (vs : Values) (m : OptionName) (v : OptionValue) (n : OptionName) :
    (insert vs m v).get? n = if n = m then some v else vs.get? n := by
  induction vs with
  | nil => rw [insert, get?_cons]
  | cons row vs ih =>
      rw [insert]
      by_cases hrow : row.1 = m
      · rw [if_pos hrow, get?_cons, get?_cons, hrow]
        split <;> rfl
      · rw [if_neg hrow, get?_cons, get?_cons, ih]
        by_cases hn : n = row.1
        · rw [if_pos hn, if_pos hn, if_neg (hn ▸ hrow)]
        · rw [if_neg hn, if_neg hn]

/-- The options that have a value, in their places. -/
def names (vs : Values) : List OptionName := vs.map (·.1)

@[simp] theorem names_nil : names [] = [] := rfl

@[simp] theorem names_cons (row : OptionName × OptionValue) (vs : Values) :
    names (row :: vs) = row.1 :: names vs := rfl

theorem mem_names_insert : m ∈ (insert vs n v).names ↔ m = n ∨ m ∈ vs.names := by
  induction vs with
  | nil => simp [insert]
  | cons row vs ih =>
      rw [insert]
      by_cases hrow : row.1 = n
      · rw [if_pos hrow, names_cons, names_cons, List.mem_cons, List.mem_cons, hrow, or_self_left]
      · rw [if_neg hrow, names_cons, names_cons, List.mem_cons, List.mem_cons, ih, or_left_comm]

theorem nodup_insert (h : vs.names.Nodup) (n : OptionName) (v : OptionValue) :
    (insert vs n v).names.Nodup := by
  induction vs with
  | nil => simp [insert]
  | cons row vs ih =>
      obtain ⟨hrow, hvs⟩ := List.nodup_cons.mp h
      rw [insert]
      by_cases hn : row.1 = n
      · rw [if_pos hn, names_cons, List.nodup_cons, ← hn]
        exact ⟨hrow, hvs⟩
      · rw [if_neg hn, names_cons, List.nodup_cons]
        refine ⟨fun hmem => ?_, ih hvs⟩
        exact (mem_names_insert.mp hmem).elim hn hrow

/-- Values laid over other ones come first. -/
theorem get?_overlay (base : Values) {upper : Values} (h : upper.names.Nodup) (n : OptionName) :
    (overlay base upper).get? n = (upper.get? n).or (base.get? n) := by
  induction upper generalizing base with
  | nil => rfl
  | cons row upper ih =>
      obtain ⟨hrow, hupper⟩ := List.nodup_cons.mp h
      have hstep : overlay base (row :: upper) = overlay (insert base row.1 row.2) upper := rfl
      rw [hstep, ih _ hupper, get?_insert, get?_cons]
      by_cases hn : n = row.1
      · have hnone : get? upper n = none := by
          rw [get?, List.lookup_eq_none_iff]
          intro p hp
          rw [hn, bne_iff_ne]
          exact fun heq => hrow (List.mem_map.mpr ⟨p, hp, heq.symm⟩)
        rw [if_pos hn, if_pos hn, hnone, Option.none_or]
        rfl
      · rw [if_neg hn, if_neg hn]

/-! ## values by name -/

section Named

variable {context : Text} {given : List (Data × OptionValue)} {e : Data × OptionValue}

theorem ofEntries_concat (context : Text) (given : List (Data × OptionValue))
    (e : Data × OptionValue) :
    ofEntries context (given ++ [e]) = (ofEntries context given).bind fun vs => place context vs e := by
  rw [ofEntries, ofEntries, List.foldlM_append]
  change (given.foldlM (place context) []).bind _ = _
  congr 1
  funext vs
  rw [List.foldlM_cons]
  exact bind_pure _

/-- **How options are spelled makes no difference.** -/
theorem ofEntries_congr {given' : List (Data × OptionValue)}
    (h : List.Forall₂ SameOption given given') (context : Text) :
    ofEntries context given = ofEntries context given' := by
  have hplace : ∀ {e e' : Data × OptionValue}, SameOption e e' → ∀ vs,
      place context vs e = place context vs e' := by
    rintro ⟨key, v⟩ ⟨key', v'⟩ ⟨rfl, rfl | ⟨n, hn, hn'⟩⟩ vs
    · rfl
    · simp only [place, hn, hn']
  rw [ofEntries, ofEntries]
  -- The induction runs over what is still to be placed, behind any values.
  generalize ([] : Values) = vs
  induction h generalizing vs with
  | nil => rfl
  | cons hentry _ ih =>
      rw [List.foldlM_cons, List.foldlM_cons, hplace hentry]
      exact congrArg _ (funext ih)

/-- Values can be named if all keys name options, and an option then holds the value
that is given for it last. -/
theorem ofEntries_eq_ok (h : ofEntries context given = .ok vs) :
    AllNamed given ∧ vs.names.Nodup ∧ ∀ n, vs.get? n = lastGiven? given n := by
  induction given using List.reverseRecOn generalizing vs with
  | nil =>
      obtain rfl : [] = vs := Except.ok.inj h
      exact ⟨List.forall_mem_nil _, List.nodup_nil, fun n => rfl⟩
  | append_singleton given e ih =>
      rw [ofEntries_concat] at h
      obtain ⟨before, hbefore, h⟩ := bind_eq_ok.mp h
      obtain ⟨hnamed, hnodup, hget⟩ := ih hbefore
      unfold place at h
      split at h
      · next m hm =>
        obtain rfl := Except.ok.inj h
        refine ⟨allNamed_append.mpr ⟨hnamed, ?_⟩, nodup_insert hnodup m e.2, fun n => ?_⟩
        · exact List.forall_mem_singleton.mpr ⟨m, hm⟩
        · rw [get?_insert, lastGiven?_concat hm, hget]
      · cases h

theorem exists_ofEntries (h : AllNamed given) (context : Text) :
    ∃ vs, ofEntries context given = .ok vs := by
  induction given using List.reverseRecOn with
  | nil => exact ⟨[], rfl⟩
  | append_singleton given e ih =>
      obtain ⟨hnamed, hlast⟩ := allNamed_append.mp h
      obtain ⟨vs, hvs⟩ := ih hnamed
      obtain ⟨n, hn⟩ := hlast e List.mem_cons_self
      exact ⟨vs.insert n e.2, by rw [ofEntries_concat, hvs, Except.bind, place, hn]⟩

/-- The fault of values that cannot be named is the first key that names no option. -/
theorem ofEntries_eq_error_iff {f : OptionFault} :
    ofEntries context given = .error f ↔
      ∃ before e after, given = before ++ e :: after ∧ AllNamed before ∧
        OptionName.ofKey? e.1 = none ∧ f = ⟨context, .ofKey e.1⟩ := by
  constructor
  · intro h
    induction given using List.reverseRecOn with
    | nil => cases h
    | append_singleton given e ih =>
        rw [ofEntries_concat] at h
        cases hbefore : ofEntries context given with
        | error g =>
            rw [hbefore] at h
            obtain ⟨before, d, after, rfl, hd⟩ :=
              ih (by rw [hbefore]; exact congrArg _ (Except.error.inj h))
            exact ⟨before, d, after ++ [e], by simp, hd⟩
        | ok vs =>
            rw [hbefore, Except.bind, place] at h
            split at h
            · cases h
            · next hnone =>
              exact ⟨given, e, [], rfl, (ofEntries_eq_ok hbefore).1, hnone,
                (Except.error.inj h).symm⟩
  · rintro ⟨before, e, after, rfl, hnamed, hkey, rfl⟩
    obtain ⟨vs, hvs⟩ := exists_ofEntries hnamed context
    have hvs : before.foldlM (place context) [] = .ok vs := hvs
    rw [ofEntries, List.foldlM_append, hvs]
    change (e :: after).foldlM (place context) vs = _
    rw [List.foldlM_cons, place, hkey]
    rfl

end Named

end Values

/-! ## reading values -/

/-- **Options hang on the values by option only.** -/
theorem read_congr {vs ws : Values} (h : ∀ n, vs.get? n = ws.get? n) (modules : List HookModule)
    (base : Option Text) : read modules base vs = read modules base ws := by
  have hread : ∀ {α : Type} (n : OptionName) (default : α)
      (reader : OptionValue → Except OptionCause α),
      readOr vs n default reader = readOr ws n default reader := fun n default reader => by
    rw [readOr, readOr, h]
  simp only [read, hread]

/-- The options hold, field by field, what the values give. -/
structure ReadAs (modules : List HookModule) (base : Option Text) (vs : Values) (o : Options) :
    Prop where
  separator : readOr vs .separator ({} : Options).separator (readText "separator") = .ok o.separator
  banner : readOr vs .banner ({} : Options).banner (readText "banner") = .ok o.banner
  footer : readOr vs .footer ({} : Options).footer (readText "footer") = .ok o.footer
  stripBanners : readOr vs .stripBanners ({} : Options).stripBanners readStripBanners =
    .ok o.stripBanners
  process : readOr vs .process ({} : Options).process (readProcess modules) = .ok o.process
  sourceMap : readOr vs .sourceMap ({} : Options).sourceMap readSourceMap = .ok o.sourceMap
  mapStyle : readOr vs .mapStyle ({} : Options).mapStyle readMapStyle = .ok o.mapStyle
  mapName : readOr vs .mapName ({} : Options).mapName (readMapName base) = .ok o.mapName
  root : readOr vs .root (base.getD ({} : Options).root) (readRoot base) = .ok o.root

theorem read_eq_ok_iff {modules : List HookModule} {base : Option Text} {vs : Values} {o : Options} :
    read modules base vs = .ok o ↔ ReadAs modules base vs o := by
  constructor
  · intro h
    obtain ⟨separator, hseparator, h⟩ := bind_eq_ok.mp h
    obtain ⟨banner, hbanner, h⟩ := bind_eq_ok.mp h
    obtain ⟨footer, hfooter, h⟩ := bind_eq_ok.mp h
    obtain ⟨stripBanners, hstrip, h⟩ := bind_eq_ok.mp h
    obtain ⟨process, hprocess, h⟩ := bind_eq_ok.mp h
    obtain ⟨sourceMap, hmap, h⟩ := bind_eq_ok.mp h
    obtain ⟨mapStyle, hstyle, h⟩ := bind_eq_ok.mp h
    obtain ⟨mapName, hname, h⟩ := bind_eq_ok.mp h
    obtain ⟨root, hroot, h⟩ := bind_eq_ok.mp h
    obtain rfl := Except.ok.inj h
    exact ⟨hseparator, hbanner, hfooter, hstrip, hprocess, hmap, hstyle, hname, hroot⟩
  · intro h
    refine bind_eq_ok.mpr ⟨_, h.separator, bind_eq_ok.mpr ⟨_, h.banner, ?_⟩⟩
    refine bind_eq_ok.mpr ⟨_, h.footer, bind_eq_ok.mpr ⟨_, h.stripBanners, ?_⟩⟩
    refine bind_eq_ok.mpr ⟨_, h.process, bind_eq_ok.mpr ⟨_, h.sourceMap, ?_⟩⟩
    refine bind_eq_ok.mpr ⟨_, h.mapStyle, bind_eq_ok.mpr ⟨_, h.mapName, ?_⟩⟩
    exact bind_eq_ok.mpr ⟨_, h.root, rfl⟩

end SourceMerge.Options
