import Mathlib.Data.Option.Basic
import SourceMerge.Proofs.Project.Reading
import SourceMerge.Proofs.Store.Disk

/-!
# SourceMerge.Proofs.Project.Loading

Projects that are loaded, and the spelling of their options.  A configuration holds
options in two places, of the project and of each target:

```
options: { stripBanners: true }                 -- OptionsRespelled
targets:
  app: { options: { strip_banners: false } }    -- TargetRespelled
```

`Respelled` says that two configurations are the same up to the spelling of keys in
these places.  They describe the same project, or have the same fault, for options are
put together by what their keys name.  A project that is loaded from a disk is read
below a resolved root, so that all of `SourceMerge.Proofs.Project.Reading` holds of it.
-/

namespace SourceMerge

namespace Project

/-! ## other spellings -/

/-- A value is the same, or a mapping with entries that are related one by one. -/
inductive EntryWise (R : Data × Data → Data × Data → Prop) : Data → Data → Prop
  | same (d : Data) : EntryWise R d d
  | entries {es es' : Entries} (h : List.Forall₂ R es es') : EntryWise R (.map es) (.map es')

/-- The same keys hold values that are related as the key allows. -/
def AtKeys (R : Data → Data → Data → Prop) (e e' : Data × Data) : Prop :=
  e.1 = e'.1 ∧ R e.1 e.2 e'.2

/-- Options up to the spelling of their keys. -/
def OptionsRespelled : Data → Data → Prop := EntryWise Options.SameOption

/-- The settings of a target up to the spelling of its options. -/
def TargetRespelled : Data → Data → Prop :=
  EntryWise (AtKeys fun key d d' => d = d' ∨ key = .text "options" ∧ OptionsRespelled d d')

/-- The targets of a project up to the spelling of their options. -/
def TargetsRespelled : Data → Data → Prop := EntryWise (AtKeys fun _ => TargetRespelled)

/-- A configuration up to the spelling of options. -/
def Respelled : Data → Data → Prop :=
  EntryWise (AtKeys fun key d d' => d = d' ∨ key = .text "options" ∧ OptionsRespelled d d' ∨
    key = .text "targets" ∧ TargetsRespelled d d')

theorem eq_text_of_same {d : Data} {key : Text} (h : Data.same d (.text key) = true) :
    d = .text key := by
  cases d with
  | text t => simpa [Data.same] using h
  | _ => simp [Data.same] at h

/-- Entries at the same keys are found at the same keys. -/
theorem rel_get? {R : Data → Data → Data → Prop} {es es' : Entries}
    (h : List.Forall₂ (AtKeys R) es es') (key : Text) :
    Option.Rel (R (.text key)) (Entries.get? es (.text key)) (Entries.get? es' (.text key)) := by
  induction h with
  | nil => exact .none
  | @cons e e' es es' hentry _ ih =>
      obtain ⟨hkey, hvalue⟩ := hentry
      unfold Entries.get? at ih ⊢
      -- Both look-ups stop at the same entry, for their keys are the same.
      rw [List.find?_cons, List.find?_cons, ← hkey]
      cases hsame : Data.same e.1 (.text key) with
      | false => exact ih
      | true =>
          rw [eq_text_of_same hsame] at hvalue
          exact .some hvalue

theorem rel_value {R : Data → Data → Data → Prop} {es es' : Entries}
    (h : List.Forall₂ (AtKeys R) es es') {key : Text} (hnull : R (.text key) .null .null) :
    R (.text key) (value es key) (value es' key) := by
  have hfound := rel_get? h key
  unfold value
  generalize Entries.get? es (.text key) = found at hfound ⊢
  generalize Entries.get? es' (.text key) = found' at hfound ⊢
  cases hfound with
  | some hvalue => exact hvalue
  | none => exact hnull

/-- What is not respelled at all is found as it is. -/
theorem get?_eq_of_rel {R : Data → Data → Data → Prop} {es es' : Entries}
    (h : List.Forall₂ (AtKeys R) es es') {key : Text}
    (hR : ∀ d d', R (.text key) d d' → d = d') :
    Entries.get? es (.text key) = Entries.get? es' (.text key) := by
  have hfound := rel_get? h key
  generalize Entries.get? es (.text key) = found at hfound ⊢
  generalize Entries.get? es' (.text key) = found' at hfound ⊢
  cases hfound with
  | some hvalue => exact congrArg some (hR _ _ hvalue)
  | none => rfl

/-! ## readings that do not hang on the spelling -/

section Congr

variable {modules : List HookModule} {root : Text}

theorem optionValues_congr {options options' : Data} (h : OptionsRespelled options options')
    (context : Text) : optionValues context options = optionValues context options' := by
  cases h with
  | same => rfl
  | @entries es es' h =>
      have hgiven : List.Forall₂ Options.SameOption (given (.map es)) (given (.map es')) :=
        List.rel_map (fun e e' hsame => ⟨congrArg OptionValue.data hsame.1, hsame.2⟩) h
      exact congrArg (Except.mapError _) (Options.Values.ofEntries_congr hgiven context)

/-- What is read beside the options. -/
theorem destinationsOf_congr {es es' : Entries} (h : ∀ key : Text, key ≠ "options" →
    Entries.get? es (.text key) = Entries.get? es' (.text key)) (root name : Text) :
    destinationsOf root name es = destinationsOf root name es' := by
  have hkeys : ∀ key : Text, key ≠ "options" → value es key = value es' key := fun key hkey => by
    rw [value, value, h key hkey]
  simp only [destinationsOf, singleDestination, hkeys "nonull" (by decide),
    hkeys "files" (by decide), hkeys "dest" (by decide), hkeys "src" (by decide),
    h "dest" (by decide), h "src" (by decide)]

theorem targetOf_congr {settings settings' : Data} (h : TargetRespelled settings settings')
    (defaults : Options.Values) (key : Data) :
    targetOf modules root defaults key settings = targetOf modules root defaults key settings' := by
  cases h with
  | same => rfl
  | @entries es es' h =>
      have hoptions : OptionsRespelled (value es "options") (value es' "options") := by
        rcases rel_value h (.inl rfl) with heq | ⟨-, hrespelled⟩
        · rw [heq]
          exact .same _
        · exact hrespelled
      have hothers : ∀ key : Text, key ≠ "options" →
          Entries.get? es (.text key) = Entries.get? es' (.text key) := fun key hkey =>
        get?_eq_of_rel h fun d d' hvalue =>
          hvalue.resolve_right fun hname => hkey (Data.text.inj hname.1)
      simp only [targetOf, optionValues_congr hoptions, destinationsOf_congr hothers]

theorem mapM_targetOf_congr {rows rows' : Entries}
    (h : List.Forall₂ (AtKeys fun _ => TargetRespelled) rows rows') (defaults : Options.Values) :
    rows.mapM (fun e => targetOf modules root defaults e.1 e.2) =
      rows'.mapM fun e => targetOf modules root defaults e.1 e.2 := by
  induction h with
  | nil => rfl
  | cons hrow _ ih =>
      obtain ⟨hkey, hsettings⟩ := hrow
      rw [List.mapM_cons, List.mapM_cons, ← hkey, targetOf_congr hsettings, ih]

/-- **How options are spelled makes no difference** to what a configuration describes. -/
theorem ofData_congr {document document' : Data} (h : Respelled document document') :
    ofData modules root document = ofData modules root document' := by
  cases h with
  | same => rfl
  | @entries es es' h =>
      have hoptions : OptionsRespelled (value es "options") (value es' "options") := by
        rcases rel_value h (.inl rfl) with heq | ⟨-, hrespelled⟩ | ⟨hname, -⟩
        · rw [heq]
          exact .same _
        · exact hrespelled
        · exact absurd (Data.text.inj hname) (by decide)
      have htargets : TargetsRespelled (value es "targets") (value es' "targets") := by
        rcases rel_value h (.inl rfl) with heq | ⟨hname, -⟩ | ⟨-, hrespelled⟩
        · rw [heq]
          exact .same _
        · exact absurd (Data.text.inj hname) (by decide)
        · exact hrespelled
      have hdata : value es "data" = value es' "data" := by
        rcases rel_value h (.inl rfl) with heq | ⟨hname, -⟩ | ⟨hname, -⟩
        · exact heq
        · exact absurd (Data.text.inj hname) (by decide)
        · exact absurd (Data.text.inj hname) (by decide)
      simp only [ofData, optionValues_congr hoptions, hdata]
      generalize value es "targets" = targets at htargets
      generalize value es' "targets" = targets' at htargets
      cases htargets with
      | same => rfl
      | entries h => simp only [mapM_targetOf_congr h]

end Congr

/-! ## loading -/

theorem runAt_expandHome_snd (path : Text) (s : Session) :
    (runAt (expandHome path : ExceptT LoadFault (StateM Session) Text) s).2 = s := by
  simp only [expandHome]
  split
  · rw [runAt_bind, runAt_liftM]
    dsimp only
    split <;> rfl
  · rfl

/-- The configuration file lies in a resolved directory; looking for it changes nothing. -/
theorem resolved_of_configFile {path file : Text} {s s' : Session}
    (h : runAt (configFile path) s = (.ok file, s')) :
    s' = s ∧ Path.Resolved (Path.directory file) := by
  obtain ⟨path', s₁, hexpand, h⟩ := runAt_bind_eq_ok.mp h
  obtain rfl : s = s₁ := by rw [← runAt_expandHome_snd path s, hexpand]
  have hhere := s.disk.isAbsolute_workingDirectory
  simp only [runAt_bind, runAt_liftM] at h
  split at h
  all_goals
    obtain ⟨hfile, hs⟩ := Prod.mk.inj h
    rw [← Except.ok.inj hfile]
    exact ⟨hs.symm, Path.resolved_directory_located hhere _⟩

/-- The project is what the entries of a configuration say, below a resolved root. -/
structure Described (modules : List HookModule) (root : Text) (entries : Entries) (p : Project) :
    Prop where
  below : p.root = root
  resolved : Path.Resolved root
  targets : List.Forall₂ (ReadFrom modules root (value entries "options"))
    (value entries "targets").entries p.targets
  respelled : ∀ document, Respelled (.map entries) document → ofData modules root document = .ok p

theorem described_of_ofData {modules : List HookModule} {root : Text} {entries : Entries}
    {p : Project} (hroot : Path.Resolved root) (h : ofData modules root (.map entries) = .ok p) :
    Described modules root entries p where
  below := (readFrom_of_ofData hroot h).1
  resolved := hroot
  targets := (readFrom_of_ofData hroot h).2
  respelled := fun _ hrespelled => (ofData_congr hrespelled).symm.trans h

/-- A project is described by a mapping. -/
theorem exists_entries_of_ofData {modules : List HookModule} {root : Text} {document : Data}
    {p : Project} (h : ofData modules root document = .ok p) :
    ∃ entries, document = .map entries := by
  cases document with
  | map entries => exact ⟨entries, rfl⟩
  | _ => cases h

/-- **What is loaded is what a configuration says**, whatever reads the file.  A project
that is loaded is empty, for there is no configuration file, or described by the entries
that the reader finds in that file.  The same holds of entries that come from elsewhere.
A mapping may even use both spellings of an option. -/
theorem load_describes (reader : Reader) (modules : List HookModule) :
    (∀ (path : Text) (s s' : Session) (p : Project),
      runAt (load reader modules path) s = (.ok p, s') →
      s' = s ∧ ∃ file, runAt (configFile path) s = (.ok file, s) ∧
        Path.Resolved (Path.directory file) ∧
        (s.disk.contains (Session.onDisk file) = false ∧ p = { root := Path.directory file } ∨
          ∃ t entries, s.disk.readAs .utf8 (Session.onDisk file) = .ok t ∧
            documentOf reader (Path.fileName file) t = .ok (.map entries) ∧
            Described modules (Path.directory file) entries p)) ∧
      ∀ (root : Text) (entries : Entries) (p : Project), Path.Resolved root →
        ofData modules root (.map entries) = .ok p → Described modules root entries p := by
  refine ⟨fun path s s' p hload => ?_, fun root entries p hroot h => described_of_ofData hroot h⟩
  obtain ⟨file, s₁, hfile, hrun⟩ := runAt_bind_eq_ok.mp hload
  obtain ⟨hs, hroot⟩ := resolved_of_configFile hfile
  rw [hs] at hfile hrun
  rw [runAt_bind, runAt_liftM] at hrun
  dsimp only at hrun
  -- Asking the disk leaves the session as it is.
  split at hrun
  · obtain ⟨answer, s₂, hanswer, hrun⟩ := runAt_bind_eq_ok.mp hrun
    obtain ⟨t, s₃, ht, hrun⟩ := runAt_bind_eq_ok.mp hrun
    obtain ⟨hread, hs₂⟩ := Prod.mk.inj hanswer
    obtain ⟨ht, hs₃⟩ := Prod.mk.inj ht
    obtain ⟨hp, hs'⟩ := Prod.mk.inj hrun
    obtain ⟨document, hdocument, hp⟩ := bind_eq_ok.mp (mapError_eq_ok.mp hp)
    obtain ⟨entries, rfl⟩ := exists_entries_of_ofData hp
    refine ⟨(hs₂.trans (hs₃.trans hs')).symm, file, hfile, hroot, .inr ⟨t, entries, ?_, hdocument,
      described_of_ofData hroot hp⟩⟩
    exact (Except.ok.inj hread).trans (mapError_eq_ok.mp ht)
  · next hmissing =>
    obtain ⟨hp, hs'⟩ := Prod.mk.inj hrun
    exact ⟨hs'.symm, file, hfile, hroot,
      .inl ⟨Bool.eq_false_iff.mpr hmissing, (Except.ok.inj hp).symm⟩⟩

/-- A project with two options, and a target that sets one of them again, under keys for
both. -/
def optedTwice (shared own : Text) : Entries :=
  [(.text "options", .map [(.text shared, .bool true), (.text "separator", .text ";")]),
    (.text "targets", .map [(.text "app", .map [(.text "dest", .text "lib/../out.js"),
      (.text "options", .map [(.text own, .bool false)])])])]

/-- What its entries are read as, whatever the keys. -/
def optedProject : Project :=
  { root := "/p"
    targets :=
      [{ name := "app"
         destinations := [{ dest := "/p/out.js", patterns := [], base := "/p" }]
         options := { separator := ";", root := "/p" } }] }

/-- A configuration file with one such target in a directory. -/
def optedSession : Session :=
  let options : Text := "options: \x7bstripBanners: yes, separator: ;\x7d\n"
  let targets : Text := "targets: \x7bapp: \x7bdest: o, options: \x7bstripBanners: no\x7d\x7d\x7d"
  let t := options ++ targets
  { disk := { root := .directory [("p", .directory [(configName, .file (Text.toUtf8 t))])] } }

theorem load_describes_opted :
    (∃ p entries, runAt (load plainReader [] "/p") optedSession = (.ok p, optedSession) ∧
        Described [] "/p" entries p ∧ p.targets.map (·.options.separator) = [[';']] ∧
        p.targets.all (·.options.stripBanners.isNone)) ∧
      Path.Resolved "/p" ∧
      ofData [] "/p" (.map (optedTwice "stripBanners" "strip_banners")) = .ok optedProject ∧
      Described [] "/p" (optedTwice "stripBanners" "strip_banners") optedProject ∧
      ofData [] "/p" (.map (optedTwice "strip_banners" "stripBanners")) = .ok optedProject := by
  constructor
  · have hfound : (runAt (load plainReader [] "/p") optedSession).1.toOption.map
        (fun p => (p.targets.map (·.options.separator),
          p.targets.all (·.options.stripBanners.isNone))) = some ([[';']], true) := by
      decide +kernel
    obtain ⟨p, s', hrun, hoptions⟩ := exists_ok_of_toOption hfound
    obtain ⟨hseparator, hbanners⟩ := Prod.mk.inj hoptions
    obtain ⟨rfl, file, hfile, -, h⟩ := (load_describes plainReader []).1 _ _ _ _ hrun
    have hconfig : runAt (configFile "/p") optedSession = (.ok "/p/.oconcat.yml", optedSession) := by
      rfl
    obtain rfl := Except.ok.inj (Prod.mk.inj (hfile.symm.trans hconfig)).1
    rcases h with ⟨hmissing, -⟩ | ⟨t, entries, -, -, hp⟩
    · exact absurd hmissing (by decide +kernel)
    · exact ⟨p, entries, hrun, hp, hseparator, hbanners⟩
  · have hroot : Path.Resolved "/p" := ⟨by decide, by decide⟩
    have hread : ofData [] "/p" (.map (optedTwice "stripBanners" "strip_banners")) =
        .ok optedProject := by with_unfolding_all rfl
    have hdescribed := (load_describes plainReader []).2 _ _ _ hroot hread
    refine ⟨hroot, hread, hdescribed, hdescribed.respelled _ ?_⟩
    have hoption : ∀ {key key' : Text}, OptionName.ofKey? (.text key) = some .stripBanners →
        OptionName.ofKey? (.text key') = some .stripBanners → ∀ d (rest : Entries),
        OptionsRespelled (.map ((.text key, d) :: rest)) (.map ((.text key', d) :: rest)) :=
      fun h h' d rest => .entries (.cons ⟨rfl, .inr ⟨_, h, h'⟩⟩
        (List.forall₂_same.mpr fun e _ => ⟨rfl, .inl rfl⟩))
    refine .entries (.cons ⟨rfl, .inr (.inl ⟨rfl, hoption (by rfl) (by rfl) _ _⟩)⟩
      (.cons ⟨rfl, .inr (.inr ⟨rfl, .entries (.cons ⟨rfl, .entries ?_⟩ .nil)⟩)⟩ .nil))
    exact .cons ⟨rfl, .inl rfl⟩ (.cons ⟨rfl, .inr ⟨rfl, hoption (by rfl) (by rfl) _ _⟩⟩ .nil)

end Project

end SourceMerge
