import SourceMerge.Proofs.Merge.Conflict
import SourceMerge.Proofs.Options.Values
import SourceMerge.Proofs.Path.Resolved

/-!
# SourceMerge.Proofs.Project.Reading

What can be relied upon in a project that was read.  Each of its targets comes from one
entry of the configuration (`ReadFrom`).  Its options are those of the project's entries
with the target's own behind them, so that the last word is the target's, under whatever
spelling either is given.  Its paths are resolved, and the style of its map is the plain
name of a delivery (`Target.Placed`).
-/

namespace SourceMerge

open Mapping

/-! ## options -/

/-- Options whose paths are resolved and whose style is the plain name of a delivery. -/
structure Options.Placed (o : Options) : Prop where
  root : Path.Resolved o.root
  mapName : o.mapName = .beside ∨ ∃ path, o.mapName = .fixed path ∧ Path.Resolved path
  style : ∃ delivery, Delivery.ofName? o.mapStyle = some delivery ∧ o.mapStyle = delivery.name
  lower : Text.lower o.mapStyle = o.mapStyle
  /-- So a link is seen wherever one is asked for. -/
  conflicts : Merge.conflicts o = true ↔ o.LinksChanged

namespace Options

variable {modules : List HookModule} {vs : Values} {o : Options}

/-- Options that are read from data below a resolved root are placed. -/
theorem placed_of_read {root : Text} (hroot : Path.Resolved root)
    (hdata : ∀ v, vs.get? .mapName = some v → ∃ d, v = .data d)
    (h : read modules (some root) vs = .ok o) : o.Placed := by
  have hread := read_eq_ok_iff.mp h
  obtain ⟨delivery, hstyle⟩ := name_of_read h
  refine ⟨?_, ?_, ⟨delivery, ?_, hstyle⟩, ?_, (plainLink_of_read h).conflicts_iff⟩
  · have hplaced := hread.root
    unfold readOr at hplaced
    split at hplaced
    · unfold readRoot at hplaced
      split at hplaced
      · split at hplaced
        · rw [← Except.ok.inj hplaced]
          exact Path.resolved_anchored hroot.absolute _
        · cases hplaced
        · cases hplaced
      · cases hplaced
    · rwa [← Except.ok.inj hplaced]
  · have hnamed := hread.mapName
    unfold readOr at hnamed
    split at hnamed
    · next v hv =>
      obtain ⟨d, rfl⟩ := hdata v hv
      unfold readMapName at hnamed
      split at hnamed
      · exact .inl (Except.ok.inj hnamed).symm
      · exact .inr ⟨_, (Except.ok.inj hnamed).symm, Path.resolved_anchored hroot.absolute _⟩
      · next heq => cases heq
      · cases hnamed
    · exact .inl (Except.ok.inj hnamed).symm
  · rw [hstyle]
    cases delivery <;> rfl
  · rw [hstyle]
    cases delivery <;> rfl

end Options

/-! ## outputs -/

/-- A target with outputs, whose paths are all resolved. -/
structure Target.Placed (t : Target) : Prop where
  destinations : t.destinations ≠ []
  dest : ∀ d ∈ t.destinations, Path.Resolved d.dest
  base : ∀ d ∈ t.destinations, Path.Resolved d.base
  options : t.options.Placed

namespace Project

variable {modules : List HookModule} {root name : Text}

theorem keyText_eq_ok {key : Data} {t : Text} : keyText key = .ok t ↔ key.display? = some t := by
  unfold keyText
  split <;> simp_all

/-- An output is seen from the root. -/
theorem resolved_of_destinationOf {nonull : Bool} {dest : Text} {patterns : Data} {d : Destination}
    (hroot : Path.Resolved root) (h : destinationOf root nonull dest patterns = .ok d) :
    Path.Resolved d.dest ∧ d.base = root := by
  obtain ⟨chosen, -, h⟩ := bind_eq_ok.mp h
  rw [← Except.ok.inj h]
  exact ⟨Path.resolved_anchored hroot.absolute dest, rfl⟩

/-- The outputs of a target, in either way of writing. -/
theorem exists_of_mem_destinationsOf {settings : Entries} {ds : List Destination}
    (h : destinationsOf root name settings = .ok ds) :
    ds ≠ [] ∧ ∀ d ∈ ds, ∃ nonull dest patterns,
      destinationOf root nonull dest patterns = .ok d := by
  obtain ⟨listed, hlisted, h⟩ := bind_eq_ok.mp h
  obtain ⟨single, hsingle, h⟩ := bind_eq_ok.mp h
  have hall : ∀ d ∈ listed ++ single,
      ∃ nonull dest patterns, destinationOf root nonull dest patterns = .ok d := by
    rw [List.forall_mem_append]
    constructor
    · unfold listedDestinations at hlisted
      split at hlisted
      · rw [← Except.ok.inj hlisted]
        exact List.forall_mem_nil _
      · intro d hd
        obtain ⟨e, -, hone⟩ := exists_of_mapM_eq_ok hlisted hd
        obtain ⟨dest, -, hone⟩ := bind_eq_ok.mp hone
        exact ⟨_, dest, e.2, hone⟩
      · cases hlisted
    · unfold singleDestination at hsingle
      split at hsingle
      · rw [← Except.ok.inj hsingle]
        exact List.forall_mem_nil _
      · split at hsingle
        · obtain ⟨d, hone, hsingle⟩ := bind_eq_ok.mp hsingle
          rw [← Except.ok.inj hsingle]
          exact List.forall_mem_singleton.mpr ⟨_, _, _, hone⟩
        · cases hsingle
        · cases hsingle
  split at h
  · cases h
  · next hne =>
    obtain rfl : listed ++ single = ds := Except.ok.inj h
    exact ⟨hne, hall⟩

/-! ## targets -/

/-- The options of a configuration, one value after the other. -/
def given (options : Data) : List (Data × OptionValue) :=
  options.entries.map fun e => (e.1, .data e.2)

theorem optionValues_eq_ok {context : Text} {options : Data} {vs : Options.Values} :
    optionValues context options = .ok vs ↔
      Options.Values.ofEntries context (given options) = .ok vs := mapError_eq_ok

/-- Configurations give data. -/
theorem exists_of_lastGiven? {options : Data} {n : OptionName} {v : OptionValue}
    (h : Options.lastGiven? (given options) n = some v) : ∃ d, v = .data d := by
  obtain ⟨e, he, rfl⟩ := Option.map_eq_some_iff.mp h
  have hmem := List.mem_reverse.mp (List.mem_of_find?_eq_some he)
  obtain ⟨e', -, rfl⟩ := List.mem_map.mp hmem
  exact ⟨e'.2, rfl⟩

/-- The options that a target gives itself. -/
def ownOptions (settings : Data) : Data := (settings.field? "options").getD .null

/-- The target is what the entry of a configuration says, below the options `shared` of
the project. -/
structure ReadFrom (modules : List HookModule) (root : Text) (shared : Data) (e : Data × Data)
    (t : Target) : Prop where
  name : e.1.display? = some t.name
  /-- The options are read from both, where the target's own come last. -/
  options : Options.ofEntries modules (some root) t.name
    (given shared ++ given (ownOptions e.2)) = .ok t.options
  /-- So a value of the target replaces one of the project, whatever key either has. -/
  replaced : ∀ vs : Options.Values,
    (∀ n, vs.get? n = (Options.lastGiven? (given (ownOptions e.2)) n).or
      (Options.lastGiven? (given shared) n)) → Options.read modules (some root) vs = .ok t.options
  placed : t.Placed

theorem readFrom_of_targetOf {shared key settings : Data} {defaults : Options.Values} {t : Target}
    (hroot : Path.Resolved root) {context : Text}
    (hshared : optionValues context shared = .ok defaults)
    (h : targetOf modules root defaults key settings = .ok t) :
    ReadFrom modules root shared (key, settings) t := by
  obtain ⟨name, hname, hsettings⟩ := bind_eq_ok.mp h
  split at hsettings
  · next settings =>
    obtain ⟨own, hown, h⟩ := bind_eq_ok.mp hsettings
    obtain ⟨options, hread, h⟩ := bind_eq_ok.mp h
    obtain ⟨destinations, hdest, h⟩ := bind_eq_ok.mp h
    obtain rfl := Except.ok.inj h
    have hread := mapError_eq_ok.mp hread
    obtain ⟨hsharedNamed, -, hsharedGet⟩ :=
      Options.Values.ofEntries_eq_ok (optionValues_eq_ok.mp hshared)
    obtain ⟨hownNamed, hnodup, hownGet⟩ := Options.Values.ofEntries_eq_ok (optionValues_eq_ok.mp hown)
    -- Values laid over others are found where they are found behind them.
    have hget : ∀ n, (Options.Values.overlay defaults own).get? n =
        Options.lastGiven? (given shared ++ given (value settings "options")) n := fun n => by
      rw [Options.Values.get?_overlay defaults hnodup, hownGet, hsharedGet,
        Options.lastGiven?_append]
    refine ⟨keyText_eq_ok.mp hname, ?_, fun vs hvs => ?_, ?_, fun d hd => ?_, fun d hd => ?_, ?_⟩
    · obtain ⟨vs, hvs⟩ := Options.Values.exists_ofEntries
        (Options.allNamed_append.mpr ⟨hsharedNamed, hownNamed⟩) name
      obtain ⟨-, -, hvsGet⟩ := Options.Values.ofEntries_eq_ok hvs
      refine bind_eq_ok.mpr ⟨vs, hvs, mapError_eq_ok.mpr ?_⟩
      rw [Options.read_congr fun n => (hvsGet n).trans (hget n).symm]
      exact hread
    · rw [Options.read_congr fun n => (hvs n).trans
        ((Options.lastGiven?_append _ _ n).symm.trans (hget n).symm)]
      exact hread
    · exact (exists_of_mem_destinationsOf hdest).1
    · obtain ⟨nonull, dest, patterns, hone⟩ := (exists_of_mem_destinationsOf hdest).2 d hd
      exact (resolved_of_destinationOf hroot hone).1
    · obtain ⟨nonull, dest, patterns, hone⟩ := (exists_of_mem_destinationsOf hdest).2 d hd
      rw [(resolved_of_destinationOf hroot hone).2]
      exact hroot
    · refine Options.placed_of_read hroot (fun v hv => ?_) hread
      rw [hget, Options.lastGiven?_append, Option.or_eq_some_iff] at hv
      rcases hv with hv | ⟨-, hv⟩ <;> exact exists_of_lastGiven? hv
  · cases hsettings

/-- **What is read from a configuration**: a target from each entry. -/
theorem readFrom_of_ofData {entries : Entries} {p : Project} (hroot : Path.Resolved root)
    (h : ofData modules root (.map entries) = .ok p) :
    p.root = root ∧ List.Forall₂ (ReadFrom modules root (value entries "options"))
      (value entries "targets").entries p.targets := by
  obtain ⟨defaults, hshared, h⟩ := bind_eq_ok.mp h
  split at h
  · next htargets =>
    obtain rfl := Except.ok.inj h
    rw [htargets]
    exact ⟨rfl, .nil⟩
  · next rows htargets =>
    obtain ⟨targets, hmap, h⟩ := bind_eq_ok.mp h
    obtain rfl := Except.ok.inj h
    rw [htargets]
    exact ⟨rfl, (mapM_eq_ok.mp hmap).imp fun e t ht => readFrom_of_targetOf hroot hshared ht⟩
  · cases h

end Project

end SourceMerge
