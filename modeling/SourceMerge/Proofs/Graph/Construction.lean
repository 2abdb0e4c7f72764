import SourceMerge.Proofs.Graph.Permutation
import SourceMerge.Proofs.Directive.Removal
import SourceMerge.Proofs.Table

/-!
# SourceMerge.Proofs.Graph.Construction

What `build` makes, read off the source texts.  A path has one unit, at the place
where it is first given and with the text that is given there.  The registered edges
are the dependencies of the units one after the other (`builtEdges_eq`):

```
edges              (a, x) (a, y) | (b, x) | (c, y) ...
dependencies of a      x      y
dependents of x     a               b
```

So the same list tells both ends of each edge, and the dependents of a unit stand in
the order of the units.
-/

namespace SourceMerge.Graph

variable {root marker : Text}

/-! ## the units -/

theorem paths_addSource (marker : Text) (g : Graph) (path raw : Text) :
    (addSource marker g path raw).paths =
      if Path.canonical path ∈ g.paths then g.paths else g.paths ++ [Path.canonical path] := by
  unfold addSource
  by_cases hknown : Path.canonical path ∈ g.paths
  · simp [contains_iff.mpr hknown, hknown]
  · have hcontains : ¬ g.contains (Path.canonical path) = true := fun h => hknown (contains_iff.mp h)
    simp only [hcontains, hknown, if_false, Bool.false_eq_true]
    simp [paths, SourceText.ofStripped]

theorem paths_foldl_addSource (marker : Text) (contents : List (Text × Text)) (g : Graph) :
    (contents.foldl (fun g e => addSource marker g e.1 e.2) g).paths =
      (contents.map fun e => Path.canonical e.1).foldl
        (fun known key => if key ∈ known then known else known ++ [key]) g.paths := by
  induction contents generalizing g with
  | nil => rfl
  | cons e rest ih => rw [List.foldl_cons, ih, paths_addSource, List.map_cons, List.foldl_cons]

/-- The units stand in the order in which their paths are first given. -/
theorem paths_ofSources (marker : Text) (contents : List (Text × Text)) :
    (ofSources marker contents).paths = (contents.map fun e => Path.canonical e.1).eraseDups := by
  have hfold := paths_foldl_addSource marker contents {}
  rw [Table.foldl_known] at hfold
  simpa [ofSources, paths] using hfold

/-- A unit that a fold over source texts adds is that of the first text given for its
path. -/
theorem mem_foldl_addSource {contents : List (Text × Text)} {g : Graph} {u : SourceText}
    (hu : u ∈ (contents.foldl (fun g e => addSource marker g e.1 e.2) g).units) :
    u ∈ g.units ∨ u.path ∉ g.paths ∧
      ∃ e, contents.find? (fun e => Path.canonical e.1 == u.path) = some e ∧
        u = SourceText.ofStripped u.path e.2 (Directive.strip marker e.2) := by
  induction contents generalizing g with
  | nil => exact .inl hu
  | cons e rest ih =>
      have hgrown := paths_addSource marker g e.1 e.2
      cases ih hu with
      | inl hmem =>
          by_cases hknown : Path.canonical e.1 ∈ g.paths
          · simp only [addSource, contains_iff.mpr hknown, if_true] at hmem
            exact .inl hmem
          · simp only [addSource, mt contains_iff.mp hknown, if_false, Bool.false_eq_true] at hmem
            cases List.mem_append.mp hmem with
            | inl hold => exact .inl hold
            | inr hnew =>
                have hsame := List.mem_singleton.mp hnew
                have hpath : u.path = Path.canonical e.1 := congrArg SourceText.path hsame
                refine .inr ⟨hpath ▸ hknown, e, ?_, ?_⟩
                · simp [hpath]
                · rw [hpath]
                  exact hsame
      | inr hlater =>
          obtain ⟨hnew, first, hfirst, hunit⟩ := hlater
          have hother : Path.canonical e.1 ≠ u.path ∧ u.path ∉ g.paths := by
            rw [hgrown] at hnew
            by_cases hknown : Path.canonical e.1 ∈ g.paths
            · rw [if_pos hknown] at hnew
              exact ⟨fun h => hnew (h ▸ hknown), hnew⟩
            · rw [if_neg hknown, List.mem_append, List.mem_singleton, not_or] at hnew
              exact ⟨Ne.symm hnew.2, hnew.1⟩
          refine .inr ⟨hother.2, first, ?_, hunit⟩
          rw [List.find?_cons_of_neg (by simpa using hother.1)]
          exact hfirst

/-- **The first text given for a path wins.** -/
theorem unit_ofSources {contents : List (Text × Text)} {u : SourceText}
    (hu : u ∈ (ofSources marker contents).units) :
    ∃ e, contents.find? (fun e => Path.canonical e.1 == u.path) = some e ∧
      u = SourceText.ofStripped u.path e.2 (Directive.strip marker e.2) := by
  cases mem_foldl_addSource hu with
  | inl hnone => exact absurd hnone List.not_mem_nil
  | inr hfirst => exact hfirst.2

/-! ## the edges -/

theorem targets_eq (root marker : Text) (u : SourceText) :
    targets root marker u =
      (Directive.findAll marker u.raw).map fun m => Path.resolve root m.reference u.path := by
  have hreferences : (Directive.strip marker u.raw).references =
      (Directive.findAll marker u.raw).map (·.reference) :=
    (Directive.map_reference_matchesFrom 0 _).symm
  rw [targets, hreferences, List.map_map]
  rfl

/-- Its own path is no dependency of a unit. -/
theorem foldl_addTarget (owner : Text) (ts ds : List Text) :
    ts.foldl (addTarget owner) ds = (ts.filter (· ≠ owner)).foldl
      (fun known t => if t ∈ known then known else known ++ [t]) ds := by
  induction ts generalizing ds with
  | nil => rfl
  | cons t ts ih =>
      by_cases hloop : t = owner
      · simp [addTarget, hloop, ih]
      · simp [addTarget, hloop, ih]

/-- What a unit depends on, in the order of its directives. -/
theorem ownDependencies_eq (root marker : Text) (u : SourceText) :
    ownDependencies root marker u = ((targets root marker u).filter (· ≠ u.path)).eraseDups := by
  rw [ownDependencies, foldl_addTarget, Table.foldl_known]
  simp

theorem nodup_foldl_addTarget (owner : Text) (ts : List Text) {ds : List Text} (hds : ds.Nodup) :
    (ts.foldl (addTarget owner) ds).Nodup := by
  induction ts generalizing ds with
  | nil => exact hds
  | cons t ts ih =>
      have hstep : (addTarget owner ds t).Nodup := by
        unfold addTarget
        by_cases hknown : t = owner ∨ t ∈ ds
        · rwa [if_pos hknown]
        · rw [not_or] at hknown
          rw [if_neg (not_or.mpr hknown)]
          exact List.Nodup.append hds (List.nodup_singleton t) (by simpa using hknown.2)
      exact ih hstep

theorem nodup_ownDependencies (root marker : Text) (u : SourceText) :
    (ownDependencies root marker u).Nodup :=
  nodup_foldl_addTarget u.path _ List.nodup_nil

/-- The edges of one more owner come behind those that are registered. -/
theorem foldl_addEdge_owner {es : List Edge} {owner : Text} (hnew : ∀ e ∈ es, e.1 ≠ owner)
    (ts ds : List Text) :
    (ts.map (owner, ·)).foldl addEdge (es ++ ds.map (owner, ·)) =
      es ++ (ts.foldl (addTarget owner) ds).map (owner, ·) := by
  induction ts generalizing ds with
  | nil => rfl
  | cons t ts ih =>
      have hmem : (owner, t) ∈ es ++ ds.map (owner, ·) ↔ t ∈ ds := by
        rw [List.mem_append, or_iff_right fun h => hnew _ h rfl]
        simp
      have hstep : addEdge (es ++ ds.map (owner, ·)) (owner, t) =
          es ++ (addTarget owner ds t).map (owner, ·) := by
        unfold addEdge addTarget
        by_cases hknown : t = owner ∨ t ∈ ds
        · rw [if_pos hknown, if_pos (by rwa [hmem])]
        · rw [if_neg hknown, if_neg (by rwa [hmem])]
          simp
      rw [List.map_cons, List.foldl_cons, hstep, ih, List.foldl_cons]

theorem foldl_addEdge_owners (root marker : Text) {us : List SourceText}
    (hn : (us.map (·.path)).Nodup) {es : List Edge} (hes : ∀ e ∈ es, e.1 ∉ us.map (·.path)) :
    (us.flatMap fun u => (targets root marker u).map (u.path, ·)).foldl addEdge es =
      es ++ us.flatMap fun u => (ownDependencies root marker u).map (u.path, ·) := by
  induction us generalizing es with
  | nil => simp
  | cons u us ih =>
      rw [List.map_cons, List.nodup_cons] at hn
      have howner : ∀ e ∈ es, e.1 ≠ u.path := fun e he h => hes e he (by simp [h])
      have hfirst : ((targets root marker u).map (u.path, ·)).foldl addEdge es =
          es ++ (ownDependencies root marker u).map (u.path, ·) := by
        simpa [ownDependencies] using foldl_addEdge_owner howner (targets root marker u) []
      have hlater : ∀ e ∈ es ++ (ownDependencies root marker u).map (u.path, ·),
          e.1 ∉ us.map (·.path) := by
        intro e he
        cases List.mem_append.mp he with
        | inl hold => exact fun h => hes e hold (List.mem_cons_of_mem _ h)
        | inr hown =>
            obtain ⟨t, -, rfl⟩ := List.mem_map.mp hown
            exact hn.1
      rw [List.flatMap_cons, List.foldl_append, hfirst, ih hn.2 hlater, List.flatMap_cons,
        List.append_assoc]

/-- **The registered edges** are the dependencies of the units one after the other. -/
theorem builtEdges_eq {g : Graph} (hg : g.paths.Nodup) :
    builtEdges root marker g =
      g.units.flatMap fun u => (ownDependencies root marker u).map (u.path, ·) :=
  foldl_addEdge_owners root marker hg (by simp)

theorem ownersIn_append (es fs : List Edge) (target : Text) :
    ownersIn (es ++ fs) target = ownersIn es target ++ ownersIn fs target := by
  simp [ownersIn]

/-- Of one owner's edges one at most leads to a path. -/
theorem ownersIn_map_owner {ds : List Text} (hd : ds.Nodup) (owner target : Text) :
    ownersIn (ds.map (owner, ·)) target = if target ∈ ds then [owner] else [] := by
  have hall : ownersIn (ds.map (owner, ·)) target =
      (ds.filter (· = target)).map fun _ => owner := by
    simp [ownersIn, List.filter_map, Function.comp_def]
  rw [hall, List.filter_eq, hd.count]
  by_cases hmem : target ∈ ds
  · simp [hmem]
  · simp [hmem]

/-- **The dependents of a path** are the units that depend on it, in their order. -/
theorem dependents_build {g : Graph} (hg : g.paths.Nodup) (target : Text) :
    ownersIn (builtEdges root marker g) target =
      (g.units.filter fun u => target ∈ ownDependencies root marker u).map (·.path) := by
  rw [builtEdges_eq hg]
  induction g.units with
  | nil => rfl
  | cons u us ih =>
      rw [List.flatMap_cons, ownersIn_append, ih,
        ownersIn_map_owner (nodup_ownDependencies root marker u)]
      by_cases hmem : target ∈ ownDependencies root marker u
      · simp [hmem]
      · simp [hmem]

/-! ## built graphs -/

section Built

variable {contents : List (Text × Text)} {u : SourceText}

/-- A unit of a built graph is made of the first text given for its path. -/
theorem exists_source_of_mem_build (hu : u ∈ (build root marker contents).units) :
    (∃ e, contents.find? (fun e => Path.canonical e.1 == u.path) = some e ∧ u.raw = e.2) ∧
      u.content = (Directive.strip marker u.raw).content ∧
      u.origins = (Directive.strip marker u.raw).origins ∧ u.emitted = false := by
  rw [build_eq_withEdges] at hu
  obtain ⟨v, hv, rfl⟩ := List.mem_map.mp hu
  obtain ⟨e, hfirst, hmade⟩ := unit_ofSources hv
  have hraw : v.raw = e.2 := congrArg SourceText.raw hmade
  have hcontent : v.content = (Directive.strip marker e.2).content :=
    congrArg SourceText.content hmade
  have horigins : v.origins = (Directive.strip marker e.2).origins :=
    congrArg SourceText.origins hmade
  have hpending : v.emitted = false := ((fresh_ofSources marker contents).untouched v hv).2.2
  simp only [hraw]
  exact ⟨⟨e, hfirst, rfl⟩, hcontent, horigins, hpending⟩

theorem dependencies_of_mem_build (hu : u ∈ (build root marker contents).units) :
    u.dependencies = ownDependencies root marker u := by
  have hnodup := (fresh_ofSources marker contents).nodup
  rw [build_eq_withEdges] at hu
  obtain ⟨v, hv, rfl⟩ := List.mem_map.mp hu
  exact dependencies_build root marker hnodup hv

/-- **The dependents of a unit** are the units that depend on it, in configured
order. -/
theorem dependents_of_mem_build (hu : u ∈ (build root marker contents).units) :
    u.dependents = ((build root marker contents).units.filter fun v =>
      u.path ∈ v.dependencies).map (·.path) := by
  have hnodup := (fresh_ofSources marker contents).nodup
  have hown : ∀ v ∈ (build root marker contents).units,
      decide (u.path ∈ v.dependencies) = decide (u.path ∈ ownDependencies root marker v) :=
    fun v hv => by rw [dependencies_of_mem_build hv]
  rw [List.filter_congr hown]
  rw [build_eq_withEdges] at hu ⊢
  obtain ⟨w, hw, rfl⟩ := List.mem_map.mp hu
  have hback : ownersIn (builtEdges root marker (ofSources marker contents)) w.path =
      ((ofSources marker contents).units.filter fun v =>
        w.path ∈ ownDependencies root marker v).map (·.path) := dependents_build hnodup w.path
  rw [withEdges, List.filter_map, List.map_map]
  exact hback

/-- Forward and backward edges agree. -/
theorem mem_dependents_iff (hu : u ∈ (build root marker contents).units) {d : SourceText}
    (hd : d ∈ (build root marker contents).units) :
    u.path ∈ d.dependents ↔ d.path ∈ u.dependencies := by
  have hlinked := linked_build root marker contents
  rw [hlinked.dependents_iff d hd]
  constructor
  · rintro ⟨v, hv, hpath, hmem⟩
    have hsame : some v = some u := by
      rw [← get?_of_mem hlinked.nodup hv, hpath, get?_of_mem hlinked.nodup hu]
    rwa [← Option.some.inj hsame]
  · intro hmem
    exact ⟨u, hu, rfl, hmem⟩

/-- What waits for a unit is a unit. -/
theorem mem_paths_of_mem_dependents (hu : u ∈ (build root marker contents).units) {q : Text}
    (hq : q ∈ u.dependents) : q ∈ (build root marker contents).paths := by
  rw [dependents_of_mem_build hu] at hq
  obtain ⟨v, hv, rfl⟩ := List.mem_map.mp hq
  exact List.mem_map_of_mem (List.mem_filter.mp hv).1

end Built

/-- **What building makes of source texts.**  Each canonical path has one unit, in the
order in which the paths are first given, and the unit is made of the first text given
for it.  What a unit depends on are the paths that its directives name, in textual
order, without later repetitions and without its own path.  Forward and backward edges
agree: the dependents of a unit are the units that depend on it, each once and in
configured order.  A path that is no unit is in no list of dependents, and has none. -/
theorem build_mutual (root marker : Text) (contents : List (Text × Text)) :
    let B := build root marker contents
    B.paths = (contents.map fun e => Path.canonical e.1).eraseDups ∧
      B.paths.Nodup ∧ (∀ q ∈ B.paths, Path.canonical q = q) ∧
      (∀ u ∈ B.units,
        (∃ e, contents.find? (fun e => Path.canonical e.1 == u.path) = some e ∧ u.raw = e.2) ∧
          u.content = (Directive.strip marker u.raw).content ∧
          u.origins = (Directive.strip marker u.raw).origins ∧ u.emitted = false) ∧
      (∀ u ∈ B.units, u.dependencies =
        (((Directive.findAll marker u.raw).map fun m => Path.resolve root m.reference u.path).filter
          (· ≠ u.path)).eraseDups) ∧
      (∀ u ∈ B.units, ∀ d ∈ B.units, u.path ∈ d.dependents ↔ d.path ∈ u.dependencies) ∧
      (∀ d ∈ B.units, d.dependents.Nodup ∧
        d.dependents = (B.units.filter fun u => d.path ∈ u.dependencies).map (·.path)) ∧
      (∀ q ∉ B.paths, B.get? q = none ∧ ∀ d ∈ B.units, q ∉ d.dependents) := by
  intro B
  have hlinked : Linked B := linked_build root marker contents
  have hpaths : B.paths = (contents.map fun e => Path.canonical e.1).eraseDups := by
    have hsources : B.paths = (ofSources marker contents).paths := by
      simp only [B, build_eq_withEdges, paths_withEdges]
    rw [hsources, paths_ofSources]
  have hcanonical : ∀ q ∈ B.paths, Path.canonical q = q := by
    intro q hq
    obtain ⟨p, rfl⟩ := canonical_of_mem_paths_build hq
    exact Path.canonical_canonical p
  have hdependencies : ∀ u ∈ B.units, u.dependencies =
      (((Directive.findAll marker u.raw).map fun m => Path.resolve root m.reference u.path).filter
        (· ≠ u.path)).eraseDups := by
    intro u hu
    rw [dependencies_of_mem_build hu, ownDependencies_eq, targets_eq]
  have hstrangers : ∀ q ∉ B.paths, B.get? q = none ∧ ∀ d ∈ B.units, q ∉ d.dependents := by
    intro q hq
    have hnone : B.get? q = none := by
      cases hfound : B.get? q with
      | none => rfl
      | some u => exact absurd (exists_get?_iff.mp ⟨u, hfound⟩) hq
    exact ⟨hnone, fun d hd hmem => hq (mem_paths_of_mem_dependents hd hmem)⟩
  exact ⟨hpaths, hlinked.nodup, hcanonical, fun u => exists_source_of_mem_build, hdependencies,
    fun u hu d => mem_dependents_iff hu,
    fun d hd => ⟨hlinked.nodup_dependents d hd, dependents_of_mem_build hd⟩, hstrangers⟩

end SourceMerge.Graph
