import SourceMerge.Proofs.Graph.Order
import SourceMerge.Proofs.Path.Canonical

/-!
# SourceMerge.Proofs.Graph.Permutation

What the configured order decides: the order of the output, and nothing else.  If
source texts of different paths are given in another order, the same units are
emitted, the others are left out as before, and each of them waits for the same paths.

The order shows in a built graph in two places only, in the order of its units and in
their backward edges.  What a unit depends on is read off its own text
(`dependencies_build`), so without the backward edges the units of two such graphs are
a permutation of each other.  Which units are emitted is said without the walk
(`Emission.mem_iff_grounded`), and does not look at backward edges at all.
-/

namespace SourceMerge

/-- A unit without what waits for it. -/
def SourceText.forward (u : SourceText) : SourceText := { u with dependents := [] }

@[simp] theorem SourceText.path_forward (u : SourceText) : u.forward.path = u.path := rfl

@[simp] theorem SourceText.dependencies_forward (u : SourceText) :
    u.forward.dependencies = u.dependencies := rfl

namespace Graph

/-! ## what a unit depends on -/

/-- Takes one more dependency of an owner: the owner itself or a known one adds
nothing. -/
def addTarget (owner : Text) (ts : List Text) (t : Text) : List Text :=
  if t = owner ∨ t ∈ ts then ts else ts ++ [t]

/-- The paths that a unit depends on: those that its directives name, each once. -/
def ownDependencies (root marker : Text) (u : SourceText) : List Text :=
  (targets root marker u).foldl (addTarget u.path) []

theorem targetsIn_append (es fs : List Edge) (owner : Text) :
    targetsIn (es ++ fs) owner = targetsIn es owner ++ targetsIn fs owner := by
  simp [targetsIn]

theorem targetsIn_map_self (owner : Text) (ts : List Text) :
    targetsIn (ts.map (owner, ·)) owner = ts := by
  simp [targetsIn, List.filter_map, Function.comp_def]

theorem targetsIn_map_of_ne {owner other : Text} (h : other ≠ owner) (ts : List Text) :
    targetsIn (ts.map (other, ·)) owner = [] := by
  simp [targetsIn, h]

/-- An edge adds to what its own owner depends on. -/
theorem targetsIn_addEdge (es : List Edge) (e : Edge) (owner : Text) :
    targetsIn (addEdge es e) owner =
      if e.1 = owner then addTarget owner (targetsIn es owner) e.2 else targetsIn es owner := by
  obtain ⟨start, target⟩ := e
  unfold addEdge addTarget
  by_cases howner : start = owner
  · subst howner
    simp only [if_true, mem_targetsIn]
    by_cases hknown : target = start ∨ (start, target) ∈ es
    · rw [if_pos hknown, if_pos hknown]
    · rw [if_neg hknown, if_neg hknown, targetsIn_append]
      exact congrArg _ (targetsIn_map_self start [target])
  · rw [if_neg howner]
    split
    · rfl
    · rw [targetsIn_append]
      exact (congrArg _ (targetsIn_map_of_ne howner [target])).trans (List.append_nil _)

theorem targetsIn_foldl_addEdge (ws es : List Edge) (owner : Text) :
    targetsIn (ws.foldl addEdge es) owner =
      (targetsIn ws owner).foldl (addTarget owner) (targetsIn es owner) := by
  induction ws generalizing es with
  | nil => rfl
  | cons w ws ih =>
      rw [List.foldl_cons, ih, targetsIn_addEdge]
      by_cases howner : w.1 = owner
      · simp [targetsIn, howner]
      · simp [targetsIn, howner]

/-- With distinct paths the edges wanted by an owner are those of its own directives. -/
theorem targetsIn_flatMap {root marker : Text} {us : List SourceText}
    (hn : (us.map (·.path)).Nodup) {u : SourceText} (hu : u ∈ us) :
    targetsIn (us.flatMap fun v => (targets root marker v).map (v.path, ·)) u.path =
      targets root marker u := by
  have hother : ∀ vs : List SourceText, u.path ∉ vs.map (·.path) →
      targetsIn (vs.flatMap fun v => (targets root marker v).map (v.path, ·)) u.path = [] := by
    intro vs hvs
    induction vs with
    | nil => rfl
    | cons v vs ih =>
        rw [List.map_cons, List.mem_cons, not_or] at hvs
        rw [List.flatMap_cons, targetsIn_append, targetsIn_map_of_ne (Ne.symm hvs.1), ih hvs.2]
        rfl
  obtain ⟨before, after, rfl⟩ := List.append_of_mem hu
  rw [List.map_append, List.map_cons, List.nodup_append, List.nodup_cons] at hn
  obtain ⟨-, ⟨hafter, -⟩, hbefore⟩ := hn
  rw [List.flatMap_append, List.flatMap_cons, targetsIn_append, targetsIn_append,
    hother before fun hmem => hbefore _ hmem _ List.mem_cons_self rfl, hother after hafter,
    targetsIn_map_self, List.nil_append, List.append_nil]

/-- **What a unit depends on** is read off its own directives. -/
theorem dependencies_build (root marker : Text) {g : Graph} (hg : g.paths.Nodup) {u : SourceText}
    (hu : u ∈ g.units) :
    targetsIn (builtEdges root marker g) u.path = ownDependencies root marker u := by
  rw [builtEdges, targetsIn_foldl_addEdge, wantedEdges, targetsIn_flatMap hg hu]
  rfl

/-! ## sources in another order -/

/-- The unit of a source text as it is linked, without its backward edges. -/
def unitOf (root marker : Text) (e : Text × Text) : SourceText :=
  let u := SourceText.ofStripped (Path.canonical e.1) e.2 (Directive.strip marker e.2)
  { u with dependencies := ownDependencies root marker u }

/-- Of different canonical paths every one becomes a unit. -/
theorem ofSources_of_nodup (marker : Text) {contents : List (Text × Text)}
    (hn : (contents.map fun e => Path.canonical e.1).Nodup) :
    ofSources marker contents =
      ⟨contents.map fun e =>
        SourceText.ofStripped (Path.canonical e.1) e.2 (Directive.strip marker e.2)⟩ := by
  have hsame : ofSources marker (contents.map fun e => (Path.canonical e.1, e.2)) =
      ofSources marker contents := by
    simp only [ofSources, List.foldl_map, addSource, Path.canonical_canonical]
  rw [← hsame, ofSources_eq, List.map_map]
  · rfl
  · rintro _ hrow
    obtain ⟨e, -, rfl⟩ := List.mem_map.mp hrow
    exact Path.canonical_canonical e.1
  · rwa [List.map_map]

/-- **The units of a built graph**, apart from their backward edges, are made of the
source texts one by one. -/
theorem map_forward_build {root marker : Text} {contents : List (Text × Text)}
    (hn : (contents.map fun e => Path.canonical e.1).Nodup) :
    (build root marker contents).units.map SourceText.forward =
      contents.map (unitOf root marker) := by
  have hsources := ofSources_of_nodup marker hn
  have hpaths := (fresh_ofSources marker contents).nodup
  have hunits : (ofSources marker contents).units = contents.map fun e =>
      SourceText.ofStripped (Path.canonical e.1) e.2 (Directive.strip marker e.2) := by rw [hsources]
  rw [build_eq_withEdges, withEdges, List.map_map, hunits, List.map_map]
  refine List.map_congr_left fun e he => ?_
  have hmem : SourceText.ofStripped (Path.canonical e.1) e.2 (Directive.strip marker e.2) ∈
      (ofSources marker contents).units := hunits ▸ List.mem_map_of_mem he
  simp only [Function.comp_apply, SourceText.forward, dependencies_build root marker hpaths hmem]
  rfl

/-! ## graphs that differ in order and backward edges -/

section Forward

variable {B B' : Graph}

theorem perm_paths (h : (B.units.map SourceText.forward).Perm (B'.units.map SourceText.forward)) :
    B.paths.Perm B'.paths := by
  have hmap := h.map (·.path)
  rwa [List.map_map, List.map_map] at hmap

theorem exists_unit_of_forward
    (h : (B.units.map SourceText.forward).Perm (B'.units.map SourceText.forward)) {u : SourceText}
    (hu : u ∈ B.units) : ∃ u' ∈ B'.units, u'.forward = u.forward :=
  List.mem_map.mp (h.mem_iff.mp (List.mem_map_of_mem hu))

theorem dependsOn_of_forward
    (h : (B.units.map SourceText.forward).Perm (B'.units.map SourceText.forward)) {q d : Text}
    (hd : B.DependsOn q d) : B'.DependsOn q d := by
  obtain ⟨u, hu, hpath, hmem⟩ := hd
  obtain ⟨u', hu', heq⟩ := exists_unit_of_forward h hu
  have hpaths : u'.path = u.path := by simpa using congrArg SourceText.path heq
  have hdeps : u'.dependencies = u.dependencies := by
    simpa using congrArg SourceText.dependencies heq
  exact ⟨u', hu', hpaths.trans hpath, hdeps ▸ hmem⟩

/-- What is grounded does not hang on the order of the units. -/
theorem grounded_iff_of_forward
    (h : (B.units.map SourceText.forward).Perm (B'.units.map SourceText.forward)) (q : Text) :
    B.Grounded q ↔ B'.Grounded q := by
  have hdepends : B.DependsOn = B'.DependsOn := by
    funext p d
    exact propext ⟨dependsOn_of_forward h, dependsOn_of_forward h.symm⟩
  have hpaths : ∀ d, d ∈ B.paths ↔ d ∈ B'.paths := fun d => (perm_paths h).mem_iff
  simp only [Grounded, Reaches, OnCycle, hdepends, hpaths]

theorem map_forward_get? (hB : Linked B) (hB' : Linked B')
    (h : (B.units.map SourceText.forward).Perm (B'.units.map SourceText.forward)) (q : Text) :
    (B.get? q).map SourceText.forward = (B'.get? q).map SourceText.forward := by
  have hfound : ∀ {C C' : Graph}, Linked C' →
      (C.units.map SourceText.forward).Perm (C'.units.map SourceText.forward) →
      ∀ u, C.get? q = some u → (C'.get? q).map SourceText.forward = some u.forward := by
    intro C C' hC' hperm u hu
    obtain ⟨u', hu', heq⟩ := exists_unit_of_forward hperm (mem_units_of_get? hu)
    have hpath : u'.path = u.path := by simpa using congrArg SourceText.path heq
    rw [← path_of_get? hu, ← hpath, get?_of_mem hC'.nodup hu', Option.map_some, heq]
  cases hu : B.get? q with
  | some u => exact (hfound hB' h u hu).symm
  | none =>
      cases hu' : B'.get? q with
      | none => rfl
      | some u' =>
          have hsome := hfound hB h.symm u' hu'
          rw [hu] at hsome
          contradiction

/-- Two orders of emission of such graphs emit the same units and leave the same units
waiting for the same paths. -/
theorem assembled_perm (hB : Linked B) (hB' : Linked B')
    (h : (B.units.map SourceText.forward).Perm (B'.units.map SourceText.forward))
    {order order' : List Text} (horder : Emission B order) (horder' : Emission B' order')
    (separator : Text) :
    ((assembled separator B order).units.map SourceText.forward).Perm
        ((assembled separator B' order').units.map SourceText.forward) ∧
      (assembled separator B order).excluded.Perm (assembled separator B' order').excluded := by
  have hmem : ∀ q, q ∈ order ↔ q ∈ order' := fun q => by
    rw [horder.mem_iff_grounded hB, horder'.mem_iff_grounded hB', grounded_iff_of_forward h]
  constructor
  · have hperm : order.Perm order' :=
      (List.perm_ext_iff_of_nodup horder.nodup horder'.nodup).mpr hmem
    have hmap : ∀ (C : Graph) (l : List Text), (emittedUnits C l).map SourceText.forward =
        l.filterMap fun q => ((C.get? q).map SourceText.forward).map fun u =>
          { u with dependencies := [] } := by
      intro C l
      simp only [emittedUnits, List.map_filterMap, Option.map_map]
      rfl
    simp only [assembled, hmap, map_forward_get? hB hB' h]
    exact hperm.filterMap _
  · have hexcluded : ∀ (C : Graph) (l : List Text), (assembled separator C l).excluded =
        ((C.units.map SourceText.forward).filter (·.path ∉ l)).map fun u =>
          (u.path, u.dependencies.filter (· ∉ l)) := by
      intro C l
      rw [List.filter_map, List.map_map]
      rfl
    simp only [hexcluded, hmem]
    exact (h.filter _).map _

end Forward

/-- **The configured order decides only the order of the output.**  Source texts of
different paths, given in any order, become the same units with the same dependencies;
an assembly emits the same of them, and leaves the others waiting for the same paths. -/
theorem assemble_build_perm (root marker separator : Text) {contents contents' : List (Text × Text)}
    (hperm : contents.Perm contents')
    (hdistinct : (contents.map fun e => Path.canonical e.1).Nodup) :
    let B := build root marker contents
    let B' := build root marker contents'
    (B.units.map SourceText.forward).Perm (B'.units.map SourceText.forward) ∧
      ∃ a a', B.assemble separator = .ok a ∧ B'.assemble separator = .ok a' ∧
        (a.units.map SourceText.forward).Perm (a'.units.map SourceText.forward) ∧
        a.excluded.Perm a'.excluded := by
  intro B B'
  have hdistinct' : (contents'.map fun e => Path.canonical e.1).Nodup :=
    (hperm.map _).nodup_iff.mp hdistinct
  have hunits : (B.units.map SourceText.forward).Perm (B'.units.map SourceText.forward) := by
    rw [map_forward_build hdistinct, map_forward_build hdistinct']
    exact hperm.map _
  have hB : Linked B := linked_build root marker contents
  have hB' : Linked B' := linked_build root marker contents'
  obtain ⟨order, horder, ha⟩ := assemble_eq_assembled hB separator
  obtain ⟨order', horder', ha'⟩ := assemble_eq_assembled hB' separator
  exact ⟨hunits, _, _, ha, ha', assembled_perm hB hB' hunits horder horder' separator⟩

/-- Two units on a cycle, one of them with a dependency besides, and two apart from
it. -/
def cyclicSources : List (Text × Text) :=
  [("a.js", "dependsOn(\"b.js\");\na"), ("c.js", "dependsOn(\"d.js\")c"),
    ("lib/../b.js", "b"), ("d.js", "dependsOn(\"./c.js\")dependsOn(\"b.js\")d")]

theorem assemble_build_perm_cyclic :
    cyclicSources.Perm cyclicSources.reverse ∧
      (cyclicSources.map fun e => Path.canonical e.1).Nodup ∧
      ∃ a a', (build "." "dependsOn" cyclicSources).assemble "\n" = .ok a ∧
        (build "." "dependsOn" cyclicSources.reverse).assemble "\n" = .ok a' ∧
        (a.units.map SourceText.forward).Perm (a'.units.map SourceText.forward) ∧
        a.excluded.Perm a'.excluded := by
  have hperm : cyclicSources.Perm cyclicSources.reverse := (List.reverse_perm cyclicSources).symm
  have hdistinct : (cyclicSources.map fun e => Path.canonical e.1).Nodup := by decide
  exact ⟨hperm, hdistinct, (assemble_build_perm "." "dependsOn" "\n" hperm hdistinct).2⟩

end Graph

end SourceMerge
