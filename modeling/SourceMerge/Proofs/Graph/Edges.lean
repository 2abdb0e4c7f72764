import Mathlib.Data.List.Nodup
import SourceMerge.Graph

/-!
# SourceMerge.Proofs.Graph.Edges

What `build` makes, in closed form.  The units come first and never change
their texts; linking then only adds edges, so a linked graph is a graph without
edges together with *one* list of edges in the order of their registration:

```
dependencies of u = targets of the edges that start at u
dependents of d   = owners of the edges that end at d
```

Both ends of every edge are read off the same list, which is why forward and
backward edges always agree.  Everything that is known of a built graph
(`Linked`) follows from `build_eq_withEdges` and the edges being distinct.
-/

namespace SourceMerge.Graph

/-! ## looking units up -/

theorem path_of_get? {g : Graph} {q : Text} {u : SourceText} (h : g.get? q = some u) :
    u.path = q := by
  simpa using List.find?_some h

theorem mem_units_of_get? {g : Graph} {q : Text} {u : SourceText} (h : g.get? q = some u) :
    u ∈ g.units :=
  List.mem_of_find?_eq_some h

/-- With distinct paths every unit is the one that its path finds. -/
theorem get?_of_mem {g : Graph} (hg : g.paths.Nodup) {u : SourceText} (hu : u ∈ g.units) :
    g.get? u.path = some u := by
  obtain ⟨units⟩ := g
  simp only [paths, get?] at *
  induction units with
  | nil => simp at hu
  | cons v vs ih =>
      rw [List.map_cons, List.nodup_cons] at hg
      rcases List.mem_cons.mp hu with rfl | hmem
      · simp
      · have hne : (v.path == u.path) = false := by
          simpa using fun h : v.path = u.path => hg.1 (h ▸ List.mem_map_of_mem hmem)
        rw [List.find?_cons, hne]
        exact ih hg.2 hmem

/-- Exactly the paths of units find one. -/
theorem exists_get?_iff {g : Graph} {q : Text} : (∃ u, g.get? q = some u) ↔ q ∈ g.paths := by
  constructor
  · rintro ⟨u, hu⟩
    rw [← path_of_get? hu]
    exact List.mem_map_of_mem (mem_units_of_get? hu)
  · intro h
    obtain ⟨u, hu, hq⟩ := List.mem_map.mp h
    rw [← Option.isSome_iff_exists, get?, List.find?_isSome]
    exact ⟨u, hu, by simpa using hq⟩

theorem contains_iff {g : Graph} {q : Text} : g.contains q = true ↔ q ∈ g.paths := by
  simp [contains, paths]

/-! ## graphs as lists of edges -/

/-- An edge: the path of the unit that owns it and the path that it leads to. -/
abbrev Edge := Text × Text

/-- Where the edges of an owner lead. -/
def targetsIn (es : List Edge) (owner : Text) : List Text :=
  (es.filter fun e => decide (e.1 = owner)).map (·.2)

/-- The owners of the edges that lead to a path. -/
def ownersIn (es : List Edge) (target : Text) : List Text :=
  (es.filter fun e => decide (e.2 = target)).map (·.1)

@[simp] theorem mem_targetsIn {es : List Edge} {owner target : Text} :
    target ∈ targetsIn es owner ↔ (owner, target) ∈ es := by
  simp [targetsIn]

@[simp] theorem mem_ownersIn {es : List Edge} {owner target : Text} :
    owner ∈ ownersIn es target ↔ (owner, target) ∈ es := by
  simp [ownersIn]

theorem nodup_targetsIn {es : List Edge} (h : es.Nodup) (owner : Text) :
    (targetsIn es owner).Nodup := by
  unfold targetsIn
  refine List.Nodup.map_on ?_ (h.filter _)
  intro e he e' he' heq
  simp only [List.mem_filter, decide_eq_true_eq] at he he'
  exact Prod.ext (he.2.trans he'.2.symm) heq

theorem nodup_ownersIn {es : List Edge} (h : es.Nodup) (target : Text) :
    (ownersIn es target).Nodup := by
  unfold ownersIn
  refine List.Nodup.map_on ?_ (h.filter _)
  intro e he e' he' heq
  simp only [List.mem_filter, decide_eq_true_eq] at he he'
  exact Prod.ext heq (he.2.trans he'.2.symm)

/-- The units of a graph with the edges of a list. -/
def withEdges (g : Graph) (es : List Edge) : Graph :=
  ⟨g.units.map fun u =>
    { u with dependencies := targetsIn es u.path, dependents := ownersIn es u.path }⟩

@[simp] theorem paths_withEdges (g : Graph) (es : List Edge) : (g.withEdges es).paths = g.paths := by
  simp [paths, withEdges]

theorem get?_withEdges (g : Graph) (es : List Edge) (q : Text) :
    (g.withEdges es).get? q = (g.get? q).map fun u =>
      { u with dependencies := targetsIn es u.path, dependents := ownersIn es u.path } := by
  simp only [get?, withEdges, List.find?_map]
  rfl

/-- Takes one more edge: a loop or a known one adds nothing. -/
def addEdge (es : List Edge) (e : Edge) : List Edge :=
  if e.2 = e.1 ∨ e ∈ es then es else es ++ [e]

/-- Registering an edge at both of its ends is adding it to the list. -/
theorem link_withEdges {g : Graph} {owner : Text} (ho : owner ∈ g.paths) (es : List Edge)
    (target : Text) :
    link owner (g.withEdges es) target = g.withEdges (addEdge es (owner, target)) := by
  unfold link addEdge
  by_cases hloop : target = owner
  · simp [hloop]
  obtain ⟨u, hu⟩ := exists_get?_iff.mpr ho
  have hup := path_of_get? hu
  simp only [hloop, if_false, false_or, get?_withEdges, hu, Option.map_some, mem_targetsIn, hup]
  by_cases hknown : (owner, target) ∈ es
  · simp [hknown]
  simp only [hknown, if_false, withEdges, modify, List.map_map]
  congr 1
  apply List.map_congr_left
  intro v _
  simp only [Function.comp_apply]
  by_cases hvo : v.path = owner
  · have hvt : v.path ≠ target := fun h => hloop (h.symm.trans hvo)
    have hto : owner ≠ target := fun h => hloop h.symm
    simp [hvo, hto, SourceText.addDependency, hknown, targetsIn, ownersIn,
      show target ≠ owner from hloop]
  · by_cases hvt : v.path = target
    · simp [hvt, hloop, SourceText.addDependent, hknown, targetsIn, ownersIn,
        show owner ≠ target from fun h => hloop h.symm]
    · simp [hvo, hvt, targetsIn, ownersIn, show owner ≠ v.path from fun h => hvo h.symm,
        show target ≠ v.path from fun h => hvt h.symm]

/-! ## building -/

/-- The edges that the directives of all units ask for, in order. -/
def wantedEdges (root marker : Text) (g : Graph) : List Edge :=
  g.units.flatMap fun u => (targets root marker u).map (u.path, ·)

/-- The edges that are registered: of the wanted ones no loop, and each once. -/
def builtEdges (root marker : Text) (g : Graph) : List Edge :=
  (wantedEdges root marker g).foldl addEdge []

theorem foldl_link_withEdges {g : Graph} {owner : Text} (ho : owner ∈ g.paths)
    (ts : List Text) (es : List Edge) :
    ts.foldl (link owner) (g.withEdges es) =
      g.withEdges ((ts.map (owner, ·)).foldl addEdge es) := by
  induction ts generalizing es with
  | nil => rfl
  | cons t ts ih => rw [List.foldl_cons, link_withEdges ho, ih, List.map_cons, List.foldl_cons]

/-- Without edges a graph is its own edge-free form. -/
theorem withEdges_nil {g : Graph}
    (h : ∀ u ∈ g.units, u.dependencies = [] ∧ u.dependents = []) : g.withEdges [] = g := by
  obtain ⟨units⟩ := g
  simp only [withEdges, mk.injEq]
  refine (List.map_congr_left fun u hu => ?_).trans (List.map_id units)
  obtain ⟨hdeps, hback⟩ := h u hu
  obtain ⟨path, raw, content, origins, dependencies, dependents, emitted⟩ := u
  simp only at hdeps hback
  subst hdeps hback
  rfl

/-- Linking some of the units, where the edges so far are `es`. -/
theorem foldl_links_withEdges (root marker : Text) {g : Graph} {us : List SourceText}
    (hsub : us ⊆ g.units) (es : List Edge) :
    us.foldl (fun acc u => (targets root marker u).foldl (link u.path) acc) (g.withEdges es) =
      g.withEdges ((us.flatMap fun u => (targets root marker u).map (u.path, ·)).foldl
        addEdge es) := by
  induction us generalizing es with
  | nil => rfl
  | cons u us ih =>
      have hu : u.path ∈ g.paths := List.mem_map_of_mem (hsub List.mem_cons_self)
      rw [List.foldl_cons, foldl_link_withEdges hu, ih fun v hv => hsub (List.mem_cons_of_mem u hv),
        List.flatMap_cons, List.foldl_append]

/-- Linking all units registers the wanted edges. -/
theorem linkAll_eq_withEdges {root marker : Text} {g : Graph}
    (h : ∀ u ∈ g.units, u.dependencies = [] ∧ u.dependents = []) :
    linkAll root marker g = g.withEdges (builtEdges root marker g) := by
  have hall := foldl_links_withEdges root marker (List.Subset.refl g.units) []
  rwa [withEdges_nil h] at hall

/-- What a fold over the source texts keeps: distinct canonical paths, and units
that nothing has touched yet. -/
structure Fresh (g : Graph) : Prop where
  nodup : g.paths.Nodup
  canonical : ∀ q ∈ g.paths, ∃ p, q = Path.canonical p
  untouched : ∀ u ∈ g.units, u.dependencies = [] ∧ u.dependents = [] ∧ u.emitted = false

theorem fresh_addSource {marker : Text} {g : Graph} (hg : Fresh g) (path raw : Text) :
    Fresh (addSource marker g path raw) := by
  unfold addSource
  by_cases hc : g.contains (Path.canonical path) = true
  · simpa [hc] using hg
  have hnew : Path.canonical path ∉ g.paths := fun h => hc (contains_iff.mpr h)
  simp only [hc, if_false, Bool.false_eq_true]
  refine ⟨?_, ?_, ?_⟩
  · simp only [paths, List.map_append, List.map_cons, List.map_nil]
    refine List.Nodup.append hg.nodup (List.nodup_singleton _) ?_
    simpa [paths, List.disjoint_singleton, SourceText.ofStripped] using hnew
  · intro q hq
    simp only [paths, List.map_append, List.mem_append] at hq
    rcases hq with hold | hlast
    · exact hg.canonical q hold
    · exact ⟨path, List.mem_singleton.mp hlast⟩
  · intro u hu
    rcases List.mem_append.mp hu with hold | hlast
    · exact hg.untouched u hold
    · rw [List.mem_singleton.mp hlast]
      exact ⟨rfl, rfl, rfl⟩

theorem fresh_foldl_addSource {marker : Text} {g : Graph} (hg : Fresh g)
    (contents : List (Text × Text)) :
    Fresh (contents.foldl (fun g e => addSource marker g e.1 e.2) g) := by
  induction contents generalizing g with
  | nil => exact hg
  | cons e rest ih => exact ih (fresh_addSource hg e.1 e.2)

theorem fresh_ofSources (marker : Text) (contents : List (Text × Text)) :
    Fresh (ofSources marker contents) := by
  have hempty : Fresh {} := ⟨List.nodup_nil, fun q hq => absurd hq List.not_mem_nil,
    fun u hu => absurd hu List.not_mem_nil⟩
  exact fresh_foldl_addSource hempty contents

/-- Source texts behind those of `done`, none of whose paths is among them. -/
theorem foldl_addSource_eq {marker : Text} {contents : List (Text × Text)}
    (hc : ∀ e ∈ contents, Path.canonical e.1 = e.1) (done : List (Text × Text))
    (hn : ((done ++ contents).map (·.1)).Nodup) :
    contents.foldl (fun g e => addSource marker g e.1 e.2)
        ⟨done.map fun e => SourceText.ofStripped e.1 e.2 (Directive.strip marker e.2)⟩ =
      ⟨(done ++ contents).map fun e =>
        SourceText.ofStripped e.1 e.2 (Directive.strip marker e.2)⟩ := by
  induction contents generalizing done with
  | nil => simp
  | cons e rest ih =>
      have hnew : e.1 ∉ done.map (·.1) := by
        rw [List.map_append, List.nodup_append] at hn
        exact fun hmem => hn.2.2 _ hmem _ (by simp) rfl
      have hpaths : (Graph.mk (done.map fun e =>
          SourceText.ofStripped e.1 e.2 (Directive.strip marker e.2))).paths = done.map (·.1) := by
        simp [paths, SourceText.ofStripped]
      have hfree : ¬ (Graph.mk (done.map fun e =>
          SourceText.ofStripped e.1 e.2 (Directive.strip marker e.2))).contains e.1 = true := by
        rw [contains_iff, hpaths]
        exact hnew
      rw [List.foldl_cons, addSource, hc e List.mem_cons_self, if_neg hfree]
      have htail := ih (fun d hd => hc d (List.mem_cons_of_mem e hd)) (done ++ [e])
        (by simpa using hn)
      simpa using htail

/-- Of canonical paths that are given once each, every one becomes a unit. -/
theorem ofSources_eq {marker : Text} {contents : List (Text × Text)}
    (hc : ∀ e ∈ contents, Path.canonical e.1 = e.1) (hn : (contents.map (·.1)).Nodup) :
    ofSources marker contents =
      ⟨contents.map fun e => SourceText.ofStripped e.1 e.2 (Directive.strip marker e.2)⟩ :=
  foldl_addSource_eq hc [] (by simpa using hn)

/-- **Building in closed form**: the units of the source texts, with the edges
that their directives ask for. -/
theorem build_eq_withEdges (root marker : Text) (contents : List (Text × Text)) :
    build root marker contents =
      (ofSources marker contents).withEdges
        (builtEdges root marker (ofSources marker contents)) :=
  linkAll_eq_withEdges fun u hu =>
    let h := (fresh_ofSources marker contents).untouched u hu
    ⟨h.1, h.2.1⟩

theorem canonical_of_mem_paths_build {root marker q : Text} {contents : List (Text × Text)}
    (h : q ∈ (build root marker contents).paths) : ∃ p, q = Path.canonical p := by
  rw [build_eq_withEdges, paths_withEdges] at h
  exact (fresh_ofSources marker contents).canonical q h

/-- What adding edges keeps: each edge stands once, starts where some wanted
edge starts, and is no loop. -/
theorem foldl_addEdge (ws : List Edge) {es : List Edge} (hn : es.Nodup) (hl : ∀ e ∈ es, e.2 ≠ e.1) :
    (ws.foldl addEdge es).Nodup ∧
      ∀ e, e ∈ ws.foldl addEdge es ↔ e ∈ es ∨ e ∈ ws ∧ e.2 ≠ e.1 := by
  induction ws generalizing es with
  | nil => simpa using hn
  | cons w ws ih =>
      rw [List.foldl_cons]
      by_cases hw : w.2 = w.1 ∨ w ∈ es
      · rw [addEdge, if_pos hw]
        obtain ⟨hnd, hmem⟩ := ih hn hl
        refine ⟨hnd, fun e => ?_⟩
        rw [hmem, List.mem_cons]
        grind
      · rw [addEdge, if_neg hw]
        rw [not_or] at hw
        have hn' : (es ++ [w]).Nodup := List.Nodup.append hn (List.nodup_singleton w) (by simpa using hw.2)
        obtain ⟨hnd, hmem⟩ := ih hn' (by grind)
        refine ⟨hnd, fun e => ?_⟩
        rw [hmem, List.mem_append, List.mem_singleton, List.mem_cons]
        grind

theorem nodup_builtEdges (root marker : Text) (g : Graph) : (builtEdges root marker g).Nodup :=
  (foldl_addEdge _ List.nodup_nil (by simp)).1

theorem mem_builtEdges {root marker : Text} {g : Graph} {e : Edge} :
    e ∈ builtEdges root marker g ↔ e ∈ wantedEdges root marker g ∧ e.2 ≠ e.1 := by
  have h := (foldl_addEdge (wantedEdges root marker g) List.nodup_nil (by simp)).2 e
  simpa [builtEdges] using h

/-- Registered edges start at units. -/
theorem owner_mem_paths {root marker : Text} {g : Graph} {e : Edge}
    (he : e ∈ builtEdges root marker g) : e.1 ∈ g.paths := by
  obtain ⟨u, hu, h⟩ := List.mem_flatMap.mp (mem_builtEdges.mp he).1
  obtain ⟨t, -, rfl⟩ := List.mem_map.mp h
  exact List.mem_map_of_mem hu

/-! ## linked graphs -/

/-- A graph ready to be ordered: every path has one unit, no edge is registered
twice, forward and backward edges agree, and nothing is emitted. -/
structure Linked (g : Graph) : Prop where
  nodup : g.paths.Nodup
  pending : ∀ u ∈ g.units, u.emitted = false
  nodup_dependencies : ∀ u ∈ g.units, u.dependencies.Nodup
  nodup_dependents : ∀ u ∈ g.units, u.dependents.Nodup
  dependents_iff : ∀ d ∈ g.units, ∀ p,
    p ∈ d.dependents ↔ ∃ u ∈ g.units, u.path = p ∧ d.path ∈ u.dependencies

/-- A fresh graph with distinct edges that start at its units is linked. -/
theorem linked_withEdges {g : Graph} (hg : Fresh g) {es : List Edge} (hn : es.Nodup)
    (ho : ∀ e ∈ es, e.1 ∈ g.paths) : Linked (g.withEdges es) where
  nodup := by simpa using hg.nodup
  pending := by
    intro u hu
    obtain ⟨v, hv, rfl⟩ := List.mem_map.mp hu
    exact (hg.untouched v hv).2.2
  nodup_dependencies := by
    intro u hu
    obtain ⟨v, hv, rfl⟩ := List.mem_map.mp hu
    exact nodup_targetsIn hn v.path
  nodup_dependents := by
    intro u hu
    obtain ⟨v, hv, rfl⟩ := List.mem_map.mp hu
    exact nodup_ownersIn hn v.path
  dependents_iff := by
    intro d hd p
    obtain ⟨v, hv, rfl⟩ := List.mem_map.mp hd
    simp only [mem_ownersIn, withEdges, List.mem_map, exists_exists_and_eq_and, mem_targetsIn]
    constructor
    · intro he
      obtain ⟨w, hw, hwp⟩ := List.mem_map.mp (ho _ he)
      exact ⟨w, hw, hwp, by rw [hwp]; exact he⟩
    · rintro ⟨w, -, rfl, he⟩
      exact he

/-- **Building links**: forward and backward edges of a built graph agree. -/
theorem linked_build (root marker : Text) (contents : List (Text × Text)) :
    Linked (build root marker contents) := by
  rw [build_eq_withEdges]
  exact linked_withEdges (fresh_ofSources marker contents) (nodup_builtEdges ..)
    fun _ he => owner_mem_paths he

end SourceMerge.Graph
