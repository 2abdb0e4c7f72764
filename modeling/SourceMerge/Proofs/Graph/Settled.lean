import SourceMerge.Proofs.Graph.Order

/-!
# SourceMerge.Proofs.Graph.Settled

What an assembly leaves behind.  A walk takes every edge away at both of its ends, and
when nothing more can be emitted exactly the edges that lead to emitted units are gone.
An emitted unit has no edges left then: it waits for nothing and has released all of its
dependents.  The others wait for what was not emitted, and each of them waits for
something, so a second assembly finds no unit to begin with.
-/

namespace SourceMerge

/-- A unit before and after an assembly that emits the units of the given paths. -/
structure SourceText.Settles (emitted : List Text) (before after : SourceText) : Prop where
  path : after.path = before.path
  raw : after.raw = before.raw
  content : after.content = before.content
  origins : after.origins = before.origins
  emitted_iff : after.emitted = true ↔ before.path ∈ emitted
  /-- An emitted unit has no edges left. -/
  released : before.path ∈ emitted → after.dependencies = [] ∧ after.dependents = []
  /-- Any other unit waits for what was not emitted, and is waited for as before. -/
  waits : before.path ∉ emitted →
    after.dependencies = before.dependencies.filter (· ∉ emitted) ∧ after.dependencies ≠ [] ∧
      after.dependents = before.dependents

namespace Graph

variable {B : Graph} {order : List Text}

/-! ## one unit -/

/-- The units that an assembly leaves out, with what they still wait for. -/
theorem unresolved_assembled (separator : Text) (B : Graph) (order : List Text) :
    (assembled separator B order).graph.unresolved =
      (B.units.filter (·.path ∉ order)).map (settled order) := by
  simp only [assembled, unresolved, List.filter_map]
  congr 1
  apply List.filter_congr
  intro b _
  simp [settled]

/-- Every unit that an assembly leaves out waits for something. -/
theorem dependencies_settled_ne_nil (hB : B.paths.Nodup) (h : Emission B order) {b : SourceText}
    (hb : b ∈ B.units.filter (·.path ∉ order)) : (settled order b).dependencies ≠ [] := by
  rw [List.mem_filter, decide_eq_true_eq] at hb
  obtain ⟨d, hd, hout⟩ := h.complete b.path b (get?_of_mem hB hb.1) hb.2
  exact List.ne_nil_of_mem (List.mem_filter.mpr ⟨hd, by simpa using hout⟩)

/-- Everything that an emitted unit depends on is emitted. -/
theorem dependencies_settled_eq_nil (hB : Linked B) (h : Emission B order) {b : SourceText}
    (hb : b ∈ B.units) (hin : b.path ∈ order) : (settled order b).dependencies = [] := by
  rw [settled, List.filter_eq_nil_iff]
  intro d hd
  have hmem : d ∈ order := (h.before_of_dependsOn hB hin ⟨b, hb, rfl, hd⟩).1
  simpa using hmem

theorem settles_settled (hB : Linked B) (h : Emission B order) {b : SourceText}
    (hb : b ∈ B.units) : b.Settles order (settled order b) where
  path := rfl
  raw := rfl
  content := rfl
  origins := rfl
  emitted_iff := decide_eq_true_iff
  released := fun hin => ⟨dependencies_settled_eq_nil hB h hb hin, if_pos hin⟩
  waits := fun hout =>
    ⟨rfl, dependencies_settled_ne_nil hB.nodup h (List.mem_filter.mpr ⟨hb, by simpa using hout⟩),
      if_neg hout⟩

/-! ## a second assembly -/

/-- Units that are emitted or wait for something are passed over. -/
theorem visitAll_of_settled {separator : Text} {p : Progress}
    (h : ∀ u ∈ p.graph.units, u.emitted = true ∨ u.dependencies ≠ []) (paths : List Text) :
    visitAll separator p paths = .ok p := by
  induction paths with
  | nil => rfl
  | cons path rest ih =>
      rw [visitAll]
      cases hu : p.graph.get? path with
      | none => exact ih
      | some u =>
          simp only [if_pos (h u (mem_units_of_get? hu))]
          exact ih

theorem assemble_of_settled {g : Graph}
    (h : ∀ u ∈ g.units, u.emitted = true ∨ u.dependencies ≠ []) (separator : Text) :
    g.assemble separator =
      .ok { units := [], output := []
            excluded := g.unresolved.map fun u => (u.path, u.dependencies), graph := g } := by
  rw [assemble, visitAll_of_settled h]
  simp [Except.map, joinBuffer]

/-- **What an assembly leaves behind.**  Each unit keeps its path and its texts.  One
that was emitted has no edges left; any other one still waits for something, namely for
what it was built with less the emitted paths, in the order of registration, and its
dependents are as they were built.  So another assembly emits nothing, excludes the same
units with the same dependencies and changes none. -/
theorem assemble_build_settles (root marker separator : Text) (contents : List (Text × Text)) :
    let B := build root marker contents
    ∃ a, B.assemble separator = .ok a ∧
      List.Forall₂ (SourceText.Settles (a.units.map (·.path))) B.units a.graph.units ∧
      ∀ separator', a.graph.assemble separator' = .ok { a with units := [], output := [] } := by
  intro B
  have hB : Linked B := linked_build root marker contents
  obtain ⟨order, horder, ha⟩ := assemble_eq_assembled hB separator
  have hpaths : (assembled separator B order).units.map (·.path) = order :=
    paths_emittedUnits horder
  refine ⟨_, ha, ?_, fun separator' => ?_⟩
  · rw [hpaths, assembled, List.forall₂_map_right_iff, List.forall₂_same]
    exact fun b hb => settles_settled hB horder hb
  · have hsettled : ∀ u ∈ (assembled separator B order).graph.units,
        u.emitted = true ∨ u.dependencies ≠ [] := by
      intro u hu
      obtain ⟨b, hb, rfl⟩ := List.mem_map.mp hu
      have hsettles := settles_settled hB horder hb
      by_cases hin : b.path ∈ order
      · exact .inl (hsettles.emitted_iff.mpr hin)
      · exact .inr (hsettles.waits hin).2.1
    rw [assemble_of_settled hsettled, unresolved_assembled, List.map_map]
    rfl

end Graph

end SourceMerge
