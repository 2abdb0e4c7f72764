import Mathlib.Data.List.Nodup
import Mathlib.Data.Set.Finite.List
import Mathlib.Order.WellFounded
import Mathlib.Data.Fintype.EquivFin
import Mathlib.Logic.Relation
import SourceMerge.Proofs.Graph.Walk

/-!
# SourceMerge.Proofs.Graph.Order

Which units an assembly emits, said without the walk.  A path is *grounded* if
everything that it reaches through dependencies is a unit, and none of it lies
on a cycle.  The main statement is `assemble_build_grounded`: an assembly emits
exactly the grounded units, each once and after all that it depends on.

Both directions go through `Emission`.  An emitted unit stands behind its
dependencies in the order, so nothing that it reaches can come back to itself.
The other way the paths that a grounded path reaches are finitely many and
acyclic, so the dependencies of any of them can be taken to be emitted already;
and a unit is only left out if it waits for something that is left out.
-/

namespace SourceMerge.Graph

/-! ## what a path reaches -/

/-- The unit of `q` depends on the path `d`. -/
def DependsOn (g : Graph) (q d : Text) : Prop :=
  ∃ u ∈ g.units, u.path = q ∧ d ∈ u.dependencies

/-- `q` is `d` or depends on it, directly or through others. -/
def Reaches (g : Graph) (q d : Text) : Prop := Relation.ReflTransGen g.DependsOn q d

/-- `q` depends on itself through at least one dependency. -/
def OnCycle (g : Graph) (q : Text) : Prop := Relation.TransGen g.DependsOn q q

/-- Everything that `q` reaches is a unit, and none of it lies on a cycle. -/
def Grounded (g : Graph) (q : Text) : Prop :=
  ∀ d, g.Reaches q d → d ∈ g.paths ∧ ¬ g.OnCycle d

variable {B : Graph} {order : List Text} {q d : Text}

theorem dependsOn_iff (hB : Linked B) :
    B.DependsOn q d ↔ ∃ b, B.get? q = some b ∧ d ∈ b.dependencies := by
  constructor
  · rintro ⟨b, hb, rfl, hd⟩
    exact ⟨b, get?_of_mem hB.nodup hb, hd⟩
  · rintro ⟨b, hb, hd⟩
    exact ⟨b, mem_units_of_get? hb, path_of_get? hb, hd⟩

/-! ## emitted units are grounded -/

/-- What an emitted unit depends on is emitted, and comes first. -/
theorem Emission.before_of_dependsOn (hB : Linked B) (h : Emission B order) (hq : q ∈ order)
    (hd : B.DependsOn q d) : d ∈ order ∧ order.idxOf d < order.idxOf q := by
  obtain ⟨b, hb, hmem⟩ := (dependsOn_iff hB).mp hd
  obtain ⟨before, after, rfl⟩ := List.append_of_mem hq
  have hbefore : d ∈ before := h.earlier before q after rfl b hb d hmem
  have hq' : q ∉ before := fun hin =>
    (List.nodup_append.mp h.nodup).2.2 q hin q List.mem_cons_self rfl
  refine ⟨List.mem_append_left _ hbefore, ?_⟩
  rw [List.idxOf_append_of_mem hbefore, List.idxOf_append_of_notMem hq']
  have := List.idxOf_lt_length_of_mem hbefore
  omega

/-- What an emitted unit reaches is emitted. -/
theorem Emission.mem_of_reaches (hB : Linked B) (h : Emission B order) (hq : q ∈ order)
    (hd : B.Reaches q d) : d ∈ order := by
  induction hd with
  | refl => exact hq
  | tail _ hstep ih => exact (h.before_of_dependsOn hB ih hstep).1

/-- Along a chain of dependencies the places in the order only decrease. -/
theorem Emission.idxOf_lt_of_transGen (hB : Linked B) (h : Emission B order) (hq : q ∈ order)
    (hd : Relation.TransGen B.DependsOn q d) : order.idxOf d < order.idxOf q := by
  induction hd with
  | single hstep => exact (h.before_of_dependsOn hB hq hstep).2
  | tail hchain hstep ih =>
      have hmem := h.mem_of_reaches hB hq hchain.to_reflTransGen
      exact (h.before_of_dependsOn hB hmem hstep).2.trans ih

theorem Emission.grounded_of_mem (hB : Linked B) (h : Emission B order) (hq : q ∈ order) :
    B.Grounded q := by
  intro d hd
  have hmem := h.mem_of_reaches hB hq hd
  refine ⟨h.units d hmem, fun hcycle => ?_⟩
  exact lt_irrefl _ (h.idxOf_lt_of_transGen hB hmem hcycle)

/-! ## grounded units are emitted -/

/-- Below a grounded path the chains of dependencies end. -/
theorem wellFounded_below (hq : B.Grounded q) :
    WellFounded fun a b : { d // B.Reaches q d } => Relation.TransGen B.DependsOn b.1 a.1 := by
  have : Finite { d // B.Reaches q d } :=
    (List.finite_toSet B.paths).subset fun d hd => (hq d hd).1
  have : IsTrans { d // B.Reaches q d } fun a b => Relation.TransGen B.DependsOn b.1 a.1 :=
    ⟨fun _ _ _ hab hbc => hbc.trans hab⟩
  have : Std.Irrefl fun a b : { d // B.Reaches q d } => Relation.TransGen B.DependsOn b.1 a.1 :=
    ⟨fun a => (hq a.1 a.2).2⟩
  exact Finite.wellFounded_of_trans_of_irrefl _

theorem Emission.mem_of_grounded (h : Emission B order) (hq : B.Grounded q) : q ∈ order := by
  have hall : ∀ d : { d // B.Reaches q d }, d.1 ∈ order := by
    intro d
    induction d using (wellFounded_below hq).induction with
    | _ d ih =>
        obtain ⟨b, hb⟩ := exists_get?_iff.mpr (hq d.1 d.2).1
        by_contra hout
        obtain ⟨e, he, hleft⟩ := h.complete d.1 b hb hout
        have hstep : B.DependsOn d.1 e := ⟨b, mem_units_of_get? hb, path_of_get? hb, he⟩
        exact hleft (ih ⟨e, d.2.tail hstep⟩ (.single hstep))
  exact hall ⟨q, .refl⟩

/-- **Emission is groundedness.** -/
theorem Emission.mem_iff_grounded (hB : Linked B) (h : Emission B order) :
    q ∈ order ↔ B.Grounded q :=
  ⟨h.grounded_of_mem hB, h.mem_of_grounded⟩

/-! ## the assembly of a built graph -/

theorem map_path_emittedUnits {l : List Text} (hl : ∀ q ∈ l, q ∈ B.paths) :
    (emittedUnits B l).map (·.path) = l := by
  induction l with
  | nil => simp [emittedUnits]
  | cons q l ih =>
      obtain ⟨b, hb⟩ := exists_get?_iff.mpr (hl q List.mem_cons_self)
      have htail := ih fun p hp => hl p (List.mem_cons_of_mem q hp)
      simpa [emittedUnits, hb, path_of_get? hb] using htail

/-- The emitted units stand in the order. -/
theorem paths_emittedUnits (h : Emission B order) : (emittedUnits B order).map (·.path) = order :=
  map_path_emittedUnits h.units

theorem paths_excluded (separator : Text) (B : Graph) (order : List Text) :
    (assembled separator B order).excluded.map (·.1) = B.paths.filter (· ∉ order) := by
  simp only [assembled, paths, List.map_map, List.filter_map]
  rfl

/-- **What an assembly emits.**  Ordering the units of any source texts has no
fault.  It emits exactly the grounded units, each once and behind everything
that was registered as its dependency; the other units are what it excludes. -/
theorem assemble_build_grounded (root marker separator : Text) (contents : List (Text × Text)) :
    let B := build root marker contents
    ∃ a, B.assemble separator = .ok a ∧
      (a.units.map (·.path)).Nodup ∧
      (∀ before u after, a.units = before ++ u :: after →
        ∀ d, B.DependsOn u.path d → d ∈ before.map (·.path)) ∧
      (∀ q, q ∈ a.units.map (·.path) ↔ q ∈ B.paths ∧ B.Grounded q) ∧
      a.excluded.map (·.1) = B.paths.filter (· ∉ a.units.map (·.path)) := by
  intro B
  have hB : Linked B := linked_build root marker contents
  obtain ⟨order, h, ha⟩ := assemble_eq_assembled hB separator
  have hpaths : (assembled separator B order).units.map (·.path) = order := paths_emittedUnits h
  refine ⟨_, ha, ?_, ?_, ?_, ?_⟩
  · rw [hpaths]
    exact h.nodup
  · intro before u after hsplit d hd
    obtain ⟨b, hb, hmem⟩ := (dependsOn_iff hB).mp hd
    have horder : order = before.map (·.path) ++ u.path :: after.map (·.path) := by
      rw [← hpaths, hsplit, List.map_append, List.map_cons]
    exact h.earlier _ _ _ horder b hb d hmem
  · intro q
    rw [hpaths, h.mem_iff_grounded hB]
    exact ⟨fun hq => ⟨(hq q .refl).1, hq⟩, fun hq => hq.2⟩
  · rw [hpaths]
    exact paths_excluded separator B order

end SourceMerge.Graph
