import SourceMerge.Proofs.Graph.Walk

/-!
# SourceMerge.Proofs.Graph.DepthFirst

The walk below one unit as a recursion.  A unit is emitted and then releases its
dependents one after the other; a dependent that has nothing left to wait for is
done in the same way before its releaser goes on:

```
emit u
while u has dependents:
  take the last of them, d, away from u
  d waits once less for u
  if d waits for nothing and is not emitted: the same for d
```

`Releases` is the loop and `DepthFirst` the whole, as relations between the
progress before and after.  Nothing in them knows of a stack.

The relation and the stack meet in one equation: whatever stands below a unit
waits until its loop is done (`Releases.cascade_eq`), so the recursion's pending
loops are the units of the stack, from the top down.  That the recursion comes to
an end has to be shown apart, by the backward edges, which every turn makes
fewer; all that it asks of a graph is that they lead to units.
-/

namespace SourceMerge.Graph

/-! ## the recursion -/

/-- One turn: the unit of `q` gives up its last dependent, `d`, and `d` waits
once less for `q`. -/
def Progress.giveUp (p : Progress) (q d : Text) : Progress :=
  { p with
    graph :=
      (p.graph.modify q fun u => { u with dependents := u.dependents.dropLast }).modify d
        fun v => { v with dependencies := v.dependencies.erase q } }

/-- The unit of a path releases its dependents, the last one first, until it has
none. -/
inductive Releases (separator : Text) : Progress → Text → Progress → Prop
  | done {p : Progress} {q : Text} {u : SourceText} (hu : p.graph.get? q = some u)
      (hnone : u.dependents = []) : Releases separator p q p
  | waits {p p' : Progress} {q d : Text} {u v : SourceText} (hu : p.graph.get? q = some u)
      (hlast : u.dependents.getLast? = some d) (hv : (p.giveUp q d).graph.get? d = some v)
      (hwaits : v.dependencies ≠ [] ∨ v.emitted = true)
      (hrest : Releases separator (p.giveUp q d) q p') : Releases separator p q p'
  | descends {p p₁ p' : Progress} {q d : Text} {u v : SourceText} (hu : p.graph.get? q = some u)
      (hlast : u.dependents.getLast? = some d) (hv : (p.giveUp q d).graph.get? d = some v)
      (hready : v.dependencies = []) (hnew : v.emitted = false)
      (hbelow : Releases separator ((p.giveUp q d).emit separator v) d p₁)
      (hrest : Releases separator p₁ q p') : Releases separator p q p'

/-- **The recursion**: a unit is emitted and releases its dependents. -/
def DepthFirst (separator : Text) (p : Progress) (u : SourceText) (p' : Progress) : Prop :=
  Releases separator (p.emit separator u) u.path p'

/-! ## the stack follows the recursion -/

theorem popDependent?_eq_none {g : Graph} {q : Text} {u : SourceText} (hu : g.get? q = some u)
    (hnone : u.dependents = []) : g.popDependent? q = none := by
  simp [popDependent?, hu, hnone]

theorem popDependent?_eq_some {g : Graph} {q d : Text} {u : SourceText} (hu : g.get? q = some u)
    (hlast : u.dependents.getLast? = some d) :
    g.popDependent? q =
      some (d, g.modify q fun v => { v with dependents := v.dependents.dropLast }) := by
  simp [popDependent?, hu, hlast]

/-- **What stands below a unit waits** until the unit has released its
dependents. -/
theorem Releases.cascade_eq {separator : Text} {p p' : Progress} {q : Text}
    (h : Releases separator p q p') (below : List Text) :
    cascade separator p (q :: below) = cascade separator p' below := by
  induction h generalizing below with
  | done hu hnone => exact cascade_cons_of_none (popDependent?_eq_none hu hnone)
  | @waits _ _ _ _ _ v hu hlast hv hwaits _ ih =>
      have hnot : ¬ (v.dependencies = [] ∧ v.emitted = false) := by
        intro hboth
        simp [hboth.1, hboth.2] at hwaits
      rw [cascade_cons_of_some (popDependent?_eq_some hu hlast) hv, if_neg hnot]
      exact ih below
  | descends hu hlast hv hready hnew _ _ ihbelow ihrest =>
      rw [cascade_cons_of_some (popDependent?_eq_some hu hlast) hv, if_pos ⟨hready, hnew⟩]
      -- The dependent's own loop runs on top of the releasing unit.
      exact (ihbelow _).trans (ihrest below)

/-! ## the recursion ends -/

/-- Every backward edge leads to a unit. -/
def Closed (g : Graph) : Prop := ∀ u ∈ g.units, ∀ d ∈ u.dependents, d ∈ g.paths

theorem paths_modify {g : Graph} {f : SourceText → SourceText} (q : Text)
    (hf : ∀ u, (f u).path = u.path) : (g.modify q f).paths = g.paths := by
  simp only [paths, modify, List.map_map]
  apply List.map_congr_left
  intro u _
  by_cases h : u.path = q <;> simp [h, hf]

/-- What holds of every backward edge still does where edges are taken away. -/
theorem forall_dependents_modify {R : Text → Text → Prop} {g : Graph}
    (h : ∀ u ∈ g.units, ∀ d ∈ u.dependents, R u.path d) {f : SourceText → SourceText} (q : Text)
    (hf : ∀ u, (f u).path = u.path) (hsub : ∀ u, (f u).dependents ⊆ u.dependents) :
    ∀ u ∈ (g.modify q f).units, ∀ d ∈ u.dependents, R u.path d := by
  intro u hu d hd
  obtain ⟨v, hv, rfl⟩ := List.mem_map.mp hu
  by_cases hq : v.path = q
  · rw [if_pos hq] at hd ⊢
    rw [hf v]
    exact h v hv d (hsub v hd)
  · rw [if_neg hq] at hd ⊢
    exact h v hv d hd

/-- In a built graph every backward edge leads to a unit. -/
theorem closed_build (root marker : Text) (contents : List (Text × Text)) :
    (build root marker contents).Closed := by
  intro d hd q hq
  obtain ⟨u, hu, hpath, -⟩ := ((linked_build root marker contents).dependents_iff d hd q).mp hq
  exact hpath ▸ List.mem_map_of_mem hu

namespace Progress

variable {p : Progress} {q d : Text}

@[simp] theorem paths_giveUp (p : Progress) (q d : Text) :
    (p.giveUp q d).graph.paths = p.graph.paths := by
  simp [giveUp, paths_modify]

@[simp] theorem paths_emit (separator : Text) (p : Progress) (u : SourceText) :
    (p.emit separator u).graph.paths = p.graph.paths :=
  paths_modify u.path fun _ => rfl

theorem forall_dependents_giveUp {R : Text → Text → Prop}
    (h : ∀ u ∈ p.graph.units, ∀ e ∈ u.dependents, R u.path e) :
    ∀ u ∈ (p.giveUp q d).graph.units, ∀ e ∈ u.dependents, R u.path e := by
  refine forall_dependents_modify (forall_dependents_modify h q ?_ ?_) d ?_ ?_
  · simp
  · exact fun u => List.dropLast_subset u.dependents
  · simp
  · simp

theorem forall_dependents_emit {R : Text → Text → Prop}
    (h : ∀ u ∈ p.graph.units, ∀ e ∈ u.dependents, R u.path e) (separator : Text) (v : SourceText) :
    ∀ u ∈ (p.emit separator v).graph.units, ∀ e ∈ u.dependents, R u.path e :=
  forall_dependents_modify h v.path (fun _ => rfl) fun u => List.Subset.refl u.dependents

theorem closed_giveUp (hp : p.graph.Closed) : (p.giveUp q d).graph.Closed := by
  unfold Closed
  rw [paths_giveUp]
  exact forall_dependents_giveUp (R := fun _ e => e ∈ p.graph.paths) hp

theorem closed_emit (hp : p.graph.Closed) (separator : Text) (u : SourceText) :
    (p.emit separator u).graph.Closed := by
  unfold Closed
  rw [paths_emit]
  exact forall_dependents_emit (R := fun _ e => e ∈ p.graph.paths) hp separator u

/-- A turn takes a backward edge away. -/
theorem backEdges_giveUp {u : SourceText} (hu : p.graph.get? q = some u)
    (hlast : u.dependents.getLast? = some d) :
    (p.giveUp q d).graph.backEdges < p.graph.backEdges := by
  have hpop := backEdges_popDependent? (popDependent?_eq_some hu hlast)
  have hrelease := backEdges_modify (p.graph.modify q fun v =>
    { v with dependents := v.dependents.dropLast }) d
    (fun v => { v with dependencies := v.dependencies.erase q }) fun _ => rfl
  exact hrelease ▸ hpop

end Progress

/-- **The recursion ends**: in a closed graph every unit gets to release all of
its dependents, and the graph stays closed. -/
theorem exists_releases (separator : Text) (p : Progress) (hp : p.graph.Closed) {q : Text}
    (hq : q ∈ p.graph.paths) :
    ∃ p', Releases separator p q p' ∧ p'.graph.Closed ∧ p'.graph.paths = p.graph.paths ∧
      p'.graph.backEdges ≤ p.graph.backEdges := by
  induction hn : p.graph.backEdges using Nat.strongRecOn generalizing p q with
  | ind n ih =>
      subst hn
      obtain ⟨u, hu⟩ := exists_get?_iff.mpr hq
      cases hlast : u.dependents.getLast? with
      | none =>
          have hnone : u.dependents = [] := List.getLast?_eq_none_iff.mp hlast
          exact ⟨p, .done hu hnone, hp, rfl, Nat.le_refl _⟩
      | some d =>
          have hfewer := Progress.backEdges_giveUp hu hlast
          have hclosed := Progress.closed_giveUp (q := q) (d := d) hp
          have hd : d ∈ (p.giveUp q d).graph.paths := by
            rw [Progress.paths_giveUp]
            exact hp u (mem_units_of_get? hu) d (List.mem_of_getLast? hlast)
          obtain ⟨v, hv⟩ := exists_get?_iff.mpr hd
          by_cases hready : v.dependencies = [] ∧ v.emitted = false
          · have hemit : ((p.giveUp q d).emit separator v).graph.backEdges =
                (p.giveUp q d).graph.backEdges := backEdges_emit separator _ v
            obtain ⟨p₁, hbelow, hclosed₁, hpaths₁, hless₁⟩ := ih _ (hemit ▸ hfewer)
              ((p.giveUp q d).emit separator v) (Progress.closed_emit hclosed separator v)
              (q := d) (by simpa using hd) rfl
            have hpaths : p₁.graph.paths = p.graph.paths := by simpa using hpaths₁
            have hless : p₁.graph.backEdges < p.graph.backEdges :=
              Nat.lt_of_le_of_lt (hemit ▸ hless₁) hfewer
            obtain ⟨p', hrest, hclosed', hpaths', hless'⟩ :=
              ih _ hless p₁ hclosed₁ (q := q) (hpaths ▸ hq) rfl
            exact ⟨p', .descends hu hlast hv hready.1 hready.2 hbelow hrest, hclosed',
              hpaths'.trans hpaths, Nat.le_trans hless' (Nat.le_of_lt hless)⟩
          · have hwaits : v.dependencies ≠ [] ∨ v.emitted = true := by
              rw [not_and_or, Bool.not_eq_false] at hready
              exact hready
            obtain ⟨p', hrest, hclosed', hpaths', hless'⟩ :=
              ih _ hfewer (p.giveUp q d) hclosed (q := q) (by simpa using hq) rfl
            exact ⟨p', .waits hu hlast hv hwaits hrest, hclosed', by simpa using hpaths',
              Nat.le_trans hless' (Nat.le_of_lt hfewer)⟩

/-- **The walk with a stack is the depth-first recursion.**  Wherever backward
edges lead to units, as they do in every built graph, the walk below a unit comes
to an end without a fault, and so does the recursion; they leave the same units in
the same state, have emitted the same units in the same order and have the same
pieces of output. -/
theorem cascade_eq_depthFirst :
    (∀ root marker contents, (build root marker contents).Closed) ∧
      ∀ (separator : Text) (p : Progress) (u : SourceText), p.graph.Closed →
        p.graph.get? u.path = some u →
        ∃ p', cascade separator (p.emit separator u) [u.path] = .ok p' ∧
          ∀ p'', DepthFirst separator p u p'' ↔ p'' = p' := by
  refine ⟨closed_build, fun separator p u hp hu => ?_⟩
  have hroot : u.path ∈ (p.emit separator u).graph.paths := by
    rw [Progress.paths_emit]
    exact exists_get?_iff.mp ⟨u, hu⟩
  obtain ⟨p', hrec, -⟩ := exists_releases separator _ (Progress.closed_emit hp separator u) hroot
  -- Any end of the recursion is the one end of the walk.
  have hends : ∀ {p''}, DepthFirst separator p u p'' →
      cascade separator (p.emit separator u) [u.path] = .ok p'' := fun h =>
    (h.cascade_eq []).trans (cascade_nil separator _)
  refine ⟨p', hends hrec, fun p'' => ⟨fun h => ?_, fun h => h ▸ hrec⟩⟩
  exact Except.ok.inj ((hends h).symm.trans (hends hrec))

/-- A unit that waits for itself and is waited for by all others. -/
def tangledRoot : SourceText :=
  { path := "a", raw := "a", content := "a", dependencies := ["a"]
    dependents := ["d", "b", "e", "c", "a"] }

/-- Units of which one is released by two others and one was emitted before. -/
def tangled : Graph :=
  ⟨[tangledRoot,
    { path := "b", raw := "b", content := "b", dependencies := ["a"], dependents := ["d"] },
    { path := "c", raw := "c", content := "c", dependencies := ["a"], dependents := ["a", "d"] },
    { path := "d", raw := "d", content := "d", dependencies := ["c", "a"] },
    { path := "e", raw := "e", content := "e", dependents := ["b"], emitted := true }]⟩

theorem cascade_eq_depthFirst_tangled :
    tangled.Closed ∧ tangled.get? tangledRoot.path = some tangledRoot ∧
      ∃ p', cascade "\n" (({ graph := tangled } : Progress).emit "\n" tangledRoot)
          [tangledRoot.path] = .ok p' ∧
        (∀ p'', DepthFirst "\n" { graph := tangled } tangledRoot p'' ↔ p'' = p') ∧
        p'.emitted.map (·.path) = ["a", "c", "b", "d"] ∧ p'.graph.backEdges = 1 := by
  have hclosed : tangled.Closed := by
    unfold Closed
    decide
  have hget : tangled.get? tangledRoot.path = some tangledRoot := rfl
  obtain ⟨p', hrun, hunique⟩ :=
    cascade_eq_depthFirst.2 "\n" { graph := tangled } tangledRoot hclosed hget
  have hends : (cascade "\n" (({ graph := tangled } : Progress).emit "\n" tangledRoot)
      [tangledRoot.path]).map (fun p => (p.emitted.map (·.path), p.graph.backEdges)) =
        .ok (["a", "c", "b", "d"], 1) := by cbv
  rw [hrun] at hends
  have hpair := Except.ok.inj hends
  exact ⟨hclosed, hget, p', hrun, hunique, congrArg Prod.fst hpair, congrArg Prod.snd hpair⟩

end SourceMerge.Graph
