import SourceMerge.Graph

/-!
# SourceMerge.Graph.Cascade

Emitting units in dependency order.  Units are visited in configured order, and
one that waits for nothing is emitted.  That releases the units waiting for it,
the one registered last first; a unit whose last dependency this was is emitted
at once and releases its own dependents before the others go on.  The walk is a
stack of units that still have dependents to release; every turn either takes a
backward edge away or shortens the stack, so it ends.
-/

namespace SourceMerge.Graph

/-- What can go wrong in a walk: a backward edge names no unit. -/
inductive CascadeFault where
  | unknownDependent (path : Text)

/-- How far an assembly has come. -/
structure Progress where
  graph : Graph
  /-- The units emitted so far, in order, as they were when emitted. -/
  emitted : List SourceText := []
  /-- The pieces of the output so far, each content with a separator behind. -/
  buffer : List Text := []

/-- Emits a unit. -/
def Progress.emit (separator : Text) (p : Progress) (u : SourceText) : Progress :=
  { graph := p.graph.modify u.path fun v => { v with emitted := true }
    emitted := p.emitted ++ [u]
    buffer := p.buffer ++ [u.content, separator] }

/-! ## Backward edges -/

/-- The number of backward edges. -/
def backEdges (g : Graph) : Nat := (g.units.map (·.dependents.length)).foldr (· + ·) 0

/-- Takes the last dependent of a unit. -/
def popDependent? (g : Graph) (path : Text) : Option (Text × Graph) :=
  match g.get? path with
  | none => none
  | some u =>
    match u.dependents.getLast? with
    | none => none
    | some d => some (d, g.modify path fun v => { v with dependents := v.dependents.dropLast })

private theorem sum_map_le {α : Type} (l : List α) (f g : α → Nat) (h : ∀ x, f x ≤ g x) :
    (l.map f).foldr (· + ·) 0 ≤ (l.map g).foldr (· + ·) 0 := by
  induction l with
  | nil => exact Nat.le_refl _
  | cons x xs ih => exact Nat.add_le_add (h x) ih

private theorem sum_map_lt {α : Type} (l : List α) (f g : α → Nat) (h : ∀ x, f x ≤ g x)
    {x : α} (hx : x ∈ l) (hlt : f x < g x) :
    (l.map f).foldr (· + ·) 0 < (l.map g).foldr (· + ·) 0 := by
  induction l with
  | nil => simp at hx
  | cons y ys ih =>
    rcases List.mem_cons.1 hx with rfl | hmem
    · exact Nat.add_lt_add_of_lt_of_le hlt (sum_map_le ys f g h)
    · exact Nat.add_lt_add_of_le_of_lt (h y) (ih hmem)

/-- A change that leaves the dependents of units alone leaves the number of
backward edges alone. -/
theorem backEdges_modify (g : Graph) (path : Text) (f : SourceText → SourceText)
    (h : ∀ u, (f u).dependents = u.dependents) : (g.modify path f).backEdges = g.backEdges := by
  simp only [backEdges, modify, List.map_map]
  congr 1
  apply List.map_congr_left
  intro u _
  simp only [Function.comp_apply]
  split <;> simp [h]

/-- Taking a dependent leaves fewer backward edges. -/
theorem backEdges_popDependent? {g g' : Graph} {path d : Text}
    (h : g.popDependent? path = some (d, g')) : g'.backEdges < g.backEdges := by
  unfold popDependent? at h
  split at h
  · simp at h
  · next u hu =>
    split at h
    · simp at h
    · next last hlast =>
      simp only [Option.some.injEq, Prod.mk.injEq] at h
      obtain ⟨-, rfl⟩ := h
      have hmem : u ∈ g.units := List.mem_of_find?_eq_some hu
      have hpath : u.path = path := by simpa using List.find?_some hu
      have hne : u.dependents ≠ [] := by
        intro hnil
        simp [hnil] at hlast
      simp only [backEdges, modify, List.map_map]
      refine sum_map_lt g.units _ _ ?_ hmem ?_
      · intro v
        simp only [Function.comp_apply]
        split <;> simp
      · have : 0 < u.dependents.length := List.length_pos_iff.2 hne
        simp only [Function.comp_apply, hpath, if_true, List.length_dropLast]
        omega

/-! ## The walk -/

/-- Takes back one edge: `d` waits once less for `path`. -/
def release (g : Graph) (path d : Text) : Graph :=
  g.modify d fun v => { v with dependencies := v.dependencies.erase path }

theorem backEdges_release (g : Graph) (path d : Text) :
    (g.release path d).backEdges = g.backEdges :=
  backEdges_modify g d _ fun _ => rfl

theorem backEdges_emit (separator : Text) (p : Progress) (u : SourceText) :
    (p.emit separator u).graph.backEdges = p.graph.backEdges :=
  backEdges_modify p.graph u.path _ fun _ => rfl

/-- Releases the dependents of the unit on top of the stack, one a turn. -/
def cascade (separator : Text) (p : Progress) (stack : List Text) :
    Except CascadeFault Progress :=
  match stack with
  | [] => .ok p
  | current :: below =>
    match _hpop : p.graph.popDependent? current with
    | none => cascade separator p below
    | some (d, g) =>
      match (g.release current d).get? d with
      | none => .error (.unknownDependent d)
      | some v =>
        let released : Progress := { p with graph := g.release current d }
        if v.dependencies = [] ∧ v.emitted = false then
          cascade separator (released.emit separator v) (d :: current :: below)
        else cascade separator released (current :: below)
termination_by (p.graph.backEdges, stack.length)
decreasing_by
  · exact Prod.Lex.right _ (by simp)
  · apply Prod.Lex.left
    rw [backEdges_emit, backEdges_release]
    exact backEdges_popDependent? _hpop
  · apply Prod.Lex.left
    rw [backEdges_release]
    exact backEdges_popDependent? _hpop

/-- Visits units by path, in order. -/
def visitAll (separator : Text) (p : Progress) : List Text → Except CascadeFault Progress
  | [] => .ok p
  | path :: rest =>
    match p.graph.get? path with
    | none => visitAll separator p rest
    | some u =>
      if u.emitted = true ∨ u.dependencies ≠ [] then visitAll separator p rest
      else
        match cascade separator (p.emit separator u) [path] with
        | .error e => .error e
        | .ok p => visitAll separator p rest

/-! ## Assembly -/

/-- The outcome of ordering the units of one merge. -/
structure Assembly where
  units : List SourceText
  output : Text
  /-- The units left out, each with what it still waits for. -/
  excluded : List (Text × List Text)
  graph : Graph

/-- The pieces one after another without the separator behind the last. -/
def joinBuffer (separator : Text) (buffer : List Text) : Text :=
  let whole := buffer.flatten
  whole.take (whole.length - separator.length)

/-- Emits every unit that can be emitted. -/
def assemble (separator : Text) (g : Graph) : Except CascadeFault Assembly :=
  (visitAll separator { graph := g } g.paths).map fun p =>
    { units := p.emitted
      output := joinBuffer separator p.buffer
      excluded := p.graph.unresolved.map fun u => (u.path, u.dependencies)
      graph := p.graph }

/-- What there is to say about an assembly. -/
def Assembly.note (a : Assembly) : Text :=
  "Assembled " ++ Text.ofNat a.units.length ++ " of " ++ Text.ofNat a.graph.units.length ++
    " units (" ++ Text.ofNat a.excluded.length ++ " excluded)"

end SourceMerge.Graph
