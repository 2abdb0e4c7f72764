import Mathlib.Data.List.Nodup
import SourceMerge.Graph.Cascade
import SourceMerge.Proofs.Graph.Edges
import SourceMerge.Proofs.Text.Split

/-!
# SourceMerge.Proofs.Graph.Walk

The state of a walk in closed form, and what a walk keeps.  All that ever
changes is *which* paths are emitted and *which dependents* an emitted unit has
still to release.  These two are a `Front`; over the graph `B` that the walk
began with they determine the whole progress, for an edge from `q` to `d`
stands as long as `d` is not emitted or has not released `q`:

```
dependencies of q = those d of the built ones whose edge still stands
```

* `Front.Sound` is the invariant of the stack: what is emitted had all its
  dependencies emitted earlier, and whoever has dependents left to release is
  on the stack.
* `Front.Quiet` says that no unit was left behind with nothing to wait for.

One turn of `cascade` is a `Front.release`, followed by a `Front.emit` if the
released unit has nothing left to wait for.  Both keep the invariant, so
`cascade` never meets an unknown dependent and ends with an empty stack, which
makes every emitted unit release all of its dependents.
-/

namespace SourceMerge.Graph

/-- How far a walk has come. -/
structure Front where
  /-- The paths of the emitted units in order. -/
  order : List Text
  /-- The dependents that the unit of a path has still to release. -/
  left : Text → List Text

namespace Front

/-- Whether the edge from `q` to `d` still stands. -/
def stands (w : Front) (q d : Text) : Bool := decide (d ∉ w.order ∨ q ∈ w.left d)

/-- What a unit still waits for. -/
def waiting (w : Front) (b : SourceText) : List Text := b.dependencies.filter (w.stands b.path)

/-- A unit as the walk has it. -/
def unit (w : Front) (b : SourceText) : SourceText :=
  { b with
    dependencies := w.waiting b
    dependents := w.left b.path
    emitted := decide (b.path ∈ w.order) }

/-- The graph as the walk has it. -/
def graph (w : Front) (B : Graph) : Graph := ⟨B.units.map w.unit⟩

end Front

/-- Units as they are when they are emitted: with nothing to wait for. -/
def emittedUnits (B : Graph) (order : List Text) : List SourceText :=
  order.filterMap fun q => (B.get? q).map fun b => { b with dependencies := [] }

/-- What holds of every place in a list still does if it holds of one more behind it. -/
theorem forall_split_concat {α : Type} {P : List α → α → Prop} {l : List α} {x : α}
    (hl : ∀ before y after, l = before ++ y :: after → P before y) (hx : P l x) :
    ∀ before y after, l ++ [x] = before ++ y :: after → P before y := by
  intro before y after heq
  rcases List.eq_nil_or_concat after with rfl | ⟨after', z, rfl⟩
  · obtain ⟨rfl, hlast⟩ := List.append_inj' heq rfl
    obtain rfl : x = y := by simpa using hlast
    exact hx
  · have heq' : l ++ [x] = (before ++ y :: after') ++ [z] := by simpa using heq
    exact hl before y after' (List.append_inj' heq' rfl).1

namespace Front

/-- The progress of a walk. -/
def progress (w : Front) (separator : Text) (B : Graph) : Progress :=
  { graph := w.graph B
    emitted := emittedUnits B w.order
    buffer := (emittedUnits B w.order).flatMap fun u => [u.content, separator] }

/-- The front after `q` released its last dependent. -/
def release (w : Front) (q : Text) : Front :=
  { w with left := fun p => if p = q then (w.left p).dropLast else w.left p }

/-- The front after `q` was emitted. -/
def emit (w : Front) (q : Text) : Front := { w with order := w.order ++ [q] }

@[simp] theorem order_release (w : Front) (q : Text) : (w.release q).order = w.order := rfl

@[simp] theorem order_emit (w : Front) (q : Text) : (w.emit q).order = w.order ++ [q] := rfl

@[simp] theorem left_emit (w : Front) (q : Text) : (w.emit q).left = w.left := rfl

@[simp] theorem left_release_self (w : Front) (q : Text) :
    (w.release q).left q = (w.left q).dropLast := by
  simp [release]

@[simp] theorem left_release_of_ne {w : Front} {p q : Text} (h : p ≠ q) :
    (w.release q).left p = w.left p := by
  simp [release, h]

@[simp] theorem path_unit (w : Front) (b : SourceText) : (w.unit b).path = b.path := rfl

theorem get?_graph (w : Front) (B : Graph) (q : Text) :
    (w.graph B).get? q = (B.get? q).map w.unit := by
  simp only [get?, graph, List.find?_map]
  rfl

/-! ## the invariant -/

/-- What holds of a front between two turns of a walk over `B`. -/
structure Sound (B : Graph) (w : Front) (stack : List Text) : Prop where
  nodup : w.order.Nodup
  units : ∀ q ∈ w.order, q ∈ B.paths
  /-- What an emitted unit depends on was emitted earlier. -/
  earlier : ∀ before q after, w.order = before ++ q :: after →
    ∀ b, B.get? q = some b → ∀ d ∈ b.dependencies, d ∈ before
  left_prefix : ∀ q b, B.get? q = some b → w.left q <+: b.dependents
  untouched : ∀ q b, B.get? q = some b → q ∉ w.order → w.left q = b.dependents
  /-- Whoever has dependents left to release is on the stack. -/
  open_mem : ∀ q ∈ w.order, w.left q ≠ [] → q ∈ stack
  stack_sub : ∀ q ∈ stack, q ∈ w.order

/-- Units that were not emitted wait for something, unless they never did. -/
def Quiet (B : Graph) (w : Front) : Prop :=
  ∀ q b, B.get? q = some b → q ∉ w.order → w.waiting b = [] → b.dependencies = []

variable {B : Graph} {w : Front} {stack : List Text} {q d : Text} {b : SourceText}

/-! ## one release -/

/-- A release is felt by the released unit only. -/
theorem waiting_release_of_ne {init : List Text} (hleft : w.left q = init ++ [d])
    (hne : b.path ≠ d) : (w.release q).waiting b = w.waiting b := by
  unfold waiting
  apply List.filter_congr
  intro x _
  by_cases hx : x = q
  · subst hx
    simp [stands, hleft, hne]
  · simp [stands, hx]

/-- The released unit no longer waits for the releasing one. -/
theorem waiting_release_self {init : List Text} (hleft : w.left q = init ++ [d])
    (hq : q ∈ w.order) (hd : d ∉ init) (hn : b.dependencies.Nodup) (hb : b.path = d) :
    (w.release q).waiting b = (w.waiting b).erase q := by
  unfold waiting
  rw [(hn.filter _).erase_eq_filter, List.filter_filter]
  apply List.filter_congr
  intro x _
  by_cases hx : x = q
  · subst hx
    simp [stands, hleft, hq, hb, hd]
  · simp [stands, hx]

/-- Taking the last dependent of a unit and taking the edge back is a release. -/
theorem release_of_popDependent? (hB : Linked B) (hw : Sound B w stack) (hq : q ∈ w.order)
    {g : Graph} (h : (w.graph B).popDependent? q = some (d, g)) :
    (∃ init, w.left q = init ++ [d]) ∧ g.release q d = (w.release q).graph B := by
  obtain ⟨b, hb⟩ := exists_get?_iff.mpr (hw.units q hq)
  have hbq := path_of_get? hb
  simp only [popDependent?, get?_graph, hb, Option.map_some] at h
  have hdep : (w.unit b).dependents = w.left q := by rw [← hbq]; rfl
  rw [hdep] at h
  cases hlast : (w.left q).getLast? with
  | none => simp [hlast] at h
  | some last =>
      simp only [hlast, Option.some.injEq, Prod.mk.injEq] at h
      obtain ⟨rfl, rfl⟩ := h
      obtain ⟨init, hinit⟩ := List.getLast?_eq_some_iff.mp hlast
      have hd : last ∉ init := by
        have hn := (hw.left_prefix q b hb).sublist.nodup
          (hB.nodup_dependents b (mem_units_of_get? hb))
        rw [hinit] at hn
        exact fun hmem => (List.nodup_append.mp hn).2.2 last hmem last (by simp) rfl
      refine ⟨⟨init, hinit⟩, ?_⟩
      simp only [Graph.release, modify, graph, List.map_map, Graph.mk.injEq]
      apply List.map_congr_left
      intro c hc
      have hn := hB.nodup_dependencies c hc
      simp only [Function.comp_apply]
      by_cases hcq : c.path = q <;> by_cases hcd : c.path = last
      · have hwait := waiting_release_self hinit hq hd hn hcd
        simp only [unit, hcq, if_true, hwait, left_release_self, order_release]
        simp [← hcq, hcd]
      · have hwait := waiting_release_of_ne hinit hcd
        simp [unit, hcq, hwait, show q ≠ last from hcq ▸ hcd]
      · have hwait := waiting_release_self hinit hq hd hn hcd
        have hne : last ≠ q := hcd ▸ hcq
        simp [unit, hwait, hcd, hne]
      · have hwait := waiting_release_of_ne hinit hcd
        simp only [unit, hcq, hcd, if_false, hwait, left_release_of_ne hcq]
        rfl

/-- A release keeps the invariant, and the stack. -/
theorem sound_release (hw : Sound B w stack) (hq : q ∈ stack) : Sound B (w.release q) stack where
  nodup := hw.nodup
  units := hw.units
  earlier := hw.earlier
  left_prefix := by
    intro p b hb
    by_cases hp : p = q
    · subst hp
      rw [left_release_self]
      exact (List.dropLast_prefix _).trans (hw.left_prefix p b hb)
    · rw [left_release_of_ne hp]
      exact hw.left_prefix p b hb
  untouched := by
    intro p b hb hp
    have hne : p ≠ q := fun h => hp (h ▸ hw.stack_sub q hq)
    rw [left_release_of_ne hne]
    exact hw.untouched p b hb hp
  open_mem := by
    intro p hp hleft
    by_cases hpq : p = q
    · exact hpq ▸ hq
    · rw [left_release_of_ne hpq] at hleft
      exact hw.open_mem p hp hleft
  stack_sub := hw.stack_sub

/-! ## one emission -/

/-- Emitting a unit takes no edge away: its dependents are still to be
released. -/
theorem waiting_emit (hB : Linked B) (hw : Sound B w stack) (hb : B.get? q = some b)
    (hq : q ∉ w.order) {c : SourceText} (hc : c ∈ B.units) :
    (w.emit q).waiting c = w.waiting c := by
  unfold waiting
  apply List.filter_congr
  intro x hx
  by_cases hxq : x = q
  · subst hxq
    have hback : c.path ∈ b.dependents := by
      rw [hB.dependents_iff b (mem_units_of_get? hb)]
      exact ⟨c, hc, rfl, by rwa [path_of_get? hb]⟩
    simp [stands, hq, hw.untouched x b hb hq, hback]
  · simp [stands, hxq]

/-- A unit that is ready is emitted as it was built, but for its edges. -/
theorem unit_eq_of_waiting_eq_nil (hB : Linked B) (hw : Sound B w stack) (hb : B.get? q = some b)
    (hq : q ∉ w.order) (hwait : w.waiting b = []) : w.unit b = { b with dependencies := [] } := by
  have hbq := path_of_get? hb
  have hleft : w.left q = b.dependents := hw.untouched q b hb hq
  have hnew : b.emitted = false := hB.pending b (mem_units_of_get? hb)
  simp [unit, hwait, hleft, hbq, hq, hnew]

/-- Emitting a ready unit moves the front on. -/
theorem progress_emit (hB : Linked B) (hw : Sound B w stack) (hb : B.get? q = some b)
    (hq : q ∉ w.order) (hwait : w.waiting b = []) (separator : Text) :
    (w.progress separator B).emit separator (w.unit b) = (w.emit q).progress separator B := by
  have hbq := path_of_get? hb
  have hunits : emittedUnits B (w.order ++ [q]) = emittedUnits B w.order ++ [w.unit b] := by
    rw [unit_eq_of_waiting_eq_nil hB hw hb hq hwait]
    simp [emittedUnits, List.filterMap_append, hb]
  have hgraph : (w.graph B).modify q (fun v => { v with emitted := true }) = (w.emit q).graph B := by
    simp only [modify, graph, List.map_map, Graph.mk.injEq]
    apply List.map_congr_left
    intro c hc
    simp only [Function.comp_apply, path_unit]
    by_cases hcq : c.path = q
    · simp [unit, waiting_emit hB hw hb hq hc, hcq]
    · simp [unit, waiting_emit hB hw hb hq hc, hcq]
  simp only [progress, Progress.emit, path_unit, hbq, hgraph, order_emit, hunits]
  simp

/-- Emitting a ready unit keeps the invariant, with the unit on the stack. -/
theorem sound_emit (hw : Sound B w stack) (hb : B.get? q = some b) (hq : q ∉ w.order)
    (hwait : w.waiting b = []) : Sound B (w.emit q) (q :: stack) where
  nodup := by
    rw [order_emit]
    exact List.Nodup.append hw.nodup (List.nodup_singleton q) (by simpa using hq)
  units := by
    intro p hp
    rcases List.mem_append.mp hp with hold | hnew
    · exact hw.units p hold
    · rw [List.mem_singleton.mp hnew]
      exact exists_get?_iff.mp ⟨b, hb⟩
  earlier := by
    refine forall_split_concat hw.earlier fun c hc x hx => ?_
    -- The new unit waits for nothing any more.
    obtain rfl : b = c := Option.some.inj (hb.symm.trans hc)
    have hnot : ¬ w.stands b.path x = true := by
      intro hstands
      have : x ∈ w.waiting b := List.mem_filter.mpr ⟨hx, hstands⟩
      simp [hwait] at this
    simp only [stands, decide_eq_true_eq, not_or, not_not] at hnot
    exact hnot.1
  left_prefix := hw.left_prefix
  untouched := by
    intro p c hc hp
    exact hw.untouched p c hc fun h => hp (List.mem_append_left _ h)
  open_mem := by
    intro p hp hleft
    rcases List.mem_append.mp hp with hold | hnew
    · exact List.mem_cons_of_mem q (hw.open_mem p hold hleft)
    · simp [List.mem_singleton.mp hnew]
  stack_sub := by
    intro p hp
    rcases List.mem_cons.mp hp with rfl | hold
    · simp
    · exact List.mem_append_left _ (hw.stack_sub p hold)

/-! ## turns of the walk -/

/-- Only the released unit may be left with nothing to wait for. -/
theorem quiet_release {init : List Text} (hquiet : Quiet B w) (hleft : w.left q = init ++ [d])
    {p : Text} (hb : B.get? p = some b) (hne : p ≠ d) (hp : p ∉ w.order)
    (hwait : (w.release q).waiting b = []) : b.dependencies = [] := by
  have hbp : b.path ≠ d := by rwa [path_of_get? hb]
  rw [waiting_release_of_ne hleft hbp] at hwait
  exact hquiet p b hb hp hwait

/-- What is left to release leads to units. -/
theorem mem_paths_of_mem_left (hB : Linked B) (hw : Sound B w stack) (hq : q ∈ w.order)
    (hd : d ∈ w.left q) : d ∈ B.paths := by
  obtain ⟨b, hb⟩ := exists_get?_iff.mpr (hw.units q hq)
  have hmem : d ∈ b.dependents := (hw.left_prefix q b hb).subset hd
  obtain ⟨u, hu, rfl, -⟩ := (hB.dependents_iff b (mem_units_of_get? hb) d).mp hmem
  exact List.mem_map_of_mem hu

/-- A unit with nothing left to release can leave the stack. -/
theorem sound_pop {below : List Text} (hw : Sound B w (q :: below)) (hleft : w.left q = []) :
    Sound B w below where
  nodup := hw.nodup
  units := hw.units
  earlier := hw.earlier
  left_prefix := hw.left_prefix
  untouched := hw.untouched
  open_mem := by
    intro p hp hne
    rcases List.mem_cons.mp (hw.open_mem p hp hne) with rfl | hbelow
    · exact absurd hleft hne
    · exact hbelow
  stack_sub := fun p hp => hw.stack_sub p (List.mem_cons_of_mem q hp)

/-- Without a dependent to take, nothing is left to release. -/
theorem left_eq_nil_of_popDependent? (hw : Sound B w stack) (hq : q ∈ w.order)
    (h : (w.graph B).popDependent? q = none) : w.left q = [] := by
  obtain ⟨b, hb⟩ := exists_get?_iff.mpr (hw.units q hq)
  have hdep : (w.unit b).dependents = w.left q := by rw [← path_of_get? hb]; rfl
  simp only [popDependent?, get?_graph, hb, Option.map_some, hdep] at h
  cases hlast : (w.left q).getLast? with
  | none => exact List.getLast?_eq_none_iff.mp hlast
  | some last => simp [hlast] at h

/-- Once a unit is released and, if it is ready, emitted, no unit is left behind
with nothing to wait for. -/
theorem quiet_emit (hB : Linked B) (hw : Sound B w stack) (hb : B.get? d = some b)
    (hd : d ∉ w.order)
    (hrest : ∀ p c, B.get? p = some c → p ≠ d → p ∉ w.order → w.waiting c = [] →
      c.dependencies = []) : Quiet B (w.emit d) := by
  intro p c hc hp hwait
  rw [order_emit, List.mem_append, List.mem_singleton, not_or] at hp
  rw [waiting_emit hB hw hb hd (mem_units_of_get? hc)] at hwait
  exact hrest p c hc hp.2 hp.1 hwait

/-- **One turn**: what stands on top of the stack releases its last dependent,
which is a unit. -/
theorem turn {below : List Text} {g : Graph} (hB : Linked B) (hw : Sound B w (q :: below))
    (h : (w.graph B).popDependent? q = some (d, g)) :
    ∃ init b, w.left q = init ++ [d] ∧ B.get? d = some b ∧
      g.release q d = (w.release q).graph B ∧ Sound B (w.release q) (q :: below) := by
  have hq : q ∈ w.order := hw.stack_sub q List.mem_cons_self
  obtain ⟨⟨init, hleft⟩, hg⟩ := release_of_popDependent? hB hw hq h
  have hd : d ∈ B.paths := mem_paths_of_mem_left hB hw hq (by simp [hleft])
  obtain ⟨b, hb⟩ := exists_get?_iff.mpr hd
  exact ⟨init, b, hleft, hb, hg, sound_release hw List.mem_cons_self⟩

end Front

/-! ## the walk below one unit -/

theorem cascade_nil (separator : Text) (p : Progress) : cascade separator p [] = .ok p := by
  rw [cascade]

/-- A unit without dependents leaves the stack. -/
theorem cascade_cons_of_none {separator : Text} {p : Progress} {current : Text}
    {below : List Text} (h : p.graph.popDependent? current = none) :
    cascade separator p (current :: below) = cascade separator p below := by
  rw [cascade]
  split
  · rfl
  · next h' => simp [h] at h'

/-- A dependent is released, and emitted if nothing is left to wait for. -/
theorem cascade_cons_of_some {separator : Text} {p : Progress} {current d : Text}
    {below : List Text} {g : Graph} {v : SourceText}
    (h : p.graph.popDependent? current = some (d, g))
    (hget : (g.release current d).get? d = some v) :
    cascade separator p (current :: below) =
      let released : Progress := { p with graph := g.release current d }
      if v.dependencies = [] ∧ v.emitted = false then
        cascade separator (released.emit separator v) (d :: current :: below)
      else cascade separator released (current :: below) := by
  rw [cascade]
  split
  · next h' => simp [h] at h'
  · next d' g' h' =>
    obtain ⟨rfl, rfl⟩ : d = d' ∧ g = g' := by simpa [h] using h'
    simp only [hget]

open Front in
/-- **The walk below one unit**: from a sound front the stack is emptied without
a fault, and the front it ends with is sound and quiet. -/
theorem cascade_progress {B : Graph} (hB : Linked B) (separator : Text) (p : Progress)
    (stack : List Text) (w : Front) (hp : p = w.progress separator B) (hw : Sound B w stack)
    (hquiet : Quiet B w) :
    ∃ w' : Front, cascade separator p stack = .ok (w'.progress separator B) ∧
      Sound B w' [] ∧ Quiet B w' ∧ w.order <+: w'.order := by
  induction p, stack using cascade.induct separator generalizing w with
  | case1 p =>
      subst hp
      exact ⟨w, cascade_nil .., hw, hquiet, List.prefix_refl _⟩
  | case2 p current below hpop ih =>
      subst hp
      have hleft := left_eq_nil_of_popDependent? hw (hw.stack_sub current List.mem_cons_self) hpop
      rw [cascade_cons_of_none hpop]
      exact ih w rfl (sound_pop hw hleft) hquiet
  | case3 p current below d g hpop hget =>
      -- What a sound front releases is a unit.
      subst hp
      obtain ⟨_, b, -, hb, hg, -⟩ := turn hB hw hpop
      rw [hg, get?_graph, hb] at hget
      simp at hget
  | case4 p current below d g hpop v hget released hready ih =>
      subst hp
      obtain ⟨init, b, hleft, hb, hg, hsound⟩ := turn hB hw hpop
      rw [cascade_cons_of_some hpop hget, if_pos hready]
      rw [hg, get?_graph, hb] at hget
      obtain rfl : (w.release current).unit b = v := Option.some.inj hget
      have hwait : (w.release current).waiting b = [] := hready.1
      have hnew : d ∉ (w.release current).order := by
        simpa [unit, path_of_get? hb] using hready.2
      have hreleased : released = (w.release current).progress separator B := by
        simp only [released, hg]
        rfl
      obtain ⟨w', hrun, hw', hquiet', hpre⟩ := ih ((w.release current).emit d)
        (by rw [hreleased, progress_emit hB hsound hb hnew hwait])
        (sound_emit hsound hb hnew hwait)
        (quiet_emit hB hsound hb hnew fun p c hc hne hp hwait =>
          quiet_release hquiet hleft hc hne hp hwait)
      exact ⟨w', hrun, hw', hquiet', (List.prefix_append _ _).trans hpre⟩
  | case5 p current below d g hpop v hget released hnot ih =>
      subst hp
      obtain ⟨init, b, hleft, hb, hg, hsound⟩ := turn hB hw hpop
      rw [cascade_cons_of_some hpop hget, if_neg hnot]
      rw [hg, get?_graph, hb] at hget
      obtain rfl : (w.release current).unit b = v := Option.some.inj hget
      have hreleased : released = (w.release current).progress separator B := by
        simp only [released, hg]
        rfl
      refine ih (w.release current) hreleased hsound fun p c hc hp hwait => ?_
      by_cases hpd : p = d
      · -- The released unit was not ready, so it is emitted or still waits.
        subst hpd
        obtain rfl : b = c := Option.some.inj (hb.symm.trans hc)
        exact absurd ⟨hwait, by simpa [unit, path_of_get? hb] using hp⟩ hnot
      · exact quiet_release hquiet hleft hc hpd hp hwait

/-! ## the walk over all units -/

/-- Before the walk nothing is emitted. -/
def Front.initial (B : Graph) : Front :=
  { order := [], left := fun q => ((B.get? q).map (·.dependents)).getD [] }

namespace Front

theorem left_initial {B : Graph} {q : Text} {b : SourceText} (hb : B.get? q = some b) :
    (initial B).left q = b.dependents := by
  simp [initial, hb]

theorem waiting_initial (B : Graph) (b : SourceText) : (initial B).waiting b = b.dependencies := by
  simp [waiting, stands, initial]

/-- The walk begins with the graph as it was built. -/
theorem progress_initial {B : Graph} (hB : Linked B) (separator : Text) :
    (initial B).progress separator B = { graph := B } := by
  have hgraph : (initial B).graph B = B := by
    obtain ⟨units⟩ := B
    simp only [graph, Graph.mk.injEq]
    refine (List.map_congr_left fun b hb => ?_).trans (List.map_id units)
    have hleft := left_initial (get?_of_mem hB.nodup hb)
    have hnew := hB.pending b hb
    simp only [unit, hleft, waiting_initial]
    simp [initial, ← hnew]
  simp only [progress, hgraph]
  simp [emittedUnits, initial]

theorem sound_initial (B : Graph) : Sound B (initial B) [] where
  nodup := List.nodup_nil
  units := by simp [initial]
  earlier := by simp [initial]
  left_prefix := fun q b hb => ⟨[], by rw [List.append_nil, left_initial hb]⟩
  untouched := fun q b hb _ => left_initial hb
  open_mem := by simp [initial]
  stack_sub := by simp

theorem quiet_initial (B : Graph) : Quiet B (initial B) := by
  intro q b _ _ hwait
  rwa [waiting_initial] at hwait

end Front

/-- Every unit that depends on nothing is emitted, or still to be visited. -/
def Front.CoversRoots (B : Graph) (w : Front) (rest : List Text) : Prop :=
  ∀ q b, B.get? q = some b → b.dependencies = [] → q ∈ w.order ∨ q ∈ rest

/-- A visit may be done with once nothing emitted is lost and the visited unit is
emitted, should it depend on nothing. -/
theorem Front.CoversRoots.visited {B : Graph} {w w' : Front} {path : Text} {rest : List Text}
    (h : CoversRoots B w (path :: rest)) (hsub : w.order ⊆ w'.order)
    (hpath : ∀ b, B.get? path = some b → b.dependencies = [] → path ∈ w'.order) :
    CoversRoots B w' rest := by
  intro q b hb hdep
  rcases h q b hb hdep with hin | hin
  · exact .inl (hsub hin)
  · rcases List.mem_cons.mp hin with rfl | htail
    · exact .inl (hpath b hb hdep)
    · exact .inr htail

/-- What a visit does to a front.  A unit that depends on nothing and is not emitted
begins a walk; any other path is passed over. -/
inductive Front.Visit (separator : Text) (B : Graph) (w : Front) (path : Text) : Front → Prop
  | passed (h : ∀ b, B.get? path = some b → b.dependencies = [] → path ∈ w.order) :
      Visit separator B w path w
  | begun {w' : Front} {b : SourceText} (hb : B.get? path = some b) (hdep : b.dependencies = [])
      (hnew : path ∉ w.order) (hpre : w.order ++ [path] <+: w'.order)
      (hrun : cascade separator ((w.emit path).progress separator B) [path] =
        .ok (w'.progress separator B)) : Visit separator B w path w'

open Front in
/-- **One visit** has no fault, and leaves a sound and quiet front. -/
theorem visitAll_cons_progress {B : Graph} (hB : Linked B) (separator path : Text)
    (rest : List Text) {w : Front} (hw : Sound B w []) (hquiet : Quiet B w) :
    ∃ w' : Front, visitAll separator (w.progress separator B) (path :: rest) =
        visitAll separator (w'.progress separator B) rest ∧
      Sound B w' [] ∧ Quiet B w' ∧ Visit separator B w path w' := by
  have hget : (w.progress separator B).graph.get? path = (B.get? path).map w.unit :=
    get?_graph w B path
  rw [visitAll, hget]
  cases hb : B.get? path with
  | none => exact ⟨w, rfl, hw, hquiet, .passed fun b hb' => by simp [hb] at hb'⟩
  | some b =>
      simp only [Option.map_some]
      have hbp := path_of_get? hb
      by_cases hskip : (w.unit b).emitted = true ∨ (w.unit b).dependencies ≠ []
      · rw [if_pos hskip]
        refine ⟨w, rfl, hw, hquiet, .passed fun c hc hdep => ?_⟩
        obtain rfl : b = c := Option.some.inj (hb.symm.trans hc)
        have hnone : w.waiting b = [] := by simp [waiting, hdep]
        simpa [unit, hnone, hbp] using hskip
      · rw [if_neg hskip]
        rw [not_or, not_not] at hskip
        have hnew : path ∉ w.order := by simpa [unit, hbp] using hskip.1
        have hwait : w.waiting b = [] := hskip.2
        obtain ⟨w', hrun, hw', hquiet', hpre⟩ := cascade_progress hB separator _ [path]
          (w.emit path) rfl (sound_emit hw hb hnew hwait)
          (quiet_emit hB hw hb hnew fun p c hc _ hp hwait => hquiet p c hc hp hwait)
        rw [progress_emit hB hw hb hnew hwait, hrun]
        exact ⟨w', rfl, hw', hquiet',
          .begun hb (hquiet path b hb hnew hwait) hnew hpre hrun⟩

open Front in
/-- **The walk over all units**: it has no fault, and emits every unit that
depends on nothing. -/
theorem visitAll_progress {B : Graph} (hB : Linked B) (separator : Text) (rest : List Text)
    (w : Front) (hw : Sound B w []) (hquiet : Quiet B w) (hroots : CoversRoots B w rest) :
    ∃ w' : Front, visitAll separator (w.progress separator B) rest = .ok (w'.progress separator B) ∧
      Sound B w' [] ∧ Quiet B w' ∧ CoversRoots B w' [] := by
  induction rest generalizing w with
  | nil => exact ⟨w, rfl, hw, hquiet, hroots⟩
  | cons path rest ih =>
      obtain ⟨w₁, hstep, hw₁, hquiet₁, hvisit⟩ :=
        visitAll_cons_progress hB separator path rest hw hquiet
      rw [hstep]
      refine ih w₁ hw₁ hquiet₁ ?_
      cases hvisit with
      | passed hpath => exact hroots.visited (List.Subset.refl _) hpath
      | begun hb hdep hnew hpre hrun =>
          exact hroots.visited (fun q hq => hpre.subset (List.mem_append_left _ hq))
            fun _ _ _ => hpre.subset (by simp)

/-! ## the assembly -/

/-- An order in which units can be emitted, and that leaves no unit out which
could be: what is left out waits for something that is left out. -/
structure Emission (B : Graph) (order : List Text) : Prop where
  nodup : order.Nodup
  units : ∀ q ∈ order, q ∈ B.paths
  earlier : ∀ before q after, order = before ++ q :: after →
    ∀ b, B.get? q = some b → ∀ d ∈ b.dependencies, d ∈ before
  complete : ∀ q b, B.get? q = some b → q ∉ order → ∃ d ∈ b.dependencies, d ∉ order

/-- A unit after an assembly that emitted the paths of `order`: an emitted one
has released everything, the others wait for what was not emitted. -/
def settled (order : List Text) (b : SourceText) : SourceText :=
  { b with
    dependencies := b.dependencies.filter (· ∉ order)
    dependents := if b.path ∈ order then [] else b.dependents
    emitted := decide (b.path ∈ order) }

/-- The assembly of a graph in a given order. -/
def assembled (separator : Text) (B : Graph) (order : List Text) : Assembly :=
  { units := emittedUnits B order
    output := Text.joinWith separator ((emittedUnits B order).map (·.content))
    excluded := (B.units.filter (·.path ∉ order)).map fun b =>
      (b.path, b.dependencies.filter (· ∉ order))
    graph := ⟨B.units.map (settled order)⟩ }

theorem flatten_separated (separator : Text) (us : List SourceText) (u : SourceText) :
    ((u :: us).flatMap fun u => [u.content, separator]).flatten =
      Text.joinWith separator ((u :: us).map (·.content)) ++ separator := by
  induction us generalizing u with
  | nil => simp [Text.joinWith]
  | cons v vs ih =>
      rw [List.flatMap_cons, List.flatten_append, ih v]
      simp

/-- Cutting off the separator behind the last piece leaves the pieces joined. -/
theorem joinBuffer_eq_joinWith (separator : Text) (us : List SourceText) :
    joinBuffer separator (us.flatMap fun u => [u.content, separator]) =
      Text.joinWith separator (us.map (·.content)) := by
  cases us with
  | nil => simp [joinBuffer, Text.joinWith]
  | cons u us =>
      simp only [joinBuffer, flatten_separated separator us u]
      simp

/-- After the walk an emitted unit has nothing left to release, so exactly the
edges to emitted units are gone. -/
theorem Front.unit_eq_settled {B : Graph} {w : Front} (hw : Sound B w []) {b : SourceText}
    (hb : B.get? b.path = some b) : w.unit b = settled w.order b := by
  have hleft : ∀ q ∈ w.order, w.left q = [] := fun q hq =>
    by_contra fun hne => List.not_mem_nil (hw.open_mem q hq hne)
  have hwait : w.waiting b = b.dependencies.filter (· ∉ w.order) := by
    unfold waiting
    apply List.filter_congr
    intro d _
    by_cases hd : d ∈ w.order
    · simp [stands, hd, hleft d hd]
    · simp [stands, hd]
  have hback : w.left b.path = if b.path ∈ w.order then [] else b.dependents := by
    by_cases hin : b.path ∈ w.order
    · rw [if_pos hin, hleft b.path hin]
    · rw [if_neg hin, hw.untouched b.path b hb hin]
  simp only [unit, settled, hwait, hback]

/-- **Assembly in closed form**: a linked graph is ordered without a fault, by an
order that leaves no unit out which could be emitted. -/
theorem assemble_eq_assembled {B : Graph} (hB : Linked B) (separator : Text) :
    ∃ order, Emission B order ∧ assemble separator B = .ok (assembled separator B order) := by
  obtain ⟨w, hrun, hw, hquiet, hroots⟩ := visitAll_progress hB separator B.paths (Front.initial B)
    (Front.sound_initial B) (Front.quiet_initial B)
    fun q b hb _ => .inr (exists_get?_iff.mp ⟨b, hb⟩)
  have hunit : ∀ b ∈ B.units, w.unit b = settled w.order b := fun b hb =>
    Front.unit_eq_settled hw (get?_of_mem hB.nodup hb)
  refine ⟨w.order, ⟨hw.nodup, hw.units, hw.earlier, ?_⟩, ?_⟩
  · intro q b hb hq
    by_contra hnone
    have hdeps : ∀ d ∈ b.dependencies, d ∈ w.order := by simpa using hnone
    have hwait : w.waiting b = [] := by
      have hset := hunit b (mem_units_of_get? hb)
      have : w.waiting b = b.dependencies.filter (· ∉ w.order) :=
        congrArg SourceText.dependencies hset
      rw [this, List.filter_eq_nil_iff]
      simpa using hdeps
    rcases hroots q b hb (hquiet q b hb hq hwait) with hin | hin
    · exact hq hin
    · contradiction
  · have hgraph : w.graph B = ⟨B.units.map (settled w.order)⟩ := by
      simp only [Front.graph, Graph.mk.injEq]
      exact List.map_congr_left hunit
    rw [assemble, ← Front.progress_initial hB separator, hrun]
    simp only [Except.map, Front.progress, assembled, hgraph, joinBuffer_eq_joinWith]
    congr 2
    simp only [unresolved, List.filter_map, List.map_map]
    have hleft : ((fun u : SourceText => !u.emitted) ∘ settled w.order) =
        fun b => decide (b.path ∉ w.order) := by
      funext b
      simp [settled]
    rw [hleft]
    rfl

end SourceMerge.Graph
