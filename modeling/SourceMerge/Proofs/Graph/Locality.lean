import SourceMerge.Proofs.Graph.DepthFirst
import SourceMerge.Proofs.Graph.Order

/-!
# SourceMerge.Proofs.Graph.Locality

Where a unit stands in the output.  A unit that depends on nothing waits for its turn in
the configured order.  Any other one is emitted in a walk, when the unit on top of the
stack takes back the last edge that it waits for.  Since its releaser was emitted, walks
above the releaser may have emitted others, but nothing that does not depend on it:

```
… releaser, (units that depend on the releaser), unit …
```

The releaser need not be the dependency that was emitted last.  `Releasing` is what is
known of it, and its loop keeps that, for whatever is emitted on the way depends on it
(`Releases.cascading`).
-/

namespace SourceMerge.Graph

/-- The paths of the units that depend on nothing, in configured order. -/
def roots (g : Graph) : List Text := (g.units.filter (·.dependencies = [])).map (·.path)

/-- `q` may be releasing its dependents where an order ends: it stands there, and what
stands behind it depends on it, directly or through others. -/
def Releasing (B : Graph) (order : List Text) (q : Text) : Prop :=
  ∃ earlier between, order = earlier ++ q :: between ∧
    ∀ m ∈ between, Relation.TransGen B.DependsOn m q

/-- Every unit of an order that depends on something depends on one that may have been
releasing when it was emitted. -/
def Cascading (B : Graph) (order : List Text) : Prop :=
  ∀ before u after, order = before ++ u :: after → u ∉ B.roots →
    ∃ d, B.DependsOn u d ∧ Releasing B before d

variable {B : Graph} {order : List Text} {q d u : Text}

/-! ## orders -/

theorem mem_roots_iff (hB : Linked B) :
    q ∈ B.roots ↔ ∃ b, B.get? q = some b ∧ b.dependencies = [] := by
  constructor
  · intro h
    obtain ⟨b, hb, rfl⟩ := List.mem_map.mp h
    obtain ⟨hmem, hnone⟩ := List.mem_filter.mp hb
    exact ⟨b, get?_of_mem hB.nodup hmem, by simpa using hnone⟩
  · rintro ⟨b, hb, hnone⟩
    rw [← path_of_get? hb]
    exact List.mem_map_of_mem (List.mem_filter.mpr ⟨mem_units_of_get? hb, by simpa using hnone⟩)

theorem notMem_roots_of_transGen (hB : Linked B) (h : Relation.TransGen B.DependsOn u q) :
    u ∉ B.roots := by
  intro hroot
  obtain ⟨b, hb, hnone⟩ := (mem_roots_iff hB).mp hroot
  obtain ⟨d, hd, -⟩ := Relation.TransGen.head'_iff.mp h
  obtain ⟨c, hc, hmem⟩ := (dependsOn_iff hB).mp hd
  obtain rfl : b = c := Option.some.inj (hb.symm.trans hc)
  simp [hnone] at hmem

theorem releasing_concat (B : Graph) (order : List Text) (q : Text) :
    Releasing B (order ++ [q]) q :=
  ⟨order, [], rfl, by simp⟩

theorem Releasing.append (h : Releasing B order q) {l : List Text}
    (hl : ∀ m ∈ l, Relation.TransGen B.DependsOn m q) : Releasing B (order ++ l) q := by
  obtain ⟨earlier, between, rfl, hbetween⟩ := h
  refine ⟨earlier, between ++ l, by simp, fun m hm => ?_⟩
  rcases List.mem_append.mp hm with hm | hm
  · exact hbetween m hm
  · exact hl m hm

/-- An order may go on with a unit that depends on nothing or on a releasing unit. -/
theorem Cascading.concat (h : Cascading B order)
    (hu : u ∉ B.roots → ∃ d, B.DependsOn u d ∧ Releasing B order d) : Cascading B (order ++ [u]) :=
  forall_split_concat h hu

/-! ## the walk below one unit -/

/-- The paths emitted so far. -/
def Progress.emittedPaths (p : Progress) : List Text := p.emitted.map (·.path)

@[simp] theorem Progress.emittedPaths_giveUp (p : Progress) (q d : Text) :
    (p.giveUp q d).emittedPaths = p.emittedPaths := rfl

@[simp] theorem Progress.emittedPaths_emit (separator : Text) (p : Progress) (v : SourceText) :
    (p.emit separator v).emittedPaths = p.emittedPaths ++ [v.path] := by
  simp [emittedPaths, emit]

/-- Every backward edge is an edge of `B`. -/
def BackedBy (B g : Graph) : Prop := ∀ v ∈ g.units, ∀ e ∈ v.dependents, B.DependsOn e v.path

theorem BackedBy.giveUp {p : Progress} (h : BackedBy B p.graph) :
    BackedBy B (p.giveUp q d).graph :=
  Progress.forall_dependents_giveUp (R := fun v e => B.DependsOn e v) h

theorem BackedBy.emit {p : Progress} (h : BackedBy B p.graph) (separator : Text) (v : SourceText) :
    BackedBy B (p.emit separator v).graph :=
  Progress.forall_dependents_emit (R := fun v e => B.DependsOn e v) h separator v

/-- **What a unit emits while it releases its dependents** depends on it, directly or
through others, and the order goes on cascading. -/
theorem Releases.cascading {separator : Text} {p p' : Progress} (h : Releases separator p q p')
    (hback : BackedBy B p.graph) (hreleasing : Releasing B p.emittedPaths q)
    (hp : Cascading B p.emittedPaths) :
    ∃ l, p'.emittedPaths = p.emittedPaths ++ l ∧ (∀ m ∈ l, Relation.TransGen B.DependsOn m q) ∧
      Cascading B p'.emittedPaths ∧ BackedBy B p'.graph := by
  induction h with
  | done hu hnone => exact ⟨[], by simp, by simp, hp, hback⟩
  | waits hu hlast hv hwaits _ ih => exact ih hback.giveUp hreleasing hp
  | @descends p p₁ p' q d u v hu hlast hv hready hnew _ _ ihbelow ihrest =>
      have hd : B.DependsOn d q := by
        have hedge := hback u (mem_units_of_get? hu) d (List.mem_of_getLast? hlast)
        rwa [path_of_get? hu] at hedge
      have hemit : ((p.giveUp q d).emit separator v).emittedPaths = p.emittedPaths ++ [d] := by
        rw [Progress.emittedPaths_emit, Progress.emittedPaths_giveUp, path_of_get? hv]
      obtain ⟨inner, hinner, hdeps, hp₁, hback₁⟩ := ihbelow (hback.giveUp.emit separator v)
        (hemit ▸ releasing_concat B p.emittedPaths d)
        (hemit ▸ hp.concat fun _ => ⟨q, hd, hreleasing⟩)
      -- On top of `q` stands what `d` brought with it.
      have hfirst : p₁.emittedPaths = p.emittedPaths ++ d :: inner := by rw [hinner, hemit]; simp
      have hfirst_deps : ∀ m ∈ d :: inner, Relation.TransGen B.DependsOn m q :=
        List.forall_mem_cons.mpr ⟨.single hd, fun m hm => (hdeps m hm).tail hd⟩
      obtain ⟨more, hmore, hmore_deps, hp', hback'⟩ :=
        ihrest hback₁ (hfirst ▸ hreleasing.append hfirst_deps) hp₁
      refine ⟨(d :: inner) ++ more, by rw [hmore, hfirst, List.append_assoc], fun m hm => ?_, hp',
        hback'⟩
      rcases List.mem_append.mp hm with hm | hm
      · exact hfirst_deps m hm
      · exact hmore_deps m hm

/-! ## the walk over all units -/

theorem filter_mem_roots (hB : Linked B) : B.paths.filter (· ∈ B.roots) = B.roots := by
  rw [paths, List.filter_map]
  refine congrArg (List.map _) (List.filter_congr fun b hb => ?_)
  simp [mem_roots_iff hB, get?_of_mem hB.nodup hb]

section Walk

variable {separator : Text} {w w' : Front} {stack : List Text}

theorem emittedPaths_progress (hw : Front.Sound B w stack) (separator : Text) :
    (w.progress separator B).emittedPaths = w.order :=
  map_path_emittedUnits hw.units

/-- The backward edges that a front has left are some of those it began with. -/
theorem backedBy_graph (hB : Linked B) (hw : Front.Sound B w stack) : BackedBy B (w.graph B) := by
  intro v hv e he
  obtain ⟨b, hb, rfl⟩ := List.mem_map.mp hv
  have hmem : e ∈ b.dependents := (hw.left_prefix b.path b (get?_of_mem hB.nodup hb)).subset he
  obtain ⟨c, hc, rfl, hdep⟩ := (hB.dependents_iff b hb e).mp hmem
  exact ⟨c, hc, rfl, hdep⟩

theorem paths_graph (w : Front) (B : Graph) : (w.graph B).paths = B.paths := by
  simp [Front.graph, paths]

theorem closed_graph (hB : Linked B) (hw : Front.Sound B w stack) : (w.graph B).Closed := by
  intro v hv e he
  obtain ⟨c, hc, rfl, -⟩ := backedBy_graph hB hw v hv e he
  rw [paths_graph]
  exact List.mem_map_of_mem hc

/-- A visit that begins a walk emits the visited unit, and behind it only units that
depend on something. -/
theorem cascading_of_begun {b : SourceText} (hB : Linked B) (hw : Front.Sound B w [])
    (hw' : Front.Sound B w' []) (hcascading : Cascading B w.order) (hb : B.get? q = some b)
    (hdep : b.dependencies = []) (hnew : q ∉ w.order)
    (hrun : cascade separator ((w.emit q).progress separator B) [q] =
      .ok (w'.progress separator B)) :
    ∃ l, w'.order = w.order ++ q :: l ∧ (∀ m ∈ l, m ∉ B.roots) ∧ Cascading B w'.order := by
  have hsound : Front.Sound B (w.emit q) [q] :=
    Front.sound_emit hw hb hnew (by simp [Front.waiting, hdep])
  have hmem : q ∈ ((w.emit q).graph B).paths := by
    rw [paths_graph]
    exact exists_get?_iff.mp ⟨b, hb⟩
  obtain ⟨p', hrec, -⟩ := exists_releases separator ((w.emit q).progress separator B)
    (closed_graph hB hsound) hmem
  obtain rfl : p' = w'.progress separator B := by
    have hend := hrec.cascade_eq []
    rw [hrun, cascade_nil] at hend
    exact (Except.ok.inj hend).symm
  have hstart : ((w.emit q).progress separator B).emittedPaths = w.order ++ [q] :=
    emittedPaths_progress hsound separator
  have hroot : q ∈ B.roots := (mem_roots_iff hB).mpr ⟨b, hb, hdep⟩
  obtain ⟨l, hl, hdeps, hend, -⟩ := hrec.cascading (backedBy_graph hB hsound)
    (hstart ▸ releasing_concat B w.order q)
    (hstart ▸ hcascading.concat fun hnot => absurd hroot hnot)
  rw [emittedPaths_progress hw'] at hl hend
  exact ⟨l, by simpa [hstart] using hl, fun m hm => notMem_roots_of_transGen hB (hdeps m hm), hend⟩

/-- **The walk over all units** begins with the roots in their order and emits everything
else in walks below them. -/
theorem visitAll_cascading (hB : Linked B) (separator : Text) (done rest : List Text) (w : Front)
    (hpaths : B.paths = done ++ rest) (hw : Front.Sound B w []) (hquiet : Front.Quiet B w)
    (hcascading : Cascading B w.order)
    (hroots : w.order.filter (· ∈ B.roots) = done.filter (· ∈ B.roots)) :
    ∃ w' : Front, visitAll separator (w.progress separator B) rest = .ok (w'.progress separator B) ∧
      Front.Sound B w' [] ∧ Cascading B w'.order ∧ w'.order.filter (· ∈ B.roots) = B.roots := by
  induction rest generalizing done w with
  | nil =>
      rw [List.append_nil] at hpaths
      exact ⟨w, rfl, hw, hcascading, by rw [hroots, ← hpaths, filter_mem_roots hB]⟩
  | cons path rest ih =>
      obtain ⟨w₁, hstep, hw₁, hquiet₁, hvisit⟩ :=
        visitAll_cons_progress hB separator path rest hw hquiet
      rw [hstep]
      have hpaths₁ : B.paths = (done ++ [path]) ++ rest := by rw [hpaths]; simp
      cases hvisit with
      | passed hpath =>
          refine ih (done ++ [path]) w hpaths₁ hw₁ hquiet₁ hcascading ?_
          -- A root that is passed over would have been emitted before its turn.
          have hother : path ∉ B.roots := by
            intro hroot
            obtain ⟨b, hb, hdep⟩ := (mem_roots_iff hB).mp hroot
            have hearly : path ∈ done.filter (· ∈ B.roots) :=
              hroots ▸ List.mem_filter.mpr ⟨hpath b hb hdep, by simpa using hroot⟩
            have hnodup := hB.nodup
            rw [hpaths, List.nodup_append] at hnodup
            exact hnodup.2.2 path (List.mem_filter.mp hearly).1 path List.mem_cons_self rfl
          simp [hroots, List.filter_append, hother]
      | begun hb hdep hnew hpre hrun =>
          obtain ⟨l, hl, hlater, hcascading₁⟩ :=
            cascading_of_begun hB hw hw₁ hcascading hb hdep hnew hrun
          refine ih (done ++ [path]) w₁ hpaths₁ hw₁ hquiet₁ hcascading₁ ?_
          have hroot : path ∈ B.roots := (mem_roots_iff hB).mpr ⟨_, hb, hdep⟩
          have hnone : l.filter (· ∈ B.roots) = [] := by simpa using hlater
          simp [hl, hroots, List.filter_append, hroot, hnone]

end Walk

/-! ## the assembly of a built graph -/

/-- **Cascading is local.**  The units that depend on nothing are emitted in configured
order, and the first unit of all is one of them.  Any other emitted unit comes behind one
of its dependencies, and all that stands between the two depends on that dependency,
directly or through others. -/
theorem assemble_build_local (root marker separator : Text) (contents : List (Text × Text)) :
    let B := build root marker contents
    ∃ a, B.assemble separator = .ok a ∧
      (a.units.map (·.path)).filter (· ∈ B.roots) = B.roots ∧
      (∀ q ∈ (a.units.map (·.path)).head?, q ∈ B.roots) ∧
      ∀ before u after, a.units.map (·.path) = before ++ u :: after → u ∉ B.roots →
        ∃ d, B.DependsOn u d ∧ ∃ earlier between, before = earlier ++ d :: between ∧
          ∀ m ∈ between, Relation.TransGen B.DependsOn m d := by
  intro B
  have hB : Linked B := linked_build root marker contents
  obtain ⟨w, hrun, hw, hcascading, hroots⟩ := visitAll_cascading hB separator [] B.paths
    (Front.initial B) rfl (Front.sound_initial B) (Front.quiet_initial B)
    (by simp [Cascading, Front.initial]) rfl
  rw [Front.progress_initial hB separator] at hrun
  have hunits : (emittedUnits B w.order).map (·.path) = w.order := map_path_emittedUnits hw.units
  refine ⟨_, by rw [assemble, hrun]; rfl, ?_⟩
  simp only [Front.progress, hunits]
  refine ⟨hroots, fun q hq => ?_, hcascading⟩
  obtain ⟨after, hafter⟩ := List.head?_eq_some_iff.mp hq
  by_contra hnot
  obtain ⟨d, -, earlier, between, hnil, -⟩ := hcascading [] q after hafter hnot
  simp at hnil

end SourceMerge.Graph
