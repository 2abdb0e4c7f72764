import SourceMerge.Proofs.Merge.Diagnosis

/-!
# SourceMerge.Proofs.Merge.Circular

When dependencies are called circular.  A unit that was left out waits for a path, and
the path exists and is a unit itself: that is all that is looked at.  Such a unit was
left out because something that it reaches can never be emitted, and this is of one of
two kinds.

```
x → y → x          a cycle
a → b → gone       a path that is no unit
```

So `x` waits for `y` in a circle, and so it is said of `a` and `b`, where there is none.
-/

namespace SourceMerge.Graph

variable {B : Graph} {order : List Text}

/-- A path that is not grounded reaches a cycle or a path that is no unit. -/
theorem not_grounded_iff {q : Text} :
    ¬ B.Grounded q ↔ ∃ d, B.Reaches q d ∧ (B.OnCycle d ∨ d ∉ B.paths) := by
  rw [Grounded]
  push Not
  refine exists_congr fun d => and_congr_right fun _ => ?_
  by_cases hunit : d ∈ B.paths <;> simp [hunit]

/-- What a unit that is left out waits for is called circular if the path is there and a
unit. -/
theorem kind_explanation_iff {present : Text → Bool} {owner path : Text} :
    (B.explanation present owner path).kind = .circularDependency ↔
      present path = true ∧ path ∈ B.paths := by
  unfold explanation
  cases hpresent : present path with
  | false => simp
  | true => by_cases hunit : path ∈ B.paths <;> simp [hunit]

/-- The dependencies of units that an assembly calls circular: those that it left out
although they are there, and units. -/
theorem exists_circular_iff (hB : Linked B) (h : Emission B order) (separator : Text)
    (present : Text → Bool) {u d : Text} :
    (∃ x ∈ (assembled separator B order).graph.diagnose present,
        x.kind = .circularDependency ∧ x.path = d ∧ x.referencedBy = some u) ↔
      B.DependsOn u d ∧ present d = true ∧ d ∈ B.paths ∧ d ∉ order := by
  rw [diagnose_assembled hB.nodup h]
  constructor
  · rintro ⟨x, hx, hkind, rfl, howner⟩
    obtain ⟨b, hb, hx⟩ := List.mem_flatMap.mp hx
    rcases List.mem_append.mp hx with hexplained | hline
    · obtain ⟨d, hd, rfl⟩ := List.mem_map.mp hexplained
      obtain rfl : b.path = u := Option.some.inj howner
      obtain ⟨hdep, hout⟩ := List.mem_filter.mp hd
      obtain ⟨hpresent, hunit⟩ := kind_explanation_iff.mp hkind
      have hleft : d ∉ order := by simpa using hout
      exact ⟨⟨b, (List.mem_filter.mp hb).1, rfl, hdep⟩, hpresent, hunit, hleft⟩
    · rw [List.mem_singleton.mp hline] at hkind
      contradiction
  · rintro ⟨hstep, hpresent, hunit, hout⟩
    have howner : u ∉ order := fun hin => hout (h.before_of_dependsOn hB hin hstep).1
    obtain ⟨b, hb, rfl, hdep⟩ := hstep
    have hwaits : d ∈ b.dependencies.filter (· ∉ order) :=
      List.mem_filter.mpr ⟨hdep, by simpa using hout⟩
    refine ⟨B.explanation present b.path d, ?_, kind_explanation_iff.mpr ⟨hpresent, hunit⟩, rfl, rfl⟩
    refine List.mem_flatMap.mpr ⟨b, List.mem_filter.mpr ⟨hb, by simpa using howner⟩, ?_⟩
    exact List.mem_append_left _ (List.mem_map_of_mem hwaits)

/-- **What is called circular.**  Where all units are there, the dependencies that an
assembly calls circular are exactly those that are units and reach a cycle or a path that
is no unit.  So they reach a cycle if everything that is depended on is a unit. -/
theorem assemble_build_circular (root marker separator : Text) (contents : List (Text × Text))
    (present : Text → Bool) (hpresent : ∀ q ∈ (build root marker contents).paths, present q = true) :
    let B := build root marker contents
    ∃ a, B.assemble separator = .ok a ∧ ∀ u d,
      (∃ x ∈ a.graph.diagnose present,
          x.kind = .circularDependency ∧ x.path = d ∧ x.referencedBy = some u) ↔
        B.DependsOn u d ∧ d ∈ B.paths ∧ ∃ e, B.Reaches d e ∧ (B.OnCycle e ∨ e ∉ B.paths) := by
  intro B
  have hB : Linked B := linked_build root marker contents
  obtain ⟨order, horder, ha⟩ := assemble_eq_assembled hB separator
  refine ⟨_, ha, fun u d => ?_⟩
  rw [exists_circular_iff hB horder, ← not_grounded_iff, horder.mem_iff_grounded hB]
  constructor
  · rintro ⟨hstep, -, hunit, hout⟩
    exact ⟨hstep, hunit, hout⟩
  · rintro ⟨hstep, hunit, hout⟩
    exact ⟨hstep, hpresent d hunit, hunit, hout⟩

/-! ## units that wait -/

/-- What each unit depends on. -/
def dependencyRows (g : Graph) : List (Text × List Text) :=
  g.units.map fun u => (u.path, u.dependencies)

theorem paths_eq_rows (g : Graph) : g.paths = g.dependencyRows.map (·.1) := by
  simp [paths, dependencyRows]

theorem dependsOn_iff_rows {g : Graph} {q d : Text} :
    g.DependsOn q d ↔ ∃ row ∈ g.dependencyRows, row.1 = q ∧ d ∈ row.2 := by
  simp [DependsOn, dependencyRows]

/-- Two units that wait for each other, one that waits for them, and one that waits for
a unit which waits for a file that is not there. -/
def waitingSources : List (Text × Text) :=
  [("x", "dependsOn(\"y\");x"), ("y", "dependsOn(\"x\");y"), ("z", "dependsOn(\"x\");z"),
    ("a", "dependsOn(\"b\");a"), ("b", "dependsOn(\"gone\");b")]

def waitingGraph : Graph := build "." "dependsOn" waitingSources

def waitingRows : List (Text × List Text) :=
  [("x", ["y"]), ("y", ["x"]), ("z", ["x"]), ("a", ["b"]), ("b", ["gone"])]

theorem rows_waitingGraph : waitingGraph.dependencyRows = waitingRows := by decide +kernel

theorem paths_waitingGraph : waitingGraph.paths = ["x", "y", "z", "a", "b"] := by
  rw [paths_eq_rows, rows_waitingGraph]
  rfl

theorem dependsOn_waitingGraph {q d : Text} :
    waitingGraph.DependsOn q d ↔ ∃ row ∈ waitingRows, row.1 = q ∧ d ∈ row.2 := by
  rw [dependsOn_iff_rows, rows_waitingGraph]

/-- All units are there. -/
def waitingFiles (q : Text) : Bool := q ∈ waitingGraph.paths

/-- The file that `b` waits for is no unit. -/
theorem reaches_gone :
    ∃ e, waitingGraph.Reaches "b" e ∧ (waitingGraph.OnCycle e ∨ e ∉ waitingGraph.paths) := by
  have hstep : waitingGraph.DependsOn "b" "gone" := dependsOn_waitingGraph.mpr (by decide)
  exact ⟨"gone", .single hstep, .inr (by rw [paths_waitingGraph]; decide)⟩

/-- Nothing that `b` reaches lies on a cycle: it leads to `gone`, and that leads nowhere. -/
theorem not_onCycle_of_reaches {e : Text} (h : waitingGraph.Reaches "b" e) :
    ¬ waitingGraph.OnCycle e := by
  have hgone : ∀ d, ¬ waitingGraph.DependsOn "gone" d := fun d hd => by
    obtain ⟨row, hrow, hkey, -⟩ := dependsOn_waitingGraph.mp hd
    exact absurd hkey ((by decide : ∀ row ∈ waitingRows, row.1 ≠ "gone".toList) row hrow)
  have hb : ∀ d, waitingGraph.DependsOn "b" d → d = "gone" := fun d hd => by
    obtain ⟨row, hrow, hkey, hd⟩ := dependsOn_waitingGraph.mp hd
    have honly : ∀ row ∈ waitingRows, row.1 = "b".toList → row.2 = ["gone".toList] := by decide
    rwa [honly row hrow hkey, List.mem_singleton] at hd
  have hend : ∀ e, waitingGraph.Reaches "gone" e → e = "gone" := fun e hreaches => by
    rcases hreaches.cases_head with heq | ⟨d, hstep, -⟩
    · exact heq.symm
    · exact absurd hstep (hgone d)
  intro hcycle
  obtain ⟨d, hstep, hback⟩ := Relation.TransGen.head'_iff.mp hcycle
  rcases h.cases_head with rfl | ⟨c, hfirst, hrest⟩
  · obtain rfl := hb d hstep
    exact absurd (hend _ hback) (by decide)
  · obtain rfl := hb c hfirst
    obtain rfl := hend e hrest
    exact hgone d hstep

/-- Of the three dependencies only the first two belong to a cycle. -/
theorem assemble_build_circular_waiting :
    (∀ q ∈ waitingGraph.paths, waitingFiles q = true) ∧
      ∃ a, waitingGraph.assemble "\n" = .ok a ∧
        ∀ e ∈ ([("z", "x"), ("x", "y"), ("a", "b")] : List (Text × Text)),
          ∃ x ∈ a.graph.diagnose waitingFiles,
            x.kind = .circularDependency ∧ x.path = e.2 ∧ x.referencedBy = some e.1 := by
  have hpresent : ∀ q ∈ waitingGraph.paths, waitingFiles q = true := fun q hq => decide_eq_true hq
  obtain ⟨a, ha, hcircular⟩ :=
    assemble_build_circular "." "dependsOn" "\n" waitingSources waitingFiles hpresent
  have hxy : waitingGraph.DependsOn "x" "y" := dependsOn_waitingGraph.mpr (by decide)
  have hyx : waitingGraph.DependsOn "y" "x" := dependsOn_waitingGraph.mpr (by decide)
  have hunits : ∀ q ∈ (["x", "y", "b"] : List Text), q ∈ waitingGraph.paths := by
    rw [paths_waitingGraph]
    decide
  refine ⟨hpresent, a, ha, ?_⟩
  simp only [List.forall_mem_cons, List.not_mem_nil, false_implies, implies_true, and_true]
  refine ⟨(hcircular _ _).mpr ⟨dependsOn_waitingGraph.mpr (by decide), hunits _ (by simp), ?_⟩,
    (hcircular _ _).mpr ⟨hxy, hunits _ (by simp), ?_⟩,
    (hcircular _ _).mpr ⟨dependsOn_waitingGraph.mpr (by decide), hunits _ (by simp), reaches_gone⟩⟩
  · exact ⟨"x", .refl, .inl (.tail (.single hxy) hyx)⟩
  · exact ⟨"y", .refl, .inl (.tail (.single hyx) hxy)⟩

/-- So a dependency can be called circular although it leads to no cycle. -/
theorem assemble_build_circular_acyclic :
    ¬ ∀ (root marker separator : Text) (contents : List (Text × Text)) (present : Text → Bool),
      let B := build root marker contents
      (∀ q ∈ B.paths, present q = true) → ∀ a, B.assemble separator = .ok a →
        ∀ x ∈ a.graph.diagnose present, x.kind = .circularDependency →
          ∃ e, B.Reaches x.path e ∧ B.OnCycle e := by
  intro hall
  have hB : Linked waitingGraph := linked_build "." "dependsOn" waitingSources
  obtain ⟨order, horder, ha⟩ := assemble_eq_assembled hB "\n"
  have hpresent : ∀ q ∈ waitingGraph.paths, waitingFiles q = true := fun q hq => decide_eq_true hq
  have hunit : ("b" : Text) ∈ waitingGraph.paths := by
    rw [paths_waitingGraph]
    decide
  have hout : ("b" : Text) ∉ order := by
    rw [horder.mem_iff_grounded hB, not_grounded_iff]
    exact reaches_gone
  obtain ⟨x, hx, hkind, hpath, -⟩ :=
    (exists_circular_iff (u := "a") (d := "b") hB horder "\n" waitingFiles).mpr
      ⟨dependsOn_waitingGraph.mpr (by decide), hpresent _ hunit, hunit, hout⟩
  obtain ⟨e, hreaches, hcycle⟩ :=
    hall "." "dependsOn" "\n" waitingSources waitingFiles hpresent _ ha x hx hkind
  rw [hpath] at hreaches
  exact not_onCycle_of_reaches hreaches hcycle

end SourceMerge.Graph
