import SourceMerge.Proofs.Mapping.Compose
import SourceMerge.Proofs.Mapping.Ignored

/-!
# SourceMerge.Proofs.Mapping.Attribution

Which source an inherited segment names, for any map that was accepted, whatever
numbers its mappings hold.  Of `n` sources, an index finds one as follows:

```
index    ... -n-1  |  -n  ...  -1   |   0  ...  n-1    |  n ...
          fault    |  from the end  |  from the front  |  passed over
```

Only an index on the right is passed over; one on the left is taken as counted from
the end, and ends the program if it counts beyond the first source.  A segment that
stands before the beginning of its line is passed over without looking at its index.
-/

namespace SourceMerge

namespace Mapping

/-! ## maps that were accepted -/

section Run

variable {σ : Type} [FileStore (StateM σ)] [Journal (StateM σ)]

/-- The map that a file gets was read from a text. -/
theorem exists_ofText_of_inherit {content file cleaned : Text} {map : InheritedMap} {s s' : σ}
    (h : runAt (inherit content file) s = (.ok (cleaned, some map), s')) :
    ∃ base t, InheritedMap.ofText base t = .ok map := by
  cases href : findReference? content with
  | none =>
      rw [inherit, href] at h
      cases h
  | some reference =>
      obtain ⟨name, left⟩ := reference
      obtain ⟨found, s₁, hfetch⟩ : ∃ found s₁,
          StateT.run ((locate file name).fetch : StateM σ _) s = (found, s₁) := ⟨_, _, rfl⟩
      rw [runAt_inherit_reference href hfetch] at h
      split at h
      · next accepted hmap =>
        obtain ⟨t, -, ht⟩ := bind_eq_ok.mp hmap
        obtain ⟨-, rfl⟩ : left = cleaned ∧ accepted = map := by simpa using congrArg Prod.fst h
        exact ⟨_, t, ht⟩
      · cases h
      · cases h

end Run

/-- A finished map that is stored where a file looks for its map is the map of that
file. -/
theorem runAt_inherit_stored {content file name cleaned path : Text}
    (href : findReference? content = some (name, cleaned)) (hlocate : locate file name = .file path)
    {w : MemoryWorld} {d : Document} (hread : w.memory.read path = .ok d.serialized)
    {contents : List Data} (hcontents : d.contents = some contents)
    (hlength : contents.length = d.sources.length) (hkept : ∀ c ∈ contents, Json.Kept c)
    (hnames : ∀ line ∈ d.lines, ∀ s ∈ line, s.name = none) :
    ∃ w', runAt (inherit content file) w =
      (.ok (cleaned, some
        ⟨d.sources.map fun s => Path.canonical (Path.join (Path.join (Path.directory path) []) s),
          contents, if d.lines = [] then [[]] else d.lines⟩), w') := by
  have hfetch : StateT.run ((locate file name).fetch : StateM MemoryWorld _) w =
      (.ok d.serialized, w) := by
    rw [hlocate]
    change ((w.memory.read path).mapError InheritedFault.unreadable, w) = _
    rw [hread]
    rfl
  have hmap := InheritedMap.ofText_serialized (Path.directory path) hcontents hlength hkept hnames
  have hrun := runAt_inherit_reference href hfetch
  rw [hlocate] at hrun
  simp only [Location.base, Except.bind, hmap] at hrun
  exact ⟨_, hrun⟩

namespace Recorder

/-! ## what an index names -/

/-- The entry of a segment: the place moves with the line, and the source is counted
from the front or, if the index is negative, from the end. -/
structure Visit.Makes (map : InheritedMap) (v : Visit) (e : Entry) : Prop where
  generated : e.generated =
    ⟨v.generated.line, v.generated.column + v.segment.column - v.origin.column⟩
  shown : e.shown = ⟨v.segment.sourceLine + 1, v.segment.sourceColumn⟩
  front : 0 ≤ v.segment.source → map.sources[v.segment.source.toNat]? = some e.source
  back : v.segment.source < 0 →
    map.sources[(map.sources.length + v.segment.source).toNat]? = some e.source

theorem Visit.entries_of_counts {map : InheritedMap} {v : Visit} (hcounts : v.Counts map)
    (hfine : ¬ v.Fails map) : ∃ e, v.entries map = [e] ∧ v.Makes map e := by
  obtain ⟨hline, hindex⟩ := hcounts
  have hlow : -(map.sources.length : Int) ≤ v.segment.source :=
    Int.not_lt.mp fun h => hfine ⟨hline, h⟩
  obtain ⟨source, hsource⟩ := exists_itemAt? hlow hindex
  have hseen : ¬ (v.segment.column < v.origin.column ∨
      (map.sources.length : Int) ≤ v.segment.source) :=
    not_or.mpr ⟨Int.not_lt.mpr hline, Int.not_le.mpr hindex⟩
  refine ⟨_, if_neg hseen, rfl, rfl, fun hfront => ?_, fun hback => ?_⟩
  · rw [hsource, Option.getD_some, ← hsource, itemAt?, if_pos hfront]
  · rw [hsource, Option.getD_some, ← hsource, itemAt?, if_neg (Int.not_le.mpr hback), if_pos hlow]

theorem Visit.entries_of_not_counts {map : InheritedMap} {v : Visit} (h : ¬ v.Counts map) :
    v.entries map = [] := by
  refine if_pos ?_
  by_cases hline : v.OnLine
  · exact .inr (Int.not_lt.mp fun hindex => h ⟨hline, hindex⟩)
  · exact .inl (Int.not_le.mp hline)

/-- The entries of a walk without a fault, one for each segment that counts. -/
theorem forall₂_makes {map : InheritedMap} {vs : List Visit} (h : ∀ v ∈ vs, ¬ v.Fails map) :
    List.Forall₂ (Visit.Makes map) (vs.filter (·.Counts map)) (vs.flatMap (·.entries map)) := by
  induction vs with
  | nil => exact .nil
  | cons v vs ih =>
      rw [List.forall_mem_cons] at h
      rw [List.flatMap_cons]
      by_cases hcounts : v.Counts map
      · obtain ⟨e, hentries, hmakes⟩ := Visit.entries_of_counts hcounts h.1
        rw [List.filter_cons_of_pos (by simpa using hcounts), hentries]
        exact .cons hmakes (ih h.2)
      · rw [List.filter_cons_of_neg (by simpa using hcounts), Visit.entries_of_not_counts hcounts]
        exact ih h.2

section Run

variable {σ : Type} [FileStore (StateM σ)] [Journal (StateM σ)]

/-- **Which source an entry names.**  Recording a unit of a file whose map was accepted
goes along the segments on the lines of the unit.  It ends with a fault exactly if one
of them counts back beyond the first source, and adds an entry for every segment in
front of the first such one that stands on its line and whose index is below the number
of sources: negative indices count from the end.  So if no index is negative, there is
no fault, and the entries are those of the indices of sources, each naming its source. -/
theorem addUnit_attributes {u : SourceText} {content cleaned : Text} {map : InheritedMap} {s s' : σ}
    (haccepted : runAt (inherit content u.path) s = (.ok (cleaned, some map), s')) {r : Recorder}
    (hr : Table.get? r.inherited u.path = some map) :
    ∃ (gone : List Visit) (added : List Entry),
      gone = visits map (linePlaces r.cursor u) ∧
      (r.addUnit u).1.entries = r.entries ++ added ∧
      ((r.addUnit u).2 = none ↔ ∀ v ∈ gone, ¬ v.Fails map) ∧
      List.Forall₂ (Visit.Makes map)
        ((gone.takeWhile (¬ ·.Fails map)).filter (·.Counts map)) added ∧
      ((∀ v ∈ gone, 0 ≤ v.segment.source) → (r.addUnit u).2 = none ∧
        List.Forall₂ (Visit.Makes map) (gone.filter (·.Counts map)) added) := by
  obtain ⟨base, t, hread⟩ := exists_ofText_of_inherit haccepted
  obtain ⟨contents, -, hadd⟩ := addUnit_of_map (InheritedMap.length_sources_le hread) hr
  have hfault : (r.addUnit u).2 = none ↔
      ∀ v ∈ visits map (linePlaces r.cursor u), ¬ v.Fails map := by
    rw [hadd]
    simp only
    split_ifs with hfails
    · simpa using hfails
    · simpa using hfails
  have hbefore : ∀ v ∈ (visits map (linePlaces r.cursor u)).takeWhile (¬ ·.Fails map),
      ¬ v.Fails map := fun v hv => by simpa using List.mem_takeWhile_imp hv
  have hmakes := forall₂_makes hbefore
  refine ⟨_, _, rfl, by rw [hadd], hfault, hmakes, fun hfront => ?_⟩
  have hfine : ∀ v ∈ visits map (linePlaces r.cursor u), ¬ v.Fails map := by
    intro v hv hfails
    have hindex := hfront v hv
    have hbeyond := hfails.2
    omega
  rw [List.takeWhile_eq_self_iff.mpr (by simpa using hfine)] at hmakes ⊢
  exact ⟨hfault.mpr hfine, hmakes⟩

end Run

/-! ## indices outside of the sources -/

/-- A map of one line, whose segments have the given indices, one a column. -/
def strayMap (sources : List Text) (indices : List Int) : Document :=
  { file := "min.js"
    sources := sources
    contents := some (sources.map fun _ => .null)
    lines := [indices.mapIdx fun i index => ⟨i, index, 0, i, none⟩] }

/-- A file that names its map, and what is left of it. -/
def strayText : Text := "abcd\n//# sourceMappingURL=min.js.map\n"

theorem findReference?_strayText :
    findReference? strayText = some ("min.js.map".toList, "abcd\n".toList) := by decide +kernel

/-- The files of a merge, among them a map where that file looks for it. -/
def strayWorld (d : Document) : MemoryWorld :=
  { memory := { files := [("min.js.map", d.serialized)] } }

/-- The map of that file is accepted. -/
theorem runAt_inherit_stray {sources : List Text} {indices : List Int} :
    ∃ w', runAt (inherit strayText "min.js") (strayWorld (strayMap sources indices)) =
      (.ok ("abcd\n", some
        ⟨sources.map fun s =>
            Path.canonical (Path.join (Path.join (Path.directory "min.js.map") []) s),
          sources.map fun _ => .null, (strayMap sources indices).lines⟩), w') := by
  have hkept : ∀ c ∈ sources.map fun _ => Data.null, Json.Kept c := by
    intro c hc
    obtain ⟨s, -, rfl⟩ := List.mem_map.mp hc
    exact .null
  have hnames : ∀ line ∈ (strayMap sources indices).lines, ∀ s ∈ line, s.name = none := by
    intro line hline s hs
    obtain rfl := List.mem_singleton.mp hline
    obtain ⟨i, hi, rfl⟩ := List.mem_mapIdx.mp hs
    rfl
  exact runAt_inherit_stored findReference?_strayText rfl rfl rfl (List.length_map _) hkept hnames

/-- The unit of that file. -/
def strayUnit : SourceText :=
  { path := "min.js", raw := "abcd\n", content := "abcd\n", origins := [⟨1, 0⟩, ⟨2, 0⟩] }

/-- A recorder that has registered the file. -/
def strayRecorder (map : InheritedMap) : Recorder :=
  (Recorder.start "out.js" .embed none).remember "min.js" "abcd\n" (some map)

/-- With two sources, the index 2 is passed over, -1 and 0 name the last and the first
one, and -3 ends the recording. -/
theorem addUnit_attributes_stray :
    let map : InheritedMap := ⟨["one.js", "two.js"], [.null, .null],
      (strayMap ["one.js", "two.js"] [2, -1, 0, -3]).lines⟩
    (∃ w, runAt (inherit strayText strayUnit.path)
        (strayWorld (strayMap ["one.js", "two.js"] [2, -1, 0, -3])) =
          (.ok ("abcd\n", some map), w)) ∧
      Table.get? (strayRecorder map).inherited strayUnit.path = some map ∧
      ((strayRecorder map).addUnit strayUnit).2 ≠ none ∧
      List.Forall₂ (Visit.Makes map)
        [⟨⟨1, 0⟩, ⟨1, 0⟩, ⟨1, -1, 0, 1, none⟩⟩, ⟨⟨1, 0⟩, ⟨1, 0⟩, ⟨2, 0, 0, 2, none⟩⟩]
        ((strayRecorder map).addUnit strayUnit).1.entries := by
  intro map
  obtain ⟨w, hrun⟩ : ∃ w, runAt (inherit strayText strayUnit.path)
      (strayWorld (strayMap ["one.js", "two.js"] [2, -1, 0, -3])) = (.ok ("abcd\n", some map), w) :=
    runAt_inherit_stray
  have hr : Table.get? (strayRecorder map).inherited strayUnit.path = some map := rfl
  obtain ⟨gone, added, rfl, hentries, hfault, hmakes, -⟩ :=
    addUnit_attributes hrun hr
  refine ⟨⟨w, hrun⟩, hr, ?_, ?_⟩
  · rw [Ne, hfault]
    decide
  · rw [hentries]
    exact hmakes

/-- **A negative index is not passed over.**  With two sources, -1 names the last one;
without any, it ends the recording. -/
theorem addUnit_counts_back :
    let two : InheritedMap := ⟨["one.js", "two.js"], [.null, .null],
      (strayMap ["one.js", "two.js"] [-1]).lines⟩
    let bare : InheritedMap := ⟨[], [], (strayMap [] [-1]).lines⟩
    (∃ w, runAt (inherit strayText "min.js") (strayWorld (strayMap ["one.js", "two.js"] [-1])) =
        (.ok ("abcd\n", some two), w)) ∧
      ((strayRecorder two).addUnit strayUnit).1.entries = [⟨⟨1, 0⟩, "two.js", ⟨1, 0⟩⟩] ∧
      (∃ w, runAt (inherit strayText "min.js") (strayWorld (strayMap [] [-1])) =
        (.ok ("abcd\n", some bare), w)) ∧
      ((strayRecorder bare).addUnit strayUnit).2 = some .sourceOutOfRange :=
  ⟨runAt_inherit_stray, rfl, runAt_inherit_stray, rfl⟩

end Recorder

end Mapping

end SourceMerge
