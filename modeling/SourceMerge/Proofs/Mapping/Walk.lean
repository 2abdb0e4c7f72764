import Mathlib.Data.List.TakeWhile
import SourceMerge.Mapping.Recorder
import SourceMerge.Proofs.Table

/-!
# SourceMerge.Proofs.Mapping.Walk

Recording a unit whose source brought a map along.  The recorder goes along the lines
of the unit, and along the segments of the map on the line of the source where each of
them began.  This is one walk (`visits`), which ends at the first segment that counts
back beyond the first source; `addUnit_of_map` is that walk in closed form.
-/

namespace SourceMerge.Mapping.Recorder

/-! ## what a segment makes -/

/-- The entry that a segment makes on a line which begins at `generated` in the
output and began at `origin` in the source. -/
def entriesAt (map : InheritedMap) (generated origin : Position) (s : Segment) : List Entry :=
  if s.column < origin.column ∨ (map.sources.length : Int) ≤ s.source then []
  else
    [{ generated := ⟨generated.line, generated.column + s.column - origin.column⟩
       source := (itemAt? map.sources s.source).getD []
       shown := ⟨s.sourceLine + 1, s.sourceColumn⟩ }]

theorem exists_itemAt? {α : Type} {l : List α} {index : Int} (hlow : -(l.length : Int) ≤ index)
    (hhigh : index < l.length) : ∃ a, itemAt? l index = some a := by
  unfold itemAt?
  by_cases hpos : 0 ≤ index
  · rw [if_pos hpos]
    exact ⟨_, List.getElem?_eq_getElem (by omega)⟩
  · rw [if_neg hpos, if_pos hlow]
    exact ⟨_, List.getElem?_eq_getElem (by omega)⟩

/-! ## one walk along the segments -/

/-- A segment of a map, on a line of a unit. -/
structure Visit where
  /-- Where the line begins in the output. -/
  generated : Position
  /-- Where the line began in the source. -/
  origin : Position
  segment : Segment

/-- The segments of a map that are gone through when the lines of a unit are
recorded. -/
def visits (map : InheritedMap) (places : List (Position × Position)) : List Visit :=
  places.flatMap fun q => (map.segmentsFor q.2.line).map (Visit.mk q.1 q.2)

namespace Visit

/-- The segment does not stand before the beginning of its line. -/
def OnLine (v : Visit) : Prop := v.origin.column ≤ v.segment.column

instance (v : Visit) : Decidable v.OnLine := inferInstanceAs (Decidable (_ ≤ _))

/-- The segment is looked at, and counts back beyond the first source. -/
def Fails (map : InheritedMap) (v : Visit) : Prop :=
  v.OnLine ∧ v.segment.source < -(map.sources.length : Int)

instance (map : InheritedMap) (v : Visit) : Decidable (v.Fails map) :=
  inferInstanceAs (Decidable (_ ∧ _))

/-- The segment is looked at, and its index is not on the right of the sources. -/
def Counts (map : InheritedMap) (v : Visit) : Prop :=
  v.OnLine ∧ v.segment.source < map.sources.length

instance (map : InheritedMap) (v : Visit) : Decidable (v.Counts map) :=
  inferInstanceAs (Decidable (_ ∧ _))

/-- Records the segment. -/
def record (map : InheritedMap) (r : Recorder) (v : Visit) : Except RecordFault Recorder :=
  composeSegment map v.generated v.origin r v.segment

/-- What the segment adds. -/
def entries (map : InheritedMap) (v : Visit) : List Entry :=
  entriesAt map v.generated v.origin v.segment

/-- **Recording a segment**: either it counts back beyond the first source, or it adds
its entry, and what the sources hold is kept. -/
theorem record_eq {map : InheritedMap} (hcontents : map.sources.length ≤ map.contents.length)
    (r : Recorder) (v : Visit) :
    (v.Fails map ∧ Visit.record map r v = .error .sourceOutOfRange) ∨
      ¬ v.Fails map ∧ ∃ contents, Table.Within r.contents contents ∧ Visit.record map r v =
        .ok { r with entries := r.entries ++ v.entries map, contents := contents } := by
  unfold record composeSegment entries entriesAt
  by_cases hskip : v.segment.column < v.origin.column ∨
      (map.sources.length : Int) ≤ v.segment.source
  · refine .inr ⟨fun hfails => ?_, r.contents, .refl _, ?_⟩
    · have hline : v.origin.column ≤ v.segment.column := hfails.1
      have hbeyond := hfails.2
      omega
    · rw [if_pos hskip, if_pos hskip, List.append_nil]
  rw [if_neg hskip, if_neg hskip]
  have hline : v.OnLine := Int.not_lt.mp fun h => hskip (.inl h)
  by_cases hbeyond : v.segment.source < -(map.sources.length : Int)
  · refine .inl ⟨⟨hline, hbeyond⟩, ?_⟩
    have hnone : itemAt? map.sources v.segment.source = none := by
      rw [itemAt?, if_neg (by omega), if_neg (by omega)]
    rw [hnone]
  · obtain ⟨source, hsource⟩ : ∃ a, itemAt? map.sources v.segment.source = some a :=
      exists_itemAt? (by omega) (by omega)
    obtain ⟨content, hcontent⟩ : ∃ a, itemAt? map.contents v.segment.source = some a :=
      exists_itemAt? (by omega) (by omega)
    refine .inr ⟨fun hfails => hbeyond hfails.2, ?_⟩
    rw [hsource, hcontent]
    refine ⟨_, ?_, rfl⟩
    split
    · exact .refl _
    · exact Table.within_insertIfNew _ _ _

end Visit

theorem advance_map {α β : Type} (f : Recorder → β → Except RecordFault Recorder) (g : α → β)
    (r : Recorder) (l : List α) : advance f r (l.map g) = advance (fun r a => f r (g a)) r l := by
  induction l generalizing r with
  | nil => rfl
  | cons a l ih =>
      rw [List.map_cons, advance, advance]
      cases f r (g a) with
      | ok next => exact ih next
      | error fault => rfl

theorem advance_append {α : Type} (f : Recorder → α → Except RecordFault Recorder) (r : Recorder)
    (l k : List α) :
    advance f r (l ++ k) =
      match advance f r l with
      | (r, none) => advance f r k
      | (r, some fault) => (r, some fault) := by
  induction l generalizing r with
  | nil => rfl
  | cons a l ih =>
      rw [List.cons_append, advance, advance]
      cases f r a with
      | ok next => exact ih next
      | error fault => rfl

/-- **A walk in closed form**: it adds the entries of the segments before the first
fault. -/
theorem advance_record {map : InheritedMap} (hcontents : map.sources.length ≤ map.contents.length)
    (r : Recorder) (vs : List Visit) :
    ∃ contents, Table.Within r.contents contents ∧ advance (Visit.record map) r vs =
      ({ r with
        entries := r.entries ++ (vs.takeWhile (¬ ·.Fails map)).flatMap (·.entries map)
        contents := contents },
        if ∃ v ∈ vs, v.Fails map then some .sourceOutOfRange else none) := by
  induction vs generalizing r with
  | nil => exact ⟨r.contents, .refl _, by simp [advance]⟩
  | cons v vs ih =>
      cases Visit.record_eq hcontents r v with
      | inl hfault =>
          obtain ⟨hfails, hstep⟩ := hfault
          exact ⟨r.contents, .refl _, by simp [advance, hstep, hfails]⟩
      | inr hadded =>
          obtain ⟨hfine, contents, hkept, hstep⟩ := hadded
          obtain ⟨contents', hkept', hrest⟩ := ih { r with
            entries := r.entries ++ v.entries map, contents := contents }
          refine ⟨contents', hkept.trans hkept', ?_⟩
          rw [advance, hstep]
          simp [hrest, hfine]

/-- Recording the lines of a unit is one walk. -/
theorem addLines_eq_advance {map : InheritedMap}
    (hcontents : map.sources.length ≤ map.contents.length) {u : SourceText}
    (places : List (Position × Position)) {r : Recorder}
    (hr : Table.get? r.inherited u.path = some map) :
    addLines r u places = advance (Visit.record map) r (visits map places) := by
  induction places generalizing r with
  | nil => rfl
  | cons place places ih =>
      obtain ⟨generated, origin⟩ := place
      have hline : advance (composeSegment map generated origin) r (map.segmentsFor origin.line) =
          advance (Visit.record map) r
            ((map.segmentsFor origin.line).map (Visit.mk generated origin)) :=
        (advance_map (Visit.record map) (Visit.mk generated origin) r _).symm
      obtain ⟨contents, -, hwalk⟩ := advance_record hcontents r
        ((map.segmentsFor origin.line).map (Visit.mk generated origin))
      rw [addLines, hr, visits, List.flatMap_cons, advance_append]
      simp only [hline, hwalk]
      split_ifs with hfault
      · rfl
      · exact ih hr

/-- **Recording a unit in closed form**, for any inherited map.  At a fault the cursor
stays. -/
theorem addUnit_of_map {map : InheritedMap}
    (hcontents : map.sources.length ≤ map.contents.length) {u : SourceText} {r : Recorder}
    (hr : Table.get? r.inherited u.path = some map) :
    ∃ contents, Table.Within r.contents contents ∧ r.addUnit u =
      ({ r with
        entries := r.entries ++
          ((visits map (linePlaces r.cursor u)).takeWhile (¬ ·.Fails map)).flatMap (·.entries map)
        contents := contents
        cursor := if ∃ v ∈ visits map (linePlaces r.cursor u), v.Fails map then r.cursor
          else r.cursor.after u.content },
        if ∃ v ∈ visits map (linePlaces r.cursor u), v.Fails map then some .sourceOutOfRange
        else none) := by
  obtain ⟨contents, hkept, hwalk⟩ := advance_record hcontents r (visits map (linePlaces r.cursor u))
  refine ⟨contents, hkept, ?_⟩
  rw [addUnit, addLines_eq_advance hcontents _ hr, hwalk]
  split_ifs <;> rfl

end SourceMerge.Mapping.Recorder
