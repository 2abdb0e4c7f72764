import SourceMerge.Merge
import SourceMerge.Proofs.Text.Place
import SourceMerge.Proofs.Text.Split

/-!
# SourceMerge.Proofs.Mapping.Recording

What recording an output does to a recorder.  Whatever is recorded, the output
and the place of its map stay what they were (`SameMap`).

Where no source brought a map along, recording is a function of the units and of
the place where the first one begins (`unitEntries`).  An entry belongs to a
character with which a line of a unit begins: what is written before that
character says where it stands in the output, and the line feeds before it in
the unit say which of the unit's origins it has (`mem_unitEntries`).
-/

namespace SourceMerge.Mapping.Recorder

/-! ## what recording leaves alone -/

/-- Two recorders of one map. -/
structure SameMap (r r' : Recorder) : Prop where
  dest : r'.dest = r.dest
  delivery : r'.delivery = r.delivery
  mapPath : r'.mapPath = r.mapPath

theorem SameMap.refl (r : Recorder) : SameMap r r := ⟨rfl, rfl, rfl⟩

theorem SameMap.trans {r s t : Recorder} (h : SameMap r s) (h' : SameMap s t) : SameMap r t :=
  ⟨h'.dest.trans h.dest, h'.delivery.trans h.delivery, h'.mapPath.trans h.mapPath⟩

theorem sameMap_add (r : Recorder) (t : Text) : SameMap r (r.add t) := ⟨rfl, rfl, rfl⟩

theorem sameMap_composeSegment {map : InheritedMap} {generated origin : Position}
    {r r' : Recorder} {s : Segment} (h : composeSegment map generated origin r s = .ok r') :
    SameMap r r' := by
  unfold composeSegment at h
  split at h
  · rw [← Except.ok.inj h]
    exact .refl r
  · split at h
    · rw [← Except.ok.inj h]
      exact ⟨rfl, rfl, rfl⟩
    · contradiction

theorem sameMap_advance {α : Type} {f : Recorder → α → Except RecordFault Recorder}
    (hf : ∀ r a r', f r a = .ok r' → SameMap r r') (r : Recorder) (l : List α) :
    SameMap r (advance f r l).1 := by
  induction l generalizing r with
  | nil => exact .refl r
  | cons a rest ih =>
      rw [advance]
      cases hstep : f r a with
      | ok next => exact (hf r a next hstep).trans (ih next)
      | error fault => exact .refl r

theorem sameMap_addLines (r : Recorder) (u : SourceText) (places : List (Position × Position)) :
    SameMap r (addLines r u places).1 := by
  induction places generalizing r with
  | nil => exact .refl r
  | cons place rest ih =>
      obtain ⟨generated, origin⟩ := place
      rw [addLines]
      cases Table.get? r.inherited u.path with
      | none =>
          have hrest := ih { r with entries := r.entries ++ [⟨generated, u.path, origin⟩] }
          exact ⟨hrest.dest, hrest.delivery, hrest.mapPath⟩
      | some map =>
          have hline := sameMap_advance (f := composeSegment map generated origin)
            (fun _ _ _ => sameMap_composeSegment) r (map.segmentsFor origin.line)
          simp only
          split
          · next next heq =>
            rw [heq] at hline
            exact hline.trans (ih next)
          · next next fault heq =>
            rw [heq] at hline
            exact hline

theorem sameMap_addUnit (r : Recorder) (u : SourceText) : SameMap r (r.addUnit u).1 := by
  have hlines := sameMap_addLines r u (linePlaces r.cursor u)
  unfold addUnit
  split
  · next next heq =>
    rw [heq] at hlines
    exact hlines.trans (sameMap_add _ _)
  · exact hlines

theorem sameMap_recordUnits {separator : Text} {r r' : Recorder} {first : Bool}
    {units : List SourceText} (h : Merge.recordUnits separator r first units = .ok r') :
    SameMap r r' := by
  induction units generalizing r first with
  | nil => exact Except.ok.inj h ▸ .refl r
  | cons u rest ih =>
      rw [Merge.recordUnits] at h
      have hstart : SameMap r (if first then r else r.add separator) := by
        split
        · exact .refl r
        · exact sameMap_add r separator
      have hunit := sameMap_addUnit (if first then r else r.add separator) u
      split at h
      · next next heq =>
        rw [heq] at hunit
        exact (hstart.trans hunit).trans (ih h)
      · contradiction

theorem sameMap_recordOutput {o : Options} {banner footer : Text} {units : List SourceText}
    {r r' : Recorder} (h : Merge.recordOutput o banner footer units r = .ok r') :
    SameMap r r' := by
  unfold Merge.recordOutput at h
  cases hunits : Merge.recordUnits o.separator (r.add banner) true units with
  | error fault => rw [hunits] at h; contradiction
  | ok next =>
      rw [hunits] at h
      rw [← Except.ok.inj h]
      exact ((sameMap_add r banner).trans (sameMap_recordUnits hunits)).trans (sameMap_add next footer)

/-! ## the lines of a unit -/

/-- The lines of a unit are those that hold a character. -/
theorem length_linesOf (t : Text) : (linesOf t).length = Text.lineCount t := by
  by_cases hnil : t = []
  · subst hnil
    rfl
  have hlen := Text.length_splitOn '\n' t
  have hlast := @Text.getLast?_splitOn_iff '\n' t
  unfold linesOf Text.lineCount
  rw [if_neg hnil]
  by_cases hstart : Text.LineStart t
  · -- A line feed ends the text, so there are two parts at least, and the last one goes.
    have hfeed := hstart.resolve_left hnil
    have hpos := List.count_pos_iff.mpr (List.mem_of_getLast? hfeed)
    rw [if_pos ⟨hlast.mpr (.inr hfeed), by omega⟩, if_pos hstart, List.length_dropLast, hlen]
    omega
  · rw [if_neg fun h => hstart (hlast.mp h.1), if_neg hstart, hlen]

/-- The places of a unit's lines: each belongs to a character with which a line
begins. -/
theorem mem_linePlaces {cursor : Position} {u : SourceText} {generated origin : Position} :
    (generated, origin) ∈ linePlaces cursor u ↔
      ∃ x c y, u.content = x ++ c :: y ∧ Text.LineStart x ∧ generated = cursor.after x ∧
        origin = u.origins.getD (x.count '\n') ⟨x.count '\n' + 1, 0⟩ := by
  unfold linePlaces
  rw [List.mem_mapIdx]
  constructor
  · rintro ⟨i, hi, heq⟩
    rw [length_linesOf] at hi
    obtain ⟨x, c, y, ht, hx, rfl⟩ := Text.exists_lineStart_of_lt hi
    obtain ⟨rfl, rfl⟩ := Prod.mk.inj heq
    exact ⟨x, c, y, ht, hx, (Text.after_of_lineStart hx cursor).symm, rfl⟩
  · rintro ⟨x, c, y, ht, hx, rfl, rfl⟩
    have hi : x.count '\n' < (linesOf u.content).length := by
      rw [length_linesOf, ht]
      exact Text.count_lt_lineCount x c y
    exact ⟨x.count '\n', hi, by rw [Text.after_of_lineStart hx cursor]⟩

/-! ## recording without inherited maps -/

/-- The entries of a unit that begins at a place. -/
def entriesOf (cursor : Position) (u : SourceText) : List Entry :=
  (linePlaces cursor u).map fun (generated, origin) => ⟨generated, u.path, origin⟩

/-- The entries of units with separators between them. -/
def unitEntries (separator : Text) (cursor : Position) : List SourceText → List Entry
  | [] => []
  | u :: rest =>
    entriesOf cursor u ++ unitEntries separator (cursor.after (u.content ++ separator)) rest

theorem addLines_eq {r : Recorder} {u : SourceText} (h : Table.get? r.inherited u.path = none)
    (places : List (Position × Position)) :
    addLines r u places =
      ({ r with
        entries := r.entries ++
          places.map fun (generated, origin) => ⟨generated, u.path, origin⟩ }, none) := by
  induction places generalizing r with
  | nil => simp [addLines]
  | cons place rest ih =>
      obtain ⟨generated, origin⟩ := place
      rw [addLines, h]
      refine (@ih { r with entries := r.entries ++ [⟨generated, u.path, origin⟩] } h).trans ?_
      simp

/-- A unit whose source brought no map along. -/
theorem addUnit_eq {r : Recorder} {u : SourceText} (h : Table.get? r.inherited u.path = none) :
    r.addUnit u =
      ({ r with
        entries := r.entries ++ entriesOf r.cursor u
        cursor := r.cursor.after u.content }, none) := by
  rw [addUnit, addLines_eq h]
  rfl

/-- **Recording in closed form**, where no source brought a map along. -/
theorem recordUnits_eq {r : Recorder} (h : r.inherited = []) (separator : Text)
    (units : List SourceText) :
    ∃ cursor, Merge.recordUnits separator r true units =
      .ok { r with entries := r.entries ++ unitEntries separator r.cursor units, cursor := cursor } := by
  -- Behind a unit, going on is starting afresh behind the separator.
  have hnext : ∀ (rest : List SourceText) (r : Recorder), rest ≠ [] →
      Merge.recordUnits separator r false rest =
        Merge.recordUnits separator (r.add separator) true rest := by
    intro rest r hne
    cases rest with
    | nil => exact absurd rfl hne
    | cons v rest => rfl
  induction units generalizing r with
  | nil => exact ⟨r.cursor, by simp [Merge.recordUnits, unitEntries]⟩
  | cons u rest ih =>
      have hnone : Table.get? r.inherited u.path = none := by rw [h, Table.get?_nil]
      rw [Merge.recordUnits, if_pos rfl, addUnit_eq hnone]
      simp only
      by_cases hrest : rest = []
      · subst hrest
        exact ⟨r.cursor.after u.content, by simp [Merge.recordUnits, unitEntries]⟩
      · rw [hnext rest _ hrest]
        obtain ⟨cursor, hrun⟩ := @ih (add { r with
          entries := r.entries ++ entriesOf r.cursor u
          cursor := r.cursor.after u.content } separator) h
        refine ⟨cursor, hrun.trans ?_⟩
        simp [add, unitEntries, Position.after_append]

theorem recordOutput_eq {r : Recorder} (h : r.inherited = []) (o : Options) (banner footer : Text)
    (units : List SourceText) :
    ∃ cursor, Merge.recordOutput o banner footer units r =
      .ok { r with
        entries := r.entries ++ unitEntries o.separator (r.cursor.after banner) units
        cursor := cursor } := by
  obtain ⟨cursor, hrun⟩ := recordUnits_eq (r := r.add banner) h o.separator units
  refine ⟨cursor.after footer, ?_⟩
  rw [Merge.recordOutput, hrun]
  rfl

/-- What is written before a unit, given the units before it. -/
def lead (separator : Text) (before : List SourceText) : Text :=
  before.flatMap fun u => u.content ++ separator

/-- Joined contents begin with what is written before a unit, and the unit. -/
theorem exists_joinWith_eq (separator : Text) (before : List SourceText) (u : SourceText)
    (after : List SourceText) :
    ∃ rest, Text.joinWith separator ((before ++ u :: after).map (·.content)) =
      lead separator before ++ (u.content ++ rest) := by
  induction before with
  | nil =>
      cases after with
      | nil => exact ⟨[], by simp [lead, Text.joinWith]⟩
      | cons v after =>
          exact ⟨separator ++ Text.joinWith separator ((v :: after).map (·.content)), by
            simp [lead]⟩
  | cons w before ih =>
      obtain ⟨rest, hrest⟩ := ih
      obtain ⟨next, tail, htail⟩ := List.exists_cons_of_ne_nil
        (show (before ++ u :: after).map (·.content) ≠ [] by simp)
      refine ⟨rest, ?_⟩
      rw [List.cons_append, List.map_cons, htail, Text.joinWith_cons_cons, ← htail, hrest]
      simp [lead]

/-- **The entries of an output**: each belongs to a character with which a line
of a unit begins, and what is written before that says where it stands. -/
theorem mem_unitEntries {separator : Text} {cursor : Position} {units : List SourceText}
    {e : Entry} :
    e ∈ unitEntries separator cursor units ↔
      ∃ before u after x c y, units = before ++ u :: after ∧ u.content = x ++ c :: y ∧
        Text.LineStart x ∧
        e = ⟨cursor.after (lead separator before ++ x), u.path,
          u.origins.getD (x.count '\n') ⟨x.count '\n' + 1, 0⟩⟩ := by
  induction units generalizing cursor with
  | nil => simp [unitEntries]
  | cons u rest ih =>
      rw [unitEntries, List.mem_append, ih]
      constructor
      · rintro (hunit | ⟨before, v, after, x, c, y, rfl, hv, hx, rfl⟩)
        · obtain ⟨⟨generated, origin⟩, hplace, rfl⟩ := List.mem_map.mp hunit
          obtain ⟨x, c, y, hu, hx, rfl, rfl⟩ := mem_linePlaces.mp hplace
          exact ⟨[], u, rest, x, c, y, rfl, hu, hx, rfl⟩
        · refine ⟨u :: before, v, after, x, c, y, rfl, hv, hx, ?_⟩
          simp [lead, Position.after_append]
      · rintro ⟨before, v, after, x, c, y, hsplit, hv, hx, rfl⟩
        cases before with
        | nil =>
            obtain ⟨rfl, rfl⟩ := List.cons.inj hsplit
            exact .inl (List.mem_map.mpr ⟨_, mem_linePlaces.mpr ⟨x, c, y, hv, hx, rfl, rfl⟩, rfl⟩)
        | cons w before =>
            obtain ⟨rfl, rfl⟩ := List.cons.inj hsplit
            refine .inr ⟨before, v, after, x, c, y, rfl, hv, hx, ?_⟩
            simp [lead, Position.after_append]

end SourceMerge.Mapping.Recorder
