import SourceMerge.Mapping.Recorder
import SourceMerge.Proofs.Table

/-!
# SourceMerge.Proofs.Mapping.Document

What a finished map says of the entries that were recorded.  Each generated line
holds the segments of the entries on it, in order, and no others; up to the last
line with an entry no line is left out.  A segment names the source of its entry
by its index among the sources, which is also the index of what that source
holds.
-/

namespace SourceMerge.Mapping.Recorder

variable {r : Recorder}

/-! ## the sources of a map -/

/-- The sources are listed by their first use. -/
theorem sources_eq_eraseDups : r.sources = (r.entries.map (·.source)).eraseDups := by
  rw [sources, Table.foldl_known]
  simp

/-- The sources are those that are recorded. -/
theorem mem_sources {s : Text} : s ∈ r.sources ↔ ∃ e ∈ r.entries, e.source = s := by
  rw [sources_eq_eraseDups, List.mem_eraseDups, List.mem_map]

/-! ## the lines of a map -/

/-- The segments of a line are those of the entries on it. -/
theorem mem_lineSegments {line : Int} {s : Segment} :
    s ∈ r.lineSegments line ↔
      ∃ e ∈ r.entries, e.generated.line = line ∧ segmentOf r.sources e = s := by
  unfold lineSegments
  rw [List.mem_mergeSort, List.mem_map]
  simp [and_assoc]

theorem le_foldl_max (lines : List Int) (last : Int) :
    last ≤ lines.foldl max last ∧ ∀ line ∈ lines, line ≤ lines.foldl max last := by
  induction lines generalizing last with
  | nil => simp
  | cons line lines ih =>
      obtain ⟨hlast, hall⟩ := ih (max last line)
      rw [List.foldl_cons]
      refine ⟨by omega, fun l hl => ?_⟩
      rcases List.mem_cons.mp hl with rfl | hl
      · omega
      · exact hall l hl

/-- No entry is behind the last line. -/
theorem line_le_lastLine {e : Entry} (h : e ∈ r.entries) : e.generated.line ≤ r.lastLine :=
  (le_foldl_max _ 0).2 _ (List.mem_map_of_mem h)

/-- What a document says, part by part. -/
theorem document?_eq_some {workingDirectory : Text} {d : Document}
    (h : r.document? workingDirectory = some d) :
    d.lines = (List.range r.lastLine.toNat).map (fun (i : Nat) => r.lineSegments (i + 1)) ∧
      d.contents = if r.delivery.embedsSources then
          some (r.sources.map fun s => (Table.get? r.contents s).getD .null)
        else none := by
  unfold document? at h
  cases hfile : Delivery.relativeUrl? workingDirectory r.dest (Path.directory r.mapPath) with
  | none => simp [hfile] at h
  | some file =>
      cases hsources : r.sources.mapM
          (Delivery.relativeUrl? workingDirectory · (Path.directory r.mapPath)) with
      | none => simp [hfile, hsources] at h
      | some sources =>
          simp only [hfile, hsources, Option.some.injEq] at h
          subst h
          exact ⟨rfl, rfl⟩

/-- Paths that are not empty have urls. -/
theorem exists_urls (workingDirectory start : Text) {paths : List Text} (h : ∀ p ∈ paths, p ≠ []) :
    ∃ urls, paths.mapM (Delivery.relativeUrl? workingDirectory · start) = some urls := by
  induction paths with
  | nil => exact ⟨[], rfl⟩
  | cons path paths ih =>
      obtain ⟨urls, hurls⟩ := ih fun p hp => h p (List.mem_cons_of_mem path hp)
      have hurl : Delivery.relativeUrl? workingDirectory path start = some _ :=
        if_neg (h path List.mem_cons_self)
      exact ⟨_ :: urls, by rw [List.mapM_cons, hurl, hurls]; rfl⟩

/-- A map can be finished if neither the output nor a source has an empty path. -/
theorem exists_document? (workingDirectory : Text) (hdest : r.dest ≠ [])
    (hsources : ∀ e ∈ r.entries, e.source ≠ []) : ∃ d, r.document? workingDirectory = some d := by
  have hfile : Delivery.relativeUrl? workingDirectory r.dest (Path.directory r.mapPath) = some _ :=
    if_neg hdest
  obtain ⟨urls, hurls⟩ := exists_urls workingDirectory (Path.directory r.mapPath) fun s hs => by
    obtain ⟨e, he, rfl⟩ := mem_sources.mp hs
    exact hsources e he
  unfold document?
  simp only [hfile, hurls]
  exact ⟨_, rfl⟩

/-- **A generated line** of a document holds the segments of the entries on it. -/
theorem mem_document_line {workingDirectory : Text} {d : Document}
    (h : r.document? workingDirectory = some d) {i : Nat} {segments : List Segment}
    (hi : d.lines[i]? = some segments) {s : Segment} :
    s ∈ segments ↔ ∃ e ∈ r.entries, e.generated.line = i + 1 ∧ segmentOf r.sources e = s := by
  rw [(document?_eq_some h).1, List.getElem?_map, Option.map_eq_some_iff] at hi
  obtain ⟨j, hj, rfl⟩ := hi
  obtain ⟨hlt, rfl⟩ := List.getElem?_eq_some_iff.mp hj
  rw [List.getElem_range]
  exact mem_lineSegments

/-- An entry has a segment on its line. -/
theorem exists_document_line {workingDirectory : Text} {d : Document}
    (h : r.document? workingDirectory = some d) {e : Entry} (he : e ∈ r.entries)
    (hline : 1 ≤ e.generated.line) :
    ∃ (i : Nat) (segments : List Segment), e.generated.line = i + 1 ∧
      d.lines[i]? = some segments ∧ segmentOf r.sources e ∈ segments := by
  have hlast := line_le_lastLine he
  have hi : e.generated.line = ((e.generated.line - 1).toNat : Int) + 1 := by omega
  refine ⟨(e.generated.line - 1).toNat, r.lineSegments e.generated.line, hi, ?_,
    mem_lineSegments.mpr ⟨e, he, rfl, rfl⟩⟩
  rw [(document?_eq_some h).1, List.getElem?_map, List.getElem?_range (by omega), Option.map_some,
    ← hi]

/-- The segments of a document have no names. -/
theorem name_document_lines {workingDirectory : Text} {d : Document}
    (h : r.document? workingDirectory = some d) :
    ∀ line ∈ d.lines, ∀ s ∈ line, s.name = none := by
  intro line hline s hs
  obtain ⟨i, hi⟩ := List.mem_iff_getElem?.mp hline
  obtain ⟨e, -, -, rfl⟩ := (mem_document_line h hi).mp hs
  rfl

/-- What the source of an entry holds, if the document holds the sources. -/
theorem content_of_segment {workingDirectory : Text} {d : Document}
    (h : r.document? workingDirectory = some d) (hembeds : r.delivery.embedsSources = true)
    {e : Entry} (he : e ∈ r.entries) :
    ∃ contents, d.contents = some contents ∧
      contents[(segmentOf r.sources e).source.toNat]? =
        some ((Table.get? r.contents e.source).getD .null) := by
  refine ⟨_, (document?_eq_some h).2.trans (if_pos hembeds), ?_⟩
  have hlt : r.sources.idxOf e.source < r.sources.length :=
    List.idxOf_lt_length_of_mem (mem_sources.mpr ⟨e, he, rfl⟩)
  have hindex : (segmentOf r.sources e).source.toNat = r.sources.idxOf e.source := rfl
  rw [hindex, List.getElem?_map, List.getElem?_eq_getElem hlt, List.getElem_idxOf hlt]
  rfl

end SourceMerge.Mapping.Recorder
