import SourceMerge.Proofs.Json.RoundTrip
import SourceMerge.Proofs.Mapping.Document
import SourceMerge.Proofs.Mapping.RoundTrip
import SourceMerge.Proofs.Path.Relative
import SourceMerge.Proofs.Table

/-!
# SourceMerge.Proofs.Mapping.Inherited

A finished map is a map that can be inherited.  Read as the map of a file, a
document gives back what its recorder recorded: on every line the segments of the
entries there, in ascending order; the sources as paths that lead to the same
places; and what they hold.
-/

namespace SourceMerge.Mapping

/-! ## a document as JSON -/

namespace Document

/-- The members of a document by their names. -/
def rows (d : Document) : Table Data :=
  ("version".toList, .int 3) :: ("file".toList, .text d.file) ::
    ("sources".toList, .list (d.sources.map .text)) ::
    ((d.contents.map fun contents => ("sourcesContent".toList, Data.list contents)).toList ++
      [("names".toList, .list []), ("mappings".toList, .text d.mappings)])

theorem toData_eq (d : Document) : d.toData = .map (Json.membersOf d.rows) := by
  unfold toData rows
  cases d.contents <;> rfl

theorem nodup_rows (d : Document) : (d.rows.map (·.1)).Nodup := by
  unfold rows
  cases d.contents
  · exact (by decide : (["version", "file", "sources", "names", "mappings"].map
      String.toList).Nodup)
  · exact (by decide : (["version", "file", "sources", "sourcesContent", "names", "mappings"].map
      String.toList).Nodup)

/-- A document is kept by JSON if the contents of its sources are. -/
theorem kept_toData {d : Document}
    (h : ∀ contents, d.contents = some contents → ∀ c ∈ contents, Json.Kept c) :
    Json.Kept d.toData := by
  rw [toData_eq]
  refine .map d.nodup_rows fun row hrow => ?_
  simp only [rows, List.mem_cons, List.mem_append, Option.mem_toList, Option.map_eq_some_iff,
    List.not_mem_nil, or_false] at hrow
  rcases hrow with rfl | rfl | rfl | ⟨contents, hcontents, rfl⟩ | rfl | rfl
  · exact .int (by decide)
  · exact .text d.file
  · refine .list fun c hc => ?_
    obtain ⟨s, -, rfl⟩ := List.mem_map.mp hc
    exact .text s
  · exact .list (h contents hcontents)
  · exact .list (by simp)
  · exact .text d.mappings

/-- A field of an object is what its row holds. -/
theorem field?_membersOf (rows : Table Data) (key : Text) :
    Data.field? (.map (Json.membersOf rows)) key = Table.get? rows key := by
  have hsame : ((fun e : Data × Data => e.1.same (.text key)) ∘
      fun row : Text × Data => (Data.text row.1, row.2)) = fun row => row.1 == key := by
    funext row
    simp [Data.same]
  simp only [Data.field?, Entries.get?, Table.get?, Json.membersOf, List.find?_map, Option.map_map,
    hsame]
  rfl

/-- The fields that a reader of a document looks at. -/
theorem fields_toData (d : Document) :
    d.toData.field? "version" = some (.int 3) ∧ d.toData.field? "sourceRoot" = none ∧
      d.toData.field? "sources" = some (.list (d.sources.map .text)) ∧
      d.toData.field? "sourcesContent" = d.contents.map .list ∧
      d.toData.field? "mappings" = some (.text d.mappings) := by
  simp only [toData_eq, field?_membersOf]
  unfold rows
  cases d.contents <;> exact ⟨rfl, rfl, rfl, rfl, rfl⟩

/-- The JSON of a document tells its output. -/
theorem file_eq_of_serialized_eq {d d' : Document} (h : d.serialized = d'.serialized) :
    d.file = d'.file := by
  have hread : ∀ d : Document, ∃ rest, d.serialized =
      "\x7b\"version\":3,\"file\":\"".toList ++ (d.file.flatMap Json.escapeChar ++ '"' :: rest) := by
    intro d
    obtain ⟨e, tail, htail⟩ : ∃ e tail, d.toData =
        .map ((.text "version", .int 3) :: (.text "file", .text d.file) :: e :: tail) := ⟨_, _, rfl⟩
    refine ⟨',' :: (Json.renderMembers (e :: tail) ++ ['\x7d']), ?_⟩
    have hversion : Json.renderMember (.text "version", .int 3) = "\"version\":3".toList := by decide
    have hfile : Json.renderMember (.text "file", .text d.file) =
        "\"file\":\"".toList ++ (d.file.flatMap Json.escapeChar ++ ['"']) := rfl
    rw [Document.serialized, htail, Json.render, Json.renderMembers, Json.renderMembers, hversion, hfile]
    · simp
    · simp
    · simp
  obtain ⟨rest, hd⟩ := hread d
  obtain ⟨rest', hd'⟩ := hread d'
  rw [hd, hd', List.append_cancel_left_eq] at h
  have hstring := congrArg Json.string? h
  rw [Json.string?_flatMap, Json.string?_flatMap] at hstring
  exact (Prod.mk.inj (Option.some.inj hstring)).1

end Document

/-! ## a document as the map of a file -/

/-- The paths of sources that are seen from a directory. -/
theorem sourcesOf?_toData (base : Text) (d : Document) :
    sourcesOf? base d.toData =
      some (d.sources.map fun s => Path.canonical (Path.join (Path.join base []) s)) := by
  obtain ⟨-, hroot, hsources, -⟩ := d.fields_toData
  have hitems : ∀ sources : List Text,
      (sources.map Data.text).mapM (sourcePath? base (.text [])) =
        some (sources.map fun s => Path.canonical (Path.join (Path.join base []) s)) := by
    intro sources
    induction sources with
    | nil => rfl
    | cons s sources ih => rw [List.map_cons, List.mapM_cons, ih]; rfl
  unfold sourcesOf? rootOf
  rw [hsources, hroot]
  exact hitems d.sources

/-- The contents of a document that has one for each source. -/
theorem contentsOf?_toData {d : Document} {contents : List Data} (h : d.contents = some contents)
    {count : Nat} (hcount : contents.length = count) :
    contentsOf? count d.toData = some contents := by
  obtain ⟨-, -, -, hcontents, -⟩ := d.fields_toData
  unfold contentsOf?
  rw [hcontents, h]
  cases contents with
  | nil => simp [← hcount, Data.truthy]
  | cons c contents => simp [← hcount, Data.truthy, itemsOf?]

/-- **A document is read again.** -/
theorem InheritedMap.ofText_serialized (base : Text) {d : Document} {contents : List Data}
    (hcontents : d.contents = some contents) (hlength : contents.length = d.sources.length)
    (hkept : ∀ c ∈ contents, Json.Kept c) (hnames : ∀ line ∈ d.lines, ∀ s ∈ line, s.name = none) :
    InheritedMap.ofText base d.serialized =
      .ok ⟨d.sources.map fun s => Path.canonical (Path.join (Path.join base []) s), contents,
        if d.lines = [] then [[]] else d.lines⟩ := by
  obtain ⟨hversion, -, -, -, hmappings⟩ := d.fields_toData
  have hread : Json.parse? d.serialized = some d.toData :=
    Json.parse?_render (Document.kept_toData fun c hc => by
      rw [hcontents] at hc
      exact Option.some.inj hc ▸ hkept)
  have hshape : d.toData = .map _ := d.toData_eq
  unfold InheritedMap.ofText
  rw [hread]
  simp only
  unfold InheritedMap.ofDocument
  rw [hversion, sourcesOf?_toData, hmappings]
  simp only [List.length_map]
  rw [contentsOf?_toData hcontents hlength]
  simp only [Option.getD_some, Document.mappings, decodeMappings_encodeMappings hnames]
  rw [hshape]
  simp [Data.same]

/-! ## what was recorded -/

namespace Recorder

variable {r : Recorder}

/-- Numbers are compared first, and what follows decides between equal ones. -/
theorem isLE_then_iff (x y : Int) (o : Ordering) :
    ((compareOfLessAndEq x y).then o).isLE = true ↔ x < y ∨ x = y ∧ o.isLE = true := by
  unfold compareOfLessAndEq
  split
  · next hlt => simp [Ordering.then, hlt]
  · next hlt =>
    split
    · next heq => simp [Ordering.then, heq]
    · next heq => simp [Ordering.then, hlt, heq]

theorem isLE_compare_iff (x y : Int) : (compareOfLessAndEq x y).isLE = true ↔ x ≤ y := by
  unfold compareOfLessAndEq
  split
  · next hlt => simp [Int.le_of_lt hlt]
  · next hlt =>
    split
    · next heq => simp [heq]
    · next heq =>
      simp only [Ordering.isLE_gt, Bool.false_eq_true, false_iff]
      omega

/-- Segments are compared number by number. -/
theorem segmentLE_iff {a b : Segment} :
    segmentLE a b = true ↔ a.column < b.column ∨ a.column = b.column ∧
      (a.source < b.source ∨ a.source = b.source ∧
        (a.sourceLine < b.sourceLine ∨ a.sourceLine = b.sourceLine ∧
          a.sourceColumn ≤ b.sourceColumn)) := by
  rw [segmentLE, Ordering.then_assoc, Ordering.then_assoc, isLE_then_iff, isLE_then_iff,
    isLE_then_iff, isLE_compare_iff]

theorem segmentLE_trans (a b c : Segment) (hab : segmentLE a b = true)
    (hbc : segmentLE b c = true) : segmentLE a c = true := by
  rw [segmentLE_iff] at *
  omega

theorem segmentLE_total (a b : Segment) : (segmentLE a b || segmentLE b a) = true := by
  rw [Bool.or_eq_true, segmentLE_iff, segmentLE_iff]
  omega

/-- The segments of a line are those of the entries on it, as often as they were
recorded. -/
theorem perm_lineSegments (line : Int) :
    (r.lineSegments line).Perm
      ((r.entries.filter (·.generated.line == line)).map (segmentOf r.sources)) :=
  List.mergeSort_perm _ _

/-- The segments of a line ascend. -/
theorem pairwise_lineSegments (line : Int) :
    (r.lineSegments line).Pairwise (segmentLE · · = true) :=
  List.pairwise_mergeSort segmentLE_trans segmentLE_total _

theorem lineSegments_eq_nil {line : Int} (h : ∀ e ∈ r.entries, e.generated.line ≠ line) :
    r.lineSegments line = [] := by
  rw [List.eq_nil_iff_forall_not_mem]
  intro s hs
  obtain ⟨e, he, hline, -⟩ := mem_lineSegments.mp hs
  exact h e he hline

/-- Read again, a line of a document holds the segments that were recorded on it. -/
theorem segmentsFor_document {workingDirectory : Text} {d : Document}
    (h : r.document? workingDirectory = some d) (hlines : ∀ e ∈ r.entries, 1 ≤ e.generated.line)
    (sources : List Text) (contents : List Data) (line : Int) :
    InheritedMap.segmentsFor ⟨sources, contents, if d.lines = [] then [[]] else d.lines⟩ line =
      r.lineSegments line := by
  have hd := (document?_eq_some h).1
  unfold InheritedMap.segmentsFor
  by_cases hline : 1 ≤ line
  · rw [if_pos hline]
    by_cases hlast : line ≤ r.lastLine
    · have hne : d.lines ≠ [] := by
        rw [hd, Ne, List.map_eq_nil_iff, List.range_eq_nil]
        omega
      rw [if_neg hne, hd, List.getD_eq_getElem?_getD, List.getElem?_map,
        List.getElem?_range (by omega), Option.map_some, Option.getD_some]
      congr 1
      omega
    · have hbehind : ∀ e ∈ r.entries, e.generated.line ≠ line := by
        intro e he heq
        have := line_le_lastLine he
        omega
      rw [lineSegments_eq_nil hbehind]
      split
      · cases (line - 1).toNat <;> rfl
      · rw [hd, List.getD_eq_getElem?_getD, List.getElem?_eq_none (by simp; omega),
          Option.getD_none]
  · have hbefore : ∀ e ∈ r.entries, e.generated.line ≠ line := by
      intro e he heq
      have := hlines e he
      omega
    rw [if_neg hline, lineSegments_eq_nil hbefore]

/-- Paths that have urls have the ways to them. -/
theorem eq_map_relativeTo {workingDirectory start : Text} {paths urls : List Text}
    (h : paths.mapM (Delivery.relativeUrl? workingDirectory · start) = some urls) :
    urls = paths.map (Path.relativeTo workingDirectory start) := by
  induction paths generalizing urls with
  | nil => exact (Option.some.inj h).symm
  | cons path paths ih =>
      rw [List.mapM_cons] at h
      obtain ⟨url, hurl, h⟩ := Option.bind_eq_some_iff.mp h
      obtain ⟨rest, hrest, h⟩ := Option.bind_eq_some_iff.mp h
      rw [Delivery.relativeUrl?, Option.ite_none_left_eq_some] at hurl
      rw [← Option.some.inj h, ← Option.some.inj hurl.2, ih hrest, List.map_cons]

/-- A document names its output and its sources by the ways to them. -/
theorem document?_paths {workingDirectory : Text} {d : Document}
    (h : r.document? workingDirectory = some d) :
    d.file = Path.relativeTo workingDirectory (Path.directory r.mapPath) r.dest ∧
      d.sources = r.sources.map (Path.relativeTo workingDirectory (Path.directory r.mapPath)) := by
  unfold document? at h
  cases hfile : Delivery.relativeUrl? workingDirectory r.dest (Path.directory r.mapPath) with
  | none => simp [hfile] at h
  | some file =>
      cases hsources : r.sources.mapM
          (Delivery.relativeUrl? workingDirectory · (Path.directory r.mapPath)) with
      | none => simp [hfile, hsources] at h
      | some sources =>
          simp only [hfile, hsources, Option.some.injEq] at h
          rw [Delivery.relativeUrl?, Option.ite_none_left_eq_some] at hfile
          rw [← h]
          exact ⟨(Option.some.inj hfile.2).symm, eq_map_relativeTo hsources⟩

end Recorder

end SourceMerge.Mapping
