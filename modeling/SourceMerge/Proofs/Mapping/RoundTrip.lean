import Mathlib.Tactic.Ring
import SourceMerge.Mapping.Segment
import SourceMerge.Proofs.Text.Split

/-!
# SourceMerge.Proofs.Mapping.RoundTrip

Reading a mapping string undoes writing it.  The proof goes up through the
layers of the format:

1. a *quantity* stops at its last digit, so what follows it is read afresh;
2. a *segment* is four quantities, and the differences add up to its numbers;
3. the segments of a *line* hand their running numbers on, and no digit is a
   comma;
4. nor is one a semicolon, so the *lines* come apart as they were joined.

Segments are written without name indices, so what is read back are the segments
without them.  Given as numbers, of which four are needed, they come back cut to their
first four (`decodeMappings_encodeMappings_take`).
-/

namespace SourceMerge.Mapping

/-! ## quantities -/

namespace Quantity

theorem decodeFrom_cons_of_lt {d : Nat} (hd : d < 32) (sum weight : Nat) (rest : Text) :
    decodeFrom sum weight (Base64.digit d :: rest) =
      (decodeFrom 0 1 rest).map (unfold (sum + d * weight) :: ·) := by
  rw [decodeFrom, Base64.value?_digit (by omega)]
  simp only [Nat.mod_eq_of_lt hd, if_neg (show ¬ 32 ≤ d by omega)]

theorem decodeFrom_cons_of_ge {d : Nat} (hd : d < 32) (sum weight : Nat) (rest : Text) :
    decodeFrom sum weight (Base64.digit (d + 32) :: rest) =
      decodeFrom (sum + d * weight) (weight * 32) rest := by
  rw [decodeFrom, Base64.value?_digit (by omega)]
  simp only [if_pos (show 32 ≤ d + 32 by omega), show (d + 32) % 32 = d by omega]

/-- What reading a character means for what is read: it is a digit, and either another
one belongs to the same quantity or the quantity ends with it. -/
theorem exists_of_decodeFrom_cons {c : Char} {rest : Text} {sum weight : Nat} {vs : List Int}
    (h : decodeFrom sum weight (c :: rest) = .ok vs) :
    ∃ d, Base64.value? c = some d ∧
      (decodeFrom (sum + d % 32 * weight) (weight * 32) rest = .ok vs ∨
        ∃ more, decodeFrom 0 1 rest = .ok more ∧ vs = unfold (sum + d % 32 * weight) :: more) := by
  rw [decodeFrom] at h
  cases hvalue : Base64.value? c with
  | none => simp [hvalue] at h
  | some d =>
      simp only [hvalue] at h
      refine ⟨d, rfl, ?_⟩
      by_cases hd : 32 ≤ d
      · rw [if_pos hd] at h
        exact .inl h
      · rw [if_neg hd] at h
        cases hmore : decodeFrom 0 1 rest with
        | error f => simp [hmore, Except.map] at h
        | ok more =>
            rw [hmore] at h
            exact .inr ⟨more, rfl, (Except.ok.inj h).symm⟩

/-- Digits add their number to the sum, and what follows them is read afresh. -/
theorem decodeFrom_digits (n sum weight : Nat) (rest : Text) :
    decodeFrom sum weight (digits n ++ rest) =
      (decodeFrom 0 1 rest).map (unfold (sum + n * weight) :: ·) := by
  induction n using Nat.strongRecOn generalizing sum weight with
  | ind n ih =>
      rw [digits]
      by_cases hn : n < 32
      · rw [dif_pos hn]
        exact decodeFrom_cons_of_lt hn sum weight rest
      · have hsum : sum + n % 32 * weight + n / 32 * (weight * 32) = sum + n * weight := by
          have hdiv : n * weight = (n % 32 + 32 * (n / 32)) * weight := by rw [Nat.mod_add_div]
          rw [hdiv]
          ring
        rw [dif_neg hn, List.cons_append,
          decodeFrom_cons_of_ge (Nat.mod_lt n (by omega)), ih (n / 32) (by omega), hsum]

/-- **A quantity is read back**, and nothing behind it is touched. -/
theorem decode_encode_append (v : Int) (rest : Text) :
    decode (encode v ++ rest) = (decode rest).map (v :: ·) := by
  rw [decode, encode, decodeFrom_digits, Nat.mul_one, Nat.zero_add, unfold_fold]
  rfl

/-- No digit separates segments or lines. -/
theorem separator_ne_digit {c : Char} (hc : c = ',' ∨ c = ';') {n : Nat} (hn : n < 64) :
    c ≠ Base64.digit n := by
  rintro rfl
  have hvalue := Base64.value?_digit hn
  have hnone : Base64.value? (Base64.digit n) = none := by rcases hc with hc | hc <;> rw [hc] <;> rfl
  rw [hnone] at hvalue
  contradiction

theorem notMem_digits {c : Char} (hc : c = ',' ∨ c = ';') (n : Nat) : c ∉ digits n := by
  induction n using Nat.strongRecOn with
  | ind n ih =>
      rw [digits]
      by_cases hn : n < 32
      · rw [dif_pos hn, List.mem_singleton]
        exact separator_ne_digit hc (by omega)
      · rw [dif_neg hn, List.mem_cons, not_or]
        exact ⟨separator_ne_digit hc (by omega), ih (n / 32) (by omega)⟩

theorem digits_ne_nil (n : Nat) : digits n ≠ [] := by
  rw [digits]
  split <;> simp

end Quantity

/-! ## segments -/

theorem notMem_encodeSegment {c : Char} (hc : c = ',' ∨ c = ';') (column : Int) (r : Running)
    (s : Segment) : c ∉ encodeSegment column r s := by
  have h := Quantity.notMem_digits hc
  simp [encodeSegment, Quantity.encode, h]

theorem encodeSegment_ne_nil (column : Int) (r : Running) (s : Segment) :
    encodeSegment column r s ≠ [] := by
  simp [encodeSegment, Quantity.encode, Quantity.digits_ne_nil]

theorem decode_encodeSegment (column : Int) (r : Running) (s : Segment) :
    Quantity.decode (encodeSegment column r s) =
      .ok [s.column - column, s.source - r.source, s.sourceLine - r.sourceLine,
        s.sourceColumn - r.sourceColumn] := by
  have hlast := Quantity.decode_encode_append (s.sourceColumn - r.sourceColumn) []
  rw [List.append_nil] at hlast
  simp only [encodeSegment, List.append_assoc, Quantity.decode_encode_append, hlast]
  rfl

/-- The differences of a segment add up to its numbers. -/
theorem applyValues_differences (column : Int) (r : Running) (s : Segment) :
    applyValues column r [s.column - column, s.source - r.source, s.sourceLine - r.sourceLine,
        s.sourceColumn - r.sourceColumn] = (s.column, r.after s, some s.unnamed) := by
  simp only [applyValues, Running.after, Segment.unnamed, List.headD_nil, List.head?_nil,
    Option.map_none, Int.add_zero, add_sub_cancel]

/-! ## lines -/

/-- Chunks are read back with the running numbers that they end with. -/
theorem decodeChunks_encodeSegments (line : List Segment) (column : Int) (r : Running) :
    decodeChunks column r (encodeSegments column r line).1 =
      .ok (line.map Segment.unnamed, (encodeSegments column r line).2) := by
  induction line generalizing column r with
  | nil => rfl
  | cons s rest ih =>
      rw [encodeSegments, decodeChunks.eq_3 _ _ _ _ (encodeSegment_ne_nil column r s),
        decode_encodeSegment]
      simp only [bind, Except.bind, applyValues_differences column r s, ih s.column (r.after s)]
      rfl

theorem notMem_of_mem_encodeSegments {c : Char} (hc : c = ',' ∨ c = ';') {line : List Segment}
    {column : Int} {r : Running} {chunk : Text} (h : chunk ∈ (encodeSegments column r line).1) :
    c ∉ chunk := by
  induction line generalizing column r with
  | nil => simp [encodeSegments] at h
  | cons s rest ih =>
      rw [encodeSegments] at h
      rcases List.mem_cons.mp h with rfl | hrest
      · exact notMem_encodeSegment hc column r s
      · exact ih hrest

theorem encodeSegments_ne_nil {line : List Segment} (h : line ≠ []) (column : Int) (r : Running) :
    (encodeSegments column r line).1 ≠ [] := by
  cases line with
  | nil => exact absurd rfl h
  | cons s rest => simp [encodeSegments]

/-- A line without segments is empty, and reads as one empty chunk. -/
theorem decodeChunks_line (line : List Segment) (r : Running) :
    decodeChunks 0 r
        (Text.splitOn ',' (Text.joinWith [','] (encodeSegments 0 r line).1)) =
      .ok (line.map Segment.unnamed, (encodeSegments 0 r line).2) := by
  by_cases hline : line = []
  · subst hline
    rfl
  · rw [Text.splitOn_joinWith (encodeSegments_ne_nil hline 0 r)
      fun chunk hchunk => notMem_of_mem_encodeSegments (.inl rfl) hchunk]
    exact decodeChunks_encodeSegments line 0 r

theorem decodeLines_encodeLines (lines : List (List Segment)) (r : Running) :
    decodeLines r (encodeLines r lines) = .ok (lines.map (·.map Segment.unnamed)) := by
  induction lines generalizing r with
  | nil => rfl
  | cons line rest ih =>
      rw [encodeLines, decodeLines, decodeChunks_line line r]
      change (decodeLines _ _).bind _ = _
      rw [ih (encodeSegments 0 r line).2]
      rfl

theorem notMem_joinWith {c sep : Char} (hc : c ≠ sep) {parts : List Text}
    (h : ∀ part ∈ parts, c ∉ part) : c ∉ Text.joinWith [sep] parts := by
  induction parts with
  | nil => simp [Text.joinWith]
  | cons part rest ih =>
      cases rest with
      | nil => exact h part List.mem_cons_self
      | cons next rest =>
          have htail := ih fun p hp => h p (List.mem_cons_of_mem part hp)
          simp [hc, h part List.mem_cons_self, htail]

theorem notMem_of_mem_encodeLines {lines : List (List Segment)} {r : Running} {line : Text}
    (h : line ∈ encodeLines r lines) : ';' ∉ line := by
  induction lines generalizing r with
  | nil => simp [encodeLines] at h
  | cons segments rest ih =>
      rw [encodeLines] at h
      rcases List.mem_cons.mp h with rfl | hrest
      · exact notMem_joinWith (by decide) fun chunk hchunk =>
          notMem_of_mem_encodeSegments (.inr rfl) hchunk
      · exact ih hrest

/-- **What is read back from a mapping string**: the segments without their name
indices.  Without any line the string is empty, and reads as one empty line. -/
theorem decodeMappings_encodeMappings_unnamed (lines : List (List Segment)) :
    decodeMappings (encodeMappings lines) =
      .ok (if lines = [] then [[]] else lines.map (·.map Segment.unnamed)) := by
  by_cases hlines : lines = []
  · subst hlines
    rfl
  · have hne : encodeLines {} lines ≠ [] := by
      cases lines with
      | nil => exact absurd rfl hlines
      | cons line rest => simp [encodeLines]
    rw [decodeMappings, encodeMappings,
      Text.splitOn_joinWith hne fun line hline => notMem_of_mem_encodeLines hline,
      decodeLines_encodeLines, if_neg hlines]

theorem Segment.unnamed_eq_self {s : Segment} (h : s.name = none) : s.unnamed = s := by
  obtain ⟨column, source, line, sourceColumn, name⟩ := s
  obtain rfl : name = none := h
  rfl

/-- **Reading a mapping string undoes writing it**, if no segment has a name index. -/
theorem decodeMappings_encodeMappings {lines : List (List Segment)}
    (h : ∀ line ∈ lines, ∀ s ∈ line, s.name = none) :
    decodeMappings (encodeMappings lines) = .ok (if lines = [] then [[]] else lines) := by
  have hunnamed : lines.map (·.map Segment.unnamed) = lines := by
    refine (List.map_congr_left fun line hline => ?_).trans (List.map_id lines)
    exact (List.map_congr_left fun s hs => Segment.unnamed_eq_self (h line hline s hs)).trans
      (List.map_id line)
  rw [decodeMappings_encodeMappings_unnamed, hunnamed]

/-- The empty line that an empty string is read as has no segments. -/
theorem mem_line_decoded {lines : List (List Segment)} {i : Nat} {s : Segment} :
    (∃ line, (if lines = [] then [[]] else lines)[i]? = some line ∧ s ∈ line) ↔
      ∃ line, lines[i]? = some line ∧ s ∈ line := by
  by_cases hlines : lines = []
  · subst hlines
    cases i <;> simp
  · rw [if_neg hlines]

/-! ## segments as numbers -/

/-- A walk through a list finds something if it does at each item, and what it finds
is known item by item. -/
theorem exists_mapM_eq_some {α β γ : Type} {f : α → Option β} {g : β → γ} {k : α → γ} {l : List α}
    (h : ∀ a ∈ l, ∃ b, f a = some b ∧ g b = k a) :
    ∃ bs, l.mapM f = some bs ∧ bs.map g = l.map k := by
  induction l with
  | nil => exact ⟨[], rfl, rfl⟩
  | cons a l ih =>
      rw [List.forall_mem_cons] at h
      obtain ⟨b, hb, hg⟩ := h.1
      obtain ⟨bs, hbs, hgs⟩ := ih h.2
      exact ⟨b :: bs, by rw [List.mapM_cons, hb, hbs]; rfl, by rw [List.map_cons, hg, hgs, List.map_cons]⟩

/-- Four numbers make a segment, and are all of it but its name index. -/
theorem Segment.exists_ofList? {ns : List Int} (h : 4 ≤ ns.length) :
    ∃ s, Segment.ofList? ns = some s ∧ s.unnamed.toList = ns.take 4 := by
  match ns, h with
  | a :: b :: c :: d :: rest, _ => exact ⟨⟨a, b, c, d, rest.head?⟩, rfl, rfl⟩

/-- **Segments given as numbers are read back** cut to their first four, so that those
of four numbers are read back as they are.  Without any line one empty line is read. -/
theorem decodeMappings_encodeMappings_take {rows : List (List (List Int))}
    (h : ∀ row ∈ rows, ∀ ns ∈ row, 4 ≤ ns.length) :
    ∃ lines read, rows.mapM (·.mapM Segment.ofList?) = some lines ∧
      decodeMappings (encodeMappings lines) = .ok read ∧
      read.map (·.map Segment.toList) =
        (if rows = [] then [[]] else rows.map (·.map (·.take 4))) ∧
      (rows ≠ [] → (∀ row ∈ rows, ∀ ns ∈ row, ns.length = 4) →
        read.map (·.map Segment.toList) = rows) := by
  have hrow : ∀ row ∈ rows, ∃ line, row.mapM Segment.ofList? = some line ∧
      line.map (·.unnamed.toList) = row.map (·.take 4) := fun row hrow =>
    exists_mapM_eq_some fun ns hns => Segment.exists_ofList? (h row hrow ns hns)
  obtain ⟨lines, hlines, hnumbers⟩ := exists_mapM_eq_some hrow
  have hempty : lines = [] ↔ rows = [] := by
    rw [← List.map_eq_nil_iff, hnumbers, List.map_eq_nil_iff]
  have hread : (if lines = [] then [[]] else lines.map (·.map Segment.unnamed)).map
      (·.map Segment.toList) = if rows = [] then [[]] else rows.map (·.map (·.take 4)) := by
    by_cases hrows : rows = []
    · rw [if_pos hrows, if_pos (hempty.mpr hrows)]
      rfl
    · rw [if_neg hrows, if_neg (mt hempty.mp hrows), ← hnumbers, List.map_map]
      exact List.map_congr_left fun line _ => List.map_map
  refine ⟨lines, _, hlines, decodeMappings_encodeMappings_unnamed lines, hread, fun hrows hfour => ?_⟩
  rw [hread, if_neg hrows]
  refine (List.map_congr_left fun row hrow => ?_).trans (List.map_id rows)
  refine (List.map_congr_left fun ns hns => ?_).trans (List.map_id row)
  exact List.take_of_length_le (hfour row hrow ns hns).le

/-- Two lines with an empty one between them, columns that go back, a name index and a
number more. -/
theorem decodeMappings_encodeMappings_take_unsorted :
    ∃ lines read, [[[9, 0, 3, 0], [2, -1, 70000, -5, 4, 8]], [], [[0, 2, 0, 0]]].mapM
        (·.mapM Segment.ofList?) = some lines ∧
      decodeMappings (encodeMappings lines) = .ok read ∧
      read.map (·.map Segment.toList) =
        [[[9, 0, 3, 0], [2, -1, 70000, -5]], [], [[0, 2, 0, 0]]] := by
  have hfour : ∀ row ∈ [[[9, 0, 3, 0], [2, -1, 70000, -5, 4, 8]], [], [[0, 2, 0, 0]]], ∀ ns ∈ row,
      4 ≤ (ns : List Int).length := by decide
  obtain ⟨lines, read, hlines, hdecode, hread, -⟩ := decodeMappings_encodeMappings_take hfour
  exact ⟨lines, read, hlines, hdecode, hread⟩

end SourceMerge.Mapping
