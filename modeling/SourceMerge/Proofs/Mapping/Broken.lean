import SourceMerge.Proofs.Base64
import SourceMerge.Proofs.Mapping.RoundTrip

/-!
# SourceMerge.Proofs.Mapping.Broken

Which mapping strings can be read, and what is said of the others.  A string is cut at
semicolons and commas, and what matters of a chunk between them is only how it is spelled:

* a character that is no digit breaks it, wherever it stands;
* else a last digit that announces another one does.

`Quantity.fault?` reads this off the chunk without a walk.  The reader gives up at the first
chunk that is broken, and names what breaks it (`decodeMappings_ends`); every other string is
read, whatever numbers it spells.
-/

namespace SourceMerge.Mapping

/-! ## what a computation fails with -/

/-- A computation fails with the given fault, or does not fail if there is none. -/
def FailsWith {ε α : Type} (x : Except ε α) (fault : Option ε) : Prop :=
  ∀ f, x = .error f ↔ fault = some f

namespace FailsWith

variable {ε α β : Type} {x : Except ε α} {fault later : Option ε}

theorem ok (a : α) : FailsWith (.ok a : Except ε α) none := by simp [FailsWith]

theorem error (f : ε) : FailsWith (.error f : Except ε α) (some f) := by simp [FailsWith]

theorem map (h : FailsWith x fault) (g : α → β) : FailsWith (x.map g) fault := by
  intro f
  rw [← h f]
  cases x <;> simp [Except.map]

/-- Of two steps the second one is only taken if the first one does not fail. -/
theorem bind {k : α → Except ε β} (h : FailsWith x fault) (hk : ∀ a, FailsWith (k a) later) :
    FailsWith (x >>= k) (fault.or later) := by
  cases x with
  | error f =>
      rw [(h f).mp rfl]
      exact .error f
  | ok a =>
      have hnone : fault = none := Option.eq_none_iff_forall_ne_some.mpr fun f hf => by
        simpa using (h f).mpr hf
      rw [hnone, Option.none_or]
      exact hk a

end FailsWith

namespace Quantity

/-! ## broken chunks -/

/-- The digits that announce another one: those with the sixth bit set. -/
def announcing : Text := Base64.alphabet.drop 32

/-- What breaks a text of quantities: its first character that is no digit, or else its
last digit, if it announces another one. -/
def fault? (t : Text) : Option QuantityFault :=
  match t.find? (· ∉ Base64.alphabet) with
  | some c => some (.invalidDigit c)
  | none => if t.getLast?.any (· ∈ announcing) then some .truncated else none

variable {c : Char} {t : Text}

theorem fault?_cons_of_notMem (h : c ∉ Base64.alphabet) :
    fault? (c :: t) = some (.invalidDigit c) := by
  simp [fault?, h]

theorem fault?_cons_of_ne_nil (h : c ∈ Base64.alphabet) (ht : t ≠ []) :
    fault? (c :: t) = fault? t := by
  obtain ⟨d, rest, rfl⟩ := List.exists_cons_of_ne_nil ht
  rw [fault?, List.find?_cons_of_neg (by simpa using h), List.getLast?_cons_cons, fault?]

theorem fault?_singleton (h : c ∈ Base64.alphabet) :
    fault? [c] = if c ∈ announcing then some .truncated else none := by
  simp [fault?, h]

/-- A text is broken exactly if it holds a foreign character or announces a digit that is
not there. -/
theorem isSome_fault? :
    (fault? t).isSome ↔ (∃ c ∈ t, c ∉ Base64.alphabet) ∨ ∃ c ∈ t.getLast?, c ∈ announcing := by
  unfold fault?
  cases hfind : t.find? (· ∉ Base64.alphabet) with
  | some c =>
      have hc : c ∉ Base64.alphabet := by simpa using List.find?_some hfind
      exact iff_of_true rfl (.inl ⟨c, List.mem_of_find?_eq_some hfind, hc⟩)
  | none =>
      have hdigits : ¬ ∃ c ∈ t, c ∉ Base64.alphabet := by simpa using hfind
      have hlast : t.getLast?.any (· ∈ announcing) ↔ ∃ c ∈ t.getLast?, c ∈ announcing := by
        cases t.getLast? <;> simp
      simp only [hdigits, false_or, ← hlast]
      split <;> simp [*]

/-! ## reading a chunk -/

theorem mem_announcing_iff {d : Nat} (h : Base64.value? c = some d) : c ∈ announcing ↔ 32 ≤ d := by
  rw [announcing, List.mem_iff_getElem?]
  constructor
  · rintro ⟨i, hi⟩
    rw [List.getElem?_drop, ← Base64.value?_eq_some_iff, h] at hi
    have := Option.some.inj hi
    omega
  · intro hd
    refine ⟨d - 32, ?_⟩
    rw [List.getElem?_drop, Nat.add_sub_cancel' hd]
    exact Base64.value?_eq_some_iff.mp h

/-- In the middle of a quantity as well, only the spelling counts. -/
theorem failsWith_decodeFrom {sum weight : Nat} (ht : t ≠ []) :
    FailsWith (decodeFrom sum weight t) (fault? t) := by
  induction t generalizing sum weight with
  | nil => exact absurd rfl ht
  | cons c rest ih =>
      rw [decodeFrom]
      cases hvalue : Base64.value? c with
      | none =>
          rw [fault?_cons_of_notMem (Base64.value?_eq_none_iff.mp hvalue)]
          exact .error _
      | some d =>
          have hmem : c ∈ Base64.alphabet :=
            List.mem_of_getElem? (Base64.value?_eq_some_iff.mp hvalue)
          have hannounces := mem_announcing_iff hvalue
          by_cases hrest : rest = []
          · subst hrest
            rw [fault?_singleton hmem]
            by_cases hd : 32 ≤ d
            · have hweight : weight * 32 ≠ 1 := by omega
              simp only [hd, hannounces, decodeFrom, hweight, if_true, if_false]
              exact .error _
            · simp only [hd, hannounces, decodeFrom, if_true, if_false]
              exact .ok _
          · rw [fault?_cons_of_ne_nil hmem hrest]
            by_cases hd : 32 ≤ d
            · simp only [hd, if_true]
              exact ih hrest
            · simp only [hd, if_false]
              exact (ih hrest).map _

/-- Something is read from a text that is not empty. -/
theorem ne_nil_of_decodeFrom {sum weight : Nat} {ns : List Int} (ht : t ≠ [])
    (h : decodeFrom sum weight t = .ok ns) : ns ≠ [] := by
  induction t generalizing sum weight with
  | nil => exact absurd rfl ht
  | cons c rest ih =>
      obtain ⟨d, -, hmore | ⟨more, -, rfl⟩⟩ := exists_of_decodeFrom_cons h
      · by_cases hrest : rest = []
        · have hweight : weight * 32 ≠ 1 := by omega
          simp [hrest, decodeFrom, hweight] at hmore
        · exact ih hrest hmore
      · exact List.cons_ne_nil _ _

end Quantity

/-! ## reading all chunks -/

/-- The chunks between the separators of one line, without the empty ones. -/
def lineChunks (line : Text) : List Text := (Text.splitOn ',' line).filter (· ≠ [])

/-- The chunks of a mapping string in order. -/
def chunks (t : Text) : List Text := (Text.splitOn ';' t).flatMap lineChunks

theorem failsWith_decodeChunks (column : Int) (r : Running) (cs : List Text) :
    FailsWith (decodeChunks column r cs) ((cs.filter (· ≠ [])).findSome? Quantity.fault?) := by
  induction cs generalizing column r with
  | nil => exact .ok _
  | cons chunk rest ih =>
      by_cases hchunk : chunk = []
      · subst hchunk
        exact ih column r
      · have hfirst : ((chunk :: rest).filter (· ≠ [])).findSome? Quantity.fault? =
            (Quantity.fault? chunk).or
              (((rest.filter (· ≠ [])).findSome? Quantity.fault?).or none) := by
          rw [List.filter_cons_of_pos (by simpa using hchunk), List.findSome?_cons]
          cases Quantity.fault? chunk <;> simp
        rw [decodeChunks.eq_3 _ _ _ _ hchunk, hfirst]
        refine (Quantity.failsWith_decodeFrom hchunk).bind fun values => ?_
        exact (ih _ _).bind fun read => .ok _

theorem failsWith_decodeLines (r : Running) (lines : List Text) :
    FailsWith (decodeLines r lines) ((lines.flatMap lineChunks).findSome? Quantity.fault?) := by
  induction lines generalizing r with
  | nil => exact .ok _
  | cons line rest ih =>
      have hfirst : ((line :: rest).flatMap lineChunks).findSome? Quantity.fault? =
          ((lineChunks line).findSome? Quantity.fault?).or
            (((rest.flatMap lineChunks).findSome? Quantity.fault?).or none) := by
        rw [List.flatMap_cons, List.findSome?_append, Option.or_none]
      rw [decodeLines, hfirst]
      refine (failsWith_decodeChunks 0 r _).bind fun read => ?_
      exact (ih _).bind fun more => .ok _

/-- A list of segments is read for each line. -/
theorem length_of_decodeLines {r : Running} {lines : List Text} {read : List (List Segment)}
    (h : decodeLines r lines = .ok read) : read.length = lines.length := by
  induction lines generalizing r read with
  | nil => cases h; rfl
  | cons line rest ih =>
      rw [decodeLines] at h
      cases hline : decodeChunks 0 r (Text.splitOn ',' line) with
      | error f => simp [hline, bind, Except.bind] at h
      | ok first =>
          cases hrest : decodeLines first.2 rest with
          | error f => simp [hline, hrest, bind, Except.bind] at h
          | ok more =>
              obtain rfl : first.1 :: more = read := by
                simpa [hline, hrest, bind, Except.bind, pure, Except.pure] using h
              rw [List.length_cons, List.length_cons, ih hrest]

/-- **How reading a mapping string ends.**  It ends with a list of segments for every
line or with a fault.  Every chunk that is read holds a number, so each has a column.
There is a fault if and only if some chunk that is not empty holds a character that is no
digit or ends in a digit that announces another one; the fault is that of the first such
chunk, and there it is the first character that is no digit, if there is any. -/
theorem decodeMappings_ends (t : Text) :
    ((∃ lines, decodeMappings t = .ok lines ∧ lines.length = (Text.splitOn ';' t).length) ∨
        ∃ f, decodeMappings t = .error f) ∧
      (∀ chunk ∈ chunks t, ∀ ns, Quantity.decode chunk = .ok ns → ns ≠ []) ∧
      ((∃ f, decodeMappings t = .error f) ↔ ∃ chunk ∈ chunks t,
        (∃ c ∈ chunk, c ∉ Base64.alphabet) ∨ ∃ c ∈ chunk.getLast?, c ∈ Quantity.announcing) ∧
      ∀ f, decodeMappings t = .error f ↔ (chunks t).findSome? Quantity.fault? = some f := by
  have hfails : FailsWith (decodeMappings t) ((chunks t).findSome? Quantity.fault?) :=
    failsWith_decodeLines {} (Text.splitOn ';' t)
  refine ⟨?_, fun chunk hchunk ns hns => ?_, ?_, hfails⟩
  · cases hread : decodeMappings t with
    | error f => exact .inr ⟨f, rfl⟩
    | ok lines => exact .inl ⟨lines, rfl, length_of_decodeLines hread⟩
  · obtain ⟨line, -, hmem⟩ := List.mem_flatMap.mp hchunk
    have hne : chunk ≠ [] := by simpa using (List.mem_filter.mp hmem).2
    exact Quantity.ne_nil_of_decodeFrom hne hns
  · have hsome : (∃ f, decodeMappings t = .error f) ↔
        ((chunks t).findSome? Quantity.fault?).isSome := by
      rw [Option.isSome_iff_exists]
      exact exists_congr hfails
    rw [hsome, List.findSome?_isSome_iff]
    simp only [Quantity.isSome_fault?]

example : decodeMappings "AAAA,,Ag;A!g" = .error .truncated := by rfl

example : decodeMappings "AAAA;,A!g" = .error (.invalidDigit '!') := by rfl

end SourceMerge.Mapping
