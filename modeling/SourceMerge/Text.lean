/-!
# SourceMerge.Text

Text as the merge sees it: a list of Unicode scalar values.  Lengths, columns
and offsets therefore count code points, and every operation below is a
structural recursion on the list, so that facts about texts are facts about
lists.

A surrogate is no part of a text.  No UTF-8 file holds one, but a program can
put one into a string by itself, and two of them side by side.  Such strings are
left out here, and everything that is said of texts is said of strings without
surrogates.  It makes a difference where a text goes through JSON: there a pair of
surrogates is written like the one character that it encodes, and is read back
as that (`Json.escape?`), and a surrogate that stands alone is read as U+FFFD here
(`Json.unitChar`).
-/

namespace SourceMerge

/-- A text is the list of its code points, none of which is a surrogate. -/
abbrev Text := List Char

instance : Coe String Text := ⟨String.toList⟩

instance : LawfulBEq Text := inferInstanceAs (LawfulBEq (List Char))

namespace Text

/-! ## Splitting and joining -/

/-- The parts of a text between the occurrences of `sep`; there is always one
part more than there are separators. -/
def splitOn (sep : Char) : Text → List Text
  | [] => [[]]
  | c :: rest =>
    if c = sep then [] :: splitOn sep rest
    else
      match splitOn sep rest with
      | [] => [[c]]
      | part :: parts => (c :: part) :: parts

/-- The parts one after another with `sep` between neighbours. -/
def joinWith (sep : Text) : List Text → Text
  | [] => []
  | [part] => part
  | part :: parts => part ++ sep ++ joinWith sep parts

/-- Splits at the first occurrence of `sep`, which belongs to neither side. -/
def cutAt (sep : Char) : Text → Text × Option Text
  | [] => ([], none)
  | c :: rest =>
    if c = sep then ([], some rest)
    else
      let (before, after) := cutAt sep rest
      (c :: before, after)

theorem splitOn_ne_nil (sep : Char) (t : Text) : splitOn sep t ≠ [] := by
  induction t with
  | nil => simp [splitOn]
  | cons c rest ih =>
    rw [splitOn]
    split
    · simp
    · split <;> simp

/-! ## Trimming -/

/-- Drops the longest run at the end whose characters satisfy `p`. -/
def trimEndWhile (p : Char → Bool) : Text → Text
  | [] => []
  | c :: rest =>
    match trimEndWhile p rest with
    | [] => if p c then [] else [c]
    | kept => c :: kept

/-- Drops the characters satisfying `p` at both ends. -/
def trimWhile (p : Char → Bool) (t : Text) : Text :=
  trimEndWhile p (t.dropWhile p)

/-- Whether `part` occurs somewhere in the text. -/
def hasPart (part : Text) : Text → Bool
  | [] => part.isEmpty
  | c :: rest => part.isPrefixOf (c :: rest) || hasPart part rest

/-- What follows `start`, if the text begins with it. -/
def dropStart? (start t : Text) : Option Text :=
  if start.isPrefixOf t then some (t.drop start.length) else none

/-- Every occurrence of `part`, found from the left without overlap, becomes
`by'`; an empty part is found nowhere. -/
def replaceAll (part by' : Text) (t : Text) : Text :=
  if part = [] then t
  else go t
where
  go (t : Text) : Text :=
    match t with
    | [] => []
    | c :: rest =>
      if part.isPrefixOf (c :: rest) then
        by' ++ go (rest.drop (part.length - 1))
      else c :: go rest
  termination_by t.length
  decreasing_by all_goals (simp only [List.length_drop, List.length_cons]; omega)

/-! ## Order -/

/-- Texts are ordered by code points, a proper beginning before its
continuation. -/
def before : Text → Text → Bool
  | [], [] => false
  | [], _ :: _ => true
  | _ :: _, [] => false
  | a :: s, b :: t => a.val < b.val || (a == b && before s t)

/-- A text comes at or before another one. -/
def atMost (s t : Text) : Bool := !before t s

/-! ## Numerals -/

/-- The decimal digits of a natural number. -/
def ofNat (n : Nat) : Text := Nat.toDigits 10 n

/-- The decimal digits of an integer, after a minus sign if it is negative. -/
def ofInt : Int → Text
  | .ofNat n => ofNat n
  | .negSucc n => '-' :: ofNat (n + 1)

/-- The value of an ASCII decimal digit. -/
def digitValue? (c : Char) : Option Nat :=
  if '0' ≤ c ∧ c ≤ '9' then some (c.toNat - '0'.toNat) else none

/-- The value of a hexadecimal digit of either case. -/
def hexValue? (c : Char) : Option Nat :=
  if '0' ≤ c ∧ c ≤ '9' then some (c.toNat - '0'.toNat)
  else if 'a' ≤ c ∧ c ≤ 'f' then some (c.toNat - 'a'.toNat + 10)
  else if 'A' ≤ c ∧ c ≤ 'F' then some (c.toNat - 'A'.toNat + 10)
  else none

/-- The number a run of digits of the given base denotes; other characters
count as zero, so callers check the run first. -/
def numeral (base : Nat) (digits : Text) : Nat :=
  digits.foldl (fun n c => base * n + (hexValue? c).getD 0) 0

/-- The lower-case hexadecimal digits of `n`, padded with zeros to `width`. -/
def hex (width n : Nat) : Text :=
  let digits := Nat.toDigits 16 n
  List.replicate (width - digits.length) '0' ++ digits

/-- The decimal digits of `n`, padded with zeros to `width`. -/
def padded (width n : Nat) : Text :=
  let digits := ofNat n
  List.replicate (width - digits.length) '0' ++ digits

end Text

end SourceMerge
