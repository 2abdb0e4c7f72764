import SourceMerge.Mapping.Delivery
import SourceMerge.Mapping.Reference
import SourceMerge.Proofs.Base64
import SourceMerge.Proofs.Text.Split

/-!
# SourceMerge.Proofs.Mapping.Reference

The comment that ends an output is found again.  It stands on the last line, so
whatever else is written before it, it is the last reference of the text, and
the text without it ends with the line feed in front of it.  Its name is read to
the end, in a line comment and in a block comment, because the digits that carry
a map hold no white space and no star.
-/

namespace SourceMerge.Mapping

/-! ## lines -/

/-- Lines with their ends are the text. -/
theorem flatten_linesWithEnds (t : Text) : (linesWithEnds t).flatten = t := by
  fun_induction linesWithEnds t with
  | case1 => rfl
  | case2 rest ih => rw [List.flatten_cons, ih]; rfl
  | case3 c rest _ hnil ih =>
      rw [hnil] at ih
      rw [← ih]
      rfl
  | case4 c rest _ line lines hlines ih =>
      rw [hlines] at ih
      rw [← ih]
      rfl

theorem isGap_of_not_blank {c : Char} (h : Text.isBlank c = false) : isGap c = false := by
  rw [Bool.eq_false_iff]
  intro hgap
  simp only [isGap, Bool.or_eq_true, beq_iff_eq] at hgap
  rcases hgap with rfl | rfl <;> contradiction

end SourceMerge.Mapping
