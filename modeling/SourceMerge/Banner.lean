import SourceMerge.Text
import SourceMerge.Text.Blank

/-!
# SourceMerge.Banner

Leading comments of a source file.  A *block* banner is one block comment after
white space; it is kept if it opens with `/*!`, unless every block comment
counts.  The text between the opener and the closing mark of a plain block has
at least one character.  With line comments on, the run of lines that hold `//`
is taken instead, each to its line feed.  White space around a banner goes with
it; a text without one stays as it is.
-/

namespace SourceMerge

/-- Which leading comments count as a banner. -/
structure BannerKinds where
  /-- Every block comment counts, also one opened with `/*!`. -/
  block : Bool := false
  /-- Runs of line comments count. -/
  line : Bool := false

namespace Banner

/-- What follows the first `*/`. -/
def afterClose? : Text → Option Text
  | [] => none
  | '*' :: '/' :: rest => some rest
  | _ :: rest => afterClose? rest

/-- What follows the block comment that begins a text. -/
def afterBlock? (block : Bool) : Text → Option Text
  | '/' :: '*' :: rest =>
    if block then afterClose? rest
    else
      match rest with
      | [] => none
      | c :: rest => if c = '!' then none else afterClose? rest
  | _ => none

/-- Whether two slashes stand somewhere in a text. -/
def hasSlashes : Text → Bool
  | '/' :: '/' :: _ => true
  | _ :: rest => hasSlashes rest
  | [] => false

/-- The first line, and what follows its line feed, if it has one. -/
def firstLine (t : Text) : Text × Option Text := Text.cutAt '\n' t

theorem length_of_cutAt {sep : Char} {t before after : Text}
    (h : Text.cutAt sep t = (before, some after)) : after.length < t.length := by
  induction t generalizing before after with
  | nil => simp [Text.cutAt] at h
  | cons c rest ih =>
    rw [Text.cutAt] at h
    split at h
    · simp at h
      simp [← h.2]
    · simp only [Prod.mk.injEq] at h
      have := @ih (Text.cutAt sep rest).1 after (by rw [← h.2])
      simp only [List.length_cons]
      omega

/-- What follows the run of lines that hold two slashes. -/
def afterLines (t : Text) : Text :=
  match _h : firstLine t with
  | (line, some rest) => if hasSlashes line then afterLines rest else t
  | (_, none) => t
termination_by t.length
decreasing_by exact length_of_cutAt _h

/-- A text without its banner. -/
def strip (kinds : BannerKinds) (t : Text) : Text :=
  if kinds.line then Text.trimStart (afterLines (Text.trimStart t))
  else
    match afterBlock? kinds.block (Text.trimStart t) with
    | some rest => Text.trimStart rest
    | none => t

end Banner

end SourceMerge
