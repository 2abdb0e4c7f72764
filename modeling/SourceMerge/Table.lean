import SourceMerge.Text

/-!
# SourceMerge.Table

A table from paths or names to values, in the order in which the keys were
first set.
-/

namespace SourceMerge

/-- The rows of a table in order; each key has one row. -/
abbrev Table (α : Type) := List (Text × α)

namespace Table

variable {α : Type}

/-- The value of a key. -/
def get? (t : Table α) (key : Text) : Option α := (t.find? (·.1 == key)).map (·.2)

/-- Whether a key is set. -/
def contains (t : Table α) (key : Text) : Bool := t.any (·.1 == key)

/-- Sets the value of a key, which keeps its place if it was set before. -/
def insert (t : Table α) (key : Text) (value : α) : Table α :=
  match t with
  | [] => [(key, value)]
  | row :: rest => if row.1 = key then (key, value) :: rest else row :: insert rest key value

/-- Sets the value of a key that is not set. -/
def insertIfNew (t : Table α) (key : Text) (value : α) : Table α :=
  if contains t key then t else t ++ [(key, value)]

@[simp] theorem get?_nil (key : Text) : get? ([] : Table α) key = none := rfl

/-- A key holds what was set last. -/
theorem get?_insert_self (t : Table α) (key : Text) (value : α) :
    get? (insert t key value) key = some value := by
  induction t with
  | nil => simp [insert, get?]
  | cons row rest ih =>
    rw [insert]
    split
    · simp [get?]
    · next h =>
      have hne : (row.1 == key) = false := by simpa using h
      simpa [get?, hne] using ih

/-- Other keys keep what they hold. -/
theorem get?_insert_of_ne {t : Table α} {key other : Text} {value : α} (hne : other ≠ key) :
    get? (insert t key value) other = get? t other := by
  have hkey : (key == other) = false := by simpa using fun h : key = other => hne h.symm
  induction t with
  | nil => simp [insert, get?, hkey]
  | cons row rest ih =>
    rw [insert]
    split
    · next h =>
      have hrow : (row.1 == other) = false := by rw [h]; exact hkey
      simp [get?, hkey, hrow]
    · cases hrow : row.1 == other
      · simpa [get?, hrow] using ih
      · simp [get?, hrow]

end Table

end SourceMerge
