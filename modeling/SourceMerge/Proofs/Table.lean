import Mathlib.Data.List.Nodup
import SourceMerge.Table

/-!
# SourceMerge.Proofs.Table

Tables that are filled row by row.  A key keeps the place where it was set first
and holds the value that it was given last, so after filling the keys are the
given ones, each once, and a look-up reads the rows from the end.
-/

namespace SourceMerge.Table

variable {α : Type}

/-- The keys of a table in order. -/
def keys (t : Table α) : List Text := t.map (·.1)

/-- Sets the values of rows, one after the other. -/
def fill (t : Table α) (rows : List (Text × α)) : Table α :=
  rows.foldl (fun t row => insert t row.1 row.2) t

@[simp] theorem fill_nil (t : Table α) : fill t [] = t := rfl

@[simp] theorem fill_cons (t : Table α) (row : Text × α) (rows : List (Text × α)) :
    fill t (row :: rows) = fill (insert t row.1 row.2) rows := rfl

/-- A new key comes last, a known one stays where it is. -/
theorem keys_insert (t : Table α) (key : Text) (value : α) :
    keys (insert t key value) = if key ∈ keys t then keys t else keys t ++ [key] := by
  induction t with
  | nil => simp [insert, keys]
  | cons row rest ih =>
      rw [insert]
      by_cases hrow : row.1 = key
      · simp [keys, hrow]
      · have hne : ¬ key = row.1 := fun h => hrow h.symm
        simp only [keys] at ih
        by_cases hmem : key ∈ rest.map (·.1) <;> simp_all [keys]

/-- Names that are added one by one unless they are known stand in the order of
their first use. -/
theorem foldl_known (names known : List Text) :
    names.foldl (fun known name => if name ∈ known then known else known ++ [name]) known =
      known ++ (names.filter (· ∉ known)).eraseDups := by
  induction names generalizing known with
  | nil => simp
  | cons name names ih =>
      rw [List.foldl_cons, ih]
      by_cases hknown : name ∈ known
      · simp [hknown]
      · have hlater : names.filter (· ∉ known ++ [name]) =
            (names.filter (· ∉ known)).filter (!· == name) := by
          rw [List.filter_filter]
          refine List.filter_congr fun s _ => Bool.eq_iff_iff.mpr ?_
          simp [and_comm]
        rw [if_neg hknown, hlater, List.filter_cons_of_pos (by simpa using hknown),
          List.eraseDups_cons]
        simp

/-- The keys of a table that was filled stand in the order of their first use. -/
theorem keys_fill (t : Table α) (rows : List (Text × α)) :
    keys (fill t rows) = keys t ++ ((rows.map (·.1)).filter (· ∉ keys t)).eraseDups := by
  rw [← foldl_known]
  induction rows generalizing t with
  | nil => rfl
  | cons row rows ih => rw [fill_cons, ih, keys_insert, List.map_cons, List.foldl_cons]

theorem mem_keys_insert {t : Table α} {key other : Text} {value : α} :
    other ∈ keys (insert t key value) ↔ other = key ∨ other ∈ keys t := by
  rw [keys_insert]
  by_cases hmem : key ∈ keys t
  · rw [if_pos hmem]
    constructor
    · exact .inr
    · rintro (rfl | h)
      · exact hmem
      · exact h
  · rw [if_neg hmem, List.mem_append, List.mem_singleton, or_comm]

theorem nodup_keys_insert {t : Table α} (h : (keys t).Nodup) (key : Text) (value : α) :
    (keys (insert t key value)).Nodup := by
  rw [keys_insert]
  by_cases hmem : key ∈ keys t
  · rwa [if_pos hmem]
  · rw [if_neg hmem]
    exact List.Nodup.append h (List.nodup_singleton key) (by simpa using hmem)

theorem mem_keys_fill {t : Table α} {rows : List (Text × α)} {key : Text} :
    key ∈ keys (fill t rows) ↔ key ∈ keys t ∨ key ∈ rows.map (·.1) := by
  induction rows generalizing t with
  | nil => simp
  | cons row rows ih =>
      rw [fill_cons, ih, mem_keys_insert, List.map_cons, List.mem_cons]
      grind

theorem nodup_keys_fill {t : Table α} (h : (keys t).Nodup) (rows : List (Text × α)) :
    (keys (fill t rows)).Nodup := by
  induction rows generalizing t with
  | nil => exact h
  | cons row rows ih => exact ih (nodup_keys_insert h row.1 row.2)

/-- What holds of all values that are given holds of all values. -/
theorem forall_fill {P : α → Prop} {t : Table α} {rows : List (Text × α)} (ht : ∀ row ∈ t, P row.2)
    (hrows : ∀ row ∈ rows, P row.2) : ∀ row ∈ fill t rows, P row.2 := by
  have hinsert : ∀ (t : Table α) (key : Text) (value : α), (∀ row ∈ t, P row.2) → P value →
      ∀ row ∈ insert t key value, P row.2 := by
    intro t key value ht hvalue
    induction t with
    | nil => simpa [insert] using hvalue
    | cons row rest ih =>
        rw [List.forall_mem_cons] at ht
        rw [insert]
        split
        · exact List.forall_mem_cons.mpr ⟨hvalue, ht.2⟩
        · exact List.forall_mem_cons.mpr ⟨ht.1, ih ht.2⟩
  induction rows generalizing t with
  | nil => exact ht
  | cons row rows ih =>
      rw [List.forall_mem_cons] at hrows
      exact ih (hinsert t row.1 row.2 ht hrows.1) hrows.2

theorem get?_append (s t : Table α) (key : Text) :
    get? (s ++ t) key = (get? s key).or (get? t key) := by
  simp only [get?, List.find?_append]
  cases s.find? (·.1 == key) <;> rfl

theorem get?_cons (row : Text × α) (t : Table α) (key : Text) :
    get? (row :: t) key = if row.1 = key then some row.2 else get? t key := by
  by_cases h : row.1 = key <;> simp [get?, h]

/-- Changing the values changes what is found. -/
theorem get?_map {β : Type} (g : α → β) (t : Table α) (key : Text) :
    get? (t.map fun row => (row.1, g row.2)) key = (get? t key).map g := by
  induction t with
  | nil => rfl
  | cons row rest ih =>
      rw [List.map_cons, get?_cons, get?_cons, ih]
      by_cases hkey : row.1 = key <;> simp [hkey]

/-- **The value that was given last counts.** -/
theorem get?_fill (t : Table α) (rows : List (Text × α)) (key : Text) :
    get? (fill t rows) key = (get? rows.reverse key).or (get? t key) := by
  induction rows generalizing t with
  | nil => simp
  | cons row rows ih =>
      rw [fill_cons, ih, List.reverse_cons, get?_append, get?_cons]
      by_cases hkey : row.1 = key
      · subst hkey
        rw [get?_insert_self]
        cases get? rows.reverse row.1 <;> simp
      · rw [get?_insert_of_ne fun h => hkey h.symm, if_neg hkey]
        cases get? rows.reverse key <;> simp

theorem mem_of_get? {t : Table α} {key : Text} {value : α} (h : get? t key = some value) :
    (key, value) ∈ t := by
  obtain ⟨row, hrow, rfl⟩ := Option.map_eq_some_iff.mp h
  have hkey : row.1 = key := by simpa using List.find?_some hrow
  exact hkey ▸ List.mem_of_find?_eq_some hrow

/-- With distinct keys every row is the one that its key finds. -/
theorem get?_of_mem {t : Table α} (h : (keys t).Nodup) {key : Text} {value : α}
    (hmem : (key, value) ∈ t) : get? t key = some value := by
  induction t with
  | nil => simp at hmem
  | cons row rest ih =>
      rw [keys, List.map_cons, List.nodup_cons] at h
      rw [get?_cons]
      rcases List.mem_cons.mp hmem with rfl | hrest
      · simp
      · have hne : row.1 ≠ key := fun heq => h.1 (heq ▸ List.mem_map_of_mem hrest)
        rw [if_neg hne]
        exact ih h.2 hrest

theorem mem_keys_iff {t : Table α} {key : Text} : key ∈ keys t ↔ ∃ value, get? t key = some value := by
  constructor
  · intro h
    induction t with
    | nil => simp [keys] at h
    | cons row rest ih =>
        rw [get?_cons]
        by_cases hkey : row.1 = key
        · exact ⟨row.2, by rw [if_pos hkey]⟩
        · rw [if_neg hkey]
          rw [keys, List.map_cons, List.mem_cons] at h
          exact ih (h.resolve_left fun heq => hkey heq.symm)
  · rintro ⟨value, h⟩
    exact List.mem_map_of_mem (mem_of_get? h)

theorem contains_eq_isSome (t : Table α) (key : Text) : contains t key = (get? t key).isSome := by
  rw [contains, get?, Option.isSome_map, Bool.eq_iff_iff, List.find?_isSome, List.any_eq_true]

/-- What a look-up from the end finds is given in the last row of its key. -/
theorem last_row_of_get?_reverse {rows : List (Text × α)} {key : Text} {value : α}
    (h : get? rows.reverse key = some value) :
    ∃ before after, rows = before ++ (key, value) :: after ∧ key ∉ after.map (·.1) := by
  induction rows with
  | nil => simp at h
  | cons row rows ih =>
      rw [List.reverse_cons, get?_append, get?_cons] at h
      cases hrest : get? rows.reverse key with
      | some v =>
          rw [hrest, Option.some_or, Option.some.injEq] at h
          obtain ⟨before, after, hsplit, hlast⟩ := ih (h ▸ hrest)
          exact ⟨row :: before, after, by rw [hsplit, List.cons_append], hlast⟩
      | none =>
          rw [hrest, Option.none_or] at h
          by_cases hkey : row.1 = key
          · rw [if_pos hkey, Option.some.injEq] at h
            refine ⟨[], rows, by rw [← hkey, ← h]; rfl, fun hmem => ?_⟩
            have hrev : key ∈ keys rows.reverse := by
              simpa [keys] using hmem
            obtain ⟨v, hv⟩ := mem_keys_iff.mp hrev
            simp [hrest] at hv
          · simp [hkey] at h

/-! ## the last row of each key -/

/-- Rows without those whose key comes again behind them. -/
def lastRows : List (Text × α) → List (Text × α)
  | [] => []
  | row :: rest => if row.1 ∈ keys rest then lastRows rest else row :: lastRows rest

theorem mem_keys_reverse {rows : List (Text × α)} {key : Text} :
    key ∈ keys rows.reverse ↔ key ∈ keys rows := by
  simp [keys]

/-- A row whose key comes again behind it does not count. -/
theorem get?_reverse_cons_of_mem {row : Text × α} {rest : List (Text × α)} (h : row.1 ∈ keys rest)
    (key : Text) : get? (row :: rest).reverse key = get? rest.reverse key := by
  rw [List.reverse_cons, get?_append, get?_cons, get?_nil]
  by_cases hkey : row.1 = key
  · obtain ⟨value, hvalue⟩ := mem_keys_iff.mp (mem_keys_reverse.mpr h)
    rw [← hkey, hvalue, Option.some_or]
  · rw [if_neg hkey, Option.or_none]

/-- Only the last rows count. -/
theorem get?_reverse_lastRows (rows : List (Text × α)) (key : Text) :
    get? (lastRows rows).reverse key = get? rows.reverse key := by
  induction rows with
  | nil => rfl
  | cons row rest ih =>
      rw [lastRows]
      by_cases hagain : row.1 ∈ keys rest
      · rw [if_pos hagain, ih, get?_reverse_cons_of_mem hagain]
      · rw [if_neg hagain, List.reverse_cons, List.reverse_cons, get?_append, get?_append, ih]

/-! ## tables that grow -/

/-- Whatever the first table holds, the second one holds as well. -/
def Within (t t' : Table α) : Prop := ∀ key value, get? t key = some value → get? t' key = some value

theorem Within.refl (t : Table α) : Within t t := fun _ _ h => h

theorem Within.trans {t t' t'' : Table α} (h : Within t t') (h' : Within t' t'') : Within t t'' :=
  fun key value hvalue => h' key value (h key value hvalue)

/-- A key that is set keeps its value. -/
theorem within_insertIfNew (t : Table α) (key : Text) (value : α) :
    Within t (insertIfNew t key value) := by
  intro other v hv
  unfold insertIfNew
  split
  · exact hv
  · rw [get?_append, hv, Option.some_or]

/-- A new key gets the value, a known one keeps its own. -/
theorem get?_insertIfNew (t : Table α) (key : Text) (value : α) (other : Text) :
    get? (insertIfNew t key value) other =
      (get? t other).or (if key = other then some value else none) := by
  unfold insertIfNew
  rw [contains_eq_isSome]
  split
  · next hknown =>
    by_cases hkey : key = other
    · obtain ⟨v, hv⟩ := Option.isSome_iff_exists.mp hknown
      rw [← hkey, hv, Option.some_or]
    · rw [if_neg hkey, Option.or_none]
  · rw [get?_append, get?_cons, get?_nil]

end SourceMerge.Table
