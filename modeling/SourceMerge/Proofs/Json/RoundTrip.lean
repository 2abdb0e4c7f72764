import SourceMerge.Proofs.Json.Escape
import SourceMerge.Table

/-!
# SourceMerge.Proofs.Json.RoundTrip

Values survive being written as JSON.  A value is read up to its last character
if a comma, a closing bracket or nothing follows; so the items of a list are
read one by one, and so are the members of an object.  Three kinds of values are
not kept: floating-point numbers, integers of too many digits, and objects with
keys that are no texts or not distinct (`Kept` leaves them out).
-/

namespace SourceMerge

/-! ## numerals -/

namespace Text

/-- The digits of a number denote it. -/
theorem numeral_ofNat (n : Nat) : numeral 10 (ofNat n) = n := by
  induction n using Nat.strongRecOn with
  | ind n ih =>
      unfold ofNat
      rw [Nat.toDigits_eq_if (by omega)]
      by_cases hn : n < 10
      · have hone : ∀ n < 10, numeral 10 [Nat.digitChar n] = n := by decide
        rw [if_pos hn]
        exact hone n hn
      · have hlast := hexValue?_digitChar (show n % 10 < 16 by omega)
        have hrest : (Nat.toDigits 10 (n / 10)).foldl
            (fun n c => 10 * n + (hexValue? c).getD 0) 0 = n / 10 := ih (n / 10) (by omega)
        rw [if_neg hn, numeral, List.foldl_append, hrest, List.foldl_cons, List.foldl_nil, hlast,
          Option.getD_some]
        omega

/-- No number but zero begins with a zero. -/
theorem ofNat_cases (n : Nat) :
    ofNat n = ['0'] ∨ ∃ c t, ofNat n = c :: t ∧ c ≠ '0' := by
  induction n using Nat.strongRecOn with
  | ind n ih =>
      unfold ofNat
      rw [Nat.toDigits_eq_if (by omega)]
      by_cases hn : n < 10
      · rw [if_pos hn]
        by_cases hzero : n = 0
        · exact .inl (by rw [hzero]; rfl)
        · exact .inr ⟨_, [], rfl, by simpa using hzero⟩
      · rw [if_neg hn]
        rcases ih (n / 10) (by omega) with hzero | ⟨c, t, hct, hc⟩
        · have hvalue := numeral_ofNat (n / 10)
          rw [hzero, show numeral 10 ['0'] = 0 from rfl] at hvalue
          omega
        · exact .inr ⟨c, t ++ [Nat.digitChar (n % 10)], by rw [← ofNat, hct]; rfl, hc⟩

theorem isDigit_of_mem_ofNat {n : Nat} {c : Char} (h : c ∈ ofNat n) : c.isDigit = true :=
  Nat.isDigit_of_mem_toDigits (by omega) (by omega) h

end Text

namespace Json

/-- A value that JSON keeps. -/
inductive Kept : Data → Prop where
  | null : Kept .null
  | bool (b : Bool) : Kept (.bool b)
  | int {n : Int} (h : (Text.ofNat n.natAbs).length ≤ maxIntegerDigits) : Kept (.int n)
  | text (t : Text) : Kept (.text t)
  | list {items : List Data} (h : ∀ d ∈ items, Kept d) : Kept (.list items)
  | map {rows : Table Data} (hkeys : (rows.map (·.1)).Nodup) (h : ∀ row ∈ rows, Kept row.2) :
      Kept (.map (rows.map fun row => (.text row.1, row.2)))

/-! ## numbers -/

/-- What follows a value: nothing, a comma or a closing bracket. -/
def Stops (rest : Text) : Prop := rest.head?.all (fun c => c == ',' || c == ']' || c == '\x7d') = true

theorem stops_nil : Stops [] := rfl

theorem stops_comma (rest : Text) : Stops (',' :: rest) := rfl

theorem stops_bracket (rest : Text) : Stops (']' :: rest) := rfl

theorem stops_brace (rest : Text) : Stops ('\x7d' :: rest) := rfl

theorem stops_cases {rest : Text} (h : Stops rest) :
    rest = [] ∨ ∃ c t, rest = c :: t ∧ (c = ',' ∨ c = ']' ∨ c = '\x7d') := by
  cases rest with
  | nil => exact .inl rfl
  | cons c t => exact .inr ⟨c, t, rfl, by simpa [Stops, or_assoc] using h⟩

/-- No number goes on behind a value. -/
theorem number_stops {rest : Text} (h : Stops rest) :
    digits rest = ([], rest) ∧ fraction? rest = none ∧ exponent? rest = none := by
  rcases stops_cases h with rfl | ⟨c, t, rfl, rfl | rfl | rfl⟩ <;>
    exact ⟨by simp [digits], rfl, rfl⟩

theorem digits_append {ds rest : Text} (h : ∀ c ∈ ds, c.isDigit = true) (hrest : Stops rest) :
    digits (ds ++ rest) = (ds, rest) := by
  have hstop := (number_stops hrest).1
  simp only [digits, Prod.mk.injEq] at hstop
  unfold digits
  rw [List.takeWhile_append_of_pos h, List.dropWhile_append_of_pos h, hstop.1, hstop.2,
    List.append_nil]

/-- An integer is read back behind its sign. -/
theorem unsigned?_ofNat {n : Nat} (h : (Text.ofNat n).length ≤ maxIntegerDigits) (negative : Bool)
    {rest : Text} (hrest : Stops rest) :
    unsigned? negative (Text.ofNat n ++ rest) =
      some (.int (if negative then -(n : Int) else n), rest) := by
  have hdigits := digits_append (fun c hc => Text.isDigit_of_mem_ofNat (n := n) hc) hrest
  obtain ⟨-, hfraction, hexponent⟩ := number_stops hrest
  have hvalue := Text.numeral_ofNat n
  rcases Text.ofNat_cases n with hzero | ⟨c, t, hct, hc⟩
  · rw [hzero] at h hvalue ⊢
    simp only [List.singleton_append, unsigned?, hfraction, hexponent, Option.getD_none, if_true,
      if_pos h, hvalue]
  · rw [hct] at h hvalue hdigits ⊢
    simp only [List.cons_append] at hdigits ⊢
    unfold unsigned?
    split
    · next heq => exact absurd (List.cons.inj heq).1 hc
    · simp only [hdigits, hfraction, hexponent, Option.getD_none, if_true, if_pos h, hvalue]

/-! ## how values begin -/

/-- A character with which a value may begin. -/
def Opens (c : Char) : Prop :=
  c ≠ ']' ∧ c ≠ ' ' ∧ c ≠ '\t' ∧ c ≠ '\n' ∧ c ≠ '\r'

theorem opens_of_isDigit {c : Char} (h : c.isDigit = true) : Opens c := by
  refine ⟨?_, ?_, ?_, ?_, ?_⟩ <;> rintro rfl <;> contradiction

theorem skipBlanks_cons {c : Char} (h : Opens c) (t : Text) : skipBlanks (c :: t) = c :: t := by
  obtain ⟨-, hspace, htab, hline, hreturn⟩ := h
  exact List.dropWhile_cons_of_neg (by simp [hspace, htab, hline, hreturn])

theorem Kept.render_eq_cons {d : Data} (h : Kept d) : ∃ c t, render d = c :: t ∧ Opens c := by
  cases h with
  | null => exact ⟨'n', _, rfl, by simp [Opens]⟩
  | bool b => cases b with
    | false => exact ⟨'f', _, rfl, by simp [Opens]⟩
    | true => exact ⟨'t', _, rfl, by simp [Opens]⟩
  | @int n =>
      cases n with
      | ofNat n =>
          obtain ⟨c, t, hct⟩ := List.exists_cons_of_ne_nil (Nat.toDigits_ne_nil (n := n) (b := 10))
          have hc : c ∈ Text.ofNat n := by rw [Text.ofNat, hct]; exact List.mem_cons_self
          exact ⟨c, t, hct, opens_of_isDigit (Text.isDigit_of_mem_ofNat hc)⟩
      | negSucc n => exact ⟨'-', _, rfl, by simp [Opens]⟩
  | text t => exact ⟨'"', _, rfl, by simp [Opens]⟩
  | list => exact ⟨'[', _, rfl, by simp [Opens]⟩
  | map => exact ⟨'\x7b', _, rfl, by simp [Opens]⟩

/-! ## values -/

theorem word?_of_isDigit {c : Char} (h : c.isDigit = true) (t : Text) : word? (c :: t) = none := by
  have hn : c ≠ 'n' := by rintro rfl; contradiction
  have ht : c ≠ 't' := by rintro rfl; contradiction
  have hf : c ≠ 'f' := by rintro rfl; contradiction
  have hN : c ≠ 'N' := by rintro rfl; contradiction
  have hI : c ≠ 'I' := by rintro rfl; contradiction
  have hm : c ≠ '-' := by rintro rfl; contradiction
  simp [word?, Text.dropStart?, hn.symm, ht.symm, hf.symm, hN.symm, hI.symm, hm.symm]

/-- An integer is read back. -/
theorem value?_ofInt {n : Int} (h : (Text.ofNat n.natAbs).length ≤ maxIntegerDigits) (fuel : Nat)
    {rest : Text} (hrest : Stops rest) :
    value? (fuel + 1) (Text.ofInt n ++ rest) = some (.int n, rest) := by
  cases n with
  | ofNat n =>
      have hread := unsigned?_ofNat h false hrest
      obtain ⟨c, t, hct⟩ := List.exists_cons_of_ne_nil (Nat.toDigits_ne_nil (n := n) (b := 10))
      have hdigit : c.isDigit = true :=
        Text.isDigit_of_mem_ofNat (n := n) (by rw [Text.ofNat, hct]; exact List.mem_cons_self)
      have hcons : Text.ofInt (.ofNat n) ++ rest = c :: (t ++ rest) := by
        rw [Text.ofInt, Text.ofNat, hct, List.cons_append]
      have hother : ∀ d, d.isDigit = false → ∀ r, c :: (t ++ rest) ≠ d :: r := by
        intro d hd r heq
        rw [(List.cons.inj heq).1, hd] at hdigit
        contradiction
      rw [hcons, value?.eq_6 _ _ (hother '"' rfl) (hother '[' rfl) (hother '\x7b' rfl)
        (hother '-' rfl), word?_of_isDigit hdigit, ← hcons]
      exact hread
  | negSucc n =>
      have hread := unsigned?_ofNat (n := n + 1) h true hrest
      obtain ⟨c, t, hct⟩ :=
        List.exists_cons_of_ne_nil (Nat.toDigits_ne_nil (n := n + 1) (b := 10))
      have hdigit : c.isDigit = true :=
        Text.isDigit_of_mem_ofNat (n := n + 1) (by rw [Text.ofNat, hct]; exact List.mem_cons_self)
      have hword : word? ('-' :: (Text.ofNat (n + 1) ++ rest)) = none := by
        have hI : c ≠ 'I' := by rintro rfl; contradiction
        rw [Text.ofNat, hct]
        simp [word?, Text.dropStart?, hI.symm]
      rw [Text.ofInt, List.cons_append, value?, hword]
      exact hread

theorem renderItems_eq_cons {d : Data} (h : Kept d) (items : List Data) :
    ∃ c t, renderItems (d :: items) = c :: t ∧ Opens c := by
  obtain ⟨c, t, hct, hopens⟩ := h.render_eq_cons
  cases items with
  | nil => exact ⟨c, t, by rw [renderItems, hct], hopens⟩
  | cons e items => exact ⟨c, _, by rw [renderItems, hct, List.cons_append]; simp, hopens⟩

/-- A value is read back with fuel enough, if what follows it can follow a value. -/
def ReadBack (d : Data) : Prop :=
  ∀ fuel rest, Stops rest → 2 * (render d).length ≤ fuel →
    value? fuel (render d ++ rest) = some (d, rest)

/-- Every value takes fuel. -/
theorem Kept.readBack {d : Data} (hd : Kept d)
    (h : ∀ fuel rest, Stops rest → 2 * (render d).length ≤ fuel + 1 →
      value? (fuel + 1) (render d ++ rest) = some (d, rest)) : ReadBack d := by
  intro fuel rest hrest hfuel
  obtain ⟨c, t, hct, -⟩ := hd.render_eq_cons
  cases fuel with
  | zero => simp [hct] at hfuel
  | succ fuel => exact h fuel rest hrest hfuel

/-- The items of a list are read back one by one. -/
theorem items?_renderItems {items : List Data} (hne : items ≠ []) (hkept : ∀ d ∈ items, Kept d)
    (h : ∀ d ∈ items, ReadBack d)
    {fuel : Nat} (hfuel : 2 * (renderItems items).length + 1 ≤ fuel) (rest : Text) :
    items? fuel (renderItems items ++ ']' :: rest) = some (items, rest) := by
  induction items generalizing fuel with
  | nil => exact absurd rfl hne
  | cons d items ih =>
      obtain ⟨fuel, rfl⟩ : ∃ n, fuel = n + 1 := ⟨fuel - 1, by omega⟩
      have hd := h d List.mem_cons_self
      cases items with
      | nil =>
          rw [renderItems] at hfuel ⊢
          rw [items?, hd _ _ (stops_bracket rest) (by omega)]
          rfl
      | cons e items =>
          have hrender : renderItems (d :: e :: items) =
              render d ++ ',' :: renderItems (e :: items) := by rw [renderItems]; simp
          rw [hrender, List.length_append, List.length_cons] at hfuel
          obtain ⟨c, t, hct, hopens⟩ := renderItems_eq_cons (hkept e (by simp)) items
          have htail : items? fuel (renderItems (e :: items) ++ ']' :: rest) =
              some (e :: items, rest) :=
            ih (by simp) (fun e he => hkept e (List.mem_cons_of_mem d he))
              (fun e he => h e (List.mem_cons_of_mem d he)) (by omega)
          have hskip : skipBlanks (renderItems (e :: items) ++ ']' :: rest) =
              renderItems (e :: items) ++ ']' :: rest := by
            rw [hct, List.cons_append, skipBlanks_cons hopens]
          rw [hrender, List.append_assoc, List.cons_append, items?,
            hd _ _ (stops_comma _) (by omega)]
          change Option.map _ (items? fuel (skipBlanks _)) = _
          rw [hskip, htail, Option.map_some]

/-- The members of an object. -/
def membersOf (rows : Table Data) : List (Data × Data) := rows.map fun row => (.text row.1, row.2)

/-- A member is read back, and what follows it says whether there are more. -/
theorem members?_renderMember (key : Text) {d : Data} (hkept : Kept d) {fuel : Nat} {after : Text}
    (hread : value? fuel (render d ++ after) = some (d, after)) :
    members? (fuel + 1) (renderMember (.text key, d) ++ after) =
      match skipBlanks after with
      | '\x7d' :: rest => some ([(.text key, d)], rest)
      | ',' :: rest =>
        (members? fuel (skipBlanks rest)).map fun (es, rest) => ((.text key, d) :: es, rest)
      | _ => none := by
  obtain ⟨c, t, hct, hopens⟩ := hkept.render_eq_cons
  have hskip : skipBlanks (render d ++ after) = render d ++ after := by
    rw [hct, List.cons_append, skipBlanks_cons hopens]
  have hmember : renderMember (.text key, d) ++ after =
      '"' :: (key.flatMap escapeChar ++ '"' :: ':' :: (render d ++ after)) := by
    simp [renderMember, renderKey, renderText]
  have hcolon : skipBlanks (':' :: (render d ++ after)) = ':' :: (render d ++ after) :=
    skipBlanks_cons (by simp [Opens]) _
  rw [hmember, members?, string?_flatMap]
  simp only [hcolon, hskip]
  generalize value? fuel (render d ++ after) = answer at hread ⊢
  subst hread
  rfl

theorem length_renderMember (key : Text) (d : Data) :
    (render d).length + 3 ≤ (renderMember (.text key, d)).length := by
  simp only [renderMember, renderKey, renderText, List.length_append, List.length_cons]
  omega

theorem renderMembers_eq_cons (row : Text × Data) (rows : Table Data) :
    ∃ t, renderMembers (membersOf (row :: rows)) = '"' :: t := by
  cases rows <;> exact ⟨_, rfl⟩

/-- The members of an object are read back one by one. -/
theorem members?_renderMembers {rows : Table Data} (hne : rows ≠ [])
    (hkept : ∀ row ∈ rows, Kept row.2)
    (h : ∀ row ∈ rows, ReadBack row.2)
    {fuel : Nat} (hfuel : 2 * (renderMembers (membersOf rows)).length ≤ fuel) (rest : Text) :
    members? fuel (renderMembers (membersOf rows) ++ '\x7d' :: rest) =
      some (membersOf rows, rest) := by
  induction rows generalizing fuel with
  | nil => exact absurd rfl hne
  | cons row rows ih =>
      obtain ⟨key, d⟩ := row
      have hd : ReadBack d := h (key, d) List.mem_cons_self
      have hread := @members?_renderMember key d (hkept (key, d) List.mem_cons_self)
      have hlength := length_renderMember key d
      cases rows with
      | nil =>
          have hrender : renderMembers (membersOf [(key, d)]) = renderMember (.text key, d) := rfl
          rw [hrender] at hfuel ⊢
          obtain ⟨fuel, rfl⟩ : ∃ n, fuel = n + 1 := ⟨fuel - 1, by omega⟩
          rw [hread (hd _ _ (stops_brace rest) (by omega))]
          rfl
      | cons next rows =>
          have hrender : renderMembers (membersOf ((key, d) :: next :: rows)) =
              renderMember (.text key, d) ++ ',' :: renderMembers (membersOf (next :: rows)) := rfl
          rw [hrender, List.length_append, List.length_cons] at hfuel
          obtain ⟨fuel, rfl⟩ : ∃ n, fuel = n + 1 := ⟨fuel - 1, by omega⟩
          have htail : members? fuel (renderMembers (membersOf (next :: rows)) ++ '\x7d' :: rest) =
              some (membersOf (next :: rows), rest) :=
            ih (by simp) (fun row hrow => hkept row (List.mem_cons_of_mem _ hrow))
              (fun row hrow => h row (List.mem_cons_of_mem _ hrow)) (by omega)
          obtain ⟨t, ht⟩ := renderMembers_eq_cons next rows
          have hskip : skipBlanks (renderMembers (membersOf (next :: rows)) ++ '\x7d' :: rest) =
              renderMembers (membersOf (next :: rows)) ++ '\x7d' :: rest := by
            rw [ht, List.cons_append, skipBlanks_cons (by simp [Opens])]
          rw [hrender, List.append_assoc, List.cons_append,
            hread (hd _ _ (stops_comma _) (by omega)), skipBlanks_cons (by simp [Opens])]
          change Option.map _ (members? fuel (skipBlanks _)) = _
          rw [hskip, htail, Option.map_some]
          rfl

/-- A member with a new key is put behind the others. -/
theorem insert_membersOf {known : Table Data} {key : Text} (h : key ∉ known.map (·.1)) (d : Data) :
    Entries.insert (membersOf known) (.text key) d = membersOf (known ++ [(key, d)]) := by
  induction known with
  | nil => rfl
  | cons row known ih =>
      rw [List.map_cons, List.mem_cons, not_or] at h
      have hsame : Data.same (.text row.1) (.text key) = false := by
        simpa [Data.same] using Ne.symm h.1
      have hcons : membersOf (row :: known) = (.text row.1, row.2) :: membersOf known := rfl
      rw [hcons, Entries.insert, hsame, if_neg Bool.false_ne_true, ih h.2]
      rfl

theorem foldl_insert_membersOf {known rows : Table Data}
    (h : ((known ++ rows).map (·.1)).Nodup) :
    (membersOf rows).foldl (fun entries e => Entries.insert entries e.1 e.2) (membersOf known) =
      membersOf (known ++ rows) := by
  induction rows generalizing known with
  | nil => simp [membersOf]
  | cons row rows ih =>
      have hmove : known ++ row :: rows = (known ++ [row]) ++ rows := by simp
      rw [hmove] at h ⊢
      have hkey : row.1 ∉ known.map (·.1) := by
        rw [List.map_append, List.map_append] at h
        have hdisjoint := (List.nodup_append.mp (List.nodup_append.mp h).1).2.2
        exact fun hmem => hdisjoint _ hmem _ (by simp) rfl
      rw [← ih h, ← insert_membersOf hkey row.2]
      rfl

/-- Members with distinct keys are the entries of their object. -/
theorem ofList_membersOf {rows : Table Data} (h : (rows.map (·.1)).Nodup) :
    Entries.ofList (membersOf rows) = membersOf rows :=
  @foldl_insert_membersOf [] rows h

/-- A list is read back if its items are. -/
theorem value?_list {items : List Data} (hkept : ∀ d ∈ items, Kept d)
    (h : ∀ d ∈ items, ReadBack d) {fuel : Nat} {rest : Text}
    (hfuel : 2 * (render (.list items)).length ≤ fuel + 1) :
    value? (fuel + 1) (render (.list items) ++ rest) = some (.list items, rest) := by
  have hrender : render (.list items) = '[' :: renderItems items ++ [']'] := by rw [render]
  have hlength := congrArg List.length hrender
  simp only [List.length_append, List.length_cons, List.length_nil] at hlength
  rw [hrender, List.append_assoc, List.cons_append, List.singleton_append, value?]
  cases items with
  | nil => rfl
  | cons d items =>
      obtain ⟨c, t, hct, hopens⟩ := renderItems_eq_cons (hkept d List.mem_cons_self) items
      have hskip : skipBlanks (renderItems (d :: items) ++ ']' :: rest) =
          renderItems (d :: items) ++ ']' :: rest := by
        rw [hct, List.cons_append, skipBlanks_cons hopens]
      rw [hskip]
      split
      · next heq =>
        rw [hct] at heq
        exact absurd (List.cons.inj heq).1 hopens.1
      · rw [items?_renderItems (by simp) hkept h (by omega), Option.map_some]

/-- An object is read back if what its members hold is. -/
theorem value?_map {rows : Table Data} (hkeys : (rows.map (·.1)).Nodup)
    (hkept : ∀ row ∈ rows, Kept row.2) (h : ∀ row ∈ rows, ReadBack row.2) {fuel : Nat}
    {rest : Text} (hfuel : 2 * (render (.map (membersOf rows))).length ≤ fuel + 1) :
    value? (fuel + 1) (render (.map (membersOf rows)) ++ rest) =
      some (.map (membersOf rows), rest) := by
  have hrender : render (.map (membersOf rows)) =
      '\x7b' :: renderMembers (membersOf rows) ++ ['\x7d'] := by rw [render]
  have hlength := congrArg List.length hrender
  simp only [List.length_append, List.length_cons, List.length_nil] at hlength
  rw [hrender, List.append_assoc, List.cons_append, List.singleton_append, value?]
  cases rows with
  | nil => rfl
  | cons row rows =>
      obtain ⟨t, ht⟩ := renderMembers_eq_cons row rows
      have hskip : skipBlanks (renderMembers (membersOf (row :: rows)) ++ '\x7d' :: rest) =
          renderMembers (membersOf (row :: rows)) ++ '\x7d' :: rest := by
        rw [ht, List.cons_append, skipBlanks_cons (by simp [Opens])]
      rw [hskip]
      split
      · next heq =>
        rw [ht] at heq
        exact absurd (List.cons.inj heq).1 (by simp)
      · rw [members?_renderMembers (by simp) hkept h (by omega), Option.map_some]
        simp only [ofList_membersOf hkeys]

/-- A kept value is read back. -/
theorem Kept.read {d : Data} (h : Kept d) : ReadBack d := by
  induction h with
  | null => exact Kept.null.readBack fun _ _ _ _ => rfl
  | bool b =>
      refine (Kept.bool b).readBack fun _ _ _ _ => ?_
      cases b <;> rfl
  | int h => exact (Kept.int h).readBack fun fuel _ hrest _ => value?_ofInt h fuel hrest
  | text t =>
      refine (Kept.text t).readBack fun fuel rest _ _ => ?_
      have hrender : render (.text t) ++ rest = '"' :: (t.flatMap escapeChar ++ '"' :: rest) := by
        simp [render, renderText]
      rw [hrender, value?, string?_flatMap, Option.map_some]
  | list h ih => exact (Kept.list h).readBack fun _ _ _ hfuel => value?_list h ih hfuel
  | map hkeys h ih => exact (Kept.map hkeys h).readBack fun _ _ _ hfuel => value?_map hkeys h ih hfuel

/-- **JSON is read back.** -/
theorem parse?_render {d : Data} (h : Kept d) : parse? (render d) = some d := by
  obtain ⟨c, t, hct, hopens⟩ := h.render_eq_cons
  have hread := h.read (2 * (render d).length + 2) [] stops_nil (by omega)
  rw [List.append_nil] at hread
  have hskip : skipBlanks (render d) = render d := by rw [hct, skipBlanks_cons hopens]
  rw [parse?, hskip, hread]
  rfl

end Json

end SourceMerge
