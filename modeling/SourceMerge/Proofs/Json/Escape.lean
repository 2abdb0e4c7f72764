import SourceMerge.Json.Parser
import SourceMerge.Json.Printer
import SourceMerge.Proofs.Text.Ascii

/-!
# SourceMerge.Proofs.Json.Escape

Texts survive being written as JSON strings.  Each character is written so that
reading stops behind it: short escapes and visible characters are told apart by
their first character, a UTF-16 unit takes four digits, and two units of which
the first is a high surrogate make one character again.
-/

namespace SourceMerge

/-! ## hexadecimal digits -/

namespace Text

theorem hex_succ (width n : Nat) (h : 0 < width) :
    hex (width + 1) n = hex width (n / 16) ++ [(n % 16).digitChar] := by
  unfold hex
  rw [Nat.toDigits_eq_if (b := 16) (n := n) (by omega)]
  by_cases hn : n < 16
  · obtain ⟨w, rfl⟩ : ∃ w, width = w + 1 := ⟨width - 1, by omega⟩
    simp [hn, Nat.div_eq_of_lt hn, Nat.mod_eq_of_lt hn, List.replicate_succ']
  · simp [hn]

/-- The four digits of a number that has no more. -/
theorem hex_four {n : Nat} (h : n < 0x10000) :
    hex 4 n = [(n / 4096).digitChar, (n / 256 % 16).digitChar, (n / 16 % 16).digitChar,
      (n % 16).digitChar] := by
  have hone : hex 1 (n / 16 / 16 / 16) = [(n / 16 / 16 / 16).digitChar] := by
    rw [hex, Nat.toDigits_of_lt_base (by omega)]
    rfl
  rw [hex_succ 3 n (by omega), hex_succ 2 _ (by omega), hex_succ 1 _ (by omega), hone]
  simp [Nat.div_div_eq_div_mul]

theorem hexValue?_digitChar {n : Nat} (h : n < 16) : hexValue? n.digitChar = some n :=
  (by decide : ∀ n < 16, hexValue? (Nat.digitChar n) = some n) n h

theorem visible_digitChar {n : Nat} (h : n < 16) :
    0x20 ≤ n.digitChar.toNat ∧ n.digitChar.toNat < 0x7F :=
  (by decide : ∀ n < 16, 0x20 ≤ (Nat.digitChar n).toNat ∧ (Nat.digitChar n).toNat < 0x7F) n h

end Text

namespace Json

/-- Four digits are read back. -/
theorem hexUnit?_hex {n : Nat} (h : n < 0x10000) (rest : Text) :
    hexUnit? (Text.hex 4 n ++ rest) = some (n, rest) := by
  rw [Text.hex_four h]
  simp only [List.cons_append, List.nil_append, hexUnit?,
    Text.hexValue?_digitChar (show n / 4096 < 16 by omega),
    Text.hexValue?_digitChar (Nat.mod_lt _ (show 16 > 0 by omega))]
  rw [show n / 4096 * 4096 + n / 256 % 16 * 256 + n / 16 % 16 * 16 + n % 16 = n by omega]

theorem visible_unitEscape {n : Nat} (h : n < 0x10000) : Text.Visible (unitEscape n) := by
  rw [unitEscape, Text.hex_four h]
  simp only [Text.visible_cons, Text.visible_digitChar (show n / 4096 < 16 by omega),
    Text.visible_digitChar (Nat.mod_lt _ (show 16 > 0 by omega)), Text.visible_nil]
  decide

/-! ## characters -/

/-- A unit that is no surrogate stands for its character. -/
theorem escape?_unit {c : Char} (h : c.toNat < 0x10000) (rest : Text) :
    escape? ('u' :: (Text.hex 4 c.toNat ++ rest)) = some (c, rest) := by
  have hvalid : c.toNat.isValidChar := c.valid
  have hnone : ¬ (0xD800 ≤ c.toNat ∧ c.toNat < 0xDC00) := by
    rcases hvalid with h | ⟨h, -⟩ <;> omega
  simp only [escape?, hexUnit?_hex h, if_neg hnone, unitChar, if_pos hvalid, Char.ofNat_toNat]

/-- Two surrogates stand for one character. -/
theorem escape?_pair {n : Nat} (h : n < 0x100000) (rest : Text) :
    escape? ('u' :: (Text.hex 4 (0xD800 + n / 0x400) ++
        (unitEscape (0xDC00 + n % 0x400) ++ rest))) =
      some (Char.ofNat (0x10000 + n), rest) := by
  have hhigh : 0xD800 + n / 0x400 < 0xDC00 := by omega
  have hlow : 0xDC00 + n % 0x400 < 0xE000 := by omega
  simp only [escape?, hexUnit?_hex (show 0xD800 + n / 0x400 < 0x10000 by omega), unitEscape,
    List.cons_append, hexUnit?_hex (show 0xDC00 + n % 0x400 < 0x10000 by omega),
    if_pos (show 0xD800 ≤ 0xD800 + n / 0x400 ∧ 0xD800 + n / 0x400 < 0xDC00 by omega),
    if_pos (show 0xDC00 ≤ 0xDC00 + n % 0x400 ∧ 0xDC00 + n % 0x400 < 0xE000 by omega)]
  rw [show 0x10000 + (0xD800 + n / 0x400 - 0xD800) * 0x400 + (0xDC00 + n % 0x400 - 0xDC00) =
    0x10000 + n by omega]

/-- Behind a backslash an escape is read as one character. -/
theorem stringBody?_escape {fuel : Nat} {t rest : Text} {c : Char}
    (h : escape? t = some (c, rest)) :
    stringBody? (fuel + 1) ('\\' :: t) =
      (stringBody? fuel rest).map fun (body, after) => (c :: body, after) := by
  rw [stringBody?]
  simp only [h]

theorem stringBody?_plain {c : Char} (hquote : c ≠ '"') (hback : c ≠ '\\') (hlow : 0x20 ≤ c.toNat)
    (fuel : Nat) (rest : Text) :
    stringBody? (fuel + 1) (c :: rest) =
      (stringBody? fuel rest).map fun (body, after) => (c :: body, after) := by
  rw [stringBody?.eq_5 _ _ _ hquote hback, if_neg (by omega)]

theorem toNat_lt (c : Char) : c.toNat < 0x110000 := by
  have hvalid : c.toNat.isValidChar := c.valid
  rcases hvalid with h | ⟨-, h⟩
  · omega
  · exact h

/-- The ways in which a character is written: behind a backslash, as it is, as a
UTF-16 unit, or as two surrogates. -/
theorem escapeChar_cases (c : Char) :
    (∃ e, escapeChar c = ['\\', e] ∧ Text.Visible ['\\', e] ∧
      ∀ rest, escape? (e :: rest) = some (c, rest)) ∨
    (escapeChar c = [c] ∧ c ≠ '"' ∧ c ≠ '\\' ∧ 0x20 ≤ c.toNat ∧ c.toNat < 0x7F) ∨
    (escapeChar c = unitEscape c.toNat ∧ c.toNat < 0x10000) ∨
    ∃ n, escapeChar c = unitEscape (0xD800 + n / 0x400) ++ unitEscape (0xDC00 + n % 0x400) ∧
      n < 0x100000 ∧ Char.ofNat (0x10000 + n) = c := by
  have hnamed : ∀ {n : Nat}, c.toNat = n → Char.ofNat n = c := by
    rintro n rfl
    exact Char.ofNat_toNat c
  fun_cases escapeChar c with
  | case1 h => exact .inl ⟨_, rfl, by decide, fun _ => by rw [h]; rfl⟩
  | case2 _ h => exact .inl ⟨_, rfl, by decide, fun _ => by rw [h]; rfl⟩
  | case3 _ _ h => exact .inl ⟨_, rfl, by decide, fun _ => by rw [h]; rfl⟩
  | case4 _ _ _ h => exact .inl ⟨_, rfl, by decide, fun _ => by rw [h]; rfl⟩
  | case5 _ _ _ _ h => exact .inl ⟨_, rfl, by decide, fun _ => by rw [h]; rfl⟩
  | case6 _ _ _ _ _ h => exact .inl ⟨_, rfl, by decide, fun _ => by rw [← hnamed h]; rfl⟩
  | case7 _ _ _ _ _ _ h => exact .inl ⟨_, rfl, by decide, fun _ => by rw [← hnamed h]; rfl⟩
  | case8 hquote hback _ _ _ _ _ h => exact .inr (.inl ⟨rfl, hquote, hback, h⟩)
  | case9 _ _ _ _ _ _ _ _ h => exact .inr (.inr (.inl ⟨rfl, h⟩))
  | case10 _ _ _ _ _ _ _ _ _ n =>
      have hlt := toNat_lt c
      have hn : c.toNat = 0x10000 + n := by omega
      exact .inr (.inr (.inr ⟨n, rfl, by omega, hnamed hn⟩))

/-- A character is read back. -/
theorem stringBody?_escapeChar (c : Char) (fuel : Nat) (rest : Text) :
    stringBody? (fuel + 1) (escapeChar c ++ rest) =
      (stringBody? fuel rest).map fun (body, after) => (c :: body, after) := by
  rcases escapeChar_cases c with
    ⟨e, hform, -, hread⟩ | ⟨hform, hquote, hback, hlow, -⟩ | ⟨hform, hunit⟩ | ⟨n, hform, hn, hchar⟩
  · rw [hform]
    exact stringBody?_escape (hread rest)
  · rw [hform]
    exact stringBody?_plain hquote hback hlow fuel rest
  · rw [hform]
    exact stringBody?_escape (escape?_unit hunit rest)
  · rw [hform, List.append_assoc, ← hchar]
    exact stringBody?_escape (escape?_pair hn rest)

/-- A character is written with visible ones. -/
theorem visible_escapeChar (c : Char) : Text.Visible (escapeChar c) := by
  rcases escapeChar_cases c with
    ⟨e, hform, hvisible, -⟩ | ⟨hform, -, -, hvisible⟩ | ⟨hform, hunit⟩ | ⟨n, hform, hn, -⟩
  · rwa [hform]
  · rw [hform]
    exact Text.visible_cons.mpr ⟨hvisible, Text.visible_nil⟩
  · rw [hform]
    exact visible_unitEscape hunit
  · rw [hform, Text.visible_append]
    exact ⟨visible_unitEscape (by omega), visible_unitEscape (by omega)⟩

/-! ## strings -/

theorem escapeChar_ne_nil (c : Char) : escapeChar c ≠ [] := by
  fun_cases escapeChar c <;> exact List.cons_ne_nil _ _

/-- Characters up to the closing quote are read back. -/
theorem stringBody?_flatMap (t rest : Text) {fuel : Nat} (h : t.length < fuel) :
    stringBody? fuel (t.flatMap escapeChar ++ '"' :: rest) = some (t, rest) := by
  induction t generalizing fuel with
  | nil =>
      obtain ⟨fuel, rfl⟩ : ∃ n, fuel = n + 1 := ⟨fuel - 1, by omega⟩
      rfl
  | cons c t ih =>
      rw [List.length_cons] at h
      obtain ⟨fuel, rfl⟩ : ∃ n, fuel = n + 1 := ⟨fuel - 1, by omega⟩
      rw [List.flatMap_cons, List.append_assoc, stringBody?_escapeChar, ih (by omega),
        Option.map_some]

/-- **A string is read back.** -/
theorem string?_flatMap (t rest : Text) :
    string? (t.flatMap escapeChar ++ '"' :: rest) = some (t, rest) := by
  refine stringBody?_flatMap t rest ?_
  have hlength : t.length ≤ (t.flatMap escapeChar).length := by
    induction t with
    | nil => simp
    | cons c t ih =>
        have hpos := List.length_pos_iff.mpr (escapeChar_ne_nil c)
        rw [List.flatMap_cons, List.length_append, List.length_cons]
        omega
  rw [List.length_append]
  omega

theorem visible_renderText (t : Text) : Text.Visible (renderText t) := by
  have hbody : Text.Visible (t.flatMap escapeChar) :=
    Text.visible_flatMap fun c _ => visible_escapeChar c
  rw [renderText, Text.visible_append, Text.visible_cons]
  exact ⟨⟨by decide, hbody⟩, by decide⟩

end Json

end SourceMerge
