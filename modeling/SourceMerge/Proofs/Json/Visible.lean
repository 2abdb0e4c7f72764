import SourceMerge.Proofs.Json.RoundTrip

/-!
# SourceMerge.Proofs.Json.Visible

JSON is written with visible ASCII characters, whatever the value holds: numbers
are digits and signs, and every other character of a text is escaped.  So JSON can
be stored and carried in any encoding that has ASCII, and line ends are no matter.
-/

namespace SourceMerge

open Text

/-! ## numbers -/

theorem Text.visible_ofNat (n : Nat) : Visible (ofNat n) := by
  intro c hc
  have hdigit := Text.isDigit_of_mem_ofNat hc
  simp only [Char.isDigit, Bool.and_eq_true, decide_eq_true_eq] at hdigit
  have hlow : 48 ≤ c.toNat := hdigit.1
  have hhigh : c.toNat ≤ 57 := hdigit.2
  omega

namespace Json

theorem visible_ofInt (n : Int) : Visible (ofInt n) := by
  cases n with
  | ofNat n => exact visible_ofNat n
  | negSucc n => exact visible_cons.mpr ⟨by decide, visible_ofNat (n + 1)⟩

theorem visible_layout {digits : Text} (h : Visible digits) (point : Int) :
    Visible (Decimal.layout digits point) := by
  have hzeros : ∀ n, Visible (List.replicate n '0') := fun n => visible_replicate n (by decide)
  unfold Decimal.layout
  split
  · split
    · exact visible_append.mpr ⟨visible_append.mpr ⟨by decide, hzeros _⟩, h⟩
    · simp only
      split
      · exact visible_append.mpr ⟨visible_append.mpr ⟨h, hzeros _⟩, by decide⟩
      · exact visible_append.mpr ⟨visible_append.mpr ⟨h.subset (List.take_subset _ _), by decide⟩,
          h.subset (List.drop_subset _ _)⟩
  · refine visible_append.mpr ⟨visible_append.mpr ⟨?_, ?_⟩, ?_⟩
    · split
      · exact visible_nil
      · exact h
      · obtain ⟨hfirst, hrest⟩ := visible_cons.mp h
        exact visible_cons.mpr ⟨hfirst, visible_cons.mpr ⟨by decide, hrest⟩⟩
    · split <;> decide
    · unfold Text.padded
      exact visible_append.mpr ⟨hzeros _, visible_ofNat _⟩

theorem visible_renderFloat (x : Float) : Visible (renderFloat x) := by
  unfold renderFloat
  split
  · decide
  · split
    · split <;> decide
    · unfold Decimal.ofFloat
      simp only
      have hsign : Visible (if x.toBits.toNat / Nat.pow 2 63 = 1 then ['-'] else []) := by
        split <;> decide
      split
      · split
        · exact visible_append.mpr ⟨hsign, by decide⟩
        · decide
      · split
        · exact visible_append.mpr ⟨hsign, by decide⟩
        · exact visible_append.mpr ⟨hsign, visible_layout (visible_ofNat _) _⟩

/-! ## values -/

theorem visible_renderKey (d : Data) : Visible (renderKey d) := by
  unfold renderKey
  split <;> exact visible_renderText _

mutual

/-- **JSON is visible ASCII.** -/
theorem visible_render : ∀ d : Data, Visible (render d)
  | .null => by decide
  | .bool true => by decide
  | .bool false => by decide
  | .int n => visible_ofInt n
  | .float x => visible_renderFloat x
  | .text t => visible_renderText t
  | .list items =>
    visible_append.mpr ⟨visible_cons.mpr ⟨by decide, visible_renderItems items⟩, by decide⟩
  | .map entries =>
    visible_append.mpr ⟨visible_cons.mpr ⟨by decide, visible_renderMembers entries⟩, by decide⟩
  | .other v => visible_renderText v.display

theorem visible_renderItems : ∀ items : List Data, Visible (renderItems items)
  | [] => visible_nil
  | [d] => visible_render d
  | d :: e :: items =>
    visible_append.mpr
      ⟨visible_render d, visible_cons.mpr ⟨by decide, visible_renderItems (e :: items)⟩⟩

theorem visible_renderMembers : ∀ entries : List (Data × Data), Visible (renderMembers entries)
  | [] => visible_nil
  | [e] => visible_renderMember e
  | e :: next :: entries =>
    visible_append.mpr
      ⟨visible_renderMember e, visible_cons.mpr ⟨by decide, visible_renderMembers (next :: entries)⟩⟩

theorem visible_renderMember : ∀ e : Data × Data, Visible (renderMember e)
  | (k, v) =>
    visible_append.mpr ⟨visible_renderKey k, visible_cons.mpr ⟨by decide, visible_render v⟩⟩

end

end Json

end SourceMerge
