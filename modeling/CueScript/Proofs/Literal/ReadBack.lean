import CueScript.Proofs.Literal.Grammar
import CueScript.Proofs.Number.ReadBack

set_option autoImplicit false

/-! # Literals read back

Text, dimensions and colors are shown in a form in which a command may name them again: text in
quotes, whatever it holds, a dimension as its amount in positional notation with the unit, a color
with six digits. What a literal stands for is therefore the literal of itself, however the first one
was spelled (`literal?_display`). Words are not: they are shown without their kind. -/

namespace CueScript

variable {α : Type}

/-- The text of a color is its long spelling. -/
theorem Color.exists_spelled_text (c : Color) :
    ∃ digits, c.text.toList = '#' :: digits ∧ c.Spelled digits := by
  have hdigit : ∀ channel : UInt8,
      Text.hexValue? (Text.hexDigit (channel.toNat / 16)) = some (channel.toNat / 16)
        ∧ Text.hexValue? (Text.hexDigit (channel.toNat % 16)) = some (channel.toNat % 16) := by
    intro channel
    have hlt := channel.toNat_lt
    exact ⟨Text.hexValue?_hexDigit (by omega), Text.hexValue?_hexDigit (by omega)⟩
  exact ⟨_, String.toList_ofList, .long (hdigit c.red).1 (hdigit c.red).2 (hdigit c.green).1
    (hdigit c.green).2 (hdigit c.blue).1 (hdigit c.blue).2⟩

/-- What is spelled is not negative. -/
theorem Dimension.Spelled.negative_amount {cs : List Char} {d : Dimension} (h : d.Spelled cs) :
    d.amount.negative = false := by
  obtain ⟨hdigit, hamount⟩ := h
  exact Number.Binary64.negative_of_read? hdigit hamount

/-- The text of a dimension spells it, if it is not negative. -/
theorem Dimension.spelled_text {d : Dimension} (h : d.amount.negative = false) :
    d.Spelled d.text.toList := by
  obtain ⟨c, rest, hcons, hdigit⟩ := Number.Binary64.exists_text_eq_cons h
  have hread := d.amount.read?_text
  rw [hcons] at hread
  rw [text, String.toList_append, hcons, List.cons_append]
  exact .mk hdigit hread

namespace Registry

variable {r : Registry α} {form : LiteralForm} {cs : List Char}

/-- A dimension is spelled in every literal that stands for it. -/
theorem Denotes.exists_spelled {d : Dimension} (h : r.Denotes form cs (.dimension d)) :
    ∃ raw, d.Spelled raw := by
  cases h with
  | dimension spelled => exact ⟨_, spelled⟩
  | assignment _ _ _ assigns =>
    cases assigns with
    | dimension spelled => exact ⟨_, spelled⟩

/-- **What a literal stands for is shown as a literal of itself**, unless it is a word. -/
theorem literal?_display (r : Registry α) (token : String) (v : Value)
    (hread : r.literal? token = some v) (hword : ∀ kind word, v ≠ .word kind word) :
    r.literal? v.display = some v := by
  rw [literal?_eq_some_iff]
  cases v with
  | word kind word => exact absurd rfl (hword kind word)
  | text content =>
    have hlist : (Value.text content).display.toList = '"' :: (content.toList ++ ['"']) := by
      simp [Value.display]
    have hquoted := Denotes.quoted (r := r) content.toList
    rw [String.ofList_toList, ← hlist] at hquoted
    exact ⟨.quoted, hquoted⟩
  | dimension d =>
    obtain ⟨form, hform⟩ := literal?_eq_some_iff.1 hread
    obtain ⟨raw, hraw⟩ := hform.exists_spelled
    exact ⟨.dimension, .dimension (Dimension.spelled_text hraw.negative_amount)⟩
  | color c =>
    obtain ⟨digits, hlist, hspelled⟩ := c.exists_spelled_text
    refine ⟨.color, ?_⟩
    rw [Value.display, hlist]
    exact .color hspelled

/-- A dimension that is spelled with an exponent is shown without one, and read back. -/
theorem literal?_display_exponent :
    let r : Registry Unit := .empty
    ∃ d : Dimension, r.literal? "dimension=125e-2cm" = some (.dimension d)
      ∧ (Value.dimension d).display = "1.25cm"
      ∧ r.literal? "1.25cm" = some (.dimension d) := by
  intro r
  have hread : r.literal? "dimension=125e-2cm"
      = some (.dimension ⟨⟨false, 5 * Nat.pow 2 1072, by decide +kernel⟩, .cm⟩) := by
    decide +kernel
  have hshown : (Value.dimension ⟨⟨false, 5 * Nat.pow 2 1072, by decide +kernel⟩, .cm⟩).display
      = "1.25cm" := by
    decide +kernel
  refine ⟨_, hread, hshown, ?_⟩
  rw [← hshown]
  exact literal?_display r _ _ hread fun kind word h => nomatch h

end Registry

end CueScript
