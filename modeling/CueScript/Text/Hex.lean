set_option autoImplicit false

/-! # Hexadecimal digits

Reading accepts both cases; writing uses small letters. -/

namespace CueScript.Text

/-- The value of a hexadecimal digit. -/
def hexValue? (c : Char) : Option Nat :=
  if '0' ≤ c && c ≤ '9' then some (c.toNat - '0'.toNat)
  else if 'a' ≤ c && c ≤ 'f' then some (c.toNat - 'a'.toNat + 10)
  else if 'A' ≤ c && c ≤ 'F' then some (c.toNat - 'A'.toNat + 10)
  else none

/-- The digit of a value below sixteen. -/
def hexDigit (n : Nat) : Char :=
  if n < 10 then Char.ofNat ('0'.toNat + n) else Char.ofNat ('a'.toNat + (n - 10))

/-- Two digits for a value below 256. -/
def hexPair (n : Nat) : List Char := [hexDigit (n / 16), hexDigit (n % 16)]

/-- A digit reads back as its value. -/
theorem hexValue?_hexDigit {n : Nat} (h : n < 16) : hexValue? (hexDigit n) = some n := by
  have all : ∀ k : Fin 16, hexValue? (hexDigit k.val) = some k.val := by decide
  exact all ⟨n, h⟩

/-- A digit has a value below sixteen. -/
theorem lt_of_hexValue? {c : Char} {n : Nat} (h : hexValue? c = some n) : n < 16 := by
  have hle : ∀ {a b : Char}, (a ≤ c && c ≤ b) = true → a.toNat ≤ c.toNat ∧ c.toNat ≤ b.toNat := by
    intro a b hab
    simpa only [Bool.and_eq_true, decide_eq_true_eq, Char.le_def, UInt32.le_iff_toNat_le,
      Char.toNat_val] using hab
  have hdigits : '9'.toNat - '0'.toNat = 9 := rfl
  have hsmall : 'f'.toNat - 'a'.toNat = 5 := rfl
  have hcapital : 'F'.toNat - 'A'.toNat = 5 := rfl
  unfold hexValue? at h
  split at h
  · next hc =>
    have := hle hc
    have := Option.some.inj h
    omega
  · split at h
    · next hc =>
      have := hle hc
      have := Option.some.inj h
      omega
    · split at h
      · next hc =>
        have := hle hc
        have := Option.some.inj h
        omega
      · cases h

end CueScript.Text
