set_option autoImplicit false

/-! # Finite binary floating point numbers

The finite numbers of the 64-bit binary format, as exact values. The smallest positive number of
the format is one *step*, 2 ^ -1074, and every finite number is a whole count of steps, so a value
is a sign and a natural number. A count is representable when everything below its 53 leading bits
is zero and it is below 2 ^ 2098.

Arithmetic and reading go through one function, `ofQuotient?`: the number nearest to an exact
quotient, of two equally near the one with an even last bit. It returns nothing when the quotient
lies beyond the largest finite number. -/

namespace CueScript.Number

/-- How many steps make one. -/
def stepsPerOne : Nat := Nat.pow 2 1074

/-- How many low bits of a count lie below its 53 leading bits. -/
def lowBits (n : Nat) : Nat := n.log2 - 52

/-- Every count of steps of the format is below this one. -/
def stepLimit : Nat := Nat.pow 2 2098

/-- Is this count of steps a number of the format? -/
def Representable (n : Nat) : Prop := n % Nat.pow 2 (lowBits n) = 0 ∧ n < stepLimit

instance (n : Nat) : Decidable (Representable n) := by
  unfold Representable
  infer_instance

theorem stepLimit_pos : 0 < stepLimit := by
  unfold stepLimit
  generalize 2098 = k
  exact Nat.two_pow_pos k

theorem representable_zero : Representable 0 := ⟨Nat.zero_mod _, stepLimit_pos⟩

/-- A finite number of the format. Zero has both signs. -/
structure Binary64 where
  negative : Bool
  steps : Nat
  representable : Representable steps
deriving DecidableEq

/-- The quotient rounded to the nearest whole number, of two equally near the even one. -/
def roundQuotient (num den : Nat) : Nat :=
  let low := num / den
  let twice := 2 * (num % den)
  if den < twice || (twice == den && low % 2 == 1) then low + 1 else low

/-- The quotient rounded to the nearest count whose bits below the 53 leading ones are zero. -/
def roundSteps (num den : Nat) : Nat :=
  let unit := Nat.pow 2 (lowBits (num / den))
  roundQuotient num (den * unit) * unit

namespace Binary64

/-- The number nearest to `num / den`, with the given sign; nothing if it is too large. -/
def ofQuotient? (negative : Bool) (num den : Nat) : Option Binary64 :=
  let steps := roundSteps (num * stepsPerOne) den
  if h : Representable steps then some ⟨negative, steps, h⟩ else none

/-- Zero with the given sign. -/
def zero (negative : Bool) : Binary64 := ⟨negative, 0, representable_zero⟩

/-- The number nearest to the product. -/
def mul? (x y : Binary64) : Option Binary64 :=
  ofQuotient? (x.negative != y.negative) (x.steps * y.steps) (stepsPerOne * stepsPerOne)

/-- The number nearest to the quotient, for a divisor other than zero. -/
def div? (x y : Binary64) : Option Binary64 :=
  ofQuotient? (x.negative != y.negative) x.steps y.steps

end Binary64

end CueScript.Number
