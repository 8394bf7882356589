import CueScript.Number.Decimal

set_option autoImplicit false

/-! # The shortest decimal of a floating point number

The decimal with the fewest digits that reads back as the number, and among those the nearest.
Where two are equally near, the format of the text says which one it takes. For each count of
digits there are two decimals to try, the nearest one below the number and the nearest one above
it. Seventeen digits always suffice; behind them stands the exact expansion, so that the search
needs no proof to end. -/

namespace CueScript.Number

/-- Which of two equally near decimals to take: the one further from zero, or the one whose last
    digit is even. -/
inductive Tie where
  | up
  | even
deriving DecidableEq, Repr

/-- Does a quotient go to the whole number below it, and not to the one above? -/
def Tie.goesDown (tie : Tie) (num den : Nat) : Bool :=
  match compare (2 * (num % den)) den with
  | .lt => true
  | .gt => false
  | .eq => tie = .even && num / den % 2 = 0

namespace Binary64

/-- The power of ten just above the number's leading digit: `10 ^ (k - 1) ≤ |x| < 10 ^ k`. -/
def leading (x : Binary64) : Int :=
  (digitCount (x.steps * Nat.pow 10 400 / stepsPerOne) : Int) - 400

/-- Does the decimal read back as the number? -/
def ReadBack (x : Binary64) (d : Decimal) : Prop := d.toBinary64? x.negative = some x

instance (x : Binary64) (d : Decimal) : Decidable (x.ReadBack d) := by
  unfold ReadBack
  infer_instance

/-- The better of the two neighbouring multiples of `10 ^ exponent`, if one reads back. -/
def neighbour? (x : Binary64) (tie : Tie) (exponent : Int) : Option Decimal :=
  let num := if 0 ≤ exponent then x.steps else x.steps * Nat.pow 10 (-exponent).toNat
  let den := if 0 ≤ exponent then stepsPerOne * Nat.pow 10 exponent.toNat else stepsPerOne
  let below : Decimal := ⟨num / den, exponent⟩
  let above : Decimal := ⟨num / den + 1, exponent⟩
  if x.ReadBack below then
    if x.ReadBack above then
      if tie.goesDown num den then some below else some above
    else some below
  else if x.ReadBack above then some above
  else none

/-- The number as a decimal, digit for digit. -/
def expansion (x : Binary64) : Decimal := ⟨x.steps * Nat.pow 5 1074, -1074⟩

/-- The decimal that stands for the number in a text. -/
def shortest (x : Binary64) (tie : Tie) : Decimal :=
  if x.steps = 0 then ⟨0, 0⟩
  else
    ((List.range 17).findSome? fun (i : Nat) =>
      x.neighbour? tie (x.leading - 1 - (i : Int))).getD x.expansion

/-- The number as text, in positional notation; a tie goes up. -/
def text (x : Binary64) : String :=
  String.ofList ((if x.negative then ['-'] else []) ++ (x.shortest .up).positional)

end Binary64

end CueScript.Number
