import CueScript.Number.Shortest
import CueScript.Text.Cut

set_option autoImplicit false

/-! # Dimensions

A measured length such as `10cm` or `50%`: an amount and a unit, written without a blank between
them. A written amount begins with a digit, so it has no sign, and it has to be finite. -/

namespace CueScript

/-- The units of length. -/
inductive LengthUnit where
  | px
  | cm
  | mm
  | em
  | percent
deriving DecidableEq, Repr

namespace LengthUnit

/-- Every unit, in the order in which they are tried. -/
def all : List LengthUnit := [px, cm, mm, em, percent]

/-- What follows the amount in a text. -/
def suffix : LengthUnit → String
  | px => "px"
  | cm => "cm"
  | mm => "mm"
  | em => "em"
  | percent => "%"

/-- The name in JSON documents. -/
def code : LengthUnit → String
  | px => "px"
  | cm => "cm"
  | mm => "mm"
  | em => "em"
  | percent => "percent"

end LengthUnit

/-- A length: a finite amount of some unit. -/
structure Dimension where
  amount : Number.Binary64
  unit : LengthUnit
deriving DecidableEq

namespace Dimension

/-- Read an amount and, right after it, a unit. -/
def read? (cs : List Char) : Option Dimension := do
  let (number, unit) ← LengthUnit.all.findSome? fun u =>
    (Text.dropSuffix? u.suffix.toList cs).map fun number => (number, u)
  if (number.head?.map Char.isDigit).getD false then
    (Number.Binary64.read? number).map fun amount => ⟨amount, unit⟩
  else none

/-- The dimension as text. -/
def text (d : Dimension) : String := d.amount.text ++ d.unit.suffix

end Dimension

end CueScript
