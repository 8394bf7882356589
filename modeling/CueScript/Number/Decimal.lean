import CueScript.Number.Binary64
import CueScript.Text.Blank

set_option autoImplicit false

/-! # Decimal numerals

A decimal is a whole number of tenths, hundreds, or any other power of ten. This module reads
numerals (`2`, `2.5`, `1e3`, `.5`, `-4.`) as decimals and as floating point numbers, and lays
decimals out as text in positional notation. -/

namespace CueScript.Number

/-- The value `digits * 10 ^ exponent`. -/
structure Decimal where
  digits : Nat
  exponent : Int
deriving DecidableEq, Repr

/-- How many decimal digits a number has; zero has one. -/
def digitCount (n : Nat) : Nat := (Nat.toDigits 10 n).length

namespace Decimal

/-- The floating point number nearest to the decimal. The two bounds keep the powers of ten small:
    from 10 ^ 310 on nothing is finite, and below 10 ^ -330 all is nearest to zero. -/
def toBinary64? (d : Decimal) (negative : Bool) : Option Binary64 :=
  if d.digits = 0 then some (.zero negative)
  else
    let top := d.exponent + digitCount d.digits
    if 310 < top then none
    else if top < -330 then some (.zero negative)
    else if 0 ≤ d.exponent then Binary64.ofQuotient? negative (d.digits * Nat.pow 10 d.exponent.toNat) 1
    else Binary64.ofQuotient? negative d.digits (Nat.pow 10 (-d.exponent).toNat)

/-! ## Reading -/

/-- A non-empty run of digits, as a number. -/
def readDigits? (cs : List Char) : Option Nat :=
  if cs.isEmpty || !cs.all Char.isDigit then none else some (Nat.ofDigitChars 10 cs 0)

/-- What may follow the digits of a numeral: nothing, or `e`, an optional sign, and digits. -/
def readExponent? : List Char → Option Int
  | [] => some 0
  | c :: cs =>
    if c = 'e' || c = 'E' then
      match cs with
      | '-' :: ds => (readDigits? ds).map fun n => -(n : Int)
      | '+' :: ds => (readDigits? ds).map fun n => (n : Int)
      | ds => (readDigits? ds).map fun n => (n : Int)
    else none

/-- A numeral without a sign. There is a digit before or after the point. -/
def read? (cs : List Char) : Option Decimal :=
  let whole := cs.takeWhile Char.isDigit
  let (places, rest) :=
    match cs.dropWhile Char.isDigit with
    | '.' :: more => (more.takeWhile Char.isDigit, more.dropWhile Char.isDigit)
    | rest => ([], rest)
  if (whole ++ places).isEmpty then none
  else
    (readExponent? rest).map fun e => ⟨Nat.ofDigitChars 10 (whole ++ places) 0, e - places.length⟩

/-! ## Laying out -/

/-- The digits without zeros at the end, and the power of ten that the last of them counts. -/
def significant (d : Decimal) : List Char × Int :=
  let all := Nat.toDigits 10 d.digits
  let kept := Text.dropRight (· == '0') all
  (kept, d.exponent + (all.length - kept.length : Nat))

/-- Digits whose last one counts `10 ^ exponent`, in positional notation. -/
def layout (ds : List Char) (exponent : Int) : List Char :=
  if ds.isEmpty then ['0']
  else if 0 ≤ exponent then ds ++ List.replicate exponent.toNat '0'
  else
    let places := (-exponent).toNat
    if places < ds.length then
      ds.take (ds.length - places) ++ '.' :: ds.drop (ds.length - places)
    else '0' :: '.' :: (List.replicate (places - ds.length) '0' ++ ds)

/-- The decimal in positional notation, without needless zeros. -/
def positional (d : Decimal) : List Char := layout d.significant.1 d.significant.2

end Decimal

/-- A numeral with an optional sign, as the nearest floating point number; nothing if the text is
    no numeral or its value is too large. -/
def Binary64.read? (cs : List Char) : Option Binary64 :=
  match cs with
  | '-' :: rest => (Decimal.read? rest).bind (·.toBinary64? true)
  | '+' :: rest => (Decimal.read? rest).bind (·.toBinary64? false)
  | rest => (Decimal.read? rest).bind (·.toBinary64? false)

end CueScript.Number
