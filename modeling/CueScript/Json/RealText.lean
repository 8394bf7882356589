import CueScript.Number.Shortest

set_option autoImplicit false

/-! # Floating point numbers in JSON text

JSON text shows a floating point number with the fewest digits that read back, and always with a
point or an exponent, so that it is not taken for a whole number. An exponent has a sign. -/

namespace CueScript.Json

open CueScript.Number (Binary64)

/-- The exponent of a text, with its sign. -/
def exponentText (n : Int) : List Char :=
  (if 0 ≤ n then ['+'] else ['-']) ++ (toString n.natAbs).toList

/-- A floating point number as text, always with a point or an exponent: positional if the leading
    digit lies at most 16 places before the point or 5 after it. A tie between two decimals goes
    to the even digit. -/
def realText (x : Binary64) : String :=
  let (ds, exponent) := (x.shortest .even).significant
  let sign := if x.negative then ['-'] else []
  let top := exponent + ds.length
  let body :=
    if ds.isEmpty then ['0', '.', '0']
    else if 0 ≤ exponent && top ≤ 16 then Number.Decimal.layout ds exponent ++ ['.', '0']
    else if -5 < top && top ≤ 16 then Number.Decimal.layout ds exponent
    else
      ds.take 1 ++ (if ds.length = 1 then [] else '.' :: ds.drop 1) ++
        'e' :: exponentText (top - 1)
  String.ofList (sign ++ body)

end CueScript.Json
