import CueScript.Text.Hex

set_option autoImplicit false

/-! # Colors

A color has a red, a green and a blue channel of eight bits. It is written `#rrggbb`; the short
form `#rgb` doubles every digit. -/

namespace CueScript

/-- A color with three channels of eight bits. -/
structure Color where
  red : UInt8
  green : UInt8
  blue : UInt8
deriving DecidableEq, Repr

namespace Color

/-- The color with these digits, three or six of them. -/
def ofDigits? : List Nat → Option Color
  | [r, g, b] => some ⟨.ofNat (r * 17), .ofNat (g * 17), .ofNat (b * 17)⟩
  | [r, r', g, g', b, b'] =>
    some ⟨.ofNat (r * 16 + r'), .ofNat (g * 16 + g'), .ofNat (b * 16 + b')⟩
  | _ => none

/-- Read `#rgb` or `#rrggbb`, in either case. -/
def read? : List Char → Option Color
  | '#' :: digits => (digits.mapM Text.hexValue?).bind ofDigits?
  | _ => none

/-- The color as `#rrggbb`. -/
def text (c : Color) : String :=
  String.ofList ('#' :: (Text.hexPair c.red.toNat ++ Text.hexPair c.green.toNat ++
    Text.hexPair c.blue.toNat))

end Color

end CueScript
