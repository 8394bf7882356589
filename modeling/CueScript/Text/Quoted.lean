import CueScript.Text.Lowercase
import CueScript.Text.PrintTable

set_option autoImplicit false

/-! # Quoted text

How messages show a text that they quote: in double quotes, with a backslash before a quote or a
backslash, short escapes for the common controls, and the number of any other character that would
not be seen as itself. -/

namespace CueScript.Text

/-- The digits of a number in base sixteen, small letters, without leading zeros. -/
def hexDigits (n : Nat) : List Char := Nat.toDigits 16 n

/-- Would this character not be seen as itself? -/
def isHidden (c : Char) : Bool :=
  c.toNat < 0x20 || c.toNat == 0x7f || inRanges hiddenRanges c.toNat

/-- One character as it stands between the quotes. -/
def quotedChar (c : Char) : List Char :=
  if c = '"' then ['\\', '"']
  else if c = '\\' then ['\\', '\\']
  else if c = '\n' then ['\\', 'n']
  else if c = '\r' then ['\\', 'r']
  else if c = '\t' then ['\\', 't']
  else if c = '\x00' then ['\\', '0']
  else if isHidden c then ['\\', 'u', '\x7b'] ++ hexDigits c.toNat ++ ['\x7d']
  else [c]

/-- A text in quotes, for a message. -/
def quoted (s : String) : String :=
  String.ofList ('"' :: s.toList.flatMap quotedChar ++ ['"'])

end CueScript.Text
