import CueScript.Json.Basic
import CueScript.Json.RealText
import CueScript.Text.Hex

set_option autoImplicit false

/-! # Writing JSON

Two layouts of the same value: on one line without blanks, and on several lines with two blanks of
indentation for each level. Strings keep every character but quotes, backslashes and controls. -/

namespace CueScript.Json

/-- A character inside a string. -/
def stringChar (c : Char) : List Char :=
  if c = '"' then ['\\', '"']
  else if c = '\\' then ['\\', '\\']
  else if c = '\x08' then ['\\', 'b']
  else if c = '\x0c' then ['\\', 'f']
  else if c = '\n' then ['\\', 'n']
  else if c = '\r' then ['\\', 'r']
  else if c = '\t' then ['\\', 't']
  else if c.toNat < 0x20 then ['\\', 'u', '0', '0'] ++ Text.hexPair c.toNat
  else [c]

/-- A string with its quotes. -/
def stringChars (s : String) : List Char := '"' :: s.toList.flatMap stringChar ++ ['"']

/-- A value that holds no others. -/
def scalarChars : Json → List Char
  | .null => ['n', 'u', 'l', 'l']
  | .bool true => ['t', 'r', 'u', 'e']
  | .bool false => ['f', 'a', 'l', 's', 'e']
  | .integer n => (toString n).toList
  | .real x => (realText x).toList
  | .string s => stringChars s
  | _ => []

/-- Pieces with commas between them. -/
def commaSeparated : List (List Char) → List Char
  | [] => []
  | [last] => last
  | piece :: rest => piece ++ ',' :: commaSeparated rest

mutual

/-- A value on one line. -/
def compactChars : Json → List Char
  | .array items => '[' :: commaSeparated (compactItems items) ++ [']']
  | .object members => '\x7b' :: commaSeparated (compactMembers members) ++ ['\x7d']
  | scalar => scalarChars scalar

/-- Every item on one line. -/
def compactItems : List Json → List (List Char)
  | [] => []
  | j :: rest => compactChars j :: compactItems rest

/-- Every member on one line. -/
def compactMembers : List (String × Json) → List (List Char)
  | [] => []
  | (key, j) :: rest => (stringChars key ++ ':' :: compactChars j) :: compactMembers rest

end

/-- A new line at a level of indentation. -/
def newLine (level : Nat) : List Char := '\n' :: List.replicate (2 * level) ' '

/-- Pieces on lines of their own, between two brackets; the brackets touch if there are none. -/
def block (level : Nat) (left right : Char) (pieces : List (List Char)) : List Char :=
  if pieces.isEmpty then [left, right]
  else
    left :: commaSeparated (pieces.map fun piece => newLine (level + 1) ++ piece) ++
      newLine level ++ [right]

mutual

/-- A value on several lines, at a level of indentation. -/
def prettyChars (level : Nat) : Json → List Char
  | .array items => block level '[' ']' (prettyItems (level + 1) items)
  | .object members => block level '\x7b' '\x7d' (prettyMembers (level + 1) members)
  | scalar => scalarChars scalar

/-- Every item on several lines. -/
def prettyItems (level : Nat) : List Json → List (List Char)
  | [] => []
  | j :: rest => prettyChars level j :: prettyItems level rest

/-- Every member on several lines. -/
def prettyMembers (level : Nat) : List (String × Json) → List (List Char)
  | [] => []
  | (key, j) :: rest =>
    (stringChars key ++ ':' :: ' ' :: prettyChars level j) :: prettyMembers level rest

end

/-- The value as text on one line. -/
def compact (j : Json) : String := String.ofList (compactChars j)

/-- The value as text on several lines. -/
def pretty (j : Json) : String := String.ofList (prettyChars 0 j)

end CueScript.Json
