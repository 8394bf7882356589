import CueScript.Text.Blank
import CueScript.Text.Cut

set_option autoImplicit false

/-! # The commands of a script

A script is cut into commands at a separator. Quoted text is not cut, and neither is a number: a
separator with a digit on both sides belongs to it, as the point in `2.5cm` does. What remains is
trimmed, and blank commands are dropped. An empty separator leaves the script in one piece. -/

namespace CueScript.Script

/-- Does the piece, given last character first, end with a digit? -/
def endsInDigit (piece : List Char) : Bool := (piece.head?.map Char.isDigit).getD false

/-- Does the text begin with a digit? -/
def beginsWithDigit (cs : List Char) : Bool := (cs.head?.map Char.isDigit).getD false

/-- Is the script to be cut here, at a place where `rest` remains? -/
def cutsHere (separator piece rest : List Char) : Bool :=
  match Text.dropPrefix? separator rest with
  | some after => !(endsInDigit piece && beginsWithDigit after)
  | none => false

/-- The pieces of what remains of a script. `inQuotes` tells whether a quote is open, `piece` holds
    the characters of the current piece, last first, and the next `skip` characters belong to the
    separator of the last cut. -/
def piecesFrom (separator : List Char) :
    (inQuotes : Bool) → (piece : List Char) → (skip : Nat) → List Char → List (List Char)
  | _, piece, _, [] => [piece.reverse]
  | inQuotes, piece, skip + 1, _ :: cs => piecesFrom separator inQuotes piece skip cs
  | inQuotes, piece, 0, c :: cs =>
    let inQuotes' := if c = '"' then !inQuotes else inQuotes
    if !inQuotes' && cutsHere separator piece (c :: cs) then
      piece.reverse :: piecesFrom separator inQuotes' [] (separator.length - 1) cs
    else piecesFrom separator inQuotes' (c :: piece) 0 cs

/-- The pieces between the separators. -/
def pieces (separator script : List Char) : List (List Char) :=
  if separator.isEmpty then [script] else piecesFrom separator false [] 0 script

/-- The commands of a script, in order. -/
def commands (separator script : String) : List String :=
  ((pieces separator.toList script.toList).map (Text.trimBy Text.isBlank)).filterMap fun piece =>
    if piece.isEmpty then none else some (String.ofList piece)

end CueScript.Script
