import CueScript.Text.Blank
import CueScript.Text.Lowercase

set_option autoImplicit false

/-! # The tokens of a command

A command is read in runs: a quoted run goes from a quote to the next one and keeps both, any other
run ends at a blank or before a quote. A run without punctuation at its ends is a token, if
something is left of it. Quoted runs keep their case; other tokens are folded to lower case if the
settings say so. -/

namespace CueScript.Script

/-- The punctuation that a token loses at its ends. -/
def isPunctuation (c : Char) : Bool :=
  [',', ';', ':', '!', '?', '(', ')', '\''].contains c

/-- The runs of what remains of a command. `inQuotes` tells whether a quote is open, and `run` holds
    the characters of the current run, last first. -/
def runsFrom : (inQuotes : Bool) → (run : List Char) → List Char → List (List Char)
  | _, run, [] => [run.reverse]
  | inQuotes, run, c :: cs =>
    if c = '"' then
      if inQuotes then (c :: run).reverse :: runsFrom false [] cs
      else run.reverse :: runsFrom true [c] cs
    else if Text.isBlank c && !inQuotes then run.reverse :: runsFrom false [] cs
    else runsFrom inQuotes (c :: run) cs

/-- Does the run begin with a quote? -/
def isQuoted (run : List Char) : Bool := run.head? == some '"'

/-- The token that a run leaves, if any. -/
def token? (lowercase : Bool) (run : List Char) : Option String :=
  let word := Text.trimBy isPunctuation run
  if word.isEmpty then none
  else if lowercase && !isQuoted word then some (Text.lowercase (String.ofList word))
  else some (String.ofList word)

/-- The tokens of a command, in order. -/
def tokens (lowercase : Bool) (command : String) : List String :=
  (runsFrom false [] command.toList).filterMap (token? lowercase)

end CueScript.Script
