import CueScript.Text.CaseTable

set_option autoImplicit false

/-! # Lower case

Each letter of a text is replaced by its small form. The mapping is letter by letter with two
exceptions: a dotted capital I becomes an i with a combining dot, and a capital sigma becomes the
final form `ς` where it ends a word, the usual `σ` elsewhere. A sigma ends a word when the nearest
character before it that is not passed over is a letter with case, and the nearest one after it is
not. -/

namespace CueScript.Text

/-- Is the code point in one of the ranges? -/
def inRanges (ranges : List (Nat × Nat)) (n : Nat) : Bool :=
  ranges.any fun r => r.1 ≤ n && n ≤ r.2

/-- Is the code point one of the capitals of this run? -/
def CapitalRun.covers (run : CapitalRun) (n : Nat) : Bool :=
  run.first ≤ n && n ≤ run.last && (n - run.first) % run.stride == 0

/-- The small form of a character that has a single one; any other character stays. -/
def smallLetter (c : Char) : Char :=
  if c.toNat < 0x80 then c.toLower
  else
    match capitalRuns.find? (·.covers c.toNat) with
    | some run => Char.ofNat (c.toNat + run.shift).toNat
    | none => c

/-- Is the first character of the list that is not passed over a letter with case? -/
def meetsCased : List Char → Bool
  | [] => false
  | c :: cs =>
    if inRanges caseIgnorableRanges c.toNat then meetsCased cs else inRanges casedRanges c.toNat

/-- The small form of `c` in its place: `before` holds the characters to its left, nearest first,
    and `after` those to its right. -/
def smallForm (before : List Char) (c : Char) (after : List Char) : List Char :=
  if c = 'Σ' then [if meetsCased before && !meetsCased after then 'ς' else 'σ']
  else if c = 'İ' then ['i', '\u0307']
  else [smallLetter c]

/-- Replace every character by its small form; `before` holds those already done, nearest first. -/
def lowerAfter (before : List Char) : List Char → List Char
  | [] => []
  | c :: cs => smallForm before c cs ++ lowerAfter (c :: before) cs

/-- A text in lower case. -/
def lowercase (s : String) : String := String.ofList (lowerAfter [] s.toList)

/-- A text with its ASCII capitals in lower case; other letters stay. -/
def lowercaseAscii (s : String) : String := String.ofList (s.toList.map Char.toLower)

end CueScript.Text
