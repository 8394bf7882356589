import CueScript.Number.Shortest
import CueScript.Text.Hex

set_option autoImplicit false

/-! # The lexemes of JSON text

Text is read character by character by a machine with a few phases, and every lexeme comes out as
soon as it is known to be complete. Where the text breaks the grammar, one lexeme `fault` comes
out and reading stops there, so that a reader of the lexemes sees faults in the order of the text.

A whole number is kept exact if it fits 64 bits, with a sign or without. Any other number is a
floating point number: its leading digits, as many as fit 64 bits, are rounded and then multiplied
or divided by a power of ten, with one rounding for each step. So a numeral with many digits need
not give the nearest number. A number that is too large is a fault. -/

namespace CueScript.Json

open CueScript.Number (Binary64)

/-- The pieces of JSON text. -/
inductive Lexeme where
  | openObject
  | closeObject
  | openArray
  | closeArray
  | comma
  | colon
  | null
  | bool (value : Bool)
  | integer (value : Int)
  | real (value : Binary64)
  | string (value : String)
  | fault
deriving DecidableEq

/-! ## Numbers -/

/-- The largest whole number without a sign. -/
def naturalLimit : Nat := 18446744073709551615

/-- The largest amount below zero that a whole number may have. -/
def negativeLimit : Nat := 9223372036854775808

/-- A numeral as far as it is read: its leading digits, the power of ten that they are to be
    multiplied by, whether further digits still fit, and whether it can be a whole number. -/
structure Numeral where
  negative : Bool
  digits : Nat
  shift : Int
  full : Bool
  whole : Bool
deriving DecidableEq, Repr

namespace Numeral

/-- Does one more digit fit? -/
def fits (n : Numeral) (digit : Nat) : Bool := n.digits * 10 + digit ≤ naturalLimit

/-- One more digit before the point. Once a digit does not fit, this and all later ones only count
    as places. -/
def addWhole (n : Numeral) (digit : Nat) : Numeral :=
  if n.full || !n.fits digit then { n with shift := n.shift + 1, full := true, whole := false }
  else { n with digits := n.digits * 10 + digit }

/-- The point: digits may fit again. -/
def point (n : Numeral) : Numeral := { n with full := false, whole := false }

/-- One more digit after the point. Once a digit does not fit, this and all later ones are left
    out. -/
def addPlace (n : Numeral) (digit : Nat) : Numeral :=
  if n.full || !n.fits digit then { n with full := true }
  else { n with digits := n.digits * 10 + digit, shift := n.shift - 1 }

/-- The floating point number nearest to a whole number or a power of ten. -/
def rounded? (negative : Bool) (n : Nat) : Option Binary64 :=
  Binary64.ofQuotient? negative n 1

/-- The number multiplied by a power of ten, in one step. -/
def scaleUp? (x : Binary64) (exponent : Nat) : Option Binary64 :=
  if exponent ≤ 308 then (rounded? false (Nat.pow 10 exponent)).bind x.mul?
  else if x.steps = 0 then some x
  else none

/-- The number divided by a power of ten, in steps of at most 308 places. Whatever is divided by
    more than two full steps becomes zero. -/
def scaleDown? (x : Binary64) (places : Nat) : Option Binary64 :=
  let divided (y : Binary64) (k : Nat) := (rounded? false (Nat.pow 10 k)).bind y.div?
  if places ≤ 308 then divided x places
  else if places ≤ 616 then (divided x 308).bind fun y => divided y (places - 308)
  else some (.zero x.negative)

/-- The floating point number that the numeral stands for. -/
def real? (n : Numeral) (exponent : Int) : Option Binary64 :=
  let places := n.shift + exponent
  (rounded? n.negative n.digits).bind fun x =>
    if 0 ≤ places then scaleUp? x places.toNat else scaleDown? x (-places).toNat

/-- The numeral as a lexeme, given its exponent if it has one. -/
def lexeme (n : Numeral) (exponent : Option Int) : Lexeme :=
  let real := ((n.real? (exponent.getD 0)).map Lexeme.real).getD .fault
  match exponent with
  | some _ => real
  | none =>
    if !n.whole then real
    else if !n.negative then .integer n.digits
    else if 0 < n.digits && n.digits ≤ negativeLimit then .integer (-(n.digits : Int))
    else real

end Numeral

/-! ## The machine -/

/-- Where the machine stands. Characters of a string that are already read are kept last first. -/
inductive Phase where
  | between
  | word (rest : List Char) (lexeme : Lexeme)
  | string (read : List Char)
  | escape (read : List Char)
  | code (read : List Char) (high : Option Nat) (value : Nat) (left : Nat)
  | pair (read : List Char) (high : Nat)
  | pairMark (read : List Char) (high : Nat)
  | minus
  | zero (n : Numeral)
  | whole (n : Numeral)
  | point (n : Numeral)
  | places (n : Numeral)
  | exponentMark (n : Numeral)
  | exponentSign (n : Numeral) (negative : Bool)
  | exponent (n : Numeral) (negative : Bool) (value : Nat)
  | failed
deriving DecidableEq

/-- Blank space between lexemes. -/
def isSpace (c : Char) : Bool := c == ' ' || c == '\n' || c == '\t' || c == '\r'

/-- The value of a decimal digit. -/
def digit? (c : Char) : Option Nat := if c.isDigit then some (c.toNat - '0'.toNat) else none

/-- What comes out at a fault. -/
def failure : List Lexeme × Phase := ([.fault], .failed)

/-- A numeral begins with this digit. -/
def beginNumeral (negative : Bool) (digit : Nat) : Phase :=
  if digit = 0 then .zero ⟨negative, 0, 0, false, true⟩
  else .whole ⟨negative, digit, 0, false, true⟩

/-- The first character of a lexeme, or blank space. -/
def begin (c : Char) : List Lexeme × Phase :=
  if isSpace c then ([], .between)
  else
    match c with
    | '\x7b' => ([.openObject], .between)
    | '\x7d' => ([.closeObject], .between)
    | '[' => ([.openArray], .between)
    | ']' => ([.closeArray], .between)
    | ',' => ([.comma], .between)
    | ':' => ([.colon], .between)
    | '"' => ([], .string [])
    | 'n' => ([], .word ['u', 'l', 'l'] .null)
    | 't' => ([], .word ['r', 'u', 'e'] (.bool true))
    | 'f' => ([], .word ['a', 'l', 's', 'e'] (.bool false))
    | '-' => ([], .minus)
    | c =>
      match digit? c with
      | some d => ([], beginNumeral false d)
      | none => failure

/-- A numeral is complete, and `c` is the character after it. -/
def endNumeral (n : Numeral) (exponent : Option Int) (c : Char) : List Lexeme × Phase :=
  match n.lexeme exponent with
  | .fault => failure
  | lexeme => (lexeme :: (begin c).1, (begin c).2)

/-- The character that an escape stands for. -/
def escaped? : Char → Option Char
  | '"' => some '"'
  | '\\' => some '\\'
  | '/' => some '/'
  | 'b' => some '\x08'
  | 'f' => some '\x0c'
  | 'n' => some '\n'
  | 'r' => some '\r'
  | 't' => some '\t'
  | _ => none

/-- A code of four digits is complete: a character, or one half of a pair. -/
def endCode (read : List Char) (high : Option Nat) (value : Nat) : List Lexeme × Phase :=
  let isLow : Bool := 0xdc00 ≤ value && value ≤ 0xdfff
  match high with
  | some h =>
    if isLow then
      ([], .string (Char.ofNat (0x10000 + (h - 0xd800) * 0x400 + (value - 0xdc00)) :: read))
    else failure
  | none =>
    if isLow then failure
    else if 0xd800 ≤ value && value ≤ 0xdbff then ([], .pair read value)
    else ([], .string (Char.ofNat value :: read))

/-- The sign of an exponent on its value. -/
def signed (negative : Bool) (value : Nat) : Int := if negative then -(value : Int) else value

/-- One character of text: the lexemes that are complete with it, and where the machine goes. -/
def step (phase : Phase) (c : Char) : List Lexeme × Phase :=
  match phase with
  | .between => begin c
  | .word [] _ => failure
  | .word [last] lexeme => if c = last then ([lexeme], .between) else failure
  | .word (next :: rest) lexeme => if c = next then ([], .word rest lexeme) else failure
  | .string read =>
    if c = '"' then ([.string (String.ofList read.reverse)], .between)
    else if c = '\\' then ([], .escape read)
    else if c.toNat < 0x20 then failure
    else ([], .string (c :: read))
  | .escape read =>
    if c = 'u' then ([], .code read none 0 4)
    else
      match escaped? c with
      | some e => ([], .string (e :: read))
      | none => failure
  | .code read high value left =>
    match Text.hexValue? c with
    | some d =>
      if left ≤ 1 then endCode read high (value * 16 + d)
      else ([], .code read high (value * 16 + d) (left - 1))
    | none => failure
  | .pair read high => if c = '\\' then ([], .pairMark read high) else failure
  | .pairMark read high => if c = 'u' then ([], .code read (some high) 0 4) else failure
  | .minus =>
    match digit? c with
    | some d => ([], beginNumeral true d)
    | none => failure
  | .zero n =>
    if c = '.' then ([], .point n.point)
    else if c = 'e' || c = 'E' then ([], .exponentMark n)
    else if c.isDigit then failure
    else endNumeral n none c
  | .whole n =>
    match digit? c with
    | some d => ([], .whole (n.addWhole d))
    | none =>
      if c = '.' then ([], .point n.point)
      else if c = 'e' || c = 'E' then ([], .exponentMark n)
      else endNumeral n none c
  | .point n =>
    match digit? c with
    | some d => ([], .places (n.addPlace d))
    | none => failure
  | .places n =>
    match digit? c with
    | some d => ([], .places (n.addPlace d))
    | none => if c = 'e' || c = 'E' then ([], .exponentMark n) else endNumeral n none c
  | .exponentMark n =>
    if c = '+' then ([], .exponentSign n false)
    else if c = '-' then ([], .exponentSign n true)
    else
      match digit? c with
      | some d => ([], .exponent n false d)
      | none => failure
  | .exponentSign n negative =>
    match digit? c with
    | some d => ([], .exponent n negative d)
    | none => failure
  | .exponent n negative value =>
    match digit? c with
    | some d => ([], .exponent n negative (value * 10 + d))
    | none => endNumeral n (some (signed negative value)) c
  | .failed => ([], .failed)

/-- What is still to come out when the text ends. -/
def finish : Phase → List Lexeme
  | .between => []
  | .zero n => [n.lexeme none]
  | .whole n => [n.lexeme none]
  | .places n => [n.lexeme none]
  | .exponent n negative value => [n.lexeme (some (signed negative value))]
  | .failed => []
  | _ => [.fault]

/-- The lexemes of the rest of a text. -/
def lexFrom (phase : Phase) : List Char → List Lexeme
  | [] => finish phase
  | c :: cs => (step phase c).1 ++ lexFrom (step phase c).2 cs

/-- The lexemes of a text. -/
def lex (text : String) : List Lexeme := lexFrom .between text.toList

end CueScript.Json
