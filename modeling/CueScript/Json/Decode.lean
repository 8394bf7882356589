import CueScript.Json.Reading
import CueScript.Json.RealText
import CueScript.Text.Quoted

set_option autoImplicit false

/-! # Taking JSON apart

Documents with a known shape are taken apart in the order of the text. The first fault decides:
either the text is no JSON there, or it is JSON of another shape, and then the fault says what was
found and what was expected.

A record is written as an object with its fields in any order, or as an array of its fields in
their declared order, of which the last ones may be left out unless they are required. -/

namespace CueScript.Json

open CueScript.Number (Binary64)

/-- What is found where something else is expected. -/
inductive Found where
  | null
  | bool (value : Bool)
  | integer (value : Int)
  | real (value : Binary64)
  | string (value : String)
  | sequence
  | map
deriving DecidableEq

/-- JSON of another shape than expected. -/
inductive Mismatch where
  | wrongType (found : Found) (expected : String)
  | wrongValue (found : Found) (expected : String)
  | wrongLength (length : Nat) (expected : String)
  | unknownField (name : String) (known : List String)
  | unknownVariant (name : String) (known : List String)
  | missingField (name : String)
  | duplicateField (name : String)
deriving DecidableEq

/-- Why a document is refused. -/
inductive Fault where
  | malformed
  | mismatch (m : Mismatch)
deriving DecidableEq

/-! ## Wording -/

/-- What was found, in words. -/
def Found.text : Found → String
  | null => "null"
  | bool b => "boolean `" ++ (if b then "true" else "false") ++ "`"
  | integer n => "integer `" ++ toString n ++ "`"
  | real x => "floating point `" ++ realText x ++ "`"
  | string s => "string " ++ Text.quoted s
  | sequence => "sequence"
  | map => "map"

/-- A list of names in words: one, one of two, or one of several. -/
def oneOf : List String → String
  | [] => "there are no fields"
  | [a] => "expected `" ++ a ++ "`"
  | [a, b] => "expected `" ++ a ++ "` or `" ++ b ++ "`"
  | names => "expected one of " ++ ", ".intercalate (names.map fun n => "`" ++ n ++ "`")

/-- The wording of a mismatch. -/
def Mismatch.message : Mismatch → String
  | wrongType found expected => "invalid type: " ++ found.text ++ ", expected " ++ expected
  | wrongValue found expected => "invalid value: " ++ found.text ++ ", expected " ++ expected
  | wrongLength length expected =>
    "invalid length " ++ toString length ++ ", expected " ++ expected
  | unknownField name known => "unknown field `" ++ name ++ "`, " ++ oneOf known
  | unknownVariant name known => "unknown variant `" ++ name ++ "`, " ++ oneOf known
  | missingField name => "missing field `" ++ name ++ "`"
  | duplicateField name => "duplicate field `" ++ name ++ "`"

/-- The wording of a fault. -/
def Fault.message : Fault → String
  | malformed => "malformed JSON"
  | mismatch m => m.message

/-! ## Single values -/

/-- The fault of a reading that is not what was expected. -/
def Reading.unexpected (r : Reading) (expected : String) : Fault :=
  match r with
  | .null => .mismatch (.wrongType .null expected)
  | .bool b => .mismatch (.wrongType (.bool b) expected)
  | .integer n => .mismatch (.wrongType (.integer n) expected)
  | .real x => .mismatch (.wrongType (.real x) expected)
  | .string s => .mismatch (.wrongType (.string s) expected)
  | .array _ _ => .mismatch (.wrongType .sequence expected)
  | .object _ _ => .mismatch (.wrongType .map expected)
  | .broken => .malformed

/-- A text, called `what` if something else is found. -/
def Reading.asText (what : String) : Reading → Except Fault String
  | .string s => .ok s
  | r => .error (r.unexpected what)

/-- A string. -/
def Reading.asString (r : Reading) : Except Fault String := r.asText "a string"

/-- A truth value. -/
def Reading.asBool : Reading → Except Fault Bool
  | .bool b => .ok b
  | r => .error (r.unexpected "a boolean")

/-- The name of the whole numbers below 2 ^ 32. -/
def wordName : String := "u32"

/-- A whole number below 2 ^ 32. -/
def Reading.asWord : Reading → Except Fault Nat
  | .integer n =>
    if 0 ≤ n && n < 4294967296 then .ok n.toNat
    else .error (.mismatch (.wrongValue (.integer n) wordName))
  | r => .error (r.unexpected wordName)

/-- A value, or `null` for none. -/
def Reading.asOptional {α : Type} (f : Reading → Except Fault α) :
    Reading → Except Fault (Option α)
  | .null => .ok none
  | r => (f r).map some

/-- Every item of a list, up to the first fault. -/
def decodeAll {α : Type} (f : Reading → Except Fault α) : List Reading → Except Fault (List α)
  | [] => .ok []
  | r :: rest => do
    let a ← f r
    let as ← decodeAll f rest
    return a :: as

/-- A list. -/
def Reading.asList {α : Type} (f : Reading → Except Fault α) : Reading → Except Fault (List α)
  | .array items closed => do
    let as ← decodeAll f items
    if closed then return as else throw .malformed
  | r => .error (r.unexpected "a sequence")

/-- One of several names, each with what it stands for: a string, or an object with the name as its
    only key and `null` as the value. -/
def Reading.asChoice {α : Type} (choices : List (String × α)) : Reading → Except Fault α
  | .string name => choose name
  | .object ((name, value) :: more) closed => do
    let a ← choose name
    match value with
    | .null => pure ()
    | r => throw (r.unexpected "unit")
    if closed && more.isEmpty then return a else throw .malformed
  | _ => .error .malformed
where
  /-- What a name stands for. -/
  choose (name : String) : Except Fault α :=
    match choices.lookup name with
    | some a => .ok a
    | none => .error (.mismatch (.unknownVariant name (choices.map Prod.fst)))

/-! ## Records -/

/-- A field of a record that is being collected in a `ρ`. -/
structure Field (ρ : Type) where
  name : String
  required : Bool
  isSet : ρ → Bool
  set : Reading → ρ → Except Fault ρ

/-- A kind of record: its name in messages, and its fields in declared order. -/
structure Shape (ρ : Type) where
  name : String
  fields : List (Field ρ)

namespace Shape

variable {ρ : Type}

/-- The name by which messages call the record. -/
def expected (s : Shape ρ) : String := "struct " ++ s.name

/-- The record as a list of so many elements. -/
def expectedLength (s : Shape ρ) : String :=
  s.expected ++ " with " ++ toString s.fields.length ++
    (if s.fields.length = 1 then " element" else " elements")

/-- Collect the members of an object. -/
def setMembers (s : Shape ρ) (record : ρ) : List (String × Reading) → Except Fault ρ
  | [] => .ok record
  | (key, value) :: rest =>
    match s.fields.find? (·.name = key) with
    | none => .error (.mismatch (.unknownField key (s.fields.map Field.name)))
    | some field =>
      if field.isSet record then .error (.mismatch (.duplicateField key))
      else do
        let record' ← field.set value record
        s.setMembers record' rest

/-- Collect the items of an array, one for each field. The answer tells what is left over. -/
def setItems (record : ρ) : List (Field ρ) → List Reading → Except Fault (ρ × List (Field ρ) × List Reading)
  | field :: fields, item :: items => do
    let record' ← field.set item record
    setItems record' fields items
  | fields, items => .ok (record, fields, items)

/-- A record, collected from the given start. -/
def decode (s : Shape ρ) (start : ρ) : Reading → Except Fault ρ
  | .object members closed => do
    let record ← s.setMembers start members
    if !closed then throw .malformed
    match s.fields.find? fun f => f.required && !f.isSet record with
    | some f => throw (.mismatch (.missingField f.name))
    | none => return record
  | .array items closed => do
    let (record, fields, more) ← setItems start s.fields items
    if !closed || !more.isEmpty then throw .malformed
    match fields.findIdx? (·.required) with
    | some i => throw (.mismatch (.wrongLength (items.length + i) s.expectedLength))
    | none => return record
  | r => .error (r.unexpected s.expected)

end Shape

/-- Read a text and take it apart; nothing may follow the value. -/
def decodeText {α : Type} (f : Reading → Except Fault α) (text : String) : Except Fault α := do
  let document := read text
  let a ← f document.root
  if document.trailing then throw .malformed else return a

end CueScript.Json
