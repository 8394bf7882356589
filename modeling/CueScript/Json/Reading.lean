import CueScript.Json.Lexeme

set_option autoImplicit false

/-! # Reading JSON text

A reading is what a text turns out to be, read from the front until it ends or breaks the grammar.
It has the shape of a JSON value, and shows where the text breaks: a value that is `broken`, a list
or an object that is not closed. So whoever takes a reading apart in the order of the text meets
every fault in its place. -/

namespace CueScript.Json

open CueScript.Number (Binary64)

/-- A JSON text as far as it can be read. An array or object says whether it is closed. -/
inductive Reading where
  | null
  | bool (value : Bool)
  | integer (value : Int)
  | real (value : Binary64)
  | string (value : String)
  | array (items : List Reading) (closed : Bool)
  | object (members : List (String × Reading)) (closed : Bool)
  | broken

/-- An array or object that is still open: what it holds so far, last first. An object waits for the
    value of a key. -/
inductive Frame where
  | items (before : List Reading)
  | members (before : List (String × Reading)) (key : String)

/-- What may come next. -/
inductive Point where
  | value
  | firstItem
  | firstKey
  | key (before : List (String × Reading))
  | colon (before : List (String × Reading)) (key : String)
  | next (read : Reading)

/-- Reading ends inside the open arrays and objects, given innermost first. -/
def abandon (read : Reading) : List Frame → Reading
  | [] => read
  | .items before :: outer => abandon (.array (read :: before).reverse false) outer
  | .members before key :: outer => abandon (.object ((key, read) :: before).reverse false) outer

/-- Reading ends in an array after the items read so far. -/
def abandonItems (before : List Reading) (outer : List Frame) : Reading :=
  abandon (.array before.reverse false) outer

/-- Reading ends in an object after the members read so far. -/
def abandonMembers (before : List (String × Reading)) (outer : List Frame) : Reading :=
  abandon (.object before.reverse false) outer

/-- A complete text: its value, and whether something follows it. -/
structure Document where
  root : Reading
  trailing : Bool

/-- Where reading stands: what may come next, and what is open, innermost first. -/
abbrev Place := Point × List Frame

/-- A value begins with this lexeme. -/
def beginValue (outer : List Frame) : Lexeme → Except Reading Place
  | .null => .ok (.next .null, outer)
  | .bool b => .ok (.next (.bool b), outer)
  | .integer n => .ok (.next (.integer n), outer)
  | .real x => .ok (.next (.real x), outer)
  | .string s => .ok (.next (.string s), outer)
  | .openArray => .ok (.firstItem, outer)
  | .openObject => .ok (.firstKey, outer)
  | _ => .error (abandon .broken outer)

/-- One lexeme: where reading goes from here, or the reading with which it ends. -/
def advance (place : Place) (lexeme : Lexeme) : Except Reading Place :=
  let (point, outer) := place
  match point with
  | .value => beginValue outer lexeme
  | .firstItem =>
    if lexeme = .closeArray then .ok (.next (.array [] true), outer)
    else beginValue (.items [] :: outer) lexeme
  | .firstKey =>
    match lexeme with
    | .closeObject => .ok (.next (.object [] true), outer)
    | .string key => .ok (.colon [] key, outer)
    | _ => .error (abandonMembers [] outer)
  | .key before =>
    match lexeme with
    | .string key => .ok (.colon before key, outer)
    | _ => .error (abandonMembers before outer)
  | .colon before key =>
    if lexeme = .colon then .ok (.value, .members before key :: outer)
    else .error (abandon .broken (.members before key :: outer))
  | .next read =>
    match outer with
    | [] => .error read
    | .items before :: outer' =>
      match lexeme with
      | .comma => .ok (.value, .items (read :: before) :: outer')
      | .closeArray => .ok (.next (.array (read :: before).reverse true), outer')
      | _ => .error (abandonItems (read :: before) outer')
    | .members before key :: outer' =>
      match lexeme with
      | .comma => .ok (.key ((key, read) :: before), outer')
      | .closeObject => .ok (.next (.object ((key, read) :: before).reverse true), outer')
      | _ => .error (abandonMembers ((key, read) :: before) outer')

/-- The text ends here. -/
def stop : Place → Reading
  | (.value, outer) => abandon .broken outer
  | (.firstItem, outer) => abandonItems [] outer
  | (.firstKey, outer) => abandonMembers [] outer
  | (.key before, outer) => abandonMembers before outer
  | (.colon before key, outer) => abandon .broken (.members before key :: outer)
  | (.next read, []) => read
  | (.next read, .items before :: outer) => abandonItems (read :: before) outer
  | (.next read, .members before key :: outer) =>
    abandonMembers ((key, read) :: before) outer

/-- Is a complete value read, with nothing open? -/
def isComplete : Place → Bool
  | (.next _, []) => true
  | _ => false

/-- Read lexemes from a place on. -/
def readFrom (place : Place) : List Lexeme → Document
  | [] => ⟨stop place, false⟩
  | lexeme :: rest =>
    match advance place lexeme with
    | .ok place' => readFrom place' rest
    | .error read => ⟨read, isComplete place⟩

/-- Read a text. -/
def read (text : String) : Document := readFrom (.value, []) (lex text)

end CueScript.Json
