import CueScript.Json.Basic
import CueScript.Json.Decode
import CueScript.Json.Print
import CueScript.Storage

set_option autoImplicit false

/-! # Settings

How scripts are read, and where further keywords come from. Settings are kept as a JSON file in a
directory. A missing file means that nothing was set; a file that is there has to be complete JSON
of the right shape and of this version.

Saving writes a second file first and then moves it over the old one, so that the old settings stay
until the new ones are complete. -/

namespace CueScript

/-- What happens to tokens that mean nothing: nothing, or a warning. -/
inductive UnknownWords where
  | ignore
  | warn
deriving DecidableEq, Repr

/-- The words of which a warning is given. -/
def UnknownWords.reported : UnknownWords → List String → List String
  | ignore, _ => []
  | warn, words => words

/-- The settings of a session. -/
structure Settings where
  version : Nat := 1
  separator : String := "."
  lowercase : Bool := true
  unknownWords : UnknownWords := .ignore
  catalog : Option String := none
deriving DecidableEq, Repr

/-- Why settings cannot be loaded or saved. -/
inductive SettingsError where
  | storage (fault : StorageFault)
  | json (fault : Json.Fault)
  | unsupportedVersion (found : Nat)

/-- The wording of an error. -/
def SettingsError.message : SettingsError → String
  | storage fault => "settings I/O error: " ++ fault.message
  | json fault => "settings JSON error: " ++ fault.message
  | unsupportedVersion found => "unsupported settings version " ++ toString found

/-! ## JSON -/

/-- The policies by their names. -/
def UnknownWords.choices : List (String × UnknownWords) := [("ignore", .ignore), ("warn", .warn)]

/-- The name of a policy. -/
def UnknownWords.name : UnknownWords → String
  | ignore => "ignore"
  | warn => "warn"

namespace Settings

/-- The version that this program reads and writes. -/
def currentVersion : Nat := 1

/-- The settings as JSON. -/
def toJson (s : Settings) : Json :=
  .object [("version", .count s.version), ("command_separator", .string s.separator),
    ("lowercase", .bool s.lowercase), ("unknown_words", .string s.unknownWords.name),
    ("catalog", .ofOption .string s.catalog)]

/-- Settings of which some fields are known. -/
structure Partial where
  version : Option Nat := none
  separator : Option String := none
  lowercase : Option Bool := none
  unknownWords : Option UnknownWords := none
  catalog : Option (Option String) := none

/-- The fields of settings as JSON. -/
def shape : Json.Shape Partial where
  name := "Settings"
  fields :=
    [{ name := "version", required := true, isSet := (·.version.isSome),
       set := fun r p => do return { p with version := some (← r.asWord) } },
     { name := "command_separator", required := false, isSet := (·.separator.isSome),
       set := fun r p => do return { p with separator := some (← r.asString) } },
     { name := "lowercase", required := false, isSet := (·.lowercase.isSome),
       set := fun r p => do return { p with lowercase := some (← r.asBool) } },
     { name := "unknown_words", required := false, isSet := (·.unknownWords.isSome),
       set := fun r p => do
         return { p with unknownWords := some (← r.asChoice UnknownWords.choices) } },
     { name := "catalog", required := false, isSet := (·.catalog.isSome),
       set := fun r p => do
         return { p with catalog := some (← r.asOptional (·.asText "path string")) } }]

/-- Fields that are not known have the usual values. -/
def Partial.complete (p : Partial) : Settings where
  version := p.version.getD currentVersion
  separator := p.separator.getD "."
  lowercase := p.lowercase.getD true
  unknownWords := p.unknownWords.getD .ignore
  catalog := p.catalog.getD none

/-- Settings from JSON text. -/
def ofText (text : String) : Except Json.Fault Settings :=
  Json.decodeText (fun r => (shape.decode {} r).map Partial.complete) text

/-- The settings that a file holds. -/
def ofFile (text : String) : Except SettingsError Settings := do
  let s ← (ofText text).mapError .json
  if s.version = currentVersion then return s else throw (.unsupportedVersion s.version)

/-! ## Files -/

/-- The name of the settings file. -/
def fileName : String := "settings.json"

/-- The name of the file that is written first. -/
def draftName : String := "settings.json.tmp"

variable {m : Type → Type} [Monad m]

/-- Load the settings of a directory; nothing if it has none. -/
def load (storage : Storage m) (directory : String) :
    m (Except SettingsError (Option Settings)) := do
  match ← storage.read (fileIn directory fileName) with
  | .error fault => return if fault.meansAbsent then .ok none else .error (.storage fault)
  | .ok text => return (ofFile text).map some

/-- Save settings in a directory, which is made if it is missing. -/
def save (storage : Storage m) (directory : String) (s : Settings) :
    m (Except SettingsError Unit) := do
  match ← storage.makeDirectories directory with
  | .error fault => return .error (.storage fault)
  | .ok () =>
    match ← storage.write (fileIn directory draftName) s.toJson.pretty with
    | .error fault => return .error (.storage fault)
    | .ok () =>
      let moved ← storage.rename (fileIn directory draftName) (fileIn directory fileName)
      return moved.mapError .storage

end Settings

end CueScript
