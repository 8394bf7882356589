import CueScript.Catalog.Schema
import CueScript.Command.Outline
import CueScript.CommandLine.Arguments
import CueScript.Json.Print
import CueScript.Registry.Summary
import CueScript.Session

set_option autoImplicit false

/-! # The program

What the program prints for a request, and the status with which it ends: 0 if all went well, 1 if
something failed, and 2 if the arguments make no request. Files are read from a storage; nothing is
written. -/

namespace CueScript.CommandLine

/-- What the program prints: text, or a JSON document. -/
inductive Printed where
  | text (text : String)
  | json (document : Json)

/-- The text that appears. -/
def Printed.shown : Printed → String
  | text t => t
  | json document => document.pretty ++ "\n"

/-- A run of the program: what it prints, what it says about errors, and its status. -/
structure Transcript where
  printed : List Printed
  complaint : String
  status : Nat

/-- What a task answers: what it prints, and whether all of it went well. -/
structure Outcome where
  printed : Printed
  success : Bool

/-! ## Reports in text -/

/-- What a command did, in brackets after it. -/
def effectText : Effect → String
  | .empty => "no-op"
  | .ran (some value) => "ran -> " ++ value.display
  | .ran none => "ran"
  | .bound id => "bound " ++ bindingName id
  | .failed e => "FAILED: " ++ e.message

/-- The lines on words that meant nothing. -/
def skippedText (indent : String) (skipped : List String) : String :=
  if skipped.isEmpty then "" else indent ++ "skipped: " ++ " ".intercalate skipped ++ "\n"

/-- The report on a command. -/
def reportText (r : Report) : String :=
  r.command ++ "  [" ++ effectText r.effect ++ "]\n" ++ skippedText "    " r.skipped

/-- A signal that was fired, and how many bindings ran. -/
def firedText (fired : String × Nat) : String :=
  "fired " ++ fired.1 ++ ": " ++ toString fired.2 ++ " binding(s)\n"

/-- The stage, unless it is empty. -/
def stageText (s : Stage) : String :=
  if s.isEmpty then "" else "\nStage:\n" ++ s.text ++ "\n"

/-! ## Tasks -/

/-- A target and a signal, written with a colon between them. The last colon counts. -/
def fireArgument (raw : String) : Except SessionError (Target × String) :=
  match Text.cutAtLast ':' raw.toList with
  | some (target, signal) =>
    if signal.isEmpty then .error malformed
    else
      match Target.read (String.ofList target) with
      | .ok t => .ok (t, String.ofList signal)
      | .error fault => .error (.validation fault.message)
  | none => .error malformed
where
  /-- The text is not of this form. -/
  malformed : SessionError :=
    .validation ("--fire expects target:signal, got \"" ++ raw ++ "\"")

/-- Fire signals one after the other, up to the first failure. -/
def fireAll (s : Session) : List String → Except SessionError (List (String × Nat) × Session)
  | [] => .ok ([], s)
  | raw :: rest => do
    let (target, signal) ← fireArgument raw
    match s.fire target signal with
    | (.error e, _) => throw e
    | (.ok count, s') =>
      let (fired, s'') ← fireAll s' rest
      return ((raw, count) :: fired, s'')

/-- Run a script in a session and fire signals after it. -/
def runText (s : Session) (text : String) (fire : List String) (json : Bool) :
    Except SessionError Outcome := do
  let (reports, s') := s.runScript text
  let (fired, s'') ← fireAll s' fire
  let success := reports.all fun r => !r.hasFailed
  if json then
    return ⟨.json (.object
      [("commands", .array (reports.map Report.toJson)),
       ("fired", .array (fired.map fun (event, count) =>
         .object [("event", .string event), ("bindings", .count count)])),
       ("stage", s''.stage.toJson)]), success⟩
  else
    return ⟨.text (String.join (reports.map reportText ++ fired.map firedText) ++
      stageText s''.stage), success⟩

/-- Show how a sentence compiles. -/
def compileSentence (s : Session) (sentence : String) (json : Bool) :
    Except SessionError Outcome := do
  let command ← s.compile sentence
  if json then
    return ⟨.json (.object
      [("tree", command.chain.toJson), ("skipped", .strings command.skipped)]), true⟩
  else
    let tree := if command.isEmpty then "(no keywords)" else command.chain.outline
    return ⟨.text (tree ++ "\n" ++ skippedText "" command.skipped), true⟩

/-- An index entry as JSON. -/
def entryJson (word : String) (e : Entry) : Json :=
  .object [("word", .string word), ("keyword", .string e.id), ("type", .string e.kind.code)]

/-- List the keywords of a session. -/
def listKeywords (s : Session) (json : Bool) : Outcome :=
  if json then
    ⟨.json (.array (s.registry.index.entries.map fun (word, e) => entryJson word e)), true⟩
  else ⟨.text (s.registry.summary ++ "\n"), true⟩

variable {m : Type → Type} [Monad m]

/-- The settings of a directory; the usual ones if there is no directory, or nothing in it. -/
def settingsOf (storage : Storage m) : Option String → m (Except SessionError Settings)
  | none => return .ok {}
  | some directory => do
    let loaded ← Settings.load storage directory
    return (loaded.mapError .settings).map (·.getD {})

/-- Start a session and go on with it. -/
def withSession (storage : Storage m) (settings : Settings)
    (f : Session → m (Except SessionError Outcome)) : m (Except SessionError Outcome) := do
  match ← Session.start storage settings with
  | .error e => return .error e
  | .ok s => f s

/-- Carry out a task. -/
def perform (storage : Storage m) (settings : Settings) (json : Bool) :
    Task → m (Except SessionError Outcome)
  | .run script fire catalog =>
    withSession storage { settings with catalog := catalog.or settings.catalog } fun s => do
      match ← storage.read script with
      | .error fault => return .error (.storage fault)
      | .ok text => return runText s text fire json
  | .compile sentence =>
    withSession storage settings fun s => return compileSentence s sentence json
  | .keywords true => return .ok ⟨.json Catalog.schema, true⟩
  | .keywords false => withSession storage settings fun s => return .ok (listKeywords s json)

/-- Carry out a request. -/
def answer (storage : Storage m) (request : Request) : m Transcript := do
  let result ← match ← settingsOf storage request.settings with
    | .error e => pure (.error e)
    | .ok settings => perform storage settings request.json request.task
  match result with
  | .ok outcome => return ⟨[outcome.printed], "", if outcome.success then 0 else 1⟩
  | .error e => return ⟨[], "Error: " ++ e.message ++ "\n", 1⟩

/-- The name and version of the program. -/
def versionText : String := "playwrite-cli 0.1.0\n"

/-- How the program is used. -/
def helpText : String :=
  "Plain-English command scripts\n\n" ++
  "Usage: playwrite-cli [OPTIONS] <COMMAND>\n\n" ++
  "Commands:\n" ++
  "  run <SCRIPT> [--fire <FIRE>]... [--catalog <CATALOG>]  Run a script file, then fire events\n" ++
  "  compile <SENTENCE>                                     Compile one sentence and print its tree\n" ++
  "  keywords [--schema]                                    List registered keywords\n\n" ++
  "Options:\n" ++
  "  --settings <SETTINGS>  Directory holding settings.json\n" ++
  "  --json                 Output raw JSON instead of formatted text\n" ++
  "  -h, --help             Print help\n" ++
  "  -V, --version          Print version\n"

/-- Run the program. -/
def invoke (storage : Storage m) (arguments : List String) : m Transcript := do
  match parse arguments with
  | .ok request => answer storage request
  | .error .help => return ⟨[.text helpText], "", 0⟩
  | .error .version => return ⟨[.text versionText], "", 0⟩
  | .error (.misuse reason) =>
    return ⟨[], "error: " ++ reason ++ "\n\nFor more information, try '--help'.\n", 2⟩

end CueScript.CommandLine
