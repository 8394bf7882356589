import CueScript.Catalog.Format
import CueScript.Command.Compile
import CueScript.Engine.EventLoop
import CueScript.Script.Commands
import CueScript.Script.Tokens
import CueScript.Settings
import CueScript.Vocabulary

set_option autoImplicit false

/-! # Sessions

A session has a vocabulary, settings, an event loop and a stage. It runs scripts command by
command: a command that fails is reported, and the next one runs. What a command did to the stage
and to the event loop before it failed stays. -/

namespace CueScript

/-- Whatever can go wrong in a session. -/
inductive SessionError where
  | registration (error : RegistrationError)
  | compile (error : CompileError)
  | execution (error : ExecutionError)
  | catalog (error : CatalogError)
  | settings (error : SettingsError)
  | storage (fault : StorageFault)
  | validation (message : String)

namespace SessionError

/-- The wording of an error. -/
def message : SessionError → String
  | registration e => "registration failed: " ++ e.message
  | compile e => "compile error: " ++ e.message
  | execution e => "execution error: " ++ e.message
  | catalog e => e.message
  | settings e => e.message
  | storage fault => "I/O error: " ++ fault.message
  | validation message => message

/-- The name of the kind of error, for programs that read reports. -/
def code : SessionError → String
  | registration _ => "registration"
  | compile (.incomplete _ _) => "incomplete_command"
  | compile (.unexpected _ _) => "unexpected_keyword"
  | compile (.dangling _) => "invariant_violation"
  | execution _ => "execution"
  | catalog _ => "catalog"
  | settings _ => "settings"
  | storage _ => "io"
  | validation _ => "validation"

/-- An error as JSON. -/
def toJson (e : SessionError) : Json :=
  .object [("code", .string e.code), ("message", .string e.message)]

end SessionError

/-- A session over the basic vocabulary. -/
structure Session where
  registry : Registry StageAction
  settings : Settings
  loop : EventLoop StageAction
  stage : Stage

/-- What a command of a script did. -/
inductive Effect where
  | empty
  | ran (value : Option Value)
  | bound (id : Nat)
  | failed (error : SessionError)

/-- The report on a command: its text, the tokens that meant nothing, and what it did. -/
structure Report where
  command : String
  skipped : List String
  effect : Effect

namespace Report

/-- Did the command fail? -/
def hasFailed (r : Report) : Bool :=
  match r.effect with
  | .failed _ => true
  | _ => false

/-- What a command did, as JSON. -/
def effectJson : Effect → Json
  | .empty => .object [("status", .string "empty")]
  | .ran value => .object [("status", .string "ran"), ("value", .ofOption Value.toJson value)]
  | .bound id => .object [("status", .string "bound"), ("subscription", .count id)]
  | .failed e => .object [("status", .string "failed"), ("error", e.toJson)]

/-- The report as JSON. -/
def toJson (r : Report) : Json :=
  .object [("command", .string r.command), ("skipped", .strings r.skipped),
    ("outcome", effectJson r.effect)]

end Report

namespace Session

/-- The handlers that catalogs may name: the actions of the basic vocabulary. -/
def handlers : HandlerTable StageAction :=
  StageAction.all.foldl (fun t a => t.insert a.name a.handler) .empty

/-- A vocabulary extended by the catalog in a file. -/
def extend {m : Type → Type} [Monad m] (storage : Storage m) (r : Registry StageAction)
    (path : String) : m (Except SessionError (Registry StageAction)) := do
  match ← Catalog.readFile storage path with
  | .error e => return .error (.catalog e)
  | .ok catalog =>
    match r.load handlers catalog with
    | (.ok _, r') => return .ok r'
    | (.error refused, _) => return .error (.catalog (.declaration refused))

/-- Start a session: the basic vocabulary, extended by the catalog of the settings. -/
def start {m : Type → Type} [Monad m] (storage : Storage m) (settings : Settings) :
    m (Except SessionError Session) := do
  match Registry.empty.registerAll Vocabulary.drafts with
  | .error e => return .error (.registration e)
  | .ok basic =>
    match settings.catalog with
    | none => return .ok ⟨basic, settings, .empty, .empty⟩
    | some path =>
      let extended ← extend storage basic path
      return extended.map fun r => ⟨r, settings, .empty, .empty⟩

/-- The tokens of a command under the settings. -/
def tokens (s : Session) (command : String) : List String :=
  Script.tokens s.settings.lowercase command

/-- Compile a command under the policy of the settings. -/
def compile (s : Session) (command : String) : Except SessionError (Command StageAction) :=
  (s.registry.compileUnder s.settings.unknownWords (s.tokens command)).2.mapError .compile

/-- What execution changes. -/
def world (s : Session) : World (EventLoop StageAction) Stage := ⟨s.loop, s.stage⟩

/-- The session after something was executed. -/
def inWorld (s : Session) (w : World (EventLoop StageAction) Stage) : Session :=
  { s with loop := w.host, stage := w.scene }

/-- Compile and execute a command. -/
def runCommand (s : Session) (command : String) :
    Except SessionError (Command StageAction × Option Outcome) × Session :=
  match s.compile command with
  | .error e => (.error e, s)
  | .ok compiled =>
    let (result, w) := compiled.chain.execute StageAction.perform EventLoop.host s.world
    ((result.mapError .execution).map fun outcome => (compiled, outcome), s.inWorld w)

/-- Run a command and report on it. -/
def report (s : Session) (command : String) : Report × Session :=
  match s.runCommand command with
  | (.ok (compiled, none), s') => (⟨command, compiled.skipped, .empty⟩, s')
  | (.ok (compiled, some (.ran value)), s') => (⟨command, compiled.skipped, .ran value⟩, s')
  | (.ok (compiled, some (.bound id)), s') => (⟨command, compiled.skipped, .bound id⟩, s')
  | (.error e, s') => (⟨command, s.registry.fillers (s.tokens command), .failed e⟩, s')

/-- Run commands one after the other. -/
def runAll (s : Session) : List String → List Report × Session
  | [] => ([], s)
  | command :: rest =>
    let (report, s') := s.report command
    let (reports, s'') := s'.runAll rest
    (report :: reports, s'')

/-- Run every command of a script. -/
def runScript (s : Session) (script : String) : List Report × Session :=
  s.runAll (Script.commands s.settings.separator script)

/-- Fire a signal of a target. The answer tells how many bindings ran. -/
def fire (s : Session) (target : Target) (signal : String) : Except SessionError Nat × Session :=
  let (result, w) := EventLoop.fire StageAction.perform target signal s.world
  (result.mapError .execution, s.inWorld w)

/-- Register one declared keyword. -/
def declare (s : Session) (d : Declaration) :
    Except SessionError (Definition StageAction) × Session :=
  match s.registry.declare handlers d with
  | .ok (definition, registry) => (.ok definition, { s with registry })
  | .error e => (.error (.registration e), s)

end Session

end CueScript
