import CueScript.Text.Cut

set_option autoImplicit false

/-! # Command line arguments

The arguments of the program: a subcommand with its own arguments, and options. The options
`--settings` and `--json` may stand before the subcommand or after it; the one after it counts.
An option with a value takes it from the next argument, which must not look like an option, or
after an equals sign. After `--` every argument is a plain word.

Arguments are read from left to right, and the first that decides ends the reading: a request for
help or for the version, or one that does not fit. Only then is asked whether all that is needed
is there. -/

namespace CueScript.CommandLine

/-- What the user asks for. -/
inductive Task where
  | run (script : String) (fire : List String) (catalog : Option String)
  | compile (sentence : String)
  | keywords (schema : Bool)
deriving DecidableEq, Repr

/-- A task, with the options that every task has. -/
structure Request where
  task : Task
  settings : Option String
  json : Bool
deriving DecidableEq, Repr

/-- Arguments that make no request. -/
inductive Refusal where
  | help
  | version
  | misuse (reason : String)
deriving DecidableEq, Repr

/-- An option: whether it takes a value, whether the value must not be empty, and whether it may be
    given several times. -/
structure OptionSpec where
  name : String
  takesValue : Bool
  isPath : Bool
  isRepeatable : Bool
deriving DecidableEq, Repr

/-- What one level of arguments may hold: its options, how many words, and whether a word must not
    be empty. `asksVersion` tells whether the version may be asked for. -/
structure Grammar where
  options : List OptionSpec
  words : Nat
  wordIsPath : Bool
  asksVersion : Bool
deriving DecidableEq, Repr

/-- What is collected from one level: options with their values, and words, both in order. -/
structure Collected where
  options : List (String × String)
  words : List String
deriving DecidableEq, Repr

namespace Collected

/-- Nothing. -/
def empty : Collected := ⟨[], []⟩

/-- Was the option given? -/
def has (c : Collected) (name : String) : Bool := c.options.any (·.1 = name)

/-- The values that were given to an option, in order. -/
def values (c : Collected) (name : String) : List String :=
  (c.options.filter (·.1 = name)).map Prod.snd

/-- The value of an option that may be given once. -/
def value? (c : Collected) (name : String) : Option String := (c.values name).head?

/-- One more option with its value, if it fits. -/
def addOption (c : Collected) (spec : OptionSpec) (value : String) : Except Refusal Collected :=
  if !spec.isRepeatable && c.has spec.name then
    .error (.misuse ("--" ++ spec.name ++ " cannot be used multiple times"))
  else if spec.isPath && value.isEmpty then
    .error (.misuse ("--" ++ spec.name ++ " needs a value"))
  else .ok { c with options := c.options ++ [(spec.name, value)] }

/-- One more word, if it fits. -/
def addWord (c : Collected) (g : Grammar) (word : String) : Except Refusal Collected :=
  if g.words ≤ c.words.length then .error (.misuse ("unexpected argument " ++ word))
  else if g.wordIsPath && word.isEmpty then .error (.misuse "a path cannot be empty")
  else .ok { c with words := c.words ++ [word] }

end Collected

/-! ## Reading -/

/-- The form of an argument. -/
inductive Form where
  | separator
  | long (name : String) (value : Option String)
  | short (letter : Char)
  | word
deriving DecidableEq, Repr

/-- The form of an argument; a dash alone is a word. -/
def formOf (argument : String) : Form :=
  match argument.toList with
  | ['-', '-'] => .separator
  | '-' :: '-' :: rest =>
    match Text.cutAtFirst '=' rest with
    | some (name, value) => .long (String.ofList name) (some (String.ofList value))
    | none => .long (String.ofList rest) none
  | '-' :: letter :: _ => .short letter
  | _ => .word

/-- An option by its name. -/
def Grammar.option? (g : Grammar) (name : String) : Option OptionSpec :=
  g.options.find? (·.name = name)

/-- An argument that begins with one dash: a request for help or for the version. -/
def Grammar.short (g : Grammar) (letter : Char) : Refusal :=
  if letter = 'h' then .help
  else if letter = 'V' && g.asksVersion then .version
  else .misuse ("unexpected argument -" ++ String.ofList [letter])

/-- Does an option named `name` ask for help or for the version? -/
def Grammar.asked? (g : Grammar) (name : String) : Option Refusal :=
  if name = "help" then some .help
  else if name = "version" && g.asksVersion then some .version
  else none

/-- How an option without a value of its own goes on. -/
inductive Reading where
  | done (collected : Collected)
  | needsValue (spec : OptionSpec)
deriving DecidableEq

/-- Read an option. -/
def Grammar.long (g : Grammar) (c : Collected) (name : String) (value : Option String) :
    Except Refusal Reading :=
  match g.asked? name, g.option? name, value with
  | some refusal, _, none => .error refusal
  | some _, _, some _ => .error (.misuse ("unexpected value for --" ++ name))
  | none, none, _ => .error (.misuse ("unexpected argument --" ++ name))
  | none, some spec, some v =>
    if spec.takesValue then (c.addOption spec v).map .done
    else .error (.misuse ("unexpected value for --" ++ name))
  | none, some spec, none =>
    if spec.takesValue then .ok (.needsValue spec) else (c.addOption spec "").map .done

/-- Read arguments that are all plain words. -/
def Grammar.collectWords (g : Grammar) (c : Collected) : List String → Except Refusal Collected
  | [] => .ok c
  | argument :: rest => do
    let c' ← c.addWord g argument
    g.collectWords c' rest

/-- Read the arguments of one level. With `stopAtWord` reading ends at the first word, and the
    answer tells what is left; otherwise all is read. -/
def Grammar.collect (g : Grammar) (stopAtWord : Bool) (c : Collected) :
    List String → Except Refusal (Collected × List String)
  | [] => .ok (c, [])
  | argument :: rest =>
    match formOf argument with
    | .separator => (g.collectWords c rest).map (·, [])
    | .short letter => .error (g.short letter)
    | .word =>
      if stopAtWord then .ok (c, argument :: rest)
      else do
        let c' ← c.addWord g argument
        g.collect stopAtWord c' rest
    | .long name value => do
      match ← g.long c name value with
      | .done c' => g.collect stopAtWord c' rest
      | .needsValue spec =>
        match rest with
        | [] => throw (.misuse ("--" ++ name ++ " needs a value"))
        | v :: rest' =>
          if formOf v = .word then
            let c' ← c.addOption spec v
            g.collect stopAtWord c' rest'
          else throw (.misuse ("--" ++ name ++ " needs a value"))

/-! ## The program's arguments -/

/-- The directory of the settings. -/
def settingsOption : OptionSpec := ⟨"settings", true, true, false⟩

/-- JSON in place of text. -/
def jsonOption : OptionSpec := ⟨"json", false, false, false⟩

/-- The options that may stand anywhere. -/
def globalOptions : List OptionSpec := [settingsOption, jsonOption]

/-- The level before the subcommand, where words can only be subcommands. -/
def topGrammar : Grammar := ⟨globalOptions, 0, false, true⟩

/-- The signals to fire after a script. -/
def fireOption : OptionSpec := ⟨"fire", true, false, true⟩

/-- A catalog in place of the one in the settings. -/
def catalogOption : OptionSpec := ⟨"catalog", true, true, false⟩

/-- The schema of catalogs in place of the list of keywords. -/
def schemaOption : OptionSpec := ⟨"schema", false, false, false⟩

/-- The arguments of `run`. -/
def runGrammar : Grammar := ⟨globalOptions ++ [fireOption, catalogOption], 1, true, false⟩

/-- The arguments of `compile`. -/
def compileGrammar : Grammar := ⟨globalOptions, 1, false, false⟩

/-- The arguments of `keywords`. -/
def keywordsGrammar : Grammar := ⟨globalOptions ++ [schemaOption], 0, false, false⟩

/-- The arguments of a subcommand. -/
def grammarOf? : String → Option Grammar
  | "run" => some runGrammar
  | "compile" => some compileGrammar
  | "keywords" => some keywordsGrammar
  | _ => none

/-- The task that a subcommand asks for, if all that it needs is there. -/
def taskOf (subcommand : String) (c : Collected) : Except Refusal Task :=
  match subcommand, c.words with
  | "run", [script] => .ok (.run script (c.values "fire") (c.value? "catalog"))
  | "compile", [sentence] => .ok (.compile sentence)
  | "keywords", [] => .ok (.keywords (c.has "schema"))
  | _, _ => .error (.misuse "an argument is missing")

/-- The help on a subcommand that is named after `help`. -/
def helpOn : List String → Refusal
  | [] => .help
  | [topic] =>
    if topic = "help" || (grammarOf? topic).isSome then .help
    else .misuse ("unrecognized subcommand " ++ topic)
  | _ => .misuse "unrecognized subcommand"

/-- The request that the arguments make. -/
def parse (arguments : List String) : Except Refusal Request := do
  let (top, rest) ← topGrammar.collect true .empty arguments
  match rest with
  | [] => throw (.misuse "a subcommand is needed")
  | subcommand :: rest =>
    match grammarOf? subcommand with
    | none =>
      if subcommand = "help" then throw (helpOn rest)
      else throw (.misuse ("unrecognized subcommand " ++ subcommand))
    | some grammar =>
      let (inner, _) ← grammar.collect false .empty rest
      let task ← taskOf subcommand inner
      return { task, settings := (inner.value? "settings").or (top.value? "settings"),
               json := inner.has "json" || top.has "json" }

end CueScript.CommandLine
