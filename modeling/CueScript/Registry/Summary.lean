import CueScript.Registry

set_option autoImplicit false

/-! # Summary of a registry

The keywords of a registry as text, grouped by kind: each with its aliases, and functions with
their signature, events with what they bind to. -/

namespace CueScript

/-- A list of kinds, as signatures show it. -/
def ValueKind.codes (kinds : List ValueKind) : String := ", ".intercalate (kinds.map code)

/-- The slots of a function: required ones, then optional ones after `opt`. -/
def FunctionRole.parameters {α : Type} (f : FunctionRole α) : String :=
  if f.optional.isEmpty then ValueKind.codes f.required
  else
    ValueKind.codes f.required ++ (if f.required.isEmpty then "" else "; ") ++ "opt " ++
      ValueKind.codes f.optional

/-- What the summary says after the kind of a keyword. -/
def Role.signature {α : Type} : Role α → String
  | .function f =>
    " (" ++ f.parameters ++ ")" ++
      match f.produces with
      | some k => " -> " ++ k.label
      | none => ""
  | .event (.fixed target) => " on " ++ target.text
  | .event .namedElement => " on <element>"
  | .literal _ => ""

/-- The line of one keyword. -/
def Definition.summary {α : Type} (d : Definition α) : String :=
  "  - " ++ d.id ++ (if d.aliases.isEmpty then "" else " [" ++ ", ".intercalate d.aliases ++ "]") ++
    " -- " ++ d.kind.label ++ d.role.signature

namespace Registry

variable {α : Type}

/-- The heading of a kind and the lines of its keywords; nothing if it has none. -/
def summaryOf (r : Registry α) (kind : Kind) : List String :=
  match r.definitionsOf kind with
  | [] => []
  | ds =>
    ("\n" ++ kind.label ++ " (" ++ toString ds.length ++ ")") :: ds.map Definition.summary

/-- The whole summary. -/
def summary (r : Registry α) : String :=
  "\n".intercalate
    (("Keywords (" ++ toString r.size ++ ")") :: Kind.all.flatMap r.summaryOf)

end Registry

end CueScript
