import CueScript.Proofs.Command.Fillers
import Mathlib.Data.List.Forall2

set_option autoImplicit false

/-! # Tokens that mean the same

Reading looks at what a token means, and at its text only to pass it over. So one command may stand
for another, under another registry too, if token by token they mean the same (`Alike`): both
compile to the same chain, or fail with the same error, and pass over the same words.

What a token means is asked of the registry in three places: the index has the token, the library
has the definition of its entry, or the index has the word after an equals sign. Registries that
answer alike there give the token the same meaning (`meaning_congr`). -/

namespace CueScript

variable {α : Type}

namespace Registry

/-! ## Reading -/

/-- The second token means to the second registry what the first one means to the first; and if that
    is nothing, it is the same word. -/
structure Alike (r r' : Registry α) (token token' : String) : Prop where
  meaning : r'.meaning token' = r.meaning token
  filler : r.isFiller token = true → token' = token

variable {r r' : Registry α} {tokens tokens' : List String}

theorem alike_of_meaning_eq (h : ∀ token ∈ tokens, r'.meaning token = r.meaning token) :
    List.Forall₂ (Alike r r') tokens tokens :=
  List.forall₂_same.2 fun token ht => ⟨h token ht, fun _ => rfl⟩

theorem Alike.isFiller_eq {token token' : String} (h : Alike r r' token token') :
    r'.isFiller token' = r.isFiller token := by
  simp only [isFiller, h.meaning]

/-- Commands that are alike token by token open and fill the same nodes. -/
theorem readInto_congr (h : List.Forall₂ (Alike r r') tokens tokens') (opened : List (Node α)) :
    r'.readInto opened tokens' = r.readInto opened tokens := by
  induction h generalizing opened with
  | nil => rfl
  | @cons token token' rest rest' halike _ ih =>
    simp only [readInto, halike.meaning]
    cases hm : r.meaning token with
    | error entry => rfl
    | ok meaning =>
      cases meaning with
      | none =>
        -- Only here is the word itself kept.
        simp only [ih, halike.filler (isFiller_iff.2 hm)]
      | some meaning =>
        cases meaning with
        | keyword d => exact ih _
        | value v =>
          dsimp only
          cases Chain.bind? v opened with
          | none => rfl
          | some opened' => exact ih opened'

theorem compile_congr (h : List.Forall₂ (Alike r r') tokens tokens') :
    r'.compile tokens' = r.compile tokens := by
  simp only [compile, readInto_congr h]

theorem fillers_congr (h : List.Forall₂ (Alike r r') tokens tokens') :
    r'.fillers tokens' = r.fillers tokens := by
  induction h with
  | nil => rfl
  | @cons token token' rest rest' halike _ ih =>
    unfold fillers at ih ⊢
    rw [List.filter_cons, List.filter_cons, halike.isFiller_eq, ih]
    split
    · next hfiller => rw [halike.filler hfiller]
    · rfl

theorem compileUnder_congr (h : List.Forall₂ (Alike r r') tokens tokens')
    (policy : UnknownWords) : r'.compileUnder policy tokens' = r.compileUnder policy tokens := by
  rw [compileUnder_eq, compileUnder_eq, compile_congr h]

/-! ## Meanings -/

/-- The word that a token holds after its first equals sign. -/
def assignedWord? (token : String) : Option String :=
  (Text.cutAtFirst '=' token.toList).map fun p => String.ofList p.2

theorem typed?_congr (kind : ValueKind) {raw : List Char}
    (h : r'.resolve? (String.ofList raw) = r.resolve? (String.ofList raw)) :
    r'.typed? kind raw = r.typed? kind raw := by
  cases kind <;> simp [typed?, canonical, h]

/-- Of the registry, a literal only asks the index for the word after its equals sign. -/
theorem literal?_congr {token : String}
    (h : ∀ word ∈ assignedWord? token, r'.resolve? word = r.resolve? word) :
    r'.literal? token = r.literal? token := by
  have hassigned : r'.assigned? token.toList = r.assigned? token.toList := by
    cases hcut : Text.cutAtFirst '=' token.toList with
    | none => simp only [assigned?, hcut, Option.bind_eq_bind, Option.bind_none]
    | some p =>
      have hraw := h (String.ofList p.2) (by simp [assignedWord?, hcut])
      simp only [assigned?, hcut, Option.bind_eq_bind, Option.bind_some, typed?_congr _ hraw]
  simp only [literal?, hassigned]

theorem meaning_congr {token : String} (word : r'.resolve? token = r.resolve? token)
    (definition : ∀ e, r.resolve? token = some e →
      r'.definitionFor e.id e.kind = r.definitionFor e.id e.kind)
    (assigned : ∀ word ∈ assignedWord? token, r'.resolve? word = r.resolve? word) :
    r'.meaning token = r.meaning token := by
  unfold meaning
  rw [word]
  cases htoken : r.resolve? token with
  | none => simp only [literal?_congr assigned]
  | some e => simp only [definition e htoken]

end Registry

end CueScript
