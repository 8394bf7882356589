import CueScript.Proofs.Failure
import CueScript.Registry
import Mathlib.Data.List.Basic

set_option autoImplicit false

/-! # What admission guarantees

A draft becomes a definition only if it names a kind, all its words are new and different, and its
fields fit its kind. `accept_eq_ok_iff` takes the check apart; of its parts, only whether the words
are new is a question about the registry, and the others say what definition the draft describes
(`accept_iff_describes`). `arity_of_role` says that the role that comes out of the check has a
handler for its slots. -/

namespace CueScript

variable {α : Type}

/-- The handler of a function takes one argument for each slot. -/
def Definition.TakesSlots (d : Definition α) : Prop :=
  ∀ role, d.function? = some role → role.handler.arity = d.slots.length

theorem Definition.role_of_function? {d : Definition α} {role : FunctionRole α}
    (h : d.function? = some role) : d.role = .function role := by
  unfold function? at h
  split at h
  · next hrole =>
    cases h
    exact hrole
  · cases h

/-! ## The role of a draft -/

namespace Draft

theorem fittingRole_eq_ok_iff {handler : Handler α} {required optional : List ValueKind}
    {produces : Option ValueKind} {role : FunctionRole α} :
    fittingRole handler required optional produces = .ok role
      ↔ handler.arity = required.length + optional.length
        ∧ role = ⟨required, optional, produces, handler⟩ := by
  simp only [fittingRole]
  split
  · next h => simp [h, eq_comm]
  · next h => simp [h]

/-- The value kinds of a list of kinds are these exactly if the kinds are. -/
theorem valueKinds_eq_ok_iff {ks : List Kind} {vs : List ValueKind} :
    valueKinds ks = .ok vs ↔ ks = vs.map Kind.value := by
  induction ks generalizing vs with
  | nil => cases vs <;> simp [valueKinds]
  | cons k ks ih =>
    cases k with
    | value v =>
      simp only [valueKinds, Kind.valueKind?, map_eq_ok_iff, ih]
      cases vs with
      | nil => simp
      | cons w ws => simp [eq_comm, and_comm]
    | _ => cases vs <;> simp [valueKinds, Kind.valueKind?]

theorem product_eq_ok_iff {d : Draft α} {produces : Option ValueKind} :
    d.product = .ok produces ↔ d.produces = produces.map Kind.value := by
  unfold product
  split
  · next h => cases produces <;> simp [h]
  · next k h => cases k <;> cases produces <;> simp [h, Kind.valueKind?]

/-- A draft gives a function exactly if it has no target and its fields are those of the function. -/
theorem functionRole_eq_ok_iff {d : Draft α} {role : FunctionRole α} :
    d.functionRole = .ok role
      ↔ d.hasTarget = false ∧ d.handler = some role.handler
        ∧ d.required.getD [] = role.required.map Kind.value
        ∧ d.optional = role.optional.map Kind.value ∧ d.produces = role.produces.map Kind.value
        ∧ role.handler.arity = role.required.length + role.optional.length := by
  unfold functionRole
  cases htarget : d.hasTarget with
  | true => simp
  | false =>
    cases hhandler : d.handler with
    | none => simp
    | some handler =>
      simp only [bind_eq_ok_iff, mapError_eq_ok_iff, valueKinds_eq_ok_iff, product_eq_ok_iff,
        fittingRole_eq_ok_iff, Bool.false_eq_true, if_false, true_and, Option.some.injEq]
      constructor
      · rintro ⟨required, hrequired, optional, hoptional, produces, hproduces, harity, rfl⟩
        exact ⟨rfl, hrequired, hoptional, hproduces, harity⟩
      · rintro ⟨rfl, hrequired, hoptional, hproduces, harity⟩
        exact ⟨_, hrequired, _, hoptional, _, hproduces, harity, rfl⟩

/-- The handler of a role takes one argument for each slot. -/
theorem arity_of_role {d : Draft α} {kind : Kind} {role : Role α} (h : d.role kind = .ok role)
    (id : String) (aliases : List String) : (Definition.mk id aliases role).TakesSlots := by
  intro f hf
  cases kind with
  | function =>
    obtain ⟨g, hg, rfl⟩ := map_eq_ok_iff.1 (mapError_eq_ok_iff.1 h)
    cases hf
    simpa [Definition.slots] using (functionRole_eq_ok_iff.1 hg).2.2.2.2.2
  | event =>
    obtain ⟨e, -, rfl⟩ := map_eq_ok_iff.1 (mapError_eq_ok_iff.1 h)
    cases hf
  | loop => cases h
  | conditional => cases h
  | value v =>
    simp only [Draft.role] at h
    split at h
    · cases h
    · cases h
      cases hf

/-- A word without faults is a single word. -/
theorem wordFault?_eq_none_iff {word : String} :
    wordFault? word = none ↔ word ≠ "" ∧ ∀ c ∈ word.toList, Text.isBlank c = false := by
  constructor
  · intro h
    unfold wordFault? at h
    split at h
    · cases h
    · next hall =>
      split at h
      · cases h
      · next hany =>
        refine ⟨?_, by simpa using hany⟩
        rintro rfl
        exact hall rfl
  · rintro ⟨hne, hfree⟩
    obtain ⟨c, cs, hcs⟩ := List.exists_cons_of_ne_nil (mt String.toList_eq_nil_iff.1 hne)
    rw [hcs] at hfree
    have hall : Text.allBlank word.toList = false := by
      simp [hcs, Text.allBlank, hfree c List.mem_cons_self]
    have hany : word.toList.any Text.isBlank = false := by simpa [hcs] using hfree
    simp [wordFault?, hall, hany]

end Draft

/-! ## Acceptance -/

/-- The draft is in order by itself, and this is its definition. -/
structure Draft.Describes (draft : Draft α) (d : Definition α) : Prop where
  words : draft.words = d.words
  single : draft.words.findSome? Draft.wordFault? = none
  distinct : d.words.Nodup
  role : ∃ kind, draft.kind = some kind ∧ draft.role kind = .ok d.role

namespace Registry

/-- No word of a list is taken if none is registered or came before, and all are different. -/
theorem duplicate?_eq_none_iff (r : Registry α) (owner : String) (before ws : List String) :
    r.duplicate? owner before ws = none
      ↔ (∀ w ∈ ws, r.resolve? w = none ∧ w ∉ before) ∧ ws.Nodup := by
  induction ws generalizing before with
  | nil => simp [duplicate?]
  | cons w ws ih =>
    rw [duplicate?]
    cases hw : r.resolve? w with
    | some e => simp [hw]
    | none =>
      by_cases hbefore : w ∈ before
      · simp [hbefore]
      · simp only [hbefore, if_false, ih, List.forall_mem_cons, hw, List.nodup_cons]
        constructor
        · rintro ⟨hws, hnodup⟩
          refine ⟨⟨⟨trivial, not_false⟩, fun x hx => ?_⟩, fun hmem => ?_, hnodup⟩
          · exact ⟨(hws x hx).1, fun hb => (hws x hx).2 (List.mem_cons_of_mem _ hb)⟩
          · exact (hws w hmem).2 List.mem_cons_self
        · rintro ⟨⟨-, hws⟩, hnot, hnodup⟩
          refine ⟨fun x hx => ⟨(hws x hx).1, fun hb => ?_⟩, hnodup⟩
          rcases List.mem_cons.1 hb with rfl | hb
          · exact hnot hx
          · exact (hws x hx).2 hb

/-- A draft is accepted as a definition exactly if it has the words and a kind, no word is at fault
    or taken, and the fields of the draft give the role. -/
theorem accept_eq_ok_iff {r : Registry α} {draft : Draft α} {d : Definition α} :
    r.accept draft = .ok d
      ↔ draft.words = d.words ∧ draft.words.findSome? Draft.wordFault? = none
        ∧ r.duplicate? d.id [] draft.words = none
        ∧ ∃ kind, draft.kind = some kind ∧ draft.role kind = .ok d.role := by
  obtain ⟨id, aliases, role⟩ := d
  unfold accept
  split
  · next hkind => simp [hkind]
  · next kind hkind hwords => simp [hwords, Definition.words]
  · next kind id' aliases' hkind hwords =>
    simp only [hwords, hkind, Definition.words, Option.some.injEq, exists_eq_left',
      List.cons.injEq]
    split
    · next hfault =>
      simp only [hfault, reduceCtorEq, false_and, and_false]
    · next hfault hdup =>
      simp only [reduceCtorEq, false_iff]
      rintro ⟨⟨rfl, rfl⟩, -, hnone, -⟩
      rw [hdup] at hnone
      cases hnone
    · next hfault hdup =>
      rw [map_eq_ok_iff]
      constructor
      · rintro ⟨role', hrole, heq⟩
        cases heq
        exact ⟨⟨rfl, rfl⟩, hfault, hdup, hrole⟩
      · rintro ⟨⟨rfl, rfl⟩, -, -, hrole⟩
        exact ⟨role, hrole, rfl⟩

/-- A draft that describes a definition is accepted as that, wherever all its words are new. -/
theorem accept_iff_describes {r : Registry α} {draft : Draft α} {d : Definition α} :
    r.accept draft = .ok d ↔ draft.Describes d ∧ ∀ w ∈ d.words, r.resolve? w = none := by
  rw [accept_eq_ok_iff]
  constructor
  · rintro ⟨hwords, hsingle, hdup, hrole⟩
    rw [hwords, duplicate?_eq_none_iff] at hdup
    exact ⟨⟨hwords, hsingle, hdup.2, hrole⟩, fun w hw => (hdup.1 w hw).1⟩
  · rintro ⟨h, hnew⟩
    refine ⟨h.words, h.single, ?_, h.role⟩
    rw [h.words, duplicate?_eq_none_iff]
    exact ⟨fun w hw => ⟨hnew w hw, List.not_mem_nil⟩, h.distinct⟩

/-- An accepted definition has new and different words. -/
theorem words_of_accept {r : Registry α} {draft : Draft α} {d : Definition α}
    (h : r.accept draft = .ok d) : (∀ w ∈ d.words, r.resolve? w = none) ∧ d.words.Nodup := by
  obtain ⟨hdescribes, hnew⟩ := accept_iff_describes.1 h
  exact ⟨hnew, hdescribes.distinct⟩

theorem takesSlots_of_accept {r : Registry α} {draft : Draft α} {d : Definition α}
    (h : r.accept draft = .ok d) : d.TakesSlots := by
  obtain ⟨-, -, -, kind, -, hrole⟩ := accept_eq_ok_iff.1 h
  exact Draft.arity_of_role hrole d.id d.aliases

/-- Registering is accepting, and adding what was accepted. -/
theorem register_eq_ok_iff {r r' : Registry α} {draft : Draft α} {d : Definition α} :
    r.register draft = .ok (d, r') ↔ r.accept draft = .ok d ∧ r' = r.add d := by
  unfold register
  rw [map_eq_ok_iff]
  constructor
  · rintro ⟨d', hd', heq⟩
    cases heq
    exact ⟨hd', rfl⟩
  · rintro ⟨hd, rfl⟩
    exact ⟨d, hd, rfl⟩

end Registry

end CueScript
