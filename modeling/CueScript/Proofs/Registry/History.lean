import CueScript.Catalog
import CueScript.Proofs.Registry.Contents

set_option autoImplicit false

/-! # The history of a registry

A registry grows by registering drafts and by loading catalogs, in any order and from nothing;
whatever is refused leaves it as it was. `history` runs such calls and collects the definitions
that come in. At every point of it, index and library hold exactly these definitions, and every
view of the registry shows them (`views_history`). Each of them was described by a draft
(`exists_describes`), so what admission checks can be relied on ever after. -/

namespace CueScript

variable {α : Type}

/-- A call that may change a registry. -/
inductive Registration (α : Type) where
  | draft (draft : Draft α)
  | catalog (handlers : HandlerTable α) (catalog : Catalog)

namespace Registry

/-- The definitions that come in with a list of declarations, up to the first that is refused. -/
def declared (r : Registry α) (handlers : HandlerTable α) :
    List Declaration → List (Definition α)
  | [] => []
  | d :: rest =>
    match r.declare handlers d with
    | .error _ => []
    | .ok (definition, r') => definition :: r'.declared handlers rest

/-- Make a call. The answer holds the definitions that came in. -/
def grow (r : Registry α) : Registration α → List (Definition α) × Registry α
  | .draft d =>
    match r.register d with
    | .error _ => ([], r)
    | .ok (definition, r') => ([definition], r')
  | .catalog handlers c => (r.declared handlers c.declarations, (r.load handlers c).2)

/-- Make calls one after the other, and collect the definitions that come in. -/
def growAll (ds : List (Definition α)) (r : Registry α) :
    List (Registration α) → List (Definition α) × Registry α
  | [] => (ds, r)
  | c :: calls => growAll (ds ++ (r.grow c).1) (r.grow c).2 calls

/-- The definitions and the registry that calls lead to from nothing. -/
def history (calls : List (Registration α)) : List (Definition α) × Registry α :=
  growAll [] .empty calls

/-! ## What one call keeps -/

theorem Holds.register {r r' : Registry α} {ds : List (Definition α)} (h : Holds r ds)
    {draft : Draft α} {d : Definition α} (hr : r.register draft = .ok (d, r')) :
    Holds r' (ds ++ [d]) := by
  obtain ⟨haccept, rfl⟩ := register_eq_ok_iff.1 hr
  exact h.add haccept

theorem Holds.loadFrom {r : Registry α} {ds : List (Definition α)} (h : Holds r ds)
    (handlers : HandlerTable α) (position : Nat) (declarations : List Declaration) :
    Holds (r.loadFrom handlers position declarations).2
      (ds ++ r.declared handlers declarations) := by
  induction declarations generalizing r ds position with
  | nil => simpa [Registry.loadFrom, declared] using h
  | cons declaration rest ih =>
    rw [Registry.loadFrom, declared]
    cases hr : r.declare handlers declaration with
    | error e => simpa using h
    | ok p =>
      obtain ⟨d, r'⟩ := p
      obtain ⟨draft, -, hregister⟩ := bind_eq_ok_iff.1 hr
      simpa using ih (h.register hregister) (position + 1)

theorem Holds.grow {r : Registry α} {ds : List (Definition α)} (h : Holds r ds)
    (c : Registration α) : Holds (r.grow c).2 (ds ++ (r.grow c).1) := by
  cases c with
  | draft draft =>
    rw [Registry.grow]
    cases hr : r.register draft with
    | error e => simpa using h
    | ok p => exact h.register hr
  | catalog handlers c => exact h.loadFrom handlers 1 c.declarations

/-! ## What a history keeps -/

theorem Holds.growAll {r : Registry α} {ds : List (Definition α)} (h : Holds r ds)
    (calls : List (Registration α)) :
    Holds (Registry.growAll ds r calls).2 (Registry.growAll ds r calls).1 := by
  induction calls generalizing r ds with
  | nil => exact h
  | cons c calls ih => exact ih (h.grow c)

theorem holds_history (calls : List (Registration α)) :
    Holds (history calls).2 (history calls).1 :=
  holds_empty.growAll calls

/-! ## What came in -/

/-- What holds of every accepted definition holds of the definitions that declarations bring in. -/
theorem forall_mem_declared {P : Definition α → Prop}
    (haccept : ∀ (r : Registry α) draft d, r.accept draft = .ok d → P d) (r : Registry α)
    (handlers : HandlerTable α) (declarations : List Declaration) :
    ∀ d ∈ r.declared handlers declarations, P d := by
  induction declarations generalizing r with
  | nil => simp [declared]
  | cons declaration rest ih =>
    rw [declared]
    cases hr : r.declare handlers declaration with
    | error e => simp
    | ok p =>
      obtain ⟨draft, -, hregister⟩ := bind_eq_ok_iff.1 hr
      exact List.forall_mem_cons.2
        ⟨haccept r draft p.1 (register_eq_ok_iff.1 hregister).1, ih p.2⟩

/-- What holds of every accepted definition holds of those that came in. -/
theorem forall_mem_growAll {P : Definition α → Prop}
    (haccept : ∀ (r : Registry α) draft d, r.accept draft = .ok d → P d)
    {ds : List (Definition α)} (hds : ∀ d ∈ ds, P d) (r : Registry α)
    (calls : List (Registration α)) : ∀ d ∈ (growAll ds r calls).1, P d := by
  induction calls generalizing ds r with
  | nil => exact hds
  | cons c calls ih =>
    refine ih (List.forall_mem_append.2 ⟨hds, ?_⟩) _
    cases c with
    | draft draft =>
      rw [Registry.grow]
      cases hr : r.register draft with
      | error e => simp
      | ok p => simpa using haccept r draft p.1 (register_eq_ok_iff.1 hr).1
    | catalog handlers c => exact forall_mem_declared haccept r handlers c.declarations

/-- Every definition that came in was described by a draft. -/
theorem exists_describes {calls : List (Registration α)} {d : Definition α}
    (hd : d ∈ (history calls).1) : ∃ draft : Draft α, draft.Describes d := by
  have haccept : ∀ (r : Registry α) draft d, r.accept draft = .ok d →
      ∃ draft : Draft α, draft.Describes d :=
    fun r draft d h => ⟨draft, (accept_iff_describes.1 h).1⟩
  exact forall_mem_growAll haccept (by simp) .empty calls d hd

/-- Every word of the index is a single word. -/
theorem wordFault?_of_resolve? {calls : List (Registration α)} {word : String} {e : Entry}
    (h : (history calls).2.resolve? word = some e) : Draft.wordFault? word = none := by
  obtain ⟨d, hd, hword, -⟩ := (holds_history calls).resolve?_eq_some_iff.1 h
  obtain ⟨draft, hdraft⟩ := exists_describes hd
  have hsingle := hdraft.single
  rw [hdraft.words, List.findSome?_eq_none_iff] at hsingle
  exact hsingle word hword

/-- **Index and library agree.** Whatever was registered and refused before, the index lists the
    words of the definitions that came in, in order and without repetition, and every view of the
    registry shows exactly these definitions. -/
theorem views_history (calls : List (Registration α)) :
    let ds := (history calls).1
    let r := (history calls).2
    r.index.entries = ds.flatMap (fun d => d.words.map fun w => (w, ⟨d.id, d.kind⟩))
      ∧ (ds.flatMap Definition.words).Nodup
      ∧ (∀ id kind d, r.definitionFor id kind = .ok d ↔ d ∈ ds ∧ d.id = id ∧ d.kind = kind)
      ∧ (∀ word, r.lookup word = .ok (ds.find? fun d => word ∈ d.words))
      ∧ r.definitions = ds ∧ ds.Nodup
      ∧ (∀ kind, r.definitionsOf kind = ds.filter fun d => d.kind = kind)
      ∧ r.size = ds.length
      ∧ (r.isEmpty ↔ ds = [])
      ∧ r.verify = .ok () := by
  have h := holds_history calls
  refine ⟨h.index, h.distinct, fun id kind d => h.definitionFor_eq_ok_iff, h.lookup_eq,
    h.definitions_eq, h.nodup, h.definitionsOf_eq, h.size, ?_, h.verify_eq_ok⟩
  rw [h.isEmpty_eq, List.isEmpty_iff]

end Registry

end CueScript
