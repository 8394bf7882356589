import CueScript.Proofs.Command.Reading
import Mathlib.Data.List.Induction

set_option autoImplicit false

/-! # Room for values

Where a value goes depends on the slots of all open nodes, but whether there is room for it does
not. For each kind, the vacant slots and the values that were read always add up to the slots that
the keywords declared (`vacant_add_supply`). So a command is refused for a value without a slot
exactly if the values of some kind run ahead of the slots declared for it, and the first token by
which they do is the one that is reported (`compile_unexpected_iff`). -/

namespace CueScript

variable {α : Type}

namespace Registry

/-- How many of the tokens are values of a kind. -/
def supply (r : Registry α) (kind : ValueKind) (tokens : List String) : Nat :=
  (tokens.filterMap r.value?).countP fun v => v.kind = .value kind

/-- How many slots of a kind the keywords among the tokens declare. -/
def room (r : Registry α) (kind : ValueKind) (tokens : List String) : Nat :=
  ((tokens.filterMap r.keyword?).flatMap Definition.slots).countP fun spec => spec.kind = kind

/-- Are there more values of some kind than slots for them? -/
def Overflows (r : Registry α) (tokens : List String) : Prop :=
  ∃ kind, r.room kind tokens < r.supply kind tokens

end Registry

/-- How many slots of a kind are empty in these nodes. -/
def Chain.vacant (kind : ValueKind) (opened : List (Node α)) : Nat :=
  (opened.flatMap Node.slots).countP fun s => s.isOpenFor (.value kind)

/-! ## Vacant slots -/

namespace Chain

/-- All slots of a new node are vacant. -/
theorem vacant_ofDefinition (kind : ValueKind) (d : Definition α) (opened : List (Node α)) :
    vacant kind (.ofDefinition d :: opened)
      = d.slots.countP (fun spec => spec.kind = kind) + vacant kind opened := by
  have hopen : ∀ spec, (Slot.ofSpec spec).isOpenFor (.value kind) = decide (spec.kind = kind) := by
    simp [Slot.isOpenFor, Slot.isEmpty, Slot.ofSpec]
  simp only [vacant, Node.ofDefinition, List.flatMap_cons, List.countP_append, List.countP_map,
    Function.comp_def, hopen]

/-- A value takes one vacant slot, of its kind. -/
theorem vacant_of_bind? {v : Value} {opened opened' : List (Node α)}
    (h : bind? v opened = some opened') (kind : ValueKind) :
    vacant kind opened = vacant kind opened' + if v.kind = .value kind then 1 else 0 := by
  obtain ⟨inner, n, n', outer, rfl, hn, -, rfl⟩ := bind?_eq_some_iff.1 h
  obtain ⟨before, s, after, hslots, hs, -, rfl⟩ := Node.take?_eq_some_iff.1 hn
  obtain ⟨hkind, hempty⟩ := Slot.isOpenFor_iff.1 hs
  have hopen : s.isOpenFor (.value kind) = decide (v.kind = .value kind) := by
    simp [Slot.isOpenFor, Slot.isEmpty, hempty, ← hkind]
  have htaken : Slot.isOpenFor { s with content := .value v } (.value kind) = false := by
    simp [Slot.isOpenFor, Slot.isEmpty]
  simp only [vacant, List.flatMap_append, List.flatMap_cons, hslots, List.countP_append,
    List.countP_cons, hopen, htaken, decide_eq_true_eq, Bool.false_eq_true, if_false]
  omega

/-- A value finds no room exactly if no slot of its kind is vacant. -/
theorem bind?_eq_none_iff_vacant {v : Value} {kind : ValueKind} (hkind : v.kind = .value kind)
    {opened : List (Node α)} : bind? v opened = none ↔ vacant kind opened = 0 := by
  simp only [bind?_eq_none_iff, Node.take?_eq_none_iff, hkind, vacant, List.countP_eq_zero,
    List.mem_flatMap, Bool.not_eq_true]
  constructor
  · rintro h s ⟨n, hn, hs⟩
    exact h n hn s hs
  · exact fun h n hn s hs => h s ⟨n, hn, hs⟩

end Chain

/-! ## Counting tokens -/

namespace Registry

variable {r : Registry α}

theorem supply_append_singleton (r : Registry α) (kind : ValueKind) (read : List String)
    (token : String) :
    r.supply kind (read ++ [token])
      = r.supply kind read + (r.value? token).toList.countP fun v => v.kind = .value kind := by
  unfold supply
  cases hv : r.value? token <;> simp [hv]

theorem room_append_singleton (r : Registry α) (kind : ValueKind) (read : List String)
    (token : String) :
    r.room kind (read ++ [token]) = r.room kind read
      + ((r.keyword? token).toList.flatMap Definition.slots).countP fun spec => spec.kind = kind := by
  unfold room
  cases hd : r.keyword? token <;> simp [hd]

theorem supply_append_value {token : String} {v : Value}
    (hm : r.meaning token = .ok (some (.value v))) (kind : ValueKind) (read : List String) :
    r.supply kind (read ++ [token])
      = r.supply kind read + if v.kind = .value kind then 1 else 0 := by
  have hv : r.value? token = some v := by simp [value?, hm]
  rw [supply_append_singleton, hv]
  simp [List.countP_cons]

theorem room_append_value {token : String} {v : Value}
    (hm : r.meaning token = .ok (some (.value v))) (kind : ValueKind) (read : List String) :
    r.room kind (read ++ [token]) = r.room kind read := by
  have hd : r.keyword? token = none := by simp [keyword?, hm]
  simp [room_append_singleton, hd]

/-- Vacant slots and values that were read are what the keywords declared. -/
theorem vacant_add_supply {tokens passed : List String} {opened : List (Node α)}
    (h : r.readInto [] tokens = (passed, .ok opened)) (kind : ValueKind) :
    Chain.vacant kind opened + r.supply kind tokens = r.room kind tokens := by
  refine readInto_keeps (P := fun read opened =>
    Chain.vacant kind opened + r.supply kind read = r.room kind read) rfl ?filler ?keyword ?value h
  case filler =>
    intro read opened token hread hm
    have hv : r.value? token = none := by simp [value?, hm]
    have hd : r.keyword? token = none := by simp [keyword?, hm]
    simpa [supply_append_singleton, room_append_singleton, hv, hd] using hread
  case keyword =>
    intro read opened token d hread hm
    have hv : r.value? token = none := by simp [value?, hm]
    have hd : r.keyword? token = some d := by simp [keyword?, hm]
    have hsupply : r.supply kind (read ++ [token]) = r.supply kind read := by
      simp [supply_append_singleton, hv]
    have hroom : r.room kind (read ++ [token])
        = r.room kind read + d.slots.countP fun spec => spec.kind = kind := by
      simp [room_append_singleton, hd]
    rw [Chain.vacant_ofDefinition, hsupply, hroom]
    omega
  case value =>
    intro read opened token v opened' hread hm hbind
    have hvacant := Chain.vacant_of_bind? hbind kind
    rw [supply_append_value hm, room_append_value hm]
    omega

/-- What was read without failing has room for its values. -/
theorem not_overflows_of_readInto {tokens passed : List String} {opened : List (Node α)}
    (h : r.readInto [] tokens = (passed, .ok opened)) : ¬ r.Overflows tokens := by
  rintro ⟨kind, hlt⟩
  have hsum := vacant_add_supply h kind
  omega

/-- A value makes the tokens before it overflow exactly if no open node has a slot for it. -/
theorem overflows_append_iff {tokens passed : List String} {opened : List (Node α)}
    {token : String} {v : Value} (h : r.readInto [] tokens = (passed, .ok opened))
    (hm : r.meaning token = .ok (some (.value v))) :
    r.Overflows (tokens ++ [token]) ↔ Chain.bind? v opened = none := by
  constructor
  · intro hoverflows
    by_contra hsome
    obtain ⟨opened', hbind⟩ := Option.ne_none_iff_exists'.1 hsome
    have hread : r.readInto [] (tokens ++ [token]) = (passed, .ok opened') := by
      simp [readInto_append, h, readInto, hm, hbind]
    exact not_overflows_of_readInto hread hoverflows
  · intro hbind
    obtain ⟨kind, hkind⟩ := isTyped_of_meaning hm
    have hsum := vacant_add_supply h kind
    rw [(Chain.bind?_eq_none_iff_vacant hkind).1 hbind] at hsum
    refine ⟨kind, ?_⟩
    rw [supply_append_value hm, room_append_value hm, if_pos hkind]
    omega

/-- The token by which values run ahead of slots is a value. -/
theorem exists_value_of_overflows {read : List String} {token : String}
    (hread : ¬ r.Overflows read) (h : r.Overflows (read ++ [token])) :
    ∃ v, r.value? token = some v := by
  obtain ⟨kind, hlt⟩ := h
  have hle : r.supply kind read ≤ r.room kind read := by
    by_contra hgt
    exact hread ⟨kind, by omega⟩
  cases hv : r.value? token with
  | some v => exact ⟨v, rfl⟩
  | none =>
    rw [supply_append_singleton, room_append_singleton, hv] at hlt
    simp only [Option.toList_none, List.countP_nil] at hlt
    omega

/-- If values run ahead of slots somewhere, there is a first token by which they do. -/
theorem exists_first_overflow {tokens : List String}
    (h : ∃ read, read <+: tokens ∧ r.Overflows read) :
    ∃ read token, read ++ [token] <+: tokens ∧ r.Overflows (read ++ [token])
      ∧ ∀ read', read' <+: read → ¬ r.Overflows read' := by
  induction tokens using List.reverseRecOn with
  | nil =>
    obtain ⟨read, hread, kind, hlt⟩ := h
    rw [List.prefix_nil.1 hread] at hlt
    cases hlt
  | append_singleton tokens token ih =>
    by_cases hearlier : ∃ read, read <+: tokens ∧ r.Overflows read
    · obtain ⟨read, token', hread, hfirst⟩ := ih hearlier
      exact ⟨read, token', hread.trans (List.prefix_append _ _), hfirst⟩
    · -- No part of the tokens before overflows, so it is the last token that does it.
      obtain ⟨read, hread, hoverflows⟩ := h
      rcases List.prefix_concat_iff.1 hread with rfl | hread
      · exact ⟨tokens, token, List.prefix_rfl, hoverflows, fun read' hread' ho =>
          hearlier ⟨read', hread', ho⟩⟩
      · exact absurd ⟨read, hread, hoverflows⟩ hearlier

/-! ## Reading -/

/-- Reading goes through as long as no part of the tokens overflows. -/
theorem Holds.exists_readInto {ds : List (Definition α)} (h : Holds r ds) {tokens : List String}
    (hroom : ∀ read, read <+: tokens → ¬ r.Overflows read) :
    ∃ passed opened, r.readInto [] tokens = (passed, .ok opened) := by
  induction tokens using List.reverseRecOn with
  | nil => exact ⟨_, _, rfl⟩
  | append_singleton tokens token ih =>
    obtain ⟨passed, opened, hread⟩ := ih fun read hpre =>
      hroom read (hpre.trans (List.prefix_append _ _))
    rw [readInto_append, hread]
    obtain ⟨meaning, hm⟩ := h.exists_meaning token
    cases meaning with
    | none => exact ⟨passed ++ [token], opened, by simp [readInto, hm]⟩
    | some meaning =>
      cases meaning with
      | keyword d => exact ⟨passed, .ofDefinition d :: opened, by simp [readInto, hm]⟩
      | value v =>
        cases hbind : Chain.bind? v opened with
        | some opened' => exact ⟨passed, opened', by simp [readInto, hm, hbind]⟩
        | none =>
          exact absurd ((overflows_append_iff hread hm).2 hbind) (hroom _ List.prefix_rfl)

/-- Reading stops at the token by which values run ahead of slots. -/
theorem Holds.readInto_eq_unexpected {ds : List (Definition α)} (h : Holds r ds)
    {read tokens : List String} {token : String} {v : Value} (htokens : read ++ [token] <+: tokens)
    (hroom : ∀ read', read' <+: read → ¬ r.Overflows read')
    (hoverflows : r.Overflows (read ++ [token])) (hv : r.value? token = some v) :
    ∃ passed, r.readInto [] tokens = (passed, .error (.unexpected v.display v.kind)) := by
  obtain ⟨rest, rfl⟩ := htokens
  obtain ⟨passed, opened, hread⟩ := h.exists_readInto hroom
  have hbind := (overflows_append_iff hread (value?_eq_some_iff.1 hv)).1 hoverflows
  refine ⟨passed, ?_⟩
  rw [List.append_assoc, readInto_append, hread]
  simp [readInto_value hv, hbind]

/-- Finishing a command is refused only for a required slot. -/
theorem finish_cases (passed : List String) (opened : List (Node α)) :
    (∃ c, finish passed opened = .ok c)
      ∨ ∃ keyword missing, finish passed opened = .error (.incomplete keyword missing) := by
  simp only [finish, Chain.incomplete?]
  split
  · next error herror =>
    obtain ⟨n, -, hn⟩ := List.exists_of_findSome?_eq_some herror
    obtain ⟨missing, -, rfl⟩ := Option.map_eq_some_iff.1 hn
    exact Or.inr ⟨n.keyword, missing, rfl⟩
  · exact Or.inl ⟨_, rfl⟩

/-! ## Compiling -/

theorem Holds.compile_of_room {ds : List (Definition α)} (h : Holds r ds) {tokens : List String}
    (hroom : ∀ read, read <+: tokens → ¬ r.Overflows read) :
    (∃ c, (r.compile tokens).result = .ok c)
      ∨ ∃ keyword missing, (r.compile tokens).result = .error (.incomplete keyword missing) := by
  obtain ⟨passed, opened, hread⟩ := h.exists_readInto hroom
  simpa only [compile, hread, Except.bind] using finish_cases passed opened

theorem Holds.compile_eq_unexpected {ds : List (Definition α)} (h : Holds r ds)
    {read tokens : List String} {token : String} {v : Value} (htokens : read ++ [token] <+: tokens)
    (hroom : ∀ read', read' <+: read → ¬ r.Overflows read')
    (hoverflows : r.Overflows (read ++ [token])) (hv : r.value? token = some v) :
    (r.compile tokens).result = .error (.unexpected v.display v.kind) := by
  obtain ⟨passed, hread⟩ := h.readInto_eq_unexpected htokens hroom hoverflows hv
  simp only [compile, hread, Except.bind]

/-- Either there is room for all values, and at most a required slot is left empty, or compiling
    stops at the first token by which values run ahead of slots. -/
theorem Holds.compile_cases {ds : List (Definition α)} (h : Holds r ds) (tokens : List String) :
    ((¬ ∃ read, read <+: tokens ∧ r.Overflows read)
        ∧ ((∃ c, (r.compile tokens).result = .ok c)
          ∨ ∃ keyword missing, (r.compile tokens).result = .error (.incomplete keyword missing)))
      ∨ ∃ read token v, read ++ [token] <+: tokens ∧ r.Overflows (read ++ [token])
        ∧ (∀ read', read' <+: read → ¬ r.Overflows read') ∧ r.value? token = some v
        ∧ (r.compile tokens).result = .error (.unexpected v.display v.kind) := by
  by_cases hoverflow : ∃ read, read <+: tokens ∧ r.Overflows read
  · obtain ⟨read, token, htokens, hoverflows, hroom⟩ := exists_first_overflow hoverflow
    obtain ⟨v, hv⟩ := exists_value_of_overflows (hroom read List.prefix_rfl) hoverflows
    exact Or.inr ⟨read, token, v, htokens, hoverflows, hroom, hv,
      h.compile_eq_unexpected htokens hroom hoverflows hv⟩
  · exact Or.inl ⟨hoverflow, h.compile_of_room fun read hread ho => hoverflow ⟨read, hread, ho⟩⟩

/-- **A value is unexpected when its kind is full.** Compiling ends with the error exactly if some
    initial part of the tokens has more values of a kind than slots for them; then the error names
    the last token of the shortest such part. Otherwise the command compiles, or a required slot is
    left empty. -/
theorem compile_unexpected_iff (calls : List (Registration α)) (tokens : List String) :
    let r := (history calls).2
    let result := (r.compile tokens).result
    ((∃ word kind, result = .error (.unexpected word kind))
        ↔ ∃ read, read <+: tokens ∧ r.Overflows read)
      ∧ (∀ word kind, result = .error (.unexpected word kind)
        ↔ ∃ read token v, read ++ [token] <+: tokens ∧ r.Overflows (read ++ [token])
          ∧ (∀ read', read' <+: read → ¬ r.Overflows read')
          ∧ r.value? token = some v ∧ word = v.display ∧ kind = v.kind)
      ∧ ((∃ c, result = .ok c)
        ∨ (∃ keyword missing, result = .error (.incomplete keyword missing))
        ∨ ∃ word kind, result = .error (.unexpected word kind)) := by
  intro r result
  have hr : Holds r (history calls).1 := holds_history calls
  rcases hr.compile_cases tokens with
    ⟨hroom, hresult⟩ | ⟨read, token, v, htokens, hoverflows, hfirst, hv, hresult⟩
  · have hnot : ∀ word kind, result ≠ .error (.unexpected word kind) := by
      rintro word kind heq
      rcases hresult with ⟨c, hc⟩ | ⟨keyword, missing, hc⟩
      · cases hc.symm.trans heq
      · cases hc.symm.trans heq
    refine ⟨⟨fun ⟨word, kind, h⟩ => absurd h (hnot word kind), fun h => absurd h hroom⟩,
      fun word kind => ⟨fun h => absurd h (hnot word kind), ?_⟩, hresult.imp_right Or.inl⟩
    rintro ⟨read, token, v, htokens, hoverflows, -⟩
    exact absurd ⟨_, htokens, hoverflows⟩ hroom
  · refine ⟨⟨fun _ => ⟨_, htokens, hoverflows⟩, fun _ => ⟨_, _, hresult⟩⟩,
      fun word kind => ⟨fun h => ?_, ?_⟩, Or.inr (Or.inr ⟨_, _, hresult⟩)⟩
    · obtain ⟨rfl, rfl⟩ := CompileError.unexpected.inj (Except.error.inj (h.symm.trans hresult))
      exact ⟨read, token, v, htokens, hoverflows, hfirst, hv, rfl, rfl⟩
    · rintro ⟨read', token', v', htokens', hoverflows', hfirst', hv', rfl, rfl⟩
      exact hr.compile_eq_unexpected htokens' hfirst' hoverflows' hv'

end Registry

end CueScript
