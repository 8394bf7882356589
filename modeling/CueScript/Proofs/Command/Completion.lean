import CueScript.Proofs.Command.Places
import CueScript.Proofs.Command.Room

set_option autoImplicit false

/-! # One more value

A value that comes after a command which compiles may go into the very slot that awaits a product.
The product then goes to the next slot of its kind, or nowhere. In either case no slot is empty that
was not empty before (`Slot.Complete.awaitFirst_of_fill`), and this is kept by every node around
(`Chain.asComplete_close`). So the longer command lacks no required value: it compiles, with the
value in one more place and all others where they were, or there is no slot left for the value
(`compile_append_value`). -/

namespace CueScript

variable {α : Type}

/-! ## Slots -/

namespace Slot

/-- No required slot is empty. -/
def Complete (slots : List Slot) : Prop := ∀ s ∈ slots, s.required = true → s.content ≠ .empty

theorem complete_cons_iff {s : Slot} {rest : List Slot} :
    Complete (s :: rest) ↔ (s.required = true → s.content ≠ .empty) ∧ Complete rest :=
  List.forall_mem_cons

/-- The slots with the first open one of the kind awaiting a product, if there is one. -/
def awaitFirst (kind : Kind) (slots : List Slot) : List Slot :=
  (fillFirst? kind .awaited slots).getD slots

theorem awaitFirst_cons_of_open {kind : Kind} {s : Slot} (h : s.isOpenFor kind = true)
    (rest : List Slot) :
    awaitFirst kind (s :: rest) = { s with content := .awaited } :: rest := by
  simp [awaitFirst, fillFirst?, h]

theorem awaitFirst_cons_of_not_open {kind : Kind} {s : Slot} (h : ¬ s.isOpenFor kind = true)
    (rest : List Slot) : awaitFirst kind (s :: rest) = s :: awaitFirst kind rest := by
  rcases hrest : fillFirst? kind .awaited rest with _ | rest' <;>
    simp [awaitFirst, fillFirst?, h, hrest]

namespace Complete

variable {kind : Kind} {slots slots' : List Slot}

/-- Putting something into a slot leaves no other one empty. -/
theorem fillFirst? {content : Content} (h : Complete slots) (hcontent : content ≠ .empty)
    (hfill : Slot.fillFirst? kind content slots = some slots') : Complete slots' := by
  obtain ⟨before, s, after, rfl, -, -, rfl⟩ := fillFirst?_eq_some_iff.1 hfill
  simp only [Complete, List.forall_mem_append, List.forall_mem_cons] at h ⊢
  exact ⟨h.1, fun _ => hcontent, h.2.2⟩

theorem awaitFirst (h : Complete slots) (kind : Kind) : Complete (Slot.awaitFirst kind slots) := by
  unfold Slot.awaitFirst
  rcases hfill : Slot.fillFirst? kind .awaited slots with _ | slots'
  · exact h
  · exact h.fillFirst? (by simp) hfill

/-- Slots that are complete with the product which they await stay so when a value comes first. -/
theorem awaitFirst_of_fill {valueKind : Kind} {v : Value}
    (hfill : Slot.fillFirst? valueKind (.value v) slots = some slots')
    (h : Complete (Slot.awaitFirst kind slots)) : Complete (Slot.awaitFirst kind slots') := by
  induction slots generalizing slots' with
  | nil => cases hfill
  | cons s rest ih =>
    rw [Slot.fillFirst?] at hfill
    split at hfill
    · -- The value goes here. If the product was to come here, it goes on to the rest.
      cases hfill
      have hrest : Complete (Slot.awaitFirst kind rest) := by
        by_cases hopen : s.isOpenFor kind = true
        · rw [awaitFirst_cons_of_open hopen, complete_cons_iff] at h
          exact h.2.awaitFirst kind
        · rw [awaitFirst_cons_of_not_open hopen, complete_cons_iff] at h
          exact h.2
      have hfull : ¬ isOpenFor { s with content := .value v } kind = true := by
        simp [isOpenFor, isEmpty]
      rw [awaitFirst_cons_of_not_open hfull, complete_cons_iff]
      exact ⟨by simp, hrest⟩
    · -- The value goes to the rest, and the product stays here if it was to come here.
      obtain ⟨rest', hrest', rfl⟩ := Option.map_eq_some_iff.1 hfill
      by_cases hopen : s.isOpenFor kind = true
      · rw [awaitFirst_cons_of_open hopen, complete_cons_iff] at h ⊢
        exact ⟨h.1, h.2.fillFirst? (by simp) hrest'⟩
      · rw [awaitFirst_cons_of_not_open hopen, complete_cons_iff] at h ⊢
        exact ⟨h.1, ih hrest' h.2⟩

end Complete

end Slot

/-! ## Nodes -/

namespace Node

/-- The product that the node waits for, if the chain that it encloses has this one. -/
def wanted? (n : Node α) (product : Option ValueKind) : Option ValueKind :=
  if n.kind.isWrapper then none else product

/-- The node around a chain with this product. -/
def around (n : Node α) (product : Option ValueKind) : Node α :=
  match n.wanted? product with
  | some kind => n.await kind
  | none => n

/-- The second node is of the same keyword, and lacks nothing if the first lacks nothing. -/
structure AsComplete (n n' : Node α) : Prop where
  definition : n'.definition = n.definition
  complete : n.missing? = none → n'.missing? = none

theorem missing?_eq_none_iff_complete {n : Node α} :
    n.missing? = none ↔ Slot.Complete n.slots :=
  missing?_eq_none_iff

theorem slots_await (n : Node α) (kind : ValueKind) :
    (n.await kind).slots = Slot.awaitFirst (.value kind) n.slots := by
  unfold await Slot.awaitFirst
  rcases Slot.fillFirst? (.value kind) .awaited n.slots with _ | slots <;> rfl

theorem definition_around (n : Node α) (product : Option ValueKind) :
    (n.around product).definition = n.definition := by
  unfold around
  rcases n.wanted? product with _ | kind
  · rfl
  · exact (n.sameValues_await kind).definition

/-- A value more leaves a node as complete as it was, whatever product it may await. -/
theorem asComplete_around {n n' : Node α} {v : Value} (h : n.take? v = some n')
    (product : Option ValueKind) : (n.around product).AsComplete (n'.around product) := by
  obtain ⟨slots, hfill, rfl⟩ := Option.map_eq_some_iff.1 h
  constructor
  case definition => rw [definition_around, definition_around]
  case complete =>
    rw [missing?_eq_none_iff_complete, missing?_eq_none_iff_complete]
    have hwanted : wanted? { n with slots := slots } product = n.wanted? product := rfl
    unfold around
    rw [hwanted]
    rcases n.wanted? product with _ | kind
    · exact fun hn => hn.fillFirst? (by simp) hfill
    · intro hn
      dsimp only at hn ⊢
      rw [slots_await] at hn ⊢
      exact hn.awaitFirst_of_fill hfill

theorem AsComplete.refl (n : Node α) : n.AsComplete n := ⟨rfl, id⟩

end Node

/-! ## Chains -/

namespace Chain

theorem enclose_eq (n : Node α) (inner : Chain α) :
    enclose n inner = n.around inner.produces? :: inner := by
  unfold enclose Node.around Node.wanted?
  split
  · rfl
  · rcases inner.produces? with _ | kind <;> rfl

theorem produces?_of_asComplete {inner inner' : Chain α}
    (h : List.Forall₂ Node.AsComplete inner inner') : inner'.produces? = inner.produces? := by
  rcases h with _ | ⟨hn, -⟩
  · rfl
  · simp only [produces?, List.head?_cons, Option.bind_some, hn.definition]

/-- Closing hands on from the inside out that every node is as complete as before. -/
theorem asComplete_close {opened opened' : List (Node α)}
    (h : List.Forall₂ (fun n n' => ∀ product, (n.around product).AsComplete (n'.around product))
      opened opened') :
    List.Forall₂ Node.AsComplete (close opened) (close opened') := by
  have hfold : ∀ inner inner' : Chain α, List.Forall₂ Node.AsComplete inner inner' →
      List.Forall₂ Node.AsComplete (opened.foldl (fun inner n => enclose n inner) inner)
        (opened'.foldl (fun inner n => enclose n inner) inner') := by
    induction h with
    | nil => exact fun _ _ hinner => hinner
    | cons hn _ ih =>
      intro inner inner' hinner
      refine ih _ _ ?_
      simp only [enclose_eq, produces?_of_asComplete hinner]
      exact .cons (hn _) hinner
  exact hfold [] [] .nil

/-- Binding one more value leaves the closed chain as complete as it was. -/
theorem asComplete_of_bind? {v : Value} {opened opened' : List (Node α)}
    (h : bind? v opened = some opened') :
    List.Forall₂ Node.AsComplete (close opened) (close opened') := by
  obtain ⟨inner, n, n', outer, rfl, hn, -, rfl⟩ := bind?_eq_some_iff.1 h
  have hsame : ∀ nodes : List (Node α), List.Forall₂
      (fun n n' => ∀ product, (n.around product).AsComplete (n'.around product)) nodes nodes :=
    fun nodes => List.forall₂_same.2 fun m _ product => .refl _
  exact asComplete_close
    (List.rel_append (hsame inner) (.cons (Node.asComplete_around hn) (hsame outer)))

theorem incomplete?_of_asComplete {chain chain' : Chain α}
    (h : List.Forall₂ Node.AsComplete chain chain') (hchain : incomplete? chain = none) :
    incomplete? chain' = none := by
  rw [incomplete?_eq_none_iff] at hchain ⊢
  induction h with
  | nil => simp
  | cons hn _ ih =>
    rw [List.forall_mem_cons] at hchain ⊢
    exact ⟨hn.complete hchain.1, ih hchain.2⟩

/-- What `Puts` says hangs on the kinds and values of the two chains. -/
theorem Puts.congr {v : Value} {kind : ValueKind} {p : Place}
    {before before' after after' : Chain α} (h : before.Puts v p kind after)
    (hbefore : List.Forall₂ Node.SameValues before before')
    (hafter : List.Forall₂ Node.SameValues after after') : before'.Puts v p kind after' := by
  obtain ⟨-, hkinds, hvalues, -⟩ := places_of_sameValues hbefore
  obtain ⟨-, hkinds', hvalues', -⟩ := places_of_sameValues hafter
  constructor
  case fits => exact h.fits
  case place => rw [hkinds, h.place]
  case free => rw [hvalues, h.free]
  case kinds => intro q; rw [hkinds, hkinds', h.kinds]
  case values => intro q; rw [hvalues, hvalues', h.values]
  case full =>
    intro k j hkj hkind
    rw [hkinds] at hkind
    rw [hvalues]
    exact h.full k j hkj hkind

end Chain

/-! ## Commands -/

namespace Registry

variable {r : Registry α}

/-- **One more value never makes a command incomplete.** Let a command compile, and put a value at
    its end. If the values of its kind now outnumber the slots for them, the value is reported.
    Otherwise the command compiles, with the same keywords and the same skipped words; the value is
    in one place, and all other values are where they were. -/
theorem compile_append_value {tokens : List String} {token : String} {c : Command α} {v : Value}
    (hc : (r.compile tokens).result = .ok c) (hv : r.value? token = some v) :
    let longer := (r.compile (tokens ++ [token])).result
    (r.Overflows (tokens ++ [token]) ∧ longer = .error (.unexpected v.display v.kind))
      ∨ ¬ r.Overflows (tokens ++ [token]) ∧ ∃ c', longer = .ok c'
        ∧ c'.chain.map Node.definition = c.chain.map Node.definition
        ∧ c'.skipped = c.skipped ∧ ∃ p kind, c.chain.Puts v p kind c'.chain := by
  intro longer
  obtain ⟨opened, hread, hchain, hcomplete⟩ := compile_eq_ok_iff.1 hc
  have hm := value?_eq_some_iff.1 hv
  rcases hbind : Chain.bind? v opened with _ | opened'
  · refine Or.inl ⟨(overflows_append_iff hread hm).2 hbind, ?_⟩
    simp only [longer, compile, readInto_append, hread, readInto_value hv, hbind, Except.bind]
  · have hroom : ¬ r.Overflows (tokens ++ [token]) := by
      rw [overflows_append_iff hread hm, hbind]
      exact Option.some_ne_none _
    have hread' : r.readInto [] (tokens ++ [token]) = (c.skipped, .ok opened') := by
      simp [readInto_append, hread, readInto, hm, hbind]
    rw [hchain] at hcomplete ⊢
    have hcomplete' : Chain.incomplete? (Chain.close opened') = none :=
      Chain.incomplete?_of_asComplete (Chain.asComplete_of_bind? hbind) hcomplete
    have hdefinitions : (Chain.close opened').map Node.definition
        = (Chain.close opened).map Node.definition := by
      rw [(Chain.places_of_sameValues (Chain.sameValues_close opened')).1,
        (Chain.places_of_sameValues (Chain.sameValues_close opened)).1, List.map_reverse,
        List.map_reverse, Chain.map_definition_of_bind? hbind]
    obtain ⟨p, kind, -, hputs⟩ := Chain.puts_of_bind? hbind (noneAwaited_of_readInto hread)
    refine Or.inr ⟨hroom, ⟨Chain.close opened', c.skipped⟩, ?_, hdefinitions, rfl, p, kind,
      hputs.congr (Chain.sameValues_close opened) (Chain.sameValues_close opened')⟩
    exact compile_eq_ok_iff.2 ⟨opened', hread', rfl, hcomplete'⟩

/-- The value takes the slot that awaited the product of the inner keyword. -/
theorem compile_append_value_join_circle_create_circle_block :
    let r : Registry Unit := (history
      [.draft { kind := some .function, words := ["join"],
                required := some [.value .shape, .value .shape], handler := some ⟨2, ()⟩ },
       .draft { kind := some .function, words := ["create"], required := some [.value .shape],
                produces := some (.value .shape), handler := some ⟨1, ()⟩ },
       .draft { kind := some (.value .shape), words := ["circle"] },
       .draft { kind := some (.value .shape), words := ["block"] }]).2
    let circle := Value.word (.value .shape) "circle"
    let block := Value.word (.value .shape) "block"
    let join (second : Content) : Node Unit :=
      ⟨⟨"join", [], .function ⟨[.shape, .shape], [], none, ⟨2, ()⟩⟩⟩,
        [⟨.shape, true, .value circle⟩, ⟨.shape, true, second⟩]⟩
    let create : Node Unit :=
      ⟨⟨"create", [], .function ⟨[.shape], [], some .shape, ⟨1, ()⟩⟩⟩,
        [⟨.shape, true, .value circle⟩]⟩
    let tokens := ["join", "circle", "create", "circle"]
    (r.compile tokens).result = .ok ⟨[join .awaited, create], []⟩
      ∧ r.value? "block" = some block
      ∧ (r.compile (tokens ++ ["block"])).result = .ok ⟨[join (.value block), create], []⟩
      ∧ ∃ p kind, Chain.Puts block [join .awaited, create] p kind
        [join (.value block), create] := by
  intro r circle block join create tokens
  have hc : (r.compile tokens).result = .ok ⟨[join .awaited, create], []⟩ := rfl
  have hv : r.value? "block" = some block := rfl
  have hlonger : (r.compile (tokens ++ ["block"])).result
      = .ok ⟨[join (.value block), create], []⟩ := rfl
  refine ⟨hc, hv, hlonger, ?_⟩
  rcases compile_append_value hc hv with ⟨-, herror⟩ | ⟨-, c', hok, -, -, hputs⟩
  · rw [hlonger] at herror
    cases herror
  · rw [hlonger] at hok
    cases hok
    exact hputs

end Registry

end CueScript
