import CueScript.Proofs.Engine.Deeds

set_option autoImplicit false

/-! # Lawful deeds

A deed is *lawful*, given the one before it, if a binding holds a well-formed body and a function is
called with what its slots hold; if one of them awaits a product, the deed before is the call of the
function that produces it. All that a well-formed chain does is lawful (`InsideOut.lawful`),
whatever hosts and handlers answer.

Beside this, what is known of the world stays known if every call and every lawful binding keeps it
(`Engine.Keeps`). -/

namespace CueScript

variable {α ω : Type}

/-! ## Who feeds whom -/

/-- What this node awaits is what the other one produces; it awaits nothing if there is no other. -/
def Node.FedBy (n : Node α) (m : Option (Node α)) : Prop :=
  ∀ s ∈ n.slots, s.content = .awaited → m.bind (·.definition.produces?) = some s.kind

/-- Each node of a row is fed by the one before it. -/
def Node.Fed : Option (Node α) → List (Node α) → Prop
  | _, [] => True
  | m, n :: rest => n.FedBy m ∧ Node.Fed (some n) rest

theorem Node.fed_append_singleton {m : Option (Node α)} {ns : List (Node α)} {n : Node α} :
    Node.Fed m (ns ++ [n]) ↔ Node.Fed m ns ∧ n.FedBy (ns.getLast?.or m) := by
  induction ns generalizing m with
  | nil => simp [Node.Fed]
  | cons n' rest ih =>
    simp only [List.cons_append, Node.Fed, ih, and_assoc]
    cases rest with
    | nil => simp
    | cons n'' rest => simp [List.getLast?_cons]

/-- A node is fed by the outermost node of the chain that it encloses. -/
theorem Node.Awaits.fedBy {n : Node α} {inner : Chain α} (h : n.Awaits inner) :
    n.FedBy inner.head? := by
  intro t ht hawaited
  cases h with
  | nothing none _ => exact absurd hawaited (none t ht)
  | product before after s slots awaited noneBefore noneAfter _ produces _ =>
    rw [slots, List.mem_append, List.mem_cons] at ht
    rcases ht with ht | rfl | ht
    · exact absurd hawaited (noneBefore t ht)
    · exact produces
    · exact absurd hawaited (noneAfter t ht)

/-- From the inside out, the functions around a chain that produces nothing feed one another. -/
theorem Chain.WellFormed.fed_reverse {ds : List (Definition α)} {outer tail : Chain α}
    (h : Chain.WellFormed ds (outer ++ tail)) (htail : tail.produces? = none) :
    Node.Fed none outer.reverse := by
  induction outer with
  | nil => trivial
  | cons n outer ih =>
    rw [List.reverse_cons, Node.fed_append_singleton, List.getLast?_reverse]
    refine ⟨ih h.2, ?_⟩
    have hfed := h.1.awaits.fedBy
    cases outer with
    | cons m outer => simpa using hfed
    | nil =>
      intro s hs hawaited
      have hproduces : tail.produces? = some s.kind := hfed s hs hawaited
      rw [htail] at hproduces
      cases hproduces

/-! ## Lawful deeds -/

namespace Deed

/-- The value that a handler returned. -/
def returned? : Deed α → Option Value
  | .call _ _ _ (.ok value) => value
  | _ => none

theorem eq_call_of_returned? {d : Deed α} {v : Value} (h : d.returned? = some v) :
    ∃ n handler args, d = .call n handler args (.ok (some v)) := by
  unfold returned? at h
  split at h
  · next n handler args value =>
    rw [h]
    exact ⟨n, handler, args, rfl⟩
  · cases h

/-- The kind of value that the function that was called produces. -/
def produces? : Deed α → Option ValueKind
  | .call n _ _ _ => n.definition.produces?
  | .subscribe _ _ => none

/-- The binding that a host was asked to keep. -/
def binding? : Deed α → Option (Binding α)
  | .subscribe b _ => some b
  | _ => none

/-- What holds of a deed, given the one before it. Bindings hold well-formed bodies; a function is
    called with what its slots hold, and the product that they await is what the call just before
    returned, of a function that produces it. -/
inductive Lawful (ds : List (Definition α)) (previous : Option (Deed α)) : Deed α → Prop where
  | subscribe (b : Binding α) (answer : Except String Nat) (body : b.body.WellFormed ds) :
      Lawful ds previous (.subscribe b answer)
  | call (n : Node α) (role : FunctionRole α) (produced : Option Value)
      (answer : Except String (Option Value)) (sound : n.Sound ds)
      (function : n.definition.function? = some role) (met : n.unmet? produced = none)
      (fed : ∀ s ∈ n.slots, s.content = .awaited →
        previous.bind produces? = some s.kind ∧ produced = previous.bind returned?) :
      Lawful ds previous (.call n role.handler (n.arguments produced) answer)

/-- Every deed is lawful given the one before it. -/
def AllLawful (ds : List (Definition α)) : Option (Deed α) → List (Deed α) → Prop
  | _, [] => True
  | previous, d :: rest => d.Lawful ds previous ∧ AllLawful ds (some d) rest

theorem allLawful_append {ds : List (Definition α)} {previous : Option (Deed α)}
    {before after : List (Deed α)} :
    AllLawful ds previous (before ++ after)
      ↔ AllLawful ds previous before ∧ AllLawful ds (before.getLast?.or previous) after := by
  induction before generalizing previous with
  | nil => simp [AllLawful]
  | cons d rest ih =>
    simp only [List.cons_append, AllLawful, ih, and_assoc]
    cases rest with
    | nil => simp
    | cons d' rest => simp [List.getLast?_cons]

theorem AllLawful.of_binding?_mem {ds : List (Definition α)} {deeds : List (Deed α)}
    (h : AllLawful ds none deeds) {b : Binding α} (hb : b ∈ deeds.filterMap binding?) :
    b.body.WellFormed ds := by
  obtain ⟨d, hd, hbinding⟩ := List.mem_filterMap.1 hb
  obtain ⟨before, after, rfl⟩ := List.append_of_mem hd
  cases (allLawful_append.1 h).2.1 with
  | subscribe b' answer body =>
    cases hbinding
    exact body
  | call => cases hbinding

end Deed

namespace Run

theorem Calls.lawful {ds : List (Definition α)} {producer : String} {produced : Option Value}
    {ns : List (Node α)} {deeds : List (Deed α)} {result : Except ExecutionError (Option Value)}
    (h : Calls producer produced ns deeds result) (hns : ∀ n ∈ ns, n.Sound ds)
    {previous : Option (Deed α)} {m : Option (Node α)} (hfed : Node.Fed m ns)
    (hprevious : ∀ kind, m.bind (·.definition.produces?) = some kind →
      previous.bind Deed.produces? = some kind ∧ produced = previous.bind Deed.returned?) :
    Deed.AllLawful ds previous deeds := by
  -- A call that returns is the source of what the next one gets.
  induction h generalizing previous m with
  | done => trivial
  | unmet => trivial
  | failed producer produced n rest role reason function met =>
    exact ⟨.call n role produced _ (hns n List.mem_cons_self) function met
      fun s hs hawaited => hprevious _ (hfed.1 s hs hawaited), trivial⟩
  | next producer produced n rest role value deeds result function met later ih =>
    obtain ⟨hn, hrest⟩ := List.forall_mem_cons.1 hns
    exact ⟨.call n role produced _ hn function met
      fun s hs hawaited => hprevious _ (hfed.1 s hs hawaited),
      ih hrest hfed.2 fun _ hkind => ⟨hkind, rfl⟩⟩

/-- All that a well-formed chain does is lawful, whatever happened before. -/
theorem InsideOut.lawful {ds : List (Definition α)} {chain : Chain α} {deeds : List (Deed α)}
    {result : Except ExecutionError Outcome} (h : InsideOut chain deeds result)
    (hwf : chain.WellFormed ds) (previous : Option (Deed α)) :
    Deed.AllLawful ds previous deeds := by
  cases h with
  | plain _ _ _ functions calls =>
    have hfed : Node.Fed none chain.reverse :=
      Chain.WellFormed.fed_reverse (by rwa [List.append_nil]) rfl
    exact calls.lawful (fun n hn => hwf.sound n (List.mem_reverse.1 hn)) hfed (by simp)
  | refused outer body event target reason functions binds =>
    exact ⟨.subscribe _ _ hwf.of_append.2, trivial⟩
  | bound body event target id binds => exact ⟨.subscribe _ _ hwf.2, trivial⟩
  | around outer body event target id deeds result functions nonempty binds calls =>
    have hfed : Node.Fed none outer.reverse := hwf.fed_reverse binds.produces?_eq_none
    refine ⟨.subscribe _ _ hwf.of_append.2,
      calls.lawful (fun n hn => ?_) hfed (by simp)⟩
    exact hwf.sound n (List.mem_append_left _ (List.mem_reverse.1 hn))

end Run

/-! ## What engines keep -/

/-- What holds of the world before is kept by every call, and by every binding with a well-formed
    body. -/
structure Engine.Keeps (e : Engine α ω) (ds : List (Definition α)) (I : ω → Prop) : Prop where
  invoke : ∀ n handler args w, I w → I (e.invoke n handler args w).2
  subscribe : ∀ b w, b.body.WellFormed ds → I w → I (e.host.subscribe b w).2

namespace Engine.Keeps

variable {e : Engine α ω} {ds : List (Definition α)} {I : ω → Prop}

theorem andThen {β γ : Type} {run : Run α ω β} {next : β → ω → Run α ω γ} (hrun : I run.world)
    (hnext : ∀ b w, I w → I (next b w).world) : I (run.andThen next).world := by
  obtain ⟨deeds, result, w⟩ := run
  cases result with
  | error error => exact hrun
  | ok b => exact hnext b w hrun

theorem bindOnce (h : e.Keeps ds I) {event : Node α} {body : Chain α} (hbody : body.WellFormed ds)
    {w : ω} (hw : I w) : I (e.bindOnce event body w).world := by
  unfold Engine.bindOnce
  split
  · split
    · exact hw
    · exact h.subscribe _ w hbody hw
  · exact hw

/-- Calling handlers keeps what a call of each of them keeps. -/
theorem callEach (hinvoke : ∀ n handler args w, I w → I (e.invoke n handler args w).2)
    (producer : String) (produced : Option Value) (ns : List (Node α)) {w : ω} (hw : I w) :
    I (e.callEach producer produced w ns).world := by
  induction ns generalizing producer produced w with
  | nil => exact hw
  | cons n rest ih =>
    refine andThen ?_ fun value w' hw' => ih n.keyword value hw'
    unfold callOnce
    split
    · exact hw
    · split
      · exact hw
      · exact hinvoke _ _ _ w hw

theorem insideOut (h : e.Keeps ds I) {chain : Chain α} (hwf : chain.WellFormed ds) {w : ω}
    (hw : I w) : I (e.insideOut chain w).world := by
  rcases chain.split_event with hplain | ⟨outer, event, body, rfl, houter, hevent⟩
  · rw [e.insideOut_of_functions hplain]
    exact callEach h.invoke _ _ _ hw
  · rw [e.insideOut_of_event houter hevent]
    refine andThen (h.bindOnce hwf.of_append.2 hw) fun id w' hw' => ?_
    split
    · exact hw'
    · exact callEach h.invoke _ _ _ hw'

theorem execute (h : e.Keeps ds I) {n : Node α} {inner : Chain α}
    (hwf : Chain.WellFormed ds (n :: inner)) {w : ω} (hw : I w) : I (e.execute n inner w).2 := by
  rw [e.execute_eq hwf]
  exact h.insideOut hwf hw

theorem bind (h : e.Keeps ds I) {n : Node α} {inner : Chain α}
    (hwf : Chain.WellFormed ds (n :: inner)) {w : ω} (hw : I w) : I (e.host.bind n inner w).2 := by
  rw [e.world_bind]
  split
  · exact h.execute hwf hw
  · exact hw

theorem run (h : e.Keeps ds I) {n : Node α} {inner : Chain α}
    (hwf : Chain.WellFormed ds (n :: inner)) {w : ω} (hw : I w) : I (e.run n w inner).2 := by
  rw [e.world_run]
  split
  · exact hw
  · exact h.execute hwf hw

theorem executeChain (h : e.Keeps ds I) {chain : Chain α} (hwf : chain.WellFormed ds) {w : ω}
    (hw : I w) : I (e.executeChain chain w).2 := by
  cases chain with
  | nil => exact hw
  | cons n inner => exact h.execute hwf hw

theorem fire (h : e.Keeps ds I) {b : Binding α} (hb : b.body.WellFormed ds) {w : ω} (hw : I w) :
    I (e.fire b w).2 :=
  h.executeChain hb hw

theorem fireEach (h : e.Keeps ds I) {bs : List (Binding α)} (hbs : ∀ b ∈ bs, b.body.WellFormed ds)
    {w : ω} (hw : I w) : I (e.fireEach w bs).2 := by
  induction bs generalizing w with
  | nil => exact hw
  | cons b rest ih =>
    obtain ⟨hb, hrest⟩ := List.forall_mem_cons.1 hbs
    have hfire := h.fire hb hw
    rw [Engine.fireEach]
    split
    · next heq => rw [heq] at hfire; exact hfire
    · next heq => rw [heq] at hfire; exact ih hrest hfire

end Engine.Keeps

end CueScript
