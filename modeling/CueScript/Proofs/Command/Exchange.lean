import CueScript.Proofs.Command.Reading

set_option autoImplicit false

/-! # Values of different kinds may change places

Two values that stand next to each other are bound one after the other, and the first may be put
where the second would have gone on searching. If their kinds differ it is not: neither takes a slot
that the other could have, so both orders fill the same slots (`Independent`). This holds of two
changes of one slot, and the search for the first place hands it on, from slots to nodes and from
nodes to the open nodes. Two commands that differ only in the order of two such values are therefore
the same command, unless there is no slot for either: then each reports the value that it meets
first (`compile_exchange`). -/

namespace CueScript

variable {α : Type}

/-! ## Independent changes -/

/-- Two changes that may be made in either order, and of which neither prevents the other. -/
structure Independent {β : Type} (f g : β → Option β) : Prop where
  comm : ∀ x, (f x).bind g = (g x).bind f
  both : ∀ x y z, f x = some y → g x = some z → (g y).isSome = true

namespace Independent

variable {β : Type} {f g : β → Option β}

theorem symm (h : Independent f g) : Independent g f where
  comm x := (h.comm x).symm
  both x y z hy hz := by
    have hcomm := h.comm x
    rw [hz, hy, Option.bind_some, Option.bind_some] at hcomm
    rw [← hcomm]
    exact h.both x z y hz hy

/-- After the one change, the other can be made exactly if it could be made before. -/
theorem eq_none_iff (h : Independent f g) {x y : β} (hy : f x = some y) :
    g y = none ↔ g x = none := by
  rcases hz : g x with _ | z
  · have hcomm := h.comm x
    rw [hy, hz, Option.bind_some, Option.bind_none] at hcomm
    simp [hcomm]
  · have hboth := h.both x y z hy hz
    rw [← Option.isNone_iff_eq_none, Option.isNone_eq_false_iff.2 hboth]
    simp

/-- Searching for the first place of each change keeps them independent. -/
theorem changeFirst (h : Independent f g) : Independent (changeFirst? f) (changeFirst? g) := by
  constructor
  case comm =>
    intro l
    induction l with
    | nil => rfl
    | cons x rest ih =>
      rcases hf : f x with _ | y <;> rcases hg : g x with _ | z
      -- Neither change is made here: both go on to the rest.
      · have hrest := congrArg (Option.map (x :: ·)) ih
        rw [Option.map_bind, Option.map_bind] at hrest
        simpa only [changeFirst?_cons_of_none hf, changeFirst?_cons_of_none hg, Option.bind_map,
          Function.comp_def] using hrest
      -- One change is made here, and the other goes on in both orders.
      · have hfz : f z = none := (h.symm.eq_none_iff hg).2 hf
        rw [changeFirst?_cons_of_none hf, changeFirst?_cons_of_some hg, Option.bind_some,
          changeFirst?_cons_of_none hfz]
        rcases CueScript.changeFirst? f rest with _ | rest'
        · rfl
        · exact changeFirst?_cons_of_some hg rest'
      · have hgy : g y = none := (h.eq_none_iff hf).2 hg
        rw [changeFirst?_cons_of_some hf, changeFirst?_cons_of_none hg, Option.bind_some,
          changeFirst?_cons_of_none hgy]
        rcases CueScript.changeFirst? g rest with _ | rest'
        · rfl
        · exact (changeFirst?_cons_of_some hf rest').symm
      -- Both are made here.
      · obtain ⟨w, hgy⟩ := Option.isSome_iff_exists.1 (h.both x y z hf hg)
        have hfz : f z = some w := by
          have hcomm := h.comm x
          rw [hf, hg, Option.bind_some, Option.bind_some, hgy] at hcomm
          exact hcomm.symm
        simp only [changeFirst?_cons_of_some hf, changeFirst?_cons_of_some hg, Option.bind_some,
          changeFirst?_cons_of_some hgy, changeFirst?_cons_of_some hfz]
  case both =>
    intro l l' l'' hf hg
    by_contra hnone
    rw [Option.not_isSome_iff_eq_none, changeFirst?_eq_none_iff] at hnone
    obtain ⟨before, x, y, after, rfl, hy, -, rfl⟩ := changeFirst?_eq_some_iff.1 hf
    simp only [List.forall_mem_append, List.forall_mem_cons, h.eq_none_iff hy] at hnone
    have hl : CueScript.changeFirst? g (before ++ x :: after) = none := by
      rw [changeFirst?_eq_none_iff, List.forall_mem_append, List.forall_mem_cons]
      exact hnone
    rw [hl] at hg
    cases hg

end Independent

/-! ## Slots, nodes, open nodes -/

/-- A slot that was filled for one kind is open for no other, neither before nor after. -/
theorem Slot.fill?_eq_none_of_ne {kind kind' : Kind} (hkind : kind ≠ kind')
    {content content' : Content} {s s' : Slot} (h : s.fill? kind content = some s') :
    s.fill? kind' content' = none ∧ s'.fill? kind' content' = none := by
  obtain ⟨hopen, rfl⟩ := fill?_eq_some_iff.1 h
  have hne : Kind.value s.kind ≠ kind' := (isOpenFor_iff.1 hopen).1 ▸ hkind
  simp [fill?_eq_none_iff, isOpenFor, hne]

/-- Contents of different kinds do not compete for a slot. -/
theorem Slot.independent_fill? {kind kind' : Kind} (hkind : kind ≠ kind')
    (content content' : Content) :
    Independent (Slot.fill? kind content) (Slot.fill? kind' content') := by
  constructor
  case comm =>
    intro s
    rcases hs : s.fill? kind content with _ | s' <;>
      rcases hs' : s.fill? kind' content' with _ | s''
    · rfl
    · exact (fill?_eq_none_of_ne hkind.symm hs').2.symm
    · exact (fill?_eq_none_of_ne hkind hs).2
    · rw [(fill?_eq_none_of_ne hkind hs).1] at hs'
      cases hs'
  case both =>
    intro s s' s'' hs hs'
    rw [(fill?_eq_none_of_ne hkind hs).1] at hs'
    cases hs'

/-- Values of different kinds do not compete for a slot of a node. -/
theorem Node.independent_take? {v w : Value} (hkind : v.kind ≠ w.kind) :
    Independent (fun n : Node α => n.take? v) (fun n => n.take? w) := by
  have hslots : Independent (Slot.fillFirst? v.kind (.value v))
      (Slot.fillFirst? w.kind (.value w)) := by
    rw [Slot.fillFirst?_eq, Slot.fillFirst?_eq]
    exact (Slot.independent_fill? hkind _ _).changeFirst
  constructor
  case comm =>
    intro n
    have hcomm := congrArg (Option.map fun slots => { n with slots := slots }) (hslots.comm n.slots)
    simpa only [take?, Option.map_bind, Option.bind_map, Function.comp_def] using hcomm
  case both =>
    intro n n' n'' hv hw
    obtain ⟨slots, hfill, rfl⟩ := Option.map_eq_some_iff.1 hv
    obtain ⟨slots', hfill', rfl⟩ := Option.map_eq_some_iff.1 hw
    rw [take?, Option.isSome_map]
    exact hslots.both n.slots slots slots' hfill hfill'

/-- Values of different kinds do not compete for a slot of the open nodes. -/
theorem Chain.independent_bind? {v w : Value} (hkind : v.kind ≠ w.kind) :
    Independent (Chain.bind? v : List (Node α) → Option (List (Node α))) (Chain.bind? w) := by
  rw [bind?_eq, bind?_eq]
  exact (Node.independent_take? hkind).changeFirst

/-! ## Commands -/

namespace Registry

/-- These tokens can be read, and then no slot for values of the kind is free. -/
def LeavesNoRoom (r : Registry α) (tokens : List String) (kind : Kind) : Prop :=
  ∃ passed opened, r.readInto [] tokens = (passed, .ok opened)
    ∧ ∀ n ∈ opened, ∀ s ∈ n.slots, s.isOpenFor kind = false

variable {r : Registry α}

/-- Two values of different kinds are read in either order, unless no open node has a slot for
    either. -/
theorem readInto_exchange {a b : String} {v w : Value} (ha : r.value? a = some v)
    (hb : r.value? b = some w) (hkind : v.kind ≠ w.kind) {opened : List (Node α)}
    (hroom : ¬ (Chain.bind? v opened = none ∧ Chain.bind? w opened = none)) (rest : List String) :
    r.readInto opened (b :: a :: rest) = r.readInto opened (a :: b :: rest) := by
  have hindep : Independent (Chain.bind? v : List (Node α) → _) (Chain.bind? w) :=
    Chain.independent_bind? hkind
  rcases hv : Chain.bind? v opened with _ | opened' <;>
    rcases hw : Chain.bind? w opened with _ | opened''
  · exact absurd ⟨hv, hw⟩ hroom
  -- The one without a slot is refused wherever it stands.
  · have hv' : Chain.bind? v opened'' = none := (hindep.symm.eq_none_iff hw).2 hv
    simp only [readInto_value ha, readInto_value hb, hv, hw, hv']
  · have hw' : Chain.bind? w opened' = none := (hindep.eq_none_iff hv).2 hw
    simp only [readInto_value ha, readInto_value hb, hv, hw, hw']
  · obtain ⟨filled, hfilled⟩ := Option.isSome_iff_exists.1 (hindep.both opened _ _ hv hw)
    have hcomm := hindep.comm opened
    rw [hv, hw, Option.bind_some, Option.bind_some, hfilled] at hcomm
    simp only [readInto_value ha, readInto_value hb, hv, hw, hfilled, ← hcomm]

/-- Values of different kinds that can be read may be read in any order. -/
theorem readInto_perm {tokens tokens' : List String} (hperm : tokens.Perm tokens')
    (hvalues : ∀ token ∈ tokens, (r.value? token).isSome = true)
    (hkinds : (tokens.map fun token => (r.value? token).map Value.kind).Nodup)
    {opened opened' : List (Node α)} (h : r.readInto opened tokens = ([], .ok opened')) :
    r.readInto opened tokens' = ([], .ok opened') := by
  induction hperm generalizing opened with
  | nil => exact h
  | @cons token rest rest' _ ih =>
    rw [List.forall_mem_cons] at hvalues
    obtain ⟨v, hv⟩ := Option.isSome_iff_exists.1 hvalues.1
    rw [readInto_value hv] at h ⊢
    split at h
    · exact ih hvalues.2 (List.nodup_cons.1 hkinds).2 h
    · cases h
  | swap a b rest =>
    simp only [List.forall_mem_cons, Option.isSome_iff_exists] at hvalues
    obtain ⟨⟨w, hw⟩, ⟨v, hv⟩, -⟩ := hvalues
    have hkind : v.kind ≠ w.kind := by
      rintro heq
      simp [hv, hw, heq] at hkinds
    rw [readInto_exchange hw hv hkind.symm, h]
    rintro ⟨hnone, -⟩
    simp [readInto_value hw, hnone] at h
  | trans hfirst _ ih ih' =>
    refine ih' (fun token hmem => hvalues token (hfirst.mem_iff.2 hmem)) ?_ (ih hvalues hkinds h)
    exact (hfirst.map _).nodup_iff.1 hkinds

theorem leavesNoRoom_iff {before passed : List String} {opened : List (Node α)}
    (h : r.readInto [] before = (passed, .ok opened)) (v : Value) :
    r.LeavesNoRoom before v.kind ↔ Chain.bind? v opened = none := by
  simp only [LeavesNoRoom, h, Prod.mk.injEq, Except.ok.injEq, Chain.bind?_eq_none_iff,
    Node.take?_eq_none_iff]
  constructor
  · rintro ⟨_, _, ⟨rfl, rfl⟩, hfull⟩
    exact hfull
  · exact fun hfull => ⟨passed, opened, ⟨rfl, rfl⟩, hfull⟩

/-- **Values bind by kind, not by position.** Let two values of different kinds stand next to each
    other in a command. In both orders it compiles to the same command, or in both it fails. It
    fails with the same error, and the same words are passed over until then, unless the tokens
    before leave no slot for either value; then the error names the value that stands first. -/
theorem compile_exchange {a b : String} {v w : Value} (ha : r.value? a = some v)
    (hb : r.value? b = some w) (hkind : v.kind ≠ w.kind) (before after : List String) :
    let ab := r.compile (before ++ a :: b :: after)
    let ba := r.compile (before ++ b :: a :: after)
    let full := r.LeavesNoRoom before v.kind ∧ r.LeavesNoRoom before w.kind
    (∀ c, ab.result = .ok c ↔ ba.result = .ok c)
      ∧ (¬ full → ba = ab)
      ∧ (full → ab.result = .error (.unexpected v.display v.kind)
        ∧ ba.result = .error (.unexpected w.display w.kind)) := by
  intro ab ba full
  have hsame : ¬ full → ba = ab := by
    intro hfull
    simp only [ab, ba, compile, readInto_append]
    rcases hread : r.readInto [] before with ⟨passed, _ | opened⟩
    · rfl
    · have hroom : ¬ (Chain.bind? v opened = none ∧ Chain.bind? w opened = none) := by
        rw [← leavesNoRoom_iff hread, ← leavesNoRoom_iff hread]
        exact hfull
      simp only [readInto_exchange ha hb hkind hroom]
  have hrefused : full → ab.result = .error (.unexpected v.display v.kind)
      ∧ ba.result = .error (.unexpected w.display w.kind) := by
    rintro ⟨⟨passed, opened, hread, hv⟩, hw⟩
    have hv' : Chain.bind? v opened = none := (leavesNoRoom_iff hread v).1 ⟨_, _, hread, hv⟩
    have hw' : Chain.bind? w opened = none := (leavesNoRoom_iff hread w).1 hw
    simp only [ab, ba, compile, readInto_append, hread, readInto_value ha, readInto_value hb, hv',
      hw', Except.bind, and_self]
  refine ⟨fun c => ?_, hsame, hrefused⟩
  by_cases hfull : full
  · obtain ⟨hab, hba⟩ := hrefused hfull
    rw [hab, hba]
    simp
  · rw [hsame hfull]

/-- The two values go to different keywords, in either order. -/
theorem compile_exchange_fill_create_circle_red :
    let r : Registry Unit := (history
      [.draft { kind := some .function, words := ["fill"],
                required := some [.value .shape, .value .color], handler := some ⟨2, ()⟩ },
       .draft { kind := some .function, words := ["create"], required := some [.value .shape],
                produces := some (.value .shape), handler := some ⟨1, ()⟩ },
       .draft { kind := some (.value .shape), words := ["circle"] },
       .draft { kind := some (.value .color), words := ["red"] }]).2
    let circle := Value.word (.value .shape) "circle"
    let red := Value.word (.value .color) "red"
    r.value? "circle" = some circle ∧ r.value? "red" = some red ∧ circle.kind ≠ red.kind
      ∧ (r.compile ["fill", "create", "circle", "red"]).result.toOption.isSome
      ∧ r.compile ["fill", "create", "red", "circle"]
        = r.compile ["fill", "create", "circle", "red"]
      ∧ (r.compile ["circle", "red"]).result = .error (.unexpected "circle" (.value .shape))
      ∧ (r.compile ["red", "circle"]).result = .error (.unexpected "red" (.value .color)) := by
  intro r circle red
  have hcircle : r.value? "circle" = some circle := rfl
  have hred : r.value? "red" = some red := rfl
  have hkind : circle.kind ≠ red.kind := by decide
  have hroom : ¬ r.LeavesNoRoom ["fill", "create"] circle.kind := by
    have hread : r.readInto [] ["fill", "create"] = ([], .ok _) := rfl
    rw [leavesNoRoom_iff hread]
    exact Option.some_ne_none _
  have hempty : ∀ v : Value, r.LeavesNoRoom [] v.kind := fun v => ⟨[], [], rfl, by simp⟩
  refine ⟨hcircle, hred, hkind, rfl, ?_, ?_⟩
  · exact (compile_exchange hcircle hred hkind ["fill", "create"] []).2.1 fun h => hroom h.1
  · exact (compile_exchange hcircle hred hkind [] []).2.2 ⟨hempty circle, hempty red⟩

end Registry

end CueScript
