import CueScript.Proofs.Command.Room

set_option autoImplicit false

/-! # Fillers

A token that means nothing changes nothing. It may be left out, and others like it may be put in
anywhere: reading opens and fills the same nodes, and stops with the same error (`Padded`). What
reading passes over are the fillers among the tokens that it gets to, and the policy for unknown
words only decides whether a warning is given of each of them (`compileUnder_eq`). -/

namespace CueScript

variable {α : Type}

namespace Registry

variable {r : Registry α}

/-! ## Tokens that mean nothing -/

theorem isFiller_iff {token : String} : r.isFiller token = true ↔ r.meaning token = .ok none := by
  unfold isFiller
  split
  · next hm => simp [hm]
  · next hm => simpa using hm

/-- A filler is a token that is neither a registered word nor a literal. -/
theorem Holds.isFiller_eq {ds : List (Definition α)} (h : Holds r ds) (token : String) :
    r.isFiller token = ((r.resolve? token).isNone && (r.literal? token).isNone) := by
  rw [Bool.eq_iff_iff, isFiller_iff, meaning]
  cases hword : r.resolve? token with
  | none => simp
  | some e =>
    -- A word of the index has its definition, so it means something.
    obtain ⟨d, hd, -, rfl⟩ := h.resolve?_eq_some_iff.1 hword
    simp [h.definitionFor_self hd, Except.map]

/-! ## Leaving fillers out and putting them in -/

/-- The second list is the first with fillers put in anywhere. -/
inductive Padded (r : Registry α) : List String → List String → Prop where
  | nil : Padded r [] []
  | keep {tokens padded : List String} (token : String) (rest : Padded r tokens padded) :
    Padded r (token :: tokens) (token :: padded)
  | filler {tokens padded : List String} {token : String} (nothing : r.isFiller token = true)
    (rest : Padded r tokens padded) : Padded r tokens (token :: padded)

/-- Tokens are what is left of them without fillers, with the fillers put in again. -/
theorem padded_filter (r : Registry α) (tokens : List String) :
    r.Padded (tokens.filter fun token => !r.isFiller token) tokens := by
  induction tokens with
  | nil => exact .nil
  | cons token rest ih =>
    cases hfiller : r.isFiller token with
    | true => simpa [hfiller] using Padded.filler hfiller ih
    | false => simpa [hfiller] using Padded.keep token ih

/-- Reading does not see the fillers that were put in. -/
theorem Padded.readInto_eq {tokens padded : List String} (h : r.Padded tokens padded)
    (opened : List (Node α)) : (r.readInto opened padded).2 = (r.readInto opened tokens).2 := by
  induction h generalizing opened with
  | nil => rfl
  | filler nothing rest ih => simpa [readInto, isFiller_iff.1 nothing] using ih opened
  | keep token rest ih =>
    rw [readInto, readInto]
    split
    · rfl
    · exact ih opened
    · exact ih _
    · split
      · exact ih _
      · rfl

/-- The chain of a command, or why there is none, hangs on the open nodes alone. -/
theorem compile_chain_eq (r : Registry α) (tokens : List String) :
    (r.compile tokens).result.map Command.chain
      = (r.readInto [] tokens).2.bind fun opened => (finish [] opened).map Command.chain := by
  simp only [compile]
  cases (r.readInto [] tokens).2 with
  | error e => rfl
  | ok opened =>
    simp only [Except.bind, finish]
    cases Chain.incomplete? (Chain.close opened) <;> rfl

theorem Padded.compile_eq {tokens padded : List String} (h : r.Padded tokens padded) :
    (r.compile padded).result.map Command.chain = (r.compile tokens).result.map Command.chain := by
  rw [compile_chain_eq, compile_chain_eq, h.readInto_eq]

/-! ## What is passed over -/

/-- A refused token is not passed over; it dangles, or is a value for which there is no room. -/
theorem refused_cases {opened : List (Node α)} {token : String} {passed : List String}
    {e : CompileError} (h : r.readInto opened [token] = (passed, .error e)) :
    passed = [] ∧ ((∃ entry, e = .dangling entry) ∨ ∃ word kind, e = .unexpected word kind) := by
  unfold readInto at h
  split at h
  · next entry _ =>
    obtain ⟨rfl, herror⟩ := Prod.mk.inj h
    exact ⟨rfl, Or.inl ⟨entry, (Except.error.inj herror).symm⟩⟩
  · simp [readInto] at h
  · cases h
  · next v _ =>
    split at h
    · cases h
    · obtain ⟨rfl, herror⟩ := Prod.mk.inj h
      exact ⟨rfl, Or.inr ⟨v.display, v.kind, (Except.error.inj herror).symm⟩⟩

/-- Reading fails at the first token that the nodes opened before it refuse. -/
theorem exists_refused_of_readInto {tokens passed : List String} {opened : List (Node α)}
    {e : CompileError} (h : r.readInto opened tokens = (passed, .error e)) :
    ∃ before token after opened', tokens = before ++ token :: after
      ∧ r.readInto opened before = (passed, .ok opened')
      ∧ r.readInto opened' [token] = ([], .error e) := by
  induction tokens generalizing opened passed with
  | nil => cases h
  | cons token rest ih =>
    rw [← List.singleton_append, readInto_append] at h
    cases htoken : r.readInto opened [token] with
    | mk first result =>
      rw [htoken] at h
      cases result with
      | error e' =>
        obtain ⟨rfl, -⟩ := refused_cases htoken
        obtain ⟨rfl, herror⟩ := Prod.mk.inj h
        rw [herror] at htoken
        exact ⟨[], token, rest, opened, rfl, rfl, htoken⟩
      | ok opened'' =>
        -- A token that is read moves over to those before the refused one.
        obtain ⟨rfl, hresult⟩ := Prod.mk.inj h
        obtain ⟨before, refused, after, opened', rfl, hbefore, hrefused⟩ :=
          ih (Prod.ext rfl hresult)
        refine ⟨token :: before, refused, after, opened', rfl, ?_, hrefused⟩
        rw [← List.singleton_append, readInto_append, htoken]
        simp [hbefore]

/-- No token is refused for a slot that is still empty. -/
theorem readInto_ne_incomplete {tokens passed : List String} {opened : List (Node α)}
    (keyword : String) (missing : ValueKind) :
    r.readInto opened tokens ≠ (passed, .error (.incomplete keyword missing)) := by
  intro h
  obtain ⟨-, token, -, opened', -, -, hrefused⟩ := exists_refused_of_readInto h
  obtain ⟨-, ⟨entry, he⟩ | ⟨word, kind, he⟩⟩ := refused_cases hrefused
  · cases he
  · cases he

/-- A command whose tokens are all read compiles, or a required slot is empty. -/
theorem compile_ne_unexpected {tokens passed : List String} {opened : List (Node α)}
    (h : r.readInto [] tokens = (passed, .ok opened)) (word : String) (kind : Kind) :
    (r.compile tokens).result ≠ .error (.unexpected word kind) := by
  intro hresult
  simp only [compile, h, Except.bind] at hresult
  rcases finish_cases passed opened with ⟨c, hc⟩ | ⟨keyword, missing, hc⟩ <;> simp [hc] at hresult

/-- In a command that compiles, or lacks a required value, every filler is passed over. -/
theorem passedOver_eq_fillers {tokens : List String}
    (h : (∃ c, (r.compile tokens).result = .ok c)
      ∨ ∃ keyword missing, (r.compile tokens).result = .error (.incomplete keyword missing)) :
    (r.compile tokens).passedOver = r.fillers tokens := by
  cases hread : r.readInto [] tokens with
  | mk passed result =>
    cases result with
    | ok opened => simpa [compile, hread] using passed_of_readInto hread
    | error e =>
      simp only [compile, hread, Except.bind, reduceCtorEq, exists_false, false_or] at h
      obtain ⟨keyword, missing, h⟩ := h
      rw [Except.error.inj h] at hread
      exact absurd hread (readInto_ne_incomplete keyword missing)

/-- In a command with a value for which there is no room, the fillers before it are passed over. -/
theorem passedOver_of_unexpected {tokens : List String} {word : String} {kind : Kind}
    (h : (r.compile tokens).result = .error (.unexpected word kind)) :
    ∃ before token after, tokens = before ++ token :: after
      ∧ (∀ word kind, (r.compile before).result ≠ .error (.unexpected word kind))
      ∧ (r.compile (before ++ [token])).result = .error (.unexpected word kind)
      ∧ (r.compile tokens).passedOver = r.fillers before := by
  cases hread : r.readInto [] tokens with
  | mk passed result =>
    cases result with
    | ok opened => exact absurd h (compile_ne_unexpected hread word kind)
    | error e =>
      simp only [compile, hread, Except.bind] at h
      rw [Except.error.inj h] at hread
      obtain ⟨before, token, after, opened, rfl, hbefore, hrefused⟩ :=
        exists_refused_of_readInto hread
      refine ⟨before, token, after, rfl, compile_ne_unexpected hbefore, ?_, ?_⟩
      · simp [compile, readInto_append, hbefore, hrefused, Except.bind]
      · simpa [compile, hread] using passed_of_readInto hbefore

/-- A command lists its fillers. -/
theorem skipped_eq_fillers {tokens : List String} {c : Command α}
    (h : (r.compile tokens).result = .ok c) : c.skipped = r.fillers tokens := by
  obtain ⟨opened, hread, -⟩ := compile_eq_ok_iff.1 h
  exact passed_of_readInto hread

/-! ## Policies -/

/-- Reading under a policy goes as reading does, and warns of what it passes over. -/
theorem readUnder_eq (r : Registry α) (policy : UnknownWords) (warned passed : List String)
    (opened : List (Node α)) (tokens : List String) :
    r.readUnder policy warned passed opened tokens
      = (warned ++ policy.reported (r.readInto opened tokens).1,
        (r.readInto opened tokens).2.map fun opened' =>
          (passed ++ (r.readInto opened tokens).1, opened')) := by
  induction tokens generalizing warned passed opened with
  | nil => cases policy <;> simp [readUnder, readInto, UnknownWords.reported, Except.map]
  | cons token rest ih =>
    simp only [readUnder, readInto]
    cases r.meaning token with
    | error entry => cases policy <;> simp [UnknownWords.reported, Except.map]
    | ok meaning =>
      cases meaning with
      | none =>
        -- The filler stands at the end of both lists before the others are read.
        dsimp only
        rw [ih]
        cases policy <;> simp [UnknownWords.reported]
      | some meaning =>
        cases meaning with
        | keyword d => exact ih _ _ _
        | value v =>
          dsimp only
          cases Chain.bind? v opened with
          | some opened' => exact ih _ _ _
          | none => cases policy <;> simp [UnknownWords.reported, Except.map]

/-- The policy decides of which tokens a warning is given, and nothing else. -/
theorem compileUnder_eq (r : Registry α) (policy : UnknownWords) (tokens : List String) :
    r.compileUnder policy tokens
      = (policy.reported (r.compile tokens).passedOver, (r.compile tokens).result) := by
  simp only [compileUnder, readUnder_eq, compile, List.nil_append]
  cases (r.readInto [] tokens).2 <;> rfl

/-- No warning is given of a filler behind the token that is refused. -/
example :
    let r : Registry Unit :=
      (history [.draft { kind := some (.value .color), words := ["red"] }]).2
    r.compileUnder .warn ["so", "red", "now"]
        = (["so"], .error (.unexpected "red" (.value .color)))
      ∧ r.fillers ["so", "red", "now"] = ["so", "now"] := ⟨rfl, rfl⟩

end Registry

end CueScript
