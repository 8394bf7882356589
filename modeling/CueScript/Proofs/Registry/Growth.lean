import CueScript.Proofs.Command.Alike
import Mathlib.Data.List.Perm.Basic

set_option autoImplicit false

/-! # Growing a vocabulary

What a registry answers about a word rests on the definitions that name it, and not on when they came
in or what came in beside them. So a new keyword changes no command that its words are not in
(`compile_register`), and the same keywords in another order make a vocabulary in which every command
means the same (`registerAll_perm`).

For the second, success in one order has to say something that does not speak of order: each draft
describes a definition, and all their words are different. -/

namespace CueScript

variable {α : Type}

namespace Registry

/-! ## Answers of two registries -/

theorem eq_of_definitionFor_error {r : Registry α} {id : String} {kind : Kind}
    {entry : DanglingEntry} (h : r.definitionFor id kind = .error entry) : entry = ⟨id, kind⟩ := by
  unfold definitionFor at h
  split at h
  · cases h
  · exact (Except.error.inj h).symm

namespace Holds

variable {r r' : Registry α} {ds ds' : List (Definition α)}

/-- A word has the same entry if the same definitions name it. -/
theorem resolve?_congr (h : Holds r ds) (h' : Holds r' ds') {word : String}
    (same : ∀ d, word ∈ d.words → (d ∈ ds' ↔ d ∈ ds)) : r'.resolve? word = r.resolve? word := by
  refine Option.ext fun e => ?_
  rw [h'.resolve?_eq_some_iff, h.resolve?_eq_some_iff]
  constructor
  · rintro ⟨d, hd, hw, he⟩
    exact ⟨d, (same d hw).1 hd, hw, he⟩
  · rintro ⟨d, hd, hw, he⟩
    exact ⟨d, (same d hw).2 hd, hw, he⟩

/-- An id and a kind have the same definition, or none, if the same definitions have them. -/
theorem definitionFor_congr (h : Holds r ds) (h' : Holds r' ds') {id : String} {kind : Kind}
    (same : ∀ d, d.id = id → d.kind = kind → (d ∈ ds' ↔ d ∈ ds)) :
    r'.definitionFor id kind = r.definitionFor id kind := by
  have hok : ∀ d, r'.definitionFor id kind = .ok d ↔ r.definitionFor id kind = .ok d := by
    intro d
    rw [h'.definitionFor_eq_ok_iff, h.definitionFor_eq_ok_iff, and_congr_left_iff]
    rintro ⟨hid, hkind⟩
    exact same d hid hkind
  cases hr : r.definitionFor id kind with
  | ok d => exact (hok d).2 hr
  | error entry =>
    cases hr' : r'.definitionFor id kind with
    | ok d =>
      rw [(hok d).1 hr'] at hr
      cases hr
    | error entry' => rw [eq_of_definitionFor_error hr, eq_of_definitionFor_error hr']

/-! ## More keywords -/

/-- New keywords leave the other words as they were. -/
theorem resolve?_append {new : List (Definition α)} (h : Holds r ds) (h' : Holds r' (ds ++ new))
    {word : String} (hword : ∀ d ∈ new, word ∉ d.words) : r'.resolve? word = r.resolve? word := by
  refine h.resolve?_congr h' fun d hw => ?_
  rw [List.mem_append, or_iff_left_iff_imp]
  exact fun hd => absurd hw (hword d hd)

/-- A token keeps its meaning if none of the new words is the token, or stands after its equals
    sign. -/
theorem meaning_append {new : List (Definition α)} (h : Holds r ds) (h' : Holds r' (ds ++ new))
    {token : String} (htoken : ∀ d ∈ new, token ∉ d.words)
    (hassigned : ∀ word ∈ assignedWord? token, ∀ d ∈ new, word ∉ d.words) :
    r'.meaning token = r.meaning token := by
  refine meaning_congr (h.resolve?_append h' htoken) (fun e he => ?_)
    (fun word hword => h.resolve?_append h' (hassigned word hword))
  obtain ⟨d, hd, -, rfl⟩ := h.resolve?_eq_some_iff.1 he
  refine h.definitionFor_congr h' fun d' hid _ => ?_
  rw [List.mem_append, or_iff_left_iff_imp]
  -- A new definition with an old id would name a word of the old one, which names no other.
  intro hd'
  have hsame : d' = d := h'.eq_of_mem_words (List.mem_append_right _ hd')
    (List.mem_append_left _ hd) List.mem_cons_self (hid ▸ List.mem_cons_self)
  exact hsame ▸ hd

end Holds

/-- **A new keyword changes no command without its words.** Whatever was registered and refused
    before: if a draft is registered, and none of its words is a token of a command or stands after
    the first equals sign of one, then the command compiles as before, to the same chain with the
    same definitions and the same skipped words, or fails with the same error; and it has the same
    fillers. -/
theorem compile_register (calls : List (Registration α)) (draft : Draft α) (tokens : List String)
    (d : Definition α) (r' : Registry α)
    (hregister : (history calls).2.register draft = .ok (d, r'))
    (hnew : ∀ token ∈ tokens, token ∉ draft.words ∧
      ∀ word ∈ assignedWord? token, word ∉ draft.words) :
    r'.compile tokens = (history calls).2.compile tokens
      ∧ (∀ policy, r'.compileUnder policy tokens = (history calls).2.compileUnder policy tokens)
      ∧ r'.fillers tokens = (history calls).2.fillers tokens := by
  have hr := holds_history calls
  have hr' := hr.register hregister
  have hwords : draft.words = d.words :=
    (accept_iff_describes.1 (register_eq_ok_iff.1 hregister).1).1.words
  rw [hwords] at hnew
  have hmeaning : ∀ token ∈ tokens, r'.meaning token = (history calls).2.meaning token := by
    intro token ht
    obtain ⟨htoken, hassigned⟩ := hnew token ht
    exact hr.meaning_append hr' (by simpa using htoken) (by simpa using hassigned)
  have halike := alike_of_meaning_eq hmeaning
  exact ⟨compile_congr halike, compileUnder_congr halike, fillers_congr halike⟩

/-- A new color is not seen where a command gives a shape and another color by their kinds. -/
theorem compile_register_crimson :
    let calls : List (Registration Unit) :=
      [.draft { kind := some .function, words := ["show"], required := some [.value .shape],
                optional := [.value .color], handler := some ⟨2, ()⟩ },
       .draft { kind := some (.value .shape), words := ["circle", "round"] }]
    let draft : Draft Unit := { kind := some (.value .color), words := ["crimson", "dark"] }
    let d : Definition Unit := ⟨"crimson", ["dark"], .literal .color⟩
    let r' := (history calls).2.add d
    let tokens := ["please", "show", "shape=round", "color=black"]
    (history calls).2.register draft = .ok (d, r')
      ∧ (∀ token ∈ tokens, token ∉ draft.words
        ∧ ∀ word ∈ assignedWord? token, word ∉ draft.words)
      ∧ r'.compile tokens = (history calls).2.compile tokens
      ∧ (∀ policy, r'.compileUnder policy tokens = (history calls).2.compileUnder policy tokens)
      ∧ r'.fillers tokens = (history calls).2.fillers tokens := by
  intro calls draft d r' tokens
  have hregister : (history calls).2.register draft = .ok (d, r') := rfl
  have hnew : ∀ token ∈ tokens, token ∉ draft.words
      ∧ ∀ word ∈ assignedWord? token, word ∉ draft.words := by
    simp only [tokens, draft]
    decide
  exact ⟨hregister, hnew, compile_register calls draft tokens d r' hregister hnew⟩

/-! ## Another order -/

namespace Holds

variable {r r' : Registry α} {ds : List (Definition α)}

/-- Drafts that register one after the other describe the definitions that come in. -/
theorem of_registerAll (h : Holds r ds) {drafts : List (Draft α)}
    (hr : r.registerAll drafts = .ok r') :
    ∃ new, List.Forall₂ Draft.Describes drafts new ∧ Holds r' (ds ++ new) := by
  induction drafts generalizing r ds with
  | nil =>
    cases hr
    exact ⟨[], .nil, by simpa using h⟩
  | cons draft rest ih =>
    obtain ⟨⟨d, r₁⟩, hregister, hrest⟩ := bind_eq_ok_iff.1 hr
    obtain ⟨new, hnew, hr'⟩ := ih (h.register hregister) hrest
    have hdescribes := (accept_iff_describes.1 (register_eq_ok_iff.1 hregister).1).1
    exact ⟨d :: new, .cons hdescribes hnew, by simpa using hr'⟩

/-- Drafts register one after the other if the words of all the definitions that they describe are
    different and new. -/
theorem registerAll (h : Holds r ds) {drafts : List (Draft α)} {new : List (Definition α)}
    (hnew : List.Forall₂ Draft.Describes drafts new)
    (hdistinct : ((ds ++ new).flatMap Definition.words).Nodup) :
    ∃ r', r.registerAll drafts = .ok r' ∧ Holds r' (ds ++ new) := by
  induction hnew generalizing r ds with
  | nil => exact ⟨r, rfl, by simpa using h⟩
  | @cons draft d rest new hd _ ih =>
    have hfree : ∀ w ∈ d.words, r.resolve? w = none := by
      intro w hw
      refine h.resolve?_eq_none_iff.2 fun d' hd' hw' => ?_
      rw [List.flatMap_append, List.nodup_append] at hdistinct
      exact hdistinct.2.2 w (List.mem_flatMap.2 ⟨d', hd', hw'⟩) w
        (List.mem_flatMap.2 ⟨d, List.mem_cons_self, hw⟩) rfl
    have hregister : r.register draft = .ok (d, r.add d) :=
      register_eq_ok_iff.2 ⟨accept_iff_describes.2 ⟨hd, hfree⟩, rfl⟩
    rw [List.append_cons] at hdistinct ⊢
    obtain ⟨r', hrest, hr'⟩ := ih (h.register hregister) hdistinct
    exact ⟨r', bind_eq_ok_iff.2 ⟨_, hregister, hrest⟩, hr'⟩

end Holds

/-- **The order of registration does not matter.** If drafts register one after the other from
    nothing, they do so in every order, and the registries that they make give the same answer about
    every word, every id and kind and every command. -/
theorem registerAll_perm (drafts drafts' : List (Draft α)) (r : Registry α)
    (hperm : drafts'.Perm drafts) (hr : (empty : Registry α).registerAll drafts = .ok r) :
    ∃ r', (empty : Registry α).registerAll drafts' = .ok r'
      ∧ (∀ word, r'.resolve? word = r.resolve? word)
      ∧ (∀ id kind, r'.definitionFor id kind = r.definitionFor id kind)
      ∧ r'.size = r.size
      ∧ ∀ tokens, r'.compile tokens = r.compile tokens := by
  obtain ⟨ds, hdrafts, hholds⟩ := holds_empty.of_registerAll hr
  rw [List.nil_append] at hholds
  obtain ⟨ds', hdrafts', hperm'⟩ := List.perm_comp_forall₂ hperm hdrafts
  have hdistinct : (ds'.flatMap Definition.words).Nodup :=
    (hperm'.flatMap_right Definition.words).nodup_iff.2 hholds.distinct
  obtain ⟨r', hr', hholds'⟩ := holds_empty.registerAll hdrafts' hdistinct
  rw [List.nil_append] at hholds'
  have hword : ∀ word, r'.resolve? word = r.resolve? word := fun word =>
    hholds.resolve?_congr hholds' fun _ _ => hperm'.mem_iff
  have hdefinition : ∀ id kind, r'.definitionFor id kind = r.definitionFor id kind :=
    fun id kind => hholds.definitionFor_congr hholds' fun _ _ _ => hperm'.mem_iff
  refine ⟨r', hr', hword, hdefinition, ?_, fun tokens => ?_⟩
  · rw [hholds.size, hholds'.size, hperm'.length_eq]
  · exact compile_congr (alike_of_meaning_eq fun token _ =>
      meaning_congr (hword token) (fun e _ => hdefinition e.id e.kind) fun word _ => hword word)

/-- A function, its shape and a color register the other way around. -/
theorem registerAll_perm_show_circle_red :
    let drafts : List (Draft Unit) :=
      [{ kind := some .function, words := ["show"], required := some [.value .shape],
         optional := [.value .color], handler := some ⟨2, ()⟩ },
       { kind := some (.value .shape), words := ["circle", "round"] },
       { kind := some (.value .color), words := ["red"] }]
    let r : Registry Unit := (history (drafts.map .draft)).2
    drafts.reverse.Perm drafts ∧ (empty : Registry Unit).registerAll drafts = .ok r
      ∧ ∃ r', (empty : Registry Unit).registerAll drafts.reverse = .ok r'
        ∧ (∀ word, r'.resolve? word = r.resolve? word)
        ∧ (∀ id kind, r'.definitionFor id kind = r.definitionFor id kind)
        ∧ r'.size = r.size
        ∧ ∀ tokens, r'.compile tokens = r.compile tokens :=
  ⟨List.reverse_perm _, rfl, registerAll_perm _ _ _ (List.reverse_perm _) rfl⟩

end Registry

end CueScript
