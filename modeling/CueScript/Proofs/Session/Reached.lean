import CueScript.Proofs.Session.EventNames

set_option autoImplicit false

/-! # The basic vocabulary in every session

Keywords come into a registry and never leave it, and no later keyword can take a word away from an
earlier one. So whatever catalog a session was started with, and whatever commands, signals and
declarations it has seen, it holds the basic vocabulary (`Session.Reached.holdsBasics`), and the
words of that mean in it what they always mean (`Registry.HoldsBasics.meaning`). -/

namespace CueScript

/-! ## Drafts and definitions -/

/-- A draft describes one definition. -/
theorem Draft.Describes.unique {α : Type} {draft : Draft α} {d d' : Definition α}
    (h : draft.Describes d) (h' : draft.Describes d') : d = d' := by
  obtain ⟨id, aliases, role⟩ := d
  obtain ⟨id', aliases', role'⟩ := d'
  obtain ⟨kind, hkind, hrole⟩ := h.role
  obtain ⟨kind', hkind', hrole'⟩ := h'.role
  obtain rfl : kind = kind' := Option.some.inj (hkind.symm.trans hkind')
  obtain ⟨rfl, rfl⟩ := List.cons.inj (h.words.symm.trans h'.words)
  obtain rfl : role = role' := Except.ok.inj (hrole.symm.trans hrole')
  rfl

namespace Registry

/-- The registry holds every keyword of the basic vocabulary, and perhaps others. -/
def HoldsBasics (r : Registry StageAction) : Prop :=
  ∃ ds, r.Holds ds ∧ ∀ draft ∈ Vocabulary.drafts, ∃ d ∈ ds, draft.Describes d

variable {r r' : Registry StageAction}

theorem holdsBasics_of_registerAll (h : (empty : Registry StageAction).registerAll
    Vocabulary.drafts = .ok r) : r.HoldsBasics := by
  obtain ⟨ds, hds, hholds⟩ := holds_empty.of_registerAll h
  exact ⟨ds, hholds, forall_mem_of_forall₂ (P := fun d => d ∈ ds) hds.flip
    (fun d _ hdescribes hd => ⟨d, hd, hdescribes⟩) fun _ hd => hd⟩

namespace HoldsBasics

/-- What comes in later comes in beside the basic vocabulary. -/
theorem registerAll (h : r.HoldsBasics) {drafts : List (Draft StageAction)}
    (hr : r.registerAll drafts = .ok r') : r'.HoldsBasics := by
  obtain ⟨ds, hholds, hbasics⟩ := h
  obtain ⟨new, -, hholds'⟩ := hholds.of_registerAll hr
  refine ⟨ds ++ new, hholds', fun draft hdraft => ?_⟩
  obtain ⟨d, hd, hdescribes⟩ := hbasics draft hdraft
  exact ⟨d, List.mem_append_left new hd, hdescribes⟩

/-- A word of the basic vocabulary means its own keyword, or the value with its id. -/
theorem meaning (h : r.HoldsBasics) {draft : Draft StageAction} {d : Definition StageAction}
    (hdraft : draft ∈ Vocabulary.drafts) (hd : draft.Describes d) {word : String}
    (hword : word ∈ d.words) :
    r.meaning word
      = .ok (some (if d.kind.isValue then .value (.word d.kind d.id) else .keyword d)) := by
  obtain ⟨ds, hholds, hbasics⟩ := h
  obtain ⟨d', hmem, hd'⟩ := hbasics draft hdraft
  obtain rfl := hd.unique hd'
  exact hholds.meaning_of_mem_words hmem hword

end HoldsBasics

end Registry

/-! ## Sessions -/

namespace Session

theorem sameReading_act (s : Session) (a : Act) : s.SameReading (s.act a) := by
  cases a with
  | script text => exact sameReading_runAll s _
  | fire target signal => exact ⟨rfl, rfl⟩

/-- What a session can come to. It starts with the basic vocabulary and a catalog that loads; then
    commands and scripts are run, signals are fired, and more keywords are declared. -/
inductive Reached {ω : Type} (storage : Storage (StateM ω)) (settings : Settings) (world : ω) :
    Session → Prop where
  | start {s : Session} (h : (Session.start storage settings world).1 = .ok s) :
    Reached storage settings world s
  | command {s : Session} (command : String) (h : Reached storage settings world s) :
    Reached storage settings world (s.runCommand command).2
  | act {s : Session} (a : Act) (h : Reached storage settings world s) :
    Reached storage settings world (s.act a)
  | declare {s : Session} (d : Declaration) (h : Reached storage settings world s) :
    Reached storage settings world (s.declare d).2

variable {ω : Type} {storage : Storage (StateM ω)} {settings : Settings} {world : ω} {s : Session}

theorem holdsBasics_of_start (h : (start storage settings world).1 = .ok s) :
    s.registry.HoldsBasics := by
  obtain ⟨basic, hbasic, rfl | ⟨path, r, hr, rfl⟩⟩ := start_cases h
  · exact Registry.holdsBasics_of_registerAll hbasic
  · obtain ⟨catalog, n, hload⟩ := exists_load_of_extend hr
    obtain ⟨-, drafts, -, hall⟩ := Registry.loadFrom_eq_ok_iff.1 hload
    exact (Registry.holdsBasics_of_registerAll hbasic).registerAll hall

theorem holdsBasics_declare (h : s.registry.HoldsBasics) (d : Declaration) :
    (s.declare d).2.registry.HoldsBasics := by
  unfold declare
  split
  · next definition r hr =>
    obtain ⟨draft, -, hregister⟩ := Registry.declare_eq_ok_iff.1 hr
    have hall : s.registry.registerAll [draft] = .ok r :=
      bind_eq_ok_iff.2 ⟨(definition, r), hregister, rfl⟩
    exact h.registerAll hall
  · exact h

/-- Every session holds the basic vocabulary. -/
theorem Reached.holdsBasics (h : Reached storage settings world s) : s.registry.HoldsBasics := by
  induction h with
  | start h => exact holdsBasics_of_start h
  | command command _ ih => rwa [(sameReading_runCommand _ command).registry]
  | act a _ ih => rwa [(sameReading_act _ a).registry]
  | declare d _ ih => exact holdsBasics_declare ih d

end Session

end CueScript
