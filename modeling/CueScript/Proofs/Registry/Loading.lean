import CueScript.Catalog
import CueScript.Proofs.Failure
import Mathlib.Data.List.Forall2

set_option autoImplicit false

/-! # Loading catalogs

A catalog is loaded declaration by declaration, and each of them goes through two checks: its names
are looked up, and the draft that they give is registered with all keywords that are there by then.
Loading ends at the first declaration that fails one of the two. What is left behind is what the
declarations before it make by themselves (`load_first_refused`).

Everything rests on two facts about a list of declarations from any place on: loading a longer list
goes on where the shorter one ended (`loadFrom_append`), and the place of the first declaration
only moves the number in a refusal (`loadFrom_add`). -/

namespace CueScript

variable {α : Type}

/-- A refusal in a list of declarations that stands behind so many others. -/
def RefusedDeclaration.behind (count : Nat) (e : RefusedDeclaration) : RefusedDeclaration :=
  { e with position := count + e.position }

/-- What loading answers for a list of declarations that stands behind so many others. -/
def loadedBehind (count : Nat) :
    Except RefusedDeclaration Nat → Except RefusedDeclaration Nat
  | .ok n => .ok (count + n)
  | .error e => .error (e.behind count)

namespace Registry

variable {handlers : HandlerTable α}

/-! ## One declaration and the rest -/

theorem loadFrom_of_refused {r : Registry α} {d : Declaration} {error : RegistrationError}
    (h : r.declare handlers d = .error error) (position : Nat) (rest : List Declaration) :
    r.loadFrom handlers position (d :: rest) = (.error ⟨position, d.words, error⟩, r) := by
  simp [loadFrom, h]

theorem loadFrom_of_declared {r r' : Registry α} {d : Declaration} {definition : Definition α}
    (h : r.declare handlers d = .ok (definition, r')) (position : Nat) (rest : List Declaration) :
    r.loadFrom handlers position (d :: rest) = r'.loadFrom handlers (position + 1) rest := by
  simp [loadFrom, h]

/-- A declaration comes in exactly if its names give a draft, and the draft registers. -/
theorem declare_eq_ok_iff {r r' : Registry α} {d : Declaration} {definition : Definition α} :
    r.declare handlers d = .ok (definition, r')
      ↔ ∃ draft, d.draft handlers = .ok draft ∧ r.register draft = .ok (definition, r') :=
  bind_eq_ok_iff

/-! ## Lists of declarations -/

/-- Loading a longer list goes on where the shorter one ended, unless it ended at a refusal. -/
theorem loadFrom_append (r : Registry α) (position : Nat) (first rest : List Declaration) :
    r.loadFrom handlers position (first ++ rest)
      = match r.loadFrom handlers position first with
        | (.ok _, r') => r'.loadFrom handlers (position + first.length) rest
        | (.error e, r') => (.error e, r') := by
  induction first generalizing r position with
  | nil => rfl
  | cons d first ih =>
    cases hd : r.declare handlers d with
    | error error => simp [loadFrom_of_refused hd]
    | ok p =>
      have hplace : position + 1 + first.length = position + (d :: first).length := by
        simp only [List.length_cons]
        omega
      rw [List.cons_append, loadFrom_of_declared hd, loadFrom_of_declared hd, ih, hplace]

/-- The place of the first declaration only moves the numbers in the answer. -/
theorem loadFrom_add (r : Registry α) (count position : Nat) (hpos : 0 < position)
    (declarations : List Declaration) :
    r.loadFrom handlers (count + position) declarations
      = (loadedBehind count (r.loadFrom handlers position declarations).1,
        (r.loadFrom handlers position declarations).2) := by
  induction declarations generalizing r position with
  | nil =>
    have hlast : count + position - 1 = count + (position - 1) := by omega
    simp [loadFrom, loadedBehind, hlast]
  | cons d rest ih =>
    cases hd : r.declare handlers d with
    | error error => simp [loadFrom_of_refused hd, loadedBehind, RefusedDeclaration.behind]
    | ok p =>
      rw [loadFrom_of_declared hd, loadFrom_of_declared hd, Nat.add_assoc, ih _ _ (by omega)]

/-- Loading succeeds exactly if every declaration gives a draft, and the drafts register one after
    the other. -/
theorem loadFrom_eq_ok_iff {r r' : Registry α} {position n : Nat}
    {declarations : List Declaration} :
    r.loadFrom handlers position declarations = (.ok n, r')
      ↔ n = position + declarations.length - 1
        ∧ ∃ drafts, List.Forall₂ (fun d draft => d.draft handlers = .ok draft) declarations drafts
          ∧ r.registerAll drafts = .ok r' := by
  induction declarations generalizing r position with
  | nil =>
    simp only [loadFrom, Prod.mk.injEq, Except.ok.injEq, List.length_nil, Nat.add_zero,
      List.forall₂_nil_left_iff, exists_eq_left, registerAll]
    rw [eq_comm (a := position - 1)]
  | cons d rest ih =>
    have hplace : position + 1 + rest.length - 1 = position + (d :: rest).length - 1 := by
      simp only [List.length_cons]
      omega
    cases hd : r.declare handlers d with
    | error error =>
      rw [loadFrom_of_refused hd]
      refine iff_of_false (by simp) ?_
      rintro ⟨-, drafts, hdrafts, hall⟩
      obtain ⟨draft, drafts, hdraft, -, rfl⟩ := List.forall₂_cons_left_iff.1 hdrafts
      obtain ⟨⟨definition, r₁⟩, hregister, -⟩ := bind_eq_ok_iff.1 hall
      rw [declare_eq_ok_iff.2 ⟨draft, hdraft, hregister⟩] at hd
      cases hd
    | ok p =>
      obtain ⟨definition, r₁⟩ := p
      obtain ⟨draft, hdraft, hregister⟩ := declare_eq_ok_iff.1 hd
      rw [loadFrom_of_declared hd, ih, hplace, and_congr_right_iff]
      intro _
      constructor
      · rintro ⟨drafts, hdrafts, hall⟩
        exact ⟨draft :: drafts, .cons hdraft hdrafts, bind_eq_ok_iff.2 ⟨_, hregister, hall⟩⟩
      · rintro ⟨drafts', hdrafts', hall⟩
        obtain ⟨draft', drafts, hdraft', hdrafts, rfl⟩ := List.forall₂_cons_left_iff.1 hdrafts'
        rw [hdraft, Except.ok.injEq] at hdraft'
        subst hdraft'
        obtain ⟨p, hp, hrest⟩ := bind_eq_ok_iff.1 hall
        rw [hregister, Except.ok.injEq] at hp
        subst hp
        exact ⟨drafts, hdrafts, hrest⟩

/-- Loading fails exactly at the first declaration that is refused, after those before it came in
    by themselves. -/
theorem loadFrom_eq_error_iff {r r' : Registry α} {position : Nat} {e : RefusedDeclaration}
    {declarations : List Declaration} :
    r.loadFrom handlers position declarations = (.error e, r')
      ↔ ∃ before d after, declarations = before ++ d :: after
        ∧ (∃ n, r.loadFrom handlers position before = (.ok n, r'))
        ∧ r'.declare handlers d = .error e.error
        ∧ e.position = position + before.length ∧ e.words = d.words := by
  constructor
  · induction declarations generalizing r position with
    | nil => simp [loadFrom]
    | cons d rest ih =>
      cases hd : r.declare handlers d with
      | error error =>
        rw [loadFrom_of_refused hd]
        intro h
        obtain ⟨he, rfl⟩ := Prod.mk.inj h
        obtain rfl := Except.error.inj he
        exact ⟨[], d, rest, rfl, ⟨_, rfl⟩, hd, rfl, rfl⟩
      | ok p =>
        rw [loadFrom_of_declared hd]
        intro h
        obtain ⟨before, d', after, rfl, ⟨n, hbefore⟩, hd', hposition, hwords⟩ := ih h
        refine ⟨d :: before, d', after, rfl, ⟨n, ?_⟩, hd', ?_, hwords⟩
        · rw [loadFrom_of_declared hd, hbefore]
        · rw [hposition, List.length_cons]
          omega
  · rintro ⟨before, d, after, rfl, ⟨n, hbefore⟩, hd, hposition, hwords⟩
    rw [loadFrom_append, hbefore]
    simp only [loadFrom_of_refused hd, ← hposition, ← hwords]

/-! ## Catalogs -/

/-- **Loading stops exactly at the first bad declaration.** Take any registry and any catalog.
    Loading succeeds exactly if every declaration gives a draft and the drafts register one after
    the other; it leaves the registry that this makes, and answers how many there were. It fails
    exactly if there is a declaration that is refused, for the reported reason, by the registry that
    the declarations before it make when they are loaded alone. That registry is what is left; the
    refused declaration does not change it, and the position says where it stands, counted from
    one. So loading two lists is loading the first and then, if it came in, the second, with all
    positions moved by the length of the first. -/
theorem load_first_refused (r : Registry α) (handlers : HandlerTable α)
    (declarations : List Declaration) :
    (∀ n r', r.load handlers ⟨declarations⟩ = (.ok n, r')
      ↔ n = declarations.length
        ∧ ∃ drafts, List.Forall₂ (fun d draft => d.draft handlers = .ok draft) declarations drafts
          ∧ r.registerAll drafts = .ok r')
      ∧ (∀ e r', r.load handlers ⟨declarations⟩ = (.error e, r')
        ↔ ∃ before d after, declarations = before ++ d :: after
          ∧ r.load handlers ⟨before⟩ = (.ok before.length, r')
          ∧ (d.draft handlers >>= r'.register) = .error e.error
          ∧ r'.load handlers ⟨[d]⟩ = (.error ⟨1, d.words, e.error⟩, r')
          ∧ e.position = before.length + 1 ∧ e.words = d.words)
      ∧ ∀ first rest, r.load handlers ⟨first ++ rest⟩
          = match r.load handlers ⟨first⟩ with
            | (.ok _, r') =>
              (loadedBehind first.length (r'.load handlers ⟨rest⟩).1, (r'.load handlers ⟨rest⟩).2)
            | (.error e, r') => (.error e, r') := by
  refine ⟨fun n r' => ?_, fun e r' => ?_, ?_⟩
  · rw [load, loadFrom_eq_ok_iff, Nat.add_sub_cancel_left]
  · rw [load, loadFrom_eq_error_iff]
    constructor
    · rintro ⟨before, d, after, rfl, ⟨n, hbefore⟩, hd, hposition, hwords⟩
      have hcount := (loadFrom_eq_ok_iff.1 hbefore).1
      rw [Nat.add_sub_cancel_left] at hcount
      subst hcount
      exact ⟨before, d, after, rfl, hbefore, hd, loadFrom_of_refused hd 1 [],
        by rw [hposition, Nat.add_comm], hwords⟩
    · rintro ⟨before, d, after, rfl, hbefore, hd, -, hposition, hwords⟩
      exact ⟨before, d, after, rfl, ⟨_, hbefore⟩, hd, by rw [hposition, Nat.add_comm], hwords⟩
  · intro first rest
    rw [load, loadFrom_append, load]
    cases hfirst : r.loadFrom handlers 1 first with
    | mk answer r' =>
      cases answer with
      | error e => rfl
      | ok n =>
        show r'.loadFrom handlers (1 + first.length) rest = _
        rw [Nat.add_comm, loadFrom_add _ _ _ Nat.one_pos]
        rfl

end Registry

end CueScript
