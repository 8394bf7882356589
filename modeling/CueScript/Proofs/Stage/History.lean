import CueScript.Stage
import Mathlib.Algebra.Group.Prod
import Mathlib.Data.List.Nodup

set_option autoImplicit false

/-! # Histories of a stage

What can be asked of a stage, one call after the other, and what a call leaves of the drawings. A
drawing keeps its place, its handle, its shape, its size and its position for ever; calls may give
it another color, and move it while it is the latest one (`keeps_perform`). Only drawing adds to the
list, at its end.

Handles are made of a shape, which may be any text, and of the place of the drawing. The place is
told by what stands behind the last number sign, so no two drawings share a handle. -/

namespace CueScript

/-! ## The last element with a property -/

section LastElement

variable {β : Type} {has : β → Bool} {change : β → β} {l l' : List β}

theorem changeLast?_eq_none_iff : changeLast? has change l = none ↔ ∀ x ∈ l, has x = false := by
  induction l with
  | nil => simp [changeLast?]
  | cons b rest ih =>
    rw [List.forall_mem_cons, ← ih, changeLast?]
    cases changeLast? has change rest with
    | some rest' => simp
    | none => cases hb : has b <;> simp

/-- The search changes the last element with the property, and nothing else. -/
theorem changeLast?_eq_some_iff :
    changeLast? has change l = some l'
      ↔ ∃ place b, l[place]? = some b ∧ has b = true
        ∧ (∀ i c, place < i → l[i]? = some c → has c = false) ∧ l' = l.modify place change := by
  induction l generalizing l' with
  | nil => simp [changeLast?]
  | cons a rest ih =>
    rw [changeLast?]
    constructor
    · intro h
      cases hrest : changeLast? has change rest with
      | some rest' =>
        rw [hrest] at h
        obtain ⟨place, b, hb, hhas, hlater, rfl⟩ := ih.1 hrest
        refine ⟨place + 1, b, hb, hhas, fun i c hi hc => ?_, (Option.some.inj h).symm⟩
        obtain ⟨i, rfl⟩ := Nat.exists_eq_succ_of_ne_zero (Nat.ne_zero_of_lt hi)
        exact hlater i c (Nat.lt_of_succ_lt_succ hi) hc
      | none =>
        rw [hrest] at h
        simp only [Option.ite_none_right_eq_some, Option.some.injEq] at h
        refine ⟨0, a, rfl, h.1, fun i c hi hc => ?_, h.2.symm⟩
        obtain ⟨i, rfl⟩ := Nat.exists_eq_succ_of_ne_zero (Nat.ne_zero_of_lt hi)
        exact changeLast?_eq_none_iff.1 hrest c (List.mem_of_getElem? hc)
    · rintro ⟨place, b, hb, hhas, hlater, rfl⟩
      cases place with
      | zero =>
        obtain rfl := Option.some.inj hb
        have hrest : changeLast? has change rest = none := by
          rw [changeLast?_eq_none_iff]
          intro c hc
          obtain ⟨i, hi⟩ := List.mem_iff_getElem?.1 hc
          exact hlater (i + 1) c (Nat.succ_pos i) hi
        rw [hrest]
        exact if_pos hhas
      | succ place =>
        have hrest := ih.2 ⟨place, b, hb, hhas,
          fun i c hi hc => hlater (i + 1) c (Nat.succ_lt_succ hi) hc, rfl⟩
        rw [hrest]
        rfl

end LastElement

/-! ## Handles -/

/-- A numeral has no number sign in it. -/
theorem not_mem_toList_toString (n : Nat) : '#' ∉ (toString n).toList := by
  rw [Nat.toString_eq_repr, Nat.toList_repr]
  intro h
  exact absurd (Nat.isDigit_of_mem_toDigits (by omega) (by omega) h) (by decide)

namespace Stage

/-- A handle tells the shape and the place, whatever the shape is called. -/
theorem handleOf_inj {shape shape' : String} {m n : Nat}
    (h : handleOf shape m = handleOf shape' n) : shape = shape' ∧ m = n := by
  have hcut : ∀ shape n, Text.cutAtLast '#' (handleOf shape n).toList
      = some (shape.toList, (toString n).toList) := by
    intro shape n
    rw [Text.cutAtLast_eq_some_iff]
    exact ⟨by simp [handleOf], not_mem_toList_toString n⟩
  have hparts := (hcut shape m).symm.trans (h ▸ hcut shape' n)
  obtain ⟨hshape, hplace⟩ := Prod.mk.inj (Option.some.inj hparts)
  refine ⟨String.toList_inj.1 hshape, ?_⟩
  rw [Nat.toString_eq_repr, Nat.toString_eq_repr, Nat.toList_repr, Nat.toList_repr] at hplace
  calc m = Nat.ofDigitChars 10 (Nat.toDigits 10 m) 0 := Nat.ofDigitChars_ten_toDigits.symm
    _ = Nat.ofDigitChars 10 (Nat.toDigits 10 n) 0 := by rw [hplace]
    _ = n := Nat.ofDigitChars_ten_toDigits

end Stage

/-! ## Calls -/

/-- What can be asked of a stage. -/
inductive StageCall where
  | draw (shape : String) (size : Option Dimension) (color position : Option String)
  | fill (name color : String)
  | move (direction : String)
  | write (element text : String)
  | append (element text : String)

namespace StageCall

/-- Does the call ask for a drawing? -/
def isDraw : StageCall → Bool
  | draw .. => true
  | _ => false

/-- Does the call ask for a step? -/
def isMove : StageCall → Bool
  | move _ => true
  | _ => false

end StageCall

namespace Stage

/-- What a change that may be refused answers, and the stage that it leaves. -/
def settle (s : Stage) : Except StageError Stage → Except StageError (Option String) × Stage
  | .ok s' => (.ok none, s')
  | .error e => (.error e, s)

/-- The answer to a call, which is the handle if a shape was drawn, and the stage after it. -/
def perform (s : Stage) : StageCall → Except StageError (Option String) × Stage
  | .draw shape size color position =>
    let (handle, s') := s.draw shape size color position
    (.ok (some handle), s')
  | .fill name color => s.settle (s.fill name color)
  | .move direction => s.settle (s.move direction)
  | .write element text => (.ok none, s.write element text)
  | .append element text => (.ok none, s.append element text)

/-- The stage after some calls, one after the other. -/
def after (s : Stage) (calls : List StageCall) : Stage :=
  calls.foldl (fun s call => (s.perform call).2) s

@[simp] theorem after_nil (s : Stage) : s.after [] = s := rfl

@[simp] theorem after_cons (s : Stage) (call : StageCall) (calls : List StageCall) :
    s.after (call :: calls) = (s.perform call).2.after calls := rfl

theorem after_append (s : Stage) (calls calls' : List StageCall) :
    s.after (calls ++ calls') = (s.after calls).after calls' :=
  List.foldl_append

/-- A call that is refused changes nothing. -/
theorem perform_of_error {s : Stage} {call : StageCall} {e : StageError}
    (h : (s.perform call).1 = .error e) : (s.perform call).2 = s := by
  have hsettle : ∀ result, (s.settle result).1 = .error e → (s.settle result).2 = s := by
    rintro (e' | s') hresult
    · rfl
    · cases hresult
  cases call with
  | draw shape size color position => cases h
  | fill name color => exact hsettle _ h
  | move direction => exact hsettle _ h
  | write element text => cases h
  | append element text => cases h

end Stage

/-! ## What a call changes -/

/-- The drawing with this color, and some steps further on. -/
def Drawing.changed (d : Drawing) (color : Option String) (steps : Int × Int) : Drawing :=
  { d with color := color, right := d.right + steps.1, down := d.down + steps.2 }

theorem Drawing.changed_zero (d : Drawing) : d.changed d.color (0, 0) = d := by
  simp [changed]

theorem Drawing.changed_changed (d : Drawing) (color color' : Option String)
    (steps steps' : Int × Int) :
    (d.changed color steps).changed color' steps' = d.changed color' (steps + steps') := by
  simp [changed, Int.add_assoc]

namespace Stage

/-- How far a call moves the drawing at a place: one step, if the call succeeds and this is the
    latest drawing. -/
def travel (s : Stage) (place : Nat) : StageCall → Int × Int
  | .move direction =>
    match s.move direction with
    | .ok _ => if s.drawings.length = place + 1 then (step? direction).getD (0, 0) else (0, 0)
    | .error _ => (0, 0)
  | _ => (0, 0)

/-- How far calls move the drawing at a place, all together. -/
def travelAll (place : Nat) : Stage → List StageCall → Int × Int
  | _, [] => (0, 0)
  | s, call :: calls => s.travel place call + travelAll place (s.perform call).2 calls

/-- Text leaves the drawings alone. -/
theorem drawings_append (s : Stage) (element text : String) :
    (s.append element text).drawings = s.drawings := by
  rw [append]
  split <;> rfl

/-- The stage with this color given to one drawing. -/
def colored (s : Stage) (place : Nat) (color : String) : Stage :=
  { s with drawings := s.drawings.modify place fun d => { d with color := some color } }

/-- The stage with one drawing some steps further on. -/
def moved (s : Stage) (place : Nat) (steps : Int × Int) : Stage :=
  { s with drawings := s.drawings.modify place fun d =>
      { d with right := d.right + steps.1, down := d.down + steps.2 } }

/-- A color goes to the latest drawing that has the name as its handle or as its shape. -/
theorem fill_eq_ok_iff {s s' : Stage} {name color : String} :
    s.fill name color = .ok s'
      ↔ ∃ place d, s.drawings[place]? = some d ∧ (d.handle = name ∨ d.shape = name)
        ∧ (∀ i e, place < i → s.drawings[i]? = some e → e.handle ≠ name ∧ e.shape ≠ name)
        ∧ s' = s.colored place color := by
  rw [fill]
  constructor
  · intro h
    split at h
    · next drawings hdrawings =>
      obtain ⟨place, d, hd, hname, hlater, rfl⟩ := changeLast?_eq_some_iff.1 hdrawings
      refine ⟨place, d, hd, by simpa using hname, fun i e hi he => ?_, (Except.ok.inj h).symm⟩
      simpa using hlater i e hi he
    · cases h
  · rintro ⟨place, d, hd, hname, hlater, rfl⟩
    have hdrawings : changeLast? (fun d : Drawing => d.handle = name || d.shape = name)
        (fun d => { d with color := some color }) s.drawings
          = some (s.colored place color).drawings := by
      refine changeLast?_eq_some_iff.2 ⟨place, d, hd, by simpa using hname, ?_, rfl⟩
      intro i e hi he
      simpa using hlater i e hi he
    rw [hdrawings]
    rfl

/-- A color is refused when there is no drawing with the name. -/
theorem fill_eq_error_iff {s : Stage} {name color : String} {e : StageError} :
    s.fill name color = .error e
      ↔ (∀ d ∈ s.drawings, d.handle ≠ name ∧ d.shape ≠ name) ∧ e = .unknownShape name := by
  rw [fill]
  split
  · next drawings hdrawings =>
    obtain ⟨place, d, hd, hname, -⟩ := changeLast?_eq_some_iff.1 hdrawings
    have hhas : ¬ ∀ d ∈ s.drawings, d.handle ≠ name ∧ d.shape ≠ name := fun hnone =>
      absurd hname (by simpa using hnone d (List.mem_of_getElem? hd))
    simp [hhas]
  · next hdrawings =>
    have hnone := changeLast?_eq_none_iff.1 hdrawings
    simp only [Bool.or_eq_false_iff, decide_eq_false_iff_not] at hnone
    rw [Except.error.injEq, eq_comm]
    exact ⟨fun h => ⟨hnone, h⟩, And.right⟩

/-- The latest drawing is moved, by one step. -/
theorem move_eq_ok_iff {s s' : Stage} {direction : String} :
    s.move direction = .ok s'
      ↔ ∃ steps place, step? direction = some steps ∧ s.drawings.length = place + 1
        ∧ s' = s.moved place steps := by
  rw [move]
  constructor
  · intro h
    split at h
    · cases h
    · next dx dy hstep =>
      split at h
      · next drawings hdrawings =>
        obtain ⟨place, d, hd, -, hlater, rfl⟩ := changeLast?_eq_some_iff.1 hdrawings
        refine ⟨(dx, dy), place, hstep, ?_, (Except.ok.inj h).symm⟩
        obtain ⟨hplace, -⟩ := List.getElem?_eq_some_iff.1 hd
        by_contra hlength
        have hnext : place + 1 < s.drawings.length := by omega
        exact absurd (hlater (place + 1) _ (Nat.lt_succ_self place)
          (List.getElem?_eq_getElem hnext)) (by simp)
      · cases h
  · rintro ⟨⟨dx, dy⟩, place, hstep, hlength, rfl⟩
    have hdrawings : changeLast? (fun _ => true)
        (fun d : Drawing => { d with right := d.right + dx, down := d.down + dy }) s.drawings
          = some (s.moved place (dx, dy)).drawings := by
      refine changeLast?_eq_some_iff.2
        ⟨place, s.drawings[place], List.getElem?_eq_getElem _, rfl, ?_, rfl⟩
      intro i e hi he
      obtain ⟨hi', -⟩ := List.getElem?_eq_some_iff.1 he
      omega
    simp only [hstep, hdrawings]
    rfl

/-- One drawing at the most has another color or is some steps further on, and the journey is that
    of every place. -/
def Alters (journey : Nat → Int × Int) (s s' : Stage) : Prop :=
  ∃ (place : Nat) (color : Drawing → Option String) (steps : Int × Int),
    s'.drawings = s.drawings.modify place (fun d => d.changed (color d) steps)
    ∧ ∀ i, journey i = if i = place then steps else (0, 0)

/-- If no drawing has changed, then the first one has changed into itself. -/
theorem alters_of_drawings_eq {s s' : Stage} (h : s'.drawings = s.drawings) :
    Alters (fun _ => (0, 0)) s s' := by
  refine ⟨0, Drawing.color, (0, 0), ?_, fun i => (ite_self _).symm⟩
  have hid : (fun d : Drawing => d.changed d.color (0, 0)) = id := funext Drawing.changed_zero
  rw [hid, List.modify_id, h]

theorem alters_colored (s : Stage) (place : Nat) (color : String) :
    Alters (fun _ => (0, 0)) s (s.colored place color) := by
  refine ⟨place, fun _ => some color, (0, 0), ?_, fun i => (ite_self _).symm⟩
  simp only [colored, Drawing.changed, Int.add_zero]

/-- A call draws, or it changes one drawing at the most. -/
theorem perform_cases (s : Stage) (call : StageCall) :
    (∃ shape size color position, call = .draw shape size color position)
    ∨ call.isDraw = false ∧ Alters (fun i => s.travel i call) s (s.perform call).2 := by
  cases call with
  | draw shape size color position => exact .inl ⟨shape, size, color, position, rfl⟩
  | fill name color =>
    refine .inr ⟨rfl, ?_⟩
    have htravel : (fun i => s.travel i (.fill name color)) = fun _ => (0, 0) := rfl
    rw [htravel, perform]
    cases hfill : s.fill name color with
    | error e => exact alters_of_drawings_eq rfl
    | ok s' =>
      obtain ⟨place, -, -, -, -, rfl⟩ := fill_eq_ok_iff.1 hfill
      exact s.alters_colored place color
  | move direction =>
    refine .inr ⟨rfl, ?_⟩
    simp only [travel, perform]
    cases hmove : s.move direction with
    | error e => exact alters_of_drawings_eq rfl
    | ok s' =>
      obtain ⟨steps, place, hstep, hlength, rfl⟩ := move_eq_ok_iff.1 hmove
      refine ⟨place, Drawing.color, steps, rfl, fun i => ?_⟩
      simp only [hlength, hstep, Option.getD_some, Nat.add_right_cancel_iff, eq_comm]
  | write element text => exact .inr ⟨rfl, alters_of_drawings_eq rfl⟩
  | append element text =>
    exact .inr ⟨rfl, alters_of_drawings_eq (s.drawings_append element text)⟩

/-! ## What calls leave of the drawings -/

/-- Every drawing is still there, in its place, and is what it was but for its color; it went as
    far as the journey of its place says. -/
def Keeps (journey : Nat → Int × Int) (s s' : Stage) : Prop :=
  ∀ (place : Nat) (d : Drawing), s.drawings[place]? = some d →
    ∃ color, s'.drawings[place]? = some (d.changed color (journey place))

/-- A stage keeps its drawings when others come after them. -/
theorem keeps_of_drawings_eq_append {s s' : Stage} {added : List Drawing}
    (h : s'.drawings = s.drawings ++ added) : Keeps (fun _ => (0, 0)) s s' := by
  intro place d hd
  refine ⟨d.color, ?_⟩
  rw [h, d.changed_zero, List.getElem?_append_left (List.getElem?_eq_some_iff.1 hd).1, hd]

theorem Alters.keeps {journey : Nat → Int × Int} {s s' : Stage} (h : Alters journey s s') :
    Keeps journey s s' := by
  intro i d hd
  obtain ⟨place, color, steps, hdrawings, hjourney⟩ := h
  rw [hdrawings, hjourney, List.getElem?_modify, hd]
  by_cases hi : place = i
  · exact ⟨color d, by simp [hi]⟩
  · exact ⟨d.color, by simp [hi, Ne.symm hi, d.changed_zero]⟩

/-- What one call leaves of the drawings. -/
theorem keeps_perform (s : Stage) (call : StageCall) :
    Keeps (fun place => s.travel place call) s (s.perform call).2 := by
  obtain ⟨shape, size, color, position, rfl⟩ | ⟨-, halters⟩ := s.perform_cases call
  · exact keeps_of_drawings_eq_append rfl
  · exact halters.keeps

/-- What calls leave of the drawings, one call after the other. -/
theorem keeps_after (s : Stage) (calls : List StageCall) :
    Keeps (fun place => travelAll place s calls) s (s.after calls) := by
  induction calls generalizing s with
  | nil => exact keeps_of_drawings_eq_append (List.append_nil _).symm
  | cons call calls ih =>
    intro place d hd
    obtain ⟨color, hstep⟩ := s.keeps_perform call place d hd
    obtain ⟨color', hrest⟩ := ih (s.perform call).2 place _ hstep
    exact ⟨color', hrest.trans (congrArg some (d.changed_changed ..))⟩

/-- Only drawing adds a drawing. -/
theorem length_perform (s : Stage) (call : StageCall) :
    (s.perform call).2.drawings.length
      = s.drawings.length + if call.isDraw = true then 1 else 0 := by
  obtain ⟨shape, size, color, position, rfl⟩ | ⟨hdraw, place, color, steps, hdrawings, -⟩ :=
    s.perform_cases call
  · exact List.length_append
  · rw [hdrawings, List.length_modify, hdraw]
    rfl

theorem length_after (s : Stage) (calls : List StageCall) :
    (s.after calls).drawings.length = s.drawings.length + calls.countP StageCall.isDraw := by
  induction calls generalizing s with
  | nil => rfl
  | cons call calls ih =>
    rw [after_cons, ih, length_perform, List.countP_cons]
    omega

/-! ## Every handle is its own -/

/-- Every drawing has the handle of its shape and its place. -/
def Numbered (s : Stage) : Prop :=
  ∀ (place : Nat) (d : Drawing), s.drawings[place]? = some d →
    d.handle = handleOf d.shape (place + 1)

theorem numbered_empty : Numbered empty := by
  intro place d hd
  cases hd

/-- A call leaves the drawings numbered: it keeps those that were there, and a new one comes after
    them under the number of its place. -/
theorem Numbered.perform {s : Stage} (hs : s.Numbered) (call : StageCall) :
    (s.perform call).2.Numbered := by
  intro place d hd
  by_cases hplace : place < s.drawings.length
  · have hold := List.getElem?_eq_getElem hplace
    obtain ⟨color, hkept⟩ := s.keeps_perform call place _ hold
    obtain rfl := Option.some.inj (hkept.symm.trans hd)
    have hhandle : s.drawings[place].handle = handleOf s.drawings[place].shape (place + 1) :=
      hs place _ hold
    exact hhandle
  · have hlength := s.length_perform call
    obtain ⟨hbound, -⟩ := List.getElem?_eq_some_iff.1 hd
    obtain ⟨shape, size, color, position, rfl⟩ | ⟨hdraw, -⟩ := s.perform_cases call
    · obtain rfl : place = s.drawings.length := by
        simp only [StageCall.isDraw, if_true] at hlength
        omega
      obtain rfl := Option.some.inj (List.getElem?_concat_length.symm.trans hd)
      rfl
    · rw [hdraw, if_neg Bool.false_ne_true] at hlength
      omega

theorem Numbered.after {s : Stage} (hs : s.Numbered) (calls : List StageCall) :
    (s.after calls).Numbered := by
  induction calls generalizing s with
  | nil => exact hs
  | cons call calls ih => exact ih (hs.perform call)

/-- The handle of a drawing tells its place. -/
theorem Numbered.place_eq {s : Stage} (hs : s.Numbered) {i j : Nat} {d e : Drawing}
    (hd : s.drawings[i]? = some d) (he : s.drawings[j]? = some e) (h : d.handle = e.handle) :
    i = j := by
  rw [hs i d hd, hs j e he] at h
  exact Nat.succ.inj (handleOf_inj h).2

/-- No two drawings share a handle. -/
theorem Numbered.nodup_handles {s : Stage} (hs : s.Numbered) :
    (s.drawings.map Drawing.handle).Nodup := by
  rw [List.Nodup, List.pairwise_map, List.pairwise_iff_getElem]
  intro i j hi hj hij hhandle
  have hplace := hs.place_eq (List.getElem?_eq_getElem hi) (List.getElem?_eq_getElem hj) hhandle
  omega

/-- A drawing is found by its handle. -/
theorem Numbered.drawing?_handle {s : Stage} (hs : s.Numbered) {place : Nat} {d : Drawing}
    (hd : s.drawings[place]? = some d) : s.drawing? d.handle = some d := by
  obtain ⟨hplace, hget⟩ := List.getElem?_eq_some_iff.1 hd
  rw [drawing?, List.find?_eq_some_iff_getElem]
  refine ⟨by simp, place, hplace, hget, fun j hj => ?_⟩
  have hearlier := List.getElem?_eq_getElem (Nat.lt_trans hj hplace)
  have hne : s.drawings[j].handle ≠ d.handle := fun heq =>
    Nat.ne_of_lt hj (hs.place_eq hearlier hd heq)
  simpa using hne

/-! ## How far drawings go -/

/-- A step is one step to one side. -/
theorem natAbs_step? {direction : String} {steps : Int × Int} (h : step? direction = some steps) :
    steps.1.natAbs + steps.2.natAbs = 1 := by
  unfold step? at h
  split at h <;> cases h <;> rfl

/-- Only a call to move goes anywhere, and not further than one step. -/
theorem natAbs_travel_le (s : Stage) (place : Nat) (call : StageCall) :
    (s.travel place call).1.natAbs + (s.travel place call).2.natAbs
      ≤ if call.isMove = true then 1 else 0 := by
  cases call with
  | move direction =>
    rw [travel]
    cases hmove : s.move direction with
    | error e => exact Nat.zero_le 1
    | ok s' =>
      obtain ⟨steps, -, hstep, -⟩ := move_eq_ok_iff.1 hmove
      simp only [hstep, Option.getD_some]
      split
      · exact Nat.le_of_eq (natAbs_step? hstep)
      · exact Nat.zero_le 1
  | draw => exact Nat.le_refl 0
  | fill => exact Nat.le_refl 0
  | write => exact Nat.le_refl 0
  | append => exact Nat.le_refl 0

/-- Calls lead a drawing no further away than there are moves among them. -/
theorem natAbs_travelAll_le (place : Nat) (s : Stage) (calls : List StageCall) :
    (travelAll place s calls).1.natAbs + (travelAll place s calls).2.natAbs
      ≤ calls.countP StageCall.isMove := by
  induction calls generalizing s with
  | nil => exact Nat.le_refl 0
  | cons call calls ih =>
    have hcall := s.natAbs_travel_le place call
    have hcalls := ih (s.perform call).2
    rw [travelAll, List.countP_cons, Prod.fst_add, Prod.snd_add]
    omega

/-! ## Histories -/

/-- The history of the drawings, for all calls on an empty stage and all names of shapes.

    Handles are pairwise different, and there is a drawing for every call to draw. Such a call
    answers the handle of a drawing that is found under it ever after, at the same place and with
    the shape, size and position that it was drawn with. The steps that the drawing has made are
    those of the calls to move that succeeded while it was the latest one. A call that is refused
    changes nothing. -/
theorem drawings_history (calls : List StageCall) :
    ((empty.after calls).drawings.map Drawing.handle).Nodup
    ∧ (empty.after calls).drawings.length = calls.countP StageCall.isDraw
    ∧ (∀ (before later : List StageCall) (shape : String) (size : Option Dimension)
        (color position : Option String),
        calls = before ++ .draw shape size color position :: later →
        let place := before.countP StageCall.isDraw
        let handle := handleOf shape (place + 1)
        let drawn := (empty.after before).perform (.draw shape size color position)
        let steps := travelAll place drawn.2 later
        drawn.1 = .ok (some handle)
        ∧ steps.1.natAbs + steps.2.natAbs ≤ later.countP StageCall.isMove
        ∧ ∃ color' : Option String,
          let d : Drawing := ⟨handle, shape, size, color', position, steps.1, steps.2⟩
          (empty.after calls).drawings[place]? = some d
          ∧ (empty.after calls).drawing? handle = some d)
    ∧ ∀ (call : StageCall) (e : StageError), ((empty.after calls).perform call).1 = .error e →
        ((empty.after calls).perform call).2 = empty.after calls := by
  have hnumbered := numbered_empty.after calls
  refine ⟨hnumbered.nodup_handles, ?_, ?_, fun _ _ => perform_of_error⟩
  · rw [length_after, empty, List.length_nil, Nat.zero_add]
  rintro before later shape size color position rfl place handle drawn steps
  have hlength : (empty.after before).drawings.length = place := by
    rw [length_after, empty, List.length_nil, Nat.zero_add]
  have hhandle : handleOf shape ((empty.after before).drawings.length + 1) = handle := by
    rw [hlength]
  have hdrawn : drawn.2.drawings[place]? = some ⟨handle, shape, size, color, position, 0, 0⟩ := by
    rw [← hhandle, ← hlength]
    exact List.getElem?_concat_length
  obtain ⟨color', hlater⟩ := drawn.2.keeps_after later place _ hdrawn
  have hd : (empty.after (before ++ .draw shape size color position :: later)).drawings[place]?
      = some ⟨handle, shape, size, color', position, steps.1, steps.2⟩ := by
    rw [after_append, after_cons, hlater]
    simp [Drawing.changed, steps]
  have hanswer : drawn.1 = .ok (some handle) := by
    rw [← hhandle]
    rfl
  exact ⟨hanswer, natAbs_travelAll_le place drawn.2 later,
    color', hd, hnumbered.drawing?_handle hd⟩

/-- Names with number signs do not mix up the handles, and a drawing no longer moves when another
    one has come after it. -/
theorem drawings_history_number_signs :
    ∃ color, (empty.after [.draw "a#2" none none none, .draw "a" none none none, .move "right",
        .fill "a#2" "red", .move "down", .draw "a" none none none, .move "left"]).drawing? "a#2"
      = some ⟨"a#2", "a", none, color, none, 1, 1⟩ := by
  obtain ⟨-, -, color, -, hfound⟩ := (drawings_history _).2.2.1 [.draw "a#2" none none none]
    [.move "right", .fill "a#2" "red", .move "down", .draw "a" none none none, .move "left"]
    "a" none none none rfl
  exact ⟨color, hfound⟩

end Stage

end CueScript
