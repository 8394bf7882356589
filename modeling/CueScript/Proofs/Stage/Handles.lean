import CueScript.Proofs.Stage.History

set_option autoImplicit false

/-! # Filling by a handle

A color can be given to a drawing under its handle or under the name of its shape, and one search
looks for both. It goes backwards, so what stands in the way of a handle is a later drawing of a
shape with that very name; earlier drawings never do, whatever they are called. -/

namespace CueScript

/-- A change of the last element that has the property does not go further back. -/
theorem changeLast?_concat {β : Type} {has : β → Bool} {b : β} (hb : has b = true)
    (change : β → β) (l : List β) :
    changeLast? has change (l ++ [b]) = some (l ++ [change b]) := by
  induction l with
  | nil => simp [changeLast?, hb]
  | cons a rest ih => simp [changeLast?, ih]

namespace Stage

/-- To draw a shape and then fill it under the handle that it was given is to draw it in that color.
    What else is on the stage does not matter. -/
theorem fill_draw (s : Stage) (shape : String) (size : Option Dimension)
    (color position : Option String) (color' : String) :
    (s.draw shape size color position).2.fill (s.draw shape size color position).1 color'
      = .ok (s.draw shape size (some color') position).2 := by
  simp only [draw, fill]
  rw [changeLast?_concat (by simp)]

/-- What a color under the handle of a drawing does: it goes to this drawing, or to the latest one
    of a shape with that name, which then came after it. -/
theorem Numbered.exists_filled {s : Stage} (hs : s.Numbered) {place : Nat} {d : Drawing}
    (hd : s.drawings[place]? = some d) (color : String) :
    ∃ filled, s.fill d.handle color = .ok (s.colored filled color)
      ∧ (filled = place
        ∨ place < filled ∧ ∃ e, s.drawings[filled]? = some e ∧ e.shape = d.handle)
      ∧ ∀ later e, filled < later → s.drawings[later]? = some e → e.shape ≠ d.handle := by
  cases hfill : s.fill d.handle color with
  | error e =>
    obtain ⟨hnone, -⟩ := fill_eq_error_iff.1 hfill
    exact absurd rfl (hnone d (List.mem_of_getElem? hd)).1
  | ok s' =>
    obtain ⟨filled, e, he, hname, hlater, rfl⟩ := fill_eq_ok_iff.1 hfill
    refine ⟨filled, rfl, ?_, fun later f hlt hf => (hlater later f hlt hf).2⟩
    obtain hlt | heq | hgt := Nat.lt_trichotomy filled place
    · exact absurd rfl (hlater place d hlt hd).1
    · exact .inl heq
    · refine .inr ⟨hgt, e, he, hname.resolve_left fun hhandle => ?_⟩
      exact Nat.ne_of_gt hgt (hs.place_eq he hd hhandle)

/-- Filling by a handle, for all calls on an empty stage and all names of shapes.

    A color under the handle of a drawing is never refused, and one drawing takes it, with nothing
    else changed. This is the drawing with the handle if and only if no later drawing is of a shape
    that is called like the handle; otherwise it is the latest one of such a shape. -/
theorem fill_handle (calls : List StageCall) (place : Nat) (d : Drawing) (color : String)
    (hd : (empty.after calls).drawings[place]? = some d) :
    ∃ filled,
      (empty.after calls).fill d.handle color = .ok ((empty.after calls).colored filled color)
      ∧ (filled = place ↔ ∀ later e, place < later →
          (empty.after calls).drawings[later]? = some e → e.shape ≠ d.handle)
      ∧ (filled ≠ place → place < filled
        ∧ (∃ e, (empty.after calls).drawings[filled]? = some e ∧ e.shape = d.handle)
        ∧ ∀ later e, filled < later → (empty.after calls).drawings[later]? = some e →
            e.shape ≠ d.handle) := by
  obtain ⟨filled, hfill, hwhich, hlater⟩ := (numbered_empty.after calls).exists_filled hd color
  refine ⟨filled, hfill, ⟨?_, fun hnone => ?_⟩, fun hne => ?_⟩
  · rintro rfl
    exact hlater
  · obtain hsame | ⟨hgt, e, he, hshape⟩ := hwhich
    · exact hsame
    · exact absurd hshape (hnone filled e hgt he)
  · obtain ⟨hgt, hshape⟩ := hwhich.resolve_left hne
    exact ⟨hgt, hshape, hlater⟩

/-- An earlier drawing of a shape that is called like the handle does not stand in the way. -/
theorem fill_handle_earlier_shape :
    let s := empty.after [.draw "a#2" none none none, .draw "a" none none none]
    s.fill "a#2" "red" = .ok (s.colored 1 "red") := by
  intro s
  have hlast : ∀ later e, 1 < later → s.drawings[later]? = some e → e.shape ≠ "a#2" := by
    intro later e hgt he
    have hlength : s.drawings.length = 2 := rfl
    obtain ⟨hlt, -⟩ := List.getElem?_eq_some_iff.1 he
    omega
  obtain ⟨filled, hfill, hsame, -⟩ := fill_handle
    [.draw "a#2" none none none, .draw "a" none none none] 1
    ⟨"a#2", "a", none, none, none, 0, 0⟩ "red" rfl
  rw [hsame.2 hlast] at hfill
  exact hfill

/-- A later drawing of a shape that is called like the handle does: it takes the color that was
    meant for the drawing with the handle. -/
theorem fill_handle_later_shape :
    let s := empty.after [.draw "circle" none none none, .draw "circle#1" none none none]
    s.drawing? "circle#1" = some ⟨"circle#1", "circle", none, none, none, 0, 0⟩
    ∧ s.fill "circle#1" "red" = .ok (s.colored 1 "red")
    ∧ s.fill "circle#1" "red" ≠ .ok (s.colored 0 "red")
    ∧ (s.colored 1 "red").drawing? "circle#1"
      = some ⟨"circle#1", "circle", none, none, none, 0, 0⟩ := by
  decide

end Stage

end CueScript
