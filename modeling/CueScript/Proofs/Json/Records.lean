import CueScript.Proofs.Json.ReadBack

set_option autoImplicit false

/-! # Taking written values apart

Lists, optional values and records that were written as JSON are taken apart into what they were
made of. For a record the members are followed one after the other: each of them has to belong to a
field that is not set yet. -/

namespace CueScript.Json

variable {α ρ : Type}

/-! ## Lists and optional values -/

theorem decodeAll_map {f : Reading → Except Fault α} {g : α → Reading} {as : List α}
    (h : ∀ a ∈ as, f (g a) = .ok a) : decodeAll f (as.map g) = .ok as := by
  induction as with
  | nil => rfl
  | cons a as ih =>
    rw [List.forall_mem_cons] at h
    rw [List.map_cons, decodeAll, h.1, ih h.2]
    rfl

/-- A written list is taken apart into its items. -/
theorem asList_array {f : Reading → Except Fault α} {g : α → Json} {as : List α}
    (h : ∀ a ∈ as, f (g a).reading = .ok a) :
    (Json.array (as.map g)).reading.asList f = .ok as := by
  have hall : decodeAll f (as.map fun a => (g a).reading) = .ok as := decodeAll_map h
  rw [reading, readingItems_eq, List.map_map, Reading.asList]
  simp only [Function.comp_def, hall]
  rfl

theorem asList_strings (texts : List String) :
    (strings texts).reading.asList Reading.asString = .ok texts :=
  asList_array fun _ _ => rfl

theorem asOptional_some {f : Reading → Except Fault α} {r : Reading} {a : α} (hnull : r ≠ .null)
    (h : f r = .ok a) : r.asOptional f = .ok (some a) := by
  rw [Reading.asOptional, h]
  · rfl
  · exact hnull

/-- A written optional value is taken apart into what it was, if the value itself is not written as
    `null`. -/
theorem asOptional_ofOption {f : Reading → Except Fault α} {g : α → Json}
    (hnull : ∀ a, (g a).reading ≠ .null) (h : ∀ a, f (g a).reading = .ok a) (o : Option α) :
    (ofOption g o).reading.asOptional f = .ok o := by
  cases o with
  | none => rfl
  | some a => exact asOptional_some (hnull a) (h a)

/-! ## Records -/

theorem readingMembers_append (members more : List (String × Json)) :
    readingMembers (members ++ more) = readingMembers members ++ readingMembers more := by
  simp only [readingMembers_eq, List.map_append]

/-- A member of a field that is not set yet sets it. -/
theorem Shape.setMembers_cons {s : Shape ρ} {field : Field ρ} {key : String} {value : Reading}
    {record record' : ρ} (hfield : s.fields.find? (·.name = key) = some field)
    (hnew : field.isSet record = false) (hset : field.set value record = .ok record')
    (rest : List (String × Reading)) :
    s.setMembers record ((key, value) :: rest) = s.setMembers record' rest := by
  rw [setMembers, hfield]
  simp only [hnew, hset]
  rfl

/-- A closed object whose members set every required field is a record. -/
theorem Shape.decode_object {s : Shape ρ} {start record : ρ} {members : List (String × Reading)}
    (hset : s.setMembers start members = .ok record)
    (hrequired : ∀ f ∈ s.fields, f.required = true → f.isSet record = true) :
    s.decode start (.object members true) = .ok record := by
  have hnone : s.fields.find? (fun f => f.required && !f.isSet record) = none := by
    rw [List.find?_eq_none]
    intro f hf
    cases hfr : f.required with
    | false => simp
    | true => simp [hrequired f hf hfr]
  simp only [decode, hset, bind, Except.bind, Bool.not_true, Bool.false_eq_true, if_false, hnone]
  rfl

/-! ## Values that show everything -/

theorem exact_strings (texts : List String) : (strings texts).Exact :=
  .array fun j hj => by
    obtain ⟨s, -, rfl⟩ := List.mem_map.1 hj
    exact .string s

theorem exact_ofOption {f : α → Json} (hf : ∀ a, (f a).Exact) (o : Option α) :
    (ofOption f o).Exact := by
  cases o with
  | none => exact .null
  | some a => exact hf a

end CueScript.Json
