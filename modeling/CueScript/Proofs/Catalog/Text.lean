import CueScript.Catalog.Format
import CueScript.Json.Print
import CueScript.Proofs.Json.Records

set_option autoImplicit false

/-! # Catalogs as text

Writing leaves a field of a declaration out where it says nothing, and a field that is left out says
nothing when it is read. These are two rules for every field, and they differ: a declaration may
require no kinds, which is not the same as saying nothing about them, and that is written; it may
not name optional kinds without any, so an empty list is left out. `ofText_toJson` says that for
every combination of fields and for any texts in them the two rules fit. -/

namespace CueScript

open Json (Shape Reading)

variable {β ρ : Type}

/-! ## Members that may be left out -/

theorem exact_optionalMember {name : String} {f : β → Json} (hf : ∀ b, (f b).Exact) (o : Option β) :
    ∀ m ∈ optionalMember name f o, m.2.Exact := by
  cases o with
  | none => exact List.forall_mem_nil _
  | some b => exact List.forall_mem_singleton.2 (hf b)

/-- A member that may be left out sets its field to what it was written for, or leaves it. Here
    `put` is the record with such a value for the field. -/
theorem setMembers_optionalMember {s : Shape ρ} {field : Json.Field ρ} {name : String}
    {f : β → Json} (put : Option β → ρ) (hfield : s.fields.find? (·.name = name) = some field)
    (hnew : field.isSet (put none) = false)
    (hset : ∀ b, field.set (f b).reading (put none) = .ok (put (some b))) (o : Option β)
    (rest : List (String × Reading)) :
    s.setMembers (put none) (Json.readingMembers (optionalMember name f o) ++ rest)
      = s.setMembers (put o) rest := by
  cases o with
  | none => rfl
  | some b => exact Shape.setMembers_cons hfield hnew (hset b) rest

/-! ## Declarations -/

namespace Declaration

/-- The optional kinds, if they are written. -/
def shownOptional (d : Declaration) : Option (List String) :=
  if d.optional.isEmpty then none else some d.optional

/-- The mark for keywords that need a named element, if it is written. -/
def shownMark (d : Declaration) : Option Bool := if d.namedElement then some true else none

/-- The members of a written declaration: two that are always there, and six that may be left
    out. -/
def members (d : Declaration) : List (String × Json) :=
  ("type", .ofOption .string d.kind) :: ("keywords", .strings d.words) ::
    (optionalMember "required" .strings d.required ++
      (optionalMember "optional" .strings d.shownOptional ++
        (optionalMember "produces" .string d.produces ++
          (optionalMember "handler" .string d.handler ++
            (optionalMember "bind_to" .string d.target ++
              optionalMember "requires_bound_element" .bool d.shownMark)))))

theorem toJson_eq (d : Declaration) : d.toJson = .object d.members := by
  have hoptional : (if d.optional.isEmpty then [] else [("optional", Json.strings d.optional)])
      = optionalMember "optional" .strings d.shownOptional := by
    unfold shownOptional
    split <;> rfl
  have hmark : (if d.namedElement then [("requires_bound_element", Json.bool true)] else [])
      = optionalMember "requires_bound_element" .bool d.shownMark := by
    unfold shownMark
    split <;> rfl
  rw [toJson, hoptional, hmark, members]
  simp

theorem exact_toJson (d : Declaration) : d.toJson.Exact := by
  rw [toJson_eq]
  refine .object ?_
  simp only [members, List.forall_mem_cons, List.forall_mem_append]
  exact ⟨Json.exact_ofOption .string _, Json.exact_strings _,
    exact_optionalMember Json.exact_strings _, exact_optionalMember Json.exact_strings _,
    exact_optionalMember .string _, exact_optionalMember .string _,
    exact_optionalMember .string _, exact_optionalMember .bool _⟩

/-- What the text of a declaration tells: the kind and the words, and of the other fields what is
    written. -/
def shown (d : Declaration) : Partial where
  kind := some d.kind
  words := some d.words
  required := d.required.map some
  optional := d.shownOptional
  produces := d.produces.map some
  handler := d.handler.map some
  target := d.target.map some
  namedElement := d.shownMark

/-- What is left out is completed as what it was left out for. -/
theorem complete_shown (d : Declaration) : d.shown.complete = d := by
  obtain ⟨kind, words, required, optional, produces, handler, target, namedElement⟩ := d
  simp only [Partial.complete, shown, shownOptional, shownMark, Option.getD_some, mk.injEq,
    true_and]
  refine ⟨?_, ?_, ?_, ?_, ?_, ?_⟩
  · cases required <;> rfl
  · cases optional <;> rfl
  · cases produces <;> rfl
  · cases handler <;> rfl
  · cases target <;> rfl
  · cases namedElement <;> rfl

/-- The members of a written declaration set the fields that they show. -/
theorem setMembers_members (d : Declaration) :
    shape.setMembers {} (Json.readingMembers d.members) = .ok d.shown := by
  have hkind : (Json.ofOption .string d.kind).reading.asOptional (·.asString) = .ok d.kind :=
    Json.asOptional_ofOption (fun _ => Json.Reading.noConfusion) (fun _ => rfl) d.kind
  have hwords : ∀ texts, (Json.strings texts).reading.asStrings = .ok texts := Json.asList_strings
  have hrequired : ∀ texts, (Json.strings texts).reading.asOptional (·.asStrings)
      = .ok (some texts) := fun texts =>
    Json.asOptional_some (Json.Reading.noConfusion) (hwords texts)
  rw [members, Json.readingMembers, Json.readingMembers]
  simp only [Json.readingMembers_append]
  refine Eq.trans (Shape.setMembers_cons rfl rfl (by simp only [hkind]; rfl) _) ?_
  refine Eq.trans (Shape.setMembers_cons rfl rfl (by simp only [hwords]; rfl) _) ?_
  -- Before each of the other fields those after it are not known yet.
  refine Eq.trans (setMembers_optionalMember
    (fun o => { d.shown with
      required := o.map some, optional := none, produces := none, handler := none, target := none,
      namedElement := none })
    rfl rfl (fun texts => by simp only [hrequired]; rfl) _ _) ?_
  refine Eq.trans (setMembers_optionalMember
    (fun o => { d.shown with
      optional := o, produces := none, handler := none, target := none, namedElement := none })
    rfl rfl (fun texts => by simp only [hwords]; rfl) _ _) ?_
  refine Eq.trans (setMembers_optionalMember
    (fun o => { d.shown with
      produces := o.map some, handler := none, target := none, namedElement := none })
    rfl rfl (fun _ => rfl) _ _) ?_
  refine Eq.trans (setMembers_optionalMember
    (fun o => { d.shown with handler := o.map some, target := none, namedElement := none })
    rfl rfl (fun _ => rfl) _ _) ?_
  refine Eq.trans (setMembers_optionalMember
    (fun o => { d.shown with target := o.map some, namedElement := none })
    rfl rfl (fun _ => rfl) _ _) ?_
  rw [← List.append_nil (Json.readingMembers _)]
  refine Eq.trans (setMembers_optionalMember (fun o => { d.shown with namedElement := o })
    rfl rfl (fun _ => rfl) _ []) ?_
  rfl

/-- A declaration is read back from its own text. -/
theorem ofReading_toJson (d : Declaration) : ofReading d.toJson.reading = .ok d := by
  rw [toJson_eq, Json.reading, ofReading,
    Shape.decode_object d.setMembers_members (by simp [shape])]
  exact congrArg Except.ok d.complete_shown

end Declaration

/-! ## Catalogs -/

namespace Catalog

theorem exact_toJson (c : Catalog) : c.toJson.Exact := by
  refine .object (List.forall_mem_singleton.2 (.array fun j hj => ?_))
  obtain ⟨d, -, rfl⟩ := List.mem_map.1 hj
  exact d.exact_toJson

theorem decode_toJson (c : Catalog) :
    shape.decode {} c.toJson.reading = .ok ⟨some c.declarations⟩ := by
  have hlist : (Json.array (c.declarations.map Declaration.toJson)).reading.asList
      Declaration.ofReading = .ok c.declarations := Json.asList_array fun d _ => d.ofReading_toJson
  have hset : shape.setMembers {}
      [("keywords", (Json.array (c.declarations.map Declaration.toJson)).reading)]
      = .ok ⟨some c.declarations⟩ :=
    Shape.setMembers_cons rfl rfl (by simp only [hlist]; rfl) []
  exact Shape.decode_object hset (by simp [shape])

/-- **A catalog is read back from its own text**, in both layouts: whatever its declarations are,
    whatever characters their texts are made of, and whichever of their fields say something. -/
theorem ofText_toJson (c : Catalog) :
    ofText c.toJson.compact = .ok c ∧ ofText c.toJson.pretty = .ok c := by
  have hread : ∀ text, Json.read text = ⟨c.toJson.reading, false⟩ → ofText text = .ok c := by
    intro text htext
    rw [ofText, Json.decodeText_of_read _ htext, c.decode_toJson]
    rfl
  exact ⟨hread _ (Json.read_compact c.exact_toJson), hread _ (Json.read_pretty c.exact_toJson)⟩

end Catalog

end CueScript
