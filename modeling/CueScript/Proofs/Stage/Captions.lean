import CueScript.Proofs.Stage.History

set_option autoImplicit false

/-! # The texts of an element

All captions of a stage stand in one list, and adding to a text searches it from the end. The texts
on one element still go their own way: a call that puts up or adds a text of the element does to
them what it would do if no other element had any (`textsOn_perform`), and every other call leaves
them alone. So the texts on an element at the end of a history are told by its own calls alone
(`texts_history`). -/

namespace CueScript

/-- The search cuts the list at the last element with the property. -/
theorem exists_cut_of_changeLast? {β : Type} {has : β → Bool} {change : β → β} {l l' : List β}
    (h : changeLast? has change l = some l') :
    ∃ before b after, l = before ++ b :: after ∧ has b = true ∧ (∀ c ∈ after, has c = false)
      ∧ l' = before ++ change b :: after := by
  obtain ⟨place, b, hb, hhas, hlater, rfl⟩ := changeLast?_eq_some_iff.1 h
  obtain ⟨hlt, rfl⟩ := List.getElem?_eq_some_iff.1 hb
  refine ⟨l.take place, l[place], l.drop (place + 1), by simp, hhas, fun c hc => ?_,
    List.modify_eq_take_cons_drop hlt⟩
  obtain ⟨i, hi⟩ := List.mem_iff_getElem?.1 hc
  rw [List.getElem?_drop] at hi
  exact hlater _ c (by omega) hi

namespace StageCall

/-- Does the call put up or add a text of the element? -/
def isTextOf (element : String) : StageCall → Bool
  | write e _ => e = element
  | append e _ => e = element
  | _ => false

/-- What a call does to the texts of its element: a text that is written comes after the others, and
    one that is added goes to the end of the latest, or is the first. -/
def extend (texts : List String) : StageCall → List String
  | write _ text => texts ++ [text]
  | append _ text =>
    match texts.getLast? with
    | some latest => texts.dropLast ++ [latest ++ " " ++ text]
    | none => [text]
  | _ => texts

/-- A text is of one element only. -/
theorem isTextOf_unique {call : StageCall} {element other : String}
    (h : call.isTextOf element = true) (h' : call.isTextOf other = true) : element = other := by
  cases call with
  | write e text => exact (of_decide_eq_true h).symm.trans (of_decide_eq_true h')
  | append e text => exact (of_decide_eq_true h).symm.trans (of_decide_eq_true h')
  | draw => cases h
  | fill => cases h
  | move => cases h

end StageCall

namespace Stage

/-- The captions on an element, in the order of the stage. -/
def captionsOn (s : Stage) (element : String) : List Caption :=
  s.captions.filter fun c => c.element = element

/-- The texts on an element, in the order of the stage. -/
def textsOn (s : Stage) (element : String) : List String :=
  (s.captionsOn element).map Caption.text

variable (s : Stage) (element other text : String)

/-! ## One call -/

theorem captionsOn_write :
    (s.write other text).captionsOn element
      = s.captionsOn element ++ if other = element then [⟨other, text⟩] else [] := by
  rw [captionsOn, write, List.filter_append, captionsOn]
  by_cases hsame : other = element
  · simp [hsame]
  · simp [hsame]

/-- Adding a text starts a caption if the element has none; else it lengthens the last caption of
    the element, behind which there are only captions of other elements. -/
theorem append_cases :
    (s.captionsOn element = [] ∧ s.append element text = s.write element text)
    ∨ ∃ before latest after, s.captions = before ++ ⟨element, latest⟩ :: after
      ∧ (∀ c ∈ after, c.element ≠ element)
      ∧ s.append element text
        = { s with captions := before ++ ⟨element, latest ++ " " ++ text⟩ :: after } := by
  rw [append]
  split
  · next captions hcaptions =>
    obtain ⟨before, ⟨e, latest⟩, after, hcut, hlatest, hafter, rfl⟩ :=
      exists_cut_of_changeLast? hcaptions
    obtain rfl : e = element := by simpa using hlatest
    exact .inr ⟨before, latest, after, hcut, fun c hc => by simpa using hafter c hc, rfl⟩
  · next hnone =>
    refine .inl ⟨?_, rfl⟩
    rw [captionsOn, List.filter_eq_nil_iff]
    intro c hc
    simpa using changeLast?_eq_none_iff.1 hnone c hc

theorem textsOn_append_self :
    (s.append element text).textsOn element
      = StageCall.extend (s.textsOn element) (.append element text) := by
  obtain ⟨hnone, hwrite⟩ | ⟨before, latest, after, hcut, hafter, hlengthened⟩ :=
    s.append_cases element text
  · rw [hwrite, textsOn, captionsOn_write, hnone, if_pos rfl, textsOn, hnone]
    rfl
  · have hrest : after.filter (fun c => c.element = element) = [] := by
      rw [List.filter_eq_nil_iff]
      intro c hc
      simpa using hafter c hc
    simp [textsOn, captionsOn, hlengthened, hcut, hrest, StageCall.extend]

/-- The caption that is lengthened is on the element that the text is added to. -/
theorem captionsOn_append_of_ne (hne : other ≠ element) :
    (s.append other text).captionsOn element = s.captionsOn element := by
  obtain ⟨-, hwrite⟩ | ⟨before, latest, after, hcut, -, hlengthened⟩ := s.append_cases other text
  · rw [hwrite, captionsOn_write, if_neg hne, List.append_nil]
  · simp [captionsOn, hlengthened, hcut, hne]

/-- Colors and steps are no business of the captions. -/
theorem captions_perform_of_drawing {call : StageCall}
    (h : ∀ element, call.isTextOf element = false) : (s.perform call).2.captions = s.captions := by
  cases call with
  | draw shape size color position => rfl
  | fill name color =>
    rw [perform]
    cases hfill : s.fill name color with
    | error e => rfl
    | ok s' =>
      obtain ⟨place, -, -, -, -, rfl⟩ := fill_eq_ok_iff.1 hfill
      rfl
  | move direction =>
    rw [perform]
    cases hmove : s.move direction with
    | error e => rfl
    | ok s' =>
      obtain ⟨steps, place, -, -, rfl⟩ := move_eq_ok_iff.1 hmove
      rfl
  | write e text => simpa [StageCall.isTextOf] using h e
  | append e text => simpa [StageCall.isTextOf] using h e

/-- What one call does to the texts on an element. -/
theorem textsOn_perform (call : StageCall) :
    (s.perform call).2.textsOn element
      = if call.isTextOf element = true then call.extend (s.textsOn element)
        else s.textsOn element := by
  have hdrawing : (∀ e, call.isTextOf e = false) →
      (s.perform call).2.textsOn element
        = if call.isTextOf element = true then call.extend (s.textsOn element)
          else s.textsOn element := by
    intro h
    rw [h element, if_neg Bool.false_ne_true, textsOn, captionsOn,
      s.captions_perform_of_drawing h]
    rfl
  cases call with
  | draw => exact hdrawing fun _ => rfl
  | fill => exact hdrawing fun _ => rfl
  | move => exact hdrawing fun _ => rfl
  | write other text =>
    rw [perform, textsOn, captionsOn_write]
    by_cases hsame : other = element
    · simp [hsame, StageCall.isTextOf, StageCall.extend, textsOn]
    · simp [hsame, StageCall.isTextOf, textsOn]
  | append other text =>
    rw [perform]
    by_cases hsame : other = element
    · subst hsame
      rw [textsOn_append_self, StageCall.isTextOf, decide_eq_true rfl, if_pos rfl]
    · rw [textsOn, captionsOn_append_of_ne s element other text hsame]
      simp [StageCall.isTextOf, hsame, textsOn]

/-! ## Histories -/

/-- The texts on an element after some calls: those about it, one after the other. -/
theorem textsOn_after (calls : List StageCall) :
    (s.after calls).textsOn element
      = (calls.filter (StageCall.isTextOf element)).foldl StageCall.extend (s.textsOn element) := by
  induction calls generalizing s with
  | nil => rfl
  | cons call calls ih =>
    rw [after_cons, ih, textsOn_perform]
    cases hcall : call.isTextOf element with
    | true => rw [if_pos rfl, List.filter_cons_of_pos hcall, List.foldl_cons]
    | false => rw [if_neg Bool.false_ne_true, List.filter_cons_of_neg (by simp [hcall])]

/-- Calls about the texts of one element put up captions on this element only. -/
theorem element_of_mem_captions_after {calls : List StageCall} {element : String}
    (h : ∀ call ∈ calls, call.isTextOf element = true) :
    ∀ c ∈ (empty.after calls).captions, c.element = element := by
  intro c hc
  by_contra hne
  have hnone : calls.filter (StageCall.isTextOf c.element) = [] := by
    rw [List.filter_eq_nil_iff]
    intro call hcall hother
    exact hne (StageCall.isTextOf_unique hother (h call hcall))
  have htexts := textsOn_after empty c.element calls
  rw [hnone] at htexts
  have hmem : c ∈ (empty.after calls).captionsOn c.element := by simp [captionsOn, hc]
  have htext := List.mem_map_of_mem (f := Caption.text) hmem
  rw [← textsOn, htexts] at htext
  exact absurd htext List.not_mem_nil

/-- **The texts of an element are its own.** Whatever calls are made on an empty stage, of which
    those that are refused change nothing, the texts on an element are the same as after the calls
    alone that write a text on this element or add one to it, and these calls put up nothing else.
    They are told by going through these calls in order: a text that is written comes after the
    others, and one that is added goes to the end of the latest, with a blank between them, or is
    the first. A further call does the same to the texts of its element, and nothing to those of
    any other. -/
theorem texts_history (calls : List StageCall) (element : String) :
    let own := calls.filter (StageCall.isTextOf element)
    (empty.after calls).textsOn element = (empty.after own).textsOn element
    ∧ (empty.after calls).textsOn element = own.foldl StageCall.extend []
    ∧ (∀ c ∈ (empty.after own).captions, c.element = element)
    ∧ ∀ call : StageCall, ((empty.after calls).perform call).2.textsOn element
        = if call.isTextOf element = true then call.extend ((empty.after calls).textsOn element)
          else (empty.after calls).textsOn element := by
  intro own
  have hown : ∀ call ∈ own, call.isTextOf element = true := fun call hcall =>
    (List.mem_filter.1 hcall).2
  have hall : (empty.after calls).textsOn element = own.foldl StageCall.extend [] :=
    textsOn_after empty element calls
  have halone : (empty.after own).textsOn element = own.foldl StageCall.extend [] := by
    rw [textsOn_after, List.filter_eq_self.2 hown]
    rfl
  exact ⟨hall.trans halone.symm, hall, element_of_mem_captions_after hown,
    textsOn_perform (empty.after calls) element⟩

/-- Two elements take turns, and a drawing comes between them. -/
example :
    let s := empty.after [.append "page" "Hello", .write "banner" "Title",
      .draw "page" none none none, .append "page" "there", .write "page" "Bye",
      .append "banner" "!"]
    s.textsOn "page" = ["Hello there", "Bye"] ∧ s.textsOn "banner" = ["Title !"] := by decide

end Stage

end CueScript
