set_option autoImplicit false

/-! # Cutting texts

Taking a given beginning or end off a list of characters, and cutting a list in two at one
character. Each function has one lemma that says exactly when it succeeds and what it returns. -/

namespace CueScript.Text

/-- What follows `start`, if the list begins with it. -/
def dropPrefix? : List Char → List Char → Option (List Char)
  | [], cs => some cs
  | _ :: _, [] => none
  | p :: ps, c :: cs => if p = c then dropPrefix? ps cs else none

theorem dropPrefix?_eq_some_iff {start cs rest : List Char} :
    dropPrefix? start cs = some rest ↔ cs = start ++ rest := by
  induction start generalizing cs with
  | nil => simp [dropPrefix?]
  | cons p ps ih =>
    cases cs with
    | nil => simp [dropPrefix?]
    | cons c cs =>
      by_cases h : p = c
      · simp [dropPrefix?, h, ih]
      · simp [dropPrefix?, h, eq_comm]

/-- A beginning that does not hold `c` is found before it, or not at all. -/
theorem dropPrefix?_append_cons {start : List Char} {c : Char} (hc : c ∉ start)
    (cs rest : List Char) :
    dropPrefix? start (cs ++ c :: rest) = (dropPrefix? start cs).map (· ++ c :: rest) := by
  induction start generalizing cs with
  | nil => rfl
  | cons p ps ih =>
    rw [List.mem_cons, not_or] at hc
    cases cs with
    | nil => simp [dropPrefix?, Ne.symm hc.1]
    | cons d cs =>
      rw [List.cons_append, dropPrefix?, dropPrefix?, ih hc.2]
      split <;> rfl

/-- What comes before `ending`, if the list ends with it. -/
def dropSuffix? (ending cs : List Char) : Option (List Char) :=
  (dropPrefix? ending.reverse cs.reverse).map List.reverse

theorem dropSuffix?_eq_some_iff {ending cs rest : List Char} :
    dropSuffix? ending cs = some rest ↔ cs = rest ++ ending := by
  simp only [dropSuffix?, Option.map_eq_some_iff, dropPrefix?_eq_some_iff]
  constructor
  · rintro ⟨a, h, rfl⟩
    simpa using congrArg List.reverse h
  · rintro rfl
    exact ⟨rest.reverse, by simp⟩

/-- The list cut at the first `mark`, which is left out. -/
def cutAtFirst (mark : Char) : List Char → Option (List Char × List Char)
  | [] => none
  | c :: cs => if c = mark then some ([], cs) else (cutAtFirst mark cs).map fun p => (c :: p.1, p.2)

theorem cutAtFirst_eq_some_iff {mark : Char} {cs left right : List Char} :
    cutAtFirst mark cs = some (left, right) ↔ cs = left ++ mark :: right ∧ mark ∉ left := by
  induction cs generalizing left with
  | nil => simp [cutAtFirst]
  | cons c cs ih =>
    by_cases h : c = mark
    · subst h
      cases left <;> simp_all [cutAtFirst, eq_comm]
    · cases left with
      | nil => simp [cutAtFirst, h]
      | cons d left =>
        simp only [cutAtFirst, h, if_false, Option.map_eq_some_iff, Prod.mk.injEq, Prod.exists]
        constructor
        · rintro ⟨a, b, hab, hd, rfl⟩
          obtain ⟨rfl, rfl⟩ := List.cons.inj hd
          obtain ⟨rfl, hm⟩ := ih.1 hab
          simp [hm, Ne.symm h]
        · rintro ⟨hd, hm⟩
          obtain ⟨rfl, rfl⟩ := List.cons.inj hd
          exact ⟨left, right, ih.2 ⟨rfl, fun hin => hm (List.mem_cons_of_mem _ hin)⟩, rfl, rfl⟩

/-- The list cut at the last `mark`, which is left out. -/
def cutAtLast (mark : Char) (cs : List Char) : Option (List Char × List Char) :=
  (cutAtFirst mark cs.reverse).map fun p => (p.2.reverse, p.1.reverse)

theorem cutAtLast_eq_some_iff {mark : Char} {cs left right : List Char} :
    cutAtLast mark cs = some (left, right) ↔ cs = left ++ mark :: right ∧ mark ∉ right := by
  simp only [cutAtLast, Option.map_eq_some_iff, Prod.exists, Prod.mk.injEq]
  constructor
  · rintro ⟨a, b, hab, rfl, rfl⟩
    obtain ⟨h, hm⟩ := cutAtFirst_eq_some_iff.1 hab
    exact ⟨by simpa using congrArg List.reverse h, by simpa using hm⟩
  · rintro ⟨rfl, hm⟩
    exact ⟨right.reverse, left.reverse,
      cutAtFirst_eq_some_iff.2 ⟨by simp, by simpa using hm⟩, by simp, by simp⟩

end CueScript.Text
