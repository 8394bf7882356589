import CueScript.Proofs.Literal.Parts

set_option autoImplicit false

/-! # The grammar of literals

A literal is quoted text, a color after a number sign, a dimension, or an assignment: the name of a
value kind, an equals sign, and a value of the kind. Reading tries the forms in this order and stops
at the first that fits the beginning of a token. The order makes no difference: the first character
tells the form (`LiteralForm.ofHead`), so a token is a literal exactly if it has one of the four
forms, and it has at most one, with one value (`literal_forms`). -/

namespace CueScript

variable {α : Type}

/-- The forms of a literal. -/
inductive LiteralForm where
  | quoted
  | color
  | dimension
  | assignment
deriving DecidableEq, Repr

/-- The form that a first character allows. -/
def LiteralForm.ofHead (c : Char) : LiteralForm :=
  if c = '"' then quoted else if c = '#' then color else if c.isDigit then dimension else assignment

theorem LiteralForm.ofHead_of_isDigit {c : Char} (hc : c.isDigit = true) :
    ofHead c = dimension := by
  unfold ofHead
  rw [if_neg, if_neg, if_pos hc]
  · rintro rfl
    cases hc
  · rintro rfl
    cases hc

namespace Registry

variable {r : Registry α} {kind : ValueKind} {raw cs : List Char} {v : Value}

/-- The text after the equals sign gives this value of the kind. Text of a string may stand in one
    pair of quotes. A dimension is spelled as one, and so is a color that begins with a number sign.
    Any other text is a word of the kind, under its id if it is registered with that kind. -/
inductive Assigns (r : Registry α) : ValueKind → List Char → Value → Prop
  | quoted (inner : List Char) :
      Assigns r .string ('"' :: (inner ++ ['"'])) (.text (String.ofList inner))
  | text {raw : List Char} (bare : ∀ inner, raw ≠ '"' :: (inner ++ ['"'])) :
      Assigns r .string raw (.text (String.ofList raw))
  | dimension {raw : List Char} {d : Dimension} (spelled : d.Spelled raw) :
      Assigns r .dimension raw (.dimension d)
  | color {digits : List Char} {c : Color} (spelled : c.Spelled digits) :
      Assigns r .color ('#' :: digits) (.color c)
  | word {kind : ValueKind} {raw : List Char} {id : String}
      (looksUp : kind.looksUp (String.ofList raw) = true)
      (registered : r.resolve? (String.ofList raw) = some ⟨id, .value kind⟩) :
      Assigns r kind raw (.word (.value kind) id)
  | newWord {kind : ValueKind} {raw : List Char}
      (looksUp : kind.looksUp (String.ofList raw) = true)
      (unregistered : ∀ id, r.resolve? (String.ofList raw) ≠ some ⟨id, .value kind⟩) :
      Assigns r kind raw (.word (.value kind) (String.ofList raw))

/-- The text has the form, and stands for the value. The name of a kind may have blanks around it
    and may be in capitals; what follows the first equals sign may not be empty. -/
inductive Denotes (r : Registry α) : LiteralForm → List Char → Value → Prop
  | quoted (inner : List Char) :
      Denotes r .quoted ('"' :: (inner ++ ['"'])) (.text (String.ofList inner))
  | color {digits : List Char} {c : Color} (spelled : c.Spelled digits) :
      Denotes r .color ('#' :: digits) (.color c)
  | dimension {cs : List Char} {d : Dimension} (spelled : d.Spelled cs) :
      Denotes r .dimension cs (.dimension d)
  | assignment {name raw : List Char} {kind : ValueKind} {v : Value} (first : '=' ∉ name)
      (named : Text.lowercaseAscii (Text.trim (String.ofList name)) = (Kind.value kind).slug)
      (nonempty : raw ≠ []) (assigns : r.Assigns kind raw v) :
      Denotes r .assignment (name ++ '=' :: raw) v

end Registry

/-! ## Names of kinds -/

/-- A text names a value kind exactly if, trimmed and in small letters, it is the name. -/
theorem Kind.bind_named?_eq_some_iff {name : String} {kind : ValueKind} :
    (named? name).bind valueKind? = some kind
      ↔ Text.lowercaseAscii (Text.trim name) = (value kind).slug := by
  constructor
  · intro h
    obtain ⟨k, hk, hvalue⟩ := Option.bind_eq_some_iff.1 h
    obtain rfl : k = value kind := by
      cases k with
      | value k' => rw [Option.some.inj hvalue]
      | _ => cases hvalue
    simp only [named?] at hk
    split at hk
    · cases hk
    · have hslug := List.find?_some hk
      rw [decide_eq_true_eq] at hslug
      exact hslug.symm
  · intro h
    rw [named?, h]
    cases kind <;> rfl

/-- A digit is no blank, and has no other case. -/
theorem Text.isBlank_of_isDigit {c : Char} (hc : c.isDigit = true) :
    isBlank c = false ∧ c.toLower = c := by
  have hall : ∀ n < 0x3a, (Char.ofNat n).isDigit = true →
      isBlank (Char.ofNat n) = false ∧ (Char.ofNat n).toLower = Char.ofNat n := by decide
  have hlt : c.toNat ≤ '9'.toNat := by
    simp only [Char.isDigit, Bool.and_eq_true, decide_eq_true_eq] at hc
    exact UInt32.le_iff_toNat_le.1 hc.2
  have h := hall c.toNat (Nat.lt_succ_of_le hlt)
  rw [Char.ofNat_toNat] at h
  exact h hc

/-- What names a value kind does not begin like another form. -/
theorem ValueKind.ofHead_eq_assignment {c : Char} {rest : List Char} {kind : ValueKind}
    (h : Text.lowercaseAscii (Text.trim (String.ofList (c :: rest))) = (Kind.value kind).slug) :
    LiteralForm.ofHead c = .assignment := by
  obtain ⟨d, slug, hslug, hquote, hsign, hdigit⟩ := kind.exists_head_slug
  -- A character that is kept as it is begins the name.
  have hhead : Text.isBlank c = false → c.toLower = c → c = d := by
    intro hblank hlower
    have htrim := Text.trimBy_append_cons hblank [] rest
    rw [List.nil_append, List.dropWhile_nil, List.nil_append] at htrim
    have hlist := congrArg String.toList h
    rw [Text.lowercaseAscii, Text.trim, String.toList_ofList, String.toList_ofList,
      String.toList_ofList, htrim, List.map_cons, hslug, hlower] at hlist
    exact (List.cons.inj hlist).1
  unfold LiteralForm.ofHead
  rw [if_neg, if_neg, if_neg]
  · intro hc
    obtain ⟨hblank, hlower⟩ := Text.isBlank_of_isDigit hc
    rw [hhead hblank hlower, hdigit] at hc
    cases hc
  · rintro rfl
    exact hsign (hhead (by decide) (by decide)).symm
  · rintro rfl
    exact hquote (hhead (by decide) (by decide)).symm

namespace Registry

variable {r : Registry α} {kind : ValueKind} {raw cs : List Char} {v : Value} {form : LiteralForm}

/-! ## Assignments -/

theorem canonical_eq_of_resolve? {id word : String}
    (h : r.resolve? word = some ⟨id, .value kind⟩) : r.canonical (.value kind) word = id := by
  simp [canonical, h]

theorem canonical_eq_self {word : String} (h : ∀ id, r.resolve? word ≠ some ⟨id, .value kind⟩) :
    r.canonical (.value kind) word = word := by
  unfold canonical
  split
  · next e he =>
    refine if_neg fun hkind => h e.id ?_
    rw [he, ← hkind]
  · rfl

/-- A word of a kind that looks it up goes under its id, or stays as it is. -/
theorem assigns_canonical (r : Registry α) (hlooks : kind.looksUp (String.ofList raw) = true) :
    r.Assigns kind raw
      (.word (.value kind) (r.canonical (.value kind) (String.ofList raw))) := by
  by_cases h : ∃ id, r.resolve? (String.ofList raw) = some ⟨id, .value kind⟩
  · obtain ⟨id, hid⟩ := h
    rw [canonical_eq_of_resolve? hid]
    exact .word hlooks hid
  · rw [not_exists] at h
    rw [canonical_eq_self h]
    exact .newWord hlooks h

/-- Such a word is read by looking it up. -/
theorem typed?_of_looksUp (r : Registry α) (hlooks : kind.looksUp (String.ofList raw) = true) :
    r.typed? kind raw
      = some (.word (.value kind) (r.canonical (.value kind) (String.ofList raw))) := by
  cases kind with
  | string => cases hlooks
  | dimension => cases hlooks
  | color =>
    have hhead : raw.head? ≠ some '#' := by
      simpa [ValueKind.looksUp] using hlooks
    exact if_neg hhead
  | shape => rfl
  | position => rfl
  | element => rfl
  | direction => rfl

/-- Exactly the values that a text may be assigned are read behind the name of a kind. -/
theorem typed?_eq_some_iff : r.typed? kind raw = some v ↔ r.Assigns kind raw v := by
  constructor
  · intro h
    by_cases hlooks : kind.looksUp (String.ofList raw) = true
    · rw [typed?_of_looksUp r hlooks] at h
      exact Option.some.inj h ▸ assigns_canonical r hlooks
    · cases kind with
      | string =>
        obtain rfl := Option.some.inj h
        cases hraw : unquote? raw with
        | some inner =>
          rw [unquote?_eq_some_iff.1 hraw]
          exact .quoted inner
        | none =>
          refine .text fun inner heq => ?_
          rw [unquote?_eq_some_iff.2 heq] at hraw
          cases hraw
      | dimension =>
        obtain ⟨d, hd, rfl⟩ := Option.map_eq_some_iff.1 h
        exact .dimension (Dimension.read?_eq_some_iff.1 hd)
      | color =>
        have hhead : raw.head? = some '#' := by
          simpa [ValueKind.looksUp] using hlooks
        rw [typed?, if_pos hhead] at h
        obtain ⟨c, hc, rfl⟩ := Option.map_eq_some_iff.1 h
        obtain ⟨digits, rfl, hdigits⟩ := Color.read?_eq_some_iff.1 hc
        exact .color hdigits
      | shape => exact absurd rfl hlooks
      | position => exact absurd rfl hlooks
      | element => exact absurd rfl hlooks
      | direction => exact absurd rfl hlooks
  · intro h
    cases h with
    | quoted inner => simp only [typed?, unquote?_eq_some_iff.2 rfl, Option.getD_some]
    | text bare =>
      have hnone : unquote? raw = none := by
        rw [Option.eq_none_iff_forall_ne_some]
        exact fun inner hinner => bare inner (unquote?_eq_some_iff.1 hinner)
      simp only [typed?, hnone, Option.getD_none]
    | dimension spelled =>
      simp only [typed?, Value.dimension?, Dimension.read?_eq_some_iff.2 spelled, Option.map_some]
    | color spelled =>
      have hread := Color.read?_eq_some_iff.2 ⟨_, rfl, spelled⟩
      simp only [typed?, List.head?_cons, if_pos, Value.color?, hread, Option.map_some]
    | word looksUp registered =>
      rw [typed?_of_looksUp r looksUp, canonical_eq_of_resolve? registered]
    | newWord looksUp unregistered =>
      rw [typed?_of_looksUp r looksUp, canonical_eq_self unregistered]

theorem assigned?_eq_some_iff : r.assigned? cs = some v ↔ r.Denotes .assignment cs v := by
  constructor
  · intro h
    obtain ⟨⟨name, raw⟩, hcut, hnamed⟩ := Option.bind_eq_some_iff.1 h
    obtain ⟨kind, hkind, htyped⟩ := Option.bind_eq_some_iff.1 hnamed
    obtain ⟨rfl, hfirst⟩ := Text.cutAtFirst_eq_some_iff.1 hcut
    split at htyped
    · cases htyped
    · next hraw =>
      exact .assignment hfirst (Kind.bind_named?_eq_some_iff.1 hkind) (by simpa using hraw)
        (typed?_eq_some_iff.1 htyped)
  · rintro ⟨⟩
    next name raw kind hfirst hnamed hraw hassigns =>
      have hcut : Text.cutAtFirst '=' (name ++ '=' :: raw) = some (name, raw) :=
        Text.cutAtFirst_eq_some_iff.2 ⟨rfl, hfirst⟩
      have hkind := Kind.bind_named?_eq_some_iff.2 hnamed
      simp only [assigned?, hcut, Option.bind_eq_bind, Option.bind_some, hkind]
      rw [if_neg (by simpa using hraw), typed?_eq_some_iff.2 hassigns]

/-! ## Literals -/

/-- The first character of a literal tells its form. -/
theorem Denotes.exists_head (h : r.Denotes form cs v) :
    ∃ c rest, cs = c :: rest ∧ form = LiteralForm.ofHead c := by
  cases h with
  | quoted inner => exact ⟨_, _, rfl, rfl⟩
  | color spelled => exact ⟨_, _, rfl, rfl⟩
  | dimension spelled =>
    obtain ⟨hdigit, -⟩ := spelled
    exact ⟨_, _, rfl, (LiteralForm.ofHead_of_isDigit hdigit).symm⟩
  | assignment first named nonempty assigns =>
    next name raw kind =>
    cases name with
    | nil =>
      have hslug : (Kind.value kind).slug ≠ "" := by cases kind <;> decide
      exact absurd named.symm hslug
    | cons c name => exact ⟨c, _, rfl, (ValueKind.ofHead_eq_assignment named).symm⟩

/-- A token that begins like neither quoted text nor a color is a dimension or an assignment. -/
theorem literal?_of_head {token : String} {c : Char} {rest : List Char}
    (htoken : token.toList = c :: rest) (hquote : c ≠ '"') (hsign : c ≠ '#') :
    r.literal? token = (Value.dimension? token.toList).or (r.assigned? token.toList) := by
  have hhead : token.toList.head? ≠ some '#' := by simpa [htoken] using hsign
  simp only [literal?, htoken, unquote?_eq_none hquote]
  rw [← htoken, if_neg hhead]

/-- What has a form is read as what it denotes. -/
theorem Denotes.literal?_eq {token : String} (h : r.Denotes form token.toList v) :
    r.literal? token = some v := by
  obtain ⟨c, rest, htoken, hform⟩ := h.exists_head
  generalize hcs : token.toList = cs at h
  cases h with
  | quoted inner => simp only [literal?, hcs, unquote?_eq_some_iff.2 rfl]
  | color spelled =>
    have hread := Color.read?_eq_some_iff.2 ⟨_, rfl, spelled⟩
    simp only [literal?, hcs, unquote?_eq_none (show '#' ≠ '"' by decide), List.head?_cons, if_pos,
      Value.color?, hread, Option.map_some]
  | dimension spelled =>
    have hquote : c ≠ '"' := by rintro rfl; cases hform
    have hsign : c ≠ '#' := by rintro rfl; cases hform
    rw [literal?_of_head htoken hquote hsign, hcs, Value.dimension?,
      Dimension.read?_eq_some_iff.2 spelled]
    rfl
  | assignment first named nonempty assigns =>
    have hquote : c ≠ '"' := by rintro rfl; cases hform
    have hsign : c ≠ '#' := by rintro rfl; cases hform
    have hdigit : c.isDigit = false := by
      rw [Bool.eq_false_iff]
      intro hc
      rw [LiteralForm.ofHead_of_isDigit hc] at hform
      cases hform
    have hnone : Dimension.read? token.toList = none := by
      rw [htoken, Dimension.read?_eq_none hdigit]
    rw [literal?_of_head htoken hquote hsign, Value.dimension?, hnone, hcs,
      assigned?_eq_some_iff.2 (.assignment first named nonempty assigns)]
    rfl

/-- A token is a literal exactly if it has one of the forms. -/
theorem literal?_eq_some_iff {token : String} :
    r.literal? token = some v ↔ ∃ form, r.Denotes form token.toList v := by
  constructor
  · intro h
    simp only [literal?] at h
    split at h
    · next inner hinner =>
      rw [unquote?_eq_some_iff.1 hinner, ← Option.some.inj h]
      exact ⟨.quoted, .quoted inner⟩
    · split at h
      · obtain ⟨c, hc, rfl⟩ := Option.map_eq_some_iff.1 h
        obtain ⟨digits, hdigits, hspelled⟩ := Color.read?_eq_some_iff.1 hc
        rw [hdigits]
        exact ⟨.color, .color hspelled⟩
      · rcases Option.or_eq_some_iff.1 h with hdimension | ⟨-, hassigned⟩
        · obtain ⟨d, hd, rfl⟩ := Option.map_eq_some_iff.1 hdimension
          exact ⟨.dimension, .dimension (Dimension.read?_eq_some_iff.1 hd)⟩
        · exact ⟨.assignment, assigned?_eq_some_iff.1 hassigned⟩
  · rintro ⟨form, h⟩
    exact h.literal?_eq

/-- **A token is a literal exactly if it has one of the four forms**, and then it stands for the
    value that the form names. No token has two forms, or stands for two values. -/
theorem literal_forms (r : Registry α) (token : String) :
    (∀ v, r.literal? token = some v ↔ ∃ form, r.Denotes form token.toList v)
      ∧ ∀ form form' v v', r.Denotes form token.toList v → r.Denotes form' token.toList v' →
        form = form' ∧ v = v' := by
  refine ⟨fun v => literal?_eq_some_iff, fun form form' v v' h h' => ⟨?_, ?_⟩⟩
  · obtain ⟨c, rest, hcs, rfl⟩ := h.exists_head
    obtain ⟨c', rest', hcs', rfl⟩ := h'.exists_head
    rw [(List.cons.inj (hcs.symm.trans hcs')).1]
  · exact Option.some.inj (h.literal?_eq.symm.trans h'.literal?_eq)

/-- A word behind its kind, which is spelled with a blank and a capital, is nothing else. -/
theorem literal_forms_shape_round :
    let r : Registry Unit :=
      (history [.draft { kind := some (.value .shape), words := ["circle", "round"] }]).2
    r.literal? " Shape=round" = some (.word (.value .shape) "circle")
      ∧ ∀ form v, r.Denotes form " Shape=round".toList v →
        form = .assignment ∧ v = .word (.value .shape) "circle" := by
  intro r
  have hround : r.Denotes .assignment (" Shape".toList ++ '=' :: "round".toList)
      (.word (.value .shape) "circle") :=
    .assignment (by decide) (by decide) (by decide) (.word rfl rfl)
  obtain ⟨hread, honly⟩ := literal_forms r " Shape=round"
  exact ⟨(hread _).2 ⟨_, hround⟩, fun form v h => honly form .assignment v _ h hround⟩

end Registry

end CueScript
