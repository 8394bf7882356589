import CueScript.Proofs.Command.Alike

set_option autoImplicit false

/-! # Words with their kind in front

A registered word may be given with its kind, as in `shape=circle`. What stands behind the equals
sign is looked up in the index, and the token means what the word means. Three rules do not look it
up: behind `string=` stands text as it is, behind `dimension=` only an amount with a unit, and behind
`color=` a number sign begins a color. A registered word that falls under them means something else
with its kind in front, or nothing. `tagged_iff` says which words these are, and that each of the
others may be replaced by its tagged form anywhere in a command. -/

namespace CueScript

variable {α : Type}

/-! ## The form of a tagged word -/

namespace ValueKind

/-- A word with its kind in front. -/
def tagged (kind : ValueKind) (word : String) : String := (Kind.value kind).slug ++ "=" ++ word

/-- Is the word looked up if it stands behind this kind? -/
def looksUp : ValueKind → String → Bool
  | string, _ => false
  | dimension, _ => false
  | color, word => word.toList.head? ≠ some '#'
  | _, _ => true

theorem toList_tagged (kind : ValueKind) (word : String) :
    (kind.tagged word).toList = (Kind.value kind).slug.toList ++ '=' :: word.toList := by
  simp [tagged]

/-- No other form of literal begins like the name of a kind. -/
theorem exists_head_slug (kind : ValueKind) :
    ∃ c rest, (Kind.value kind).slug.toList = c :: rest
      ∧ c ≠ '"' ∧ c ≠ '#' ∧ c.isDigit = false := by
  cases kind <;> exact ⟨_, _, rfl, by decide, by decide, by decide⟩

theorem named?_slug (kind : ValueKind) :
    Kind.named? (Kind.value kind).slug = some (.value kind) := by
  cases kind <;> rfl

theorem cutAtFirst_tagged (kind : ValueKind) (word : String) :
    Text.cutAtFirst '=' (kind.tagged word).toList
      = some ((Kind.value kind).slug.toList, word.toList) := by
  have hmark : '=' ∉ (Kind.value kind).slug.toList := by cases kind <;> decide
  exact Text.cutAtFirst_eq_some_iff.2 ⟨toList_tagged kind word, hmark⟩

end ValueKind

/-- A dimension begins with a digit. -/
theorem Dimension.read?_eq_none {c : Char} {cs : List Char} (hc : c.isDigit = false) :
    Dimension.read? (c :: cs) = none := by
  simp only [read?, Option.bind_eq_bind, Option.bind_eq_none_iff]
  rintro ⟨number, unit⟩ hfind
  obtain ⟨u, -, hu⟩ := List.exists_of_findSome?_eq_some hfind
  obtain ⟨number', hdrop, heq⟩ := Option.map_eq_some_iff.1 hu
  obtain ⟨rfl, -⟩ := Prod.mk.inj heq
  have hcs := Text.dropSuffix?_eq_some_iff.1 hdrop
  cases number' with
  | nil => rfl
  | cons d number' =>
    obtain ⟨rfl, -⟩ := List.cons.inj hcs
    simp [hc]

/-- Quoted text begins with a quote. -/
theorem unquote?_eq_none {c : Char} {cs : List Char} (hc : c ≠ '"') : unquote? (c :: cs) = none := by
  unfold unquote?
  split
  · next heq => exact absurd (List.cons.inj heq).1 hc
  · rfl

namespace Registry

variable {r : Registry α} {kind : ValueKind} {word id : String}

/-! ## Its meaning -/

/-- A tagged word is read by the rule of its kind. -/
theorem literal?_tagged (r : Registry α) (kind : ValueKind) (hword : word.toList ≠ []) :
    r.literal? (kind.tagged word) = r.typed? kind word.toList := by
  have hassigned : r.assigned? (kind.tagged word).toList = r.typed? kind word.toList := by
    simp [assigned?, kind.cutAtFirst_tagged, kind.named?_slug, Kind.valueKind?, hword]
  obtain ⟨c, rest, hslug, hquote, hsign, hdigit⟩ := kind.exists_head_slug
  have hlist : (kind.tagged word).toList = c :: (rest ++ '=' :: word.toList) := by
    rw [kind.toList_tagged, hslug, List.cons_append]
  rw [hlist] at hassigned
  simp [literal?, hlist, unquote?_eq_none hquote, hsign, Value.dimension?,
    Dimension.read?_eq_none hdigit, hassigned]

/-- Of a registered word, the rule of its kind makes that word if it looks it up, and only then. -/
theorem typed?_eq_word_iff (hword : r.resolve? word = some ⟨id, .value kind⟩) :
    r.typed? kind word.toList = some (.word (.value kind) id) ↔ kind.looksUp word = true := by
  have hcanonical : r.canonical (.value kind) word = id := by simp [canonical, hword]
  cases kind with
  | string => simp [typed?, ValueKind.looksUp]
  | dimension => simp [typed?, ValueKind.looksUp, Value.dimension?]
  | color =>
    by_cases hsign : word.toList.head? = some '#'
    · simp [typed?, ValueKind.looksUp, hsign, Value.color?]
    · simp [typed?, ValueKind.looksUp, hsign, hcanonical]
  | shape => simp [typed?, ValueKind.looksUp, hcanonical]
  | position => simp [typed?, ValueKind.looksUp, hcanonical]
  | element => simp [typed?, ValueKind.looksUp, hcanonical]
  | direction => simp [typed?, ValueKind.looksUp, hcanonical]

/-- A registered word of a value kind means itself, under its id. -/
theorem Holds.meaning_word {ds : List (Definition α)} (h : Holds r ds)
    (hword : r.resolve? word = some ⟨id, .value kind⟩) :
    r.meaning word = .ok (some (.value (.word (.value kind) id))) := by
  obtain ⟨d, hd, hmem, he⟩ := h.resolve?_eq_some_iff.1 hword
  obtain ⟨rfl, hkind⟩ := Entry.mk.inj he
  rw [h.meaning_of_mem_words hd hmem, ← hkind]
  simp [Kind.isValue, Kind.valueKind?]

/-- **A tagged word means the word where its kind looks it up, and nowhere else.** Take a registered
    word of a value kind, whatever was registered and refused before, such that the word with its
    kind in front is not registered itself. That token is read by the rule of the kind; it means
    what the word means exactly if the rule looks the word up; and then it may stand for the word
    anywhere in a command, which compiles to the same chain with the same skipped words, or fails
    with the same error. -/
theorem tagged_iff (calls : List (Registration α)) (kind : ValueKind) (word id : String)
    (hword : (history calls).2.resolve? word = some ⟨id, .value kind⟩)
    (hfree : (history calls).2.resolve? (kind.tagged word) = none) :
    let r := (history calls).2
    r.meaning word = .ok (some (.value (.word (.value kind) id)))
      ∧ r.meaning (kind.tagged word) = .ok ((r.typed? kind word.toList).map .value)
      ∧ (r.meaning (kind.tagged word) = r.meaning word ↔ kind.looksUp word = true)
      ∧ (kind.looksUp word = true → ∀ tokens tokens',
        List.Forall₂ (fun token token' => token' = token ∨ token = word ∧ token' = kind.tagged word)
          tokens tokens' →
        r.compile tokens' = r.compile tokens ∧ r.fillers tokens' = r.fillers tokens) := by
  intro r
  have hmeaning : r.meaning word = .ok (some (.value (.word (.value kind) id))) :=
    (holds_history calls).meaning_word hword
  have hne : word.toList ≠ [] := by
    intro hnil
    simpa [Draft.wordFault?, hnil, Text.allBlank] using wordFault?_of_resolve? hword
  have htagged : r.meaning (kind.tagged word) = .ok ((r.typed? kind word.toList).map .value) := by
    rw [← r.literal?_tagged kind hne, meaning, hfree]
  have htyped : r.typed? kind word.toList = some (.word (.value kind) id)
      ↔ kind.looksUp word = true := typed?_eq_word_iff hword
  have hiff : r.meaning (kind.tagged word) = r.meaning word ↔ kind.looksUp word = true := by
    rw [← htyped, htagged, hmeaning]
    simp
  refine ⟨hmeaning, htagged, hiff, fun hlooks tokens tokens' hreplaced => ?_⟩
  have halike : List.Forall₂ (Alike r r) tokens tokens' := by
    refine hreplaced.imp fun token token' h => ?_
    rcases h with rfl | ⟨rfl, rfl⟩
    · exact ⟨rfl, fun _ => rfl⟩
    · exact ⟨hiff.2 hlooks, fun hfiller => by simp [isFiller, hmeaning] at hfiller⟩
  exact ⟨compile_congr halike, fillers_congr halike⟩

/-- An alias of a shape may be given with its kind, twice in a command. -/
theorem tagged_iff_shape_round :
    let calls : List (Registration Unit) :=
      [.draft { kind := some .function, words := ["join"],
                required := some [.value .shape, .value .shape], handler := some ⟨2, ()⟩ },
       .draft { kind := some (.value .shape), words := ["circle", "round"] }]
    let r := (history calls).2
    r.resolve? "round" = some ⟨"circle", .value .shape⟩
      ∧ r.resolve? (ValueKind.shape.tagged "round") = none
      ∧ r.meaning "shape=round" = .ok (some (.value (.word (.value .shape) "circle")))
      ∧ r.compile ["join", "shape=round", "a", "shape=round"]
        = r.compile ["join", "round", "a", "round"] := by
  intro calls r
  have hword : r.resolve? "round" = some ⟨"circle", .value .shape⟩ := rfl
  have hfree : r.resolve? (ValueKind.shape.tagged "round") = none := rfl
  obtain ⟨hmeaning, -, hiff, hreplace⟩ := tagged_iff calls .shape "round" "circle" hword hfree
  refine ⟨hword, hfree, (hiff.2 rfl).trans hmeaning, (hreplace rfl _ _ ?_).1⟩
  exact .cons (.inl rfl) (.cons (.inr ⟨rfl, rfl⟩) (.cons (.inl rfl) (.cons (.inr ⟨rfl, rfl⟩) .nil)))

/-- A dimension, a text and a color that are registered words, and are lost or are something else
    behind their kinds. -/
theorem tagged_word_lost :
    let calls : List (Registration Unit) :=
      [.draft { kind := some .function, words := ["grow"], required := some [.value .dimension],
                handler := some ⟨1, ()⟩ },
       .draft { kind := some (.value .dimension), words := ["big", "large"] },
       .draft { kind := some (.value .string), words := ["hello", "hi"] },
       .draft { kind := some (.value .color), words := ["crimson", "#f00", "#brand"] }]
    let r := (history calls).2
    (r.resolve? "large" = some ⟨"big", .value .dimension⟩
        ∧ r.resolve? "dimension=large" = none
        ∧ r.meaning "large" = .ok (some (.value (.word (.value .dimension) "big")))
        ∧ r.meaning "dimension=large" = .ok none
        ∧ (r.compile ["grow", "large"]).result.toOption.isSome
        ∧ (r.compile ["grow", "dimension=large"]).result = .error (.incomplete "grow" .dimension))
      ∧ (r.resolve? "hi" = some ⟨"hello", .value .string⟩
        ∧ r.resolve? "string=hi" = none
        ∧ r.meaning "hi" = .ok (some (.value (.word (.value .string) "hello")))
        ∧ r.meaning "string=hi" = .ok (some (.value (.text "hi"))))
      ∧ (r.resolve? "#f00" = some ⟨"crimson", .value .color⟩
        ∧ r.resolve? "color=#f00" = none
        ∧ r.meaning "#f00" = .ok (some (.value (.word (.value .color) "crimson")))
        ∧ r.meaning "color=#f00" = .ok (some (.value (.color ⟨255, 0, 0⟩)))
        ∧ r.meaning "#brand" = .ok (some (.value (.word (.value .color) "crimson")))
        ∧ r.meaning "color=#brand" = .ok none) :=
  ⟨⟨rfl, rfl, rfl, rfl, rfl, rfl⟩, ⟨rfl, rfl, rfl, rfl⟩, ⟨rfl, rfl, rfl, rfl, rfl, rfl⟩⟩

end Registry

end CueScript
