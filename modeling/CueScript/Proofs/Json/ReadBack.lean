import CueScript.Json.Decode
import CueScript.Proofs.Json.Lexing
import Mathlib.Data.List.Forall2

set_option autoImplicit false

/-! # Written JSON is read back

A value without floating point numbers, and with whole numbers that fit 64 bits, is read back from
both of its layouts as what it is, closed everywhere and with nothing after it.

The proof is about pieces of text in any surroundings: `ReadAs cs r` says that wherever a value may
come next, the characters `cs` take reading over a value that is read as `r`, with everything around
left as it is. Both kinds of brackets take pieces to a piece, which is shown once, for any
`Brackets`; the two layouts differ only in the gaps between the pieces. -/

namespace CueScript.Json

/-! ## Values and what they are read as -/

/-- A value of which the text shows everything: its whole numbers fit 64 bits, and it has no
    floating point numbers. -/
inductive Exact : Json → Prop
  | null : Exact .null
  | bool (b : Bool) : Exact (.bool b)
  | integer {k : Int} (hlow : -(negativeLimit : Int) ≤ k) (hhigh : k ≤ naturalLimit) :
      Exact (.integer k)
  | string (s : String) : Exact (.string s)
  | array {items : List Json} (hitems : ∀ j ∈ items, Exact j) : Exact (.array items)
  | object {members : List (String × Json)} (hmembers : ∀ m ∈ members, Exact m.2) :
      Exact (.object members)

mutual

/-- What the text of a value is read as. -/
def reading : Json → Reading
  | .null => .null
  | .bool b => .bool b
  | .integer k => .integer k
  | .real x => .real x
  | .string s => .string s
  | .array items => .array (readingItems items) true
  | .object members => .object (readingMembers members) true

/-- What the items of an array are read as. -/
def readingItems : List Json → List Reading
  | [] => []
  | j :: rest => j.reading :: readingItems rest

/-- What the members of an object are read as. -/
def readingMembers : List (String × Json) → List (String × Reading)
  | [] => []
  | (key, j) :: rest => (key, j.reading) :: readingMembers rest

end

theorem readingItems_eq (items : List Json) : readingItems items = items.map reading := by
  induction items with
  | nil => rfl
  | cons j rest ih => rw [readingItems, ih, List.map_cons]

theorem readingMembers_eq (members : List (String × Json)) :
    readingMembers members = members.map fun m => (m.1, m.2.reading) := by
  induction members with
  | nil => rfl
  | cons m rest ih => rw [readingMembers, ih, List.map_cons]

theorem compactItems_eq (items : List Json) : compactItems items = items.map compactChars := by
  induction items with
  | nil => rfl
  | cons j rest ih => rw [compactItems, ih, List.map_cons]

theorem compactMembers_eq (members : List (String × Json)) :
    compactMembers members = members.map fun m => stringChars m.1 ++ ':' :: compactChars m.2 := by
  induction members with
  | nil => rfl
  | cons m rest ih => rw [compactMembers, ih, List.map_cons]

theorem prettyItems_eq (level : Nat) (items : List Json) :
    prettyItems level items = items.map (prettyChars level) := by
  induction items with
  | nil => rfl
  | cons j rest ih => rw [prettyItems, ih, List.map_cons]

theorem prettyMembers_eq (level : Nat) (members : List (String × Json)) :
    prettyMembers level members
      = members.map fun m => stringChars m.1 ++ ':' :: ' ' :: prettyChars level m.2 := by
  induction members with
  | nil => rfl
  | cons m rest ih => rw [prettyMembers, ih, List.map_cons]

/-! ## Reading on from a place -/

/-- Read the rest of a text from a place on, between two lexemes. -/
def readOn (place : Place) (cs : List Char) : Document := readFrom place (lexFrom .between cs)

theorem readOn_gap (place : Place) {gap : List Char} (hgap : IsGap gap) (rest : List Char) :
    readOn place (gap ++ rest) = readOn place rest := by
  rw [readOn, lexFrom_gap hgap, readOn]

theorem readOn_of_lexeme {place place' : Place} {cs rest : List Char} {lexeme : Lexeme}
    (hlex : lexFrom .between cs = lexeme :: lexFrom .between rest)
    (hstep : advance place lexeme = .ok place') : readOn place cs = readOn place' rest := by
  rw [readOn, hlex, readFrom, hstep, readOn]

/-- A value may come next at this place, and `outer` is open while it is read. -/
inductive AwaitsValue : Place → List Frame → Prop
  | value (outer : List Frame) : AwaitsValue (.value, outer) outer
  | firstItem (outer : List Frame) : AwaitsValue (.firstItem, outer) (.items [] :: outer)

theorem AwaitsValue.advance {place : Place} {outer : List Frame} (hplace : AwaitsValue place outer)
    {lexeme : Lexeme} (hlexeme : lexeme ≠ .closeArray) :
    Json.advance place lexeme = beginValue outer lexeme := by
  cases hplace with
  | value => rfl
  | firstItem => exact if_neg hlexeme

/-- The characters are read as a value, wherever a value may come next and whatever follows that
    cannot belong to a number. -/
def ReadAs (cs : List Char) (r : Reading) : Prop :=
  ∀ ⦃place : Place⦄ ⦃outer : List Frame⦄ ⦃rest : List Char⦄, AwaitsValue place outer →
    endsNumeral rest = true → readOn place (cs ++ rest) = readOn (.next r, outer) rest

/-- Characters that are one lexeme are read as the value that begins and ends with it. -/
theorem readAs_of_lexeme {cs : List Char} {r : Reading} {lexeme : Lexeme}
    (hlexeme : lexeme ≠ .closeArray)
    (hvalue : ∀ outer, beginValue outer lexeme = .ok (.next r, outer))
    (hlex : ∀ rest, endsNumeral rest = true →
      lexFrom .between (cs ++ rest) = lexeme :: lexFrom .between rest) : ReadAs cs r := by
  intro place outer rest hplace hrest
  refine readOn_of_lexeme (hlex rest hrest) ?_
  rw [hplace.advance hlexeme, hvalue]

theorem ReadAs.gap {cs gap : List Char} {r : Reading} (hgap : IsGap gap) (h : ReadAs cs r) :
    ReadAs (gap ++ cs) r := by
  intro place outer rest hplace hrest
  rw [List.append_assoc, readOn_gap place hgap, h hplace hrest]

/-! ## Brackets -/

theorem endsNumeral_gap {gap : List Char} (hgap : IsGap gap) {rest : List Char}
    (hrest : endsNumeral rest = true) : endsNumeral (gap ++ rest) = true := by
  cases gap with
  | nil => exact hrest
  | cons c cs =>
    have hc : isSpace c = true := hgap c List.mem_cons_self
    simp only [isSpace, Bool.or_eq_true, beq_iff_eq] at hc
    obtain ((rfl | rfl) | rfl) | rfl := hc <;> rfl

/-- A kind of brackets: its two characters, the places before its first element, before another one
    and after one, and what it is read as with all its elements. The elements before a place are
    given last first. -/
structure Brackets (α : Type) where
  left : Char
  right : Char
  first : List Frame → Place
  again : List α → List Frame → Place
  after : α → List α → List Frame → Place
  whole : List α → Reading
  opens : ∀ {place : Place} {outer : List Frame} (rest : List Char), AwaitsValue place outer →
    readOn place (left :: rest) = readOn (first outer) rest
  empty : ∀ (outer : List Frame) (rest : List Char),
    readOn (first outer) (right :: rest) = readOn (.next (whole []), outer) rest
  comma : ∀ (a : α) (before : List α) (outer : List Frame) (rest : List Char),
    readOn (after a before outer) (',' :: rest) = readOn (again (a :: before) outer) rest
  closes : ∀ (a : α) (before : List α) (outer : List Frame) (rest : List Char),
    readOn (after a before outer) (right :: rest)
      = readOn (.next (whole (a :: before).reverse), outer) rest
  right_ends : ∀ rest : List Char, endsNumeral (right :: rest) = true

namespace Brackets

/-- The brackets of an array. -/
def array : Brackets Reading where
  left := '['
  right := ']'
  first outer := (.firstItem, outer)
  again before outer := (.value, .items before :: outer)
  after r before outer := (.next r, .items before :: outer)
  whole items := .array items true
  opens _ hplace := readOn_of_lexeme rfl (hplace.advance (by decide))
  empty _ _ := rfl
  comma _ _ _ _ := rfl
  closes _ _ _ _ := rfl
  right_ends _ := rfl

/-- The brackets of an object. -/
def object : Brackets (String × Reading) where
  left := '\x7b'
  right := '\x7d'
  first outer := (.firstKey, outer)
  again before outer := (.key before, outer)
  after m before outer := (.next m.2, .members before m.1 :: outer)
  whole members := .object members true
  opens _ hplace := readOn_of_lexeme rfl (hplace.advance (by decide))
  empty _ _ := rfl
  comma _ _ _ _ := rfl
  closes _ _ _ _ := rfl
  right_ends _ := rfl

variable {α : Type} (b : Brackets α)

/-- The characters are read as an element, be it the first one or another one. -/
def ReadsElement (cs : List Char) (a : α) : Prop :=
  ∀ ⦃outer : List Frame⦄ ⦃rest : List Char⦄, endsNumeral rest = true →
    readOn (b.first outer) (cs ++ rest) = readOn (b.after a [] outer) rest
      ∧ ∀ before, readOn (b.again before outer) (cs ++ rest) = readOn (b.after a before outer) rest

variable {b}

theorem ReadsElement.gap {cs gap : List Char} {a : α} (hgap : IsGap gap)
    (h : b.ReadsElement cs a) : b.ReadsElement (gap ++ cs) a := by
  intro outer rest hrest
  refine ⟨?_, fun before => ?_⟩
  · rw [List.append_assoc, readOn_gap _ hgap, (h hrest).1]
  · rw [List.append_assoc, readOn_gap _ hgap, (h hrest).2]

theorem commaSeparated_cons (piece : List Char) (pieces : List (List Char)) :
    commaSeparated (piece :: pieces) = piece ++ pieces.flatMap (',' :: ·) := by
  induction pieces generalizing piece with
  | nil => simp [commaSeparated]
  | cons next rest ih => rw [commaSeparated, ih, List.flatMap_cons, List.cons_append]; simp

/-- What follows an element ends a number: a comma, a gap or the closing bracket. -/
theorem endsNumeral_more (pieces : List (List Char)) {gap : List Char} (hgap : IsGap gap)
    (rest : List Char) :
    endsNumeral (pieces.flatMap (',' :: ·) ++ (gap ++ b.right :: rest)) = true := by
  cases pieces with
  | nil => exact endsNumeral_gap hgap (b.right_ends rest)
  | cons piece pieces => rfl

/-- After an element the others are read, up to the closing bracket. -/
theorem readOn_more {pieces : List (List Char)} {as : List α}
    (h : List.Forall₂ b.ReadsElement pieces as) {gap : List Char} (hgap : IsGap gap)
    (a : α) (before : List α) (outer : List Frame) (rest : List Char) :
    readOn (b.after a before outer) (pieces.flatMap (',' :: ·) ++ (gap ++ b.right :: rest))
      = readOn (.next (b.whole ((a :: before).reverse ++ as)), outer) rest := by
  -- The elements read so far wait before the place, last first, and each piece adds one to them.
  induction h generalizing a before with
  | nil => rw [List.flatMap_nil, List.nil_append, readOn_gap _ hgap, b.closes, List.append_nil]
  | @cons piece a' pieces as hpiece _ ih =>
    rw [List.flatMap_cons, List.cons_append, List.cons_append, List.append_assoc, b.comma,
      (hpiece (endsNumeral_more pieces hgap rest)).2, ih]
    simp

/-- **Brackets around elements are read as a value**, with a gap before the closing one. -/
theorem readAs {pieces : List (List Char)} {as : List α}
    (h : List.Forall₂ b.ReadsElement pieces as) {gap : List Char} (hgap : IsGap gap) :
    ReadAs (b.left :: commaSeparated pieces ++ gap ++ [b.right]) (b.whole as) := by
  intro place outer rest hplace _
  have hsplit : b.left :: commaSeparated pieces ++ gap ++ [b.right] ++ rest
      = b.left :: (commaSeparated pieces ++ (gap ++ b.right :: rest)) := by simp
  rw [hsplit, b.opens _ hplace]
  cases h with
  | nil => rw [commaSeparated, List.nil_append, readOn_gap _ hgap, b.empty]
  | @cons piece a pieces as hpiece hpieces =>
    rw [commaSeparated_cons, List.append_assoc, (hpiece (endsNumeral_more pieces hgap rest)).1,
      readOn_more hpieces hgap]
    simp

/-- Elements on lines of their own are read like those on one line. -/
theorem readAs_block (level : Nat) {pieces : List (List Char)} {as : List α}
    (h : List.Forall₂ b.ReadsElement pieces as) :
    ReadAs (block level b.left b.right pieces) (b.whole as) := by
  rw [block]
  cases h with
  | nil => exact readAs .nil isGap_nil
  | @cons piece a pieces as hpiece hpieces =>
    rw [List.isEmpty_cons, if_neg Bool.false_ne_true]
    refine readAs ?_ (isGap_newLine level)
    rw [List.forall₂_map_left_iff]
    exact (List.Forall₂.cons hpiece hpieces).imp fun _ _ => .gap (isGap_newLine (level + 1))

/-- A value is an item. -/
theorem readsElement_item {cs : List Char} {r : Reading} (h : ReadAs cs r) :
    array.ReadsElement cs r :=
  fun outer _ hrest =>
    ⟨h (.firstItem outer) hrest, fun before => h (.value (.items before :: outer)) hrest⟩

/-- A key and a value, with a colon and a gap between them, are a member. -/
theorem readsElement_member (key : String) {cs gap : List Char} {r : Reading} (hgap : IsGap gap)
    (h : ReadAs cs r) : object.ReadsElement (stringChars key ++ ':' :: (gap ++ cs)) (key, r) := by
  intro outer rest hrest
  have hkey : ∀ {place : Place} {before : List (String × Reading)},
      advance place (.string key) = .ok (.colon before key, outer) →
      readOn place (stringChars key ++ ':' :: (gap ++ cs) ++ rest)
        = readOn (.next r, .members before key :: outer) rest := by
    intro place before hplace
    rw [List.append_assoc, readOn_of_lexeme (lexFrom_stringChars key _) hplace, List.cons_append,
      ← ReadAs.gap hgap h (.value (.members before key :: outer)) hrest]
    rfl
  exact ⟨hkey rfl, fun _ => hkey rfl⟩

end Brackets

/-! ## The two layouts -/

theorem readAs_null : ReadAs (scalarChars .null) .null :=
  @readAs_of_lexeme _ _ .null (by decide) (fun _ => rfl) fun _ _ => rfl

theorem readAs_bool (b : Bool) : ReadAs (scalarChars (.bool b)) (.bool b) :=
  @readAs_of_lexeme _ _ (.bool b) (by simp) (fun _ => rfl) fun _ _ => by cases b <;> rfl

theorem readAs_integer {k : Int} (hlow : -(negativeLimit : Int) ≤ k) (hhigh : k ≤ naturalLimit) :
    ReadAs (scalarChars (.integer k)) (.integer k) :=
  readAs_of_lexeme (by simp) (fun _ => rfl) fun _ hrest => lexFrom_integer hlow hhigh hrest

theorem readAs_string (s : String) : ReadAs (scalarChars (.string s)) (.string s) :=
  readAs_of_lexeme (by simp) (fun _ => rfl) fun rest _ => lexFrom_stringChars s rest

section Layout

variable {chars : Json → List Char}

theorem readsElement_items {items : List Json} (h : ∀ j ∈ items, ReadAs (chars j) j.reading) :
    List.Forall₂ Brackets.array.ReadsElement (items.map chars) (readingItems items) := by
  rw [readingItems_eq, List.forall₂_map_left_iff, List.forall₂_map_right_iff, List.forall₂_same]
  exact fun j hj => Brackets.readsElement_item (h j hj)

theorem readsElement_members {gap : List Char} (hgap : IsGap gap) {members : List (String × Json)}
    (h : ∀ m ∈ members, ReadAs (chars m.2) m.2.reading) :
    List.Forall₂ Brackets.object.ReadsElement
      (members.map fun m => stringChars m.1 ++ ':' :: (gap ++ chars m.2))
      (readingMembers members) := by
  rw [readingMembers_eq, List.forall₂_map_left_iff, List.forall₂_map_right_iff, List.forall₂_same]
  exact fun m hm => Brackets.readsElement_member m.1 hgap (h m hm)

end Layout

theorem readAs_compactChars {j : Json} (hj : j.Exact) : ReadAs (compactChars j) j.reading := by
  -- Arrays and objects hold lists of values, so the induction is on `Exact`, which has a hypothesis
  -- for each member of them.
  induction hj with
  | null => exact readAs_null
  | bool b => exact readAs_bool b
  | integer hlow hhigh => exact readAs_integer hlow hhigh
  | string s => exact readAs_string s
  | array _ ih =>
    rw [compactChars, compactItems_eq, reading, ← List.append_nil (_ :: commaSeparated _)]
    exact Brackets.readAs (readsElement_items ih) isGap_nil
  | object _ ih =>
    rw [compactChars, compactMembers_eq, reading, ← List.append_nil (_ :: commaSeparated _)]
    exact Brackets.readAs (readsElement_members isGap_nil ih) isGap_nil

theorem readAs_prettyChars {j : Json} (hj : j.Exact) (level : Nat) :
    ReadAs (prettyChars level j) j.reading := by
  induction hj generalizing level with
  | null => exact readAs_null
  | bool b => exact readAs_bool b
  | integer hlow hhigh => exact readAs_integer hlow hhigh
  | string s => exact readAs_string s
  | array _ ih =>
    rw [prettyChars, prettyItems_eq, reading]
    exact Brackets.readAs_block level (readsElement_items fun j hj => ih j hj (level + 1))
  | object _ ih =>
    rw [prettyChars, prettyMembers_eq, reading]
    exact Brackets.readAs_block level
      (readsElement_members isGap_space fun m hm => ih m hm (level + 1))

theorem read_of_readAs {cs : List Char} {r : Reading} (h : ReadAs cs r) :
    read (String.ofList cs) = ⟨r, false⟩ := by
  have hread := h (.value []) (rfl : endsNumeral [] = true)
  rw [List.append_nil] at hread
  rw [read, lex, String.toList_ofList]
  exact hread

/-- **A value is read back from the text on one line.** -/
theorem read_compact {j : Json} (hj : j.Exact) : read j.compact = ⟨j.reading, false⟩ :=
  read_of_readAs (readAs_compactChars hj)

/-- **A value is read back from the text on several lines.** -/
theorem read_pretty {j : Json} (hj : j.Exact) : read j.pretty = ⟨j.reading, false⟩ :=
  read_of_readAs (readAs_prettyChars hj 0)

/-- Taking a written text apart is taking the value apart. -/
theorem decodeText_of_read {α : Type} (f : Reading → Except Fault α) {text : String} {r : Reading}
    (h : read text = ⟨r, false⟩) : decodeText f text = f r := by
  rw [decodeText, h]
  cases f r <;> rfl

end CueScript.Json
