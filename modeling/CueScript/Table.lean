set_option autoImplicit false

/-! # Tables in order of insertion

A table maps keys to values and remembers the order in which keys first came in. A key that is
inserted again keeps its place and takes the new value. The lemmas say what each operation does to
look-up and to the list of entries. -/

namespace CueScript

/-- A table: its entries, in order of insertion. -/
structure Table (κ ν : Type) where
  entries : List (κ × ν)

namespace Table

variable {κ ν : Type}

/-- The table without entries. -/
def empty : Table κ ν := ⟨[]⟩

/-- The keys, in order. -/
def keys (t : Table κ ν) : List κ := t.entries.map Prod.fst

/-- The values, in order of their keys. -/
def values (t : Table κ ν) : List ν := t.entries.map Prod.snd

/-- How many entries there are. -/
def size (t : Table κ ν) : Nat := t.entries.length

/-- Are there no entries? -/
def isEmpty (t : Table κ ν) : Bool := t.entries.isEmpty

variable [DecidableEq κ]

/-- The value of the first entry with the key. -/
def lookIn (key : κ) : List (κ × ν) → Option ν
  | [] => none
  | (k, v) :: rest => if k = key then some v else lookIn key rest

/-- The value of a key. -/
def find? (t : Table κ ν) (key : κ) : Option ν := lookIn key t.entries

/-- Does the key have a value? -/
def contains (t : Table κ ν) (key : κ) : Bool := (t.find? key).isSome

/-- The entries with a value for the key: in the place of its entry, or else at the end. -/
def putIn (key : κ) (value : ν) : List (κ × ν) → List (κ × ν)
  | [] => [(key, value)]
  | (k, v) :: rest => if k = key then (key, value) :: rest else (k, v) :: putIn key value rest

/-- The table with a value for the key. -/
def insert (t : Table κ ν) (key : κ) (value : ν) : Table κ ν := ⟨putIn key value t.entries⟩

/-- The entries without the first one of the key. -/
def dropFrom (key : κ) : List (κ × ν) → List (κ × ν)
  | [] => []
  | (k, v) :: rest => if k = key then rest else (k, v) :: dropFrom key rest

/-- The table without the key; the order of the other entries stays. -/
def erase (t : Table κ ν) (key : κ) : Table κ ν := ⟨dropFrom key t.entries⟩

/-! ## Laws -/

theorem lookIn_putIn (key other : κ) (value : ν) (l : List (κ × ν)) :
    lookIn other (putIn key value l) = if key = other then some value else lookIn other l := by
  induction l with
  | nil => simp [putIn, lookIn]
  | cons e rest ih =>
    obtain ⟨k, v⟩ := e
    by_cases hk : k = key
    · subst hk
      by_cases ho : k = other <;> simp [putIn, lookIn, ho]
    · by_cases ho : k = other
      · subst ho
        simp [putIn, lookIn, hk, Ne.symm hk]
      · simp [putIn, lookIn, hk, ho, ih]

theorem find?_insert (t : Table κ ν) (key other : κ) (value : ν) :
    (t.insert key value).find? other = if key = other then some value else t.find? other :=
  lookIn_putIn key other value t.entries

theorem putIn_of_lookIn_none {key : κ} {value : ν} {l : List (κ × ν)}
    (h : lookIn key l = none) : putIn key value l = l ++ [(key, value)] := by
  induction l with
  | nil => rfl
  | cons e rest ih =>
    obtain ⟨k, v⟩ := e
    by_cases hk : k = key
    · simp [lookIn, hk] at h
    · simp only [lookIn, hk, if_false] at h
      simp [putIn, hk, ih h]

/-- A new key goes to the end. -/
theorem entries_insert_of_find?_none {t : Table κ ν} {key : κ} {value : ν}
    (h : t.find? key = none) : (t.insert key value).entries = t.entries ++ [(key, value)] :=
  putIn_of_lookIn_none h

theorem lookIn_eq_none_iff {key : κ} {l : List (κ × ν)} :
    lookIn key l = none ↔ key ∉ l.map Prod.fst := by
  induction l with
  | nil => simp [lookIn]
  | cons e rest ih =>
    obtain ⟨k, v⟩ := e
    by_cases hk : k = key
    · simp [lookIn, hk]
    · simp only [lookIn, hk, if_false, ih, List.map_cons, List.mem_cons, not_or, Ne.symm hk,
        not_false_eq_true, true_and]

theorem find?_eq_none_iff {t : Table κ ν} {key : κ} : t.find? key = none ↔ key ∉ t.keys :=
  lookIn_eq_none_iff

theorem contains_iff {t : Table κ ν} {key : κ} : t.contains key = true ↔ key ∈ t.keys := by
  rw [contains, Option.isSome_iff_ne_none, ne_eq, find?_eq_none_iff, Decidable.not_not]

/-- Under distinct keys, looking up finds exactly the entries. -/
theorem lookIn_eq_some_iff {key : κ} {value : ν} {l : List (κ × ν)}
    (h : (l.map Prod.fst).Nodup) : lookIn key l = some value ↔ (key, value) ∈ l := by
  induction l with
  | nil => simp [lookIn]
  | cons e rest ih =>
    obtain ⟨k, v⟩ := e
    simp only [List.map_cons, List.nodup_cons] at h
    obtain ⟨hk, hrest⟩ := h
    by_cases hkey : k = key
    · subst hkey
      have hnot : (k, value) ∉ rest := fun hmem => hk (List.mem_map.2 ⟨_, hmem, rfl⟩)
      simp [lookIn, hnot, eq_comm]
    · simp [lookIn, hkey, Ne.symm hkey, ih hrest]

theorem find?_eq_some_iff {t : Table κ ν} {key : κ} {value : ν} (h : t.keys.Nodup) :
    t.find? key = some value ↔ (key, value) ∈ t.entries :=
  lookIn_eq_some_iff h

theorem keys_putIn (key : κ) (value : ν) (l : List (κ × ν)) :
    (putIn key value l).map Prod.fst
      = if key ∈ l.map Prod.fst then l.map Prod.fst else l.map Prod.fst ++ [key] := by
  induction l with
  | nil => simp [putIn]
  | cons e rest ih =>
    obtain ⟨k, v⟩ := e
    by_cases hk : k = key
    · simp [putIn, hk]
    · by_cases hmem : key ∈ rest.map Prod.fst
      · simp [putIn, hk, ih, hmem]
      · simp [putIn, hk, ih, hmem, Ne.symm hk]

/-- Inserting keeps keys distinct. -/
theorem nodup_keys_insert {t : Table κ ν} (key : κ) (value : ν) (h : t.keys.Nodup) :
    (t.insert key value).keys.Nodup := by
  show ((putIn key value t.entries).map Prod.fst).Nodup
  rw [keys_putIn]
  split
  · exact h
  · next hnot =>
    refine List.nodup_append.2 ⟨h, by simp, ?_⟩
    intro k hk k' hk' heq
    rw [List.mem_singleton] at hk'
    exact hnot (hk' ▸ heq ▸ hk)

/-- A total over the values, after one of them is put in place of what was there. -/
theorem total_putIn (f : ν → Nat) (key : κ) (value : ν) (l : List (κ × ν)) :
    (putIn key value l).foldr (fun e n => f e.2 + n) 0 + ((lookIn key l).map f).getD 0
      = l.foldr (fun e n => f e.2 + n) 0 + f value := by
  induction l with
  | nil => simp [putIn, lookIn]
  | cons e rest ih =>
    obtain ⟨k, v⟩ := e
    by_cases hk : k = key
    · simp only [putIn, lookIn, hk, if_true, List.foldr_cons, Option.map_some, Option.getD_some]
      omega
    · simp only [putIn, lookIn, hk, if_false, List.foldr_cons]
      omega

/-- A value in a table is the one just inserted, or was there before. -/
theorem mem_values_insert {t : Table κ ν} {key : κ} {value v : ν}
    (h : v ∈ (t.insert key value).values) : v = value ∨ v ∈ t.values := by
  simp only [values, insert] at h ⊢
  generalize t.entries = l at h ⊢
  induction l with
  | nil => simpa [putIn] using h
  | cons e rest ih =>
    obtain ⟨k, v'⟩ := e
    by_cases hk : k = key
    · simp only [putIn, hk, if_true, List.map_cons, List.mem_cons] at h ⊢
      rcases h with h | h
      · exact Or.inl h
      · exact Or.inr (Or.inr h)
    · simp only [putIn, hk, if_false, List.map_cons, List.mem_cons] at h ⊢
      rcases h with h | h
      · exact Or.inr (Or.inl h)
      · exact (ih h).imp_right Or.inr

theorem dropFrom_sublist (key : κ) (l : List (κ × ν)) : (dropFrom key l).Sublist l := by
  induction l with
  | nil => exact List.Sublist.refl _
  | cons e rest ih =>
    obtain ⟨k, v⟩ := e
    rw [dropFrom]
    split
    · exact List.sublist_cons_self _ _
    · exact ih.cons_cons _

/-- Erasing keeps the order of the other entries. -/
theorem entries_erase_sublist (t : Table κ ν) (key : κ) : (t.erase key).entries.Sublist t.entries :=
  dropFrom_sublist key t.entries

/-- Under distinct keys, dropping takes away all entries of a key. -/
theorem dropFrom_eq_filter (key : κ) {l : List (κ × ν)} (h : (l.map Prod.fst).Nodup) :
    dropFrom key l = l.filter fun e => e.1 ≠ key := by
  induction l with
  | nil => rfl
  | cons e rest ih =>
    obtain ⟨k, v⟩ := e
    obtain ⟨hk, hrest⟩ := List.nodup_cons.1 h
    by_cases hkey : k = key
    · -- No entry of the rest has the key, so the filter takes nothing away there.
      subst hkey
      have hself : rest.filter (fun e => e.1 ≠ k) = rest := by
        rw [List.filter_eq_self]
        intro e he
        exact decide_eq_true fun heq => hk (List.mem_map.2 ⟨e, he, heq⟩)
      simp only [dropFrom, if_true, ne_eq, not_true_eq_false, decide_false, Bool.false_eq_true,
        not_false_eq_true, List.filter_cons_of_neg]
      exact hself.symm
    · simp [dropFrom, hkey, ih hrest]

theorem entries_erase {t : Table κ ν} (key : κ) (h : t.keys.Nodup) :
    (t.erase key).entries = t.entries.filter fun e => e.1 ≠ key :=
  dropFrom_eq_filter key h

theorem lookIn_dropFrom (key other : κ) {l : List (κ × ν)} (h : (l.map Prod.fst).Nodup) :
    lookIn other (dropFrom key l) = if key = other then none else lookIn other l := by
  induction l with
  | nil => simp [dropFrom, lookIn]
  | cons e rest ih =>
    obtain ⟨k, v⟩ := e
    obtain ⟨hk, hrest⟩ := List.nodup_cons.1 h
    by_cases hkey : k = key
    · subst hkey
      by_cases ho : k = other
      · subst ho
        simpa [dropFrom] using lookIn_eq_none_iff.2 hk
      · simp [dropFrom, lookIn, ho]
    · by_cases ho : k = other
      · subst ho
        simp [dropFrom, lookIn, hkey, Ne.symm hkey]
      · simp [dropFrom, lookIn, hkey, ho, ih hrest]

/-- Under distinct keys, an erased key has no value, and the others have theirs. -/
theorem find?_erase {t : Table κ ν} (h : t.keys.Nodup) (key other : κ) :
    (t.erase key).find? other = if key = other then none else t.find? other :=
  lookIn_dropFrom key other h

/-- Without an entry there is nothing to erase. -/
theorem erase_of_not_mem {t : Table κ ν} {key : κ} (h : key ∉ t.keys) : t.erase key = t := by
  obtain ⟨l⟩ := t
  simp only [erase, mk.injEq, keys] at h ⊢
  induction l with
  | nil => rfl
  | cons e rest ih =>
    obtain ⟨k, v⟩ := e
    rw [List.map_cons, List.mem_cons, not_or] at h
    rw [dropFrom, if_neg (Ne.symm h.1), ih h.2]

/-- Erasing brings no values in. -/
theorem mem_values_of_erase {t : Table κ ν} {key : κ} {v : ν} (h : v ∈ (t.erase key).values) :
    v ∈ t.values :=
  ((t.entries_erase_sublist key).map Prod.snd).subset h

end Table

end CueScript
