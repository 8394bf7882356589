import CueScript.Proofs.Registry.Admission
import Mathlib.Data.List.Nodup

set_option autoImplicit false

/-! # What a registry holds

A registry keeps its keywords twice, in the index and in the library, and its views read now the
one and now the other. `Holds r ds` says that both are what registering `ds`, in this order, makes
of them. Everything rests on the words being different: that is what keeps an entry of the index
from being replaced, a shelf from losing a definition, and an alias from being taken for an id.

`Holds` is kept whenever a draft is accepted (`Holds.add`), and each view is read off it. -/

namespace CueScript

variable {α : Type}

/-- The entries of a definition in the index: one for each of its words. -/
def Definition.entries (d : Definition α) : List (String × Entry) :=
  d.words.map fun w => (w, ⟨d.id, d.kind⟩)

namespace Registry

/-- The registry holds these definitions, registered in this order. -/
structure Holds (r : Registry α) (ds : List (Definition α)) : Prop where
  index : r.index.entries = ds.flatMap Definition.entries
  distinct : (ds.flatMap Definition.words).Nodup
  shelves : r.library.keys.Nodup
  shelf : ∀ kind, (r.shelf kind).entries
    = (ds.filter fun d => d.kind = kind).map fun d => (d.id, d)
  size : r.size = ds.length
  fit : ∀ d ∈ ds, d.TakesSlots

theorem holds_empty : Holds (.empty : Registry α) [] :=
  ⟨rfl, List.nodup_nil, List.nodup_nil, fun _ => rfl, rfl, nofun⟩

/-! ## Words and ids -/

theorem map_fst_entries (ds : List (Definition α)) :
    (ds.flatMap Definition.entries).map Prod.fst = ds.flatMap Definition.words := by
  induction ds with
  | nil => rfl
  | cons d ds ih => simp [Definition.entries, ih, Function.comp_def]

/-- Ids are among the words. -/
theorem ids_sublist_words (ds : List (Definition α)) :
    (ds.map Definition.id).Sublist (ds.flatMap Definition.words) := by
  induction ds with
  | nil => exact List.Sublist.refl _
  | cons d ds ih =>
    simp only [List.map_cons, List.flatMap_cons, Definition.words, List.cons_append]
    exact (ih.trans (List.sublist_append_right _ _)).cons_cons _

namespace Holds

variable {r : Registry α} {ds : List (Definition α)}

theorem keys_index (h : Holds r ds) : r.index.keys = ds.flatMap Definition.words := by
  rw [Table.keys, h.index, map_fst_entries]

theorem nodup_ids (h : Holds r ds) : (ds.map Definition.id).Nodup :=
  h.distinct.sublist (ids_sublist_words ds)

theorem nodup (h : Holds r ds) : ds.Nodup := List.Nodup.of_map _ h.nodup_ids

theorem keys_shelf (h : Holds r ds) (kind : Kind) :
    (r.shelf kind).keys = (ds.filter fun d => d.kind = kind).map Definition.id := by
  simp [Table.keys, h.shelf, Function.comp_def]

theorem nodup_keys_shelf (h : Holds r ds) (kind : Kind) : (r.shelf kind).keys.Nodup := by
  rw [h.keys_shelf]
  exact h.nodup_ids.sublist (List.filter_sublist.map _)

/-! ## Looking up -/

/-- A word is in the index exactly for the definition that it names. -/
theorem resolve?_eq_some_iff (h : Holds r ds) {word : String} {e : Entry} :
    r.resolve? word = some e ↔ ∃ d ∈ ds, word ∈ d.words ∧ e = ⟨d.id, d.kind⟩ := by
  have hkeys : r.index.keys.Nodup := by
    rw [h.keys_index]
    exact h.distinct
  rw [resolve?, Table.find?_eq_some_iff hkeys, h.index]
  simp only [List.mem_flatMap, Definition.entries, List.mem_map, Prod.mk.injEq]
  constructor
  · rintro ⟨d, hd, w, hw, rfl, rfl⟩
    exact ⟨d, hd, hw, rfl⟩
  · rintro ⟨d, hd, hw, rfl⟩
    exact ⟨d, hd, word, hw, rfl, rfl⟩

theorem resolve?_eq_none_iff (h : Holds r ds) {word : String} :
    r.resolve? word = none ↔ ∀ d ∈ ds, word ∉ d.words := by
  rw [resolve?, Table.find?_eq_none_iff, h.keys_index]
  simp

/-- A definition stands in the library exactly under its own id and kind. -/
theorem definitionFor_eq_ok_iff (h : Holds r ds) {id : String} {kind : Kind} {d : Definition α} :
    r.definitionFor id kind = .ok d ↔ d ∈ ds ∧ d.id = id ∧ d.kind = kind := by
  have hfind : (r.shelf kind).find? id = some d ↔ d ∈ ds ∧ d.id = id ∧ d.kind = kind := by
    rw [Table.find?_eq_some_iff (h.nodup_keys_shelf kind), h.shelf]
    simp only [List.mem_map, List.mem_filter, decide_eq_true_eq, Prod.mk.injEq]
    constructor
    · rintro ⟨d', ⟨hd, hkind⟩, hid, rfl⟩
      exact ⟨hd, hid, hkind⟩
    · rintro ⟨hd, hid, hkind⟩
      exact ⟨d, ⟨hd, hkind⟩, hid, rfl⟩
  rw [← hfind, definitionFor]
  cases (r.shelf kind).find? id with
  | none => simp
  | some d' => simp

theorem definitionFor_self (h : Holds r ds) {d : Definition α} (hd : d ∈ ds) :
    r.definitionFor d.id d.kind = .ok d :=
  h.definitionFor_eq_ok_iff.2 ⟨hd, rfl, rfl⟩

/-- A word names one definition. -/
theorem eq_of_mem_words (h : Holds r ds) {d d' : Definition α} (hd : d ∈ ds) (hd' : d' ∈ ds)
    {word : String} (hw : word ∈ d.words) (hw' : word ∈ d'.words) : d = d' := by
  have hr := h.resolve?_eq_some_iff.2 ⟨d, hd, hw, rfl⟩
  have hr' := h.resolve?_eq_some_iff.2 ⟨d', hd', hw', rfl⟩
  rw [hr, Option.some.injEq, Entry.mk.injEq] at hr'
  have hok := h.definitionFor_self hd
  rw [hr'.1, hr'.2, h.definitionFor_self hd'] at hok
  exact (Except.ok.inj hok).symm

/-- Looking up a word gives the definition that it names, and never meets an entry without one. -/
theorem lookup_eq (h : Holds r ds) (word : String) :
    r.lookup word = .ok (ds.find? fun d => word ∈ d.words) := by
  unfold lookup
  cases hword : r.resolve? word with
  | none =>
    have hnone := h.resolve?_eq_none_iff.1 hword
    rw [List.find?_eq_none.2 fun d hd => by simpa using hnone d hd]
  | some e =>
    obtain ⟨d, hd, hw, rfl⟩ := h.resolve?_eq_some_iff.1 hword
    have hfind : ds.find? (fun d => word ∈ d.words) = some d := by
      cases hf : ds.find? (fun d => word ∈ d.words) with
      | none => exact absurd hw (by simpa using List.find?_eq_none.1 hf d hd)
      | some d' =>
        have hw' : word ∈ d'.words := by simpa using List.find?_some hf
        rw [h.eq_of_mem_words hd (List.mem_of_find?_eq_some hf) hw hw']
    simp [hfind, h.definitionFor_self hd, Except.map]

/-! ## Listing -/

/-- Among the words of a definition only the first is its id. -/
theorem filter_entries {d : Definition α} (hnodup : d.words.Nodup) :
    d.entries.filter (fun (w, e) => w = e.id) = [(d.id, ⟨d.id, d.kind⟩)] := by
  obtain ⟨hnot, -⟩ := List.nodup_cons.1 hnodup
  simp only [Definition.entries, Definition.words, List.map_cons]
  rw [List.filter_cons_of_pos (by simp), List.filter_eq_nil_iff.2]
  intro e he
  obtain ⟨w, hw, rfl⟩ := List.mem_map.1 he
  simpa using fun heq : w = d.id => hnot (heq ▸ hw)

theorem definitions_eq (h : Holds r ds) : r.definitions = ds := by
  have hids : (ds.flatMap Definition.entries).filter (fun (w, e) => w = e.id)
      = ds.map fun d => (d.id, ⟨d.id, d.kind⟩) := by
    have hnodup : ∀ d ∈ ds, d.words.Nodup := (List.nodup_flatMap.1 h.distinct).1
    clear h
    induction ds with
    | nil => rfl
    | cons d ds ih =>
      rw [List.flatMap_cons, List.filter_append, filter_entries (hnodup d List.mem_cons_self),
        ih fun d' hd' => hnodup d' (List.mem_cons_of_mem _ hd')]
      rfl
  rw [definitions, h.index, hids, List.filterMap_map]
  have hsome : ∀ d ∈ ds, ((fun p : String × Entry => (r.definitionFor p.2.id p.2.kind).toOption)
      ∘ fun d => (d.id, ⟨d.id, d.kind⟩)) d = some d := by
    intro d hd
    simp [h.definitionFor_self hd, Except.toOption]
  rw [List.filterMap_congr hsome, List.filterMap_some]

theorem definitionsOf_eq (h : Holds r ds) (kind : Kind) :
    r.definitionsOf kind = ds.filter fun d => d.kind = kind := by
  simp [definitionsOf, Table.values, h.shelf, Function.comp_def]

theorem isEmpty_eq (h : Holds r ds) : r.isEmpty = ds.isEmpty := by
  rw [isEmpty, Table.isEmpty, h.index]
  cases ds with
  | nil => rfl
  | cons d ds => rfl

/-! ## Agreement of index and library -/

theorem dangling?_eq_none (h : Holds r ds) : r.dangling? = none := by
  rw [dangling?, List.findSome?_eq_none_iff]
  intro e he
  rw [Table.values, h.index] at he
  obtain ⟨p, hp, rfl⟩ := List.mem_map.1 he
  obtain ⟨d, hd, hp⟩ := List.mem_flatMap.1 hp
  obtain ⟨w, -, rfl⟩ := List.mem_map.1 hp
  simp [h.definitionFor_self hd]

theorem indexes_of_mem (h : Holds r ds) {d : Definition α} (hd : d ∈ ds) :
    r.indexes d.kind d.id d = true := by
  have hword : ∀ w ∈ d.words, r.resolve? w = some ⟨d.id, d.kind⟩ := fun w hw =>
    h.resolve?_eq_some_iff.2 ⟨d, hd, hw, rfl⟩
  have hid := hword d.id List.mem_cons_self
  simp only [indexes, hid, decide_true, Bool.true_and, List.all_eq_true]
  intro w hw
  simp [hword w hw]

theorem unindexed?_eq_none (h : Holds r ds) : r.unindexed? = none := by
  rw [unindexed?, List.findSome?_eq_none_iff]
  rintro ⟨kind, shelf⟩ hshelf
  rw [List.findSome?_eq_none_iff]
  rintro ⟨id, d⟩ hd
  have hfind : r.shelf kind = shelf := by
    rw [Registry.shelf, (Table.find?_eq_some_iff h.shelves).2 hshelf, Option.getD_some]
  rw [← hfind, h.shelf] at hd
  obtain ⟨d', hd', heq⟩ := List.mem_map.1 hd
  obtain ⟨hmem, hkind⟩ := List.mem_filter.1 hd'
  obtain ⟨rfl, rfl⟩ := Prod.mk.inj heq
  rw [decide_eq_true_eq] at hkind
  simp [← hkind, h.indexes_of_mem hmem]

theorem verify_eq_ok (h : Holds r ds) : r.verify = .ok () := by
  simp [verify, h.dangling?_eq_none, h.unindexed?_eq_none]

end Holds

/-! ## Adding a definition -/

/-- Indexing new words under one entry puts them at the end, in order. -/
theorem entries_foldl_insert (e : Entry) (ws : List String) (t : Table String Entry)
    (hnew : ∀ w ∈ ws, w ∉ t.keys) (hnodup : ws.Nodup) :
    (ws.foldl (fun t w => t.insert w e) t).entries = t.entries ++ ws.map fun w => (w, e) := by
  induction ws generalizing t with
  | nil => simp
  | cons w ws ih =>
    obtain ⟨hw, hws⟩ := List.nodup_cons.1 hnodup
    have hfind : t.find? w = none := Table.find?_eq_none_iff.2 (hnew w List.mem_cons_self)
    have hentries : (t.insert w e).entries = t.entries ++ [(w, e)] :=
      Table.entries_insert_of_find?_none hfind
    rw [List.foldl_cons, ih _ _ hws, hentries]
    · simp
    · intro x hx
      have hkeys : (t.insert w e).keys = t.keys ++ [w] := by simp [Table.keys, hentries]
      rw [hkeys, List.mem_append, List.mem_singleton, not_or]
      exact ⟨hnew x (List.mem_cons_of_mem _ hx), fun heq => hw (heq ▸ hx)⟩

theorem shelf_add (r : Registry α) (d : Definition α) (kind : Kind) :
    (r.add d).shelf kind
      = if d.kind = kind then (r.shelf d.kind).insert d.id d else r.shelf kind := by
  simp only [shelf, add, Table.find?_insert]
  split <;> simp

theorem size_add (r : Registry α) (d : Definition α) :
    (r.add d).size + (r.shelf d.kind).size = r.size + ((r.shelf d.kind).insert d.id d).size := by
  have htotal := Table.total_putIn Table.size d.kind ((r.shelf d.kind).insert d.id d)
    r.library.entries
  have hold : ((r.library.find? d.kind).map Table.size).getD 0 = (r.shelf d.kind).size := by
    rw [shelf]
    cases r.library.find? d.kind <;> rfl
  simp only [size, Table.values, List.foldr_map]
  rw [← hold]
  exact htotal

/-- An accepted definition comes in at the end. -/
theorem Holds.add {r : Registry α} {ds : List (Definition α)} (h : Holds r ds) {draft : Draft α}
    {d : Definition α} (haccept : r.accept draft = .ok d) : Holds (r.add d) (ds ++ [d]) := by
  obtain ⟨hnew, hnodup⟩ := words_of_accept haccept
  have hkeys : ∀ w ∈ d.words, w ∉ r.index.keys := fun w hw =>
    Table.find?_eq_none_iff.1 (hnew w hw)
  have hid : (r.shelf d.kind).find? d.id = none := by
    rw [Table.find?_eq_none_iff, h.keys_shelf]
    -- An id on the shelf is a word of the index, which has none of the new words.
    intro hmem
    refine hkeys d.id List.mem_cons_self ?_
    rw [h.keys_index]
    exact (ids_sublist_words ds).subset ((List.filter_sublist.map _).subset hmem)
  have hshelf : ((r.shelf d.kind).insert d.id d).entries
      = (r.shelf d.kind).entries ++ [(d.id, d)] :=
    Table.entries_insert_of_find?_none hid
  constructor
  case index =>
    rw [Registry.add, entries_foldl_insert _ _ _ hkeys hnodup, h.index]
    simp [Definition.entries]
  case distinct =>
    simp only [List.flatMap_append, List.flatMap_cons, List.flatMap_nil, List.append_nil]
    refine List.nodup_append.2 ⟨h.distinct, hnodup, fun w hw w' hw' heq => ?_⟩
    rw [← h.keys_index] at hw
    exact hkeys w' hw' (heq ▸ hw)
  case shelves => exact Table.nodup_keys_insert _ _ h.shelves
  case shelf =>
    intro kind
    rw [shelf_add]
    split
    · next hkind => rw [hshelf, h.shelf]; simp [hkind]
    · next hkind => rw [h.shelf]; simp [hkind]
  case size =>
    have hsize : ((r.shelf d.kind).insert d.id d).size = (r.shelf d.kind).size + 1 := by
      simp [Table.size, hshelf]
    have hadd := r.size_add d
    rw [List.length_append, List.length_singleton, ← h.size]
    omega
  case fit =>
    intro d' hd'
    rcases List.mem_append.1 hd' with hd' | hd'
    · exact h.fit d' hd'
    · rw [List.mem_singleton.1 hd']
      exact takesSlots_of_accept haccept

end Registry

end CueScript
