import CueScript.Storage.Disk
import Mathlib.Data.List.Basic

set_option autoImplicit false

/-! # What operations on a disk keep

A path leads through directories only, so it leads to the same place on every disk that still has
those directories. Making directories adds directories at places on the way of a path where nothing
was, and putting a file somewhere never takes a directory away; so places found before an operation
are found again after it. -/

namespace CueScript

namespace Disk

variable {d d' d'' : Disk} {place : List String}

/-! ## What is at a place -/

theorem at?_set (hplace : place ≠ []) (node : DiskNode) (q : List String) :
    (d.set place node).at? q = if place = q then some node else d.at? q := by
  cases q with
  | nil => rw [if_neg hplace]; rfl
  | cons name rest => exact Table.find?_insert _ _ _ _

/-- The one disk has every directory of the other, and the same home. -/
structure KeepsDirectories (d d' : Disk) : Prop where
  home : d'.home = d.home
  at? : ∀ q, d.at? q = some .directory → d'.at? q = some .directory

theorem KeepsDirectories.trans (h : KeepsDirectories d d') (h' : KeepsDirectories d' d'') :
    KeepsDirectories d d'' where
  home := h'.home.trans h.home
  at? q hq := h'.at? q (h.at? q hq)

/-! ## Following names -/

theorem follow_append (d : Disk) (place : List String) (names more : List String) :
    d.follow place (names ++ more) = (d.follow place names).bind (d.follow · more) := by
  induction names generalizing place with
  | nil => rfl
  | cons name rest ih =>
    rw [List.cons_append, follow, follow]
    cases d.at? place with
    | none => rfl
    | some node =>
      cases node with
      | file => rfl
      | directory =>
        simp only [ih]
        split_ifs <;> rfl

/-- A name that leads on leads one step down from a directory. -/
theorem follow_singleton {name : String} (hstays : staysPut name = false) (hup : name ≠ "..")
    {q : List String} (h : d.follow place [name] = .ok q) :
    d.at? place = some .directory ∧ q = place ++ [name] := by
  rw [follow] at h
  cases hat : d.at? place with
  | none => rw [hat] at h; cases h
  | some node =>
    cases node with
    | file => rw [hat] at h; cases h
    | directory =>
      simp only [hat, hstays, if_neg hup, Bool.false_eq_true, if_false] at h
      split at h
      · cases h
      · exact ⟨rfl, (Except.ok.inj h).symm⟩

theorem follow_of_keeps (h : KeepsDirectories d d') {names : List String} {q : List String}
    (hq : d.follow place names = .ok q) : d'.follow place names = .ok q := by
  induction names generalizing place with
  | nil => exact hq
  | cons name rest ih =>
    rw [follow] at hq ⊢
    cases hat : d.at? place with
    | none => rw [hat] at hq; cases hq
    | some node =>
      cases node with
      | file => rw [hat] at hq; cases hq
      | directory =>
        rw [hat] at hq
        rw [h.at? place hat]
        simp only at hq ⊢
        split_ifs at hq ⊢ with hstays hup hlong
        · exact ih hq
        · exact ih hq
        · exact ih hq

/-- A path leads to the same place on a disk that has the directories. -/
theorem locate_of_keeps (h : KeepsDirectories d d') {path : String} {q : List String}
    (hq : d.locate path = .ok q) : d'.locate path = .ok q := by
  have hroute : d'.route path = d.route path := by rw [route, route, h.home]
  rw [locate] at hq ⊢
  split_ifs at hq ⊢ with hnul hempty hlong
  rw [hroute]
  exact follow_of_keeps h hq

/-! ## The names of a path -/

theorem names_ne_nil (cs : List Char) : names cs ≠ [] := by
  cases cs with
  | nil => exact List.cons_ne_nil _ _
  | cons c cs =>
    rw [names]
    split
    · exact List.cons_ne_nil _ _
    · split <;> exact List.cons_ne_nil _ _

theorem names_cons_slash (cs : List Char) : names ('/' :: cs) = [] :: names cs := by
  rw [names]
  split
  · next h => exact absurd h (names_ne_nil cs)
  · next h => rw [if_pos rfl, h]

theorem names_of_not_mem {cs : List Char} (h : '/' ∉ cs) : names cs = [cs] := by
  induction cs with
  | nil => rfl
  | cons c cs ih =>
    rw [List.mem_cons, not_or] at h
    rw [names, ih h.2]
    exact if_neg (Ne.symm h.1)

/-- A slash ends one name and begins another one. -/
theorem names_append_slash (cs ds : List Char) :
    names (cs ++ '/' :: ds) = names cs ++ names ds := by
  induction cs with
  | nil => exact names_cons_slash ds
  | cons c cs ih =>
    obtain ⟨name, rest, hnames⟩ := List.exists_cons_of_ne_nil (names_ne_nil cs)
    rw [List.cons_append, names, names, ih, hnames]
    by_cases hc : c = '/' <;> simp [hc]

/-- Between the path of a directory and the name of a file there is one slash. -/
theorem toList_fileIn {directory : String} (h : directory ≠ "") :
    ∃ cs, (directory.toList = cs ∨ directory.toList = cs ++ ['/'])
      ∧ ∀ file, (fileIn directory file).toList = cs ++ '/' :: file.toList := by
  have hempty : directory.isEmpty = false := by simpa using h
  by_cases hlast : directory.toList.getLast? = some '/'
  · obtain ⟨cs, hcs⟩ := List.getLast?_eq_some_iff.1 hlast
    exact ⟨cs, .inr hcs, fun file => by simp [fileIn, hempty, hcs]⟩
  · exact ⟨_, .inl rfl, fun file => by simp [fileIn, hempty, hlast]⟩

/-- The path of a file in a directory leads along the names of the directory and then by the name of
    the file. An empty name at the end of the directory is not repeated. -/
theorem route_fileIn (d : Disk) (directory : String) :
    ∃ names, ((d.route directory).2 = names ∨ (d.route directory).2 = names ++ [""])
      ∧ ∀ file : String, file ≠ "" → '/' ∉ file.toList →
        d.route (fileIn directory file) = ((d.route directory).1, names ++ [file]) := by
  by_cases hempty : directory = ""
  · subst hempty
    refine ⟨[], .inr rfl, fun file _ hfile => ?_⟩
    have hhead : file.toList.head? ≠ some '/' := fun h => hfile (List.mem_of_mem_head? h)
    rw [fileIn, if_pos (by rfl), route, if_neg hhead, names_of_not_mem hfile]
    simp [route]
  · obtain ⟨cs, hcs, hpath⟩ := toList_fileIn hempty
    have hhead : ∀ file, (fileIn directory file).toList.head? = directory.toList.head? := by
      intro file
      rw [hpath]
      obtain hcs | hcs := hcs
      · rw [hcs, List.head?_append_of_ne_nil]
        rintro rfl
        exact hempty (by simpa using hcs)
      · rw [hcs]
        cases cs <;> rfl
    refine ⟨(names cs).map String.ofList, ?_, fun file _ hfile => ?_⟩
    · rw [route]
      obtain hcs | hcs := hcs
      · exact .inl (by rw [hcs])
      · refine .inr ?_
        rw [hcs, names_append_slash]
        simp [names]
    · rw [route, route, hhead, hpath, names_append_slash, names_of_not_mem hfile]
      simp

/-- A name that says which file of a directory is meant. -/
structure IsPlain (name : String) : Prop where
  ne_empty : name ≠ ""
  stays : staysPut name = false
  ne_up : name ≠ ".."
  not_mem : '/' ∉ name.toList

/-- The place of a file in a directory is one step from the place of the directory. -/
theorem follow_of_locate_fileIn (d : Disk) (directory : String) :
    ∃ names, ((d.route directory).2 = names ∨ (d.route directory).2 = names ++ [""])
      ∧ ∀ {file : String} {q : List String}, IsPlain file →
        d.locate (fileIn directory file) = .ok q →
        ∃ place, d.follow (d.route directory).1 names = .ok place
          ∧ d.at? place = some .directory ∧ q = place ++ [file] := by
  obtain ⟨names, hnames, hroute⟩ := route_fileIn d directory
  refine ⟨names, hnames, fun {file q} hfile hq => ?_⟩
  rw [locate] at hq
  split_ifs at hq
  rw [hroute file hfile.ne_empty hfile.not_mem, follow_append] at hq
  cases hplace : d.follow (d.route directory).1 names with
  | error e => rw [hplace] at hq; cases hq
  | ok place =>
    rw [hplace] at hq
    exact ⟨place, rfl, follow_singleton hfile.stays hfile.ne_up hq⟩

/-- Two files of a directory lie at the same place but for their names. -/
theorem locate_fileIn {directory a b : String} (ha : IsPlain a) (hb : IsPlain b)
    {p q : List String} (hp : d.locate (fileIn directory a) = .ok p)
    (hq : d.locate (fileIn directory b) = .ok q) :
    ∃ place, d.at? place = some .directory ∧ p = place ++ [a] ∧ q = place ++ [b] := by
  obtain ⟨names, -, hlast⟩ := follow_of_locate_fileIn d directory
  obtain ⟨place, hplace, hdirectory, rfl⟩ := hlast ha hp
  obtain ⟨place', hplace', -, rfl⟩ := hlast hb hq
  rw [hplace, Except.ok.injEq] at hplace'
  subst hplace'
  exact ⟨place, hdirectory, rfl, rfl⟩

/-! ## Making directories -/

/-- The places that names lead through from a place, if directories are there. -/
def through (place : List String) : List String → List (List String)
  | [] => []
  | name :: rest =>
    if staysPut name then through place rest
    else if name = ".." then through place.dropLast rest
    else (place ++ [name]) :: through (place ++ [name]) rest

/-- The places on the way of a path. -/
def way (d : Disk) (path : String) : List (List String) :=
  through (d.route path).1 (d.route path).2

/-- Names that never go up lead only through places above the one that they lead to. -/
theorem isPrefix_of_follow {names : List String} (hup : ".." ∉ names) {q : List String}
    (h : d.follow place names = .ok q) : ∀ p ∈ place :: through place names, p <+: q := by
  induction names generalizing place with
  | nil =>
    obtain rfl := Except.ok.inj h
    exact List.forall_mem_singleton.2 (List.prefix_refl _)
  | cons name rest ih =>
    rw [List.mem_cons, not_or] at hup
    rw [follow] at h
    rw [through]
    split at h
    · cases h
    · cases h
    · by_cases hstays : staysPut name = true
      · rw [if_pos hstays] at h ⊢
        exact ih hup.2 h
      · rw [if_neg hstays, if_neg (Ne.symm hup.1)] at h ⊢
        split_ifs at h
        have hbelow := ih hup.2 h
        refine List.forall_mem_cons.2 ⟨?_, hbelow⟩
        exact (List.prefix_append place [name]).trans (hbelow _ List.mem_cons_self)

/-- On a path that leads to a directory there are only directories. -/
theorem directory_of_follow {names : List String} {q : List String}
    (h : d.follow place names = .ok q) (hq : d.at? q = some .directory) :
    ∀ p ∈ place :: through place names, d.at? p = some .directory := by
  induction names generalizing place with
  | nil =>
    obtain rfl := Except.ok.inj h
    exact List.forall_mem_singleton.2 hq
  | cons name rest ih =>
    rw [follow] at h
    rw [through]
    split at h
    · cases h
    · cases h
    · next hplace =>
      rw [List.forall_mem_cons]
      refine ⟨hplace, ?_⟩
      by_cases hstays : staysPut name = true
      · rw [if_pos hstays] at h ⊢
        exact (List.forall_mem_cons.1 (ih h)).2
      · rw [if_neg hstays] at h ⊢
        by_cases hup : name = ".."
        · rw [if_pos hup] at h ⊢
          exact (List.forall_mem_cons.1 (ih h)).2
        · rw [if_neg hup] at h ⊢
          split_ifs at h
          exact ih h

/-- Longer names lead through all the places that their beginning leads through. -/
theorem through_subset_of_isPrefix {names longer : List String} (h : names <+: longer) :
    through place names ⊆ through place longer := by
  obtain ⟨more, rfl⟩ := h
  induction names generalizing place with
  | nil => exact List.nil_subset _
  | cons name rest ih =>
    rw [List.cons_append, through, through]
    split_ifs
    · exact ih
    · exact ih
    · exact List.cons_subset_cons _ ih

/-- Names that lead somewhere lead through their own places, and then on from there. -/
theorem through_append_of_follow {names : List String} {q : List String}
    (h : d.follow place names = .ok q) (more : List String) :
    through place (names ++ more) = through place names ++ through q more := by
  induction names generalizing place with
  | nil =>
    obtain rfl := Except.ok.inj h
    rfl
  | cons name rest ih =>
    rw [follow] at h
    rw [List.cons_append, through, through]
    split at h
    · cases h
    · cases h
    · split_ifs at h ⊢
      · exact ih h
      · exact ih h
      · rw [ih h, List.cons_append]

/-- The place that names lead to is one that they lead through, if the last one leads on. -/
theorem mem_through_of_follow {names : List String} {name : String}
    (hstays : staysPut name = false) (hup : name ≠ "..") {q : List String}
    (h : d.follow place (names ++ [name]) = .ok q) : q ∈ through place (names ++ [name]) := by
  rw [follow_append] at h
  cases hbefore : d.follow place names with
  | error e => rw [hbefore] at h; cases h
  | ok before =>
    rw [hbefore] at h
    obtain ⟨-, rfl⟩ := follow_singleton hstays hup h
    rw [through_append_of_follow hbefore, through, hstays, if_neg Bool.false_ne_true, if_neg hup]
    exact List.mem_append_right _ List.mem_cons_self

theorem through_concat_empty (place names : List String) :
    through place (names ++ [""]) = through place names := by
  induction names generalizing place with
  | nil => rfl
  | cons name rest ih => rw [List.cons_append, through, through]; simp only [ih]

/-- The way of a directory leads through places above those of its files, if it never goes up; and
    through directories only, if the place of a file can be found. -/
theorem way_of_locate_fileIn {directory file : String} (hfile : IsPlain file) {q : List String}
    (hq : d.locate (fileIn directory file) = .ok q) :
    (".." ∉ (d.route directory).2 → q ∉ d.way directory)
      ∧ ∀ p ∈ d.way directory, d.at? p = some .directory := by
  obtain ⟨names, hnames, hlast⟩ := follow_of_locate_fileIn d directory
  obtain ⟨place, hplace, hdirectory, rfl⟩ := hlast hfile hq
  have hway : d.way directory = through (d.route directory).1 names := by
    obtain hnames | hnames := hnames
    · rw [way, hnames]
    · rw [way, hnames, through_concat_empty]
  refine ⟨fun hup hmem => ?_, fun p hp => ?_⟩
  · have hnotup : ".." ∉ names := by
      obtain hnames | hnames := hnames
      · rwa [hnames] at hup
      · rw [hnames] at hup
        exact fun h => hup (List.mem_append_left _ h)
    rw [hway] at hmem
    have habove := (isPrefix_of_follow hnotup hplace _ (List.mem_cons_of_mem _ hmem)).length_le
    rw [List.length_append, List.length_singleton] at habove
    omega
  · rw [hway] at hp
    exact directory_of_follow hplace hdirectory p (List.mem_cons_of_mem _ hp)

/-- A place is as it was, or it is one of some places where nothing was, and now a directory is. -/
def Kept (places : List (List String)) (d d' : Disk) (q : List String) : Prop :=
  d'.at? q = d.at? q ∨ q ∈ places ∧ d.at? q = none ∧ d'.at? q = some .directory

theorem Kept.of_eq {places : List (List String)} {q : List String} (h : Kept places d d' q)
    (heq : d''.at? q = d'.at? q) : Kept places d d'' q := by
  rwa [Kept, heq]

/-- The one disk is the other with directories added at some of the places. -/
structure Grown (places : List (List String)) (d d' : Disk) : Prop where
  home : d'.home = d.home
  nodup : d.nodes.keys.Nodup → d'.nodes.keys.Nodup
  kept : ∀ q, Kept places d d' q

theorem Grown.refl (places : List (List String)) (d : Disk) : Grown places d d :=
  ⟨rfl, id, fun _ => .inl rfl⟩

theorem Grown.mono {places more : List (List String)} (h : Grown places d d')
    (hsub : places ⊆ more) : Grown more d d' where
  home := h.home
  nodup := h.nodup
  kept q := (h.kept q).imp_right (And.imp_left (@hsub q))

theorem Grown.keepsDirectories {places : List (List String)} (h : Grown places d d') :
    KeepsDirectories d d' where
  home := h.home
  at? q hq := by
    obtain heq | ⟨-, -, hnew⟩ := h.kept q
    · rw [heq, hq]
    · exact hnew

theorem Grown.trans {places : List (List String)} (h : Grown places d d')
    (h' : Grown places d' d'') : Grown places d d'' where
  home := h'.home.trans h.home
  nodup := h'.nodup ∘ h.nodup
  kept q := by
    obtain heq | ⟨hmem, hnone, hnew⟩ := h'.kept q
    · exact (h.kept q).of_eq heq
    obtain hsame | ⟨-, -, hthere⟩ := h.kept q
    · exact .inr ⟨hmem, hsame ▸ hnone, hnew⟩
    · rw [hthere] at hnone
      cases hnone

/-- One more directory, where nothing was. -/
theorem grown_set {places : List (List String)} (hmem : place ∈ places)
    (hplace : d.at? place = none) : Grown places d (d.set place .directory) := by
  have hne : place ≠ [] := by
    rintro rfl
    cases hplace
  refine ⟨rfl, Table.nodup_keys_insert _ _, fun q => ?_⟩
  rw [Kept, at?_set hne]
  by_cases heq : place = q
  · subst heq
    exact .inr ⟨hmem, hplace, if_pos rfl⟩
  · exact .inl (if_neg heq)

/-- A directory that is made stands at a place on the way where nothing was. -/
theorem makeDirectory_eq_ok {names : List String} (h : d.makeDirectory place names = .ok d') :
    ∃ inner ∈ through place names, d.at? inner = none ∧ d' = d.set inner .directory := by
  rw [makeDirectory] at h
  split at h
  · cases h
  · next name before hrev =>
    -- What comes after the last name are slashes.
    have hnames : before.reverse ++ [name] <+: names := by
      refine ⟨(names.reverse.takeWhile String.isEmpty).reverse, ?_⟩
      rw [← List.reverse_cons, ← hrev, ← List.reverse_append, List.takeWhile_append_dropWhile,
        List.reverse_reverse]
    have hempty : name.isEmpty = false := by
      have hhead := List.head?_dropWhile_not String.isEmpty names.reverse
      rw [hrev] at hhead
      simpa using hhead
    cases hinner : d.follow place (before.reverse ++ [name]) with
    | error e => rw [hinner] at h; cases h
    | ok inner =>
      simp only [hinner, bind, Except.bind] at h
      split_ifs at h with hthere
      simp only [Bool.or_eq_true, decide_eq_true_eq, not_or, Bool.not_eq_true,
        Option.isSome_eq_false_iff, Option.isNone_iff_eq_none] at hthere
      obtain ⟨⟨hdot, hup⟩, hnone⟩ := hthere
      have hstays : staysPut name = false := by simp [staysPut, hempty, hdot]
      exact ⟨inner, through_subset_of_isPrefix hnames (mem_through_of_follow hstays hup hinner),
        hnone, (Except.ok.inj h).symm⟩

theorem grown_ensureDirectory (d : Disk) (place names : List String) :
    Grown (through place names) d (d.ensureDirectory place names).2 := by
  rw [ensureDirectory]
  split
  · next d' hmake =>
    obtain ⟨inner, hmem, hnone, rfl⟩ := makeDirectory_eq_ok hmake
    exact grown_set hmem hnone
  · exact .refl _ d

theorem isPrefix_of_mem_beginnings {names : List String} :
    ∀ b ∈ beginnings names, b <+: names := by
  induction names with
  | nil => simp [beginnings]
  | cons name rest ih =>
    intro b hb
    rw [beginnings, List.mem_append, List.mem_map] at hb
    obtain ⟨b, hb, rfl⟩ | hb := hb
    · exact (List.prefix_cons_inj _).2 (ih b hb)
    · split_ifs at hb
      · cases hb
      · rw [List.mem_singleton.1 hb]
        exact List.prefix_append [name] rest

/-- Making directories, however far that goes, adds directories on the way. -/
theorem grown_makeAll {names : List String} {paths : List (List String)}
    (hpaths : ∀ path ∈ paths, path <+: names) (d : Disk) :
    Grown (through place names) d (d.makeAll place paths).2 := by
  -- The induction is on the paths, the one for the whole first; those above it are made before.
  induction paths generalizing d with
  | nil => exact .refl _ d
  | cons path above ih =>
    obtain ⟨hpath, habove⟩ := List.forall_mem_cons.1 hpaths
    have hensure : ∀ d, Grown (through place names) d (d.ensureDirectory place path).2 := fun d =>
      (grown_ensureDirectory d place path).mono (through_subset_of_isPrefix hpath)
    rw [makeAll]
    split
    · have hrest := ih habove d
      split
      · next d' hmade =>
        rw [hmade] at hrest
        exact hrest.trans (hensure d')
      · exact hrest
    · exact hensure d

theorem grown_makeWay (d : Disk) (path : String) : Grown (d.way path) d (d.makeWay path).2 := by
  rw [makeWay]
  split_ifs
  · exact .refl _ d
  · exact .refl _ d
  · exact .refl _ d
  · refine grown_makeAll (List.forall_mem_cons.2 ⟨List.prefix_refl _, fun path hpath => ?_⟩) d
    exact isPrefix_of_mem_beginnings path (List.mem_of_mem_tail hpath)

/-- A `.` at the end asks for a directory that is not there yet, but what lies above it was made. -/
example : Disk.empty.makeWay "a/conf/." = (.error .notFound, Disk.empty.set ["a"] .directory) := rfl

/-! ## Files -/

theorem put_eq_ok_iff {text : Option String} :
    d.put place text = .ok d'
      ↔ d.at? place ≠ some .directory ∧ d' = d.set place (.file text) := by
  rw [put]
  split_ifs with h
  · simp [h]
  · simp [h, eq_comm]

theorem ne_nil_of_not_directory (h : d.at? place ≠ some .directory) : place ≠ [] := by
  rintro rfl
  exact h rfl

/-- A file that is put somewhere is there, and nothing else changes. -/
theorem at?_of_put {text : Option String} (h : d.put place text = .ok d') (q : List String) :
    d'.at? q = if place = q then some (.file text) else d.at? q := by
  obtain ⟨hplace, rfl⟩ := put_eq_ok_iff.1 h
  exact at?_set (ne_nil_of_not_directory hplace) _ q

theorem keepsDirectories_of_put {text : Option String} (h : d.put place text = .ok d') :
    KeepsDirectories d d' where
  home := by
    obtain ⟨-, rfl⟩ := put_eq_ok_iff.1 h
    rfl
  at? q hq := by
    rw [at?_of_put h, if_neg, hq]
    rintro rfl
    exact (put_eq_ok_iff.1 h).1 hq

theorem nodup_of_put {text : Option String} (h : d.put place text = .ok d')
    (hd : d.nodes.keys.Nodup) : d'.nodes.keys.Nodup := by
  obtain ⟨-, rfl⟩ := put_eq_ok_iff.1 h
  exact Table.nodup_keys_insert _ _ hd

theorem write_eq_ok_iff {path text : String} :
    d.write path text = .ok d'
      ↔ ∃ place, d.locate path = .ok place ∧ d.put place (some text) = .ok d' := by
  rw [write]
  cases d.locate path <;> simp [bind, Except.bind]

theorem at?_erase (hd : d.nodes.keys.Nodup) (hplace : place ≠ []) (q : List String) :
    ({ d with nodes := d.nodes.erase place } : Disk).at? q
      = if place = q then none else d.at? q := by
  cases q with
  | nil => rw [if_neg hplace]; rfl
  | cons name rest => exact Table.find?_erase hd _ _

/-- The steps of moving a file. -/
theorem exists_of_rename {source path : String} (h : d.rename source path = .ok d') :
    ∃ old new text d₁, d.locate source = .ok old ∧ d.locate path = .ok new
      ∧ d.at? old = some (.file text) ∧ d.put new text = .ok d₁
      ∧ d' = if new = old then d₁ else { d₁ with nodes := d₁.nodes.erase old } := by
  rw [rename] at h
  cases hold : d.locate source with
  | error e => rw [hold] at h; cases h
  | ok old =>
    cases hnew : d.locate path with
    | error e => rw [hold, hnew] at h; cases h
    | ok new =>
      simp only [hold, hnew, bind, Except.bind] at h
      split at h
      · cases h
      · cases h
      · next text hat =>
        cases hput : d.put new text with
        | error e => rw [hput] at h; cases h
        | ok d₁ =>
          rw [hput] at h
          exact ⟨old, new, text, d₁, rfl, rfl, hat, hput, (Except.ok.inj h).symm⟩

/-- Moving a file takes it away from where it was and puts it where the other path leads; nothing
    else changes. -/
theorem rename_eq_ok {source path : String} (hd : d.nodes.keys.Nodup)
    (h : d.rename source path = .ok d') :
    ∃ old new text, d.locate source = .ok old ∧ d.locate path = .ok new
      ∧ d.at? old = some (.file text) ∧ KeepsDirectories d d'
      ∧ ∀ q, d'.at? q = if new = q then some (.file text)
          else if old = q then none else d.at? q := by
  obtain ⟨old, new, text, d₁, hold, hnew, hat, hput, rfl⟩ := exists_of_rename h
  have holdne : old ≠ [] := by
    rintro rfl
    cases hat
  have hafter : ∀ q, (if new = old then d₁ else { d₁ with nodes := d₁.nodes.erase old }).at? q
      = if new = q then some (.file text) else if old = q then none else d.at? q := by
    intro q
    by_cases hsame : new = old
    · subst hsame
      rw [if_pos rfl, at?_of_put hput]
      split_ifs <;> rfl
    · rw [if_neg hsame, at?_erase (nodup_of_put hput hd) holdne, at?_of_put hput]
      by_cases hq : old = q
      · subst hq
        simp [hsame]
      · simp [hq]
  refine ⟨old, new, text, hold, hnew, hat, ⟨?_, fun q hq => ?_⟩, hafter⟩
  · have hhome := (keepsDirectories_of_put hput).home
    split_ifs <;> exact hhome
  · -- Neither the place that is left nor the one that is taken is a directory.
    have hnewq : new ≠ q := by
      rintro rfl
      exact (put_eq_ok_iff.1 hput).1 hq
    have holdq : old ≠ q := by
      rintro rfl
      rw [hat] at hq
      cases hq
    rw [hafter, if_neg hnewq, if_neg holdq, hq]

/-! ## Storage that may refuse -/

theorem change_eq_ok_iff {f : Disk → Except StorageFault Disk} :
    change f d = (.ok (), d') ↔ f d = .ok d' := by
  rw [change]
  cases f d with
  | error e => exact iff_of_false (fun h => by cases h) (fun h => by cases h)
  | ok d₁ => exact ⟨fun h => by cases h; rfl, fun h => by cases h; rfl⟩

theorem change_eq_error_iff {f : Disk → Except StorageFault Disk} {fault : StorageFault} :
    change f d = (.error fault, d') ↔ f d = .error fault ∧ d' = d := by
  rw [change]
  cases f d with
  | error e => exact ⟨fun h => by cases h; exact ⟨rfl, rfl⟩, fun ⟨h, hd⟩ => by cases h; rw [hd]⟩
  | ok d₁ => exact iff_of_false (fun h => by cases h) (fun h => by cases h.1)

/-- A storage that keeps its files on a disk and does what the disk does, but may refuse to change
    it for reasons that the disk does not know of. Then making directories has stopped anywhere on
    the way, a file to be written holds anything or is as it was, and a file to be moved has not
    been moved. -/
structure Serves (storage : Storage (StateM Disk)) : Prop where
  read : ∀ d path, storage.read path d = (d.read path, d)
  makeDirectories : ∀ d path, storage.makeDirectories path d = d.makeWay path
    ∨ ∃ fault d', storage.makeDirectories path d = (.error fault, d') ∧ Grown (d.way path) d d'
  write : ∀ d path text, storage.write path text d = change (·.write path text) d
    ∨ ∃ fault d', storage.write path text d = (.error fault, d')
      ∧ (d' = d ∨ ∃ place part, d.locate path = .ok place ∧ d.put place part = .ok d')
  rename : ∀ d source path, storage.rename source path d = change (·.rename source path) d
    ∨ ∃ fault, storage.rename source path d = (.error fault, d)

/-- The storage that never refuses but where the disk does. -/
theorem serves_storage : Serves storage where
  read _ _ := rfl
  makeDirectories _ _ := .inl rfl
  write _ _ _ := .inl rfl
  rename _ _ _ := .inl rfl

namespace Serves

variable {storage : Storage (StateM Disk)} {path text source : String} {fault : StorageFault}

theorem grown (h : Serves storage) {answer : Except StorageFault Unit}
    (hmake : storage.makeDirectories path d = (answer, d')) : Grown (d.way path) d d' := by
  obtain heq | ⟨fault, d'', heq, hgrown⟩ := h.makeDirectories d path
  · rw [hmake] at heq
    have hgrown := grown_makeWay d path
    rwa [← heq] at hgrown
  · rw [hmake, Prod.mk.injEq] at heq
    rwa [heq.2]

theorem write_of_ok (h : Serves storage) (hwrite : storage.write path text d = (.ok (), d')) :
    d.write path text = .ok d' := by
  obtain heq | ⟨fault, d'', heq, -⟩ := h.write d path text
  · rwa [hwrite, eq_comm, change_eq_ok_iff] at heq
  · rw [hwrite] at heq
    cases heq

theorem put_of_error (h : Serves storage)
    (hwrite : storage.write path text d = (.error fault, d')) :
    d' = d ∨ ∃ place part, d.locate path = .ok place ∧ d.put place part = .ok d' := by
  obtain heq | ⟨fault', d'', heq, hput⟩ := h.write d path text
  · rw [hwrite, eq_comm, change_eq_error_iff] at heq
    exact .inl heq.2
  · rw [hwrite, Prod.mk.injEq] at heq
    rwa [heq.2]

theorem rename_of_ok (h : Serves storage) (hmove : storage.rename source path d = (.ok (), d')) :
    d.rename source path = .ok d' := by
  obtain heq | ⟨fault, heq⟩ := h.rename d source path
  · rwa [hmove, eq_comm, change_eq_ok_iff] at heq
  · rw [hmove] at heq
    cases heq

theorem eq_of_rename_error (h : Serves storage)
    (hmove : storage.rename source path d = (.error fault, d')) : d' = d := by
  obtain heq | ⟨fault', heq⟩ := h.rename d source path
  · rw [hmove, eq_comm, change_eq_error_iff] at heq
    exact heq.2
  · rw [hmove, Prod.mk.injEq] at heq
    exact heq.2

end Serves

end Disk

end CueScript
