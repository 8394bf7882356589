import CueScript.Proofs.Failure
import CueScript.Proofs.Json.Records
import CueScript.Proofs.Storage.Disk
import CueScript.Settings

set_option autoImplicit false

/-! # Settings that are saved

Saving makes the directory, writes a draft beside the settings file, and moves the draft over the
file. Each of the three steps can be refused. After the last step the draft is gone, every other
file is as it was, and loading reads the text that was written, which is read back as the settings.

Whatever is refused, the settings file is as it was: nothing but the last step is meant for it, and
that step is done or not done. The one thing that can come in its way is a missing directory whose
path goes through the settings file and up again. Then the first step makes a directory where no
file was yet (`save_through_settings_file`), so what is said of the file asks that its directory was
there or that the path never goes up.

All this is shown for any storage that serves a disk, so also for one that refuses to write for
reasons of its own. -/

namespace CueScript

namespace Settings

open Json (Shape)

variable {s : Settings}

/-! ## The text of settings -/

theorem exact_toJson (hversion : s.version < 4294967296) : s.toJson.Exact := by
  refine .object ?_
  simp only [List.forall_mem_cons]
  exact ⟨.integer (by omega) (by rw [Json.naturalLimit]; omega), .string _, .bool _, .string _,
    Json.exact_ofOption .string _, List.forall_mem_nil _⟩

theorem decode_toJson (hversion : s.version < 4294967296) :
    shape.decode {} s.toJson.reading
      = .ok ⟨some s.version, some s.separator, some s.lowercase, some s.unknownWords,
          some s.catalog⟩ := by
  have hword : (Json.count s.version).reading.asWord = .ok s.version := by
    have hlow : (0 : Int) ≤ s.version := Int.natCast_nonneg _
    have hhigh : (s.version : Int) < 4294967296 := by omega
    simp [Json.count, Json.reading, Json.Reading.asWord, hlow, hhigh]
  have hchoice : (Json.string s.unknownWords.name).reading.asChoice UnknownWords.choices
      = .ok s.unknownWords := by
    cases s.unknownWords <;> rfl
  have hcatalog : (Json.ofOption .string s.catalog).reading.asOptional (·.asText "path string")
      = .ok s.catalog :=
    Json.asOptional_ofOption (fun _ => Json.Reading.noConfusion) (fun _ => rfl) s.catalog
  rw [toJson, Json.reading]
  refine Shape.decode_object ?_ (by simp [shape])
  simp only [Json.readingMembers]
  refine Eq.trans (Shape.setMembers_cons rfl rfl (by simp only [hword]; rfl) _) ?_
  refine Eq.trans (Shape.setMembers_cons rfl rfl rfl _) ?_
  refine Eq.trans (Shape.setMembers_cons rfl rfl rfl _) ?_
  refine Eq.trans (Shape.setMembers_cons rfl rfl (by simp only [hchoice]; rfl) _) ?_
  refine Eq.trans (Shape.setMembers_cons rfl rfl (by simp only [hcatalog]; rfl) _) ?_
  rfl

/-- Settings are read back from their own text. -/
theorem ofText_pretty (hversion : s.version < 4294967296) : ofText s.toJson.pretty = .ok s := by
  rw [ofText, Json.decodeText_of_read _ (Json.read_pretty (exact_toJson hversion)),
    decode_toJson hversion]
  rfl

/-- A file with the text of settings holds them, if they are of this version. -/
theorem ofFile_pretty (hversion : s.version < 4294967296) :
    ofFile s.toJson.pretty
      = if s.version = currentVersion then .ok s else .error (.unsupportedVersion s.version) := by
  rw [ofFile, ofText_pretty hversion]
  rfl

/-! ## Saving and loading -/

theorem isPlain_fileName : Disk.IsPlain fileName :=
  ⟨by decide, by decide, by decide, by decide⟩

theorem isPlain_draftName : Disk.IsPlain draftName :=
  ⟨by decide, by decide, by decide, by decide⟩

variable {storage : Storage (StateM Disk)} {directory : String} {d d' : Disk}

/-- Saving on a disk, step by step. -/
theorem save_eq (storage : Storage (StateM Disk)) (directory : String) (s : Settings) (d : Disk) :
    save storage directory s d =
      match storage.makeDirectories directory d with
      | (.error fault, d₁) => (.error (.storage fault), d₁)
      | (.ok (), d₁) =>
        match storage.write (fileIn directory draftName) s.toJson.pretty d₁ with
        | (.error fault, d₂) => (.error (.storage fault), d₂)
        | (.ok (), d₂) =>
          match storage.rename (fileIn directory draftName) (fileIn directory fileName) d₂ with
          | (.error fault, d₃) => (.error (.storage fault), d₃)
          | (.ok (), d₃) => (.ok (), d₃) := by
  rw [save, bind_apply]
  rcases storage.makeDirectories directory d with ⟨made, d₁⟩
  cases made with
  | error fault => rfl
  | ok =>
    simp only [bind_apply]
    rcases storage.write (fileIn directory draftName) s.toJson.pretty d₁ with ⟨written, d₂⟩
    cases written with
    | error fault => rfl
    | ok =>
      simp only [bind_apply]
      rcases storage.rename (fileIn directory draftName) (fileIn directory fileName) d₂
        with ⟨moved, d₃⟩
      cases moved <;> rfl

/-- Saving that succeeds is three steps that succeed. -/
theorem save_of_ok (hstorage : Disk.Serves storage)
    (hsave : save storage directory s d = (.ok (), d')) :
    ∃ d₁ d₂, Disk.Grown (d.way directory) d d₁
      ∧ d₁.write (fileIn directory draftName) s.toJson.pretty = .ok d₂
      ∧ d₂.rename (fileIn directory draftName) (fileIn directory fileName) = .ok d' := by
  rw [save_eq] at hsave
  split at hsave
  · cases hsave
  · next d₁ hmake =>
    split at hsave
    · cases hsave
    · next d₂ hwrite =>
      split at hsave
      · cases hsave
      · next d₃ hmove =>
        cases hsave
        exact ⟨d₁, d₂, hstorage.grown hmake, hstorage.write_of_ok hwrite,
          hstorage.rename_of_ok hmove⟩

/-- Saving that fails has changed nothing but directories on the way and the draft. -/
theorem save_of_error (hstorage : Disk.Serves storage) {e : SettingsError}
    (hsave : save storage directory s d = (.error e, d')) :
    ∃ d₁, Disk.Grown (d.way directory) d d₁
      ∧ (d' = d₁ ∨ ∃ place part, d₁.locate (fileIn directory draftName) = .ok place
          ∧ d₁.put place part = .ok d') := by
  rw [save_eq] at hsave
  split at hsave
  · next fault d₁ hmake =>
    cases hsave
    exact ⟨_, hstorage.grown hmake, .inl rfl⟩
  · next d₁ hmake =>
    refine ⟨d₁, hstorage.grown hmake, ?_⟩
    split at hsave
    · next fault d₂ hwrite =>
      cases hsave
      exact hstorage.put_of_error hwrite
    · next d₂ hwrite =>
      -- The draft is complete, and it has not been moved.
      obtain ⟨place, hplace, hput⟩ := Disk.write_eq_ok_iff.1 (hstorage.write_of_ok hwrite)
      split at hsave
      · next fault d₃ hmove =>
        cases hsave
        rw [hstorage.eq_of_rename_error hmove]
        exact .inr ⟨place, _, hplace, hput⟩
      · cases hsave

/-- The draft is not the settings file. -/
theorem place_ne {file draft : List String}
    (hfile : d.locate (fileIn directory fileName) = .ok file)
    (hdraft : d.locate (fileIn directory draftName) = .ok draft) : file ≠ draft := by
  obtain ⟨place, -, rfl, rfl⟩ := Disk.locate_fileIn isPlain_fileName isPlain_draftName hfile hdraft
  intro heq
  rw [List.append_right_inj, List.singleton_inj] at heq
  exact absurd heq (by decide)

/-- Loading reads the settings file. -/
theorem load_of_file (hstorage : Disk.Serves storage) (hversion : s.version < 4294967296)
    {file : List String} (hfile : d.locate (fileIn directory fileName) = .ok file)
    (htext : d.at? file = some (.file (some s.toJson.pretty))) :
    load storage directory d
      = (if s.version = currentVersion then .ok (some s)
          else .error (.unsupportedVersion s.version), d) := by
  have hread : d.read (fileIn directory fileName) = .ok s.toJson.pretty := by
    rw [Disk.read, hfile]
    simp only [bind, Except.bind, htext]
    rfl
  rw [load, bind_apply, hstorage.read, hread]
  simp only [ofFile_pretty hversion]
  split_ifs <;> rfl

/-- After saving the file holds the text of the settings, and the draft is gone. -/
theorem places_of_ok (hstorage : Disk.Serves storage) (hd : d.nodes.keys.Nodup)
    (hsave : save storage directory s d = (.ok (), d')) :
    ∃ file draft, d'.locate (fileIn directory fileName) = .ok file
      ∧ d'.locate (fileIn directory draftName) = .ok draft
      ∧ d'.at? file = some (.file (some s.toJson.pretty)) ∧ d'.at? draft = none
      ∧ ∀ q, q ≠ file → q ≠ draft → Disk.Kept (d.way directory) d d' q := by
  obtain ⟨d₁, d₂, hgrown, hwrite, hmove⟩ := save_of_ok hstorage hsave
  obtain ⟨draft, hdraft, hput⟩ := Disk.write_eq_ok_iff.1 hwrite
  have hnodup := Disk.nodup_of_put hput (hgrown.nodup hd)
  obtain ⟨old, file, text, hold, hfile, hat, hkeeps, hafter⟩ := Disk.rename_eq_ok hnodup hmove
  -- The file that is moved is the draft, with the text of the settings.
  have hsame : d₂.locate (fileIn directory draftName) = .ok draft :=
    Disk.locate_of_keeps (Disk.keepsDirectories_of_put hput) hdraft
  rw [hold, Except.ok.injEq] at hsame
  subst hsame
  rw [Disk.at?_of_put hput, if_pos rfl, Option.some.injEq, DiskNode.file.injEq] at hat
  subst hat
  refine ⟨file, old, Disk.locate_of_keeps hkeeps hfile, Disk.locate_of_keeps hkeeps hold, ?_, ?_,
    fun q hfileq hdraftq => ?_⟩
  · rw [hafter, if_pos rfl]
  · rw [hafter, if_neg (place_ne hfile hold), if_pos rfl]
  · refine Disk.Kept.of_eq (hgrown.kept q) ?_
    rw [hafter, if_neg (Ne.symm hfileq), if_neg (Ne.symm hdraftq), Disk.at?_of_put hput,
      if_neg (Ne.symm hdraftq)]

/-- A failed saving leaves every place but that of the draft as it was, but for new directories. -/
theorem kept_of_error (hstorage : Disk.Serves storage) {e : SettingsError}
    (hsave : save storage directory s d = (.error e, d')) :
    Disk.KeepsDirectories d d'
      ∧ ∀ q, d'.locate (fileIn directory draftName) ≠ .ok q →
          Disk.Kept (d.way directory) d d' q := by
  obtain ⟨d₁, hgrown, rfl | ⟨place, part, hplace, hput⟩⟩ := save_of_error hstorage hsave
  · exact ⟨hgrown.keepsDirectories, fun q _ => hgrown.kept q⟩
  · have hkeeps := Disk.keepsDirectories_of_put hput
    refine ⟨hgrown.keepsDirectories.trans hkeeps, fun q hq => .of_eq (hgrown.kept q) ?_⟩
    have hne : place ≠ q := by
      rintro rfl
      exact hq (Disk.locate_of_keeps hkeeps hplace)
    rw [Disk.at?_of_put hput, if_neg hne]

/-- A failed saving leaves the settings file as it was, if its directory was there or its path never
    goes up. -/
theorem file_of_error (hstorage : Disk.Serves storage) {e : SettingsError}
    (hsave : save storage directory s d = (.error e, d')) {file : List String}
    (hfile : d.locate (fileIn directory fileName) = .ok file
      ∨ d'.locate (fileIn directory fileName) = .ok file ∧ ".." ∉ (d.route directory).2) :
    d'.at? file = d.at? file := by
  obtain ⟨hkeeps, hkept⟩ := kept_of_error hstorage hsave
  have hafter : d'.locate (fileIn directory fileName) = .ok file :=
    hfile.elim (Disk.locate_of_keeps hkeeps) And.left
  obtain heq | ⟨hway, hnone, -⟩ := hkept file fun hdraft => place_ne hafter hdraft rfl
  · exact heq
  exfalso
  obtain hthere | ⟨-, hup⟩ := hfile
  · -- On the way of a directory that is there nothing is missing.
    rw [(Disk.way_of_locate_fileIn isPlain_fileName hthere).2 file hway] at hnone
    cases hnone
  · have hroute : d'.route directory = d.route directory := by
      rw [Disk.route, Disk.route, hkeeps.home]
    have hnot := (Disk.way_of_locate_fileIn isPlain_fileName hafter).1
    rw [Disk.way, hroute] at hnot
    exact hnot hup hway

/-- **Settings survive saving and loading, and a failed saving loses nothing.** Take any settings,
    any path of a directory and any disk, and a storage that may refuse whatever it likes.

    If saving succeeds, loading gives exactly these settings, or refuses them if they are of another
    version. The file holds their text, the draft is gone, and every other place is as it was, but
    for directories on the way of the path that were missing.

    If saving fails, every place but that of the draft is as it was, but for such directories. The
    settings file in particular is as it was, if its directory was there, or if the path of the
    directory never goes up, so that it cannot lead through the settings file itself. -/
theorem save_then_load (hstorage : Disk.Serves storage) (hd : d.nodes.keys.Nodup)
    (hversion : s.version < 4294967296) {answer : Except SettingsError Unit}
    (hsave : save storage directory s d = (answer, d')) :
    (answer = .ok () →
      load storage directory d'
        = (if s.version = currentVersion then .ok (some s)
            else .error (.unsupportedVersion s.version), d')
      ∧ ∃ file draft, d'.locate (fileIn directory fileName) = .ok file
        ∧ d'.locate (fileIn directory draftName) = .ok draft
        ∧ d'.at? file = some (.file (some s.toJson.pretty)) ∧ d'.at? draft = none
        ∧ ∀ q, q ≠ file → q ≠ draft → Disk.Kept (d.way directory) d d' q)
    ∧ (∀ e, answer = .error e →
      (∀ q, d'.locate (fileIn directory draftName) ≠ .ok q → Disk.Kept (d.way directory) d d' q)
      ∧ ∀ file, d.locate (fileIn directory fileName) = .ok file
          ∨ d'.locate (fileIn directory fileName) = .ok file ∧ ".." ∉ (d.route directory).2 →
        d'.at? file = d.at? file) := by
  refine ⟨?_, ?_⟩
  · rintro rfl
    obtain ⟨file, draft, hfile, hdraft, htext, hplaces⟩ := places_of_ok hstorage hd hsave
    exact ⟨load_of_file hstorage hversion hfile htext, file, draft, hfile, hdraft, htext, hplaces⟩
  · rintro e rfl
    exact ⟨(kept_of_error hstorage hsave).2, fun file => file_of_error hstorage hsave⟩

/-- A new directory, settings of another version, and a directory in the place of the settings
    file. -/
theorem save_then_load_conf :
    let s : Settings := { separator := "\"", unknownWords := .warn, catalog := some "words.json" }
    let later : Settings := { s with version := 7 }
    let saved := (save Disk.storage "conf" s Disk.empty).2
    let newer := (save Disk.storage "conf" later Disk.empty).2
    let blocked := (Disk.empty.set ["conf"] .directory).set ["conf", "settings.json"] .directory
    let kept := (save Disk.storage "conf" s blocked).2
    (save Disk.storage "conf" s Disk.empty = (.ok (), saved)
        ∧ load Disk.storage "conf" saved = (.ok (some s), saved))
      ∧ (save Disk.storage "conf" later Disk.empty = (.ok (), newer)
        ∧ load Disk.storage "conf" newer = (.error (.unsupportedVersion 7), newer))
      ∧ save Disk.storage "conf" s blocked = (.error (.storage .isDirectory), kept)
        ∧ kept.at? ["conf", "settings.json"] = some .directory := by
  intro s later saved newer blocked kept
  have hempty : Disk.empty.nodes.keys.Nodup := List.nodup_nil
  have hnodup : blocked.nodes.keys.Nodup := by decide
  have hsaved : save Disk.storage "conf" s Disk.empty = (.ok (), saved) := Prod.ext rfl rfl
  have hnewer : save Disk.storage "conf" later Disk.empty = (.ok (), newer) := Prod.ext rfl rfl
  have hkept : save Disk.storage "conf" s blocked = (.error (.storage .isDirectory), kept) :=
    Prod.ext rfl rfl
  have hfile : blocked.locate (fileIn "conf" fileName) = .ok ["conf", "settings.json"] := rfl
  refine ⟨⟨hsaved, ?_⟩, ⟨hnewer, ?_⟩, hkept, ?_⟩
  · exact ((save_then_load Disk.serves_storage hempty (by decide) hsaved).1 rfl).1
  · exact ((save_then_load Disk.serves_storage hempty (by decide) hnewer).1 rfl).1
  · exact ((save_then_load Disk.serves_storage hnodup (by decide) hkept).2 _ rfl).2 _ (.inl hfile)

/-- A path that leads through the settings file and up again. The directory that is made on the way
    stands where the file was to come, so the draft cannot be moved there, and from then on settings
    are not missing but cannot be read. -/
theorem save_through_settings_file :
    let directory := "x/settings.json/.."
    let before := Disk.empty.set ["x"] .directory
    let after := (save Disk.storage directory {} before).2
    save Disk.storage directory {} before = (.error (.storage .isDirectory), after)
      ∧ (before.at? ["x", fileName] = none
        ∧ load Disk.storage directory before = (.ok none, before))
      ∧ after.locate (fileIn directory fileName) = .ok ["x", fileName]
      ∧ after.at? ["x", fileName] = some .directory
      ∧ load Disk.storage directory after = (.error (.storage .isDirectory), after) :=
  ⟨Prod.ext rfl rfl, ⟨rfl, rfl⟩, rfl, rfl, rfl⟩

end Settings

end CueScript
