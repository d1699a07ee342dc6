import StencilDesk.Proofs.Session.Effect

/-!
# Settings and the main configuration

The settings of a session are those of its main configuration as long as no move makes another file
the main configuration. Such a move keeps the settings, whatever the moved file says.
-/

namespace StencilDesk

/-- What a change may do to the settings that can be read from some files: they stay, or there are
none any more. -/
def Bundle.KeepsSettings (files next : List File) : Prop :=
  Session.settingsIn? next = Session.settingsIn? files ∨ Session.settingsIn? next = none

namespace Session

variable {σ : Type}

/-- Holds if the settings of a session are those of its main configuration, if there is one and
settings can be read from it. -/
def FollowsConfig (s : Session) : Prop :=
  ∀ settings, settingsIn? s.files = some settings → s.settings = settings

inductive BeginsRead : Session → Prop where
  | start (id : String) (files : List File) : BeginsRead (start id files)
  | loaded {directory : Directory} {root : Location} {id : String} {serial : Option Serial}
      {version : LoadedStencil} (h : Store.load directory root id serial = .ok version) :
      BeginsRead (ofLoaded version)

/-- Holds of a move after which another file is the main configuration: the one that was moved, or
one that had the same path as the one that was moved away. -/
def Operation.ReplacesConfig (s : Session) : Operation → Prop
  | .moveFile path new =>
      path ≠ new ∧ (path = File.mainConfigPath ∨ new = File.mainConfigPath) ∧
        ∃ next, Bundle.moveFile s.files path new = .ok next ∧
          File.existsAt next File.mainConfigPath = true
  | _ => False

def KeepsConfig (service : StoreService σ) (s : Session) (store : σ) : List Operation → Prop
  | [] => True
  | operation :: rest =>
      ¬operation.ReplacesConfig s ∧
        (s.perform service operation store).1.KeepsConfig service
          (s.perform service operation store).2 rest

/-!
## Settings in files
-/

section
variable {files next : List File}

theorem settingsIn?_congr
    (h : File.find? next File.mainConfigPath = File.find? files File.mainConfigPath) :
    settingsIn? next = settingsIn? files := by
  unfold settingsIn?
  rw [h]

theorem settingsIn?_of_find? {file : File} (h : File.find? files File.mainConfigPath = some file) :
    settingsIn? files = Settings.ofText? file.content := by
  unfold settingsIn?
  rw [h]
  rfl

theorem keepsSettings_createFile {parent name : String}
    (h : Bundle.createFile files parent name = .ok next) : Bundle.KeepsSettings files next := by
  by_cases hconfig : Path.join parent name = File.mainConfigPath
  · right
    have hfound := find?_of_createFile h
    rw [hconfig] at hfound
    rw [settingsIn?_of_find? hfound, File.content_ofPath]
    rfl
  · left
    rcases Bundle.createFile_eq_ok h with ⟨_, _, _, _, hnext⟩
    rw [hnext]
    exact settingsIn?_congr (File.find?_append_of_ne files (Ne.symm hconfig))

theorem settingsIn?_of_not_existsAt (h : File.existsAt files File.mainConfigPath = false) :
    settingsIn? files = none := by
  unfold settingsIn?
  rw [File.find?_eq_none_iff.mpr h]
  rfl

theorem keepsSettings_moveFile {path new : String} (h : Bundle.moveFile files path new = .ok next)
    (hconfig : path ≠ new → path = File.mainConfigPath ∨ new = File.mainConfigPath →
      File.existsAt next File.mainConfigPath = false) : Bundle.KeepsSettings files next := by
  rcases Bundle.moveFile_eq_ok h with ⟨_, _, _, ⟨_, hkept⟩ | ⟨hne, _, _, hmoved⟩⟩
  · rw [hkept]
    exact .inl rfl
  · by_cases hmoves : path = File.mainConfigPath ∨ new = File.mainConfigPath
    · exact .inr (settingsIn?_of_not_existsAt (hconfig hne hmoves))
    · rw [not_or] at hmoves
      left
      rw [hmoved]
      exact settingsIn?_congr (Bundle.find?_replaceFirst_of_ne files (Ne.symm hmoves.1)
        fun _ _ => hmoves.2)

theorem keepsSettings_deleteFile {path : String}
    (h : Bundle.deleteFile files path = .ok next) : Bundle.KeepsSettings files next := by
  rw [Bundle.deleteFile_eq_ok h]
  by_cases hconfig : path = File.mainConfigPath
  · right
    apply settingsIn?_of_not_existsAt
    rw [hconfig]
    unfold File.existsAt
    rw [List.any_eq_false]
    intro file hmem
    simpa using (List.mem_filter.mp hmem).2
  · left
    exact settingsIn?_congr (File.find?_filter_of_ne files (Ne.symm hconfig))

theorem find?_replaceFirst {path new : String} {f : File → File} {file : File}
    (h : File.find? files path = some file) (hnew : (f file).path = new)
    (hfree : new = path ∨ File.existsAt files new = false) :
    File.find? (Bundle.replaceFirst path f files) new = some (f file) := by
  -- The files before the changed one are passed over at its old path and at its new one.
  induction files with
  | nil => cases h
  | cons first rest ih =>
      unfold Bundle.replaceFirst
      unfold File.find? at h ⊢
      by_cases hhere : first.path = path
      · rw [List.find?_cons_of_pos (by simpa using hhere), Option.some.injEq] at h
        rw [if_pos hhere, h, List.find?_cons_of_pos (by simpa using hnew)]
      · rw [List.find?_cons_of_neg (by simpa using hhere)] at h
        have hrest : new = path ∨ File.existsAt rest new = false := by
          rcases hfree with hsame | hnone
          · exact .inl hsame
          · rw [File.existsAt, List.any_cons, Bool.or_eq_false_iff] at hnone
            exact .inr hnone.2
        have hdiffers : first.path ≠ new := by
          rcases hfree with hsame | hnone
          · rw [hsame]
            exact hhere
          · rw [File.existsAt, List.any_cons, Bool.or_eq_false_iff] at hnone
            simpa using hnone.1
        rw [if_neg hhere, List.find?_cons_of_neg (by simpa using hdiffers)]
        exact ih h hrest

theorem settingsIn?_edited {path content : String} {file : File}
    (h : File.find? files path = some file) (hconfig : path = File.mainConfigPath) :
    settingsIn? (Bundle.replaceFirst path (fun file => { file with content }) files) =
      Settings.ofText? content := by
  have hpath : file.path = File.mainConfigPath := (File.of_find?_eq_some h).2.trans hconfig
  have hfound := find?_replaceFirst (f := fun file => { file with content }) h hpath
    (.inl hconfig.symm)
  rw [settingsIn?_of_find? hfound]

theorem settingsIn?_movedOnto {path : String} {file : File}
    (h : Bundle.moveFile files path File.mainConfigPath = .ok next)
    (hne : path ≠ File.mainConfigPath) (hfile : File.find? files path = some file) :
    settingsIn? next = Settings.ofText? file.content := by
  rcases Bundle.moveFile_eq_ok h with ⟨_, _, _, ⟨hsame, _⟩ | ⟨_, _, htaken, hmoved⟩⟩
  · exact absurd hsame hne
  · have hfree := Bundle.existsAt_of_not_isTaken htaken
    have hfound := find?_replaceFirst (f := fun file => file.moved File.mainConfigPath) hfile
      (File.path_moved file _) (.inr hfree)
    rw [hmoved, settingsIn?_of_find? hfound, File.moved, File.content_ofPath]

end

/-!
## Settings of a session
-/

theorem FollowsConfig.of_kept {s next : Session} (h : s.FollowsConfig)
    (hsettings : next.settings = s.settings) (hfiles : Bundle.KeepsSettings s.files next.files) :
    next.FollowsConfig := by
  intro settings hread
  rcases hfiles with hsame | hnone
  · rw [hsettings]
    exact h settings (hsame.symm.trans hread)
  · rw [hnone] at hread
    cases hread

theorem followsConfig_of_read {s : Session} (old : Settings)
    (h : s.settings = (settingsIn? s.files).getD old) : s.FollowsConfig := by
  intro settings hread
  rw [h, hread]
  rfl

theorem FollowsConfig.edit {s : Session} (h : s.FollowsConfig) {path content : String} {file : File}
    (hfile : s.file? path = some file) (tabs : List Tab) (board : FindingBoard) :
    FollowsConfig
      { s with
        files := Bundle.replaceFirst path (fun file => { file with content }) s.files
        settings :=
          if path = File.mainConfigPath then (Settings.ofText? content).getD s.settings
          else s.settings
        tabs
        board } := by
  by_cases hconfig : path = File.mainConfigPath
  · apply followsConfig_of_read s.settings
    simp only [if_pos hconfig]
    rw [settingsIn?_edited hfile hconfig]
  · apply h.of_kept
    · exact if_neg hconfig
    · left
      apply settingsIn?_congr
      apply Bundle.find?_replaceFirst_of_ne s.files (Ne.symm hconfig)
      intro changed hpath
      rw [hpath]
      exact hconfig

theorem followsConfig_installed (s : Session) (files : List File) (board : FindingBoard) :
    (s.installed files board).FollowsConfig := by
  rcases replaceFiles_eq s files with ⟨tabs, active, replaced, hreplaced⟩
  apply followsConfig_of_read s.settings
  unfold installed
  rw [hreplaced]

theorem keepsSettings_of_not_replacesConfig {s : Session} {path new : String} {next : List File}
    (h : Bundle.moveFile s.files path new = .ok next)
    (hmoves : ¬(Operation.moveFile path new).ReplacesConfig s) :
    Bundle.KeepsSettings s.files next := by
  apply keepsSettings_moveFile h
  intro hne hconfig
  rw [Bool.eq_false_iff]
  intro hexists
  exact hmoves ⟨hne, hconfig, next, h, hexists⟩

/-- What operations keep, but moves that make another file the main configuration. -/
theorem FollowsConfig.effect {service : StoreService σ} {s next : Session} {store : σ}
    {operation : Operation} (h : s.FollowsConfig) (hmoves : ¬operation.ReplacesConfig s)
    (heffect : Effect service s store operation next) : next.FollowsConfig := by
  cases heffect with
  | none => exact h
  | expect | openFile | activate | close | setVersions => exact h.of_kept rfl (.inl rfl)
  | edit _ hfile _ board => exact h.edit hfile _ board
  | createFile hcreate => exact h.of_kept rfl (keepsSettings_createFile hcreate)
  | createFolder hcreate =>
      exact h.of_kept rfl (keepsSettings_createFile (Bundle.createFolder_eq_ok hcreate).2.2)
  | moveFile hmove => exact h.of_kept rfl (keepsSettings_of_not_replacesConfig hmove hmoves)
  | moveOpenFile hmove => exact h.of_kept rfl (keepsSettings_of_not_replacesConfig hmove hmoves)
  | deleteFile hdelete => exact h.of_kept rfl (keepsSettings_deleteFile hdelete)
  | install files board => exact followsConfig_installed s files board
  | save => exact h.of_kept rfl (.inl rfl)
  | restore _ board => exact followsConfig_installed s _ board

theorem settings_of_load {directory : Directory} {root : Location} {id : String}
    {serial : Option Serial} {version : LoadedStencil}
    (h : Store.load directory root id serial = .ok version) :
    version.settings = (settingsIn? version.files).getD {} := by
  rcases Bundle.bind_eq_ok h with ⟨folder, _, h⟩
  rcases Bundle.bind_eq_ok h with ⟨active, _, h⟩
  cases htarget : serial <|> active with
  | none =>
      rw [htarget] at h
      cases h
  | some target =>
      rw [htarget] at h
      rcases Bundle.bind_eq_ok h with ⟨read, _, h⟩
      cases hconfig : read.file? File.mainConfigPath with
      | none =>
          rw [hconfig] at h
          cases h
      | some config =>
          rw [hconfig] at h
          rcases Bundle.bind_eq_ok h with ⟨versions, _, h⟩
          cases h
          rw [settingsIn?_of_find? hconfig]

theorem followsConfig_of_begins {s : Session} (h : s.BeginsRead) : s.FollowsConfig := by
  cases h with
  | start id files => exact followsConfig_of_read {} rfl
  | loaded hload => exact followsConfig_of_read {} (settings_of_load hload)

/-!
## Runs
-/

/-- A move keeps the settings, even if the moved file becomes the main configuration. -/
theorem settings_of_moveFile {s next : Session} {path new : String}
    (h : s.moveFile path new = .ok next) : next.settings = s.settings := by
  rcases moveFile_eq_ok h with ⟨_, _, ⟨_, hnext⟩ | ⟨_, _, _, hnext⟩⟩
  · rw [hnext]
  · rw [hnext]

theorem FollowsConfig.run {service : StoreService σ} {s : Session} (h : s.FollowsConfig)
    {operations : List Operation} {store : σ} (hkept : s.KeepsConfig service store operations) :
    (s.run service operations store).1.FollowsConfig := by
  induction operations generalizing s store with
  | nil => exact h
  | cons operation rest ih =>
      rw [run_cons]
      exact ih (h.effect hkept.1 (effect_perform service s store operation)) hkept.2

/-- The settings are those of the main configuration, unless a move made another file the main
configuration. Right after such a move they are so exactly if the text of the file has the settings
of before, or none. -/
theorem followsConfig_run {s : Session} (hbegins : s.BeginsRead) {service : StoreService σ}
    {operations : List Operation} {store : σ} (hkept : s.KeepsConfig service store operations) :
    (s.run service operations store).1.FollowsConfig ∧
      ∀ path file next, path ≠ File.mainConfigPath →
        (s.run service operations store).1.file? path = some file →
        (s.run service operations store).1.moveFile path File.mainConfigPath = .ok next →
          (next.FollowsConfig ↔ ∀ settings, Settings.ofText? file.content = some settings →
            (s.run service operations store).1.settings = settings) := by
  constructor
  · exact (followsConfig_of_begins hbegins).run hkept
  · intro path file next hne hfile hmove
    rcases moveFile_eq_ok hmove with ⟨files, hfiles, hcases⟩
    have hnext : next.files = files := by
      rcases hcases with ⟨_, hnext⟩ | ⟨_, _, _, hnext⟩ <;> rw [hnext]
    unfold FollowsConfig
    rw [hnext, settingsIn?_movedOnto hfiles hne hfile, settings_of_moveFile hmove]

def rivalFiles : List File :=
  [File.ofPath "/stencil.yml" "stencil:\n  id: demo\n  name: Demo\n",
    File.ofPath "/next.yml" "stencil:\n  id: next\n  name: Next\n"]

def deskStore : DirectoryStore :=
  { now := ⟨⟨2025, 9, 13⟩, 10, 0, 0, 0, 0⟩ }

theorem followsConfig_run_edited :
    (start "demo" rivalFiles).BeginsRead ∧
      ((start "demo" rivalFiles).run DirectoryStore.service
        [.openFile "/stencil.yml", .edit "/stencil.yml" "stencil:\n  id: two\n  name: Two\n"]
        deskStore).1.settings = { id := "two", name := "Two" } ∧
      ((start "demo" rivalFiles).run DirectoryStore.service
        [.moveFile "/stencil.yml" "/old.yml", .deleteFile "/next.yml"]
        deskStore).1.FollowsConfig := by
  have hbegins := BeginsRead.start "demo" rivalFiles
  have hedits : (start "demo" rivalFiles).KeepsConfig DirectoryStore.service deskStore
      [.openFile "/stencil.yml", .edit "/stencil.yml" "stencil:\n  id: two\n  name: Two\n"] :=
    ⟨id, id, trivial⟩
  have haway : ¬(Operation.moveFile "/stencil.yml" "/old.yml").ReplacesConfig
      (start "demo" rivalFiles) := by
    rintro ⟨_, _, next, hmoved, hexists⟩
    have hnone : (Bundle.moveFile rivalFiles "/stencil.yml" "/old.yml").toOption.map
        (fun files => File.existsAt files File.mainConfigPath) = some false := by decide +kernel
    have hsame : Bundle.moveFile rivalFiles "/stencil.yml" "/old.yml" = .ok next := hmoved
    rw [hsame] at hnone
    have hgone : File.existsAt next File.mainConfigPath = false := Option.some.inj hnone
    rw [hgone] at hexists
    cases hexists
  have hmoves : (start "demo" rivalFiles).KeepsConfig DirectoryStore.service deskStore
      [.moveFile "/stencil.yml" "/old.yml", .deleteFile "/next.yml"] := ⟨haway, id, trivial⟩
  refine ⟨hbegins, (followsConfig_run hbegins hedits).1 _ ?_,
    (followsConfig_run hbegins hmoves).1⟩
  decide +kernel

/-- The settings stay those of a configuration that was deleted, if another file takes its place. -/
theorem not_followsConfig_run_movedOnto :
    ¬((start "demo" rivalFiles).run DirectoryStore.service
      [.deleteFile "/stencil.yml", .moveFile "/next.yml" "/stencil.yml"]
      deskStore).1.FollowsConfig := by
  have hread : settingsIn? ((start "demo" rivalFiles).run DirectoryStore.service
      [.deleteFile "/stencil.yml", .moveFile "/next.yml" "/stencil.yml"] deskStore).1.files =
        some { id := "next", name := "Next" } := by decide +kernel
  have hkept : ((start "demo" rivalFiles).run DirectoryStore.service
      [.deleteFile "/stencil.yml", .moveFile "/next.yml" "/stencil.yml"] deskStore).1.settings =
        { id := "demo", name := "Demo" } := by decide +kernel
  intro hfollows
  have hsame := hfollows _ hread
  rw [hkept] at hsame
  exact absurd hsame (by decide)

end Session
end StencilDesk
