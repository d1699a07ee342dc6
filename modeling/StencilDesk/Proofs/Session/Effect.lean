import StencilDesk.Proofs.Session.Run

/-!
# The effects of operations

All that an operation can make of a session: one case for every way in which it succeeds, with each
field that it changes, and one for an operation that changes nothing. Only the findings are left
open, since every check makes them anew. What operations keep is proved by going through the cases.
-/

namespace StencilDesk
namespace Session

variable {σ : Type}

def tabsOpening (s : Session) (file : File) : List Tab :=
  if s.isOpen file.path then s.tabs else s.tabs ++ [Tab.ofFile file]

/-- The session with other files in place of its own, whatever is found in them. -/
def installed (s : Session) (files : List File) (board : FindingBoard) : Session :=
  { (s.replaceFiles files).2 with settings := (settingsIn? files).getD s.settings, board }

/-- What an operation makes of a session. -/
inductive Effect (service : StoreService σ) (s : Session) (store : σ) :
    Operation → Session → Prop where
  /-- It fails, or there is nothing for it to do. -/
  | none (operation : Operation) : Effect service s store operation s
  | expect (expected : List String) (board : FindingBoard) :
      Effect service s store (.expect expected) { s with expected, board }
  | openFile {path : String} {file : File} (hfile : s.file? path = some file)
      (board : FindingBoard) :
      Effect service s store (.openFile path)
        { s with tabs := s.tabsOpening file, active := some path, board }
  | activate {path : String} (hopen : s.isOpen path = true) :
      Effect service s store (.activate path) { s with active := some path }
  | edit {path content : String} {file : File} (hopen : s.isOpen path = true)
      (hfile : s.file? path = some file) (heditable : file.editable = true)
      (board : FindingBoard) :
      Effect service s store (.edit path content)
        { s with
          files := Bundle.replaceFirst path (fun file => { file with content }) s.files
          settings :=
            if path = File.mainConfigPath then (Settings.ofText? content).getD s.settings
            else s.settings
          tabs := replaceTab path Tab.edited s.tabs
          board }
  | close {path : String} {confirmed : Bool} {tab : Tab} (htab : s.tab? path = some tab)
      (hconfirmed : tab.dirty = true → confirmed = true) :
      Effect service s store (.close path confirmed) (s.removeTab path)
  | createFile {parent name : String} {files : List File}
      (hcreate : Bundle.createFile s.files parent name = .ok files) (board : FindingBoard) :
      Effect service s store (.createFile parent name)
        { s with
          files
          tabs := s.tabsOpening (File.ofPath (Path.join parent name) "")
          active := some (Path.join parent name)
          board }
  | createFolder {parent name : String} {files : List File}
      (hcreate : Bundle.createFolder s.files parent name = .ok files) :
      Effect service s store (.createFolder parent name) { s with files }
  | moveFile {path new : String} {files : List File}
      (hmove : Bundle.moveFile s.files path new = .ok files)
      (hclosed : path = new ∨ s.isOpen path = false) :
      Effect service s store (.moveFile path new) { s with files }
  | moveOpenFile {path new : String} {files : List File}
      (hmove : Bundle.moveFile s.files path new = .ok files) (hne : path ≠ new)
      (hopen : s.isOpen path = true) (board : FindingBoard) :
      Effect service s store (.moveFile path new)
        { s with
          files
          tabs := replaceTab path (movedTab new) s.tabs
          active := if s.active = some path then some new else s.active
          board }
  | deleteFile {path : String} {files : List File}
      (hdelete : Bundle.deleteFile s.files path = .ok files) (board : FindingBoard) :
      Effect service s store (.deleteFile path)
        { s with
          files
          tabs := s.tabs.eraseP fun tab => tab.path == path
          active := if s.isOpen path then (s.removeTab path).active else s.active
          board }
  | install (files : List File) (board : FindingBoard) :
      Effect service s store (.install files) (s.installed files board)
  | save {author : String} {message : Option String} {answer : SaveAnswer}
      (hsave : (service.save (s.saveRequest author message) store).1 = .ok answer)
      (haccepted : answer.success = true) (versions : List Snapshot) :
      Effect service s store (.save author message)
        ((s.saved answer.serial).setVersions versions)
  | restore {serial : Serial} {version : Snapshot}
      (hanswer : (service.snapshot s.stencilId serial store).1 = .ok version)
      (board : FindingBoard) :
      Effect service s store (.restore serial) (s.installed version.files board)
  | setVersions (versions : List Snapshot) :
      Effect service s store (.setVersions versions) (s.setVersions versions)

section
variable {s : Session}

/-!
## Tabs
-/

theorem openFile_eq_ok {next : Session} {path : String} (h : s.openFile path = .ok next) :
    ∃ file board, s.file? path = some file ∧
      next = { s with tabs := s.tabsOpening file, active := some path, board } := by
  unfold openFile at h
  cases hfile : s.file? path with
  | none =>
      rw [hfile] at h
      cases h
  | some file =>
      rw [hfile] at h
      have hpath : file.path = path := (File.of_find?_eq_some hfile).2
      by_cases hopen : s.isOpen path = true
      · have htabs : s.tabsOpening file = s.tabs := by
          unfold tabsOpening
          rw [hpath, if_pos hopen]
        simp only [if_pos hopen, Except.ok.injEq] at h
        refine ⟨file, s.board, rfl, ?_⟩
        rw [htabs]
        exact h.symm
      · have htabs : s.tabsOpening file = s.tabs ++ [Tab.ofFile file] := by
          unfold tabsOpening
          rw [hpath, if_neg hopen]
        rcases lint_eq { s with tabs := s.tabs ++ [Tab.ofFile file] } path with ⟨board, hlint⟩
        simp only [if_neg hopen, hlint, Except.ok.injEq] at h
        refine ⟨file, board, rfl, ?_⟩
        rw [htabs]
        exact h.symm

theorem activate_eq_ok {next : Session} {path : String} (h : s.activate path = .ok next) :
    s.isOpen path = true ∧ next = { s with active := some path } := by
  unfold activate at h
  split at h
  · rename_i hopen
    cases h
    exact ⟨hopen, rfl⟩
  · cases h

theorem edit_eq_ok {next : Session} {path content : String} (h : s.edit path content = .ok next) :
    ∃ file board, s.isOpen path = true ∧ s.file? path = some file ∧ file.editable = true ∧
      next =
        { s with
          files := Bundle.replaceFirst path (fun file => { file with content }) s.files
          settings :=
            if path = File.mainConfigPath then (Settings.ofText? content).getD s.settings
            else s.settings
          tabs := replaceTab path Tab.edited s.tabs
          board } := by
  unfold edit at h
  by_cases hopen : s.isOpen path = true
  · cases hfile : s.file? path with
    | none => simp [hopen, hfile] at h
    | some file =>
        cases heditable : file.editable with
        | false => simp [hopen, hfile, heditable] at h
        | true =>
            simp only [hopen, hfile, heditable, Bool.not_true, Bool.false_eq_true, if_false,
              Except.ok.injEq] at h
            rcases lint_eq
              { s with
                files := Bundle.replaceFirst path (fun file => { file with content }) s.files
                settings :=
                  if path = File.mainConfigPath then (Settings.ofText? content).getD s.settings
                  else s.settings
                tabs := replaceTab path Tab.edited s.tabs } path with ⟨board, hlint⟩
            rw [hlint] at h
            exact ⟨file, board, hopen, rfl, heditable, h.symm⟩
  · simp [hopen] at h

theorem close_eq_closed {next : Session} {path : String} {confirmed : Bool}
    {active : Option String} (h : s.close path confirmed = (.closed active, next)) :
    ∃ tab, s.tab? path = some tab ∧ (tab.dirty = true → confirmed = true) ∧
      next = s.removeTab path := by
  unfold close at h
  cases htab : s.tab? path with
  | none =>
      rw [htab] at h
      cases h
  | some tab =>
      rw [htab] at h
      unfold Tab.after at h
      by_cases hasks : (tab.dirty && !confirmed) = true
      · simp [hasks] at h
      · simp only [if_neg hasks, Prod.mk.injEq] at h
        refine ⟨tab, rfl, ?_, h.2.symm⟩
        intro hdirty
        simpa [hdirty] using hasks

theorem close_of_not_closed {path : String} {confirmed : Bool} {outcome : CloseOutcome}
    {next : Session} (h : s.close path confirmed = (outcome, next))
    (hkept : ∀ active, outcome ≠ .closed active) : next = s := by
  unfold close at h
  split at h
  · cases h
    rfl
  · split at h
    · cases h
      rfl
    · cases h
      exact absurd rfl (hkept _)

/-!
## Files
-/

theorem find?_of_createFile {files next : List File} {parent name : String}
    (h : Bundle.createFile files parent name = .ok next) :
    File.find? next (Path.join parent name) = some (File.ofPath (Path.join parent name) "") := by
  rcases Bundle.createFile_eq_ok h with ⟨_, _, _, hfree, hnext⟩
  have hnone := File.find?_eq_none_iff.mpr (Bundle.existsAt_of_not_isTaken hfree)
  unfold File.find? at hnone ⊢
  rw [hnext, List.find?_append, hnone]
  simp

theorem createFile_cases (s : Session) (parent name : String) :
    (s.createFile parent name).2 = s ∨
      ∃ files board, Bundle.createFile s.files parent name = .ok files ∧
        (s.createFile parent name).2 =
          { s with
            files
            tabs := s.tabsOpening (File.ofPath (Path.join parent name) "")
            active := some (Path.join parent name)
            board } := by
  unfold createFile
  cases hcreate : Bundle.createFile s.files parent name with
  | error fault => exact .inl rfl
  | ok files =>
      have hfound := find?_of_createFile hcreate
      cases hopen : ({ s with files } : Session).openFile (Path.join parent name) with
      | error fault =>
          have hfile : ({ s with files } : Session).file? (Path.join parent name) = some _ := hfound
          simp [openFile, hfile] at hopen
      | ok next =>
          rcases openFile_eq_ok hopen with ⟨file, board, hfile, hnext⟩
          have hsame : file = File.ofPath (Path.join parent name) "" :=
            Option.some.inj (hfile.symm.trans hfound)
          rw [hsame] at hnext
          simp only [hopen]
          exact .inr ⟨files, board, rfl, hnext⟩

theorem moveFile_eq_ok {next : Session} {path new : String}
    (h : s.moveFile path new = .ok next) :
    ∃ files, Bundle.moveFile s.files path new = .ok files ∧
      ((path = new ∨ s.isOpen path = false) ∧ next = { s with files } ∨
        path ≠ new ∧ s.isOpen path = true ∧ ∃ board, next =
          { s with
            files
            tabs := replaceTab path (movedTab new) s.tabs
            active := if s.active = some path then some new else s.active
            board }) := by
  unfold moveFile at h
  cases hmove : Bundle.moveFile s.files path new with
  | error fault =>
      rw [hmove] at h
      cases h
  | ok files =>
      rw [hmove] at h
      refine ⟨files, rfl, ?_⟩
      by_cases hkept : (decide (path = new) || !s.isOpen path) = true
      · simp only [if_pos hkept, Except.ok.injEq] at h
        exact .inl ⟨by simpa using hkept, h.symm⟩
      · simp only [if_neg hkept, Except.ok.injEq] at h
        rcases lint_eq
          { s with
            files
            tabs := replaceTab path (movedTab new) s.tabs
            active := if s.active = some path then some new else s.active
            board := s.board.rename path new } new with ⟨board, hlint⟩
        rw [hlint] at h
        have hparts : path ≠ new ∧ s.isOpen path = true := by simpa using hkept
        exact .inr ⟨hparts.1, hparts.2, board, h.symm⟩

theorem eraseP_of_closed {path : String} (h : s.isOpen path = false) :
    (s.tabs.eraseP fun tab => tab.path == path) = s.tabs := by
  apply List.eraseP_of_forall_not
  unfold isOpen at h
  simpa using h

theorem deleteFile_cases (s : Session) (path : String) :
    s.deleteFile path = (false, s) ∨
      ∃ files board, Bundle.deleteFile s.files path = .ok files ∧
        s.deleteFile path =
          (true,
            { s with
              files
              tabs := s.tabs.eraseP fun tab => tab.path == path
              active := if s.isOpen path then (s.removeTab path).active else s.active
              board }) := by
  unfold deleteFile
  cases hdelete : Bundle.deleteFile s.files path with
  | error fault => exact .inl rfl
  | ok files =>
      have hsame : ({ s with files } : Session).isOpen path = s.isOpen path := rfl
      cases hopen : s.isOpen path with
      | true =>
          refine .inr ⟨files, (s.board.remove path).remove path, rfl, ?_⟩
          simp only [hsame, hopen, if_true]
          rfl
      | false =>
          refine .inr ⟨files, s.board.remove path, rfl, ?_⟩
          simp only [hsame, hopen, Bool.false_eq_true, if_false, eraseP_of_closed hopen]

/-!
## Versions
-/

theorem closeAll_eq (s : Session) (paths : List String) :
    ∃ tabs active board, s.closeAll paths = { s with tabs, active, board } := by
  induction paths generalizing s with
  | nil => exact ⟨s.tabs, s.active, s.board, rfl⟩
  | cons path rest ih =>
      rcases ih (s.removeTab path) with ⟨tabs, active, board, hrest⟩
      exact ⟨tabs, active, board, hrest⟩

theorem openConfig_eq (s : Session) :
    ∃ tabs active, s.openConfig.2 = { s with tabs, active } := by
  unfold openConfig
  split
  · exact ⟨s.tabs, s.active, rfl⟩
  · split
    · exact ⟨s.tabs, s.active, rfl⟩
    · exact ⟨_, _, rfl⟩

theorem replaceFiles_eq (s : Session) (files : List File) :
    ∃ tabs active board, (s.replaceFiles files).2 = { s with files, tabs, active, board } := by
  rw [snd_replaceFiles]
  rcases closeAll_eq { s with files } (s.gonePaths files) with ⟨tabs, active, board, hclosed⟩
  rw [hclosed]
  rcases openConfig_eq (markDirty { s with files, tabs, active, board }).2 with
    ⟨opened, shown, hopened⟩
  exact ⟨opened, shown, board, hopened⟩

theorem install_eq (s : Session) (files : List File) :
    ∃ board, (s.install files).2 = s.installed files board := by
  rcases replaceFiles_eq s files with ⟨tabs, active, replaced, hreplaced⟩
  unfold installed
  rw [snd_install, hreplaced]
  exact lintTabs_eq _

/-- A save fails and leaves the session as it was, or the store has accepted it. -/
theorem save_answer_cases (service : StoreService σ) (s : Session) (author : String)
    (message : Option String) (store : σ) :
    (∃ fault, (s.save service author message store).1 = (.error fault, s)) ∨
      ∃ answer versions,
        (service.save (s.saveRequest author message) store).1 = .ok answer ∧
          answer.success = true ∧
          (s.save service author message store).1 =
            (.ok answer, (s.saved answer.serial).setVersions versions) := by
  rcases hsave : service.save (s.saveRequest author message) store with ⟨answer, after⟩
  cases answer with
  | error fault =>
      rw [save_of_error hsave]
      exact .inl ⟨_, rfl⟩
  | ok answer =>
      cases haccepted : answer.success with
      | false =>
          rw [save_of_refused hsave haccepted]
          exact .inl ⟨_, rfl⟩
      | true =>
          rcases hlisted : service.history s.stencilId after with ⟨listing, last⟩
          cases listing with
          | ok versions =>
              rw [save_of_listed hsave haccepted hlisted]
              exact .inr ⟨answer, versions, rfl, haccepted, rfl⟩
          | error fault =>
              rw [save_of_unlisted hsave haccepted hlisted]
              exact .inr ⟨answer, _, rfl, haccepted, rfl⟩

end

/-!
## All operations
-/

variable (service : StoreService σ) (s : Session) (store : σ)

theorem effect_afterResult {operation : Operation} {result : Except SessionFault Session}
    (h : ∀ next, result = .ok next → Effect service s store operation next) :
    Effect service s store operation (s.afterResult result) := by
  cases result with
  | error fault => exact .none operation
  | ok next => exact h next rfl

theorem effect_close (path : String) (confirmed : Bool) :
    Effect service s store (.close path confirmed) (s.close path confirmed).2 := by
  rcases hclose : s.close path confirmed with ⟨outcome, next⟩
  cases outcome with
  | closed active =>
      rcases close_eq_closed hclose with ⟨tab, htab, hconfirmed, hnext⟩
      rw [hnext]
      exact .close htab hconfirmed
  | needsConfirmation =>
      rw [close_of_not_closed hclose (by simp)]
      exact .none _
  | notOpen =>
      rw [close_of_not_closed hclose (by simp)]
      exact .none _

theorem effect_createFolder (parent name : String) :
    Effect service s store (.createFolder parent name)
      (s.afterResult ((s.createFolder parent name).map Prod.snd)) := by
  unfold createFolder
  cases hcreate : Bundle.createFolder s.files parent name with
  | error fault => exact .none _
  | ok files => exact .createFolder hcreate

theorem effect_perform (operation : Operation) :
    Effect service s store operation (s.perform service operation store).1 := by
  cases operation with
  | expect expected =>
      rcases lintTabs_eq { s with expected } with ⟨board, hlint⟩
      show Effect service s store _ ({ s with expected } : Session).lintTabs
      rw [hlint]
      exact .expect expected board
  | openFile path =>
      apply effect_afterResult
      intro next h
      rcases openFile_eq_ok h with ⟨file, board, hfile, hnext⟩
      rw [hnext]
      exact .openFile hfile board
  | activate path =>
      apply effect_afterResult
      intro next h
      rcases activate_eq_ok h with ⟨hopen, hnext⟩
      rw [hnext]
      exact .activate hopen
  | edit path content =>
      apply effect_afterResult
      intro next h
      rcases edit_eq_ok h with ⟨file, board, hopen, hfile, heditable, hnext⟩
      rw [hnext]
      exact .edit hopen hfile heditable board
  | close path confirmed => exact effect_close service s store path confirmed
  | createFile parent name =>
      show Effect service s store _ (s.createFile parent name).2
      rcases createFile_cases s parent name with hsame | ⟨files, board, hcreate, hnext⟩
      · rw [hsame]
        exact .none _
      · rw [hnext]
        exact .createFile hcreate board
  | createFolder parent name => exact effect_createFolder service s store parent name
  | moveFile path new =>
      apply effect_afterResult
      intro next h
      rcases moveFile_eq_ok h with
        ⟨files, hmove, ⟨hclosed, hnext⟩ | ⟨hne, hopen, board, hnext⟩⟩
      · rw [hnext]
        exact .moveFile hmove hclosed
      · rw [hnext]
        exact .moveOpenFile hmove hne hopen board
  | deleteFile path =>
      show Effect service s store _ (s.deleteFile path).2
      rcases deleteFile_cases s path with hsame | ⟨files, board, hdelete, hnext⟩
      · rw [hsame]
        exact .none _
      · rw [hnext]
        exact .deleteFile hdelete board
  | install files =>
      show Effect service s store _ (s.install files).2
      rcases install_eq s files with ⟨board, hnext⟩
      rw [hnext]
      exact .install files board
  | save author message =>
      show Effect service s store _ (s.save service author message store).1.2
      rcases save_answer_cases service s author message store with
        ⟨fault, hfailed⟩ | ⟨answer, versions, hsave, haccepted, hnext⟩
      · rw [hfailed]
        exact .none _
      · rw [hnext]
        exact .save hsave haccepted versions
  | restore serial =>
      show Effect service s store _ (s.restore service serial store).1.2
      rcases restore_cases service s serial store with hsame | ⟨version, hanswer, hnext⟩
      · rw [hsame]
        exact .none _
      · rcases install_eq s version.files with ⟨board, hinstalled⟩
        rw [hnext, hinstalled]
        exact .restore hanswer board
  | setVersions versions => exact .setVersions versions

end Session
end StencilDesk
