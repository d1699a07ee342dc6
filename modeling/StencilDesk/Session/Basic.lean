import StencilDesk.Bundle.Edit
import StencilDesk.Bundle.Tab
import StencilDesk.Bundle.Tree
import StencilDesk.Checksum
import StencilDesk.Config.Lint
import StencilDesk.History.Store
import StencilDesk.Template.Lint

/-!
# Editing sessions

A bundle while it is edited: its files, the open tabs and which of them is active, the findings of
the open files, the versions, and the checksums of the files as they were last saved or loaded.
-/

namespace StencilDesk

structure Session where
  stencilId : String
  serial : Option Serial := none
  settings : Settings := {}
  files : List File := []
  versions : List Snapshot := []
  tabs : List Tab := []
  active : Option String := none
  board : FindingBoard := FindingBoard.empty
  /-- The checksums of the files as they were last saved or loaded. -/
  baseline : PathMap String := PathMap.empty
  /-- The variables that templates are expected to use. -/
  expected : List String := []

inductive SessionFault where
  | notFound (path : String)
  | notOpen (path : String)
  | notEditable (path : String)
  | edit (fault : EditFault)
  | store (fault : StoreFault)
  | saveRejected (id : String)
deriving DecidableEq, Repr

namespace SessionFault

def message : SessionFault → String
  | notFound path => s!"No file at {path}"
  | notOpen path => s!"{path} is not open"
  | notEditable path => s!"{path} is not editable"
  | edit fault => fault.message
  | store fault => fault.message
  | saveRejected id => s!"The store did not accept the save of {id}"

def hasSource : SessionFault → Bool
  | edit _ | store _ => true
  | _ => false

end SessionFault

namespace Session

/-- The checksums of files by their paths; of several files at one path the last one counts. -/
def checksums (files : List File) : PathMap String :=
  PathMap.ofList (files.map fun file => (file.path, Checksum.ofText file.content))

def settingsIn? (files : List File) : Option Settings :=
  (File.find? files File.mainConfigPath).bind fun file => Settings.ofText? file.content

def start (stencilId : String) (files : List File) : Session :=
  { stencilId, files, settings := (settingsIn? files).getD {}, baseline := checksums files }

def ofLoaded (loaded : LoadedStencil) : Session :=
  { start loaded.stencilId loaded.files with
    serial := some loaded.serial
    settings := loaded.settings
    versions := loaded.versions }

def file? (s : Session) (path : String) : Option File :=
  File.find? s.files path

def tab? (s : Session) (path : String) : Option Tab :=
  s.tabs.find? fun tab => tab.path == path

def isOpen (s : Session) (path : String) : Bool :=
  s.tabs.any fun tab => tab.path == path

def activeTab? (s : Session) : Option Tab :=
  s.active.bind s.tab?

def tree (s : Session) : TreeNode :=
  TreeNode.ofFiles s.files

def findings (s : Session) (path : String) : List Finding :=
  s.board.findings path

def counts (s : Session) : FindingCounts :=
  s.board.counts

def errorCount (s : Session) : Nat :=
  s.counts.errors

/-- The paths whose files differ from the baseline, or are only there or only here, ascending. -/
def changedPaths (s : Session) : List String :=
  let current := checksums s.files
  let changed := current.entries.filter fun entry => s.baseline.get? entry.1 != some entry.2
  let gone := s.baseline.entries.filter fun entry => (current.get? entry.1).isNone
  ((changed ++ gone).map Prod.fst).mergeSort fun a b => a ≤ b

def hasUnsavedChanges (s : Session) : Bool :=
  (s.tabs.any fun tab => tab.dirty) || !s.changedPaths.isEmpty

def lintFile (expected : List String) (file : File) : List Finding :=
  match file.kind with
  | .template => Template.lintExpecting expected file.path file.content
  | .mainConfig => Config.Schema.stencil.lint file.path file.content
  | _ => []

def lint (s : Session) (path : String) : Session :=
  match s.file? path with
  | none => { s with board := s.board.remove path }
  | some file => { s with board := s.board.replace path (lintFile s.expected file) }

def openPaths (s : Session) : List String :=
  s.tabs.map Tab.path

def lintTabs (s : Session) : Session :=
  s.openPaths.foldl lint s

theorem isOpen_iff {s : Session} {path : String} : s.isOpen path = true ↔ path ∈ s.openPaths := by
  simp [isOpen, openPaths]

/-! ## What a check changes -/

theorem lint_eq (s : Session) (path : String) : ∃ board, s.lint path = { s with board } := by
  unfold lint
  split
  · exact ⟨_, rfl⟩
  · exact ⟨_, rfl⟩

theorem foldl_lint_eq (s : Session) (paths : List String) :
    ∃ board, paths.foldl lint s = { s with board } := by
  induction paths generalizing s with
  | nil => exact ⟨s.board, rfl⟩
  | cons path rest ih =>
      rcases lint_eq s path with ⟨board, hfirst⟩
      rcases ih (s.lint path) with ⟨later, hrest⟩
      exact ⟨later, by rw [List.foldl_cons, hrest, hfirst]⟩

theorem lintTabs_eq (s : Session) : ∃ board, s.lintTabs = { s with board } :=
  foldl_lint_eq s s.openPaths

/-- The findings of a file as the board should hold them: none, if there is no such file. -/
def fileFindings (s : Session) (path : String) : List Finding :=
  match s.file? path with
  | none => []
  | some file => lintFile s.expected file

theorem findings_lint_self (s : Session) (path : String) :
    (s.lint path).findings path = s.fileFindings path := by
  unfold lint fileFindings findings
  cases s.file? path with
  | none => exact FindingBoard.findings_remove_self s.board path
  | some file => exact FindingBoard.findings_replace_self s.board path _

theorem findings_lint_of_ne (s : Session) {path other : String} (h : other ≠ path) :
    (s.lint path).findings other = s.findings other := by
  unfold lint findings
  split
  · exact FindingBoard.findings_remove_of_ne s.board h
  · exact FindingBoard.findings_replace_of_ne s.board _ h

theorem fileFindings_lint (s : Session) (path other : String) :
    (s.lint path).fileFindings other = s.fileFindings other := by
  rcases lint_eq s path with ⟨board, h⟩
  rw [h]
  rfl

theorem findings_foldl_lint (s : Session) (paths : List String) (path : String) :
    (paths.foldl lint s).findings path =
      if path ∈ paths then s.fileFindings path else s.findings path := by
  induction paths generalizing s with
  | nil => rfl
  | cons first rest ih =>
      rw [List.foldl_cons, ih, fileFindings_lint]
      by_cases hrest : path ∈ rest
      · rw [if_pos hrest, if_pos (List.mem_cons_of_mem _ hrest)]
      · rw [if_neg hrest]
        by_cases hfirst : path = first
        · rw [hfirst, findings_lint_self, if_pos List.mem_cons_self]
        · rw [findings_lint_of_ne s hfirst, if_neg (by simp [hfirst, hrest])]

end Session

end StencilDesk
