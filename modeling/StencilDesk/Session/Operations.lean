import StencilDesk.Session.Basic

/-!
# Working in a session

Opening, editing and closing files, changing the bundle, and replacing it as a whole. Every change
keeps the tabs, the active tab and the findings in step with the files.
-/

namespace StencilDesk

inductive CloseOutcome where
  | closed (active : Option String)
  | needsConfirmation
  | notOpen
deriving DecidableEq, Repr

structure Replacement where
  dirty : List String := []
  closed : List String := []
deriving DecidableEq, Repr

namespace Session

def expect (s : Session) (expected : List String) : Session :=
  { s with expected }.lintTabs

/-- Opens a file, or activates its tab if it is open. -/
def openFile (s : Session) (path : String) : Except SessionFault Session :=
  match s.file? path with
  | none => .error (.notFound path)
  | some file =>
      let s :=
        if s.isOpen path then s else { s with tabs := s.tabs ++ [Tab.ofFile file] }.lint path
      .ok { s with active := some path }

def activate (s : Session) (path : String) : Except SessionFault Session :=
  if s.isOpen path then .ok { s with active := some path } else .error (.notOpen path)

def replaceTab (path : String) (f : Tab → Tab) : List Tab → List Tab
  | [] => []
  | tab :: rest => if tab.path = path then f tab :: rest else tab :: replaceTab path f rest

def edit (s : Session) (path content : String) : Except SessionFault Session :=
  if !s.isOpen path then .error (.notOpen path)
  else
    match s.file? path with
    | none => .error (.notFound path)
    | some file =>
        if !file.editable then .error (.notEditable path)
        else
          let files := Bundle.replaceFirst path (fun file => { file with content }) s.files
          let settings :=
            if path = File.mainConfigPath then (Settings.ofText? content).getD s.settings
            else s.settings
          let tabs := replaceTab path Tab.edited s.tabs
          .ok ({ s with files, settings, tabs }.lint path)

/-- Takes away a tab with its findings. If it was active, the first tab that is left becomes
active. -/
def removeTab (s : Session) (path : String) : Session :=
  let tabs := s.tabs.eraseP fun tab => tab.path == path
  let active := if s.active = some path then tabs.head?.map Tab.path else s.active
  { s with tabs, active, board := s.board.remove path }

/-- Closes a tab; a dirty one only if that is confirmed. -/
def close (s : Session) (path : String) (confirmed : Bool) : CloseOutcome × Session :=
  match s.tab? path with
  | none => (.notOpen, s)
  | some tab =>
      match tab.after (.close confirmed) with
      | .needsConfirmation => (.needsConfirmation, s)
      | _ =>
          let s := s.removeTab path
          (.closed s.active, s)

/-- Adds an empty file and opens it; gives its path. The files are replaced before it is opened. -/
def createFile (s : Session) (parent name : String) : Except SessionFault String × Session :=
  match Bundle.createFile s.files parent name with
  | .error fault => (.error (.edit fault), s)
  | .ok files =>
      let path := Path.join parent name
      let s := { s with files }
      match s.openFile path with
      | .error fault => (.error fault, s)
      | .ok s => (.ok path, s)

/-- Adds a folder; gives the path of its placeholder. -/
def createFolder (s : Session) (parent name : String) : Except SessionFault (String × Session) :=
  match Bundle.createFolder s.files parent name with
  | .error fault => .error (.edit fault)
  | .ok files =>
      .ok (Path.join (Path.join parent name) FileKind.placeholderName, { s with files })

def movedTab (new : String) (tab : Tab) : Tab :=
  let name := Path.name new
  { tab with path := new, name, kind := FileKind.ofName name }

def moveFile (s : Session) (path new : String) : Except SessionFault Session :=
  match Bundle.moveFile s.files path new with
  | .error fault => .error (.edit fault)
  | .ok files =>
      let moved := { s with files }
      if path = new || !s.isOpen path then .ok moved
      else
        let active := if s.active = some path then some new else s.active
        .ok ({ moved with
          tabs := replaceTab path (movedTab new) s.tabs
          board := s.board.rename path new
          active }.lint new)

/-- Deletes a file and closes its tab; tells whether there was such a file. -/
def deleteFile (s : Session) (path : String) : Bool × Session :=
  match Bundle.deleteFile s.files path with
  | .error _ => (false, s)
  | .ok files =>
      let s := { s with files }
      let s := if s.isOpen path then s.removeTab path else s
      (true, { s with board := s.board.remove path })

def closeAll (s : Session) (paths : List String) : Session :=
  paths.foldl removeTab s

def gonePaths (s : Session) (files : List File) : List String :=
  (s.tabs.filter fun tab => !File.existsAt files tab.path).map Tab.path

/-- Marks all tabs dirty; gives their paths. -/
def markDirty (s : Session) : List String × Session :=
  (s.tabs.map Tab.path, { s with tabs := s.tabs.map Tab.edited })

/-- Opens the main configuration after the files were replaced, dirty if it differs from the
baseline; gives its path if it does. -/
def openConfig (s : Session) : List String × Session :=
  if s.isOpen File.mainConfigPath then ([], s)
  else
    match s.file? File.mainConfigPath with
    | none => ([], s)
    | some config =>
        let dirty := s.baseline.get? File.mainConfigPath != some (Checksum.ofText config.content)
        let tab := { Tab.ofFile config with dirty := dirty }
        (if dirty then [tab.path] else [],
          { s with
            tabs := s.tabs ++ [tab]
            active := s.active <|> some File.mainConfigPath })

/-- Replaces all files. Tabs whose file is gone are closed, the others become dirty, and the main
configuration is opened. -/
def replaceFiles (s : Session) (files : List File) : Replacement × Session :=
  let closed := s.gonePaths files
  let marked := ({ s with files }.closeAll closed).markDirty
  let opened := marked.2.openConfig
  ({ dirty := marked.1 ++ opened.1, closed }, opened.2)

/-- Replaces all files, reads the settings anew if they can be read, and checks all open files. -/
def install (s : Session) (files : List File) : Replacement × Session :=
  let replaced := s.replaceFiles files
  let s := { replaced.2 with settings := (settingsIn? files).getD replaced.2.settings }
  (replaced.1, s.lintTabs)

theorem snd_replaceFiles (s : Session) (files : List File) :
    (s.replaceFiles files).2 =
      (({ s with files } : Session).closeAll (s.gonePaths files)).markDirty.2.openConfig.2 := rfl

theorem snd_install (s : Session) (files : List File) :
    (s.install files).2 =
      lintTabs { (s.replaceFiles files).2 with
        settings := (settingsIn? files).getD (s.replaceFiles files).2.settings } := rfl

def setVersions (s : Session) (versions : List Snapshot) : Session :=
  { s with versions }

end Session

end StencilDesk
