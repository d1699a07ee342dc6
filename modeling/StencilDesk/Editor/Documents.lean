import StencilDesk.Editor.Basic

/-!
# Working on documents

The operations of an editor that need no store: on tabs, on documents, and on the files of the
bundle. Those that would lose something file a question first.
-/

namespace StencilDesk

namespace Editor

def expect (e : Editor) (expected : List String) : Editor :=
  let e := { e with expected }
  match e.session with
  | none => e
  | some s =>
      let s := s.expect expected
      { e with session := some s }.queue s.openDocumentCommands

def openFile (e : Editor) (path : String) : Outcome Unit :=
  e.withSession fun s =>
    e.proceedWith (s.openFile path)
      (fun s => s.documentCommands path ++ [s.findingsCommand path, s.tabsCommand]) ()

def activate (e : Editor) (path : String) : Outcome Unit :=
  e.withSession fun s => e.proceedWith (s.activate path) (fun s => [s.tabsCommand]) ()

def edit (e : Editor) (path content : String) : Outcome Unit :=
  e.withSession fun s =>
    e.proceedWith (s.edit path content) (fun s => [s.findingsCommand path, s.tabsCommand]) ()

def closedCommands (path : String) (s : Session) : List Command :=
  [s.findingsCommand path, s.tabsCommand]

/-- Closes a tab. A dirty one stays until the question is answered. -/
def requestClose (e : Editor) (path : String) : Outcome (Option Confirmation) :=
  e.withSession fun s =>
    match s.close path false with
    | (.closed _, s) => e.proceed s (closedCommands path s) none
    | (.needsConfirmation, s) =>
        let (answer, e) := (e.holding s).ask "Close tab"
          s!"{path} has unsaved changes. Close it and discard them?" (.closeTab path)
        (answer.map some, e)
    | (.notOpen, s) => (e.holding s).fail (.session (.notOpen path))

def closeTab (e : Editor) (path : String) : Outcome Unit :=
  match e.session with
  | none => e.unloaded
  | some s =>
      match s.close path true with
      | (.closed _, s) => e.proceed s (closedCommands path s) ()
      | (_, s) => (e.holding s).fail (.session (.notOpen path))

def requestDelete (e : Editor) (path : String) : Outcome Confirmation :=
  e.withSession fun s =>
    match s.file? path with
    | none => e.fail (.session (.notFound path))
    | some _ =>
        e.ask "Delete file" s!"Delete {path}? This cannot be undone before the next save."
          (.deleteFile path)

/-- Deletes a file. If it is gone already, nothing happens. -/
def deleteFile (e : Editor) (path : String) : Outcome Unit :=
  match e.session with
  | none => e.unloaded
  | some s =>
      match s.deleteFile path with
      | (true, s) =>
          e.proceed s
            [s.treeCommand, s.findingsCommand path, s.tabsCommand,
              .notify .info s!"Deleted {path}."] ()
      | (false, s) => (.ok (), e.holding s)

def requestRestore (e : Editor) (serial : Serial) : Outcome Confirmation :=
  e.withSession fun _ =>
    e.ask "Restore version"
      (s!"Replace the working files with version {serial.text}? Unsaved changes will be lost. " ++
        "Nothing is saved until you save explicitly.")
      (.restore serial)

def createFile (e : Editor) (parent name : String) : Outcome String :=
  e.withSession fun s =>
    match s.createFile parent name with
    | (.ok path, s) =>
        e.proceed s
          (s.treeCommand :: s.documentCommands path ++ [s.findingsCommand path, s.tabsCommand])
          path
    | (.error fault, s) => (e.holding s).fail (.session fault)

def createFolder (e : Editor) (parent name : String) : Outcome String :=
  e.withSession fun s =>
    match s.createFolder parent name with
    | .ok (path, s) => e.proceed s [s.treeCommand] path
    | .error fault => e.fail (.session fault)

def moveFile (e : Editor) (path new : String) : Outcome Unit :=
  e.withSession fun s =>
    e.proceedWith (s.moveFile path new)
      (fun s => [s.treeCommand, s.findingsCommand path, s.findingsCommand new, s.tabsCommand]) ()

end Editor

end StencilDesk
