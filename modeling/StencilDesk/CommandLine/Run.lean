import StencilDesk.CommandLine.Report
import StencilDesk.CommandLine.Request
import StencilDesk.History.Saving
import StencilDesk.Import
import StencilDesk.Preferences

/-!
# Running a request

What a request prints, whether it succeeds, and what it leaves in the directory. A request fails
with one line about its fault, and a check also fails if it finds errors.
-/

namespace StencilDesk
namespace CommandLine

structure Surroundings where
  directory : Directory
  /-- The folder from which paths are seen. -/
  working : Location := []
  /-- The folder that holds the preferences of all applications. -/
  preferences : Location
  now : Timestamp

structure Printout where
  lines : List String := []
  succeeds : Bool := true
deriving DecidableEq, Repr

inductive Fault where
  | bundle (fault : ImportFault)
  | session (fault : SessionFault)
  | store (fault : StoreFault)
  | serial (fault : SerialFault)
  | preferences (fault : PreferencesFault)
deriving DecidableEq, Repr

namespace Fault

def message : Fault → String
  | bundle fault => fault.message
  | session fault => fault.message
  | store fault => fault.message
  | serial fault => fault.message
  | preferences fault => fault.message

def line (fault : Fault) : String :=
  s!"[ERROR] Main: {fault.message}"

end Fault

def applicationName : String := "StencilStudio"

def unknownAuthor : String := "unknown"

namespace Surroundings

def place (here : Surroundings) : PreferencesPlace :=
  .below here.preferences

def locate (here : Surroundings) (path : String) : Location :=
  Directory.locate here.working path

def importFolder (here : Surroundings) (path : String) (excluded : List String) :
    Except Fault (List File) :=
  (Import.bundle here.directory (here.locate path) path excluded).mapError .bundle

end Surroundings

/-- The root of the store: the one that is asked for, the preferred one, or the default. -/
def storeRoot (here : Surroundings) (asked : Option String) (preferences : Preferences) :
    Except Fault Location × Directory :=
  match asked <|> preferences.storeRoot with
  | some path => (.ok (here.locate path), here.directory)
  | none =>
      let (root, directory) :=
        Preferences.defaultStoreRoot here.place applicationName here.directory
      (root.mapError .preferences, directory)

def lint (here : Surroundings) (path : String) (expected : List String) :
    Except Fault Printout := do
  let files ← here.importFolder path []
  let report ← (LintReport.ofFiles files expected).mapError .session
  return { lines := report.lines, succeeds := !report.hasErrors }

def history (here : Surroundings) (root : Location) (id : String) : Except Fault Printout := do
  let versions ← (Store.history here.directory root id).mapError .store
  return { lines := versions.map Snapshot.line }

def diff (here : Surroundings) (root : Location) (id old new : String) : Except Fault Printout := do
  let old ← (Serial.ofText old).mapError .serial
  let new ← (Serial.ofText new).mapError .serial
  let before ← (Store.snapshot here.directory root id old).mapError .store
  let after ← (Store.snapshot here.directory root id new).mapError .store
  return { lines := (BundleDiff.compare before.files after.files).lines }

/-- Saves a folder as a version, and remembers the stencil as far as that is possible. -/
def importFolder (here : Surroundings) (root : Location) (preferences : Preferences)
    (path id : String) (message : Option String) (excluded : List String) :
    Except Fault Printout × Directory :=
  match here.importFolder path excluded with
  | .error fault => (.error fault, here.directory)
  | .ok files =>
      let author := preferences.author.getD unknownAuthor
      let request : SaveRequest := { stencilId := id, base := none, files, author, message }
      match Store.save root request here.now here.directory with
      | (directory, .error fault) => (.error (.store fault), directory)
      | (directory, .ok answer) =>
          let preferences := { preferences with lastStencilId := some id }
          let (_, directory) :=
            Preferences.save here.place applicationName preferences directory
          (.ok { lines := [s!"Saved {id} as version {answer.serial.text}"] }, directory)

def runAtStore (here : Surroundings) (root : Location) (preferences : Preferences) :
    Request → Except Fault Printout × Directory
  | .lint folder expected => (lint here folder expected, here.directory)
  | .importFolder folder id message excluded =>
      importFolder here root preferences folder id message excluded
  | .history id => (history here root id, here.directory)
  | .diff id old new => (diff here root id old new, here.directory)

/-- Runs a request. Preferences that cannot be read count as none. -/
def run (here : Surroundings) (invocation : Invocation) : Except Fault Printout × Directory :=
  let (loaded, directory) := Preferences.load here.place applicationName here.directory
  let preferences := match loaded with
    | .ok preferences => preferences
    | .error _ => {}
  let here := { here with directory }
  match invocation.request with
  | .lint folder expected => (lint here folder expected, directory)
  | request =>
      match storeRoot here invocation.store preferences with
      | (.error fault, directory) => (.error fault, directory)
      | (.ok root, directory) => runAtStore { here with directory } root preferences request

def outputText (result : Except Fault Printout) : String :=
  match result with
  | .ok printout => String.join (printout.lines.map (· ++ "\n"))
  | .error _ => ""

def errorText (result : Except Fault Printout) : String :=
  match result with
  | .ok _ => ""
  | .error fault => fault.line ++ "\n"

def exitCode (result : Except Fault Printout) : Nat :=
  match result with
  | .ok printout => if printout.succeeds then 0 else 1
  | .error _ => 1

end CommandLine
end StencilDesk
