import StencilDesk.Bundle.Tree
import StencilDesk.Directory
import StencilDesk.History.Acceptance
import StencilDesk.History.Snapshot
import StencilDesk.Settings

/-!
# The store of versions

Each stencil has a folder with one file per version, and a file that names the active version.
Versions are never changed. Reading tells the versions that are there and which one is active; if
none is named it is the latest one.
-/

namespace StencilDesk

structure LoadedStencil where
  stencilId : String
  serial : Serial
  settings : Settings
  files : List File
  versions : List Snapshot
deriving DecidableEq, Repr

structure SaveRequest where
  stencilId : String
  /-- The version that was edited, if any. -/
  base : Option Serial
  files : List File
  author : String
  message : Option String
deriving DecidableEq, Repr

structure SaveAnswer where
  serial : Serial
  success : Bool
deriving DecidableEq, Repr

namespace Store

def versionsName : String := "versions"

def activeName : String := "active_serial.txt"

def versionSuffix : List Char := ".json".toList

def stencilFolder (root : Location) (id : String) : Except StoreFault Location :=
  if Bundle.isStencilId id then .ok (root ++ [id]) else .error (.invalidStencilId id)

def versionsFolder (folder : Location) : Location :=
  folder ++ [versionsName]

def versionName (serial : Serial) : String :=
  String.ofList (serial.text.toList ++ versionSuffix)

def versionFile (folder : Location) (serial : Serial) : Location :=
  versionsFolder folder ++ [versionName serial]

def activeFile (folder : Location) : Location :=
  folder ++ [activeName]

def serialOfName? (name : String) : Option Serial :=
  let text := name.toList
  if versionSuffix.isSuffixOf text then
    (Serial.ofText (String.ofList (text.take (text.length - versionSuffix.length)))).toOption
  else none

def serials (directory : Directory) (folder : Location) : List Serial :=
  let versions := versionsFolder folder
  let files := (directory.names versions).filter fun name => directory.isFile (versions ++ [name])
  Serial.sorted (files.filterMap serialOfName?)

def existingFolder (directory : Directory) (root : Location) (id : String) :
    Except StoreFault Location := do
  let folder ← stencilFolder root id
  if !directory.isFolder (versionsFolder folder) then
    throw (.stencilNotFound id)
  return folder

def namedActive (directory : Directory) (folder : Location) : Except StoreFault (Option Serial) :=
  match directory.item? (activeFile folder) with
  | none => .ok none
  | some (.file (.text text)) =>
      let trimmed := Text.trim text.toList
      if trimmed.isEmpty then .ok none
      else
        match Serial.ofText (String.ofList trimmed) with
        | .ok serial => .ok (some serial)
        | .error fault => .error (.invalidSerial fault)
  | some _ => .error .access

/-- The active version: the named one, or else the latest. -/
def active (directory : Directory) (folder : Location) : Except StoreFault (Option Serial) := do
  match ← namedActive directory folder with
  | some serial => return some serial
  | none => return (serials directory folder).getLast?

def readVersion (directory : Directory) (folder : Location) (active : Option Serial)
    (serial : Serial) : Except StoreFault Snapshot :=
  match directory.item? (versionFile folder serial) with
  | none => .error (.versionNotFound serial)
  | some (.file (.text text)) =>
      match Snapshot.ofText? text with
      | some snapshot => .ok { snapshot with isActive := active == some serial }
      | none => .error .format
  | some _ => .error .format

/-- Holds if a version is listed no later than another one: later serials come first. -/
def listedBefore (a b : Snapshot) : Bool :=
  b.serial.le a.serial

def versionsIn (directory : Directory) (folder : Location) : Except StoreFault (List Snapshot) := do
  let active ← active directory folder
  let versions ← (serials directory folder).reverse.mapM (readVersion directory folder active)
  return versions.mergeSort listedBefore

def history (directory : Directory) (root : Location) (id : String) :
    Except StoreFault (List Snapshot) := do
  let folder ← existingFolder directory root id
  versionsIn directory folder

def snapshot (directory : Directory) (root : Location) (id : String) (serial : Serial) :
    Except StoreFault Snapshot := do
  let folder ← existingFolder directory root id
  let active ← active directory folder
  readVersion directory folder active serial

/-- A version of a stencil, the active one unless another is asked for, with all versions. -/
def load (directory : Directory) (root : Location) (id : String) (serial : Option Serial) :
    Except StoreFault LoadedStencil := do
  let folder ← existingFolder directory root id
  let active ← active directory folder
  match serial <|> active with
  | none => throw (.stencilNotFound id)
  | some target =>
      let snapshot ← readVersion directory folder active target
      match snapshot.file? File.mainConfigPath with
      | none => throw (.missingMainConfig id)
      | some config =>
          let versions ← versionsIn directory folder
          return {
            stencilId := id
            serial := target
            settings := (Settings.ofText? config.content).getD {}
            files := snapshot.files
            versions }

theorem versionFile_eq (folder : Location) (serial : Serial) :
    versionFile folder serial = folder ++ [versionsName, versionName serial] := by
  unfold versionFile versionsFolder
  rw [List.append_assoc, List.singleton_append]

theorem stencilFolder_eq_ok {root folder : Location} {id : String}
    (h : stencilFolder root id = .ok folder) :
    folder = root ++ [id] ∧ Bundle.isStencilId id = true := by
  unfold stencilFolder at h
  split at h
  · cases h
    exact ⟨rfl, ‹_›⟩
  · cases h

end Store

end StencilDesk
