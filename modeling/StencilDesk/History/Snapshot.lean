import StencilDesk.Bundle.File
import StencilDesk.History.Serial
import StencilDesk.Json

/-!
# Snapshots

A saved version of a whole bundle, and its stored form. Whether a version is the active one is
noted when it is saved, but whoever reads it decides that anew.
-/

namespace StencilDesk

namespace File

def toJson (file : File) : Json :=
  .object
    [("path", .string file.path), ("name", .string file.name), ("content", .string file.content),
     ("kind", .string file.kind.text), ("editable", .bool file.editable)]

/-- The word for a kind: by itself, or as the only key of an object that holds null. -/
def kindOfJson? : Json → Option FileKind
  | .string word => FileKind.ofText? word
  | .object [(word, .null)] => FileKind.ofText? word
  | _ => none

/-- Reads the stored form of a file; its name and kind are taken as they are stored. -/
def ofJson? (value : Json) : Option File := do
  let fields ← value.record? ["path", "name", "content", "kind", "editable"]
  match fields with
  | [some path, some name, some content, some kind, some editable] =>
      return {
        path := ← path.text?
        name := ← name.text?
        content := ← content.text?
        kind := ← kindOfJson? kind
        editable := ← editable.bool? }
  | _ => none

end File

structure Snapshot where
  serial : Serial
  createdAt : Timestamp
  createdBy : String
  isActive : Bool
  message : Option String
  files : List File
deriving DecidableEq, Repr

namespace Snapshot

def file? (snapshot : Snapshot) (path : String) : Option File :=
  File.find? snapshot.files path

/-- The stored form of a version; there is none if its time cannot be written. -/
def toJson? (snapshot : Snapshot) : Option Json :=
  snapshot.createdAt.text?.map fun time =>
    .object
      [("serial", .string snapshot.serial.text), ("created_at", .string time),
       ("created_by", .string snapshot.createdBy), ("is_active", .bool snapshot.isActive),
       ("message", Json.ofOption snapshot.message),
       ("files", .array (snapshot.files.map File.toJson))]

def orElse {α : Type} (missing : α) (read : Json → Option α) : Option Json → Option α
  | some value => read value
  | none => some missing

def ofJson? (value : Json) : Option Snapshot := do
  let fields ←
    value.record? ["serial", "created_at", "created_by", "is_active", "message", "files"]
  match fields with
  | [some serial, some createdAt, some createdBy, isActive, message, some files] =>
      let serial ← serial.text?
      let serial ← (Serial.ofText serial).toOption
      let createdAt ← createdAt.text?
      let files ← files.items?
      return {
        serial
        createdAt := ← Timestamp.ofText? createdAt
        createdBy := ← createdBy.text?
        isActive := ← orElse false Json.bool? isActive
        message := ← orElse none Json.optionalText? message
        files := ← files.mapM File.ofJson? }
  | _ => none

def text? (snapshot : Snapshot) : Option String :=
  snapshot.toJson?.map Json.pretty

def ofText? (text : String) : Option Snapshot :=
  (Json.ofText? text).bind ofJson?

/-- What is written of a version whose time cannot be written: everything before the time. -/
def brokenText (snapshot : Snapshot) : String :=
  String.ofList
    ('{' :: Json.newLine 1 ++ Json.quoted "serial" ++
      ':' :: ' ' :: Json.quoted snapshot.serial.text ++
      ',' :: Json.newLine 1 ++ Json.quoted "created_at" ++ [':', ' '])

end Snapshot

end StencilDesk
