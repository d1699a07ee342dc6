import StencilDesk.Directory
import StencilDesk.Json
import StencilDesk.Text.Blank
import StencilDesk.Text.Lowercase

/-!
# Preferences

What an operator's computer remembers between runs: where the store is, who saves versions, and
which stencil was worked on last. The preferences are one file in a folder for the application,
which is made when it is first needed.
-/

namespace StencilDesk

structure Preferences where
  storeRoot : Option String := none
  author : Option String := none
  lastStencilId : Option String := none
deriving DecidableEq, Repr, Inhabited

inductive PreferencesFault where
  /-- A file or folder cannot be read or written. -/
  | access
  /-- The stored text cannot be read. -/
  | format
  | noFolder
deriving DecidableEq, Repr

namespace PreferencesFault

def message : PreferencesFault → String
  | access => "Configuration I/O error:"
  | format => "Configuration format error:"
  | noFolder => "Could not determine project directory for configuration"

def hasSource : PreferencesFault → Bool
  | access | format => true
  | noFolder => false

end PreferencesFault

inductive PreferencesPlace where
  /-- In a folder of their own. -/
  | folder (location : Location)
  /-- Below a folder for all applications, under the name of the application. -/
  | below (location : Location)
deriving DecidableEq, Repr

namespace Preferences

def toJson (preferences : Preferences) : Json :=
  .object
    [("store_root", Json.ofOption preferences.storeRoot),
     ("author", Json.ofOption preferences.author),
     ("last_stencil_id", Json.ofOption preferences.lastStencilId)]

def optionalField : Option Json → Option (Option String)
  | some value => value.optionalText?
  | none => some none

def ofJson? (value : Json) : Option Preferences := do
  match ← value.record? ["store_root", "author", "last_stencil_id"] with
  | [storeRoot, author, lastStencilId] =>
      return {
        storeRoot := ← optionalField storeRoot
        author := ← optionalField author
        lastStencilId := ← optionalField lastStencilId }
  | _ => none

def text (preferences : Preferences) : String :=
  preferences.toJson.pretty

def ofText? (text : String) : Option Preferences :=
  (Json.ofText? text).bind ofJson?

/-- The name of an application's folder: its name in lower case, without white space. -/
def folderName (application : String) : String :=
  String.ofList ((Text.words application.toList).flatMap Text.lowercase)

/-- The folder for an application; one that is not there is made. -/
def folder (place : PreferencesPlace) (application : String) (directory : Directory) :
    Except PreferencesFault (Location × Directory) :=
  match place with
  | .folder location =>
      match directory.makeFolders? location with
      | some directory => .ok (location, directory)
      | none => .error .access
  | .below home =>
      let location := Directory.locate home (folderName application)
      if directory.isOccupied location then .ok (location, directory)
      else
        match directory.makeFolders? location with
        | some directory => .ok (location, directory)
        | none => .error .noFolder

def fileName : String := "settings.json"

def storeName : String := "stencils"

def withFolder {α : Type} (place : PreferencesPlace) (application : String) (directory : Directory)
    (action : Location → Directory → Except PreferencesFault α × Directory) :
    Except PreferencesFault α × Directory :=
  match folder place application directory with
  | .error fault => (.error fault, directory)
  | .ok (location, directory) => action location directory

def userFolder (place : PreferencesPlace) (application : String) (directory : Directory) :
    Except PreferencesFault Location × Directory :=
  withFolder place application directory fun location directory => (.ok location, directory)

def read (directory : Directory) (file : Location) : Except PreferencesFault Preferences :=
  match directory.item? file with
  | none => .ok {}
  | some (.file (.text text)) =>
      match ofText? text with
      | some preferences => .ok preferences
      | none => .error .format
  | some _ => .error .format

/-- Loads the preferences; without a file there are none. -/
def load (place : PreferencesPlace) (application : String) (directory : Directory) :
    Except PreferencesFault Preferences × Directory :=
  withFolder place application directory fun location directory =>
    (read directory (location ++ [fileName]), directory)

def save (place : PreferencesPlace) (application : String) (preferences : Preferences)
    (directory : Directory) : Except PreferencesFault Unit × Directory :=
  withFolder place application directory fun location directory =>
    match directory.write? (location ++ [fileName]) (.text preferences.text) with
    | some directory => (.ok (), directory)
    | none => (.error .access, directory)

def defaultStoreRoot (place : PreferencesPlace) (application : String) (directory : Directory) :
    Except PreferencesFault Location × Directory :=
  withFolder place application directory fun location directory =>
    (.ok (location ++ [storeName]), directory)

end Preferences

end StencilDesk
