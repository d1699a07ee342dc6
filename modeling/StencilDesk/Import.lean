import StencilDesk.Bundle.File
import StencilDesk.Directory
import StencilDesk.Ignore.Exclusion
import StencilDesk.Text.Quoted

/-!
# Importing bundles

The files of a folder as a bundle. Files that are hidden or left out by ignore rules do not come
along, nor does anything in such a folder, nor files that are not text. Ignore rules are in files
of the folder, of its folders, and of all folders above it: those for every tool count before those
for version control, and of each sort those in the nearest folder count first.
-/

namespace StencilDesk

inductive ImportFault where
  | notADirectory (path : String)
  /-- An ignore file above the folder has a pattern that cannot be read. -/
  | unreadableRules
deriving DecidableEq, Repr

namespace ImportFault

def message : ImportFault → String
  | notADirectory path => s!"Not a bundle directory: {Text.quoted path}"
  | unreadableRules => "Could not walk the bundle directory:"

end ImportFault

namespace Import

/-- The ignore files of a folder, in the order in which their rules count. -/
def ignoreFiles : List Location :=
  [[".ignore"], [".gitignore"], [".git", "info", "exclude"]]

/-- Drops byte order marks from the start of the first line. -/
def withoutMarks : List (List Char) → List (List Char)
  | [] => []
  | first :: rest => first.dropWhile (· == '\ufeff') :: rest

def byteLines (bytes : List UInt8) : List (List UInt8) :=
  Text.dropReturns 0x0D (bytes.splitOn 0x0A)

/-- The lines of some bytes up to the first one that is not text. -/
def textLines (lines : List (List UInt8)) : List (List Char) :=
  let decoded := lines.map fun line => String.fromUTF8? (ByteArray.mk line.toArray)
  (decoded.takeWhile Option.isSome).filterMap fun line => line.map String.toList

def ignoreLines (directory : Directory) (location : Location) : List (List Char) :=
  match directory.content? location with
  | none => []
  | some (.text text) => withoutMarks (Text.readLines text.toList)
  | some (.bytes bytes) => withoutMarks (textLines (byteLines bytes))

def rulesIn (directory : Directory) (folder file : Location) : List IgnoreRule :=
  IgnoreRule.ofLines true (ignoreLines directory (folder ++ file))

def foldersAround (location : Location) : List Location :=
  (Directory.way location.dropLast).reverse

/-- What the nearest rules of one sort say of a location. -/
def verdictOf? (directory : Directory) (file location : Location) (isFolder : Bool) :
    Option Verdict :=
  (foldersAround location).findSome? fun folder =>
    IgnoreRule.verdict? (rulesIn directory folder file)
      (Directory.locationText (location.drop folder.length)) isFolder

def ignoreVerdict? (directory : Directory) (location : Location) (isFolder : Bool) :
    Option Verdict :=
  ignoreFiles.findSome? fun file => verdictOf? directory file location isFolder

/-- Holds of names that are not hidden. Placeholders are not, though their name starts with a
point. -/
def isVisible (name : String) : Bool :=
  name.toList.head? != some '.' || name == FileKind.placeholderName

/-- Holds if a file or folder below the imported one is not hidden and not left out by itself. -/
def passes (directory : Directory) (exclusions : Exclusions) (root path : Location)
    (isFolder : Bool) : Bool :=
  let verdict := exclusions.verdict? (Directory.locationText path) isFolder <|>
    ignoreVerdict? directory (root ++ path) isFolder
  verdict != some .leaveOut && path.getLast?.all isVisible

/-- Holds if a file comes along: it passes, and so do the folders above it. -/
def comesAlong (directory : Directory) (exclusions : Exclusions) (root path : Location) : Bool :=
  ((Directory.way path.dropLast).drop 1).all
    (fun folder => passes directory exclusions root folder true) &&
    passes directory exclusions root path false

def bundlePath (path : Location) : String :=
  Path.root ++ Directory.locationText path

def textsBelow (directory : Directory) (root : Location) : List (Location × String) :=
  directory.items.filterMap fun
    | (location, .file (.text text)) =>
        if root.isPrefixOf location && root.length < location.length then
          some (location.drop root.length, text)
        else none
    | _ => none

/-- Holds if an ignore file above a folder has a pattern that cannot be read. -/
def anyFaultAbove (directory : Directory) (root : Location) : Bool :=
  (Directory.way root).dropLast.any fun folder =>
    ignoreFiles.any fun file => IgnoreRule.anyFault true (ignoreLines directory (folder ++ file))

def sortedFiles (files : List File) : List File :=
  files.mergeSort fun a b => a.path ≤ b.path

/-- Imports a folder, of which the text is only shown in faults. -/
def bundle (directory : Directory) (root : Location) (rootText : String) (patterns : List String) :
    Except ImportFault (List File) :=
  if !directory.isFolder root then .error (.notADirectory rootText)
  else if anyFaultAbove directory root then .error .unreadableRules
  else
    let exclusions := Exclusions.ofPatterns patterns
    let files := (textsBelow directory root).filter fun file =>
      comesAlong directory exclusions root file.1
    .ok (sortedFiles (files.map fun file => File.ofPath (bundlePath file.1) file.2))

end Import

end StencilDesk
