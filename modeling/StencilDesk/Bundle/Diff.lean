import StencilDesk.Bundle.Tree

/-!
# Comparing bundles

How many lines were added and deleted. Texts are compared line by line at equal positions: a line
that differs counts as one deleted and one added, and lines without a partner count once. Bundles
are compared file by file, in the order of the tree of both together.
-/

namespace StencilDesk

structure DiffStat where
  additions : Nat := 0
  deletions : Nat := 0
deriving DecidableEq, Repr, Inhabited

namespace DiffStat

def add (a b : DiffStat) : DiffStat :=
  ⟨a.additions + b.additions, a.deletions + b.deletions⟩

def isEmpty (stat : DiffStat) : Bool :=
  stat.additions == 0 && stat.deletions == 0

def ofLines : List (List Char) → List (List Char) → DiffStat
  | [], [] => {}
  | [], _ :: new => (ofLines [] new).add ⟨1, 0⟩
  | _ :: old, [] => (ofLines old []).add ⟨0, 1⟩
  | a :: old, b :: new =>
      if a = b then ofLines old new else (ofLines old new).add ⟨1, 1⟩

def ofTexts (old new : String) : DiffStat :=
  ofLines (Text.lines old.toList) (Text.lines new.toList)

end DiffStat

def lineCount (text : String) : Nat :=
  if text.toList.isEmpty then 0 else (Text.lines text.toList).length

inductive FileStatus where
  | added
  | removed
  | modified
  | unchanged
deriving DecidableEq, Repr, Inhabited

namespace FileStatus

def text : FileStatus → String
  | added => "added"
  | removed => "removed"
  | modified => "modified"
  | unchanged => "unchanged"

def title : FileStatus → String
  | added => "Added"
  | removed => "Removed"
  | modified => "Modified"
  | unchanged => "Unchanged"

end FileStatus

structure FileDiff where
  path : String
  status : FileStatus
  stat : DiffStat
deriving DecidableEq, Repr, Inhabited

structure BundleDiff where
  files : List FileDiff := []
  total : DiffStat := {}
deriving DecidableEq, Repr, Inhabited

namespace BundleDiff

def lastContent? (files : List File) (path : String) : Option String :=
  (File.find? files.reverse path).map File.content

def compareContents? (path : String) : Option String → Option String → Option FileDiff
  | none, none => none
  | none, some new => some ⟨path, .added, ⟨lineCount new, 0⟩⟩
  | some old, none => some ⟨path, .removed, ⟨0, lineCount old⟩⟩
  | some old, some new =>
      if old = new then some ⟨path, .unchanged, {}⟩
      else some ⟨path, .modified, DiffStat.ofTexts old new⟩

/-- The files of two bundles together: all of the new one, and those that only the old one has. -/
def merge (old new : List File) : List File :=
  new ++ old.filter fun file => !File.existsAt new file.path

def compare (old new : List File) : BundleDiff :=
  let files := (TreeNode.ofFiles (merge old new)).filePaths.filterMap fun path =>
    compareContents? path (lastContent? old path) (lastContent? new path)
  { files, total := files.foldl (fun total file => total.add file.stat) {} }

def changed (diff : BundleDiff) : List FileDiff :=
  diff.files.filter fun file => file.status != .unchanged

def file? (diff : BundleDiff) (path : String) : Option FileDiff :=
  diff.files.find? fun file => file.path == path

end BundleDiff

end StencilDesk
