import StencilDesk.Bundle.File

/-!
# The tree of a bundle

Folders exist only as parts of the paths of files. The tree shows them: in every folder first the
folders and then the files, each in the order of their names. Which file comes first in the list
makes no difference.
-/

namespace StencilDesk

inductive TreeNode where
  | file (name path : String) (kind : FileKind)
  | folder (name path : String) (children : List TreeNode)
deriving Repr, Inhabited

namespace TreeNode

def name : TreeNode → String
  | file name _ _ => name
  | folder name _ _ => name

def path : TreeNode → String
  | file _ path _ => path
  | folder _ path _ => path

def children : TreeNode → List TreeNode
  | file _ _ _ => []
  | folder _ _ children => children

def isFolder : TreeNode → Bool
  | file _ _ _ => false
  | folder _ _ _ => true

def fileKind? : TreeNode → Option FileKind
  | file _ _ kind => some kind
  | folder _ _ _ => none

/-- Holds if a node is listed no later than another one of the same folder. -/
def le (a b : TreeNode) : Bool :=
  match a.isFolder, b.isFolder with
  | true, false => true
  | false, true => false
  | _, _ => a.name ≤ b.name

/-- Puts a node behind those that are listed no later. -/
def insertNode (node : TreeNode) : List TreeNode → List TreeNode
  | [] => [node]
  | first :: rest =>
      if first.le node then first :: insertNode node rest else node :: first :: rest

def isFolderNamed (name : String) (node : TreeNode) : Bool :=
  node.isFolder && node.name == name

def mapChildren (f : List TreeNode → List TreeNode) : TreeNode → TreeNode
  | file name path kind => file name path kind
  | folder name path children => folder name path (f children)

/-- Adds a file below a folder with the given children, opening the folders on its way. -/
def addFile (kind : FileKind) : String → List String → List TreeNode → List TreeNode
  | _, [], nodes => nodes
  | parent, [name], nodes => insertNode (file name (parent ++ "/" ++ name) kind) nodes
  | parent, name :: next :: rest, nodes =>
      let path := parent ++ "/" ++ name
      if nodes.any (isFolderNamed name) then
        nodes.map fun node =>
          if node.isFolderNamed name then node.mapChildren (addFile kind path (next :: rest))
          else node
      else insertNode (folder name path (addFile kind path (next :: rest) [])) nodes

/-- The tree of a list of files. A path without segments has no place in it. -/
def ofFiles (files : List File) : TreeNode :=
  folder Path.root Path.root
    (files.foldl (fun nodes file => addFile file.kind "" (Path.segments file.path) nodes) [])

mutual

/-- The nodes of a tree with their depths, a folder before its children. -/
def rows : Nat → TreeNode → List (Nat × TreeNode)
  | depth, file name path kind => [(depth, file name path kind)]
  | depth, folder name path children =>
      (depth, folder name path children) :: rowsOfAll (depth + 1) children

def rowsOfAll : Nat → List TreeNode → List (Nat × TreeNode)
  | _, [] => []
  | depth, node :: rest => rows depth node ++ rowsOfAll depth rest

end

def nodes (tree : TreeNode) : List TreeNode :=
  (tree.rows 0).map Prod.snd

def find? (tree : TreeNode) (path : String) : Option TreeNode :=
  tree.nodes.find? fun node => node.path == path

def filePaths (tree : TreeNode) : List String :=
  ((tree.nodes.drop 1).filter fun node => !node.isFolder).map path

def fileCount (tree : TreeNode) : Nat :=
  tree.filePaths.length

end TreeNode

end StencilDesk
