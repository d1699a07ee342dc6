import StencilDesk.Bundle.Edit
import StencilDesk.Bundle.Tree

/-!
# Walking through the tree

Which folders of a tree are expanded, and which row is selected. Rows are the nodes that can be
seen: all children of the root, and the children of every expanded folder that can be seen.
-/

namespace StencilDesk

inductive NavigationKey where
  | up
  | down
  | left
  | right
  | enter
deriving DecidableEq, Repr

namespace NavigationKey

def text : NavigationKey → String
  | up => "Up"
  | down => "Down"
  | left => "Left"
  | right => "Right"
  | enter => "Enter"

end NavigationKey

structure VisibleRow where
  path : String
  name : String
  depth : Nat
  isFolder : Bool
  expanded : Bool
deriving DecidableEq, Repr

inductive NavigationOutcome where
  | moved (path : String)
  | expanded (path : String)
  | collapsed (path : String)
  | openFile (path : String)
  | unchanged
deriving DecidableEq, Repr

structure Navigator where
  tree : TreeNode
  expanded : List String := []
  selected : Option String

mutual

def TreeNode.visibleRows (expanded : List String) : Nat → TreeNode → List VisibleRow
  | depth, .file name path _ => [⟨path, name, depth, false, false⟩]
  | depth, .folder name path children =>
      if expanded.contains path then
        ⟨path, name, depth, true, true⟩ :: TreeNode.visibleRowsOfAll expanded (depth + 1) children
      else [⟨path, name, depth, true, false⟩]

def TreeNode.visibleRowsOfAll (expanded : List String) : Nat → List TreeNode → List VisibleRow
  | _, [] => []
  | depth, node :: rest =>
      TreeNode.visibleRows expanded depth node ++ TreeNode.visibleRowsOfAll expanded depth rest

end

namespace Navigator

/-- The rows that can be seen. The root has no row. -/
def rows (n : Navigator) : List VisibleRow :=
  TreeNode.visibleRowsOfAll n.expanded 0 n.tree.children

/-- A tree of which no folder is expanded, with its first row selected. -/
def ofTree (tree : TreeNode) : Navigator :=
  { tree, selected := tree.children.head?.map TreeNode.path }

def isExpanded (n : Navigator) (path : String) : Bool :=
  n.expanded.contains path

def expand (n : Navigator) (path : String) : Navigator :=
  { n with expanded := n.expanded.insert path }

def collapse (n : Navigator) (path : String) : Navigator :=
  { n with expanded := n.expanded.filter (· != path) }

def isFolderIn (tree : TreeNode) (path : String) : Bool :=
  (tree.find? path).any TreeNode.isFolder

def isSelectionVisible (n : Navigator) : Bool :=
  n.selected.any fun path => n.rows.any fun row => row.path == path

/--
Replaces the tree. Folders that are still there stay expanded, and the selection stays if it can
still be seen; else the first row is selected.
-/
def setTree (n : Navigator) (tree : TreeNode) : Navigator :=
  let n := { n with tree, expanded := n.expanded.filter (isFolderIn tree) }
  if n.isSelectionVisible then n
  else { n with selected := n.rows.head?.map VisibleRow.path }

/-- Selects a path and expands the folders above it, if the tree has it. -/
def reveal (n : Navigator) (path : String) : Bool × Navigator :=
  if (n.tree.find? path).isNone || path == Path.root then (false, n)
  else
    let n := (Bundle.ancestors path.toList.length path).foldl expand n
    (true, { n with selected := some path })

def select (n : Navigator) (path : String) : NavigationOutcome × Navigator :=
  (.moved path, { n with selected := some path })

def selectRow (n : Navigator) : Option VisibleRow → NavigationOutcome × Navigator
  | some row => n.select row.path
  | none => (.unchanged, n)

def expandRow (n : Navigator) (path : String) : NavigationOutcome × Navigator :=
  (.expanded path, n.expand path)

def collapseRow (n : Navigator) (path : String) : NavigationOutcome × Navigator :=
  (.collapsed path, n.collapse path)

/-- What a key does while a row is selected, given the rows before, nearest first, and after it. -/
def pressAt (n : Navigator) (before : List VisibleRow) (row : VisibleRow)
    (after : List VisibleRow) : NavigationKey → NavigationOutcome × Navigator
  | .down => n.selectRow after.head?
  | .up => n.selectRow before.head?
  | .right =>
      if row.isFolder && !row.expanded then n.expandRow row.path
      else if row.isFolder then
        n.selectRow (after.head?.filter fun child => row.depth < child.depth)
      else (.unchanged, n)
  | .left =>
      if row.isFolder && row.expanded then n.collapseRow row.path
      else if Path.parent row.path = Path.root then (.unchanged, n)
      else n.select (Path.parent row.path)
  | .enter =>
      if !row.isFolder then (.openFile row.path, n)
      else if row.expanded then n.collapseRow row.path
      else n.expandRow row.path

def pressFrom (n : Navigator) (path : String) (key : NavigationKey) :
    List VisibleRow → List VisibleRow → NavigationOutcome × Navigator
  | _, [] => n.selectRow n.rows.head?
  | before, row :: after =>
      if row.path = path then n.pressAt before row after key
      else pressFrom n path key (row :: before) after

/-- What a key does. Without a selection that can be seen, every key selects the first row. -/
def press (n : Navigator) (key : NavigationKey) : NavigationOutcome × Navigator :=
  match n.selected with
  | none => n.selectRow n.rows.head?
  | some path => n.pressFrom path key [] n.rows

end Navigator

end StencilDesk
