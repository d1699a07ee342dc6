import StencilDesk.Text.Blank
import StencilDesk.Text.Split

/-!
# Paths

Places inside a bundle. A path is well formed if it is the root, or starts with a slash and has
only proper segments: none is empty, a point, or two points. Two points are reported apart from
all else that is wrong, since they reach outside the bundle.
-/

namespace StencilDesk

inductive PathFault where
  | traversal (path : String)
  | invalid (path : String)
deriving DecidableEq, Repr

namespace PathFault

def message : PathFault → String
  | traversal path => s!"Path traversal is not allowed: {path}"
  | invalid path => s!"Invalid stencil path: {path}"

end PathFault

namespace Path

def root : String := "/"

def pieces (path : String) : List (List Char) :=
  Text.splitOn '/' path.toList

def segments (path : String) : List String :=
  ((pieces path).filter fun piece => !piece.isEmpty).map String.ofList

/-- Checks the pieces behind the first slash of a path; the first bad one decides. -/
def checkPieces (path : String) : List (List Char) → Except PathFault Unit
  | [] => .ok ()
  | piece :: rest =>
      if piece = ['.', '.'] then .error (.traversal path)
      else if piece = ['.'] ∨ piece = [] then .error (.invalid path)
      else checkPieces path rest

def check (path : String) : Except PathFault Unit :=
  if path.toList.head? ≠ some '/' then .error (.invalid path)
  else if path = root then .ok ()
  else checkPieces path ((pieces path).drop 1)

def checkName (name : String) : Except PathFault Unit :=
  if name = ".." then .error (.traversal name)
  else if name.toList.all Text.isBlank ∨ name = "." ∨ '/' ∈ name.toList then
    .error (.invalid name)
  else .ok ()

def join (parent name : String) : String :=
  if parent = root then root ++ name else parent ++ "/" ++ name

def name (path : String) : String :=
  String.ofList ((path.toList.reverse.takeWhile (· != '/')).reverse)

/-- The folder that holds a path; the root for top level paths, and for texts without a slash. -/
def parent (path : String) : String :=
  match path.toList.reverse.dropWhile (· != '/') with
  | [] => root
  | _ :: before => if before.isEmpty then root else String.ofList before.reverse

end Path

end StencilDesk
