import StencilDesk.Text.Blank
import StencilDesk.Text.Split

/-!
# Finding the line of a field

The line on which a field of a configuration document stands, told from the text alone. Each key
of the field's path is looked up among the direct keys of the block of the key before it: the lines
indented like that block's first line, up to the first line indented no deeper than the key before.
Blank lines and comment lines do not count.
-/

namespace StencilDesk
namespace Config

/-- How deep a line is indented, in bytes, and its text behind the indentation. -/
def indented (line : List Char) : Nat × List Char :=
  let margin := line.takeWhile Text.isBlank
  (margin.foldl (fun width c => width + c.utf8Size) 0, Text.trimStart line)

/-- Holds if a text starts with a key, followed by a colon perhaps behind white space. -/
def startsWithKey (key text : List Char) : Bool :=
  key.isPrefixOf text && (Text.trimStart (text.drop key.length)).head? == some ':'

/-- Holds of blank lines and comment lines, given without indentation. -/
def isSilent (text : List Char) : Bool :=
  text.isEmpty || text.head? == some '#'

/--
Looks for a key in the block of the key before it. Gives how many lines stand before it, its
indentation, and the lines behind it.
-/
def findKey (key : List Char) (parent : Option Nat) :
    Option Nat → List (List Char) → Option (Nat × Nat × List (List Char))
  | _, [] => none
  | level, line :: rest =>
      let (indent, text) := indented line
      let later (level : Option Nat) :=
        (findKey key parent level rest).map fun (before, found) => (before + 1, found)
      if isSilent text then later level
      else if parent.any fun parent => indent ≤ parent then none
      else
        let level := level.getD indent
        if indent = level ∧ startsWithKey key text then some (0, indent, rest)
        else later (some level)

def findPath : Option Nat → Nat → List (List Char) → List (List Char) → Option Nat
  | _, _, _, [] => none
  | parent, number, lines, key :: keys =>
      match findKey key parent none lines with
      | none => none
      | some (before, indent, rest) =>
          if keys.isEmpty then some (number + before)
          else findPath (some indent) (number + before + 1) rest keys

def lineOfField (source path : String) : Option Nat :=
  findPath none 1 (Text.lines source.toList) (Text.splitOn '.' path.toList)

end Config
end StencilDesk
