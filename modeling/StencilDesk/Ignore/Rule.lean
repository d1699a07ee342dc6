import StencilDesk.Ignore.Glob
import StencilDesk.Text.Blank

/-!
# Ignore rules

A line of an ignore file says which files are left out, or, after an exclamation mark, which are
kept nevertheless. A glob without a slash applies at every depth, one with a slash only from the
folder of the file on, and a slash at its end restricts it to folders. Of several rules that apply
the last one decides.
-/

namespace StencilDesk

inductive Verdict where
  | leaveOut
  | keep
deriving DecidableEq, Repr

structure IgnoreRule where
  glob : Glob
  /-- Holds of rules that keep what they apply to. -/
  keeps : Bool
  foldersOnly : Bool
deriving DecidableEq, Repr

namespace IgnoreRule

structure Pattern where
  text : List Char
  keeps : Bool := false
  /-- Holds if the pattern applies only from the folder of its file on. -/
  anchored : Bool := false
  foldersOnly : Bool := false
deriving DecidableEq, Repr

/-- Drops white space at the end of a line, unless the line ends with an escaped space. -/
def trimLine (line : List Char) : List Char :=
  if ['\\', ' '].isSuffixOf line then line else Text.trimEnd line

def takeAnchor (pattern : Pattern) : Pattern :=
  match pattern.text with
  | '/' :: rest => { pattern with text := rest, anchored := true }
  | _ => pattern

/-- Takes the signs from the start of a line. A backslash keeps a sign from being one. -/
def takeSigns : List Char → Pattern
  | '\\' :: '!' :: rest => { text := '!' :: rest }
  | '\\' :: '#' :: rest => { text := '#' :: rest }
  | '!' :: rest => takeAnchor { text := rest, keeps := true }
  | text => takeAnchor { text }

/-- Takes a slash from the end of a pattern, together with a backslash before it. -/
def takeFolderSign (pattern : Pattern) : Pattern :=
  match pattern.text.reverse with
  | '/' :: '\\' :: rest => { pattern with text := rest.reverse, foldersOnly := true }
  | '/' :: rest => { pattern with text := rest.reverse, foldersOnly := true }
  | _ => pattern

/-- The text of the glob for a pattern; one that applies at every depth starts with two stars. -/
def globText (pattern : Pattern) : List Char :=
  let text := pattern.text
  let text :=
    if pattern.anchored || text.contains '/' || text == ['*', '*'] then text
    else ['*', '*', '/'] ++ text
  if ['/', '*', '*'].isSuffixOf text then text ++ ['/', '*'] else text

/-- The rule of a line; comments and empty lines have none. -/
def ofLine (allowUnclosed : Bool) (line : List Char) : Except GlobFault (Option IgnoreRule) :=
  if line.head? = some '#' then .ok none
  else
    let line := trimLine line
    if line.isEmpty then .ok none
    else
      let pattern := takeFolderSign (takeSigns line)
      match Glob.ofText allowUnclosed (globText pattern) with
      | .error fault => .error fault
      | .ok glob => .ok (some ⟨glob, pattern.keeps, pattern.foldersOnly⟩)

def applies (rule : IgnoreRule) (path : String) (isFolder : Bool) : Bool :=
  (isFolder || !rule.foldersOnly) && rule.glob.accepts path

def verdict (rule : IgnoreRule) : Verdict :=
  if rule.keeps then .keep else .leaveOut

/-- What the last rule that applies to a path says. -/
def verdict? (rules : List IgnoreRule) (path : String) (isFolder : Bool) : Option Verdict :=
  (rules.reverse.find? fun rule => rule.applies path isFolder).map verdict

/-- The rules of lines; lines that cannot be read are left out. -/
def ofLines (allowUnclosed : Bool) (lines : List (List Char)) : List IgnoreRule :=
  lines.filterMap fun line =>
    match ofLine allowUnclosed line with
    | .ok rule => rule
    | .error _ => none

def anyFault (allowUnclosed : Bool) (lines : List (List Char)) : Bool :=
  lines.any fun line =>
    match ofLine allowUnclosed line with
    | .ok _ => false
    | .error _ => true

end IgnoreRule

end StencilDesk
