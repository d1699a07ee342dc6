import StencilDesk.Template.Issue
import StencilDesk.Text.Blank

/-!
# Directives

Tags such as `<#if x>` and `</#if>`. Some directives open a scope that their closing tag ends;
these tags have to be nested properly. A tag that closes itself opens no scope, and neither does a
declaration that assigns its value within the tag.
-/

namespace StencilDesk
namespace Template

def blockDirectives : List String :=
  ["if", "list", "items", "macro", "function", "switch", "assign", "local", "global",
   "compress", "escape", "noescape", "autoesc", "noautoesc", "outputformat", "attempt"]

/-- The directives that open a scope only if they do not assign a value. -/
def captureDirectives : List String :=
  ["assign", "local", "global"]

/-- A tag: whether it closes, its name, and what stands between the name and the end. -/
structure Tag where
  closing : Bool
  name : String
  attributes : List Char
deriving DecidableEq, Repr

namespace Tag

def isNameChar (c : Char) : Bool :=
  c.isAlpha || c == '_'

/-- The tag whose name starts the text, given how many characters stand before the name. -/
def body? (closing : Bool) (before : Nat) (text : List Char) : Option (Tag × Nat) :=
  let name := text.takeWhile isNameChar
  let behind := text.dropWhile isNameChar
  let attributes := behind.takeWhile (· != '>')
  if name.isEmpty || (behind.dropWhile (· != '>')).isEmpty then none
  else
    some (⟨closing, String.ofList name, attributes⟩,
      before + name.length + attributes.length + 1)

def recognise : List Char → Option (Tag × Nat)
  | '<' :: '/' :: '#' :: rest => body? true 3 rest
  | '<' :: '#' :: rest => body? false 2 rest
  | _ => none

/-- Holds of opening tags that are complete by themselves. -/
def isComplete (tag : Tag) : Bool :=
  (Text.trimEnd tag.attributes).getLast? == some '/' ||
    (captureDirectives.contains tag.name && tag.attributes.contains '=')

def isScope (tag : Tag) : Bool :=
  blockDirectives.contains tag.name && (tag.closing || !tag.isComplete)

end Tag

structure ScopeTag where
  position : Text.Position
  closing : Bool
  name : String
deriving DecidableEq, Repr

def scopeTags (masked : List Char) : List ScopeTag :=
  ((Text.occurrences Tag.recognise masked).filter fun found => found.2.isScope).map
    fun (position, tag) => ⟨position, tag.closing, tag.name⟩

/-- The issues of a sequence of scope tags, with the scopes that are open before it, innermost
first. -/
def scopeIssues : List ScopeTag → List ScopeTag → List Located
  | opened, [] => opened.reverse.map fun tag => ⟨.at tag.position, .unclosed tag.name⟩
  | opened, tag :: rest =>
      if tag.closing then
        match opened with
        | [] => ⟨.at tag.position, .unmatchedClosing tag.name⟩ :: scopeIssues [] rest
        | scope :: outer =>
            if scope.name = tag.name then scopeIssues outer rest
            else
              ⟨.at tag.position, .mismatch scope.name scope.position.line tag.name⟩ ::
                scopeIssues outer rest
      else scopeIssues (tag :: opened) rest

def directiveIssues (masked : List Char) : List Located :=
  scopeIssues [] (scopeTags masked)

end Template
end StencilDesk
