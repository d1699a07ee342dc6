import StencilDesk.Template.Issue
import StencilDesk.Text.Blank
import StencilDesk.Text.Split

/-!
# References

Interpolations such as `${user.name}`. Their expressions should be references: an identifier with
further identifiers behind points, question marks or exclamation marks, perhaps one group of
parentheses, and any number of non-empty groups of brackets. Braces are also counted line by line.
-/

namespace StencilDesk
namespace Template

/-- The expression of the interpolation at the start of a text, and the interpolation's length. -/
def interpolation? : List Char → Option (List Char × Nat)
  | '$' :: '{' :: rest =>
      if (rest.dropWhile (· != '}')).isEmpty then none
      else
        let expression := rest.takeWhile (· != '}')
        some (expression, expression.length + 3)
  | _ => none

def interpolations (text : List Char) : List (Text.Position × List Char) :=
  Text.occurrences interpolation? text

def isIdentifierStart (c : Char) : Bool :=
  c.isAlpha || c == '_'

def isIdentifierChar (c : Char) : Bool :=
  c.isAlphanum || c == '_'

inductive ReferenceState where
  /-- Before an identifier. -/
  | start
  | identifier
  | parentheses
  /-- Inside brackets, of which the content may not be empty. -/
  | brackets (filled : Bool)
  /-- Behind a closed group. -/
  | closed
deriving DecidableEq, Repr

namespace ReferenceState

def step : ReferenceState → Char → Option ReferenceState
  | start, c => if isIdentifierStart c then some identifier else none
  | identifier, c =>
      if isIdentifierChar c then some identifier
      else if c = '.' ∨ c = '?' ∨ c = '!' then some start
      else if c = '(' then some parentheses
      else if c = '[' then some (brackets false)
      else none
  | parentheses, c =>
      if c = ')' then some closed else if c = '(' then none else some parentheses
  | brackets filled, c =>
      if c = ']' then if filled then some closed else none
      else if c = '[' then none
      else some (brackets true)
  | closed, c => if c = '[' then some (brackets false) else none

def accepts : ReferenceState → Bool
  | identifier | closed => true
  | _ => false

def run : ReferenceState → List Char → Bool
  | state, [] => state.accepts
  | state, c :: rest =>
      match state.step c with
      | some next => run next rest
      | none => false

end ReferenceState

def isReference (expression : List Char) : Bool :=
  ReferenceState.run .start expression

def referenceIssue? (expression : List Char) : Option Issue :=
  let trimmed := Text.trim expression
  if trimmed.isEmpty then some .emptyReference
  else if isReference trimmed then none
  else some (.invalidReference (String.ofList trimmed))

def referenceIssues (masked : List Char) : List Located :=
  (interpolations masked).filterMap fun (position, expression) =>
    (referenceIssue? expression).map fun issue => ⟨.at position, issue⟩

def countOpenings : List Char → Nat
  | '$' :: '{' :: rest => countOpenings rest + 1
  | _ :: rest => countOpenings rest
  | [] => 0

def braceIssue? (line : List Char) : Option Issue :=
  let opened := countOpenings line
  let closed := line.count '}'
  if closed < opened then some .unterminatedInterpolation
  else if opened < closed then some .unmatchedBrace
  else none

/-- The brace issues of lines, the first of which has the given number. -/
def lineIssues : Nat → List (List Char) → List Located
  | _, [] => []
  | number, line :: rest =>
      match braceIssue? line with
      | some issue => ⟨.line number, issue⟩ :: lineIssues (number + 1) rest
      | none => lineIssues (number + 1) rest

def braceIssues (masked : List Char) : List Located :=
  lineIssues 1 (Text.lines masked)

/-- The identifier with which an expression starts, after white space. -/
def leadingIdentifier? (expression : List Char) : Option (List Char) :=
  match Text.trimStart expression with
  | c :: rest =>
      if isIdentifierStart c then some (c :: rest.takeWhile isIdentifierChar) else none
  | [] => none

def referencedNames (masked : List Char) : List String :=
  (interpolations masked).filterMap fun (_, expression) =>
    (leadingIdentifier? expression).map String.ofList

def unusedNames (expected : List String) (masked : List Char) : List Located :=
  (expected.filter fun name => !(referencedNames masked).contains name).map fun name =>
    ⟨.nowhere, .unusedVariable name⟩

end Template
end StencilDesk
