import StencilDesk.Finding
import StencilDesk.Text.Position

/-!
# What can be wrong with a template

Each issue has a severity, a code and a wording. Most issues stand at a line and column, an
unbalanced brace only on a line, and an unused variable nowhere.
-/

namespace StencilDesk
namespace Template

inductive Issue where
  | unmatchedClosing (name : String)
  | mismatch (opened : String) (openedLine : Nat) (closed : String)
  | unclosed (name : String)
  | emptyReference
  | invalidReference (expression : String)
  | unmatchedCommentClose
  | nestedComment
  | unterminatedComment
  | unterminatedInterpolation
  | unmatchedBrace
  | unusedVariable (name : String)
deriving DecidableEq, Repr

namespace Issue

def severity : Issue → Severity
  | invalidReference _ | nestedComment | unmatchedBrace => .warning
  | unusedVariable _ => .info
  | _ => .error

def code : Issue → String
  | unmatchedClosing _ => "unmatched-closing-tag"
  | mismatch _ _ _ => "directive-mismatch"
  | unclosed _ => "unclosed-directive"
  | emptyReference => "empty-reference"
  | invalidReference _ => "invalid-reference"
  | unmatchedCommentClose => "unmatched-comment-close"
  | nestedComment => "nested-comment"
  | unterminatedComment => "unterminated-comment"
  | unterminatedInterpolation => "unterminated-interpolation"
  | unmatchedBrace => "unmatched-brace"
  | unusedVariable _ => "unused-expected-variable"

def message : Issue → String
  | unmatchedClosing name => s!"no matching opening tag for \x60</#{name}>\x60"
  | mismatch opened openedLine closed =>
      s!"directive mismatch: opened \x60<#{opened}>\x60 at line {openedLine}, " ++
        s!"closed \x60</#{closed}>\x60"
  | unclosed name => s!"unclosed directive \x60<#{name}>\x60"
  | emptyReference => "empty variable reference"
  | invalidReference expression =>
      "possibly invalid reference \x60$\x7b" ++ expression ++ "\x7d\x60"
  | unmatchedCommentClose => "comment close \x60-->\x60 without an open comment"
  | nestedComment => "nested \x60<#--\x60 inside a comment"
  | unterminatedComment => "unterminated comment"
  | unterminatedInterpolation => "unterminated interpolation"
  | unmatchedBrace => "unmatched closing brace"
  | unusedVariable name => s!"expected variable \x60{name}\x60 is never referenced"

end Issue

inductive Spot where
  | nowhere
  | line (line : Nat)
  | at (position : Text.Position)
deriving DecidableEq, Repr

structure Located where
  spot : Spot
  issue : Issue
deriving DecidableEq, Repr

namespace Located

def finding (file : String) (located : Located) : Finding where
  severity := located.issue.severity
  message := located.issue.message
  file := file
  line := match located.spot with
    | .nowhere => none
    | .line line => some line
    | .at position => some position.line
  column := match located.spot with
    | .at position => some position.column
    | _ => none
  code := some located.issue.code

end Located

end Template
end StencilDesk
