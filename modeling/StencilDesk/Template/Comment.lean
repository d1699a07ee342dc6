import StencilDesk.Template.Issue

/-!
# Comments

Template comments run from their opening marker to the next closing marker, or to the end of the
text. Masking replaces them by spaces, so that whatever is found behind them keeps its place.
Markup comments are followed as well, but only because they end with the same marker.
-/

namespace StencilDesk
namespace Template

def maskedChar (c : Char) : Char :=
  if c = '\n' then '\n' else ' '

/-- Masks comments; the first argument tells whether the text starts inside one. -/
def maskFrom : Bool → List Char → List Char
  | false, '<' :: '#' :: '-' :: '-' :: rest => ' ' :: ' ' :: ' ' :: ' ' :: maskFrom true rest
  | false, c :: rest => c :: maskFrom false rest
  | true, '-' :: '-' :: '>' :: rest => ' ' :: ' ' :: ' ' :: maskFrom false rest
  | true, c :: rest => maskedChar c :: maskFrom true rest
  | _, [] => []

/-- The text with its template comments replaced by spaces, their line feeds kept. -/
def mask (text : List Char) : List Char :=
  maskFrom false text

inductive Marker where
  | openTemplate
  | openMarkup
  | close
deriving DecidableEq, Repr

def marker? : List Char → Option (Marker × Nat)
  | '<' :: '#' :: '-' :: '-' :: _ => some (.openTemplate, 4)
  | '<' :: '!' :: '-' :: '-' :: _ => some (.openMarkup, 4)
  | '-' :: '-' :: '>' :: _ => some (.close, 3)
  | _ => none

inductive Surroundings where
  | outside
  | template (opened : Text.Position)
  | markup
deriving DecidableEq, Repr

def markerIssues : Surroundings → List (Text.Position × Marker) → List Located
  | .template opened, [] => [⟨.at opened, .unterminatedComment⟩]
  | _, [] => []
  | .outside, (p, .openTemplate) :: rest => markerIssues (.template p) rest
  | .outside, (_, .openMarkup) :: rest => markerIssues .markup rest
  | .outside, (p, .close) :: rest => ⟨.at p, .unmatchedCommentClose⟩ :: markerIssues .outside rest
  | .template opened, (p, .openTemplate) :: rest =>
      ⟨.at p, .nestedComment⟩ :: markerIssues (.template opened) rest
  | .template _, (_, .close) :: rest => markerIssues .outside rest
  | .template opened, (_, .openMarkup) :: rest => markerIssues (.template opened) rest
  | .markup, (_, .close) :: rest => markerIssues .outside rest
  | .markup, (_, _) :: rest => markerIssues .markup rest

def commentIssues (text : List Char) : List Located :=
  markerIssues .outside (Text.occurrences marker? text)

end Template
end StencilDesk
