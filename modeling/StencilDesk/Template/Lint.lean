import StencilDesk.Template.Comment
import StencilDesk.Template.Directive
import StencilDesk.Template.Reference

/-!
# Checking templates

All checks of a template, in the order of the places of what they find. Comments are checked on
the text as it is, everything else on the masked text.
-/

namespace StencilDesk
namespace Template

def issues (expected : List String) (source : List Char) : List Located :=
  let masked := mask source
  directiveIssues masked ++ referenceIssues masked ++ commentIssues source ++
    braceIssues masked ++ unusedNames expected masked

def lintExpecting (expected : List String) (file source : String) : List Finding :=
  Finding.sorted ((issues expected source.toList).map (Located.finding file))

def lint (file source : String) : List Finding :=
  lintExpecting [] file source

end Template
end StencilDesk
