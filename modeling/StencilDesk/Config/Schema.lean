import StencilDesk.Config.Format
import StencilDesk.Text.Pattern
import StencilDesk.Yaml.Value

/-!
# Schemas

What the fields of a configuration block have to look like, and what a value violates. A rule
names its field by a path with points between the keys.
-/

namespace StencilDesk
namespace Config

inductive Violation where
  | missing
  | notText
  | tooShort (least : Nat)
  | tooLong (most : Nat)
  | offPattern (written : String)
  | offFormat (format : Format)
deriving DecidableEq, Repr

def Violation.message : Violation → String
  | missing => "is required"
  | notText => "must be a string"
  | tooShort least => s!"must be at least {least} characters"
  | tooLong most => s!"must be at most {most} characters"
  | offPattern written => s!"must match pattern {written}"
  | offFormat format => s!"must be a valid {format.label}"

structure Rule where
  path : String
  required : Bool := false
  pattern : Option Text.Pattern := none
  least : Option Nat := none
  most : Option Nat := none
  format : Option Format := none
deriving DecidableEq, Repr

namespace Rule

/-- The violations of the text of a field, in the order length, pattern, format. -/
def textViolations (rule : Rule) (text : String) : List Violation :=
  let length := text.toList.length
  let short := rule.least.filter fun least => length < least
  let long := rule.most.filter fun most => most < length
  let pattern := rule.pattern.filter fun pattern => !pattern.accepts text
  let format := rule.format.filter fun format => !format.accepts text
  (short.map Violation.tooShort).toList ++ (long.map Violation.tooLong).toList ++
    (pattern.map fun pattern => Violation.offPattern pattern.written).toList ++
    (format.map Violation.offFormat).toList

/-- The violations of a field's value; a null value is a missing one. -/
def violations (rule : Rule) : Option Yaml.Value → List Violation
  | none | some .null => if rule.required then [.missing] else []
  | some value =>
      match value.scalarText? with
      | some text => rule.textViolations text
      | none => [.notText]

end Rule

structure Schema where
  block : String
  rules : List Rule
deriving DecidableEq, Repr

def stencilBlock : String := "stencil"

/-- The pattern of stencil ids: `^[a-z][a-z0-9_-]*$`. -/
def idPattern : Text.Pattern where
  written := "^[a-z][a-z0-9_-]*$"
  atStart := true
  items :=
    [⟨[('a', 'z')], false, .once⟩,
     ⟨[('a', 'z'), ('0', '9'), ('_', '_'), ('-', '-')], false, .many⟩]
  atEnd := true

def Schema.stencil : Schema where
  block := stencilBlock
  rules :=
    [{ path := "stencil.id", required := true, pattern := some idPattern
       least := some 3, most := some 64 },
     { path := "stencil.name", required := true, least := some 1, most := some 100 },
     { path := "stencil.description", most := some 500 },
     { path := "stencil.version", format := some .semver },
     { path := "stencil.author", format := some .email }]

end Config
end StencilDesk
