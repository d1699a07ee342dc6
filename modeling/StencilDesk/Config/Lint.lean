import StencilDesk.Config.Locate
import StencilDesk.Config.Schema
import StencilDesk.Finding

/-!
# Checking configuration documents

A document that cannot be read is one finding. Otherwise the schema's block is checked, if the
document has it: it has to be a mapping, and each violated rule is a finding at the line of its
field.
-/

namespace StencilDesk
namespace Config

/-- The number behind the first `line ` in a message; none if it does not fit 64 bits. -/
def lineInMessage? (message : String) : Option Nat :=
  search message.toList
where
  search : List Char → Option Nat
    | [] => none
    | c :: rest =>
        if "line ".toList.isPrefixOf (c :: rest) then
          let digits := ((c :: rest).drop 5).takeWhile Text.isDecimalDigit
          if digits.isEmpty then search rest
          else (Text.natural? 10 digits).filter fun n => n < 2 ^ 64
        else search rest

def valueAt? (document : Yaml.Value) (path : String) : Option Yaml.Value :=
  (Text.splitOn '.' path.toList).foldlM
    (fun value key => value.field? (String.ofList key)) document

def unreadable (file : String) (fault : Yaml.ReadFault) : Finding where
  severity := .error
  message := fault.message
  file := file
  line := lineInMessage? fault.message <|> fault.line?
  code := some "config-parse"

def violated (file source path message : String) : Finding where
  severity := .error
  message := s!"{path}: {message}"
  file := file
  line := lineOfField source path
  code := some "config-schema"

namespace Schema

def check (schema : Schema) (file source : String) (document : Yaml.Value) : List Finding :=
  match document.field? schema.block with
  | none => []
  | some block =>
      if block.entries?.isNone then [violated file source schema.block "must be a mapping"]
      else
        schema.rules.flatMap fun rule =>
          (rule.violations (valueAt? document rule.path)).map fun violation =>
            violated file source rule.path violation.message

/-- The findings of a configuration document. A blank text has none. -/
def lint (schema : Schema) (file source : String) : List Finding :=
  if source.toList.all Text.isBlank then []
  else
    match Yaml.Value.ofText source with
    | .error fault => [unreadable file fault]
    | .ok document => schema.check file source document

end Schema

end Config
end StencilDesk
