import StencilDesk.Config.Schema

/-!
# Stencil settings

The descriptive fields of the block that describes a stencil. Fields may be missing, but a field
that is there has to be text, and only the optional ones may be null.
-/

namespace StencilDesk

structure Settings where
  id : String := ""
  name : String := ""
  description : Option String := none
  version : Option String := none
  author : Option String := none
deriving DecidableEq, Repr, Inhabited

namespace Settings

def text? (value : Yaml.Value) : Option String :=
  match value.untagged with
  | .string text => some text
  | _ => none

def optionalText? (value : Yaml.Value) : Option (Option String) :=
  match value with
  | .null => some none
  | _ => (text? value).map some

/-- Holds if every key is text and no key occurs twice, tags left aside. -/
def keysAreUsable (entries : List (Yaml.Value × Yaml.Value)) : Bool :=
  match entries.mapM fun entry => text? entry.1 with
  | none => false
  | some keys =>
      ["id", "name", "description", "version", "author"].all fun key => keys.count key ≤ 1

def entry? (entries : List (Yaml.Value × Yaml.Value)) (key : String) : Option Yaml.Value :=
  (entries.find? fun entry => text? entry.1 == some key).map Prod.snd

/-- A required field; it is empty if it is missing. -/
def readText (entries : List (Yaml.Value × Yaml.Value)) (key : String) : Option String :=
  match entry? entries key with
  | none => some ""
  | some value => text? value

def readOptional (entries : List (Yaml.Value × Yaml.Value)) (key : String) :
    Option (Option String) :=
  match entry? entries key with
  | none => some none
  | some value => optionalText? value

def ofEntries? (entries : List (Yaml.Value × Yaml.Value)) : Option Settings := do
  guard (keysAreUsable entries)
  return {
    id := ← readText entries "id"
    name := ← readText entries "name"
    description := ← readOptional entries "description"
    version := ← readOptional entries "version"
    author := ← readOptional entries "author" }

/-- The settings in a block; a null block has no fields. -/
def ofBlock? (block : Yaml.Value) : Option Settings :=
  match block.untagged with
  | .null => ofEntries? []
  | .mapping entries => ofEntries? entries
  | _ => none

def ofText? (text : String) : Option Settings :=
  match Yaml.Value.ofText text with
  | .error _ => none
  | .ok document => (document.field? Config.stencilBlock).bind ofBlock?

end Settings

end StencilDesk
