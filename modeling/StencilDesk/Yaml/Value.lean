import StencilDesk.Text.Quoted
import StencilDesk.Yaml.Node
import StencilDesk.Yaml.Number

/-!
# Values

What a document denotes. Reading a value follows aliases, reads plain scalars by their looks and
tagged ones by their tag, and refuses mappings with a repeated key and documents that are nested
too deeply. A fault is told with the path of the field and the place where its node starts.
-/

namespace StencilDesk
namespace Yaml

inductive Value where
  | null
  | bool (value : Bool)
  | number (value : Number)
  | string (value : String)
  | sequence (items : List Value)
  | mapping (entries : List (Value × Value))
  | tagged (tag : String) (value : Value)
deriving Inhabited, Repr

namespace Value

def untagged : Value → Value
  | tagged _ value => value.untagged
  | value => value

mutual

/-- Two values are the same key. Mappings are compared without regard to the order of their
entries. -/
def same : Value → Value → Bool
  | null, null => true
  | bool a, bool b => a == b
  | number a, number b => a.same b
  | string a, string b => a == b
  | sequence a, sequence b => sameItems a b
  | mapping a, mapping b => a.length == b.length && sameEntries a b
  | tagged s a, tagged t b => s == t && a.same b
  | _, _ => false

def sameItems : List Value → List Value → Bool
  | [], [] => true
  | a :: as, b :: bs => a.same b && sameItems as bs
  | _, _ => false

def sameEntries : List (Value × Value) → List (Value × Value) → Bool
  | [], _ => true
  | (key, value) :: rest, other =>
      (other.any fun entry => key.same entry.1 && value.same entry.2) && sameEntries rest other

end

/-- The value under a text key of a mapping, tags left aside. -/
def field? (value : Value) (key : String) : Option Value :=
  match value.untagged with
  | mapping entries =>
      (entries.find? fun entry =>
        match entry.1 with
        | string name => name == key
        | _ => false).map Prod.snd
  | _ => none

def entries? (value : Value) : Option (List (Value × Value)) :=
  match value.untagged with
  | mapping entries => some entries
  | _ => none

/-- The text of a scalar other than null; tagged values have none. -/
def scalarText? : Value → Option String
  | string value => some value
  | number value => some value.text
  | bool value => some (if value then "true" else "false")
  | _ => none

end Value

inductive Place where
  | root
  | item (parent : Place) (index : Nat)
  | field (parent : Place) (key : String)
  /-- Under a key that is not a scalar. -/
  | unnamed (parent : Place)
  | aliased (parent : Place)

namespace Place

mutual

def text : Place → String
  | root => "."
  | item parent index => parent.text ++ s!"[{index}]"
  | field parent key => parent.stem ++ key
  | unnamed parent => parent.stem ++ "?"
  | aliased parent => parent.text

/-- The path of a place in front of one of its fields. -/
def stem : Place → String
  | root => ""
  | item parent index => parent.text ++ s!"[{index}]."
  | field parent key => parent.stem ++ key ++ "."
  | unnamed parent => parent.stem ++ "?."
  | aliased parent => parent.text ++ "."

end

end Place

inductive Mismatch where
  | repeatedKey (key : Value)
  | wideInteger (value : Int) (signed : Bool)
  | unreadable (text expected : String)

def Mismatch.message : Mismatch → String
  | repeatedKey key =>
      "duplicate entry " ++
        match key with
        | .null => "with null key"
        | .bool value => s!"with key \x60{value}\x60"
        | .number value => s!"with key {value.text}"
        | .string value => "with key " ++ Text.quoted value
        | _ => "in YAML map"
  | wideInteger value signed =>
      let width := if signed then "i128" else "u128"
      s!"invalid type: integer \x60{value}\x60 as {width}, expected any YAML value"
  | unreadable text expected =>
      "invalid value: string " ++ Text.quoted text ++ ", expected " ++ expected

inductive ReadFault where
  | document (fault : DocumentFault)
  | tooDeep (mark : Mark)
  | tooManyAliases
  | mismatch (cause : Mismatch) (place : Place) (mark : Mark)
  | severalDocuments

namespace ReadFault

def mark? : ReadFault → Option Mark
  | document (.malformed fault) =>
      some (if fault.problem = .controlCharacter then Mark.origin else fault.mark)
  | document (.unknownAnchor mark) => some mark
  | tooDeep mark => some mark
  | mismatch _ _ mark => some mark
  | tooManyAliases => none
  | severalDocuments => none

/-- The place in the text of a fault; the very first place is not told. -/
def placeText (mark : Mark) : String :=
  if mark.isOrigin then "" else s!" at {mark.text}"

def message : ReadFault → String
  | document (.malformed fault) => fault.message
  | document (.unknownAnchor mark) => "unknown anchor" ++ placeText mark
  | tooDeep mark => "recursion limit exceeded" ++ placeText mark
  | tooManyAliases => "repetition limit exceeded"
  | mismatch cause place mark =>
      let path := place.text
      let path := if path = "." then "" else path ++ ": "
      path ++ cause.message ++ placeText mark
  | severalDocuments =>
      "deserializing from YAML containing more than one document is not supported"

def line? (fault : ReadFault) : Option Nat :=
  fault.mark?.map fun mark => mark.line + 1

end ReadFault

def depthLimit : Nat := 128

abbrev Reading := StateT Nat (Except ReadFault)

namespace Value

/-- The tags of the types that scalars have without a tag. -/
def coreTag (name : String) : String := "tag:yaml.org,2002:" ++ name

def ofPlain (text : String) : Except Mismatch Value :=
  if text.isEmpty || isNullWord text then .ok .null
  else
    match readBool? text with
    | some value => .ok (.bool value)
    | none =>
        match readInteger text.toList with
        | .fits value => .ok (.number (.integer value))
        | .tooWide value signed => .error (.wideInteger value signed)
        | .other =>
            if isZeroPadded text.toList then .ok (.string text)
            else
              match readDecimal? text.toList with
              | some value => .ok (.number value)
              | none => .ok (.string text)

def ofTagged (tag text : String) (plain : Bool) : Except Mismatch Value :=
  if tag = coreTag "bool" then
    match readBool? text with
    | some value => .ok (.bool value)
    | none => .error (.unreadable text "a boolean")
  else if tag = coreTag "int" then
    match readInteger text.toList with
    | .fits value => .ok (.number (.integer value))
    | .tooWide value signed => .error (.wideInteger value signed)
    | .other => .error (.unreadable text "an integer")
  else if tag = coreTag "float" then
    match readDecimal? text.toList with
    | some value => .ok (.number value)
    | none => .error (.unreadable text "a float")
  else if tag = coreTag "null" then
    if isNullWord text then .ok .null else .error (.unreadable text "null")
  else if tag.startsWith "!" && plain then ofPlain text
  else .ok (.string text)

/-- Reads a scalar; its tag counts unless it was taken as the name of the value. -/
def ofScalar (tag : Option String) (text : String) (plain named : Bool) : Except Mismatch Value :=
  match tag, named with
  | some tag, false => ofTagged tag text plain
  | _, _ => if plain then ofPlain text else .ok (.string text)

/-- The name that a tag gives to a value: tags of the document's own, without their mark. -/
def tagName? (tag : Option String) : Option String :=
  match tag.map String.toList with
  | some ['!'] => some "!"
  | some ('!' :: name) => some (String.ofList name)
  | _ => none

def named (name : Option String) (value : Value) : Value :=
  match name with
  | some name => .tagged name value
  | none => value

def hasKey (entries : List (Value × Value)) (key : Value) : Bool :=
  entries.any fun entry => key.same entry.1

def placeBehind (place : Place) : Node → Place
  | .scalar _ _ text _ => .field place text
  | _ => .unnamed place

/-- The node that a node stands for, and whether it is an alias; counts the aliases. -/
def follow (document : Document) (node : Node) : Reading (Node × Bool) := do
  match node with
  | .aliasOf _ anchor =>
      let count ← get
      if document.size * 100 < count + 1 then
        throw .tooManyAliases
      set (count + 1)
      return ((document.target? anchor).getD .cut, true)
  | node => return (node, false)

def cutFault (document : Document) : ReadFault :=
  .document (document.fault.getD (.unknownAnchor Mark.origin))

/--
Reads a node that lies at the given place, with that many levels of nesting left. The tag of a
node is its value's name; the keys of a named mapping are read without regard to their own tags.
-/
def ofNode (document : Document) : Nat → Place → Bool → Node → Reading Value
  | depth, place, inNamed, node => do
      let (target, aliased) ← follow document node
      let place := if aliased then .aliased place else place
      let inNamed := inNamed && !aliased
      match target with
      | .cut => throw (cutFault document)
      | .aliasOf .. => throw (cutFault document)
      | .scalar mark tag text plain =>
          let name := if inNamed then none else tagName? tag
          match ofScalar tag text plain (inNamed || name.isSome) with
          | .ok value => return named name value
          | .error cause => throw (.mismatch cause place mark)
      | .sequence mark tag items =>
          let name := if inNamed then none else tagName? tag
          match depth with
          | 0 => throw (.tooDeep mark)
          | depth + 1 =>
              let (values, _) ← items.foldlM
                (fun (values, index) item => do
                  let value ← ofNode document depth (.item place index) false item
                  return (value :: values, index + 1))
                (([] : List Value), 0)
              return named name (.sequence values.reverse)
      | .mapping mark tag entries =>
          let name := if inNamed then none else tagName? tag
          match depth with
          | 0 => throw (.tooDeep mark)
          | depth + 1 =>
              let values ← entries.foldlM
                (fun values (keyNode, valueNode) => do
                  let key ← ofNode document depth place (inNamed || name.isSome) keyNode
                  if hasKey values key then
                    throw (.mismatch (.repeatedKey key) place mark)
                  let value ← ofNode document depth (placeBehind place keyNode) false valueNode
                  return (key, value) :: values)
                ([] : List (Value × Value))
              return named name (.mapping values.reverse)

/-- Reads the value of a text, which holds at most one document. -/
def ofText (text : String) : Except ReadFault Value := do
  let document := Document.read text.toList
  let value ← match document.root with
    | none => pure .null
    | some root => do
        let (value, _) ← (ofNode document depthLimit .root false root).run 0
        pure value
  if let some fault := document.fault then
    throw (.document fault)
  if document.continued then
    throw .severalDocuments
  return value

end Value

end Yaml
end StencilDesk
