import StencilDesk.Text.Digit

/-!
# Data texts

The text form in which versions and preferences are stored. A value is printed on indented lines.
Reading accepts every text of the form; of numbers the written form is kept.
-/

namespace StencilDesk

/-- A value of the text form. The fields of an object are kept in order, repeated ones included. -/
inductive Json where
  | null
  | bool (value : Bool)
  | number (written : String)
  | string (value : String)
  | array (items : List Json)
  | object (fields : List (String × Json))
deriving Inhabited, Repr

namespace Json

def hexChar (n : Nat) : Char :=
  if n < 10 then Char.ofNat (48 + n) else Char.ofNat (87 + n)

def escapedChar (c : Char) : List Char :=
  if c = '"' then ['\\', '"']
  else if c = '\\' then ['\\', '\\']
  else if c = '\n' then ['\\', 'n']
  else if c = '\r' then ['\\', 'r']
  else if c = '\t' then ['\\', 't']
  else if c = '\x08' then ['\\', 'b']
  else if c = '\x0c' then ['\\', 'f']
  else if c.toNat < 0x20 then
    ['\\', 'u', '0', '0', hexChar (c.toNat / 16), hexChar (c.toNat % 16)]
  else [c]

def quoted (text : String) : List Char :=
  '"' :: text.toList.flatMap escapedChar ++ ['"']

def boolText (value : Bool) : List Char :=
  if value then "true".toList else "false".toList

def newLine (level : Nat) : List Char :=
  '\n' :: List.replicate (2 * level) ' '

mutual

def prettyFrom (level : Nat) : Json → List Char
  | null => "null".toList
  | bool value => boolText value
  | number written => written.toList
  | string value => quoted value
  | array [] => ['[', ']']
  | array (item :: items) =>
      '[' :: newLine (level + 1) ++ prettyFrom (level + 1) item ++ prettyItems (level + 1) items ++
        newLine level ++ [']']
  | object [] => ['{', '}']
  | object ((key, value) :: fields) =>
      '{' :: newLine (level + 1) ++ quoted key ++ ':' :: ' ' :: prettyFrom (level + 1) value ++
        prettyFields (level + 1) fields ++ newLine level ++ ['}']

def prettyItems (level : Nat) : List Json → List Char
  | [] => []
  | item :: items => ',' :: newLine level ++ prettyFrom level item ++ prettyItems level items

def prettyFields (level : Nat) : List (String × Json) → List Char
  | [] => []
  | (key, value) :: fields =>
      ',' :: newLine level ++ quoted key ++ ':' :: ' ' :: prettyFrom level value ++
        prettyFields level fields

end

def pretty (value : Json) : String :=
  String.ofList (prettyFrom 0 value)

def isSpace (c : Char) : Bool :=
  c == ' ' || c == '\n' || c == '\t' || c == '\r'

def skipSpace (text : List Char) : List Char :=
  text.dropWhile isSpace

def readHex? : List Char → Option (Nat × List Char)
  | a :: b :: c :: d :: rest => (Text.natural? 16 [a, b, c, d]).map fun n => (n, rest)
  | _ => none

/-- Reads the character behind the letter of a numeric escape; two halves make one character. -/
def readEscapedNumber? (text : List Char) : Option (Char × List Char) := do
  let (high, rest) ← readHex? text
  if 0xD800 ≤ high ∧ high < 0xDC00 then
    match rest with
    | '\\' :: 'u' :: rest => do
        let (low, rest) ← readHex? rest
        guard (0xDC00 ≤ low ∧ low < 0xE000)
        return (Char.ofNat (0x10000 + (high - 0xD800) * 0x400 + (low - 0xDC00)), rest)
    | _ => none
  else if 0xDC00 ≤ high ∧ high < 0xE000 then none
  else return (Char.ofNat high, rest)

def escaped? : Char → Option Char
  | '"' => some '"'
  | '\\' => some '\\'
  | '/' => some '/'
  | 'b' => some '\x08'
  | 'f' => some '\x0c'
  | 'n' => some '\n'
  | 'r' => some '\r'
  | 't' => some '\t'
  | _ => none

def readText? : Nat → List Char → Option (List Char × List Char)
  | 0, _ => none
  | _, [] => none
  | fuel + 1, c :: rest =>
      if c = '"' then some ([], rest)
      else if c = '\\' then
        match rest with
        | 'u' :: rest => do
            let (d, rest) ← readEscapedNumber? rest
            let (text, rest) ← readText? fuel rest
            return (d :: text, rest)
        | letter :: rest => do
            let d ← escaped? letter
            let (text, rest) ← readText? fuel rest
            return (d :: text, rest)
        | [] => none
      else if c.toNat < 0x20 then none
      else do
        let (text, rest) ← readText? fuel rest
        return (c :: text, rest)

def takeDigits? (text : List Char) : Option (List Char × List Char) :=
  let digits := text.takeWhile Char.isDigit
  if digits.isEmpty then none else some (digits, text.dropWhile Char.isDigit)

/-- Reads the whole part of a number, which has no needless zeros. -/
def readWhole? : List Char → Option (List Char × List Char)
  | '0' :: rest => if rest.head?.any Char.isDigit then none else some (['0'], rest)
  | text => takeDigits? text

def readDecimals? : List Char → Option (List Char × List Char)
  | '.' :: rest => (takeDigits? rest).map fun (digits, rest) => ('.' :: digits, rest)
  | rest => some ([], rest)

def readExponent? : List Char → Option (List Char × List Char)
  | mark :: sign :: rest =>
      if mark = 'e' ∨ mark = 'E' then
        if sign = '+' ∨ sign = '-' then
          (takeDigits? rest).map fun (digits, rest) => (mark :: sign :: digits, rest)
        else (takeDigits? (sign :: rest)).map fun (digits, rest) => (mark :: digits, rest)
      else some ([], mark :: sign :: rest)
  | [mark] => if mark = 'e' ∨ mark = 'E' then none else some ([], [mark])
  | [] => some ([], [])

def readNumber? (text : List Char) : Option (Json × List Char) := do
  let (sign, rest) := match text with
    | '-' :: rest => (['-'], rest)
    | rest => ([], rest)
  let (whole, rest) ← readWhole? rest
  let (decimals, rest) ← readDecimals? rest
  let (exponent, rest) ← readExponent? rest
  return (.number (String.ofList (sign ++ whole ++ decimals ++ exponent)), rest)

def readWord? (word : List Char) (value : Json) (text : List Char) : Option (Json × List Char) :=
  if word.isPrefixOf text then some (value, text.drop word.length) else none

mutual

def readValue? : Nat → List Char → Option (Json × List Char)
  | 0, _ => none
  | fuel + 1, text =>
      match skipSpace text with
      | [] => none
      | '"' :: rest =>
          (readText? (rest.length + 1) rest).map fun (text, rest) =>
            (.string (String.ofList text), rest)
      | '[' :: rest =>
          match skipSpace rest with
          | ']' :: rest => some (.array [], rest)
          | rest => (readItems? fuel rest).map fun (items, rest) => (.array items, rest)
      | '{' :: rest =>
          match skipSpace rest with
          | '}' :: rest => some (.object [], rest)
          | rest => (readFields? fuel rest).map fun (fields, rest) => (.object fields, rest)
      | 'n' :: rest => readWord? "ull".toList .null rest
      | 't' :: rest => readWord? "rue".toList (.bool true) rest
      | 'f' :: rest => readWord? "alse".toList (.bool false) rest
      | rest => readNumber? rest

def readItems? : Nat → List Char → Option (List Json × List Char)
  | 0, _ => none
  | fuel + 1, text => do
      let (item, rest) ← readValue? fuel text
      match skipSpace rest with
      | ',' :: rest => do
          let (items, rest) ← readItems? fuel rest
          return (item :: items, rest)
      | ']' :: rest => return ([item], rest)
      | _ => none

def readFields? : Nat → List Char → Option (List (String × Json) × List Char)
  | 0, _ => none
  | fuel + 1, text =>
      match skipSpace text with
      | '"' :: rest => do
          let (key, rest) ← readText? (rest.length + 1) rest
          match skipSpace rest with
          | ':' :: rest => do
              let (value, rest) ← readValue? fuel rest
              match skipSpace rest with
              | ',' :: rest => do
                  let (fields, rest) ← readFields? fuel rest
                  return ((String.ofList key, value) :: fields, rest)
              | '}' :: rest => return ([(String.ofList key, value)], rest)
              | _ => none
          | _ => none
      | _ => none

end

/-- Reads a text that holds one value and nothing else. -/
def ofText? (text : String) : Option Json :=
  match readValue? (2 * text.toList.length + 2) text.toList with
  | some (value, rest) => if (skipSpace rest).isEmpty then some value else none
  | none => none

def text? : Json → Option String
  | string value => some value
  | _ => none

def bool? : Json → Option Bool
  | bool value => some value
  | _ => none

def optionalText? : Json → Option (Option String)
  | null => some none
  | string value => some (some value)
  | _ => none

def items? : Json → Option (List Json)
  | array items => some items
  | _ => none

def field? (value : Json) (key : String) : Option Json :=
  match value with
  | object fields => (fields.find? fun field => field.1 == key).map Prod.snd
  | _ => none

/--
The values of a record's fields. A record is written as an object, whose other fields do not
count but of which none may be repeated, or as an array of the values in order.
-/
def record? (keys : List String) : Json → Option (List (Option Json))
  | object fields =>
      let given := fields.map Prod.fst
      if keys.all fun key => given.count key ≤ 1 then
        some (keys.map fun key => (object fields).field? key)
      else none
  | array items =>
      if items.length ≤ keys.length then
        some (items.map some ++ List.replicate (keys.length - items.length) none)
      else none
  | _ => none

def ofOption (text : Option String) : Json :=
  match text with
  | some text => .string text
  | none => .null

end Json

end StencilDesk
