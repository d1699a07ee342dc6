import StencilDesk.Yaml.Scalar

/-!
# Tokens

The marks and words of a document, in order. Reading is one pass over the text, with one
difficulty: that a word is a mapping key shows only at the colon after it. Such words are kept
back, with the number of their token, until the colon comes or can come no more; then the tokens
that open a mapping and announce a key are put in front of the word.

The result is the list of tokens that were settled before the first fault, and that fault.
-/

namespace StencilDesk
namespace Yaml

inductive TokenKind where
  | streamEnd
  | versionDirective (major minor : Nat)
  | tagDirective (handle meaning : String)
  | documentStart
  | documentEnd
  | blockSequenceStart
  | blockMappingStart
  | blockEnd
  | flowSequenceStart
  | flowSequenceEnd
  | flowMappingStart
  | flowMappingEnd
  | blockEntry
  | flowEntry
  | key
  | value
  | aliasOf (name : String)
  | anchor (name : String)
  | tag (handle suffix : String)
  | scalar (text : String) (plain : Bool)
deriving DecidableEq, Repr

structure Token where
  kind : TokenKind
  mark : Mark
deriving DecidableEq, Repr

/-- A word that may still turn out to be a mapping key. -/
structure PendingKey where
  /-- Whether the word stands where only a key can stand. -/
  required : Bool
  /-- The number of its token, counted from the start of the document. -/
  number : Nat
  mark : Mark

structure Scanner where
  cursor : Cursor
  /-- Tokens that were read but not yet settled. -/
  queue : List Token := []
  /-- How many tokens were settled. -/
  settled : Nat := 0
  /-- The columns of the open blocks, innermost first. -/
  indents : List Nat := []
  /-- Whether a mapping key may start here. -/
  keyAllowed : Bool := true
  /-- The pending key of the block context. -/
  blockKey : Option PendingKey := none
  /-- The pending keys of the open flow collections, innermost first. -/
  flowKeys : List (Option PendingKey) := []

namespace Scanner

def inFlow (s : Scanner) : Bool :=
  !s.flowKeys.isEmpty

def pendingKey (s : Scanner) : Option PendingKey :=
  match s.flowKeys with
  | [] => s.blockKey
  | key :: _ => key

def setPendingKey (s : Scanner) (key : Option PendingKey) : Scanner :=
  match s.flowKeys with
  | [] => { s with blockKey := key }
  | _ :: outer => { s with flowKeys := key :: outer }

def fault (s : Scanner) (problem : Problem) (context : Option (Activity × Mark) := none) : Fault :=
  { problem, mark := s.cursor.mark, context }

def push (s : Scanner) (kind : TokenKind) (mark : Mark) : Scanner :=
  { s with queue := s.queue ++ [⟨kind, mark⟩] }

/-- Puts a token in front of the one with the given number. -/
def insertAt (s : Scanner) (number : Nat) (kind : TokenKind) (mark : Mark) : Scanner :=
  let place := number - s.settled
  { s with queue := s.queue.take place ++ ⟨kind, mark⟩ :: s.queue.drop place }

def missingColon (s : Scanner) (key : PendingKey) : Fault :=
  s.fault .missingColon (some (.simpleKey, key.mark))

/-- Holds of a pending key that can no longer be one: it must lie on the current line, and within
1024 bytes. -/
def isStale (s : Scanner) (key : PendingKey) : Bool :=
  key.mark.line < s.cursor.mark.line || key.mark.offset + 1024 < s.cursor.mark.offset

def dropStaleKeys (s : Scanner) : Except Fault Scanner :=
  let drop (key : Option PendingKey) : Option PendingKey := key.filter fun k => !s.isStale k
  match s.blockKey with
  | some key =>
      if s.isStale key && key.required then .error (s.missingColon key)
      else .ok { s with blockKey := drop s.blockKey, flowKeys := s.flowKeys.map drop }
  | none => .ok { s with flowKeys := s.flowKeys.map drop }

def removeKey (s : Scanner) : Except Fault Scanner :=
  match s.pendingKey with
  | some key => if key.required then .error (s.missingColon key) else .ok (s.setPendingKey none)
  | none => .ok s

def saveKey (s : Scanner) : Except Fault Scanner :=
  if s.keyAllowed then do
    let required := !s.inFlow && s.indents.head? == some s.cursor.mark.column
    let key : PendingKey :=
      { required, number := s.settled + s.queue.length, mark := s.cursor.mark }
    let s ← s.removeKey
    return s.setPendingKey (some key)
  else .ok s

/-- Opens a block if the column lies deeper than the open blocks; its token goes before the
numbered one. -/
def openBlock (s : Scanner) (column : Nat) (number : Option Nat) (kind : TokenKind) (mark : Mark) :
    Scanner :=
  if s.inFlow || s.indents.head?.any (fun indent => column ≤ indent) then s
  else
    let s := { s with indents := column :: s.indents }
    match number with
    | some number => s.insertAt number kind mark
    | none => s.push kind mark

/-- Closes the blocks that lie deeper than the column; without a column, all of them. -/
def closeBlocks (s : Scanner) (column : Option Nat) : Scanner :=
  if s.inFlow then s
  else
    let deeper (indent : Nat) : Bool := column.all fun column => column < indent
    let closed := s.indents.takeWhile deeper
    { s with
      queue := s.queue ++ closed.map fun _ => ⟨.blockEnd, s.cursor.mark⟩
      indents := s.indents.dropWhile deeper }

/-- Moves over spaces, comments and line breaks. A tab is a space where no key can start. -/
def skipToToken : Nat → Scanner → Scanner
  | 0, s => s
  | fuel + 1, s =>
      let cursor :=
        if s.cursor.mark.offset == 0 && s.cursor.sees 0 '\ufeff' then s.cursor.skip else s.cursor
      let tabs := s.inFlow || !s.keyAllowed
      let cursor := cursor.skipWhile fun c => c == ' ' || (tabs && c == '\t')
      let cursor := if cursor.sees 0 '#' then cursor.skipLineText else cursor
      match cursor.lineBreak? with
      | some (_, next) =>
          skipToToken fuel { s with cursor := next, keyAllowed := s.keyAllowed || !s.inFlow }
      | none => { s with cursor }

/-- Reads a number of a version directive, of at most nine digits. -/
def readVersionNumber (s : Scanner) (start : Mark) : Except Fault (Nat × Scanner) :=
  let context := some (Activity.versionDirective, start)
  let digits := s.cursor.rest.takeWhile Char.isDigit
  if digits.length > 9 then
    .error { (s.fault .longVersionNumber context) with mark := (s.cursor.skipMany 9).mark }
  else
    match Text.natural? 10 digits with
    | none => .error (s.fault .missingVersionNumber context)
    | some value => .ok (value, { s with cursor := s.cursor.skipMany digits.length })

def readVersion (s : Scanner) (start : Mark) : Except Fault (TokenKind × Scanner) := do
  let s := { s with cursor := s.cursor.skipWhile isGap }
  let (major, s) ← s.readVersionNumber start
  if !s.cursor.sees 0 '.' then
    throw (s.fault .missingVersionDot (some (.versionDirective, start)))
  let (minor, s) ← { s with cursor := s.cursor.skip }.readVersionNumber start
  return (.versionDirective major minor, s)

/-- Reads a tag handle: an exclamation mark, word characters, and perhaps another one. -/
def readTagHandle (s : Scanner) (directive : Bool) (start : Mark) :
    Except Fault (List Char × Scanner) :=
  if !s.cursor.sees 0 '!' then
    .error (s.fault .missingTagMark (some (if directive then .tagDirectiveMark else .tag, start)))
  else
    let (word, cursor) := s.cursor.skip.takeWhile isWord
    if cursor.sees 0 '!' then
      .ok ('!' :: word ++ ['!'], { s with cursor := cursor.skip })
    else if directive && !word.isEmpty then
      .error ({ s with cursor }.fault .missingTagMark (some (.tagDirectiveHandle, start)))
    else .ok ('!' :: word, { s with cursor })

def isUri (c : Char) : Bool :=
  isWord c || ";/?:@&=+$.%!~*'()".toList.contains c

/-- How many octets the encoding of a character has that starts with the given one. -/
def octetCount? (lead : Nat) : Option Nat :=
  if lead < 0x80 then some 1
  else if lead / 0x20 = 6 then some 2
  else if lead / 0x10 = 14 then some 3
  else if lead / 8 = 30 then some 4
  else none

def readOctet (s : Scanner) (context : Option (Activity × Mark)) : Except Fault (Nat × Scanner) :=
  match s.cursor.rest with
  | '%' :: high :: low :: _ =>
      match Text.natural? 16 [high, low] with
      | some octet => .ok (octet, { s with cursor := s.cursor.skipMany 3 })
      | none => .error (s.fault .missingEscapedOctet context)
  | _ => .error (s.fault .missingEscapedOctet context)

def readTrailingOctets (context : Option (Activity × Mark)) :
    Nat → Nat → Scanner → Except Fault (Nat × Scanner)
  | 0, value, s => .ok (value, s)
  | count + 1, value, s => do
      let (octet, next) ← s.readOctet context
      if octet / 0x40 ≠ 2 then
        throw (s.fault .badTrailingOctet context)
      readTrailingOctets context count (value * 0x40 + octet % 0x40) next

def readEscapedChar (s : Scanner) (context : Option (Activity × Mark)) :
    Except Fault (Char × Scanner) := do
  let (lead, next) ← s.readOctet context
  match octetCount? lead with
  | none => throw (s.fault .badLeadingOctet context)
  | some 1 => return (Char.ofNat lead, next)
  | some count =>
      let (value, next) ←
        readTrailingOctets context (count - 1) (lead % Nat.pow 2 (7 - count)) next
      return (Char.ofNat value, next)

def readUriFrom (context : Option (Activity × Mark)) (verbatim : Bool) :
    Nat → List Char → Scanner → Except Fault (List Char × Scanner)
  | 0, text, s => .ok (text, s)
  | fuel + 1, text, s =>
      match s.cursor.peek 0 with
      | none => .ok (text, s)
      | some c =>
          if c = '%' then do
            let (escaped, s) ← s.readEscapedChar context
            readUriFrom context verbatim fuel (escaped :: text) s
          else if isUri c || (verbatim && (c == ',' || c == '[' || c == ']')) then
            readUriFrom context verbatim fuel (c :: text) { s with cursor := s.cursor.skip }
          else .ok (text, s)

/-- Reads a tag of which a part may have been read as its handle; it may not be empty. -/
def readUri (s : Scanner) (directive verbatim : Bool) (head : List Char) (start : Mark) :
    Except Fault (String × Scanner) := do
  let context := some (if directive then Activity.tagDirectiveUri else .tagUri, start)
  let (text, next) ← readUriFrom context verbatim (s.cursor.rest.length + 1) [] s
  if head.isEmpty && text.isEmpty then
    throw (next.fault .missingTagUri context)
  return (String.ofList (head.drop 1 ++ text.reverse), next)

def readTagMeaning (s : Scanner) (start : Mark) : Except Fault (TokenKind × Scanner) := do
  let s := { s with cursor := s.cursor.skipWhile isGap }
  let (handle, s) ← s.readTagHandle true start
  if !s.cursor.seesAny 0 isGap then
    throw (s.fault .missingGap (some (.tagDirective, start)))
  let s := { s with cursor := s.cursor.skipWhile isGap }
  let (meaning, s) ← s.readUri true true [] start
  if !s.cursor.endsWord 0 then
    throw (s.fault .missingWordEnd (some (.tagDirective, start)))
  return (.tagDirective (String.ofList handle) meaning, s)

def endBlocks (s : Scanner) : Except Fault Scanner := do
  let s ← (s.closeBlocks none).removeKey
  return { s with keyAllowed := false }

def readDirective (s : Scanner) : Except Fault Scanner := do
  let s ← s.endBlocks
  let start := s.cursor.mark
  let context := some (Activity.directive, start)
  let (name, cursor) := s.cursor.skip.takeWhile isWord
  let s := { s with cursor }
  if name.isEmpty then
    throw (s.fault .missingDirectiveName context)
  if !s.cursor.endsWord 0 then
    throw (s.fault .badDirectiveName context)
  let (kind, s) ←
    if name = "YAML".toList then s.readVersion start
    else if name = "TAG".toList then s.readTagMeaning start
    else throw (s.fault .unknownDirective context)
  let cursor := s.cursor.skipWhile isGap
  let cursor := if cursor.sees 0 '#' then cursor.skipLineText else cursor
  let s := { s with cursor }
  if !s.cursor.atLineEnd then
    throw (s.fault .missingLineEnd context)
  return { s with cursor := s.cursor.skipBreak }.push kind start

def readDocumentIndicator (s : Scanner) (kind : TokenKind) : Except Fault Scanner := do
  let s ← s.endBlocks
  return { s with cursor := s.cursor.skipMany 3 }.push kind s.cursor.mark

def readFlowStart (s : Scanner) (kind : TokenKind) : Except Fault Scanner := do
  let s ← s.saveKey
  let opened := { s with
    flowKeys := none :: s.flowKeys, keyAllowed := true, cursor := s.cursor.skip }
  return opened.push kind s.cursor.mark

def readFlowEnd (s : Scanner) (kind : TokenKind) : Except Fault Scanner := do
  let s ← s.removeKey
  let closed := { s with
    flowKeys := s.flowKeys.drop 1, keyAllowed := false, cursor := s.cursor.skip }
  return closed.push kind s.cursor.mark

def readFlowEntry (s : Scanner) : Except Fault Scanner := do
  let s ← s.removeKey
  return { s with keyAllowed := true, cursor := s.cursor.skip }.push .flowEntry s.cursor.mark

def readBlockEntry (s : Scanner) : Except Fault Scanner := do
  let mark := s.cursor.mark
  if !s.inFlow && !s.keyAllowed then
    throw (s.fault .sequenceEntryHere)
  let s ← (s.openBlock mark.column none .blockSequenceStart mark).removeKey
  return { s with keyAllowed := true, cursor := s.cursor.skip }.push .blockEntry mark

def readKey (s : Scanner) : Except Fault Scanner := do
  let mark := s.cursor.mark
  if !s.inFlow && !s.keyAllowed then
    throw (s.fault .mappingKeyHere)
  let s ← (s.openBlock mark.column none .blockMappingStart mark).removeKey
  return { s with keyAllowed := !s.inFlow, cursor := s.cursor.skip }.push .key mark

/-- Reads the colon before a value; a pending word becomes its key. -/
def readValue (s : Scanner) : Except Fault Scanner := do
  let mark := s.cursor.mark
  match s.pendingKey with
  | some key =>
      let s := s.insertAt key.number .key key.mark
      let s := s.openBlock key.mark.column (some key.number) .blockMappingStart key.mark
      let s := s.setPendingKey none
      return { s with keyAllowed := false, cursor := s.cursor.skip }.push .value mark
  | none =>
      if !s.inFlow && !s.keyAllowed then
        throw (s.fault .mappingValueHere)
      let s := s.openBlock mark.column none .blockMappingStart mark
      return { s with keyAllowed := !s.inFlow, cursor := s.cursor.skip }.push .value mark

def readAnchor (s : Scanner) (isAlias : Bool) : Except Fault Scanner := do
  let s ← s.saveKey
  let start := s.cursor.mark
  let (name, cursor) := s.cursor.skip.takeWhile isWord
  let s := { s with cursor, keyAllowed := false }
  let ended := cursor.endsWord 0 || cursor.seesAny 0 fun c => "?:,]\x7d%@\x60".toList.contains c
  if name.isEmpty || !ended then
    throw (s.fault .missingAnchorName (some (if isAlias then .aliasOf else .anchor, start)))
  let text := String.ofList name
  return s.push (if isAlias then .aliasOf text else .anchor text) start

def readTagParts (s : Scanner) (start : Mark) : Except Fault (String × String × Scanner) := do
  if s.cursor.sees 1 '<' then
    let s := { s with cursor := s.cursor.skipMany 2 }
    let (suffix, s) ← s.readUri false true [] start
    if !s.cursor.sees 0 '>' then
      throw (s.fault .missingTagEnd (some (.tag, start)))
    return ("", suffix, { s with cursor := s.cursor.skip })
  let (handle, s) ← s.readTagHandle false start
  if handle.length > 1 && handle.getLast? = some '!' then
    let (suffix, s) ← s.readUri false false [] start
    return (String.ofList handle, suffix, s)
  let (suffix, s) ← s.readUri false false handle start
  if suffix.isEmpty then
    return ("", "!", s)
  return ("!", suffix, s)

def readTag (s : Scanner) : Except Fault Scanner := do
  let s ← s.saveKey
  let start := s.cursor.mark
  let (handle, suffix, s) ← { s with keyAllowed := false }.readTagParts start
  let closed := s.inFlow && s.cursor.sees 0 ','
  if !closed && !s.cursor.endsWord 0 then
    throw (s.fault .missingWordEnd (some (.tag, start)))
  return s.push (.tag handle suffix) start

def readBlockScalar (s : Scanner) (literal : Bool) : Except Fault Scanner := do
  let s ← s.removeKey
  let (text, cursor) ← readBlock literal s.indents.head? s.cursor
  return { s with cursor, keyAllowed := true }.push (.scalar text false) s.cursor.mark

def readQuotedScalar (s : Scanner) (single : Bool) : Except Fault Scanner := do
  let s ← s.saveKey
  let (text, cursor) ← readQuoted single s.cursor
  return { s with cursor, keyAllowed := false }.push (.scalar text false) s.cursor.mark

/-- Reads a plain scalar. A key may start behind it if a line has ended. -/
def readPlainScalar (s : Scanner) : Except Fault Scanner := do
  let s ← s.saveKey
  let indent := match s.indents.head? with
    | some column => column + 1
    | none => 0
  let (text, broken, cursor) ← readPlain s.inFlow indent s.cursor
  return { s with cursor, keyAllowed := broken }.push (.scalar text true) s.cursor.mark

/-- The characters with which no plain scalar starts, unless a word follows. -/
def isIndicator (c : Char) : Bool :=
  "-?:,[]\x7b\x7d#&*!|>'\"%@\x60".toList.contains c

def atPlainScalar (s : Scanner) (c : Char) : Bool :=
  !isGap c && !isBreak c && !isIndicator c ||
  c == '-' && !s.cursor.seesAny 1 isGap ||
  !s.inFlow && (c == '?' || c == ':') && !s.cursor.endsWord 1

def fetch (s : Scanner) : Except Fault Scanner := do
  let s ← (skipToToken (s.cursor.rest.length + 1) s).dropStaleKeys
  let s := s.closeBlocks (some s.cursor.mark.column)
  match s.cursor.peek 0 with
  | none =>
      let mark := s.cursor.mark
      let mark := if mark.column = 0 then mark else mark.nextLine 0
      let s ← { s with cursor := ⟨mark, []⟩ }.endBlocks
      return s.push .streamEnd mark
  | some c =>
      let ends := s.cursor.endsWord 1
      let flow := s.inFlow
      if s.cursor.mark.column = 0 ∧ c = '%' then s.readDirective
      else if s.cursor.atTriple '-' then s.readDocumentIndicator .documentStart
      else if s.cursor.atTriple '.' then s.readDocumentIndicator .documentEnd
      else if c = '[' then s.readFlowStart .flowSequenceStart
      else if c = '{' then s.readFlowStart .flowMappingStart
      else if c = ']' then s.readFlowEnd .flowSequenceEnd
      else if c = '}' then s.readFlowEnd .flowMappingEnd
      else if c = ',' then s.readFlowEntry
      else if c = '-' ∧ ends then s.readBlockEntry
      else if c = '?' ∧ (flow ∨ ends) then s.readKey
      else if c = ':' ∧ (flow ∨ ends) then s.readValue
      else if c = '*' then s.readAnchor true
      else if c = '&' then s.readAnchor false
      else if c = '!' then s.readTag
      else if c = '|' ∧ !flow then s.readBlockScalar true
      else if c = '>' ∧ !flow then s.readBlockScalar false
      else if c = '\'' then s.readQuotedScalar true
      else if c = '"' then s.readQuotedScalar false
      else if s.atPlainScalar c then s.readPlainScalar
      else throw (s.fault .noToken (some (.nextToken, s.cursor.mark)))

def firstPending (s : Scanner) : Option Nat :=
  ((s.blockKey :: s.flowKeys).filterMap fun key => key.map PendingKey.number).min?

/-- Takes the tokens that nothing can be put in front of any more. -/
def settle (s : Scanner) : List Token × Scanner :=
  let count := match s.firstPending with
    | some number => number - s.settled
    | none => s.queue.length
  let ready := s.queue.take count
  (ready, { s with queue := s.queue.drop count, settled := s.settled + ready.length })

def run : Nat → Scanner → List Token × Option Fault
  | 0, _ => ([], none)
  | fuel + 1, s =>
      match s.fetch with
      | .error fault => ([], some fault)
      | .ok s =>
          match s.dropStaleKeys with
          | .error fault => ([], some fault)
          | .ok s =>
              let (ready, s) := s.settle
              if ready.getLast?.any fun token => token.kind == .streamEnd then (ready, none)
              else
                let (later, fault) := run fuel s
                (ready ++ later, fault)

end Scanner

def isAllowed (c : Char) : Bool :=
  let n := c.toNat
  n == 0x09 || n == 0x0A || n == 0x0D || (0x20 ≤ n && n ≤ 0x7E) || n == 0x85 ||
  (0xA0 ≤ n && n ≤ 0xFFFD) || 0x10000 ≤ n

def refusedAt? (offset : Nat) : List Char → Option Nat
  | [] => none
  | c :: rest => if isAllowed c then refusedAt? (offset + c.utf8Size) rest else some offset

/-- The tokens of a text; a text with a control character has none. A leading byte order mark is
not part of the text. -/
def tokens (text : List Char) : List Token × Option Fault :=
  match refusedAt? 0 text with
  | some offset => ([], some { problem := .controlCharacter, mark := ⟨offset, 0, 0⟩ })
  | none =>
      let text := match text with
        | '\ufeff' :: rest => rest
        | _ => text
      Scanner.run (2 * text.length + 4) { cursor := Cursor.start text }

end Yaml
end StencilDesk
