import StencilDesk.Text.Digit
import StencilDesk.Yaml.Fault

/-!
# Scalar text

Reading the five notations for text: plain, single and double quoted, literal and folded. Each
reader gets the cursor at the first character of the notation and gives the text it denotes with
the cursor behind it.
-/

namespace StencilDesk
namespace Yaml

/-- What stands between two pieces of a scalar: spaces, or line breaks that may be folded. -/
structure Gap where
  /-- The spaces and tabs before any line break, last one first. -/
  blanks : List Char := []
  /-- The first line break. -/
  lead : Option Char := none
  /-- The line breaks after the first, last one first. -/
  trail : List Char := []
  /-- Whether a line has ended in the gap. -/
  broken : Bool := false

namespace Gap

/-- Adds a space or tab; those after a line break are indentation and do not count. -/
def addBlank (gap : Gap) (c : Char) : Gap :=
  if gap.broken then gap else { gap with blanks := c :: gap.blanks }

/-- Adds a line break; the first one discards the spaces before it. -/
def addBreak (gap : Gap) (c : Char) : Gap :=
  if gap.broken then { gap with trail := c :: gap.trail }
  else { gap with blanks := [], lead := some c, broken := true }

/-- The text that a gap stands for: a single line feed becomes a space, and the first of several
is dropped. -/
def folded (gap : Gap) : List Char :=
  if gap.broken then
    if gap.lead = some '\n' then
      if gap.trail.isEmpty then [' '] else gap.trail.reverse
    else gap.lead.toList ++ gap.trail.reverse
  else gap.blanks.reverse

/-- Reads the spaces and breaks at the cursor; a tab below the given column is refused if it
indents. -/
def read (indent : Option (Nat × Fault)) : Nat → Gap → Cursor → Except Fault (Gap × Cursor)
  | 0, gap, cursor => .ok (gap, cursor)
  | fuel + 1, gap, cursor =>
      match cursor.peek 0 with
      | none => .ok (gap, cursor)
      | some c =>
          if isGap c then
            match indent with
            | some (column, fault) =>
                if gap.broken ∧ cursor.mark.column < column ∧ c = '\t' then
                  .error { fault with mark := cursor.mark }
                else read indent fuel (gap.addBlank c) cursor.skip
            | none => read indent fuel (gap.addBlank c) cursor.skip
          else
            match cursor.lineBreak? with
            | some (lineBreak, next) => read indent fuel (gap.addBreak lineBreak) next
            | none => .ok (gap, cursor)

end Gap

def escapedChar? : Char → Option Char
  | '0' => some '\x00'
  | 'a' => some '\x07'
  | 'b' => some '\x08'
  | 't' => some '\t'
  | '\t' => some '\t'
  | 'n' => some '\n'
  | 'v' => some '\x0b'
  | 'f' => some '\x0c'
  | 'r' => some '\r'
  | 'e' => some '\x1b'
  | ' ' => some ' '
  | '"' => some '"'
  | '/' => some '/'
  | '\\' => some '\\'
  | 'N' => some '\u0085'
  | '_' => some '\u00a0'
  | 'L' => some '\u2028'
  | 'P' => some '\u2029'
  | _ => none

/-- How many hexadecimal digits follow the letter of a numeric escape. -/
def escapeWidth? : Char → Option Nat
  | 'x' => some 2
  | 'u' => some 4
  | 'U' => some 8
  | _ => none

def readEscape (start : Mark) (cursor : Cursor) : Except Fault (Char × Cursor) :=
  let fault (problem : Problem) (mark : Mark) : Fault :=
    { problem, mark, context := some (.quotedEscape, start) }
  match cursor.peek 1 with
  | none => .error (fault .unknownEscape cursor.mark)
  | some letter =>
      match escapedChar? letter, escapeWidth? letter with
      | some c, _ => .ok (c, cursor.skipMany 2)
      | none, none => .error (fault .unknownEscape cursor.mark)
      | none, some width =>
          let code := cursor.skipMany 2
          let digits := code.rest.take width
          match Text.natural? 16 digits with
          | none => .error (fault .missingHexDigit code.mark)
          | some value =>
              if digits.length < width then .error (fault .missingHexDigit code.mark)
              else if h : value.isValidChar then
                .ok (Char.ofNatAux value h, code.skipMany width)
              else .error (fault .badEscapeCode code.mark)

/-- Reads pieces without white space up to the closing quote, to a gap, or to an escaped break. -/
def readQuotedPiece (single : Bool) (start : Mark) :
    Nat → List Char → Cursor → Except Fault (List Char × Bool × Cursor)
  | 0, text, cursor => .ok (text, false, cursor)
  | fuel + 1, text, cursor =>
      match cursor.peek 0 with
      | none => .ok (text, false, cursor)
      | some c =>
          if isGap c || isBreak c then .ok (text, false, cursor)
          else if single then
            if c = '\'' then
              if cursor.sees 1 '\'' then
                readQuotedPiece single start fuel ('\'' :: text) (cursor.skipMany 2)
              else .ok (text, false, cursor)
            else readQuotedPiece single start fuel (c :: text) cursor.skip
          else if c = '"' then .ok (text, false, cursor)
          else if c = '\\' then
            if cursor.seesAny 1 isBreak then .ok (text, true, cursor.skip.skipBreak)
            else do
              let (escaped, next) ← readEscape start cursor
              readQuotedPiece single start fuel (escaped :: text) next
          else readQuotedPiece single start fuel (c :: text) cursor.skip

def readQuotedFrom (single : Bool) (start : Mark) :
    Nat → List Char → Cursor → Except Fault (List Char × Cursor)
  | 0, text, cursor => .ok (text, cursor)
  | fuel + 1, text, cursor =>
      let fault (problem : Problem) : Fault :=
        { problem, mark := cursor.mark, context := some (.quotedScalar, start) }
      if cursor.atDocumentIndicator then .error (fault .documentIndicatorHere)
      else if cursor.atEnd then .error (fault .endOfStream)
      else do
        let (text, escapedBreak, cursor) ←
          readQuotedPiece single start (cursor.rest.length + 1) text cursor
        if cursor.sees 0 (if single then '\'' else '"') then
          return (text, cursor.skip)
        let (gap, cursor) ←
          Gap.read none (cursor.rest.length + 1) { broken := escapedBreak } cursor
        readQuotedFrom single start fuel (gap.folded.reverse ++ text) cursor

def readQuoted (single : Bool) (cursor : Cursor) : Except Fault (String × Cursor) := do
  let (text, next) ←
    readQuotedFrom single cursor.mark (cursor.rest.length + 1) [] cursor.skip
  return (String.ofList text.reverse, next)

def isFlowIndicator (c : Char) : Bool :=
  c == ',' || c == '[' || c == ']' || c == '{' || c == '}'

/-- Reads the characters of a plain scalar up to a gap or an indicator that ends it. -/
def readPlainPiece (flow : Bool) (start : Mark) :
    Nat → List Char → Cursor → Except Fault (List Char × Cursor)
  | 0, text, cursor => .ok (text, cursor)
  | fuel + 1, text, cursor =>
      match cursor.peek 0 with
      | none => .ok (text, cursor)
      | some c =>
          if isGap c || isBreak c then .ok (text, cursor)
          else if flow ∧ c = ':' ∧
              cursor.seesAny 1 fun next => next == '?' || isFlowIndicator next then
            .error
              { problem := .unexpectedColon, mark := cursor.mark
                context := some (.plainScalar, start) }
          else if (c = ':' ∧ cursor.endsWord 1) ∨ (flow ∧ isFlowIndicator c) then
            .ok (text, cursor)
          else readPlainPiece flow start fuel (c :: text) cursor.skip

/-- A plain scalar as far as it was read: reversed text, the gap behind it, and the cursor. -/
structure PlainText where
  text : List Char
  gap : Gap
  cursor : Cursor

/-- Continues a plain scalar over its gaps, while its lines are indented to the given column. -/
def readPlainFrom (flow : Bool) (indent : Nat) (start : Mark) :
    Nat → PlainText → Except Fault PlainText
  | 0, plain => .ok plain
  | fuel + 1, plain =>
      let cursor := plain.cursor
      if cursor.atDocumentIndicator || cursor.sees 0 '#' then .ok plain
      else do
        let (piece, cursor) ← readPlainPiece flow start (cursor.rest.length + 1) [] cursor
        let read : PlainText :=
          if piece.isEmpty then { plain with cursor }
          else { text := piece ++ plain.gap.folded.reverse ++ plain.text, gap := {}, cursor }
        if !cursor.seesAny 0 fun c => isGap c || isBreak c then
          return read
        let fault : Fault :=
          { problem := .tabViolatesIndentation, mark := start
            context := some (.plainScalar, start) }
        let (gap, cursor) ←
          Gap.read (some (indent, fault)) (cursor.rest.length + 1) {} cursor
        let next : PlainText := { read with gap, cursor }
        if !flow && cursor.mark.column < indent then
          return next
        readPlainFrom flow indent start fuel next

/-- Reads a plain scalar; also tells whether a line has ended behind its text. -/
def readPlain (flow : Bool) (indent : Nat) (cursor : Cursor) :
    Except Fault (String × Bool × Cursor) := do
  let plain ←
    readPlainFrom flow indent cursor.mark (cursor.rest.length + 1)
      { text := [], gap := {}, cursor }
  return (String.ofList plain.text.reverse, plain.gap.broken, plain.cursor)

inductive Chomping where
  | strip
  | clip
  | keep
deriving DecidableEq, Repr

def chomping? (cursor : Cursor) : Option Chomping :=
  match cursor.peek 0 with
  | some '+' => some .keep
  | some '-' => some .strip
  | _ => none

/-- The indentation indicator at the cursor, which may not be zero. -/
def indentation? (start : Mark) (cursor : Cursor) : Except Fault (Option Nat) :=
  match cursor.peek 0 with
  | some c =>
      if c = '0' then
        .error
          { problem := .zeroIndentation, mark := cursor.mark
            context := some (.blockScalar, start) }
      else if c.isDigit then .ok (some (c.toNat - 48))
      else .ok none
  | none => .ok none

/-- Reads the two optional indicators of a block scalar, in either order. -/
def readBlockHeader (start : Mark) (cursor : Cursor) :
    Except Fault (Chomping × Option Nat × Cursor) := do
  match chomping? cursor with
  | some chomping =>
      let cursor := cursor.skip
      match ← indentation? start cursor with
      | some width => return (chomping, some width, cursor.skip)
      | none => return (chomping, none, cursor)
  | none =>
      match ← indentation? start cursor with
      | none => return (.clip, none, cursor)
      | some width =>
          let cursor := cursor.skip
          match chomping? cursor with
          | some chomping => return (chomping, some width, cursor.skip)
          | none => return (.clip, some width, cursor)

/-- Moves over indentation and blank lines, collecting their breaks and the deepest column seen. -/
def readBlockBreaks (start : Mark) (indent : Option Nat) :
    Nat → List Char → Nat → Cursor → Except Fault (List Char × Nat × Cursor)
  | 0, breaks, deepest, cursor => .ok (breaks, deepest, cursor)
  | fuel + 1, breaks, deepest, cursor =>
      let room := match indent with
        | some column => column - cursor.mark.column
        | none => cursor.rest.length
      let spaces := ((cursor.rest.takeWhile (· == ' ')).take room).length
      let cursor := cursor.skipMany spaces
      let deepest := max deepest cursor.mark.column
      let indenting := indent.all fun column => cursor.mark.column < column
      if indenting && cursor.sees 0 '\t' then
        .error
          { problem := .tabIndentation, mark := cursor.mark
            context := some (.blockScalar, start) }
      else
        match cursor.lineBreak? with
        | some (lineBreak, next) =>
            readBlockBreaks start indent fuel (lineBreak :: breaks) deepest next
        | none => .ok (breaks, deepest, cursor)

/-- A block scalar as far as it was read; all text is reversed. -/
structure BlockText where
  text : List Char
  /-- The break behind the last line of text. -/
  lead : Option Char
  /-- The breaks of the blank lines behind it. -/
  trail : List Char
  /-- Whether the last line of text starts with a gap. -/
  indented : Bool
  cursor : Cursor

/-- Reads the lines of a block scalar that start in the given column. -/
def readBlockLines (literal : Bool) (start : Mark) (indent : Nat) :
    Nat → BlockText → Except Fault BlockText
  | 0, block => .ok block
  | fuel + 1, block =>
      let cursor := block.cursor
      if cursor.mark.column ≠ indent || cursor.atEnd then .ok block
      else do
        let indented := cursor.seesAny 0 isGap
        let joint :=
          if !literal && block.lead = some '\n' && !block.indented && !indented then
            if block.trail.isEmpty then [' '] else []
          else block.lead.toList
        let (line, cursor) := cursor.takeWhile fun c => !isBreak c
        let (lead, cursor) := match cursor.lineBreak? with
          | some (lineBreak, next) => (some lineBreak, next)
          | none => (none, cursor)
        let (trail, _, cursor) ←
          readBlockBreaks start (some indent) (cursor.rest.length + 1) [] 0 cursor
        readBlockLines literal start indent fuel
          { text := line.reverse ++ block.trail ++ joint ++ block.text
            lead, trail, indented, cursor }

def readBlock (literal : Bool) (parent : Option Nat) (cursor : Cursor) :
    Except Fault (String × Cursor) := do
  let start := cursor.mark
  let (chomping, increment, cursor) ← readBlockHeader start cursor.skip
  let cursor := cursor.skipWhile isGap
  let cursor := if cursor.sees 0 '#' then cursor.skipLineText else cursor
  if !cursor.atLineEnd then
    throw
      { problem := .missingLineEnd, mark := cursor.mark
        context := some (.blockScalar, start) }
  let cursor := cursor.skipBreak
  let given := increment.map fun width => parent.getD 0 + width
  let (trail, deepest, cursor) ←
    readBlockBreaks start given (cursor.rest.length + 1) [] 0 cursor
  let least := max 1 (match parent with
    | some column => column + 1
    | none => 0)
  let indent := given.getD (max deepest least)
  let block ←
    readBlockLines literal start indent (cursor.rest.length + 1)
      { text := [], lead := none, trail, indented := false, cursor }
  let text := match chomping with
    | .strip => block.text
    | .clip => block.lead.toList ++ block.text
    | .keep => block.trail ++ block.lead.toList ++ block.text
  return (String.ofList text.reverse, block.cursor)

end Yaml
end StencilDesk
