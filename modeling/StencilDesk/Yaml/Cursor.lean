/-!
# Reading positions

A cursor is the text that is still to be read together with the place where it starts. Columns
count characters, offsets count the bytes of the characters' encoding, and lines end at any of
the line breaks of the format.
-/

namespace StencilDesk
namespace Yaml

/-- A place in a document: byte offset, and line and column counted from zero. -/
structure Mark where
  offset : Nat
  line : Nat
  column : Nat
deriving DecidableEq, Repr, Inhabited

namespace Mark

def origin : Mark := ⟨0, 0, 0⟩

def isOrigin (mark : Mark) : Bool :=
  mark.line == 0 && mark.column == 0

def samePlace (a b : Mark) : Bool :=
  a.line == b.line && a.column == b.column

def after (mark : Mark) (c : Char) : Mark :=
  ⟨mark.offset + c.utf8Size, mark.line, mark.column + 1⟩

def nextLine (mark : Mark) (width : Nat) : Mark :=
  ⟨mark.offset + width, mark.line + 1, 0⟩

def text (mark : Mark) : String :=
  s!"line {mark.line + 1} column {mark.column + 1}"

end Mark

def isGap (c : Char) : Bool :=
  c == ' ' || c == '\t'

/-- The line breaks: carriage return, line feed, next line, and the two separators. -/
def isBreak (c : Char) : Bool :=
  c == '\r' || c == '\n' || c == '\u0085' || c == '\u2028' || c == '\u2029'

def isWord (c : Char) : Bool :=
  c.isAlphanum || c == '_' || c == '-'

structure Cursor where
  mark : Mark
  rest : List Char
deriving Inhabited

namespace Cursor

def start (text : List Char) : Cursor := ⟨Mark.origin, text⟩

def peek (cursor : Cursor) (ahead : Nat) : Option Char :=
  cursor.rest[ahead]?

def sees (cursor : Cursor) (ahead : Nat) (c : Char) : Bool :=
  cursor.peek ahead == some c

/-- Holds if the character that many places ahead satisfies a test; never at the end. -/
def seesAny (cursor : Cursor) (ahead : Nat) (test : Char → Bool) : Bool :=
  (cursor.peek ahead).any test

def atEnd (cursor : Cursor) : Bool :=
  cursor.rest.isEmpty

def atLineEnd (cursor : Cursor) : Bool :=
  (cursor.peek 0).all isBreak

/-- Holds where a word ends: at a gap, a line break, or the end of the text. -/
def endsWord (cursor : Cursor) (ahead : Nat) : Bool :=
  (cursor.peek ahead).all fun c => isGap c || isBreak c

def skip (cursor : Cursor) : Cursor :=
  match cursor.rest with
  | [] => cursor
  | c :: rest => ⟨cursor.mark.after c, rest⟩

def skipMany (cursor : Cursor) : Nat → Cursor
  | 0 => cursor
  | n + 1 => cursor.skip.skipMany n

/-- Moves past the leading characters that satisfy a test, which holds of no line break. -/
def skipWhile (test : Char → Bool) (cursor : Cursor) : Cursor :=
  go cursor.mark cursor.rest
where
  go (mark : Mark) : List Char → Cursor
    | [] => ⟨mark, []⟩
    | c :: rest => if test c then go (mark.after c) rest else ⟨mark, c :: rest⟩

def takeWhile (test : Char → Bool) (cursor : Cursor) : List Char × Cursor :=
  (cursor.rest.takeWhile test, cursor.skipWhile test)

def skipLineText (cursor : Cursor) : Cursor :=
  cursor.skipWhile fun c => !isBreak c

/--
The line break at the cursor as it is kept in scalars, and the cursor after it. All breaks become
line feeds, except for the two separators; carriage return and line feed are one break.
-/
def lineBreak? (cursor : Cursor) : Option (Char × Cursor) :=
  match cursor.rest with
  | '\r' :: '\n' :: rest => some ('\n', ⟨cursor.mark.nextLine 2, rest⟩)
  | c :: rest =>
      if isBreak c then
        some (if c == '\u2028' || c == '\u2029' then c else '\n',
          ⟨cursor.mark.nextLine c.utf8Size, rest⟩)
      else none
  | [] => none

def skipBreak (cursor : Cursor) : Cursor :=
  match cursor.lineBreak? with
  | some (_, next) => next
  | none => cursor

/-- Holds where a line starts with three of the given characters that stand alone. -/
def atTriple (cursor : Cursor) (c : Char) : Bool :=
  cursor.mark.column == 0 && cursor.sees 0 c && cursor.sees 1 c && cursor.sees 2 c &&
    cursor.endsWord 3

def atDocumentIndicator (cursor : Cursor) : Bool :=
  cursor.atTriple '-' || cursor.atTriple '.'

end Cursor

end Yaml
end StencilDesk
