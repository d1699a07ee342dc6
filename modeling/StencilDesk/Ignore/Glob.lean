import StencilDesk.Text.Split

/-!
# Globs

Patterns of paths. A question mark stands for one byte of a path other than a slash, a star for any
number of them, and a star twice between slashes, or at an end, for any number of folders. A class
in brackets stands for one byte, and alternatives stand in braces. A backslash takes the next
character as it is.

A glob is kept as the list of its alternatives. Each is a sequence of atoms, which is compared with
the bytes of a path from left to right.
-/

namespace StencilDesk

inductive GlobAtom where
  | byte (byte : UInt8)
  /-- One byte other than a slash. -/
  | one
  /-- Any number of bytes other than slashes. -/
  | many
  /-- One byte that is in a range, or in none of them if negated. -/
  | within (negated : Bool) (ranges : List (UInt8 × UInt8))
  /-- Nothing, or any bytes up to some slash. -/
  | folders
  /-- Any bytes. -/
  | anything
deriving DecidableEq, Repr

/-- A glob: the sequences of atoms of which one has to match. -/
structure Glob where
  alternatives : List (List GlobAtom)
deriving DecidableEq, Repr

namespace Glob

def slash : UInt8 := 0x2F

def classHas (negated : Bool) (ranges : List (UInt8 × UInt8)) (b : UInt8) : Bool :=
  negated != ranges.any fun range => range.1 ≤ b && b ≤ range.2

/-- Holds if something is true of a text or of what follows one of its slashes. -/
def afterFolders (p : List UInt8 → Bool) : List UInt8 → Bool
  | [] => p []
  | b :: rest => p (b :: rest) || afterLaterSlash p b rest
where
  /-- Holds if something is true of what follows a slash that comes at the given byte or later. -/
  afterLaterSlash (p : List UInt8 → Bool) : UInt8 → List UInt8 → Bool
    | b, [] => b == slash && p []
    | b, c :: rest => (b == slash && p (c :: rest)) || afterLaterSlash p c rest

/-- Holds if something is true of a text or of what is left of it without some first bytes. -/
def afterMany (skips : UInt8 → Bool) (p : List UInt8 → Bool) : List UInt8 → Bool
  | [] => p []
  | b :: rest => p (b :: rest) || (skips b && afterMany skips p rest)

def atomsMatch : List GlobAtom → List UInt8 → Bool
  | [], text => text.isEmpty
  | .byte b :: atoms, text =>
      match text with
      | c :: rest => b == c && atomsMatch atoms rest
      | [] => false
  | .one :: atoms, text =>
      match text with
      | c :: rest => c != slash && atomsMatch atoms rest
      | [] => false
  | .within negated ranges :: atoms, text =>
      match text with
      | c :: rest => classHas negated ranges c && atomsMatch atoms rest
      | [] => false
  | .many :: atoms, text => afterMany (· != slash) (atomsMatch atoms) text
  | .anything :: atoms, text => afterMany (fun _ => true) (atomsMatch atoms) text
  | .folders :: atoms, text => afterFolders (atomsMatch atoms) text

def accepts (glob : Glob) (path : String) : Bool :=
  let bytes := path.toUTF8.toList
  glob.alternatives.any fun atoms => atomsMatch atoms bytes

end Glob

inductive GlobToken where
  | character (c : Char)
  | one
  | many
  | within (negated : Bool) (ranges : List (Char × Char))
  /-- Two stars at the start, with a slash or nothing after them. -/
  | leadingFolders
  /-- Two stars between slashes. -/
  | innerFolders
  /-- Two stars at the end, after a slash. -/
  | trailingFolders
  /-- Alternatives, each written out as sequences of atoms. -/
  | choice (alternatives : List (List GlobAtom))
deriving DecidableEq, Repr

namespace GlobToken

def bytes (c : Char) : List UInt8 :=
  (String.singleton c).toUTF8.toList

/--
The ranges of bytes for a range of characters. Of two characters that take several bytes, the last
byte of the one and the first of the other are the ends of a range, and the rest stand alone.
-/
def byteRanges (range : Char × Char) : List (UInt8 × UInt8) :=
  let alone := fun list : List UInt8 => list.map fun b => (b, b)
  if range.1 = range.2 then alone (bytes range.1)
  else
    let low := bytes range.1
    let high := bytes range.2
    alone low.dropLast ++ [(low.getLastD 0, high.headD 0)] ++ alone high.tail

def atoms : GlobToken → List (List GlobAtom)
  | character c => [(bytes c).map .byte]
  | one => [[.one]]
  | many => [[.many]]
  | within negated ranges => [[.within negated (ranges.flatMap byteRanges)]]
  | leadingFolders => [[.folders]]
  | innerFolders => [[.byte Glob.slash, .folders]]
  | trailingFolders => [[.byte Glob.slash, .anything]]
  | choice alternatives => alternatives

def sequences : List GlobToken → List (List GlobAtom)
  | [] => [[]]
  | token :: rest =>
      let later := sequences rest
      token.atoms.flatMap fun first => later.map fun next => first ++ next

end GlobToken

inductive GlobFault where
  | unclosedClass
  | invalidRange
  | unopenedBrace
  | unclosedBrace
  | danglingBackslash
deriving DecidableEq, Repr

namespace Glob

/-- What was read of a class: its ranges, and whether the last one waits for its end. -/
structure ClassReading where
  ranges : List (Char × Char) := []
  isOpen : Bool := false

/-- Adds a character to a class; it may be the end of a range, which must not precede its start. -/
def ClassReading.add (reading : ClassReading) (c : Char) : Except GlobFault ClassReading :=
  if reading.isOpen then
    match reading.ranges.getLast? with
    | none => .ok { ranges := [(c, c)] }
    | some (low, _) =>
        if c < low then .error .invalidRange
        else .ok { ranges := reading.ranges.dropLast ++ [(low, c)] }
  else .ok { ranges := reading.ranges ++ [(c, c)] }

/-- The ranges of a class at its end; a hyphen that waits for the end of a range stands for
itself. -/
def ClassReading.finished (reading : ClassReading) : List (Char × Char) :=
  if reading.isOpen then reading.ranges ++ [('-', '-')] else reading.ranges

def readClass (reading : ClassReading) :
    List Char → Except GlobFault (Option (List (Char × Char) × List Char))
  | [] => .ok none
  | ']' :: rest => .ok (some (reading.finished, rest))
  | '-' :: rest => do
      if reading.isOpen then
        readClass (← reading.add '-') rest
      else
        readClass { reading with isOpen := true } rest
  | c :: rest => do
      readClass (← reading.add c) rest

/-- Reads a class behind its bracket and its negation. The first character is taken as it is. -/
def readClassStart : List Char → Except GlobFault (Option (List (Char × Char) × List Char))
  | [] => .ok none
  | c :: rest => readClass { ranges := [(c, c)] } rest

theorem readClass_length {reading : ClassReading} {text : List Char}
    {result : List (Char × Char) × List Char} (h : readClass reading text = .ok (some result)) :
    result.2.length < text.length := by
  induction text generalizing reading with
  | nil => simp [readClass] at h
  | cons c rest ih =>
      unfold readClass at h
      split at h
      · contradiction
      · rename_i same
        cases same
        cases h
        simp
      · rename_i same
        cases same
        split at h
        · cases added : reading.add '-' with
          | error fault => simp [added, bind, Except.bind] at h
          | ok next =>
              simp [added, bind, Except.bind] at h
              have := ih h
              simp; omega
        · have := ih h
          simp; omega
      · rename_i same
        cases same
        cases added : reading.add c with
        | error fault => simp [added, bind, Except.bind] at h
        | ok next =>
            simp [added, bind, Except.bind] at h
            have := ih h
            simp; omega

structure Reading where
  /-- The character before the one to be read. -/
  before : Option Char := none
  /-- The tokens of the innermost alternative, last first. -/
  tokens : List GlobToken := []
  /-- The open braces, innermost first: the alternatives that are complete, and what stands
  before. -/
  braces : List (List (List GlobToken) × List GlobToken) := []
  /-- Holds if brackets are taken as they are, since one of them has no end. -/
  plainBrackets : Bool := false

namespace Reading

def push (r : Reading) (token : GlobToken) (last : Char) : Reading :=
  { r with before := some last, tokens := token :: r.tokens }

def openBrace (r : Reading) : Reading :=
  { r with before := some '\x7b', tokens := [], braces := ([], r.tokens) :: r.braces }

def comma (r : Reading) : Reading :=
  match r.braces with
  | [] => r.push (.character ',') ','
  | (complete, outer) :: braces =>
      { r with
        before := some ','
        tokens := []
        braces := (complete ++ [r.tokens], outer) :: braces }

/-- The sequences of alternatives. Empty ones do not count unless there is no other. -/
def choiceOf (alternatives : List (List GlobToken)) : List (List GlobAtom) :=
  let written := alternatives.map fun tokens => GlobToken.sequences tokens.reverse
  let present := written.filter (· != [[]])
  if present.isEmpty then [[]] else present.flatten

def closeBrace (r : Reading) : Except GlobFault Reading :=
  match r.braces with
  | [] => .error .unopenedBrace
  | (complete, outer) :: braces =>
      .ok { r with
        before := some '\x7d'
        tokens := .choice (choiceOf (complete ++ [r.tokens])) :: outer
        braces }

def plainStars (r : Reading) : Reading :=
  (r.push .many '*').push .many '*'

/-- Adds two stars that stand for folders, in place of the slash before them. -/
def folderStars (r : Reading) (token : GlobToken) (last : Char) : Reading :=
  match r.tokens with
  | .leadingFolders :: _ | .trailingFolders :: _ => { r with before := some last }
  | _ :: tokens => { r with before := some last, tokens := token :: tokens }
  | [] => r

/--
Adds two stars, given what follows them; gives what is left of that. At the start of an alternative
they stand for folders if a slash or the end follows, later if also a slash stands before them.
-/
def stars (r : Reading) (after : List Char) : Reading × List Char :=
  let inBraces := !r.braces.isEmpty
  if r.tokens.isEmpty then
    match after with
    | [] => (r.push .leadingFolders '*', [])
    | '/' :: rest => (r.push .leadingFolders '/', rest)
    | _ => (r.plainStars, after)
  else if r.before = some '/' ∨ (inBraces ∧ (r.before = some ',' ∨ r.before = some '\x7b')) then
    match after with
    | [] => (r.folderStars .trailingFolders '*', [])
    | '/' :: rest => (r.folderStars .innerFolders '/', rest)
    | c :: _ =>
        if inBraces ∧ (c = ',' ∨ c = '\x7d') then (r.folderStars .trailingFolders '*', after)
        else (r.plainStars, after)
  else (r.plainStars, after)

theorem stars_length (r : Reading) (after : List Char) :
    (r.stars after).2.length ≤ after.length := by
  unfold stars
  simp only
  split
  · split <;> simp
  · split
    · split
      · simp
      · simp
      · split <;> simp
    · simp

end Reading

def readNegation : List Char → Bool × List Char
  | '!' :: rest => (true, rest)
  | '^' :: rest => (true, rest)
  | text => (false, text)

theorem readNegation_length (text : List Char) :
    (readNegation text).2.length ≤ text.length := by
  unfold readNegation
  split <;> simp

theorem readClassStart_length {text : List Char} {result : List (Char × Char) × List Char}
    (h : readClassStart text = .ok (some result)) : result.2.length < text.length := by
  cases text with
  | nil => simp [readClassStart] at h
  | cons c rest =>
      have := readClass_length h
      simp; omega

/--
Reads the tokens of a glob. A bracket without its end is a fault, unless brackets without an end
are allowed: then it and all brackets after it are taken as they are.
-/
def read (allowUnclosed : Bool) (r : Reading) (text : List Char) : Except GlobFault Reading :=
  match text with
  | [] => .ok r
  | '?' :: rest => read allowUnclosed (r.push .one '?') rest
  | '*' :: '*' :: rest =>
      have := r.stars_length rest
      read allowUnclosed (r.stars rest).1 (r.stars rest).2
  | '*' :: rest => read allowUnclosed (r.push .many '*') rest
  | '\x7b' :: rest => read allowUnclosed r.openBrace rest
  | '\x7d' :: rest =>
      match r.closeBrace with
      | .ok r => read allowUnclosed r rest
      | .error fault => .error fault
  | ',' :: rest => read allowUnclosed r.comma rest
  | '\\' :: [] => .error .danglingBackslash
  | '\\' :: c :: rest => read allowUnclosed (r.push (.character c) c) rest
  | '[' :: rest =>
      if r.plainBrackets then read allowUnclosed (r.push (.character '[') '[') rest
      else
        match h : readClassStart (readNegation rest).2 with
        | .error fault => .error fault
        | .ok (some result) =>
            have := readClassStart_length h
            have := readNegation_length rest
            read allowUnclosed (r.push (.within (readNegation rest).1 result.1) ']') result.2
        | .ok none =>
            if allowUnclosed then
              read allowUnclosed
                ({ r with plainBrackets := true }.push (.character '[') '[') rest
            else .error .unclosedClass
  | c :: rest => read allowUnclosed (r.push (.character c) c) rest
termination_by text.length
decreasing_by all_goals (simp_all; try omega)

/-- The glob of some tokens. Two stars alone stand for every path. -/
def ofTokens (tokens : List GlobToken) : Glob :=
  if tokens = [.leadingFolders] then ⟨[[.anything]]⟩ else ⟨GlobToken.sequences tokens⟩

def ofText (allowUnclosed : Bool) (text : List Char) : Except GlobFault Glob := do
  let r ← read allowUnclosed {} text
  if !r.braces.isEmpty then
    throw .unclosedBrace
  return ofTokens r.tokens.reverse

end Glob

end StencilDesk
