/-!
# Patterns

Patterns for field values: a sequence of characters or character classes, each perhaps repeated,
found anywhere in a text unless it is anchored at the start or the end. The written form is the
usual one, as in `^[a-z][a-z0-9_-]*$`, without groups and alternatives.
-/

namespace StencilDesk
namespace Text

inductive Repetition where
  | once
  | optional
  | many
  | some
deriving DecidableEq, Repr

/-- One item of a pattern: ranges of characters, or their complement, and a repetition. -/
structure PatternItem where
  ranges : List (Char × Char)
  negated : Bool := false
  repetition : Repetition := .once
deriving DecidableEq, Repr

structure Pattern where
  written : String
  atStart : Bool
  items : List PatternItem
  atEnd : Bool
deriving DecidableEq, Repr

namespace PatternItem

def accepts (item : PatternItem) (c : Char) : Bool :=
  (item.ranges.any fun (first, last) => first ≤ c && c ≤ last) != item.negated

/-- What may remain of a text behind any number of characters of an item. -/
def remaindersOfMany (item : PatternItem) : List Char → List (List Char)
  | [] => [[]]
  | c :: rest =>
      if item.accepts c then (c :: rest) :: item.remaindersOfMany rest else [c :: rest]

def remaindersOfOne (item : PatternItem) : List Char → List (List Char)
  | [] => []
  | c :: rest => if item.accepts c then [rest] else []

def remainders (item : PatternItem) (text : List Char) : List (List Char) :=
  match item.repetition with
  | .once => item.remaindersOfOne text
  | .optional => text :: item.remaindersOfOne text
  | .many => item.remaindersOfMany text
  | .some => (item.remaindersOfOne text).flatMap item.remaindersOfMany

end PatternItem

namespace Pattern

def remainders : List PatternItem → List Char → List (List Char)
  | [], text => [text]
  | item :: items, text => (item.remainders text).flatMap (remainders items)

def fitsHere (pattern : Pattern) (text : List Char) : Bool :=
  (remainders pattern.items text).any fun rest => !pattern.atEnd || rest.isEmpty

def fitsSomewhere (pattern : Pattern) : List Char → Bool
  | [] => pattern.fitsHere []
  | c :: rest => pattern.fitsHere (c :: rest) || pattern.fitsSomewhere rest

def accepts (pattern : Pattern) (text : String) : Bool :=
  if pattern.atStart then pattern.fitsHere text.toList else pattern.fitsSomewhere text.toList

def classRanges : List Char → List (Char × Char)
  | first :: '-' :: last :: rest => (first, last) :: classRanges rest
  | c :: rest => (c, c) :: classRanges rest
  | [] => []

def readRepetition : List Char → Repetition × List Char
  | '?' :: rest => (.optional, rest)
  | '*' :: rest => (.many, rest)
  | '+' :: rest => (.some, rest)
  | rest => (.once, rest)

def isSpecial (c : Char) : Bool :=
  "\\.+*?()|[]\x7b\x7d^$".toList.contains c

/-- Reads the items of a pattern; an end anchor may only stand last. -/
def readItems : Nat → List Char → Option (List PatternItem × Bool)
  | _, [] => some ([], false)
  | _, ['$'] => some ([], true)
  | 0, _ => none
  | fuel + 1, '[' :: rest =>
      let (negated, content) := match rest with
        | '^' :: content => (true, content)
        | content => (false, content)
      let inside := content.takeWhile (· != ']')
      match content.dropWhile (· != ']') with
      | _ :: behind =>
          let (repetition, behind) := readRepetition behind
          (readItems fuel behind).map fun (items, atEnd) =>
            (⟨classRanges inside, negated, repetition⟩ :: items, atEnd)
      | [] => none
  | fuel + 1, c :: rest =>
      if isSpecial c then none
      else
        let (repetition, behind) := readRepetition rest
        (readItems fuel behind).map fun (items, atEnd) =>
          (⟨[(c, c)], false, repetition⟩ :: items, atEnd)

def ofText? (written : String) : Option Pattern :=
  let (atStart, rest) := match written.toList with
    | '^' :: rest => (true, rest)
    | rest => (false, rest)
  (readItems (rest.length + 1) rest).map fun (items, atEnd) => { written, atStart, items, atEnd }

end Pattern

end Text
end StencilDesk
