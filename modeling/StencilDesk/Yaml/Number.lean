import StencilDesk.Decimal.Shortest
import StencilDesk.Text.Digit

/-!
# Plain scalars

How an untagged plain scalar is read: as null, a truth value, a whole number, a decimal number, or
failing all these as text. Whole numbers have a sign and a base, and fit in 64 bits; a whole
number that needs up to 128 bits is recognised but refused.
-/

namespace StencilDesk
namespace Yaml

inductive Number where
  | integer (value : Int)
  | decimal (value : Decimal.Binary64)
  | infinity (negative : Bool)
  | notANumber
deriving DecidableEq, Repr

namespace Number

def text : Number → String
  | integer value => toString value
  | decimal value => value.text
  | infinity negative => if negative then "-.inf" else ".inf"
  | notANumber => ".nan"

/-- Two numbers are the same key if they are equal, or zeros of either sign. -/
def same : Number → Number → Bool
  | decimal a, decimal b => a.sameValue b
  | a, b => a == b

end Number

/-- Holds of digits with a needless leading zero, which are text. -/
def isZeroPadded (text : List Char) : Bool :=
  let digits := match text with
    | '-' :: rest => rest
    | '+' :: rest => rest
    | _ => text
  digits.length > 1 && digits.head? == some '0' && digits.all Char.isDigit

def announcedBase? : List Char → Option (Nat × List Char)
  | '0' :: 'x' :: digits => some (16, digits)
  | '0' :: 'o' :: digits => some (8, digits)
  | '0' :: 'b' :: digits => some (2, digits)
  | _ => none

def magnitude? (digits : List Char) (padded : Bool) (limit : Nat) : Option Nat :=
  let within (n : Nat) : Option Nat := if n ≤ limit then some n else none
  match announcedBase? digits with
  | some (base, rest) => (Text.natural? base rest).bind within
  | none => if padded then none else (Text.natural? 10 digits).bind within

/-- A whole number without a minus sign, of at most the given number of bits. -/
def unsigned? (bits : Nat) (text : List Char) : Option Int :=
  let digits := match text with
    | '+' :: rest => rest
    | _ => text
  (magnitude? digits (isZeroPadded text) (Nat.pow 2 bits - 1)).map Int.ofNat

def negative? (bits : Nat) (text : List Char) : Option Int :=
  match text with
  | '-' :: digits =>
      (magnitude? digits (isZeroPadded text) (Nat.pow 2 (bits - 1))).map fun n => -(Int.ofNat n)
  | _ => none

inductive IntegerReading where
  | fits (value : Int)
  | tooWide (value : Int) (signed : Bool)
  | other
deriving DecidableEq, Repr

def readInteger (text : List Char) : IntegerReading :=
  match unsigned? 64 text <|> negative? 64 text with
  | some value => .fits value
  | none =>
      match unsigned? 128 text, negative? 128 text with
      | some value, _ => .tooWide value false
      | none, some value => .tooWide value true
      | none, none => .other

/-- The power of ten behind the digits of a decimal number; absent, it is zero. -/
def exponent? : List Char → Option Int
  | [] => some 0
  | mark :: rest =>
      if mark = 'e' ∨ mark = 'E' then
        match rest with
        | '-' :: digits => (Text.natural? 10 digits).map fun n => -(Int.ofNat n)
        | '+' :: digits => (Text.natural? 10 digits).map Int.ofNat
        | digits => (Text.natural? 10 digits).map Int.ofNat
      else none

def decimalMagnitude? (negative : Bool) (text : List Char) : Option Decimal.Binary64 :=
  let whole := text.takeWhile Char.isDigit
  let (places, rest) := match text.dropWhile Char.isDigit with
    | '.' :: rest => (rest.takeWhile Char.isDigit, rest.dropWhile Char.isDigit)
    | rest => ([], rest)
  match Text.natural? 10 (whole ++ places), exponent? rest with
  | some digits, some power => Decimal.Binary64.ofDecimal? negative digits (power - places.length)
  | _, _ => none

def readDecimal? (text : List Char) : Option Number :=
  if text = ".nan".toList ∨ text = ".NaN".toList ∨ text = ".NAN".toList then some .notANumber
  else
    let (negative, magnitude) := match text with
      | '+' :: rest => (false, rest)
      | '-' :: rest => (true, rest)
      | _ => (false, text)
    if magnitude = ".inf".toList ∨ magnitude = ".Inf".toList ∨ magnitude = ".INF".toList then
      some (.infinity negative)
    else (decimalMagnitude? negative magnitude).map Number.decimal

def readBool? (text : String) : Option Bool :=
  if ["true", "True", "TRUE"].contains text then some true
  else if ["false", "False", "FALSE"].contains text then some false
  else none

def isNullWord (text : String) : Bool :=
  ["null", "Null", "NULL", "~"].contains text

end Yaml
end StencilDesk
