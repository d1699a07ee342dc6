import StencilDesk.Decimal.Binary64

/-!
# Shortest decimals

The decimal with the fewest digits that reads back as a given double, and its text. Of two
decimals of that length the nearer one is taken, and the one with an even last digit if they are
equally near. A point is written where it falls within sixteen digits of the number's start and
at most four zeros before its digits; other numbers have an exponent.
-/

namespace StencilDesk
namespace Decimal

/-- The number `digits * 10 ^ power`. -/
structure Scientific where
  digits : Nat
  power : Int
deriving DecidableEq, Repr

structure Fraction where
  numerator : Nat
  denominator : Nat

namespace Fraction

def ofBinary (n : Nat) (exponent : Int) : Fraction :=
  if exponent < 0 then ⟨n, Nat.pow 2 exponent.natAbs⟩ else ⟨n * Nat.pow 2 exponent.natAbs, 1⟩

def shifted (x : Fraction) (power : Int) : Fraction :=
  if power < 0 then ⟨x.numerator * Nat.pow 10 power.natAbs, x.denominator⟩
  else ⟨x.numerator, x.denominator * Nat.pow 10 power.natAbs⟩

def below (x : Fraction) (n : Nat) : Bool :=
  x.numerator < n * x.denominator

def above (x : Fraction) (n : Nat) : Bool :=
  n * x.denominator < x.numerator

end Fraction

namespace Binary64

/-- The numbers halfway to the two neighbours: what lies between them reads back as the double. -/
def bounds (x : Binary64) : Fraction × Fraction :=
  let low :=
    if x.mantissa = Nat.pow 2 52 ∧ leastExponent < x.exponent then
      Fraction.ofBinary (4 * x.mantissa - 1) (x.exponent - 2)
    else Fraction.ofBinary (2 * x.mantissa - 1) (x.exponent - 1)
  (low, Fraction.ofBinary (2 * x.mantissa + 1) (x.exponent - 1))

/-- The decimals with the given last place that are next to the double and read back as it, the
nearer one first. -/
def candidates (x : Binary64) (power : Int) : List Nat :=
  let value := (Fraction.ofBinary x.mantissa x.exponent).shifted power
  let low := x.bounds.1.shifted power
  let high := x.bounds.2.shifted power
  let even := x.mantissa % 2 = 0
  let readsBack (n : Nat) : Bool :=
    (low.below n || (even && !low.above n)) && (high.above n || (even && !high.below n))
  let floor := value.numerator / value.denominator
  let rest := 2 * (value.numerator % value.denominator)
  let floorFirst :=
    rest < value.denominator ∨ (rest = value.denominator ∧ floor % 2 = 0)
  (if floorFirst then [floor, floor + 1] else [floor + 1, floor]).filter readsBack

def shortestFrom (x : Binary64) : Nat → Int → Scientific
  | 0, power => ⟨0, power⟩
  | fuel + 1, power =>
      match (x.candidates power).filter (0 < ·) with
      | n :: _ => ⟨n, power⟩
      | [] => shortestFrom x fuel (power - 1)

def decimalBound (x : Binary64) : Int :=
  ((x.mantissa.log2 : Int) + x.exponent) * 30103 / 100000 + 1

/-- The decimal with the fewest digits that reads back as the given positive double. -/
def shortest (x : Binary64) : Scientific :=
  x.shortestFrom 20 x.decimalBound

def trimmed : List Char → Int → List Char × Int
  | digits, power =>
      let zeros := (digits.reverse.takeWhile (· == '0')).length
      (digits.take (digits.length - zeros), power + zeros)

def text (x : Binary64) : String :=
  let sign := if x.negative then "-" else ""
  if x.mantissa = 0 then sign ++ "0.0"
  else
    let shortest := x.shortest
    let (digits, power) := trimmed (Nat.toDigits 10 shortest.digits) shortest.power
    let point : Int := digits.length + power
    let body :=
      if 0 ≤ power ∧ point ≤ 16 then
        digits ++ List.replicate power.toNat '0' ++ ".0".toList
      else if 0 < point ∧ point ≤ 16 then
        digits.take point.toNat ++ '.' :: digits.drop point.toNat
      else if -5 < point ∧ point ≤ 0 then
        "0.".toList ++ List.replicate point.natAbs '0' ++ digits
      else
        let exponent := 'e' :: (toString (point - 1)).toList
        match digits with
        | [digit] => digit :: exponent
        | _ => digits.take 1 ++ '.' :: digits.drop 1 ++ exponent
    sign ++ String.ofList body

end Binary64

end Decimal
end StencilDesk
