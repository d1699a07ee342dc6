/-!
# Double precision numbers

A finite double precision number is kept as an exact multiple of a power of two. Reading a decimal
picks the nearest such number, and of two equally near ones the one with an even mantissa. All
arithmetic is exact, on natural numbers.
-/

namespace StencilDesk
namespace Decimal

/--
The number `mantissa * 2 ^ exponent`, with a sign. The mantissa is below `2 ^ 53`; it is at least
`2 ^ 52` unless the exponent is the least one.
-/
structure Binary64 where
  negative : Bool
  mantissa : Nat
  exponent : Int
deriving DecidableEq, Repr

namespace Binary64

def leastExponent : Int := -1074

def greatestExponent : Int := 971

def zero (negative : Bool) : Binary64 := ⟨negative, 0, leastExponent⟩

/-- Two numbers are the same value if they are equal or both zero. -/
def sameValue (a b : Binary64) : Bool :=
  a == b || (a.mantissa == 0 && b.mantissa == 0)

/-- The quotient rounded to the nearest whole number, a half to the even neighbour. -/
def roundedQuotient (numerator denominator : Nat) : Nat :=
  let quotient := numerator / denominator
  let rest := 2 * (numerator % denominator)
  if rest < denominator then quotient
  else if denominator < rest then quotient + 1
  else if quotient % 2 = 0 then quotient
  else quotient + 1

/-- The fraction `numerator / (denominator * 2 ^ exponent)` as a pair of whole numbers. -/
def scaled (numerator denominator : Nat) (exponent : Int) : Nat × Nat :=
  if exponent < 0 then (numerator * Nat.pow 2 exponent.natAbs, denominator)
  else (numerator, denominator * Nat.pow 2 exponent.natAbs)

/-- The exponent for which the fraction has 53 binary digits before the point, if that is in
range. -/
def exponentFor (numerator denominator : Nat) : Int :=
  let estimate : Int := (numerator.log2 : Int) - (denominator.log2 : Int) - 52
  let (n, d) := scaled numerator denominator estimate
  let exact := if n < d * Nat.pow 2 52 then estimate - 1 else estimate
  max exact leastExponent

/-- The double nearest to a positive fraction; none if it lies beyond the largest one. -/
def ofFraction? (negative : Bool) (numerator denominator : Nat) : Option Binary64 :=
  let exponent := exponentFor numerator denominator
  let (n, d) := scaled numerator denominator exponent
  let mantissa := roundedQuotient n d
  let (mantissa, exponent) :=
    if mantissa = Nat.pow 2 53 then (Nat.pow 2 52, exponent + 1) else (mantissa, exponent)
  if greatestExponent < exponent then none else some ⟨negative, mantissa, exponent⟩

/-- The double nearest to `digits * 10 ^ power`; none if that lies beyond the largest one. -/
def ofDecimal? (negative : Bool) (digits : Nat) (power : Int) : Option Binary64 :=
  let places : Int := (Nat.toDigits 10 digits).length + power
  if digits = 0 ∨ places < -330 then some (zero negative)
  else if 310 < places then none
  else if power < 0 then ofFraction? negative digits (Nat.pow 10 power.natAbs)
  else ofFraction? negative (digits * Nat.pow 10 power.natAbs) 1

end Binary64

end Decimal
end StencilDesk
