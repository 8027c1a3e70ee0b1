import Conformance.Number.Rounding
/-!
# Non-negative doubles

A non-negative binary64 number is a significand times a power of two. Everything here is exact
integer arithmetic: an operation forms the exact quotient of its result and `Binary64.ofRatio`
rounds it once, to nearest with ties to even. The significand of a normal number fills 53 bits; the
exponent never goes below `-1074`, where numbers lose precision gradually. Rounding does not stop
at the largest double: a result with too large an exponent `overflows`, and the caller decides what
that means.
-/

namespace Conformance

/-- The number `significand * 2 ^ exponent`. -/
structure Binary64 where
  /-- The integer significand, below `2 ^ 53`. -/
  significand : Nat
  /-- The exponent of the significand's last bit. -/
  exponent : Int
  deriving DecidableEq, Repr

namespace Binary64

/-- The least exponent: the last bit of the smallest positive double. -/
def minExponent : Int := -1074

/-- The greatest exponent of a finite double. -/
def maxExponent : Int := 971

def zero : Binary64 := ⟨0, minExponent⟩

/-- The weight of the first bit in the significand of a normal number. -/
def leadingBit : Nat := 0x10000000000000

/-- Numerator of the exact value. -/
def num (x : Binary64) : Nat := x.significand * Nat.pow 2 x.exponent.toNat

/-- Denominator of the exact value. -/
def den (x : Binary64) : Nat := Nat.pow 2 (-x.exponent).toNat

theorem den_pos (x : Binary64) : 0 < x.den := Nat.two_pow_pos _

/-- The quotient `num / den` rounded to a multiple of `2 ^ e`, in units of `2 ^ e`. -/
def unitsAt (e : Int) (num den : Nat) : Nat :=
  roundDiv (num * Nat.pow 2 (-e).toNat) (den * Nat.pow 2 e.toNat)

/-- The exponent at which a positive quotient has 53 bits before its point. -/
def exponentOf (num den : Nat) : Int :=
  let e : Int := (Nat.log2 num : Int) - Nat.log2 den - 52
  if num * Nat.pow 2 (-e).toNat < den * Nat.pow 2 e.toNat * leadingBit then e - 1 else e

/-- The double nearest to `num / den`. -/
def ofRatio (num den : Nat) : Binary64 :=
  if num = 0 then zero
  else
    let e := max (exponentOf num den) minExponent
    let units := unitsAt e num den
    if units = 2 * leadingBit then ⟨leadingBit, e + 1⟩ else ⟨units, e⟩

def ofNat (n : Nat) : Binary64 := ofRatio n 1

/-- The rounded quotient of two doubles, the second not zero. -/
def div (x y : Binary64) : Binary64 := ofRatio (x.num * y.den) (x.den * y.num)

/-- The rounded product of two doubles. -/
def mul (x y : Binary64) : Binary64 := ofRatio (x.num * y.num) (x.den * y.den)

/-- Whether the number lies past the largest finite double. -/
def overflows (x : Binary64) : Bool := maxExponent < x.exponent

/-- Whether the number is at least the natural number `n`. -/
def atLeast (x : Binary64) (n : Nat) : Bool := n * x.den ≤ x.num

/-- The number in hundredths, rounded half to even from its exact value. -/
def hundredths (x : Binary64) : Nat := roundDiv (x.num * 100) x.den

/-- The interchange encoding of a finite number: biased exponent, then the fraction bits. -/
def bits (x : Binary64) : Nat :=
  if x.significand < leadingBit then x.significand
  else (x.exponent - minExponent + 1).toNat * leadingBit + (x.significand - leadingBit)

end Binary64

end Conformance
