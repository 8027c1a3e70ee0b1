import Conformance.Number.Binary64
/-!
# Decimal text of doubles

Reading: a decimal `digits * 10 ^ exponent` denotes the double nearest to it.

Writing: a double is written with the fewest significant digits that read back as the same double,
and of two such decimals with the nearer one. Where the point stands, and whether an exponent is
written, is for a `Decimal.Style` to say.
-/

namespace Conformance

/-- The decimal number `digits * 10 ^ exponent`. -/
structure Decimal where
  /-- The digits, read as one integer. -/
  digits : Nat
  /-- The power of ten that scales them. -/
  exponent : Int
  deriving DecidableEq, Repr

namespace Decimal

/-- The number of decimal digits of a natural number. -/
def width (n : Nat) : Nat := (Nat.toDigits 10 n).length

/-- The double nearest to a decimal. Magnitudes far beyond the range of doubles are settled by the
position of the leading digit alone, so that no enormous power of ten is formed. -/
def toBinary64 (d : Decimal) : Binary64 :=
  let lead : Int := width d.digits + d.exponent
  if d.digits = 0 ∨ lead < -400 then .zero
  else if 400 < lead then ⟨Binary64.leadingBit, Binary64.maxExponent + 1⟩
  else .ofRatio (d.digits * Nat.pow 10 d.exponent.toNat) (Nat.pow 10 (-d.exponent).toNat)

/-- The position of the decimal point of a positive double: the number lies in
`[10 ^ (p - 1), 10 ^ p)`. -/
def pointOf (x : Binary64) : Int :=
  if x.den ≤ x.num then width (x.num / x.den)
  else
    let d := width (x.den / x.num)
    if x.num * Nat.pow 10 (d - 1) = x.den then 2 - d else 1 - d

/-- The two decimals with `n` significant digits around a positive double, the nearer one first. -/
def around (x : Binary64) (n : Nat) : List Decimal :=
  let k := pointOf x - n
  let num := x.num * Nat.pow 10 (-k).toNat
  let den := x.den * Nat.pow 10 k.toNat
  let below : Decimal := ⟨num / den, k⟩
  let above : Decimal := ⟨num / den + 1, k⟩
  if roundDiv num den = num / den then [below, above] else [above, below]

/-- The shortest decimal that reads back as a given positive double: up to 17 digits are tried, and
17 always suffice. -/
def shortest (x : Binary64) : Decimal :=
  let tries := (List.range 17).flatMap fun n ↦ around x (n + 1)
  (tries.find? fun d ↦ d.toBinary64 = x).getD ⟨0, 0⟩

/-! ## Layout -/

/-- How the digits of a number are laid out. -/
structure Style where
  /-- Numbers whose point lies at this position or below are written with an exponent. -/
  lowest : Option Int
  /-- Numbers whose point lies beyond this position are written with an exponent. -/
  highest : Option Int

/-- Whether a style writes a number with its point at `p` without an exponent. -/
def Style.isPositional (style : Style) (p : Int) : Bool :=
  style.lowest.all (· < p) && style.highest.all (p ≤ ·)

/-- The significant digits of a decimal, without trailing zeros. -/
def significant (d : Decimal) : List Char :=
  ((Nat.toDigits 10 d.digits).reverse.dropWhile (· == '0')).reverse

/-- Digits with the point at position `p` and at least one digit on either side of it. -/
def positional (ds : List Char) (p : Int) : List Char :=
  if p ≤ 0 then ['0', '.'] ++ List.replicate (-p).toNat '0' ++ ds
  else
    let whole := ds.take p.toNat ++ List.replicate (p.toNat - ds.length) '0'
    let frac := ds.drop p.toNat
    whole ++ ['.'] ++ if frac.isEmpty then ['0'] else frac

/-- Digits in scientific notation, the exponent with its sign. -/
def scientific (ds : List Char) (p : Int) : List Char :=
  let e := p - 1
  ds.take 1 ++ (if ds.length ≤ 1 then [] else '.' :: ds.drop 1) ++ ['e'] ++
    [if e < 0 then '-' else '+'] ++ Nat.toDigits 10 e.natAbs

/-- The text of a non-negative double. -/
def text (style : Style) (x : Binary64) : List Char :=
  if x.significand = 0 then ['0', '.', '0']
  else
    let d := shortest x
    let p : Int := width d.digits + d.exponent
    if style.isPositional p then positional (significant d) p else scientific (significant d) p

/-- Numbers from `1e-5` up to, not including, `1e16` are positional; others have an exponent. -/
def Style.compact : Style := ⟨some (-5), some 16⟩

/-- No number has an exponent. -/
def Style.plain : Style := ⟨none, none⟩

end Decimal

end Conformance
