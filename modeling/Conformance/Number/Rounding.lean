/-!
# Rounding a quotient

The nearest integer to an exact quotient of natural numbers, a tie going to the even neighbour. This
is the one rounding rule of the library: binary significands and printed hundredths both use it.
-/

namespace Conformance

/-- The integer nearest to `num / den`, a tie going to the even neighbour. -/
def roundDiv (num den : Nat) : Nat :=
  let q := num / den
  let r := num % den
  if 2 * r < den then q
  else if den < 2 * r then q + 1
  else q + q % 2

end Conformance
