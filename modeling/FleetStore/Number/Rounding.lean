import FleetStore.Number.Double

/-! # Rounding to a double

Every number that enters the library as digits or as an integer becomes the
double nearest to it, and of two equally near ones the one with the even
significand. All of it is exact arithmetic on naturals: a number is a quotient
of two naturals, counted in units of 2⁻¹⁰⁷⁴.
-/

namespace FleetStore

/-- The natural nearest to a quotient; halfway between two, the even one. -/
def roundDiv (num den : Nat) : Nat :=
  let floor := num / den
  let rest := num % den
  if 2 * rest < den then floor
  else if den < 2 * rest then floor + 1
  else if floor % 2 = 0 then floor
  else floor + 1

def digitCount (n : Nat) : Nat :=
  (Nat.toDigits 10 n).length

namespace Double

/-- The double nearest to `num / den` units of 2⁻¹⁰⁷⁴, with a sign. A number
that rounds beyond the largest finite double is infinite. -/
def ofUnits (negative : Bool) (num den : Nat) : Double :=
  let floor := num / den
  let shift := if floor < twoTo 53 then 0 else floor.log2 - 52
  let significand := roundDiv num (den * twoTo shift)
  let carried := significand = twoTo 53
  let significand := if carried then twoTo 52 else significand
  let shift := if carried then shift + 1 else shift
  if h : Representable significand shift then .finite ⟨negative, significand, shift, h⟩
  else .infinite negative

/-- The double nearest to `digits` scaled by a power of ten, with a sign. The first two
tests answer for numbers so large or so small that writing them out would be
a waste. -/
def ofDecimal (negative : Bool) (digits : Nat) (exponent : Int) : Double :=
  if digits = 0 then .finite (.zero negative)
  else if digitCount digits + exponent > 310 then .infinite negative
  else if digitCount digits + exponent < -325 then .finite (.zero negative)
  else
    ofUnits negative (digits * tenTo exponent.toNat * twoTo 1074) (tenTo (-exponent).toNat)

def ofInt (n : Int) : Double :=
  ofUnits (n < 0) (n.natAbs * twoTo 1074) 1

end Double

end FleetStore
