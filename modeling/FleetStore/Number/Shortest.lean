import FleetStore.Number.Rounding

/-! # The shortest text of a double

A finite double is written with the fewest digits that read back as the same
double, and of several such numbers with the nearest. The doubles around a
number leave it an interval of numbers that round to it; the search goes
through the grids of one, two, … digits and tests the two grid points around
the number.
-/

namespace FleetStore.FiniteDouble

/-- A number written as a significand of decimal digits and a power of ten. -/
structure Decimal where
  digits : Nat
  exponent : Int
deriving DecidableEq, Repr

/-- The numerator of the magnitude as a quotient of naturals. -/
def numerator (x : FiniteDouble) : Nat :=
  x.significand * twoTo (x.shift - 1074)

/-- The denominator of the magnitude as a quotient of naturals. -/
def denominator (x : FiniteDouble) : Nat :=
  twoTo (1074 - x.shift)

/-- The power of ten of the first digit of `num / den`. -/
def leadingExponent (num den : Nat) : Int :=
  if den ≤ num then digitCount (num / den) - 1 else -(digitCount ((den - 1) / num) : Int)

/-- Whether a decimal rounds to `x`: it lies between the midpoints to the
neighbouring doubles, and on a midpoint only if the significand of `x` is even.
The neighbour below is nearer where the significand is the least of its shift.
All sides are counted in quarters of the last place. -/
def readsBack (x : FiniteDouble) (d : Decimal) : Bool :=
  let unit := twoTo (x.shift - 1074) * tenTo (-d.exponent).toNat
  let below := if x.significand = twoTo 52 ∧ x.shift ≠ 0 then 1 else 2
  let least := (4 * x.significand - below) * unit
  let greatest := (4 * x.significand + 2) * unit
  let point := 4 * x.denominator * d.digits * tenTo d.exponent.toNat
  if x.significand % 2 = 0 then least ≤ point && point ≤ greatest
  else least < point && point < greatest

/-- How far a decimal is from the magnitude of `x`, up to a factor that is the
same for all decimals of one exponent. -/
def distance (x : FiniteDouble) (d : Decimal) : Nat :=
  let value := x.numerator * tenTo (-d.exponent).toNat
  let point := x.denominator * d.digits * tenTo d.exponent.toNat
  (value - point) + (point - value)

/-- The better of the two grid points around `x` that have `count` digits, if
one of them reads back; at equal distance, the even one. -/
def nearestWith (x : FiniteDouble) (count : Nat) : Option Decimal :=
  let exponent := leadingExponent x.numerator x.denominator - count + 1
  let floor := x.numerator * tenTo (-exponent).toNat / (x.denominator * tenTo exponent.toNat)
  let low : Decimal := ⟨floor, exponent⟩
  let high : Decimal := ⟨floor + 1, exponent⟩
  match x.readsBack low, x.readsBack high with
  | true, true =>
      if x.distance low < x.distance high then some low
      else if x.distance high < x.distance low then some high
      else if floor % 2 = 0 then some low
      else some high
  | true, false => some low
  | false, true => some high
  | false, false => none

/-- The shortest decimal that reads back as the magnitude of `x`; seventeen
digits are always enough. -/
def shortest (x : FiniteDouble) : Decimal :=
  ((List.range' 1 17).findSome? x.nearestWith).getD ⟨x.numerator, 0⟩

/-- How the digits of a double are laid out. Numbers whose first digit stands at
a power of ten between the bounds are written with a point, all others with an
exponent that always has a sign. -/
structure Layout where
  leastPositional : Int
  greatestPositional : Int
  exponentMark : Char

def Layout.document : Layout := ⟨-5, 15, 'e'⟩

def zeros (count : Nat) : String :=
  String.ofList (List.replicate count '0')

/-- Lays out digits, the first of which stands at the power `leading` of ten. -/
def Layout.write (layout : Layout) (digits : List Char) (leading : Int) : String :=
  if layout.leastPositional ≤ leading ∧ leading ≤ layout.greatestPositional then
    if leading < 0 then "0." ++ zeros (-leading - 1).toNat ++ String.ofList digits
    else
      let whole := leading.toNat + 1
      let fraction := digits.drop whole
      String.ofList (digits.take whole) ++ zeros (whole - digits.length) ++ "."
        ++ (if fraction.isEmpty then "0" else String.ofList fraction)
  else
    let fraction := digits.drop 1
    String.ofList (digits.take 1)
      ++ (if fraction.isEmpty then "" else "." ++ String.ofList fraction)
      ++ String.singleton layout.exponentMark ++ (if leading < 0 then "-" else "+")
      ++ toString leading.natAbs

def dropTrailingZeros (digits : List Char) : List Char :=
  (digits.reverse.dropWhile (· == '0')).reverse

/-- The text of a finite double: the shortest digits, always with a point or an
exponent, so that it is never taken for an integer. -/
def text (x : FiniteDouble) : String :=
  let sign := if x.negative then "-" else ""
  if x.significand = 0 then sign ++ "0.0"
  else
    let d := x.shortest
    let digits := Nat.toDigits 10 d.digits
    sign ++ Layout.document.write (dropTrailingZeros digits) (d.exponent + digits.length - 1)

end FleetStore.FiniteDouble
