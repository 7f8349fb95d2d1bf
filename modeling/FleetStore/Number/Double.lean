import FleetStore.Number.Power

/-! # Double precision numbers

A finite double is a signed whole number of units of 2⁻¹⁰⁷⁴, the least positive
double. It is kept as a significand below 2⁵³ and a shift, so that comparing
two doubles is comparing two integers and needs no machine arithmetic. Zero
has two signs, which are written differently and compare as equal.
-/

namespace FleetStore

/-- What makes a significand and a shift the normal form of a double: a
significand below 2⁵² only without a shift, and a bound on the shift. -/
def Representable (significand shift : Nat) : Prop :=
  significand < twoTo 53 ∧ shift ≤ 2045 ∧ (shift = 0 ∨ twoTo 52 ≤ significand)

instance (significand shift : Nat) : Decidable (Representable significand shift) :=
  inferInstanceAs (Decidable (_ ∧ _ ∧ _))

/-- A double that is neither infinite nor NaN. -/
structure FiniteDouble where
  negative : Bool
  significand : Nat
  shift : Nat
  representable : Representable significand shift
deriving DecidableEq, Repr

namespace FiniteDouble

/-- The number without its sign, counted in units of 2⁻¹⁰⁷⁴. -/
def magnitude (x : FiniteDouble) : Nat :=
  x.significand * twoTo x.shift

def units (x : FiniteDouble) : Int :=
  if x.negative then -(x.magnitude : Int) else x.magnitude

def zero (negative : Bool) : FiniteDouble :=
  ⟨negative, 0, 0, by decide⟩

def order (x y : FiniteDouble) : Ordering :=
  compare x.units y.units

/-- Equality as numbers: the two zeros are equal. -/
instance : BEq FiniteDouble where
  beq x y := x.units == y.units

end FiniteDouble

inductive Double where
  | nan
  | infinite (negative : Bool)
  | finite (x : FiniteDouble)
deriving DecidableEq, Repr

namespace Double

def isFinite : Double → Bool
  | .finite _ => true
  | _ => false

/-- Equality as numbers: NaN differs from every number, itself included. -/
instance : BEq Double where
  beq
    | .infinite a, .infinite b => a == b
    | .finite x, .finite y => x == y
    | _, _ => false

end Double

end FleetStore
