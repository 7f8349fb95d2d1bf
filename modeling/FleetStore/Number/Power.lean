/-! # Powers and widths

Numbers are scaled by powers of two, which a double is made of, and by powers of
ten, which a written number is made of. A power of two also bounds the integers
of a fixed width, with and without a sign.
-/

namespace FleetStore

def twoTo (n : Nat) : Nat := Nat.pow 2 n

def tenTo (n : Nat) : Nat := Nat.pow 10 n

theorem twoTo_pos (n : Nat) : 0 < twoTo n := Nat.pow_pos (by decide)

/-- The integers that a sign and `bits` further bits can write. -/
def FitsSigned (bits : Nat) (n : Int) : Prop :=
  -(twoTo bits : Int) ≤ n ∧ n < (twoTo bits : Int)

/-- The integers that `bits` bits without a sign can write. -/
def FitsUnsigned (bits : Nat) (n : Int) : Prop :=
  0 ≤ n ∧ n < (twoTo bits : Int)

instance (bits : Nat) (n : Int) : Decidable (FitsSigned bits n) :=
  inferInstanceAs (Decidable (_ ∧ _))

instance (bits : Nat) (n : Int) : Decidable (FitsUnsigned bits n) :=
  inferInstanceAs (Decidable (_ ∧ _))

end FleetStore
