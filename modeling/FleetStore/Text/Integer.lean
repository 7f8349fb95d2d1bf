import FleetStore.Number.Power

/-! # Decimal integers

A whole number is written as an optional sign and decimal digits. The readers
return an unbounded number; a field of fixed width asks in a second step
whether the number fits, so that no number is ever wrapped.
-/

namespace FleetStore.Text

/-- The value of a run of decimal digits that continues the number `start`. -/
def valueOfDigits (start : Nat) (digits : List Char) : Nat :=
  digits.foldl (fun n c => 10 * n + (c.toNat - '0'.toNat)) start

/-- Reads a number from a word that holds decimal digits only, and at least one. -/
def readNat? (digits : List Char) : Option Nat :=
  if digits.isEmpty || !digits.all Char.isDigit then none else some (valueOfDigits 0 digits)

/-- Reads an optional sign followed by decimal digits. -/
def readInt? : List Char → Option Int
  | '+' :: digits => (readNat? digits).map Int.ofNat
  | '-' :: digits => (readNat? digits).map fun n => -(n : Int)
  | digits => (readNat? digits).map Int.ofNat

/-- The 32-bit integer of the same value, if the number is in range. -/
def int32? (n : Int) : Option Int32 :=
  if FitsSigned 31 n then some (Int32.ofInt n) else none

/-- The 64-bit integer of the same value, if the number is in range. -/
def int64? (n : Int) : Option Int64 :=
  if FitsSigned 63 n then some (Int64.ofInt n) else none

/-- A number in range keeps its value. -/
theorem toInt_of_int32? {n : Int} {k : Int32} (h : int32? n = some k) : k.toInt = n := by
  unfold int32? at h
  split at h
  · next inside =>
      cases h
      exact Int32.toInt_ofInt_of_le inside.1 inside.2
  · cases h

/-- A number in range keeps its value. -/
theorem toInt_of_int64? {n : Int} {k : Int64} (h : int64? n = some k) : k.toInt = n := by
  unfold int64? at h
  split at h
  · next inside =>
      cases h
      exact Int64.toInt_ofInt_of_le inside.1 inside.2
  · cases h

/-- Every 32-bit integer is found again from its value. -/
@[simp] theorem int32?_toInt (k : Int32) : int32? k.toInt = some k := by
  rw [int32?, if_pos ⟨k.le_toInt, k.toInt_lt⟩, Int32.ofInt_toInt]

/-- Every 64-bit integer is found again from its value. -/
@[simp] theorem int64?_toInt (k : Int64) : int64? k.toInt = some k := by
  rw [int64?, if_pos ⟨k.le_toInt, k.toInt_lt⟩, Int64.ofInt_toInt]

end FleetStore.Text
