import FleetStore.Value.Type

/-! # Illegal patches

The reasons for which parameters do not fit the signature of a statement.
-/

namespace FleetStore

/-- Why parameters cannot be patched into a statement. -/
inductive PatchError where
  | parameterCount (expected actual : Nat)
  | indexOutOfRange (index count : Nat)
  | typeMismatch (index : Nat) (expected actual : ValueType)
  | unbound (index : Nat)
  | duplicate (index : Nat)
  | nonFiniteDouble (index : Nat)
  | invalidLimit (limit : Int)
deriving DecidableEq, Repr

def PatchError.message : PatchError → String
  | .parameterCount expected actual => s!"expected {expected} parameters, got {actual}"
  | .indexOutOfRange index count =>
      s!"parameter index {index} out of range (statement takes {count})"
  | .typeMismatch index expected actual =>
      s!"parameter {index}: expected {expected.name}, got {actual.name}"
  | .unbound index => s!"parameter {index} is not bound"
  | .duplicate index => s!"parameter {index} supplied more than once"
  | .nonFiniteDouble index => s!"parameter {index}: double must be finite"
  | .invalidLimit limit => s!"limit must be positive, got {limit}"

end FleetStore
