import FleetStore.Category
import FleetStore.Statement.Kind
import FleetStore.Value.Basic

/-! # Compiled statements

A descriptor compiles to a statement in which every place for a value holds
either a literal or the index of a free parameter. Parameters are numbered in
the order of the text, and the signature lists their types.
-/

namespace FleetStore.Descriptor

/-- The right-hand side of an assignment or a comparison. -/
inductive Term where
  | parameter (index : Nat)
  | literal (value : Value)

/-- A condition with terms in place of values. -/
inductive Condition where
  | compare (key : Key) (op : Comparison) (term : Term)
  | member (key : Key) (term : Term)
  | not (e : Condition)
  | and (l r : Condition)
  | or (l r : Condition)

/-- The greatest number of rows of a query. -/
inductive Limit where
  | fixed (count : Nat)
  | parameter (index : Nat)

/-- A descriptor that passed every check against its category. -/
structure Compiled where
  descriptor : String
  category : String
  kind : StatementKind
  signature : List ValueType
  assignments : List (Key × Term)
  condition : Option Condition
  sort : List (Key × SortDirection)
  limit : Option Limit

end FleetStore.Descriptor
