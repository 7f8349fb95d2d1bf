import FleetStore.Category
import FleetStore.Statement.Kind
import FleetStore.Value.Document

/-! # Conditions

An expression is a filter over the keys of a category in which every value is
known. It is built from comparisons and memberships with `NOT`, `AND` and `OR`.
-/

namespace FleetStore

inductive Expression where
  | compare (key : Key) (op : Comparison) (value : Value)
  /-- The field is one of the items of a list value. -/
  | member (key : Key) (values : Value)
  | not (e : Expression)
  | and (l r : Expression)
  | or (l r : Expression)

namespace Expression

/-- The text of a condition. `AND` and `OR` are always put in parentheses. -/
def text : Expression → String
  | .compare key op value => s!"'{key.name}' {op.symbol} {value.text}"
  | .member key values => s!"'{key.name}' IN {values.text}"
  | .not e => s!"NOT {e.text}"
  | .and l r => s!"({l.text} AND {r.text})"
  | .or l r => s!"({l.text} OR {r.text})"

/-- Equality of conditions: the same form with equal keys, operators and values. -/
def same : Expression → Expression → Bool
  | .compare k o v, .compare k' o' v' => k == k' && o == o' && v == v'
  | .member k v, .member k' v' => k == k' && v == v'
  | .not e, .not e' => same e e'
  | .and l r, .and l' r' => same l l' && same r r'
  | .or l r, .or l' r' => same l l' && same r r'
  | _, _ => false

instance : BEq Expression := ⟨same⟩

end Expression

end FleetStore
