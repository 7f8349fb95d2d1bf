import FleetStore.Json.Writer
import FleetStore.Text.Integer
import FleetStore.Value.Basic

/-! # Values as documents

Records hold documents. Each scalar type says how its scalars become documents
and which documents it takes back: integers are taken only in their range and
never cut off, and a pojo only as an object.
-/

namespace FleetStore

def ScalarType.encode : (t : ScalarType) → t.Carrier → Json
  | .string, s => .str s
  | .int, n => .int (Int32.toInt n)
  | .long, n => .int (Int64.toInt n)
  | .double, x => .ofDouble x
  | .boolean, b => .bool b
  | .pojo, j => j

/-- The scalar that a document stands for, if it fits the type. -/
def ScalarType.decode? : (t : ScalarType) → Json → Option t.Carrier
  | .string, j => j.str?
  | .int, j => j.int64?.bind Text.int32?
  | .long, j => j.int64?.bind Text.int64?
  | .double, j => j.double?
  | .boolean, j => j.bool?
  | .pojo, j =>
      match j with
      | .obj _ => some j
      | _ => none

namespace Value

/-- The document of a value, as it is stored in a record. -/
def toJson : Value → Json
  | .scalar t x => t.encode x
  | .list t xs => .arr (xs.map t.encode)

/-- The value of a type that a document stands for, if it fits. -/
def ofJson? (type : ValueType) (j : Json) : Option Value :=
  match type with
  | .scalar t => (t.decode? j).map (.scalar t)
  | .list t => j.arr?.bind fun items => (items.mapM t.decode?).map (.list t)

/-- The text of a value: a string between single quotes, all else as a compact
document. -/
def text : Value → String
  | .scalar .string s => "'" ++ s ++ "'"
  | v => v.toJson.compact

end Value

end FleetStore
