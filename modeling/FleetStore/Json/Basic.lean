import FleetStore.Dict
import FleetStore.Number.Rounding

/-! # Documents

A document is a JSON value. Integers and floating point numbers are kept
apart: `1` and `1.0` are different documents, while the two zeros `0.0` and
`-0.0` are equal ones. An object lists its members in the order of their names.
-/

namespace FleetStore

inductive Json where
  | null
  | bool (b : Bool)
  | int (n : Int)
  | float (x : FiniteDouble)
  | str (s : String)
  | arr (items : List Json)
  | obj (members : List (String × Json))
deriving Repr, Inhabited

namespace Json

mutual
/-- Equality of documents. -/
def same : Json → Json → Bool
  | .null, .null => true
  | .bool a, .bool b => a == b
  | .int a, .int b => a == b
  | .float a, .float b => a == b
  | .str a, .str b => a == b
  | .arr a, .arr b => sameItems a b
  | .obj a, .obj b => sameMembers a b
  | _, _ => false

def sameItems : List Json → List Json → Bool
  | [], [] => true
  | a :: as, b :: bs => same a b && sameItems as bs
  | _, _ => false

def sameMembers : List (String × Json) → List (String × Json) → Bool
  | [], [] => true
  | (j, a) :: as, (k, b) :: bs => j == k && same a b && sameMembers as bs
  | _, _ => false
end

instance : BEq Json := ⟨same⟩

def ofDict (d : Dict Json) : Json :=
  .obj d.entries

def bool? : Json → Option Bool
  | .bool b => some b
  | _ => none

def str? : Json → Option String
  | .str s => some s
  | _ => none

def arr? : Json → Option (List Json)
  | .arr items => some items
  | _ => none

/-- The value of an integer that fits into 64 bits with a sign. -/
def int64? : Json → Option Int
  | .int n => if FitsSigned 63 n then some n else none
  | _ => none

/-- The value of a number as a double; an integer becomes the nearest one. -/
def double? : Json → Option Double
  | .int n => some (.ofInt n)
  | .float x => some (.finite x)
  | _ => none

/-- The document of a double: numbers that are not finite become `null`. -/
def ofDouble : Double → Json
  | .finite x => .float x
  | _ => .null

def member? (name : String) : Json → Option Json
  | .obj members => Dict.find name members
  | _ => none

end Json

end FleetStore
