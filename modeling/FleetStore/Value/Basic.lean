import FleetStore.Json.Basic
import FleetStore.Value.Type

/-! # Values

A value carries its type: the scalars of a type form its carrier, and a value
is one element of a carrier or a list of them. Equality is that of the
carriers, so NaN differs from itself.
-/

namespace FleetStore

/-- The scalars of a type. -/
abbrev ScalarType.Carrier : ScalarType → Type
  | .string => String
  | .int => Int32
  | .long => Int64
  | .double => Double
  | .boolean => Bool
  | .pojo => Json

def ScalarType.same : (t : ScalarType) → t.Carrier → t.Carrier → Bool
  | .string, a, b => decide (a = b)
  | .int, a, b => decide (a = b)
  | .long, a, b => decide (a = b)
  | .double, a, b => a == b
  | .boolean, a, b => decide (a = b)
  | .pojo, a, b => a == b

def ScalarType.isFinite : (t : ScalarType) → t.Carrier → Bool
  | .double, x => Double.isFinite x
  | _, _ => true

/-- A typed value, bound to a parameter or stored under a key. -/
inductive Value where
  | scalar (t : ScalarType) (x : t.Carrier)
  | list (t : ScalarType) (xs : List t.Carrier)

namespace Value

instance : Inhabited Value := ⟨.scalar .boolean false⟩

def string (s : String) : Value := .scalar .string s
def int (n : Int32) : Value := .scalar .int n
def long (n : Int64) : Value := .scalar .long n
def double (x : Double) : Value := .scalar .double x
def boolean (b : Bool) : Value := .scalar .boolean b

def type : Value → ValueType
  | .scalar t _ => .scalar t
  | .list t _ => .list t

/-- `false` for a NaN or an infinite double, or a list that holds one. -/
def isFinite : Value → Bool
  | .scalar t x => t.isFinite x
  | .list t xs => xs.all t.isFinite

def sameItems (t : ScalarType) : List t.Carrier → List t.Carrier → Bool
  | [], [] => true
  | a :: as, b :: bs => t.same a b && sameItems t as bs
  | _, _ => false

/-- Equality of values: they have one type and equal scalars. -/
def same : Value → Value → Bool
  | .scalar t x, .scalar u y => if h : t = u then u.same (h ▸ x) y else false
  | .list t xs, .list u ys => if h : t = u then sameItems u (h ▸ xs) ys else false
  | _, _ => false

instance : BEq Value := ⟨same⟩

end Value

end FleetStore
