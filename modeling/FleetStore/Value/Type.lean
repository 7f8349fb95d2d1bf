/-! # Value types

A value is a scalar of one of six types or a list of such scalars. Each scalar
type has a word for configurations and a letter for parameters in statements;
a list is marked by `[]` after the word and by `[` after the letter.
-/

namespace FleetStore

/-- The types of single values. -/
inductive ScalarType where
  | string
  | int
  | long
  | double
  | boolean
  /-- Any document. -/
  | pojo
deriving DecidableEq, Repr

/-- The type of a key, a parameter or a value. -/
inductive ValueType where
  | scalar (t : ScalarType)
  | list (t : ScalarType)
deriving DecidableEq, Repr

namespace ScalarType

def all : List ScalarType :=
  [.string, .int, .long, .double, .boolean, .pojo]

def name : ScalarType → String
  | .string => "string"
  | .int => "int"
  | .long => "long"
  | .double => "double"
  | .boolean => "boolean"
  | .pojo => "pojo"

def letter : ScalarType → Char
  | .string => 's'
  | .int => 'i'
  | .long => 'l'
  | .double => 'd'
  | .boolean => 'b'
  | .pojo => 'p'

def ofLetter? (c : Char) : Option ScalarType :=
  all.find? fun t => t.letter = c

end ScalarType

namespace ValueType

def all : List ValueType :=
  ScalarType.all.map .scalar ++ ScalarType.all.map .list

def name : ValueType → String
  | .scalar t => t.name
  | .list t => t.name ++ "[]"

/-- The type with a name; case matters. -/
def ofName? (text : String) : Option ValueType :=
  all.find? fun t => t.name = text

/-- The type of lists of a scalar type; there are no lists of lists. -/
def listOf? : ValueType → Option ValueType
  | .scalar t => some (.list t)
  | .list _ => none

def isList : ValueType → Bool
  | .scalar _ => false
  | .list _ => true

/-- Whether `<`, `<=`, `>` and `>=` are meaningful for values of this type. -/
def isOrdered : ValueType → Bool
  | .scalar .string | .scalar .int | .scalar .long | .scalar .double => true
  | _ => false

@[simp] theorem ofName?_name (t : ValueType) : ofName? t.name = some t := by
  rcases t with t | t <;> cases t <;> decide

end ValueType

end FleetStore
