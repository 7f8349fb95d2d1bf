import FleetStore.Text.Blank
import FleetStore.Value.Type

/-! # Categories

A category names a collection of records and lists the typed keys that its
records may have. Some of the keys may be marked as index keys, which form the
identity of a record. The checks on a declaration are made once, by `declare`.
-/

namespace FleetStore

/-- A named, typed field of a category. Keys are equal if both name and type are. -/
structure Key where
  name : String
  type : ValueType
deriving DecidableEq, Repr

namespace Key

/-- The agent that produced a record. -/
def agentId : Key := ⟨"agentId", .scalar .string⟩

/-- The virtual machine that a record belongs to. -/
def vmId : Key := ⟨"vmId", .scalar .string⟩

/-- The time of a sample, in milliseconds since the epoch. -/
def timeStamp : Key := ⟨"timeStamp", .scalar .long⟩

def text (k : Key) : String :=
  k.name ++ ": " ++ k.type.name

end Key

/-- A named collection of records and the keys they may have. -/
structure Category where
  name : String
  keys : List Key
  indexKeys : List Key
deriving DecidableEq, Repr

/-- What is wrong with a declaration or a registration of a category. -/
inductive CategoryFault where
  | emptyName
  | badName (name : String)
  | repeatedKey (category : String) (key : String)
  | strayIndexKey (category : String) (key : String)
  | registeredDifferently (category : String)
deriving DecidableEq, Repr

def CategoryFault.message : CategoryFault → String
  | .emptyName => "category name is empty"
  | .badName name => s!"category name '{name}' contains whitespace or quotes"
  | .repeatedKey category key => s!"category '{category}' declares key '{key}' twice"
  | .strayIndexKey category key => s!"index key '{key}' is not a key of category '{category}'"
  | .registeredDifferently category =>
      s!"category '{category}' is already registered with different keys"

namespace Category

/-- A character that no category name may contain. -/
def isRefused (c : Char) : Bool :=
  Text.isBlank c || c == '\''

/-- The first name that is listed a second time. -/
def repeatedName? (seen : List String) : List Key → Option String
  | [] => none
  | k :: rest => if k.name ∈ seen then some k.name else repeatedName? (k.name :: seen) rest

/-- Checks a declaration: the name is one word without quotes, no two keys have
the same name, and every index key is one of the keys. -/
def declare (name : String) (keys indexKeys : List Key) : Except CategoryFault Category :=
  if name.toList.all Text.isBlank then .error .emptyName
  else if name.toList.any isRefused then .error (.badName name)
  else
    match repeatedName? [] keys with
    | some key => .error (.repeatedKey name key)
    | none =>
        match indexKeys.find? fun k => !keys.contains k with
        | some stray => .error (.strayIndexKey name stray.text)
        | none => .ok ⟨name, keys, indexKeys⟩

def key? (c : Category) (name : String) : Option Key :=
  c.keys.find? fun k => k.name == name

end Category

end FleetStore
