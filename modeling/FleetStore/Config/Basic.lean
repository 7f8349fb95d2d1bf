import FleetStore.Category
import FleetStore.Queue.Settings

/-! # Configurations

A configuration holds the settings of the queued store, declares categories
and lists statements, which can be checked or run one after another.
-/

namespace FleetStore.Config

/-- A category as it is written in a configuration: index keys are given by name. -/
structure CategoryEntry where
  name : String
  keys : List Key
  indexKeys : List String
deriving DecidableEq, Repr

/-- A statement of a configuration, with a document for each free parameter. -/
structure StatementEntry where
  category : String
  descriptor : String
  params : List Json
deriving Repr

namespace CategoryEntry

/-- The keys with the given names, or the first name that no key has. -/
def resolveIndex (e : CategoryEntry) : List String → Except CategoryFault (List Key)
  | [] => .ok []
  | name :: rest =>
      match e.keys.find? fun k => k.name = name with
      | none => .error (.strayIndexKey e.name name)
      | some key => (resolveIndex e rest).map (key :: ·)

def declare (e : CategoryEntry) : Except CategoryFault Category := do
  let index ← e.resolveIndex e.indexKeys
  Category.declare e.name e.keys index

def keyJson (k : Key) : Json :=
  .obj [("name", .str k.name), ("type", .str k.type.name)]

def toJson (e : CategoryEntry) : Json :=
  .obj [
    ("name", .str e.name), ("keys", .arr (e.keys.map keyJson)),
    ("index_keys", .arr (e.indexKeys.map .str))]

end CategoryEntry

def StatementEntry.toJson (e : StatementEntry) : Json :=
  .obj [("category", .str e.category), ("descriptor", .str e.descriptor), ("params", .arr e.params)]

end FleetStore.Config

namespace FleetStore

structure Config where
  storage : Settings
  categories : List Config.CategoryEntry
  statements : List Config.StatementEntry
deriving Repr

namespace Config

def category? (c : Config) (name : String) : Option CategoryEntry :=
  c.categories.find? fun e => e.name = name

/-- The document of a configuration, with everything written out. -/
def toJson (c : Config) : Json :=
  .obj [
    ("storage", c.storage.toJson),
    ("categories", .arr (c.categories.map CategoryEntry.toJson)),
    ("statements", .arr (c.statements.map StatementEntry.toJson))]

end Config

end FleetStore
