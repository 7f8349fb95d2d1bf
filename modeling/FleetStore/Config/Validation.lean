import FleetStore.Config.Decode
import FleetStore.Config.Environment
import FleetStore.Descriptor.Grammar
import FleetStore.Value.Document

/-! # Validating configurations

A configuration is valid if the store can be set up from it: its name is a
word, it waits for its workers, its categories can be declared under different
names, and each statement names one of them. Whether the statements compile
and take their parameters is checked statement by statement.
-/

namespace FleetStore

namespace Config

/-- What is wrong with a configuration. -/
inductive Fault where
  | badName (name : String)
  | noWriteTimeout
  | noFileTimeout
  | repeatedCategory (name : String)
  | category (fault : CategoryFault)
  | strayStatement (descriptor category : String)
  | undeclared (category : String)
  | descriptor (e : Descriptor.Error)
  | parameterCount (descriptor : String) (expected given : Nat)
  | parameterType (descriptor : String) (index : Nat) (type : ValueType)

def Fault.message : Fault → String
  | .badName name => s!"storage name must be a non-empty word, got '{name}'"
  | .noWriteTimeout => "storage queue_drain_timeout must be non-zero"
  | .noFileTimeout => "storage file_drain_timeout must be non-zero"
  | .repeatedCategory name => s!"duplicate category name: '{name}'"
  | .category fault => s!"invalid category: {fault.message}"
  | .strayStatement text name => s!"statement '{text}' references undeclared category '{name}'"
  | .undeclared name => s!"undeclared category '{name}'"
  | .descriptor e => e.message
  | .parameterCount text expected given =>
      s!"statement '{text}' takes {expected} parameters, {given} given"
  | .parameterType text index type =>
      s!"statement '{text}': parameter {index} is not a valid {type.name}"

/-- Checks that the categories have different names and can be declared. -/
def validateCategories (seen : List String) : List CategoryEntry → Except Fault Unit
  | [] => .ok ()
  | e :: rest =>
      if e.name ∈ seen then .error (.repeatedCategory e.name)
      else
        match e.declare with
        | .error fault => .error (.category fault)
        | .ok _ => validateCategories (e.name :: seen) rest

/-- Checks that the statements belong to categories that are declared. -/
def validateStatements (c : Config) : List StatementEntry → Except Fault Unit
  | [] => .ok ()
  | s :: rest =>
      if (c.category? s.category).isNone then .error (.strayStatement s.descriptor s.category)
      else validateStatements c rest

/-- Checks that a store can be set up from a configuration. -/
def validate (c : Config) : Except Fault Unit :=
  if !Text.isWord c.storage.name then .error (.badName c.storage.name)
  else if c.storage.writeTimeout.isZero then .error .noWriteTimeout
  else if c.storage.fileTimeout.isZero then .error .noFileTimeout
  else do
    validateCategories [] c.categories
    c.validateStatements c.statements

namespace StatementEntry

/-- The values of documents from the parameter `index` on. -/
def valuesFrom (s : StatementEntry) (env : Environment) (index : Nat) :
    List ValueType → List Json → Except Fault (List Value)
  | type :: types, param :: params =>
      match Value.ofJson? type (env.expandStrings param) with
      | none => .error (.parameterType s.descriptor index type)
      | some value => (valuesFrom s env (index + 1) types params).map (value :: ·)
  | _, _ => .ok []

/-- The values of the parameters, one for each type of a signature. -/
def values (s : StatementEntry) (env : Environment) (signature : List ValueType) :
    Except Fault (List Value) :=
  if s.params.length ≠ signature.length then
    .error (.parameterCount s.descriptor signature.length s.params.length)
  else s.valuesFrom env 0 signature s.params

end StatementEntry

/-- The variables that the parameters of all statements refer to. -/
def references (c : Config) : List String :=
  c.statements.flatMap fun s => s.params.flatMap Json.references

def checkStatement (c : Config) (env : Environment) (s : StatementEntry) :
    Except Fault Descriptor.Compiled := do
  match c.category? s.category with
  | none => .error (.undeclared s.category)
  | some e =>
      let category ← e.declare.mapError .category
      let compiled ← (Descriptor.compile category s.descriptor).mapError .descriptor
      let _ ← s.values env compiled.signature
      return compiled

def check (c : Config) (env : Environment) : List (Except Fault Descriptor.Compiled) :=
  c.statements.map (c.checkStatement env)

end Config

/-- Why a configuration cannot be used. -/
inductive ConfigError where
  /-- The file cannot be read. -/
  | unreadable
  /-- The text holds no configuration. -/
  | unread (fault : Config.TreeFault)
  | invalid (fault : Config.Fault)

def ConfigError.message : ConfigError → String
  | .unreadable => "failed to read config file"
  | .unread .malformed => "failed to parse config"
  | .unread .exhausted => DurationFault.exhausted.message
  | .invalid fault => s!"config validation error: {fault.message}"

end FleetStore
