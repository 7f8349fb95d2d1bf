import FleetStore.Category
import FleetStore.Descriptor.Grammar
import FleetStore.Json.Writer
import FleetStore.Statement.PatchError
import FleetStore.Text.Quoted

/-! # Errors of stores

Three kinds of failure are told apart: the text of a descriptor is wrong, the
parameters do not fit, or running the statement failed. `StoreError` is the
sum of all that a store can answer.
-/

namespace FleetStore

/-- Why a row cannot be read as an aggregate. -/
inductive RowError where
  | missingField (name : String)
  | invalidType (found : Json)
  /-- An integer beyond 64 bits with a sign. -/
  | invalidInteger (n : Int)

/-- How messages refer to a document of the wrong type. -/
def RowError.describe : Json → String
  | .null => "null"
  | .bool true => "boolean \x60true\x60"
  | .bool false => "boolean \x60false\x60"
  | .int n => s!"integer \x60{n}\x60"
  | .float x => s!"floating point \x60{x.text}\x60"
  | .str s => "string " ++ Text.quotedInMessage s
  | .arr _ => "sequence"
  | .obj _ => "map"

def RowError.message : RowError → String
  | .missingField name => s!"missing field \x60{name}\x60"
  | .invalidType found => s!"invalid type: {describe found}, expected i64"
  | .invalidInteger n => s!"invalid value: integer \x60{n}\x60, expected i64"

inductive ExecutionError where
  | patch (e : PatchError)
  | notAWrite
  | notAQuery
  | unknownCategory (name : String)
  /-- The queue takes no more work. -/
  | rejected
  /-- A statement was run directly although its store is reached through a proxy.
  This is a mistake of the caller and not a state of the store. -/
  | proxied

def ExecutionError.message : ExecutionError → String
  | .patch e => s!"illegal patch: {e.message}"
  | .notAWrite => "statement is a query, use execute_query()"
  | .notAQuery => "statement is a write, use execute()"
  | .unknownCategory name => s!"category '{name}' is not registered"
  | .rejected => "storage is shut down, statement rejected"
  | .proxied => "statement executed directly although the backing storage runs in a proxy"

inductive StoreError where
  | descriptor (e : Descriptor.Error)
  | patch (e : PatchError)
  | execution (e : ExecutionError)
  | invalidCategory (fault : CategoryFault)
  | noSuchElement
  /-- A worker takes no more jobs. -/
  | closed
  | unreadable (reason : String)
  | row (e : RowError)

def StoreError.message : StoreError → String
  | .descriptor e => e.message
  | .patch e => e.message
  | .execution e => e.message
  | .invalidCategory fault => s!"invalid category: {fault.message}"
  | .noSuchElement => "no more elements in cursor"
  | .closed => "failed to send job to dispatch worker"
  | .unreadable reason => s!"io error: {reason}"
  | .row e => s!"json error: {e.message}"

end FleetStore
