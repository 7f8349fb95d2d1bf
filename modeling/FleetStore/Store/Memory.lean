import FleetStore.Descriptor.Cache
import FleetStore.Store.Connection
import FleetStore.Store.Cursor
import FleetStore.Store.Prepared

/-! # The store in memory

A store keeps a table for every registered category and a map of files. It
compiles descriptors through a cache and runs bound statements at once.
-/

namespace FleetStore

/-- What comes after the bytes of a source. -/
inductive FileSource.Ending where
  | whole
  /-- No more bytes can be read. -/
  | torn (reason : String)
  /-- The source throws, when it is read or, if it was `read` to its end, when it is dropped.
  Whoever reads it has to catch that, and what is thrown may throw again when it is dropped. -/
  | thrown (read again : Bool)
deriving DecidableEq, Repr

/-- A source is whole if there is no reason for which no more bytes can be read. -/
instance : Coe (Option String) FileSource.Ending where
  coe
    | none => .whole
    | some reason => .torn reason

/-- What a caller hands over to be saved as a file: bytes, and what comes after them. -/
structure FileSource where
  bytes : List UInt8
  ending : FileSource.Ending
deriving DecidableEq, Repr

/-- Why a source cannot be read to its end, if it cannot. -/
def FileSource.failure (source : FileSource) : Option String :=
  match source.ending with
  | .whole | .thrown true _ => none
  | .torn reason => some reason
  | .thrown false _ => some "reading it panicked"

/-- A store that keeps everything in memory. -/
structure MemoryStore where
  tables : Tables
  files : Dict (List UInt8)
  cache : Descriptor.Cache
  connection : Connection

namespace MemoryStore

def url : String := "memory://"

def empty : MemoryStore :=
  ⟨∅, ∅, .empty, .new url .connected⟩

/-- How many records a category has, if it is registered. -/
def recordCount (s : MemoryStore) (category : String) : Option Nat :=
  (s.tables.get? category).map fun t => t.records.length

def compiledCount (s : MemoryStore) : Nat :=
  s.cache.size

/-- Registers a category. Registering the same keys under the same name again
changes nothing. -/
def register (s : MemoryStore) (c : Category) : Except StoreError MemoryStore :=
  match s.tables.get? c.name with
  | none => .ok { s with tables := s.tables.insert c.name ⟨c.keys, []⟩ }
  | some t =>
      if t.keys = c.keys then .ok s
      else .error (.invalidCategory (.registeredDifferently c.name))

/-- Compiles a descriptor or takes it from the cache, and prepares it for binding. -/
def prepare (s : MemoryStore) (c : Category) (descriptor : String) :
    Except Descriptor.Error (Prepared × MemoryStore) :=
  (s.cache.getOrCompile c descriptor).map fun (entry, cache) =>
    (.ofCompiled entry.compiled, { s with cache })

def applyWrite (s : MemoryStore) (w : BoundWrite) : Except ExecutionError MemoryStore :=
  (s.tables.apply w).map fun tables => { s with tables }

def execute (s : MemoryStore) (statement : Prepared) : Except ExecutionError MemoryStore :=
  statement.boundWrite.bind s.applyWrite

def runQuery {α : Type} (s : MemoryStore) (q : BoundQuery) : Except ExecutionError (Cursor α) :=
  (s.tables.find q).map .ofRecords

def executeQuery {α : Type} (s : MemoryStore) (statement : Prepared) :
    Except ExecutionError (Cursor α) :=
  statement.boundQuery.bind s.runQuery

/-- Stores a file; nothing is stored if it could not be read to its end. -/
def saveFile (s : MemoryStore) (name : String) (source : FileSource) :
    Except StoreError MemoryStore :=
  match source.failure with
  | some reason => .error (.unreadable reason)
  | none => .ok { s with files := s.files.insert name source.bytes }

def loadFile (s : MemoryStore) (name : String) : Option (List UInt8) :=
  s.files.get? name

/-- Deletes all records of an agent; files stay. -/
def purge (s : MemoryStore) (agent : String) : MemoryStore :=
  { s with tables := s.tables.purge agent }

/-- Gives up the connection. -/
def shutdown (s : MemoryStore) : MemoryStore :=
  { s with connection := s.connection.setStatus .disconnected }

end MemoryStore

end FleetStore
