import FleetStore.Descriptor.Bind
import FleetStore.Store.Error
import FleetStore.Table.Basic

/-! # Prepared statements

A prepared statement is a compiled statement and the values bound to it so far.
A value is checked when it is bound, so that binding the statement can fail
only for a parameter that is missing or a limit that is not positive.
Statements are values: a copy of one is not touched by what is done to the
other.
-/

namespace FleetStore

/-- A compiled statement with the values bound to its parameters so far. -/
structure Prepared where
  compiled : Descriptor.Compiled
  values : List (Option Value)

/-- The code that a write answers. -/
abbrev Status : Type := Int

def Status.success : Status := 0

namespace Prepared

/-- A statement of which no parameter is bound yet. -/
def ofCompiled (c : Descriptor.Compiled) : Prepared :=
  ⟨c, List.replicate c.signature.length none⟩

/-- Binds a value to the parameter of an index. -/
def setParameter (s : Prepared) (index : Nat) (value : Value) : Except PatchError Prepared :=
  match s.compiled.signature[index]? with
  | none => .error (.indexOutOfRange index s.values.length)
  | some expected =>
      (Descriptor.checkValue index expected value).map fun () =>
        { s with values := s.values.set index (some value) }

/-- Binds values to parameters one after another, up to the first that does not fit. -/
def setParameters (s : Prepared) : List (Nat × Value) → Except PatchError Prepared
  | [] => .ok s
  | (index, value) :: rest => do
      let s ← s.setParameter index value
      setParameters s rest

/-- The parameters from `index` on, or the first that is not bound. -/
def parametersFrom (index : Nat) : List (Option Value) → Except PatchError (List Parameter)
  | [] => .ok []
  | none :: _ => .error (.unbound index)
  | some value :: rest => (parametersFrom (index + 1) rest).map (.ofValue index value :: ·)

/-- The bound parameters in the order of their indices. -/
def parameters (s : Prepared) : Except PatchError (List Parameter) :=
  parametersFrom 0 s.values

/-- The statement with its values in place. -/
def bound (s : Prepared) : Except ExecutionError BoundStatement :=
  (s.parameters.bind s.compiled.bind).mapError .patch

/-- The write that the statement stands for. -/
def boundWrite (s : Prepared) : Except ExecutionError BoundWrite :=
  match s.bound with
  | .error e => .error e
  | .ok (.write w) => .ok w
  | .ok (.query _) => .error .notAWrite

/-- The query that the statement stands for. -/
def boundQuery (s : Prepared) : Except ExecutionError BoundQuery :=
  match s.bound with
  | .error e => .error e
  | .ok (.query q) => .ok q
  | .ok (.write _) => .error .notAQuery

end Prepared

namespace Tables

def find (tables : Tables) (q : BoundQuery) : Except ExecutionError (List Record) :=
  match tables.find? q with
  | some rows => .ok rows
  | none => .error (.unknownCategory q.category)

def apply (tables : Tables) (w : BoundWrite) : Except ExecutionError Tables :=
  match tables.write? w with
  | some tables => .ok tables
  | none => .error (.unknownCategory w.category)

end Tables

end FleetStore
