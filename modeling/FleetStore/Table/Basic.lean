import FleetStore.Statement.Bound
import FleetStore.Table.Sort

/-! # Tables

A table holds the records of one category in the order in which they were
added. Queries filter, sort and cut the list; the four kinds of writes are
functions from lists of records to lists of records.
-/

namespace FleetStore

/-- The records of a registered category. -/
structure Table where
  keys : List Key
  records : List Record

abbrev Tables := Dict Table

def assignedFields (assignments : List (Key × Value)) : List (String × Json) :=
  assignments.map fun (key, value) => (key.name, value.toJson)

namespace BoundWrite

/-- The record that the assignments of a write make up by themselves. -/
def newRecord (w : BoundWrite) : Record :=
  .ofList (assignedFields w.assignments)

/-- A record with the assignments of a write written over it. -/
def overwrite (w : BoundWrite) (r : Record) : Record :=
  r.insertAll (assignedFields w.assignments)

/-- What a write makes of the records of its table. -/
def applyTo (w : BoundWrite) (records : List Record) : List Record :=
  match w.kind with
  | .add => records ++ [w.newRecord]
  | .replace => records.filter (!satisfies w.condition ·) ++ [w.newRecord]
  | .update => records.map fun r => if satisfies w.condition r then w.overwrite r else r
  | .remove => records.filter (!satisfies w.condition ·)

end BoundWrite

namespace BoundQuery

def countRecord (count : Nat) : Record :=
  .ofList [("count", .int count)]

/-- The rows of a list of records that answer a query. -/
def rowsOf (q : BoundQuery) (records : List Record) : List Record :=
  let found := records.filter (satisfies q.condition)
  match q.kind with
  | .count => [countRecord found.length]
  | .select =>
      let sorted := sortRecords q.sort found
      match q.limit with
      | none => sorted
      | some limit => sorted.take limit

end BoundQuery

namespace Tables

/-- The rows that answer a query, or `none` if its category has no table. -/
def find? (tables : Tables) (q : BoundQuery) : Option (List Record) :=
  (tables.get? q.category).map fun t => q.rowsOf t.records

/-- The tables after a write, or `none` if its category has no table. -/
def write? (tables : Tables) (w : BoundWrite) : Option Tables :=
  (tables.get? w.category).map fun t =>
    tables.insert w.category { t with records := w.applyTo t.records }

def ofAgent (agent : String) (r : Record) : Bool :=
  (r.get? Key.agentId.name).any fun j => j == .str agent

/-- The tables without the records of an agent. -/
def purge (tables : Tables) (agent : String) : Tables :=
  tables.map fun t => { t with records := t.records.filter (!ofAgent agent ·) }

end Tables

end FleetStore
