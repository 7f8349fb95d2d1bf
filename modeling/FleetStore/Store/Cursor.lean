import FleetStore.Store.Error
import FleetStore.Table.Basic

/-! # Cursors

A cursor goes once through the rows of a query. A row is decoded when the
cursor reaches it, also when it only looks ahead, and a row that was looked at
is kept until it is taken. Rows are read as records or as aggregates.
-/

namespace FleetStore

/-- What rows can be read as. -/
class Entity (α : Type) where
  decode : Record → Except RowError α
  encode : α → Json

/-- Every record is a row as it stands. -/
instance : Entity Record where
  decode r := .ok r
  encode := .ofDict

structure AggregateCount where
  count : Int64
deriving DecidableEq, Repr

def AggregateCount.ofJson (j : Json) : Except RowError AggregateCount :=
  match j with
  | .int n =>
      match Text.int64? n with
      | some count => .ok ⟨count⟩
      | none => .error (.invalidInteger n)
  | j => .error (.invalidType j)

instance : Entity AggregateCount where
  decode r :=
    match r.get? "count" with
    | none => .error (.missingField "count")
    | some j => AggregateCount.ofJson j
  encode a := .obj [("count", .int a.count.toInt)]

/-- The answer to a request for a row. -/
abbrev RowAnswer (α : Type) : Type := Except StoreError α

/-- The rows of a query that were not taken yet. -/
structure Cursor (α : Type) where
  /-- What looking ahead has found: nothing known yet, the end, or a decoded row. -/
  ahead : Option (Option (RowAnswer α))
  rest : List Record

namespace Cursor

variable {α : Type}

def ofRecords (rows : List Record) : Cursor α := ⟨none, rows⟩

def empty : Cursor α := ofRecords []

def decode [Entity α] (r : Record) : RowAnswer α :=
  (Entity.decode r).mapError .row

/-- Takes the next row out of the records, if there is one. -/
def pull [Entity α] (c : Cursor α) : Option (RowAnswer α) × List Record :=
  match c.rest with
  | [] => (none, [])
  | r :: rest => (some (decode r), rest)

/-- The cursor after it has looked ahead. -/
def peek [Entity α] (c : Cursor α) : Option (RowAnswer α) × Cursor α :=
  match c.ahead with
  | some found => (found, c)
  | none =>
      let (found, rest) := c.pull
      (found, ⟨some found, rest⟩)

def hasNext [Entity α] (c : Cursor α) : Bool × Cursor α :=
  let (found, c) := c.peek
  (found.isSome, c)

def step [Entity α] (c : Cursor α) : Option (RowAnswer α) × Cursor α :=
  match c.ahead with
  | some found => (found, ⟨none, c.rest⟩)
  | none =>
      let (found, rest) := c.pull
      (found, ⟨none, rest⟩)

/-- The next row, or an error if there is none or it cannot be read. -/
def next [Entity α] (c : Cursor α) : RowAnswer α × Cursor α :=
  let (found, c) := c.step
  (found.getD (.error .noSuchElement), c)

def head [Entity α] (c : Cursor α) : Except StoreError (Option α) :=
  match c.step.1 with
  | none => .ok none
  | some answer => answer.map some

/-- All remaining rows, or the first error among them. -/
def collect [Entity α] (c : Cursor α) : Except StoreError (List α) :=
  match c.ahead with
  | none => c.rest.mapM decode
  | some none => .ok []
  | some (some answer) => do
      let first ← answer
      let more ← c.rest.mapM decode
      return first :: more

end Cursor

end FleetStore
