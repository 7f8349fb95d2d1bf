import FleetStore.Statement.Expression

/-! # Bound statements

A bound statement has a value in every place that a parameter may take, and is
ready to be run on tables.
-/

namespace FleetStore

/-- A value for the free parameter of an index. -/
structure Parameter where
  index : Nat
  /-- The type that the caller declares for the parameter. -/
  declared : ValueType
  value : Value

/-- A parameter whose declared type is the type of its value. -/
def Parameter.ofValue (index : Nat) (value : Value) : Parameter :=
  ⟨index, value.type, value⟩

/-- A read, fully bound. -/
structure BoundQuery where
  category : String
  kind : QueryKind
  condition : Option Expression
  sort : List (Key × SortDirection)
  limit : Option Nat

namespace BoundQuery

/-- The query with another condition in place of its own. -/
def filter (q : BoundQuery) (condition : Expression) : BoundQuery :=
  { q with condition := some condition }

/-- The query with one more sort key after the ones it has. -/
def sortBy (q : BoundQuery) (key : Key) (direction : SortDirection) : BoundQuery :=
  { q with sort := q.sort ++ [(key, direction)] }

def limitTo (q : BoundQuery) (limit : Nat) : BoundQuery :=
  { q with limit := some limit }

end BoundQuery

/-- A write, fully bound, with its assignments in the order of the statement. -/
structure BoundWrite where
  category : String
  kind : WriteKind
  assignments : List (Key × Value)
  condition : Option Expression

namespace BoundWrite

def assignmentText (a : Key × Value) : String :=
  s!"'{a.1.name}' = {a.2.text}"

def text (w : BoundWrite) : String :=
  let set :=
    match w.assignments with
    | [] => ""
    | assignments => " SET " ++ ", ".intercalate (assignments.map assignmentText)
  let condition :=
    match w.condition with
    | none => ""
    | some e => " WHERE " ++ e.text
  s!"{w.kind.verb} {w.category}" ++ set ++ condition

end BoundWrite

/-- What binding a compiled statement gives. -/
inductive BoundStatement where
  | query (q : BoundQuery)
  | write (w : BoundWrite)

end FleetStore
