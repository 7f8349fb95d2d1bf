import FleetStore.Proofs.Store.Queried
import FleetStore.Proofs.Table.Arrangement

/-! # What a query selects

A query takes the records of its table that satisfy its condition, arranges them by its sort
keys and keeps as many of the first as its limit allows. Before it is run it can be given
another condition, more sort keys and another limit, in any order, and what counts is
the last condition, the last limit and the sort keys as they came.
-/

namespace FleetStore

/-! ## Refining a query -/

/-- What can be changed about a query before it is run. -/
inductive Refinement where
  | filter (condition : Expression)
  | sortBy (key : Key) (direction : SortDirection)
  | limitTo (limit : Nat)

namespace Refinement

def apply (q : BoundQuery) : Refinement → BoundQuery
  | .filter condition => q.filter condition
  | .sortBy key direction => q.sortBy key direction
  | .limitTo limit => q.limitTo limit

def condition? : Refinement → Option Expression
  | .filter condition => some condition
  | _ => none

def sortKey? : Refinement → Option (Key × SortDirection)
  | .sortBy key direction => some (key, direction)
  | _ => none

def limit? : Refinement → Option Nat
  | .limitTo limit => some limit
  | _ => none

end Refinement

namespace BoundQuery

/-- The query with refinements made one after another. -/
def refine (q : BoundQuery) (refinements : List Refinement) : BoundQuery :=
  refinements.foldl Refinement.apply q

/-- The last condition and the last limit stand, and all sort keys, the first of them first. -/
theorem refine_eq (q : BoundQuery) (refinements : List Refinement) :
    q.refine refinements =
      { q with
        condition := (refinements.filterMap Refinement.condition?).getLast?.or q.condition
        sort := q.sort ++ refinements.filterMap Refinement.sortKey?
        limit := (refinements.filterMap Refinement.limit?).getLast?.or q.limit } := by
  induction refinements generalizing q with
  | nil => simp [refine]
  | cons first rest ih =>
      rw [refine, List.foldl_cons]
      refine (ih _).trans ?_
      cases first <;>
        simp [Refinement.apply, Refinement.condition?, Refinement.sortKey?, Refinement.limit?,
          filter, sortBy, limitTo, List.getLast?_cons, List.filterMap_cons]

/-- As many of the first rows as a limit allows. -/
def upTo (limit : Option Nat) (rows : List Record) : List Record :=
  match limit with
  | none => rows
  | some n => rows.take n

end BoundQuery

namespace MemoryStore

variable {m : MemoryStore} {t : Table} {q : BoundQuery}

/-- The rows that a query answers. -/
def rows (m : MemoryStore) (q : BoundQuery) : Except StoreError (List Record) := do
  let cursor : Cursor Record ← (m.runQuery q).mapError .execution
  cursor.collect

theorem rows_of_table (found : m.tables.get? q.category = some t) (select : q.kind = .select) :
    m.rows q =
      .ok (BoundQuery.upTo q.limit
        (sortRecords q.sort (t.records.filter (satisfies q.condition)))) := by
  have answer : q.rowsOf t.records =
      BoundQuery.upTo q.limit (sortRecords q.sort (t.records.filter (satisfies q.condition))) := by
    simp only [BoundQuery.rowsOf, select]
    rfl
  simp [rows, runQuery_eq, found, answer, bind, Except.bind, Cursor.collect_ofRecords]

/-- A query of well-typed records answers the first rows of the one list that has the records of its
condition in the order of its sort keys and those that tie as they were added, whatever it was
before it was refined. A smaller limit cuts off the end of what a greater one allows. -/
theorem select_answers_arrangement (registered : m.tables.get? q.category = some t)
    (typed : ∀ r ∈ t.records, WellTyped t.keys r) (select : q.kind = .select)
    (refinements : List Refinement) (sorts : SortsBy t.keys (q.refine refinements).sort) :
    let refined := q.refine refinements
    let found := t.records.filter (satisfies refined.condition)
    refined =
      { q with
        condition := (refinements.filterMap Refinement.condition?).getLast?.or q.condition
        sort := q.sort ++ refinements.filterMap Refinement.sortKey?
        limit := (refinements.filterMap Refinement.limit?).getLast?.or q.limit } ∧
    (∀ statement : Prepared, statement.boundQuery = .ok refined →
      ∀ α, (m.executeQuery statement : Except ExecutionError (Cursor α)) = m.runQuery refined) ∧
    ∃ arranged, (∀ l, Arranged refined.sort found l ↔ l = arranged) ∧
      m.rows refined = .ok (BoundQuery.upTo refined.limit arranged) ∧
      (∀ n k, n ≤ k → ∃ few many, m.rows (refined.limitTo n) = .ok few ∧
        m.rows (refined.limitTo k) = .ok many ∧ few <+: many ∧ many <+: arranged) ∧
      (refined.sort = [] → arranged = found) := by
  intro refined found
  have same := q.refine_eq refinements
  have table : m.tables.get? refined.category = some t := by simpa [refined, same] using registered
  have kind : refined.kind = .select := by simpa [refined, same] using select
  have arranged : Arranged refined.sort found (sortRecords refined.sort found) :=
    sortRecords_arranged sorts fun r member => typed r (List.mem_of_mem_filter member)
  refine ⟨same, fun statement bound α => ?_, _, fun l => ⟨arranged.unique, ?_⟩,
    rows_of_table table kind, fun n k less => ?_, fun unsorted => ?_⟩
  · rw [executeQuery, bound]
    rfl
  · rintro rfl
    exact arranged
  · have limited (n : Nat) : m.rows (refined.limitTo n) =
        .ok ((sortRecords refined.sort found).take n) :=
      rows_of_table (q := refined.limitTo n) table kind
    exact ⟨_, _, limited n, limited k, List.take_prefix_take_left less, List.take_prefix _ _⟩
  · rw [unsorted, sortRecords_nil]

/-- Three machines with the load 1, one of which is off, and one without a load. -/
def fourMachines : Table :=
  { keys := [⟨"load", .scalar .int⟩, ⟨"name", .scalar .string⟩]
    records := [
      .ofList [("load", .int 1), ("name", .str "b")],
      .ofList [("load", .int 1), ("name", .str "off")],
      .ofList [("load", .int 1), ("name", .str "a")],
      .ofList [("name", .str "c")]] }

theorem fourMachines_wellTyped : ∀ r ∈ fourMachines.records, WellTyped fourMachines.keys r := by
  intro r member field j found
  have entry : field = "load" ∧ j = .int 1 ∨ field = "name" ∧ ∃ text, j = .str text := by
    have inside := Dict.get?_eq_some_iff.1 found
    simp only [fourMachines, List.mem_cons, List.not_mem_nil, or_false] at member
    -- An entry of a record is one of those it was made of.
    rcases member with rfl | rfl | rfl | rfl <;>
      have given := (Dict.mem_insertAll inside).resolve_left List.not_mem_nil <;>
      simp only [List.mem_cons, List.not_mem_nil, or_false, Prod.mk.injEq] at given <;>
      grind
  have one : FitsSigned 31 1 := by decide
  rcases entry with ⟨rfl, rfl⟩ | ⟨rfl, text, rfl⟩ <;>
    simp [fourMachines, ValueType.Represents, ScalarType.Represents, one]

theorem fourMachines_ordered : ∀ key ∈ fourMachines.keys,
    ∃ t ∈ ScalarType.ordered, key.type = .scalar t := by
  simp [fourMachines, ScalarType.ordered]

/-- A query is sorted by load, has its condition set and its limit set twice. The machine without a
load is the first, and of two with one load the one that was added first. -/
theorem unloaded_machine_is_first :
    let m : MemoryStore := { empty with tables := (∅ : Tables).insert "vm" fourMachines }
    let load : Key := ⟨"load", .scalar .int⟩
    let name : Key := ⟨"name", .scalar .string⟩
    let q : BoundQuery := ⟨"vm", .select, none, [], none⟩
    let refined := q.refine [.limitTo 9, .sortBy load .ascending,
      .filter (.compare name .notEqual (.string "off")), .limitTo 2]
    (∀ r ∈ fourMachines.records, WellTyped fourMachines.keys r) ∧
    SortsBy fourMachines.keys refined.sort ∧
    ∃ arranged, Arranged [(load, .ascending)]
        (fourMachines.records.filter (satisfies refined.condition)) arranged ∧
      m.rows refined = .ok (arranged.take 2) ∧
      m.rows refined = .ok [
        .ofList [("name", .str "c")], .ofList [("load", .int 1), ("name", .str "b")]] := by
  intro m load name q refined
  have sorts : SortsBy fourMachines.keys refined.sort :=
    fun _ _ key known _ => fourMachines_ordered key known
  obtain ⟨-, -, arranged, only, rows, -⟩ :=
    select_answers_arrangement (m := m) (q := q) rfl fourMachines_wellTyped rfl _ sorts
  exact ⟨fourMachines_wellTyped, sorts, arranged, (only arranged).2 rfl, rows, rfl⟩

end MemoryStore

end FleetStore
