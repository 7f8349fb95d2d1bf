import FleetStore.Table.Compare

/-! # Sorting records

Records are sorted by a list of keys, each with a direction. A missing field
comes before every present one, and fields that cannot be compared tie.
Records that tie on all keys stay in the order in which they came.
-/

namespace FleetStore

/-- The order of two fields, either of which may be missing. -/
def orderFields : Option Json → Option Json → Ordering
  | some a, some b => (a.order? b).getD .eq
  | none, some _ => .lt
  | some _, none => .gt
  | none, none => .eq

/-- The order of two records by a list of sort keys: the first key on which they
do not tie decides. -/
def orderRecords (a b : Record) : List (Key × SortDirection) → Ordering
  | [] => .eq
  | (key, direction) :: rest =>
      (direction.apply (orderFields (a.get? key.name) (b.get? key.name))).then
        (orderRecords a b rest)

/-- Puts an element into a list that is sorted from the greatest to the least,
before all elements that it is not less than. -/
def insertDescending {α : Type} (less : α → α → Bool) (x : α) : List α → List α
  | [] => [x]
  | y :: rest => if less x y then y :: insertDescending less x rest else x :: y :: rest

/-- Sorts a list by inserting its elements one after another from the end, so that
an element never passes one that it ties with. -/
def stableSort {α : Type} (less : α → α → Bool) (l : List α) : List α :=
  (l.foldl (fun sorted x => insertDescending less x sorted) []).reverse

/-- The records in the order of the sort keys. -/
def sortRecords (sort : List (Key × SortDirection)) (rows : List Record) : List Record :=
  stableSort (fun a b => orderRecords a b sort == .lt) rows

end FleetStore
