import FleetStore.Statement.Expression

/-! # Comparing fields

Conditions and sort keys compare documents. Numbers compare with numbers,
strings with strings and truth values with each other; other documents are
comparable only if they are equal. Two integers of 64 bits compare exactly,
any other two numbers as doubles.
-/

namespace FleetStore

/-- A record: documents by field name. -/
abbrev Record := Dict Json

namespace Json

def orderDoubles : Double → Double → Option Ordering
  | .finite x, .finite y => some (x.order y)
  | .infinite a, .infinite b =>
      some (if a = b then .eq else if a then .lt else .gt)
  | .infinite a, .finite _ => some (if a then .lt else .gt)
  | .finite _, .infinite b => some (if b then .gt else .lt)
  | _, _ => none

def order? (a b : Json) : Option Ordering :=
  match a, b with
  | .str s, .str t => some (compare s t)
  | .bool s, .bool t => some (compare s t)
  | a, b =>
      match a.int64?, b.int64? with
      | some m, some n => some (compare m n)
      | _, _ =>
          match a.double?, b.double? with
          | some x, some y => orderDoubles x y
          | _, _ => if a == b then some .eq else none

end Json

namespace Expression

/-- Whether a field stands in a comparison to a value. A field that is missing or
not comparable differs from every value. -/
def compareHolds (field : Option Json) (op : Comparison) (value : Json) : Bool :=
  match field.bind fun j => j.order? value with
  | some o => op.holds o
  | none => op == .notEqual

/-- Whether a field equals an item of a list value. -/
def memberHolds (field : Option Json) (values : Json) : Bool :=
  match field, values with
  | some j, .arr items => items.any fun item => j.order? item == some .eq
  | _, _ => false

/-- Whether a record satisfies a condition. -/
def holds (r : Record) : Expression → Bool
  | .compare key op value => compareHolds (r.get? key.name) op value.toJson
  | .member key values => memberHolds (r.get? key.name) values.toJson
  | .not e => !e.holds r
  | .and l e => l.holds r && e.holds r
  | .or l e => l.holds r || e.holds r

end Expression

/-- Whether a record satisfies a condition that may be absent. -/
def satisfies (condition : Option Expression) (r : Record) : Bool :=
  match condition with
  | none => true
  | some e => e.holds r

end FleetStore
