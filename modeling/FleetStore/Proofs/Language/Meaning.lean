import FleetStore.Descriptor.Compiled
import FleetStore.Descriptor.Literal
import FleetStore.Proofs.Language.Syntax

/-! # What statements mean

Rules that tell which syntax trees are legal for a category and to which compiled
statement each of them is to lead. The rules are read like those of a type system:
`before` and `after` are the types of the parameters that stand before and after
the end of a part, so a parameter is numbered by those that stand before it.
-/

namespace FleetStore.Descriptor.Syntax

/-- A term in a place for values of a type. -/
inductive Term.Means (expected : ValueType) (before : List ValueType) :
    Term → Descriptor.Term → List ValueType → Prop where
  | parameter : Means expected before (.parameter expected) (.parameter before.length)
      (before ++ [expected])
  | quoted (text : String) (typed : expected = .scalar .string) :
      Means expected before (.quoted text) (.literal (.string text)) before
  | word (text : String) (value : Value) (stands : literal? text = some value)
      (typed : value.type = expected) : Means expected before (.word text) (.literal value) before

/-- The comparisons that ask for an order, and the types whose values have one. -/
def orderings : List Comparison := [.less, .lessEqual, .greater, .greaterEqual]

def orderedTypes : List ValueType :=
  [.scalar .string, .scalar .int, .scalar .long, .scalar .double]

/-- A key that is compared with a term of its type, or a key that is no list and whose
value is looked for in a list that is given as a parameter. -/
inductive Test.Means (c : Category) (before : List ValueType) :
    Test → Condition → List ValueType → Prop where
  | not {t e after} (test : Means c before t e after) : Means c before (.not t) (.not e) after
  | compare {name key op term value after} (known : c.key? name = some key)
      (ordered : op ∈ orderings → key.type ∈ orderedTypes)
      (typed : Term.Means key.type before term value after) :
      Means c before (.compare name op term) (.compare key op value) after
  | member {name key type} (known : c.key? name = some key) (single : key.type = .scalar type) :
      Means c before (.member name (.parameter (.list type)))
        (.member key (.parameter before.length)) (before ++ [.list type])

/-- The items of a list mean the items of another, one after another. -/
inductive Each {α β : Type} (item : List ValueType → α → β → List ValueType → Prop) :
    List ValueType → List α → List β → List ValueType → Prop where
  | nil {before} : Each item before [] [] before
  | cons {before between after x y xs ys} (first : item before x y between)
      (more : Each item between xs ys after) : Each item before (x :: xs) (y :: ys) after

/-- `AND` associates to the left. -/
inductive Conjunction.Means (c : Category) (before : List ValueType) :
    Conjunction → Condition → List ValueType → Prop where
  | intro {tests e es after} (all : Each (Test.Means c) before tests.items (e :: es) after) :
      Means c before tests (es.foldl .and e) after

/-- `OR` associates to the left. -/
inductive Disjunction.Means (c : Category) (before : List ValueType) :
    Disjunction → Condition → List ValueType → Prop where
  | intro {conjunctions e es after}
      (all : Each (Conjunction.Means c) before conjunctions.items (e :: es) after) :
      Means c before conjunctions (es.foldl .or e) after

inductive Assignment.Means (c : Category) (before : List ValueType) :
    Assignment → Key × Descriptor.Term → List ValueType → Prop where
  | intro {name key term value after} (known : c.key? name = some key)
      (typed : Term.Means key.type before term value after) :
      Means c before ⟨name, term⟩ (key, value) after

/-- Assignments are kept in their order, and no key is set twice. -/
inductive AssignmentsMean (c : Category) (before : List ValueType) :
    Chain Assignment → List (Key × Descriptor.Term) → List ValueType → Prop where
  | intro {assignments result after}
      (all : Each (Assignment.Means c) before assignments.items result after)
      (once : (assignments.items.map Assignment.key).Nodup) :
      AssignmentsMean c before assignments result after

inductive SortKey.Means (c : Category) (before : List ValueType) :
    SortKey → Key × SortDirection → List ValueType → Prop where
  | intro {name key direction} (known : c.key? name = some key) :
      Means c before ⟨name, direction⟩ (key, direction) before

inductive SortKeysMean (c : Category) (before : List ValueType) :
    Chain SortKey → List (Key × SortDirection) → List ValueType → Prop where
  | intro {keys result after} (all : Each (SortKey.Means c) before keys.items result after) :
      SortKeysMean c before keys result after

/-- A limit is a parameter for a 32-bit integer, or such an integer above zero. -/
inductive Term.Limits (before : List ValueType) :
    Term → Limit → List ValueType → Prop where
  | parameter : Limits before (.parameter (.scalar .int)) (.parameter before.length)
      (before ++ [.scalar .int])
  | word (text : String) (n : Int32) (stands : literal? text = some (.int n))
      (positive : 0 < n.toInt) : Limits before (.word text) (.fixed n.toInt.toNat) before

/-- A clause that is absent means nothing. -/
inductive ClauseMeans {α β : Type} (means : List ValueType → α → β → List ValueType → Prop)
    (before : List ValueType) : Option α → Option β → List ValueType → Prop where
  | none : ClauseMeans means before none none before
  | some {x y after} (present : means before x y after) :
      ClauseMeans means before (some x) (some y) after

/-- Which clauses each kind of statement must have, may have and must not have. -/
def Statement.Allowed (s : Statement) : Prop :=
  match s.kind with
  | .write .add => s.set.isSome ∧ s.filter.isNone ∧ s.sort.isNone ∧ s.limit.isNone
  | .write .replace => s.set.isSome ∧ s.filter.isSome ∧ s.sort.isNone ∧ s.limit.isNone
  | .write .update => s.set.isSome ∧ s.filter.isSome ∧ s.sort.isNone ∧ s.limit.isNone
  | .write .remove => s.set.isNone ∧ s.sort.isNone ∧ s.limit.isNone
  | .query .select => s.set.isNone
  | .query .count => s.set.isNone ∧ s.sort.isNone ∧ s.limit.isNone

/-- A legal statement and what it is compiled to. -/
inductive Statement.Means (c : Category) (descriptor : String) (s : Statement) : Compiled → Prop where
  | intro {first second third signature assignments condition sort limit}
      (category : s.category = c.name) (allowed : s.Allowed)
      (set : ClauseMeans (AssignmentsMean c) [] s.set assignments first)
      (filter : ClauseMeans (Disjunction.Means c) first s.filter condition second)
      (sorted : ClauseMeans (SortKeysMean c) second s.sort sort third)
      (limited : ClauseMeans Term.Limits third s.limit limit signature) :
      Means c descriptor s
        { descriptor, category := c.name, kind := s.kind, signature,
          assignments := assignments.getD [], condition, sort := sort.getD [], limit }

end FleetStore.Descriptor.Syntax
