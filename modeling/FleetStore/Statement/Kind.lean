/-! # Kinds of statements

Every statement starts with a verb, which says whether it reads or writes. The
classification is made once, from the verb, and never again.
-/

namespace FleetStore

/-- The verbs that read. -/
inductive QueryKind where
  | select
  | count
deriving DecidableEq, Repr

inductive WriteKind where
  | add
  | replace
  | update
  | remove
deriving DecidableEq, Repr

/-- A statement reads or writes. -/
inductive StatementKind where
  | query (kind : QueryKind)
  | write (kind : WriteKind)
deriving DecidableEq, Repr

/-- The comparisons of a condition. -/
inductive Comparison where
  | equal
  | notEqual
  | less
  | lessEqual
  | greater
  | greaterEqual
deriving DecidableEq, Repr

inductive SortDirection where
  | ascending
  | descending
deriving DecidableEq, Repr

namespace QueryKind

def all : List QueryKind := [.select, .count]

def verb : QueryKind → String
  | .select => "QUERY"
  | .count => "QUERY-COUNT"

/-- The kind with a verb; verbs are case-sensitive. -/
def ofVerb? (word : String) : Option QueryKind :=
  all.find? fun k => k.verb = word

end QueryKind

namespace WriteKind

def all : List WriteKind := [.add, .replace, .update, .remove]

def verb : WriteKind → String
  | .add => "ADD"
  | .replace => "REPLACE"
  | .update => "UPDATE"
  | .remove => "REMOVE"

/-- The kind with a verb; verbs are case-sensitive. -/
def ofVerb? (word : String) : Option WriteKind :=
  all.find? fun k => k.verb = word

end WriteKind

namespace StatementKind

def all : List StatementKind :=
  QueryKind.all.map .query ++ WriteKind.all.map .write

def verb : StatementKind → String
  | .query kind => kind.verb
  | .write kind => kind.verb

/-- The kind with a verb; verbs are case-sensitive. -/
def ofVerb? (word : String) : Option StatementKind :=
  all.find? fun k => k.verb = word

def isQuery : StatementKind → Bool
  | .query _ => true
  | .write _ => false

def isWrite (k : StatementKind) : Bool :=
  !k.isQuery

@[simp] theorem ofVerb?_verb (k : StatementKind) : ofVerb? k.verb = some k := by
  rcases k with k | k <;> cases k <;> decide

end StatementKind

namespace Comparison

def all : List Comparison :=
  [.equal, .notEqual, .less, .lessEqual, .greater, .greaterEqual]

def symbol : Comparison → String
  | .equal => "="
  | .notEqual => "!="
  | .less => "<"
  | .lessEqual => "<="
  | .greater => ">"
  | .greaterEqual => ">="

def ofSymbol? (text : String) : Option Comparison :=
  all.find? fun op => op.symbol = text

/-- Whether the comparison needs an ordered type. -/
def isOrdering : Comparison → Bool
  | .equal | .notEqual => false
  | _ => true

/-- Whether the comparison holds of two things that stand in this order. -/
def holds : Comparison → Ordering → Bool
  | .equal, o => o == .eq
  | .notEqual, o => o != .eq
  | .less, o => o == .lt
  | .lessEqual, o => o != .gt
  | .greater, o => o == .gt
  | .greaterEqual, o => o != .lt

end Comparison

namespace SortDirection

def all : List SortDirection := [.ascending, .descending]

def word : SortDirection → String
  | .ascending => "ASC"
  | .descending => "DSC"

def ofWord? (text : String) : Option SortDirection :=
  all.find? fun d => d.word = text

def apply : SortDirection → Ordering → Ordering
  | .ascending, o => o
  | .descending, o => o.swap

end SortDirection

end FleetStore
