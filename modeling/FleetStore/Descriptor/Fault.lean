import FleetStore.Descriptor.Token

/-! # Faults of descriptors

Each way in which a descriptor can fail to compile is a cause of its own; the
wording of all of them is in `Fault.message`.
-/

namespace FleetStore.Descriptor

/-- The clauses of a statement, in the order in which they may stand. -/
inductive Clause where
  | set
  | filter
  | sort
  | limit
deriving DecidableEq, Repr

def Clause.keyword : Clause → String
  | .set => "SET"
  | .filter => "WHERE"
  | .sort => "SORT"
  | .limit => "LIMIT"

/-- Why a descriptor does not compile. -/
inductive Fault where
  | token (fault : TokenFault) (offset : Nat)
  | empty
  | unknownVerb (word : String)
  | expectedVerb (found : Token)
  | otherCategory (found expected : String)
  | expectedCategory (found : Token)
  | missingCategory (kind : StatementKind)
  | forbiddenClause (kind : StatementKind) (clause : Clause)
  | missingClause (kind : StatementKind) (clause : Clause)
  | trailing (found : Lexeme)
  | unknownKey (key category : String)
  | expectedKey (found : Option Lexeme)
  | repeatedKey (key : String)
  | expectedEquals (key : String)
  | memberOfListKey (key : String)
  | memberNeedsParameter (key : String)
  | expectedOperator (key : String)
  | unordered (op : Comparison) (key : String) (type : ValueType)
  | unknownDirection (word : String)
  | expectedDirection (key : String)
  | limitOfType (type : ValueType)
  | limitNotPositive (limit : Int)
  | limitNotInt (word : String)
  | expectedLimit
  | invalidLiteral (word key : String)
  | expectedValue (key : String) (found : Option Lexeme)
  | mistyped (key : String) (expected actual : ValueType)
deriving DecidableEq, Repr

/-- How messages refer to the place where a token was found. -/
def Lexeme.describe (l : Lexeme) : String :=
  s!"{l.token.describe} at offset {l.offset}"

def describeNext : Option Lexeme → String
  | some l => l.describe
  | none => "end of descriptor"

def TokenFault.message (offset : Nat) : TokenFault → String
  | .loneExclamation => s!"expected '=' after '!' at offset {offset}"
  | .openQuote => s!"unterminated quote at offset {offset}"
  | .unknownType => s!"unknown parameter type at offset {offset}"
  | .malformedParameter => s!"malformed parameter at offset {offset}"

def Fault.message : Fault → String
  | .token fault offset => fault.message offset
  | .empty => "descriptor is empty"
  | .unknownVerb word => s!"unknown statement verb '{word}'"
  | .expectedVerb found => s!"expected a statement verb, found {found.describe}"
  | .otherCategory found expected => s!"category '{found}' does not match '{expected}'"
  | .expectedCategory found => s!"expected a category name, found {found.describe}"
  | .missingCategory kind => s!"{kind.verb} requires a category name"
  | .forbiddenClause kind clause => s!"{kind.verb} does not allow a {clause.keyword} clause"
  | .missingClause kind clause => s!"{kind.verb} requires a {clause.keyword} clause"
  | .trailing found => s!"unexpected {found.describe}"
  | .unknownKey key category => s!"unknown key '{key}' in category '{category}'"
  | .expectedKey found => s!"expected a quoted key, found {describeNext found}"
  | .repeatedKey key => s!"key '{key}' is set more than once"
  | .expectedEquals key => s!"expected '=' after key '{key}'"
  | .memberOfListKey key => s!"key '{key}' is a list and cannot be used with IN"
  | .memberNeedsParameter key => s!"IN on key '{key}' requires a list parameter"
  | .expectedOperator key => s!"expected a comparison operator after key '{key}'"
  | .unordered op key type =>
      s!"operator {op.symbol} needs an ordered type, key '{key}' is {type.name}"
  | .unknownDirection word => s!"unknown sort direction '{word}'"
  | .expectedDirection key => s!"expected ASC or DSC after key '{key}'"
  | .limitOfType type => s!"LIMIT takes an int parameter, found {type.name}"
  | .limitNotPositive limit => s!"LIMIT must be positive, found {limit}"
  | .limitNotInt word => s!"LIMIT takes an int, found '{word}'"
  | .expectedLimit => "LIMIT takes an int"
  | .invalidLiteral word key => s!"invalid literal '{word}' for key '{key}'"
  | .expectedValue key found => s!"expected a value for key '{key}', found {describeNext found}"
  | .mistyped key expected actual =>
      s!"key '{key}' expects {expected.name}, found {actual.name}"

end FleetStore.Descriptor
