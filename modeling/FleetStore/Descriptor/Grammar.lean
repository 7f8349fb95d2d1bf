import FleetStore.Descriptor.Compiled
import FleetStore.Descriptor.Fault
import FleetStore.Descriptor.Literal

/-! # Parsing tokens against a category

The parser goes once through the tokens, from left to right, and checks every
key, type and clause as it meets them, so that the first fault in the text is
the one reported. The parts of a statement that repeat, namely assignments,
sort keys, conjuncts and disjuncts, are all sequences of items with a separator
between them; `sequence` is the one loop that reads them.
-/

namespace FleetStore.Descriptor

/-- What is left to read, and the types of the parameters met so far. -/
structure State where
  rest : List Lexeme
  signature : List ValueType

/-- A reader of a part of a statement. -/
abbrev Reader (α : Type) : Type := State → Except Fault (α × State)

def onValue {α β : Type} (f : α → β) (result : Except Fault (α × State)) :
    Except Fault (β × State) :=
  result.map fun p => (f p.1, p.2)

theorem onValue_eq_ok_iff {α β : Type} {f : α → β} {result : Except Fault (α × State)} {y : β}
    {s : State} : onValue f result = .ok (y, s) ↔ ∃ x, result = .ok (x, s) ∧ f x = y := by
  rcases result with fault | ⟨x, t⟩
  · simp [onValue, Except.map]
  · simp only [onValue, Except.map, Except.ok.injEq, Prod.mk.injEq]
    constructor
    · rintro ⟨rfl, rfl⟩; exact ⟨x, ⟨rfl, rfl⟩, rfl⟩
    · rintro ⟨z, ⟨rfl, rfl⟩, rfl⟩; exact ⟨rfl, rfl⟩

/-- A reader that never leaves more tokens than it was given. -/
def Consuming {α : Type} (read : Reader α) : Prop :=
  ∀ s x s', read s = .ok (x, s') → s'.rest.length ≤ s.rest.length

/-! ## Keys and terms -/

def readKey (c : Category) : Reader Key := fun s =>
  match s.rest with
  | ⟨.quoted name, _⟩ :: rest =>
      match c.key? name with
      | some key => .ok (key, { s with rest })
      | none => .error (.unknownKey name c.name)
  | rest => .error (.expectedKey rest.head?)

/-- Passes a term on if it has the type that its place demands. -/
def ensureType (key : Key) (expected actual : ValueType) (term : Term) (s : State) :
    Except Fault (Term × State) :=
  if actual = expected then .ok (term, s) else .error (.mistyped key.name expected actual)

/-- A parameter or a literal of the given type. A parameter takes the next index. -/
def readTerm (key : Key) (expected : ValueType) : Reader Term := fun s =>
  match s.rest with
  | ⟨.parameter type, _⟩ :: rest =>
      ensureType key expected type (.parameter s.signature.length)
        ⟨rest, s.signature ++ [type]⟩
  | ⟨.quoted text, _⟩ :: rest =>
      ensureType key expected (.scalar .string) (.literal (.string text)) { s with rest }
  | ⟨.word word, _⟩ :: rest =>
      match literal? word with
      | some value => ensureType key expected value.type (.literal value) { s with rest }
      | none => .error (.invalidLiteral word key.name)
  | rest => .error (.expectedValue key.name rest.head?)

theorem readKey_consuming (c : Category) : Consuming (readKey c) := by
  intro s x s' h
  unfold readKey at h
  split at h
  · next rest found =>
      split at h
      · cases h; simp [found]
      · cases h
  · cases h

theorem ensureType_state {key : Key} {expected actual : ValueType} {term x : Term} {s s' : State}
    (h : ensureType key expected actual term s = .ok (x, s')) : s' = s := by
  unfold ensureType at h
  split at h <;> cases h
  rfl

theorem readTerm_consuming (key : Key) (expected : ValueType) :
    Consuming (readTerm key expected) := by
  intro s x s' h
  unfold readTerm at h
  split at h
  · next found => rw [ensureType_state h]; simp [found]
  · next found => rw [ensureType_state h]; simp [found]
  · next found =>
      split at h
      · rw [ensureType_state h]; simp [found]
      · cases h
  · cases h

/-! ## Sequences -/

/-- Further items, each after a separator. An item may look at the items before it. -/
def readMore {α : Type} (item : List α → Reader α) (consuming : ∀ seen, Consuming (item seen))
    (separator : Token) (seen : List α) (s : State) : Except Fault (List α × State) :=
  match found : s.rest with
  | [] => .ok ([], s)
  | l :: rest =>
      if l.token = separator then
        match h : item seen { s with rest } with
        | .error fault => .error fault
        | .ok (x, s') =>
            have : s'.rest.length < s.rest.length := by
              have := consuming seen _ _ _ h
              simp only [found, List.length_cons]
              simp only at this
              omega
            onValue (x :: ·) (readMore item consuming separator (seen ++ [x]) s')
      else .ok ([], s)
termination_by s.rest.length

/-- One item at least, and separators between the items. -/
def sequence {α : Type} (item : List α → Reader α) (consuming : ∀ seen, Consuming (item seen))
    (separator : Token) : Reader (α × List α) := fun s =>
  match item [] s with
  | .error fault => .error fault
  | .ok (first, s) =>
      onValue (first, ·) (readMore item consuming separator [first] s)

theorem readMore_consuming {α : Type} (item : List α → Reader α)
    (consuming : ∀ seen, Consuming (item seen)) (separator : Token) (seen : List α) :
    Consuming (readMore item consuming separator seen) := by
  intro s
  fun_induction readMore item consuming separator seen s with
  | case1 seen s found =>
      intro x s' h
      cases h
      simp
  | case2 seen s l rest found same fault h =>
      intro x s' h
      cases h
  | case3 seen s l rest found same y t h shorter ih =>
      intro x s' result
      obtain ⟨more, inner, _⟩ := onValue_eq_ok_iff.1 result
      have := ih more s' inner
      omega
  | case4 seen s l rest found different =>
      intro x s' h
      cases h
      simp

theorem sequence_consuming {α : Type} (item : List α → Reader α)
    (consuming : ∀ seen, Consuming (item seen)) (separator : Token) :
    Consuming (sequence item consuming separator) := by
  intro s x s' h
  unfold sequence at h
  split at h
  · cases h
  · next first t start =>
      obtain ⟨more, inner, _⟩ := onValue_eq_ok_iff.1 h
      have one := consuming [] _ _ _ start
      have others := readMore_consuming item consuming separator [first] t more s' inner
      omega

/-! ## Assignments -/

/-- One assignment; its key must not be among those already set. -/
def readAssignment (c : Category) (seen : List (Key × Term)) : Reader (Key × Term) := fun s =>
  match readKey c s with
  | .error fault => .error fault
  | .ok (key, s) =>
      if seen.any fun a => a.1.name == key.name then .error (.repeatedKey key.name)
      else
        match s.rest with
        | ⟨.operator .equal, _⟩ :: rest =>
            onValue (key, ·) (readTerm key key.type { s with rest })
        | _ => .error (.expectedEquals key.name)

theorem readAssignment_consuming (c : Category) (seen : List (Key × Term)) :
    Consuming (readAssignment c seen) := by
  intro s x s' h
  unfold readAssignment at h
  split at h
  · cases h
  · next key t start =>
      have one := readKey_consuming c _ _ _ start
      split at h
      · cases h
      · split at h
        · next rest found =>
            obtain ⟨term, inner, _⟩ := onValue_eq_ok_iff.1 h
            have two := readTerm_consuming key key.type _ _ _ inner
            simp only at two
            rw [found, List.length_cons] at one
            omega
        · cases h

def readAssignments (c : Category) : Reader (List (Key × Term)) := fun s =>
  onValue (fun p => p.1 :: p.2)
    (sequence (readAssignment c) (readAssignment_consuming c) .comma s)

/-! ## Conditions -/

def readMembership (key : Key) : Reader Condition := fun s =>
  match key.type.listOf? with
  | none => .error (.memberOfListKey key.name)
  | some type =>
      match s.rest with
      | ⟨.parameter _, _⟩ :: _ =>
          onValue (.member key) (readTerm key type s)
      | _ => .error (.memberNeedsParameter key.name)

def readOperand (key : Key) (op : Comparison) : Reader Condition := fun s =>
  if op.isOrdering && !key.type.isOrdered then .error (.unordered op key.name key.type)
  else onValue (.compare key op) (readTerm key key.type s)

/-- A comparison or a membership test. -/
def readComparison (c : Category) : Reader Condition := fun s =>
  match readKey c s with
  | .error fault => .error fault
  | .ok (key, s) =>
      match s.rest with
      | ⟨.word "IN", _⟩ :: rest => readMembership key { s with rest }
      | ⟨.operator op, _⟩ :: rest => readOperand key op { s with rest }
      | _ => .error (.expectedOperator key.name)

/-- A comparison after any number of `NOT`s. -/
def readNegations (c : Category) (signature : List ValueType) :
    List Lexeme → Except Fault (Condition × State)
  | ⟨.word "NOT", _⟩ :: rest => onValue .not (readNegations c signature rest)
  | lexemes => readComparison c ⟨lexemes, signature⟩

/-- A condition without `AND` and `OR`. -/
def readUnary (c : Category) : Reader Condition := fun s =>
  readNegations c s.signature s.rest

theorem readComparison_consuming (c : Category) : Consuming (readComparison c) := by
  intro s x s' h
  unfold readComparison at h
  split at h
  · cases h
  · next key t start =>
      have one := readKey_consuming c _ _ _ start
      split at h
      · next rest found =>
          rw [found, List.length_cons] at one
          unfold readMembership at h
          split at h
          · cases h
          · split at h
            · obtain ⟨term, inner, _⟩ := onValue_eq_ok_iff.1 h
              have := readTerm_consuming key _ _ _ _ inner
              simp only at this
              omega
            · cases h
      · next rest found =>
          rw [found, List.length_cons] at one
          unfold readOperand at h
          split at h
          · cases h
          · obtain ⟨term, inner, _⟩ := onValue_eq_ok_iff.1 h
            have := readTerm_consuming key _ _ _ _ inner
            simp only at this
            omega
      · cases h

theorem readNegations_length (c : Category) (signature : List ValueType) (l : List Lexeme) :
    ∀ x s', readNegations c signature l = .ok (x, s') → s'.rest.length ≤ l.length := by
  fun_induction readNegations c signature l with
  | case1 rest offset ih =>
      intro x s' h
      obtain ⟨e, inner, _⟩ := onValue_eq_ok_iff.1 h
      have := ih e s' inner
      simp only [List.length_cons]
      omega
  | case2 l notNegated =>
      intro x s' h
      exact readComparison_consuming c _ _ _ h

theorem readUnary_consuming (c : Category) : Consuming (readUnary c) :=
  fun s => readNegations_length c s.signature s.rest

/-- Conditions joined by `AND`, which associates to the left. -/
def readConjunction (c : Category) : Reader Condition := fun s =>
  onValue (fun p => p.2.foldl .and p.1)
    (sequence (fun _ => readUnary c) (fun _ => readUnary_consuming c) (.word "AND") s)

theorem readConjunction_consuming (c : Category) : Consuming (readConjunction c) := by
  intro s x s' h
  obtain ⟨items, inner, _⟩ := onValue_eq_ok_iff.1 h
  exact sequence_consuming _ _ _ s items s' inner

/-- Conjunctions joined by `OR`, which associates to the left. -/
def readCondition (c : Category) : Reader Condition := fun s =>
  onValue (fun p => p.2.foldl .or p.1)
    (sequence (fun _ => readConjunction c) (fun _ => readConjunction_consuming c) (.word "OR") s)

/-! ## Sort keys and limits -/

def readSortKey (c : Category) : Reader (Key × SortDirection) := fun s =>
  match readKey c s with
  | .error fault => .error fault
  | .ok (key, s) =>
      match s.rest with
      | ⟨.word word, _⟩ :: rest =>
          match SortDirection.ofWord? word with
          | some direction => .ok ((key, direction), { s with rest })
          | none => .error (.unknownDirection word)
      | _ => .error (.expectedDirection key.name)

theorem readSortKey_consuming (c : Category) : Consuming (readSortKey c) := by
  intro s x s' h
  unfold readSortKey at h
  split at h
  · cases h
  · next key t start =>
      have one := readKey_consuming c _ _ _ start
      split at h
      · next found =>
          rw [found, List.length_cons] at one
          split at h
          · cases h
            simp only
            omega
          · cases h
      · cases h

def readSortKeys (c : Category) : Reader (List (Key × SortDirection)) := fun s =>
  onValue (fun p => p.1 :: p.2)
    (sequence (fun _ => readSortKey c) (fun _ => readSortKey_consuming c) .comma s)

/-- The value of `LIMIT`: an `int` parameter or a positive 32-bit literal. -/
def readLimit : Reader Limit := fun s =>
  match s.rest with
  | ⟨.parameter (.scalar .int), _⟩ :: rest =>
      .ok (.parameter s.signature.length, ⟨rest, s.signature ++ [.scalar .int]⟩)
  | ⟨.parameter type, _⟩ :: _ => .error (.limitOfType type)
  | ⟨.word word, _⟩ :: rest =>
      match (Text.readInt? word.toList).bind Text.int32? with
      | none => .error (.limitNotInt word)
      | some n =>
          if 0 < n.toInt then .ok (.fixed n.toInt.toNat, { s with rest })
          else .error (.limitNotPositive n.toInt)
  | _ => .error .expectedLimit

/-! ## Statements -/

/-- Whether a statement must, may or must not have a clause. -/
inductive ClauseRule where
  | required
  | optional
  | forbidden
deriving DecidableEq, Repr

/-- The clauses of each kind of statement. -/
def Clause.rule : StatementKind → Clause → ClauseRule
  | .write .add, .set => .required
  | .write .replace, .set => .required
  | .write .replace, .filter => .required
  | .write .update, .set => .required
  | .write .update, .filter => .required
  | .write .remove, .filter => .optional
  | .query .select, .set => .forbidden
  | .query .select, _ => .optional
  | .query .count, .filter => .optional
  | _, _ => .forbidden

def readClause {α : Type} (kind : StatementKind) (clause : Clause) (read : Reader α) :
    Reader (Option α) := fun s =>
  match s.rest with
  | ⟨.word word, _⟩ :: rest =>
      if word = clause.keyword then
        if clause.rule kind = .forbidden then .error (.forbiddenClause kind clause)
        else onValue some (read { s with rest })
      else .ok (none, s)
  | _ => .ok (none, s)

/-- Fails if a clause is missing that the kind of statement requires. -/
def requireClause {α : Type} (kind : StatementKind) (clause : Clause) (found : Option α) :
    Except Fault Unit :=
  if clause.rule kind = .required ∧ found.isNone then .error (.missingClause kind clause)
  else .ok ()

/-- The clauses of a statement, in their order, with nothing after them. -/
def readClauses (c : Category) (descriptor : String) (kind : StatementKind)
    (rest : List Lexeme) : Except Fault Compiled := do
  let (set, s) ← readClause kind .set (readAssignments c) ⟨rest, []⟩
  let (condition, s) ← readClause kind .filter (readCondition c) s
  let (sort, s) ← readClause kind .sort (readSortKeys c) s
  let (limit, s) ← readClause kind .limit readLimit s
  match s.rest with
  | found :: _ => .error (.trailing found)
  | [] => do
      requireClause kind .set set
      requireClause kind .filter condition
      requireClause kind .sort sort
      requireClause kind .limit limit
      return {
        descriptor, category := c.name, kind, signature := s.signature
        assignments := set.getD [], condition, sort := sort.getD [], limit }

def readVerb : List Lexeme → Except Fault (StatementKind × List Lexeme)
  | [] => .error .empty
  | ⟨.word word, _⟩ :: rest =>
      match StatementKind.ofVerb? word with
      | some kind => .ok (kind, rest)
      | none => .error (.unknownVerb word)
  | l :: _ => .error (.expectedVerb l.token)

/-- The name of the category, which must be the one given. -/
def readCategory (c : Category) (kind : StatementKind) :
    List Lexeme → Except Fault (List Lexeme)
  | [] => .error (.missingCategory kind)
  | ⟨.word word, _⟩ :: rest =>
      if word = c.name then .ok rest else .error (.otherCategory word c.name)
  | l :: _ => .error (.expectedCategory l.token)

def readStatement (c : Category) (descriptor : String) (lexemes : List Lexeme) :
    Except Fault Compiled := do
  let (kind, rest) ← readVerb lexemes
  let rest ← readCategory c kind rest
  readClauses c descriptor kind rest

/-- A descriptor that does not compile, and why. -/
structure Error where
  descriptor : String
  fault : Fault
deriving DecidableEq, Repr

def Error.message (e : Error) : String :=
  s!"failed to parse descriptor '{e.descriptor}': {e.fault.message}"

def compile (c : Category) (descriptor : String) : Except Error Compiled :=
  match tokenize descriptor with
  | .error (fault, offset) => .error ⟨descriptor, .token fault offset⟩
  | .ok lexemes => (readStatement c descriptor lexemes).mapError fun fault => ⟨descriptor, fault⟩

end FleetStore.Descriptor
