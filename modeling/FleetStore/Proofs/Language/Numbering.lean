import FleetStore.Proofs.Language.Compile

/-! # Parameters are numbered as they stand in the text

A parameter gets the number of the parameters that stand before it, and the signature grows
by its type. So the places for parameters in what a text compiles to, read from the
first assignment to the limit, have the numbers of the signature one after another,
and each place demands the type that the signature has for it.
-/

namespace FleetStore.Descriptor

open Syntax

/-- The types of the parameters among some tokens, in their order. -/
def parameterTypes (tokens : List Token) : List ValueType :=
  tokens.filterMap fun
    | .parameter type => some type
    | _ => none

/-! ## Places for parameters -/

/-- The number of a parameter, and the type that is demanded where it stands. -/
abbrev Place : Type := Nat × Option ValueType

def Term.places (demanded : Option ValueType) : Descriptor.Term → List Place
  | .parameter index => [(index, demanded)]
  | .literal _ => []

/-- The places of a condition from left to right. A comparison demands the type of its key, and
a membership the type of the lists of it. -/
def Condition.places : Condition → List Place
  | .compare key _ term => term.places (some key.type)
  | .member key term => term.places key.type.listOf?
  | .not e => e.places
  | .and l r => l.places ++ r.places
  | .or l r => l.places ++ r.places

def Limit.places : Limit → List Place
  | .fixed _ => []
  | .parameter index => [(index, some (.scalar .int))]

def assignmentPlaces (a : Key × Descriptor.Term) : List Place :=
  a.2.places (some a.1.type)

/-- The places of a statement: those of its assignments, of its condition and of its limit. -/
def Compiled.places (r : Compiled) : List Place :=
  r.assignments.flatMap assignmentPlaces ++ r.condition.elim [] Condition.places ++
    r.limit.elim [] Limit.places

/-- Types with the numbers from a first one on. -/
def numbered (first : Nat) (types : List ValueType) : List Place :=
  types.mapIdx fun i type => (first + i, some type)

theorem numbered_append (first : Nat) (types more : List ValueType) :
    numbered first (types ++ more) =
      numbered first types ++ numbered (first + types.length) more := by
  simp [numbered, List.mapIdx_append, Nat.add_assoc, Nat.add_comm types.length]

/-! ## What parts of a statement number -/

/-- What a part means has the parameters among the tokens of the part for its places, with the
numbers that come next. -/
def Numbers {α β : Type} (means : List ValueType → α → β → List ValueType → Prop)
    (tokens : α → List Token) (places : β → List Place) : Prop :=
  ∀ {before x y after}, means before x y after →
    after = before ++ parameterTypes (tokens x) ∧
      places y = numbered before.length (parameterTypes (tokens x))

section

variable {α β : Type} {means : List ValueType → α → β → List ValueType → Prop}
variable {tokens : α → List Token} {places : β → List Place}

theorem Numbers.each (item : Numbers means tokens places) :
    Numbers (Each means) (fun xs => xs.flatMap tokens) (fun ys => ys.flatMap places) := by
  intro before xs ys after h
  induction h with
  | nil => simp [parameterTypes, numbered]
  | cons first _ ih =>
      -- The rest goes on to count where the first item has stopped.
      obtain ⟨rfl, head⟩ := item first
      obtain ⟨rfl, tail⟩ := ih
      simp only [List.flatMap_cons, parameterTypes, List.filterMap_append] at head tail ⊢
      exact ⟨List.append_assoc _ _ _, by rw [head, tail, numbered_append, List.length_append]⟩

/-- Separators are no parameters. -/
theorem parameterTypes_chain {separator : Token} (separates : parameterTypes [separator] = [])
    (c : Chain α) :
    parameterTypes (c.tokens tokens separator) = parameterTypes (c.items.flatMap tokens) := by
  have after (l : List α) : parameterTypes (Chain.tokensAfter tokens separator l) =
      parameterTypes (l.flatMap tokens) := by
    induction l with
    | nil => rfl
    | cons x l ih =>
        simp only [parameterTypes, Chain.tokensAfter, List.flatMap_cons, List.filterMap_append,
          List.filterMap_cons] at separates ih ⊢
        split at separates <;> simp_all
  have more := after c.more
  simp only [Chain.tokens, Chain.items, List.flatMap_cons, parameterTypes, List.filterMap_append]
    at more ⊢
  rw [more]

theorem Numbers.clause (item : Numbers means tokens places) (keyword : String) :
    Numbers (ClauseMeans means) (clause keyword tokens) (fun y => y.elim [] places) := by
  intro before x y after h
  cases h with
  | none => simp [Syntax.clause, parameterTypes, numbered]
  | some present => exact item present

end

/-! ## Terms and conditions -/

variable {c : Category} {descriptor : String}

theorem term_numbers (type : ValueType) :
    Numbers (Syntax.Term.Means type) (fun t => [t.token]) (Term.places (some type)) := by
  intro before x y after h
  cases h with
  | parameter => simp [parameterTypes, numbered, Syntax.Term.token, Term.places]
  | quoted | word => simp [parameterTypes, numbered, Syntax.Term.token, Term.places]

theorem test_numbers : Numbers (Test.Means c) Test.tokens Condition.places := by
  intro before t e after h
  induction h with
  | not _ ih => exact ih
  | compare _ _ typed => exact term_numbers _ typed
  | @member name key type _ single =>
      simp [parameterTypes, numbered, Test.tokens, Syntax.Term.token, Condition.places, Term.places,
        single, ValueType.listOf?]

/-- Conditions that are joined to the left keep their places in order. -/
theorem places_foldl {join : Condition → Condition → Condition}
    (joined : ∀ l r, (join l r).places = l.places ++ r.places) (e : Condition)
    (es : List Condition) :
    (es.foldl join e).places = (e :: es).flatMap Condition.places := by
  induction es generalizing e with
  | nil => simp
  | cons next es ih => rw [List.foldl_cons, ih]; simp [joined]

theorem conjunction_numbers :
    Numbers (Conjunction.Means c) Conjunction.tokens Condition.places := by
  intro before tests e after h
  cases h with
  | intro all =>
      rw [Conjunction.tokens, parameterTypes_chain rfl, places_foldl fun _ _ => rfl]
      exact test_numbers.each all

theorem disjunction_numbers :
    Numbers (Disjunction.Means c) Disjunction.tokens Condition.places := by
  intro before conjunctions e after h
  cases h with
  | intro all =>
      rw [Disjunction.tokens, parameterTypes_chain rfl, places_foldl fun _ _ => rfl]
      exact conjunction_numbers.each all

/-! ## The other clauses -/

theorem assignment_numbers :
    Numbers (Assignment.Means c) Assignment.tokens assignmentPlaces := by
  intro before a b after h
  cases h with
  | intro _ typed => exact term_numbers _ typed

theorem assignments_number : Numbers (AssignmentsMean c)
    (Chain.tokens Assignment.tokens .comma) (fun l => l.flatMap assignmentPlaces) := by
  intro before l r after h
  cases h with
  | intro all =>
      rw [parameterTypes_chain rfl]
      exact assignment_numbers.each all

/-- Sort keys have no places for parameters. -/
theorem sortKey_numbers : Numbers (SortKey.Means c) SortKey.tokens (fun _ => []) := by
  intro before k r after h
  cases h with
  | intro => simp [parameterTypes, numbered, SortKey.tokens]

theorem sortKeys_number : Numbers (SortKeysMean c)
    (Chain.tokens SortKey.tokens .comma) (fun l => l.flatMap fun _ => []) := by
  intro before l r after h
  cases h with
  | intro all =>
      rw [parameterTypes_chain rfl]
      exact sortKey_numbers.each all

theorem limit_numbers : Numbers Syntax.Term.Limits (fun t => [t.token]) Limit.places := by
  intro before t l after h
  cases h with
  | parameter => simp [parameterTypes, numbered, Syntax.Term.token, Limit.places]
  | word => simp [parameterTypes, numbered, Syntax.Term.token, Limit.places]

/-! ## Statements -/

/-- The places of a legal statement are numbered by the parameters among its tokens. -/
theorem Syntax.Statement.Means.numbered {s : Statement} {r : Compiled}
    (h : s.Means c descriptor r) :
    r.signature = parameterTypes s.tokens ∧ r.places = Descriptor.numbered 0 r.signature := by
  cases h with
  | intro category allowed set filter sorted limited =>
      rename_i first second third signature assignments condition sort limit
      obtain ⟨rfl, setPlaces⟩ := assignments_number.clause "SET" set
      obtain ⟨rfl, filterPlaces⟩ := disjunction_numbers.clause "WHERE" filter
      obtain ⟨rfl, sortPlaces⟩ := sortKeys_number.clause "SORT" sorted
      obtain ⟨rfl, limitPlaces⟩ := limit_numbers.clause "LIMIT" limited
      have assigned : (assignments.getD []).flatMap assignmentPlaces =
          assignments.elim [] fun l => l.flatMap assignmentPlaces := by
        cases assignments <;> rfl
      -- Sort keys have no parameters, so the limit counts on from the condition.
      have unsorted : (sort.elim [] fun l => l.flatMap fun _ => []) = ([] : List Place) := by
        cases sort <;> simp
      replace sortPlaces := (unsorted.symm.trans sortPlaces).symm
      simp only [List.nil_append, List.length_nil] at setPlaces filterPlaces sortPlaces limitPlaces
      constructor
      · simp [Statement.tokens, Statement.setTokens, Statement.filterTokens, Statement.sortTokens,
          Statement.limitTokens, parameterTypes]
      · simp only [Compiled.places, assigned, setPlaces, filterPlaces, limitPlaces, List.nil_append,
          numbered_append, Nat.zero_add, sortPlaces, List.append_nil]

/-- A text that compiles has the types of its parameters for the signature of what it compiles to,
and the places of the statement are numbered by it. -/
theorem compile_numbered {r : Compiled} (h : compile c descriptor = .ok r) :
    ∃ lexemes, tokenize descriptor = .ok lexemes ∧
      r.signature = parameterTypes (lexemes.map Lexeme.token) ∧
        r.places = numbered 0 r.signature := by
  obtain ⟨lexemes, cut, s, same, meant⟩ := compile_ok_iff.1 h
  obtain ⟨signature, places⟩ := meant.numbered
  exact ⟨lexemes, cut, signature.trans (congrArg parameterTypes same), places⟩

end FleetStore.Descriptor
