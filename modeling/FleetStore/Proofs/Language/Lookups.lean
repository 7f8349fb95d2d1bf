import FleetStore.Proofs.Language.Compile
import FleetStore.Proofs.Language.Literals
import FleetStore.Proofs.Language.Writing

/-! # Lookups

A lookup tests some keys of a record, each by a comparison with a parameter of the type of
the key, and sorts what it finds by one key. Written with single blanks between its tokens
it compiles for every category that has its keys, as long as the names of the category
and of the keys can be spelled.
-/

namespace FleetStore.Descriptor

/-! ## Tokens with single blanks between them -/

namespace Writing

/-- Tokens with a single blank between any two of them. -/
def spaced : List Token → Writing
  | [] => ⟨[], []⟩
  | t :: rest => ⟨⟨[], t⟩ :: rest.map (⟨[' '], ·⟩), []⟩

theorem isChain_of_gaps {p : Piece} {rest : List Piece} (gaps : ∀ q ∈ rest, q.gap ≠ []) :
    (p :: rest).IsChain fun p q => p.token.RunsInto q.token → q.gap ≠ [] := by
  induction rest generalizing p with
  | nil => exact .singleton _
  | cons q rest ih =>
      obtain ⟨first, others⟩ := List.forall_mem_cons.1 gaps
      exact .cons_cons (fun _ => first) (ih others)

theorem legal_spaced {tokens : List Token} (spellable : ∀ t ∈ tokens, t.Spellable) :
    (spaced tokens).Legal := by
  cases tokens with
  | nil => exact ⟨by simp [spaced], by simp [spaced], .nil, by simp [spaced]⟩
  | cons t rest =>
      have blank : Text.isBlank ' ' = true := by decide
      exact ⟨by simp [spaced, blank], by simpa [spaced] using spellable,
        isChain_of_gaps (by simp), by simp [spaced]⟩

theorem map_token_lexemesFrom (offset : Nat) (pieces : List Piece) :
    (lexemesFrom offset pieces).map Lexeme.token = pieces.map Piece.token := by
  induction pieces generalizing offset with
  | nil => rfl
  | cons p rest ih => simp [lexemesFrom, ih]

end Writing

/-- A text is cut into the tokens of which it is made up with single blanks. -/
theorem tokenize_spaced {tokens : List Token} (spellable : ∀ t ∈ tokens, t.Spellable) {text : String}
    (made : text.toList = (Writing.spaced tokens).text) :
    ∃ lexemes, tokenize text = .ok lexemes ∧ lexemes.map Lexeme.token = tokens := by
  refine ⟨(Writing.spaced tokens).lexemes, ?_, ?_⟩
  · rw [tokenize, made]
    exact (Writing.legal_spaced spellable).tokenizeFrom 0
  · rw [Writing.lexemes, Writing.map_token_lexemesFrom]
    cases tokens <;> simp [Writing.spaced, Function.comp_def]

/-! ## Tokens of chains and clauses -/

/-- What holds of the separator of a chain and of the tokens of its items holds of all its tokens. -/
theorem Syntax.Chain.forall_mem_tokens {α : Type} {P : Token → Prop} {item : α → List Token} {separator : Token}
    {chain : Syntax.Chain α} (between : P separator) (items : ∀ x ∈ chain.items, ∀ t ∈ item x, P t) :
    ∀ t ∈ chain.tokens item separator, P t := by
  obtain ⟨first, more⟩ := chain
  obtain ⟨one, others⟩ := List.forall_mem_cons.1 items
  refine List.forall_mem_append.2 ⟨one, fun t member => ?_⟩
  obtain ⟨x, inside, here⟩ := List.mem_flatMap.1 member
  exact List.forall_mem_cons.2 ⟨between, others x inside⟩ t here

theorem Syntax.forall_mem_clause {α : Type} {P : Token → Prop} {tokens : α → List Token} {keyword : String}
    {x : Option α} (word : P (.word keyword)) (inside : ∀ y ∈ x, ∀ t ∈ tokens y, P t) :
    ∀ t ∈ Syntax.clause keyword tokens x, P t := by
  cases x with
  | none => simp [Syntax.clause]
  | some y => exact List.forall_mem_cons.2 ⟨word, inside y rfl⟩

/-! ## Lookups -/

/-- Tests of keys that all have to be passed, a key to sort by, and the number of rows, if there is
a limit to it. -/
structure Lookup where
  tests : List (Key × Comparison)
  key : Key
  direction : SortDirection
  limit : Option Int32

open Syntax

namespace Lookup

/-- The test of a key against a parameter of its type. -/
def test (t : Key × Comparison) : Test :=
  .compare t.1.name t.2 (.parameter t.1.type)

def filter (q : Lookup) : Option Disjunction :=
  match q.tests with
  | [] => none
  | first :: more => some ⟨⟨test first, more.map test⟩, []⟩

/-- A lookup as it is written about a category. -/
def statement (q : Lookup) (category : String) : Statement where
  kind := .query .select
  category := category
  set := none
  filter := q.filter
  sort := some ⟨⟨q.key.name, q.direction⟩, []⟩
  limit := q.limit.map fun n => .word (toString n.toInt)

/-- What is written of a lookup after the name of its category, with single blanks. -/
def written (q : Lookup) : List Char :=
  Writing.textOf [] ((q.statement "").setTokens.map (⟨[' '], ·⟩))

theorem text_spaced (q : Lookup) (category : String) :
    (Writing.spaced (q.statement category).tokens).text =
      "QUERY ".toList ++ (category.toList ++ q.written) := by
  have verb : (q.statement category).kind.verb = "QUERY" := rfl
  have after : (q.statement category).setTokens = (q.statement "").setTokens := rfl
  have name : (q.statement category).category = category := rfl
  simp [Statement.tokens, verb, name, after, Writing.spaced, Writing.text, Writing.textOf,
    Token.spelling, written]

/-- Tests with the parameters from a number on. -/
def conditions (before : Nat) (tests : List (Key × Comparison)) : List Condition :=
  tests.mapIdx fun i t => .compare t.1 t.2 (.parameter (before + i))

theorem conditions_cons (before : Nat) (t : Key × Comparison) (rest : List (Key × Comparison)) :
    conditions before (t :: rest) =
      .compare t.1 t.2 (.parameter before) :: conditions (before + 1) rest := by
  simp [conditions, List.mapIdx_cons, Nat.add_assoc, Nat.add_comm 1]

def condition (q : Lookup) : Option Condition :=
  match conditions 0 q.tests with
  | [] => none
  | first :: more => some (more.foldl .and first)

/-- What a lookup comes to for a category. -/
def compiled (q : Lookup) (category descriptor : String) : Compiled where
  descriptor := descriptor
  category := category
  kind := .query .select
  signature := q.tests.map fun t => t.1.type
  assignments := []
  condition := q.condition
  sort := [(q.key, q.direction)]
  limit := q.limit.map fun n => .fixed n.toInt.toNat

/-- A category has the keys of a lookup under names that can be spelled, and the lookup asks for
the order of values only where there is one. -/
structure Fits (q : Lookup) (c : Category) : Prop where
  tests : ∀ t ∈ q.tests, c.key? t.1.name = some t.1 ∧ (Token.quoted t.1.name).Spellable ∧
    (t.2 ∈ orderings → t.1.type ∈ orderedTypes)
  key : c.key? q.key.name = some q.key ∧ (Token.quoted q.key.name).Spellable
  limit : ∀ n ∈ q.limit, 0 < n.toInt

variable {q : Lookup} {c : Category}

theorem tests_mean (before : List ValueType) {tests : List (Key × Comparison)}
    (known : ∀ t ∈ tests, c.key? t.1.name = some t.1 ∧
      (t.2 ∈ orderings → t.1.type ∈ orderedTypes)) :
    Each (Test.Means c) before (tests.map test) (conditions before.length tests)
      (before ++ tests.map fun t => t.1.type) := by
  induction tests generalizing before with
  | nil => simpa [conditions] using Each.nil
  | cons t rest ih =>
      obtain ⟨⟨found, ordered⟩, others⟩ := List.forall_mem_cons.1 known
      have later := ih (before ++ [t.1.type]) others
      have first : Test.Means c before (test t) (.compare t.1 t.2 (.parameter before.length))
          (before ++ [t.1.type]) := .compare found ordered .parameter
      rw [conditions_cons]
      simpa using Each.cons first later

theorem filter_means (fits : q.Fits c) :
    ClauseMeans (Disjunction.Means c) [] q.filter q.condition (q.tests.map fun t => t.1.type) := by
  have all := tests_mean [] fun t member => ⟨(fits.tests t member).1, (fits.tests t member).2.2⟩
  unfold filter condition
  cases tests : q.tests with
  | nil => exact .none
  | cons first more =>
      rw [tests, conditions_cons] at all
      rw [conditions_cons]
      let one : Conjunction := ⟨test first, more.map test⟩
      have conjunction : Conjunction.Means c [] one _ _ := .intro all
      have disjunction : Disjunction.Means c [] ⟨one, []⟩ _ _ := .intro (.cons conjunction .nil)
      exact .some disjunction

theorem means (fits : q.Fits c) (descriptor : String) :
    (q.statement c.name).Means c descriptor (q.compiled c.name descriptor) := by
  have sorted : ClauseMeans (SortKeysMean c) (q.tests.map fun t => t.1.type)
      (q.statement c.name).sort (some [(q.key, q.direction)]) (q.tests.map fun t => t.1.type) :=
    .some (.intro (.cons (.intro fits.key.1) .nil))
  have limited : ClauseMeans Term.Limits (q.tests.map fun t => t.1.type) (q.statement c.name).limit
      (q.limit.map fun n => .fixed n.toInt.toNat) (q.tests.map fun t => t.1.type) := by
    unfold statement
    cases limit : q.limit with
    | none => exact .none
    | some n => exact .some (.word _ n (literal?_toString_int n) (fits.limit n limit))
  have allowed : (q.statement c.name).Allowed := by
    simp [statement, Statement.Allowed]
  exact .intro rfl allowed .none (filter_means fits) sorted limited

theorem spellable_test {t : Key × Comparison} (key : (Token.quoted t.1.name).Spellable) :
    ∀ x ∈ (test t).tokens, x.Spellable := by
  rw [test, Test.tokens, Term.token]
  simpa using ⟨key, trivial, trivial⟩

theorem spellable_filter (fits : q.Fits c) :
    ∀ d ∈ q.filter, ∀ x ∈ d.tokens, x.Spellable := by
  have each : ∀ y ∈ q.tests.map test, ∀ x ∈ y.tokens, x.Spellable := by
    intro y member
    obtain ⟨t, inside, rfl⟩ := List.mem_map.1 member
    exact spellable_test (fits.tests t inside).2.1
  intro d written
  unfold filter at written
  split at written
  · contradiction
  · next first more tests =>
      rw [tests, List.map_cons] at each
      cases written
      have and : (Token.word "AND").Spellable := ⟨by decide, undelimited_of_all (by decide)⟩
      have or : (Token.word "OR").Spellable := ⟨by decide, undelimited_of_all (by decide)⟩
      refine Chain.forall_mem_tokens or fun conjunction one => ?_
      rw [List.mem_singleton.1 one]
      exact Chain.forall_mem_tokens and each

theorem spellable_tokens (fits : q.Fits c) (name : (Token.word c.name).Spellable) :
    ∀ t ∈ (q.statement c.name).tokens, t.Spellable := by
  have keyword {w : String} (some : w.toList ≠ [])
      (plain : w.toList.all (fun c => !isDelimiter c) = true) : (Token.word w).Spellable :=
    ⟨some, undelimited_of_all plain⟩
  have sorted : ∀ y ∈ (q.statement c.name).sort, ∀ t ∈ y.tokens SortKey.tokens .comma, t.Spellable := by
    rintro y ⟨⟩
    refine Chain.forall_mem_tokens trivial fun k one => ?_
    rw [List.mem_singleton.1 one]
    have direction : (Token.word q.direction.word).Spellable := by
      cases q.direction <;> exact keyword (by decide) (by decide)
    simpa [SortKey.tokens] using ⟨fits.key.2, direction⟩
  have limited : ∀ y ∈ (q.statement c.name).limit, ∀ t ∈ [y.token], t.Spellable := by
    intro y written
    obtain ⟨n, -, rfl⟩ := Option.map_eq_some_iff.1 written
    have number := spellable_toString n.toInt "" (by simp)
    rw [String.append_empty] at number
    simpa [Term.token] using number
  have verb : (Token.word (StatementKind.query .select).verb).Spellable :=
    keyword (by decide) (by decide)
  refine List.forall_mem_cons.2 ⟨verb, List.forall_mem_cons.2 ⟨name, ?_⟩⟩
  refine List.forall_mem_append.2 ⟨by simp [statement, clause], List.forall_mem_append.2 ⟨?_, ?_⟩⟩
  · exact forall_mem_clause (keyword (by decide) (by decide)) (spellable_filter fits)
  · exact List.forall_mem_append.2
      ⟨forall_mem_clause (keyword (by decide) (by decide)) sorted,
        forall_mem_clause (keyword (by decide) (by decide)) limited⟩

/-- A lookup that is written about a category it fits compiles, if the category can be named. -/
theorem compile (fits : q.Fits c) (name : (Token.word c.name).Spellable) {descriptor : String}
    (made : descriptor.toList = "QUERY ".toList ++ (c.name.toList ++ q.written)) :
    Descriptor.compile c descriptor = .ok (q.compiled c.name descriptor) := by
  rw [← q.text_spaced c.name] at made
  obtain ⟨lexemes, cut, tokens⟩ := tokenize_spaced (spellable_tokens fits name) made
  exact compile_ok_iff.2 ⟨lexemes, cut, _, tokens.symm, means fits descriptor⟩

end Lookup

end FleetStore.Descriptor
