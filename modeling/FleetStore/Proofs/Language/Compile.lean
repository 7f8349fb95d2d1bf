import FleetStore.Proofs.Except
import FleetStore.Proofs.Language.Clauses

/-! # The compiler accepts its language

A descriptor compiles exactly if its tokens are derivable from the grammar and the
tree is legal for the category, and it compiles to what the tree means.
-/

namespace FleetStore.Descriptor

open Syntax

variable {c : Category} {descriptor : String}

/-! ## Clauses -/

section Clause

variable {α β : Type} {kind : StatementKind} {clause : Clause} {read : Reader α}
variable {tokens : β → List Token} {means : List ValueType → β → α → List ValueType → Prop}
variable {follow : List Token → Prop} {s s' : State} {y : Option α}

theorem readClause_sound (reads : Reads read tokens means follow)
    (h : readClause kind clause read s = .ok (y, s')) :
    ∃ x, Takes s.rest (Syntax.clause clause.keyword tokens x) s'.rest ∧
      ClauseMeans means s.signature x y s'.signature ∧
      (x.isSome → clause.rule kind ≠ .forbidden) := by
  have absent {s' : State} (same : s' = s) : ∃ x : Option β,
      Takes s.rest (Syntax.clause clause.keyword tokens x) s'.rest ∧
      ClauseMeans means s.signature x none s'.signature ∧
      (x.isSome → clause.rule kind ≠ .forbidden) :=
    ⟨none, same ▸ .nil, same ▸ .none, by simp⟩
  unfold readClause at h
  split at h
  · next word offset rest found =>
      split at h
      · next keyword =>
          split at h
          · cases h
          · next allowed =>
              obtain ⟨x, inner, rfl⟩ := onValue_eq_ok_iff.1 h
              obtain ⟨tree, taken, meant, -⟩ := (reads _ _ _).1 inner
              subst keyword
              exact ⟨some tree, found ▸ .cons _ _ taken, .some meant, fun _ => allowed⟩
      · cases h
        exact absent rfl
  · cases h
    exact absent rfl

theorem readClause_complete (kind : StatementKind) (clause : Clause)
    (reads : Reads read tokens means follow) {x : Option β} {l rest : List Lexeme}
    {before after : List ValueType}
    (taken : Takes l (Syntax.clause clause.keyword tokens x) rest)
    (meant : ClauseMeans means before x y after)
    (allowed : x.isSome → clause.rule kind ≠ .forbidden) (follows : follow (upcoming rest))
    (stop : StopsAt (.word clause.keyword) (upcoming rest)) :
    readClause kind clause read ⟨l, before⟩ = .ok (y, ⟨rest, after⟩) := by
  cases meant with
  | none =>
      cases taken
      unfold readClause
      split
      · next word offset rest found =>
          simp only at found
          subst found
          rw [if_neg]
          rintro rfl
          exact stop rfl
      · rfl
  | some meant =>
      cases taken with
      | cons _ offset taken =>
          have inner := (reads ⟨_, before⟩ _ ⟨rest, after⟩).2 ⟨_, taken, meant, follows⟩
          simp only [readClause, if_true, if_neg (allowed rfl), inner]
          rfl

theorem requireClause_ok_iff {kind : StatementKind} {clause : Clause} {y : Option α} :
    requireClause kind clause y = .ok () ↔ (clause.rule kind = .required → y.isSome) := by
  unfold requireClause
  cases y <;> by_cases required : clause.rule kind = .required <;> simp [required]

theorem Syntax.ClauseMeans.isSome {before after : List ValueType} {x : Option β}
    (h : ClauseMeans means before x y after) : y.isSome = x.isSome := by
  cases h <;> rfl

end Clause

/-- Whether a statement has a clause. -/
def Syntax.Statement.has (s : Statement) : Clause → Bool
  | .set => s.set.isSome
  | .filter => s.filter.isSome
  | .sort => s.sort.isSome
  | .limit => s.limit.isSome

/-- The table of clauses says what the rules for each clause say. -/
theorem Syntax.Statement.allowed_iff (s : Statement) : s.Allowed ↔ ∀ clause : Clause,
    (s.has clause = true → clause.rule s.kind ≠ .forbidden) ∧
      (clause.rule s.kind = .required → s.has clause = true) := by
  obtain ⟨kind, category, set, filter, sort, limit⟩ := s
  constructor
  · intro allowed clause
    rcases kind with kind | kind <;> cases kind <;> cases clause <;>
      simp_all [Statement.Allowed, Statement.has, Clause.rule]
  · intro rules
    have set := rules .set
    have filter := rules .filter
    have sort := rules .sort
    have limit := rules .limit
    rcases kind with kind | kind <;> cases kind <;>
      simp_all [Statement.Allowed, Statement.has, Clause.rule]

/-! ## Statements -/

theorem verb_of_ofVerb? {word : String} {kind : StatementKind}
    (h : StatementKind.ofVerb? word = some kind) : kind.verb = word := by
  have found := List.find?_some h
  simpa using found

theorem readVerb_ok_iff {l rest : List Lexeme} {kind : StatementKind} :
    readVerb l = .ok (kind, rest) ↔ Takes l [.word kind.verb] rest := by
  constructor
  · intro h
    unfold readVerb at h
    split at h
    · cases h
    · split at h
      · next found =>
          cases h
          rw [verb_of_ofVerb? found]
          exact .cons _ _ .nil
      · cases h
    · cases h
  · intro taken
    cases taken with
    | cons _ offset more =>
        cases more
        simp only [readVerb, StatementKind.ofVerb?_verb]

theorem readCategory_ok_iff {kind : StatementKind} {l rest : List Lexeme} :
    readCategory c kind l = .ok rest ↔ Takes l [.word c.name] rest := by
  constructor
  · intro h
    unfold readCategory at h
    split at h
    · cases h
    · split at h
      · next same =>
          cases h
          rw [same]
          exact .cons _ _ .nil
      · cases h
    · cases h
  · intro taken
    cases taken with
    | cons _ offset more =>
        cases more
        simp only [readCategory, if_true]

theorem readClauses_sound {kind : StatementKind} {l : List Lexeme} {r : Compiled}
    (h : readClauses c descriptor kind l = .ok r) : ∃ s : Statement, s.kind = kind ∧
      s.category = c.name ∧ Takes l s.setTokens [] ∧ s.Means c descriptor r := by
  unfold readClauses at h
  obtain ⟨⟨assignments, s₁⟩, set, h⟩ := bind_eq_ok_iff.1 h
  obtain ⟨⟨condition, s₂⟩, filter, h⟩ := bind_eq_ok_iff.1 h
  obtain ⟨⟨sort, s₃⟩, sorted, h⟩ := bind_eq_ok_iff.1 h
  obtain ⟨⟨limit, s₄⟩, limited, h⟩ := bind_eq_ok_iff.1 h
  simp only at set filter sorted limited h
  split at h
  · cases h
  · next ended =>
      obtain ⟨_, needsSet, h⟩ := bind_eq_ok_iff.1 h
      obtain ⟨_, needsFilter, h⟩ := bind_eq_ok_iff.1 h
      obtain ⟨_, needsSort, h⟩ := bind_eq_ok_iff.1 h
      obtain ⟨_, needsLimit, h⟩ := bind_eq_ok_iff.1 h
      cases h
      obtain ⟨x₁, taken₁, meant₁, allowed₁⟩ := readClause_sound readAssignments_reads set
      obtain ⟨x₂, taken₂, meant₂, allowed₂⟩ := readClause_sound readCondition_reads filter
      obtain ⟨x₃, taken₃, meant₃, allowed₃⟩ := readClause_sound readSortKeys_reads sorted
      obtain ⟨x₄, taken₄, meant₄, allowed₄⟩ := readClause_sound readLimit_reads limited
      rw [requireClause_ok_iff, meant₁.isSome] at needsSet
      rw [requireClause_ok_iff, meant₂.isSome] at needsFilter
      rw [requireClause_ok_iff, meant₃.isSome] at needsSort
      rw [requireClause_ok_iff, meant₄.isSome] at needsLimit
      refine ⟨⟨kind, c.name, x₁, x₂, x₃, x₄⟩, rfl, rfl, ?_, ?_⟩
      · rw [ended] at taken₄
        exact taken₁.append (taken₂.append (taken₃.append taken₄))
      · refine .intro rfl ((Statement.allowed_iff _).2 fun clause => ?_) meant₁ meant₂ meant₃ meant₄
        cases clause with
        | set => exact ⟨allowed₁, needsSet⟩
        | filter => exact ⟨allowed₂, needsFilter⟩
        | sort => exact ⟨allowed₃, needsSort⟩
        | limit => exact ⟨allowed₄, needsLimit⟩

theorem readClauses_complete {s : Statement} {l : List Lexeme} {r : Compiled}
    (taken : Takes l s.setTokens []) (meant : s.Means c descriptor r) :
    readClauses c descriptor s.kind l = .ok r := by
  cases meant with
  | intro category allowed set filter sorted limited =>
      rename_i first second third signature assignments condition sort limit
      have rules := (Statement.allowed_iff s).1 allowed
      obtain ⟨m₁, taken₁, rest₁⟩ := taken.split
      obtain ⟨m₂, taken₂, rest₂⟩ := rest₁.split
      obtain ⟨m₃, taken₃, taken₄⟩ := rest₂.split
      have next₁ : upcoming m₁ = s.filterTokens := (takes_all_iff.1 rest₁).symm
      have next₂ : upcoming m₂ = s.sortTokens := (takes_all_iff.1 rest₂).symm
      have next₃ : upcoming m₃ = s.limitTokens := (takes_all_iff.1 taken₄).symm
      have setRead := readClause_complete s.kind .set readAssignments_reads taken₁ set
        (rules .set).1 ⟨trivial, next₁ ▸ s.goesOn_filter.stopsAt (by simp)⟩
        (next₁ ▸ s.goesOn_filter.stopsAt (by simp [Clause.keyword]))
      have filterRead := readClause_complete s.kind .filter readCondition_reads taken₂ filter
        (rules .filter).1
        ⟨⟨trivial, next₂ ▸ s.goesOn_sort.stopsAt (by simp)⟩,
          next₂ ▸ s.goesOn_sort.stopsAt (by simp)⟩
        (next₂ ▸ s.goesOn_sort.stopsAt (by simp [Clause.keyword]))
      have sortRead := readClause_complete s.kind .sort readSortKeys_reads taken₃ sorted
        (rules .sort).1 ⟨trivial, next₃ ▸ s.goesOn_limit.stopsAt (by simp)⟩
        (next₃ ▸ s.goesOn_limit.stopsAt (by simp [Clause.keyword]))
      have limitRead := readClause_complete s.kind .limit readLimit_reads taken₄ limited
        (rules .limit).1 trivial (by simp [StopsAt, upcoming])
      have needsSet : requireClause s.kind .set assignments = .ok () :=
        requireClause_ok_iff.2 fun required => set.isSome.trans ((rules .set).2 required)
      have needsFilter : requireClause s.kind .filter condition = .ok () :=
        requireClause_ok_iff.2 fun required => filter.isSome.trans ((rules .filter).2 required)
      have needsSort : requireClause s.kind .sort sort = .ok () :=
        requireClause_ok_iff.2 fun required => sorted.isSome.trans ((rules .sort).2 required)
      have needsLimit : requireClause s.kind .limit limit = .ok () :=
        requireClause_ok_iff.2 fun required => limited.isSome.trans ((rules .limit).2 required)
      unfold readClauses
      refine bind_eq_ok_iff.2 ⟨_, setRead, bind_eq_ok_iff.2 ⟨_, filterRead, bind_eq_ok_iff.2
        ⟨_, sortRead, bind_eq_ok_iff.2 ⟨_, limitRead, ?_⟩⟩⟩⟩
      exact bind_eq_ok_iff.2 ⟨_, needsSet, bind_eq_ok_iff.2 ⟨_, needsFilter, bind_eq_ok_iff.2
        ⟨_, needsSort, bind_eq_ok_iff.2 ⟨_, needsLimit, rfl⟩⟩⟩⟩

theorem readStatement_ok_iff {lexemes : List Lexeme} {r : Compiled} :
    readStatement c descriptor lexemes = .ok r ↔
      ∃ s : Statement, s.tokens = upcoming lexemes ∧ s.Means c descriptor r := by
  unfold readStatement
  constructor
  · intro h
    obtain ⟨⟨kind, l⟩, verb, h⟩ := bind_eq_ok_iff.1 h
    obtain ⟨m, category, h⟩ := bind_eq_ok_iff.1 h
    obtain ⟨s, rfl, named, taken, meant⟩ := readClauses_sound h
    have whole := (readVerb_ok_iff.1 verb).append ((readCategory_ok_iff.1 category).append taken)
    rw [← named] at whole
    exact ⟨s, takes_all_iff.1 whole, meant⟩
  · rintro ⟨s, same, meant⟩
    have whole := takes_all_iff.2 same
    obtain ⟨l, verb, rest⟩ : ∃ l, Takes lexemes [.word s.kind.verb] l ∧
      Takes l (.word s.category :: s.setTokens) [] := Takes.split whole
    obtain ⟨m, category, taken⟩ : ∃ m, Takes l [.word s.category] m ∧ Takes m s.setTokens [] :=
      Takes.split rest
    refine bind_eq_ok_iff.2 ⟨_, readVerb_ok_iff.2 verb, bind_eq_ok_iff.2 ⟨m, ?_, ?_⟩⟩
    · cases meant with
      | intro named => exact readCategory_ok_iff.2 (named ▸ category)
    · exact readClauses_complete taken meant

theorem compile_ok_iff {r : Compiled} : compile c descriptor = .ok r ↔
    ∃ lexemes, tokenize descriptor = .ok lexemes ∧
      ∃ s : Statement, s.tokens = upcoming lexemes ∧ s.Means c descriptor r := by
  unfold compile
  cases tokenize descriptor with
  | error fault => simp
  | ok lexemes =>
      simp only [Except.ok.injEq, exists_eq_left', ← readStatement_ok_iff]
      cases readStatement c descriptor lexemes <;> simp

/-- What compiles is about the category that it is compiled against. -/
theorem compile_category {r : Compiled} (h : compile c descriptor = .ok r) : r.category = c.name := by
  obtain ⟨_, _, s, _, meant⟩ := compile_ok_iff.1 h
  cases meant with
  | intro => rfl

/-- A descriptor compiles exactly if it can be cut into tokens and these are derivable from
the grammar by a tree that is legal for the category. The tree is the only one for
these tokens, and the result is what it means: its kind, its assignments and sort keys
in their order, its condition with `NOT` binding before `AND` and `AND` before `OR`,
both to the left, its limit, and the types of its parameters in their order. -/
theorem compile_ok_iff_derivable (c : Category) (descriptor : String) (r : Compiled) :
    compile c descriptor = .ok r ↔ ∃ lexemes, tokenize descriptor = .ok lexemes ∧
      ∃ s : Statement, (s.tokens = lexemes.map Lexeme.token ∧ s.Means c descriptor r) ∧
        ∀ t : Statement, t.tokens = lexemes.map Lexeme.token → t = s := by
  rw [compile_ok_iff]
  constructor
  · rintro ⟨lexemes, cut, s, same, meant⟩
    exact ⟨lexemes, cut, s, ⟨same, meant⟩, fun t other => Statement.tokens_inj (other.trans same.symm)⟩
  · rintro ⟨lexemes, cut, s, derived, -⟩
    exact ⟨lexemes, cut, s, derived⟩

end FleetStore.Descriptor
