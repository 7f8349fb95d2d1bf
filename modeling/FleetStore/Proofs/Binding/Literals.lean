import FleetStore.Proofs.Binding.Matching
import FleetStore.Proofs.Language.Inlining

/-! # A literal means what its value means

Where a parameter may stand for a value, the literal for the value may stand as well. The rules for
parameters and for literals meet in terms and in limits: a statement with literals in the place of
some of its parameters compiles, and with the values of the other parameters it comes
to the same bound statement.
-/

namespace FleetStore.Descriptor

open Syntax

/-! ## Terms and conditions -/

variable {c : Category}

/-- The number of a parameter is that of the values before its own. -/
theorem getD_parameter {pre post : List Value} {v : Value} {before : List ValueType}
    (room : pre.length = before.length) : (pre ++ [v] ++ post).getD before.length default = v := by
  rw [← room, List.append_assoc, List.getD_eq_getElem?_getD,
    List.getElem?_append_right (Nat.le_refl _)]
  simp

theorem resolve_parameter {pre post : List Value} {v z : Value} {before : List ValueType}
    (room : pre.length = before.length) :
    resolvesBy Descriptor.Term.resolve (pre ++ [v] ++ post) (.parameter before.length) z ↔
      v = z := by
  rw [resolvesBy, Term.resolve, getD_parameter room]

/-- The literal for a value of the type that is expected means this value. -/
theorem exists_literal {type : ValueType} {v : Value} {literal : Token}
    (written : literalFor? v = some literal) (typed : v.type = type) :
    ∃ t : Syntax.Term, [t.token] = [literal] ∧ parameterTypes [literal] = [] ∧
      ∀ before, Syntax.Term.Means type before t (.literal v) before := by
  rcases literalFor?_cases written with ⟨text, rfl, rfl, -⟩ | ⟨word, rfl, stands, -⟩
  · exact ⟨.quoted text, rfl, rfl, fun _ => .quoted text typed.symm⟩
  · exact ⟨.word word, rfl, rfl, fun _ => .word word v stands typed⟩

theorem term_inlines (type : ValueType) :
    Inlines (Syntax.Term.Means type) (fun t => [t.token]) (resolvesBy Descriptor.Term.resolve) := by
  intro before t y after h values inlined rest pre post z tail room resolved before'
  cases h with
  | parameter =>
      cases tail with
      | plain other => exact absurd rfl (other _)
      | @kept _ v _ _ _ _ more =>
          cases more
          obtain rfl := (resolve_parameter room).1 resolved
          exact ⟨.parameter type, .parameter before'.length, rfl, .parameter, fun pre' post' room' =>
            (resolve_parameter room').2 rfl⟩
      | @replaced _ v literal _ _ _ _ written typed more =>
          cases more
          obtain rfl := (resolve_parameter room).1 resolved
          obtain ⟨t, token, none, means⟩ := exists_literal written typed
          refine ⟨t, .literal v, token, ?_, fun _ _ _ => rfl⟩
          rw [none, List.append_nil]
          exact means before'
  | quoted text typed =>
      obtain ⟨_, rfl, more⟩ := Inlined.plain_cons (by simp [Syntax.Term.token]) tail
      cases more
      refine ⟨.quoted text, .literal (.string text), rfl, ?_, fun _ _ _ => resolved⟩
      simpa [parameterTypes, Syntax.Term.token] using .quoted text typed
  | word text value stands typed =>
      obtain ⟨_, rfl, more⟩ := Inlined.plain_cons (by simp [Syntax.Term.token]) tail
      cases more
      refine ⟨.word text, .literal value, rfl, ?_, fun _ _ _ => resolved⟩
      simpa [parameterTypes, Syntax.Term.token] using .word text value stands typed

theorem test_inlines : Inlines (Test.Means c) Test.tokens (resolvesBy Condition.resolve) := by
  intro before t e after h values inlined rest pre post z tail room resolved before'
  induction h generalizing values inlined rest z with
  | not _ ih =>
      obtain ⟨l, rfl, body⟩ := Inlined.plain_cons (by simp) tail
      cases resolved
      obtain ⟨t', e', rfl, means, same⟩ := ih body rfl
      exact ⟨.not t', .not e', rfl, .not means, fun pre' post' room' =>
        congrArg Expression.not (same pre' post' room')⟩
  | @compare name key op term value after known ordered typed =>
      obtain ⟨_, rfl, body⟩ := Inlined.plain_cons (by simp) tail
      obtain ⟨_, rfl, last⟩ := Inlined.plain_cons (by simp) body
      cases resolved
      obtain ⟨term', value', rfl, means, same⟩ := term_inlines _ typed last room rfl before'
      exact ⟨.compare name op term', .compare key op value', rfl, .compare known ordered means,
        fun pre' post' room' => congrArg (Expression.compare key op) (same pre' post' room')⟩
  | @member name key type known single =>
      obtain ⟨_, rfl, body⟩ := Inlined.plain_cons (by simp) tail
      obtain ⟨_, rfl, last⟩ := Inlined.plain_cons (by simp) body
      cases resolved
      cases last with
      | plain other => exact absurd rfl (other _)
      | @kept _ v _ _ _ _ more =>
          cases more
          refine ⟨.member name (.parameter (.list type)), .member key (.parameter before'.length), rfl,
            .member known single, fun pre' post' room' => congrArg (Expression.member key) ?_⟩
          exact (getD_parameter room').trans (getD_parameter room).symm
      | @replaced _ v literal _ _ _ _ written typed more =>
          -- There are no literals for lists.
          cases v with
          | scalar => contradiction
          | list => contradiction

/-- Conditions that are joined to the left are resolved one by one. -/
theorem resolve_foldl {join : Condition → Condition → Condition}
    {join' : Expression → Expression → Expression} {values : List Value}
    (joined : ∀ l r, (join l r).resolve values = join' (l.resolve values) (r.resolve values))
    (e : Condition) (es : List Condition) : (es.foldl join e).resolve values =
      (es.map (Condition.resolve values)).foldl join' (e.resolve values) := by
  induction es generalizing e with
  | nil => rfl
  | cons next es ih => rw [List.foldl_cons, ih, joined]; rfl

/-- What holds of the items of a condition that is joined to the left holds of the condition. -/
theorem Inlines.joined {α : Type} {means : List ValueType → α → Condition → List ValueType → Prop}
    {tokens : Chain α → List Token} {join : Condition → Condition → Condition}
    {join' : Expression → Expression → Expression}
    (items : Inlines (chainMeans means) tokens (resolvesEach (resolvesBy Condition.resolve)))
    (joined : ∀ values l r,
      (join l r).resolve values = join' (l.resolve values) (r.resolve values))
    {before after : List ValueType} {x : Chain α} {e : Condition} {es : List Condition}
    {values rest pre post : List Value} {inlined : List Token} {z : Expression}
    (h : chainMeans means before x (e :: es) after) (tail : Inlined (tokens x) values inlined rest)
    (room : pre.length = before.length)
    (resolved : resolvesBy Condition.resolve (pre ++ values ++ post) (es.foldl join e) z)
    (before' : List ValueType) : ∃ x' e' es', tokens x' = inlined ∧
      chainMeans means before' x' (e' :: es') (before' ++ parameterTypes inlined) ∧
        ∀ pre' post', pre'.length = before'.length →
          resolvesBy Condition.resolve (pre' ++ rest ++ post') (es'.foldl join e') z := by
  cases resolved
  obtain ⟨x', ys', rfl, means, same⟩ :=
    items h tail room (resolvesEach_iff.2 rfl) before'
  cases ys' with
  | nil => cases means
  | cons e' es' =>
      refine ⟨x', e', es', rfl, means, fun pre' post' room' => ?_⟩
      have each := resolvesEach_iff.1 (same pre' post' room')
      rw [List.map_cons, List.map_cons, List.cons.injEq] at each
      rw [resolvesBy, resolve_foldl (joined _), resolve_foldl (joined _), each.1, each.2]

theorem conjunction_inlines :
    Inlines (Conjunction.Means c) Conjunction.tokens (resolvesBy Condition.resolve) := by
  intro before tests e after h values inlined rest pre post z tail room resolved before'
  cases h with
  | intro all =>
      have other (type) : Token.word "AND" ≠ .parameter type := by simp
      have items : Inlines (chainMeans (Test.Means c)) Conjunction.tokens
          (resolvesEach (resolvesBy Condition.resolve)) := Inlines.chain test_inlines test_numbers other
      obtain ⟨x', e', es', same, means, resolves⟩ :=
        Inlines.joined items (fun _ _ _ => rfl) all tail room resolved before'
      exact ⟨x', _, same, .intro means, resolves⟩

theorem disjunction_inlines :
    Inlines (Disjunction.Means c) Disjunction.tokens (resolvesBy Condition.resolve) := by
  intro before conjunctions e after h values inlined rest pre post z tail room resolved before'
  cases h with
  | intro all =>
      have other (type) : Token.word "OR" ≠ .parameter type := by simp
      have items : Inlines (chainMeans (Conjunction.Means c)) Disjunction.tokens
          (resolvesEach (resolvesBy Condition.resolve)) :=
        Inlines.chain conjunction_inlines conjunction_numbers other
      obtain ⟨x', e', es', same, means, resolves⟩ :=
        Inlines.joined items (fun _ _ _ => rfl) all tail room resolved before'
      exact ⟨x', _, same, .intro means, resolves⟩

/-! ## The other clauses -/

/-- The value that an assignment sets. -/
def assigned (values : List Value) (a : Key × Descriptor.Term) : Key × Value :=
  (a.1, a.2.resolve values)

theorem assignment_inlines :
    Inlines (Assignment.Means c) Assignment.tokens (resolvesBy assigned) := by
  intro before a p after h values inlined rest pre post z tail room resolved before'
  cases h with
  | @intro name key term t _ known typed =>
      obtain ⟨_, rfl, body⟩ := Inlined.plain_cons (by simp) tail
      obtain ⟨_, rfl, last⟩ := Inlined.plain_cons (by simp) body
      cases resolved
      obtain ⟨term', t', rfl, means, same⟩ := term_inlines _ typed last room rfl before'
      exact ⟨⟨name, term'⟩, (key, t'), rfl, .intro known means, fun pre' post' room' =>
        congrArg (Prod.mk key) (same pre' post' room')⟩

theorem names_of_each {before after : List ValueType} {xs : List Assignment}
    {ys : List (Key × Descriptor.Term)} (h : Each (Assignment.Means c) before xs ys after) :
    xs.map Assignment.key = ys.map (·.1.name) := by
  induction h with
  | nil => rfl
  | cons first _ ih => rw [List.map_cons, List.map_cons, ih, first.name]

theorem names_of_assigned {values : List Value} {ys : List (Key × Descriptor.Term)}
    {zs : List (Key × Value)} (h : resolvesEach (resolvesBy assigned) values ys zs) :
    zs.map (·.1.name) = ys.map (·.1.name) := by
  rw [← resolvesEach_iff.1 h, List.map_map]
  rfl

theorem assignments_inline : Inlines (AssignmentsMean c) (Chain.tokens Assignment.tokens .comma)
    (resolvesEach (resolvesBy assigned)) := by
  intro before l ys after h values inlined rest pre post zs tail room resolved before'
  cases h with
  | intro all once =>
      have items := Inlines.chain (assignment_inlines (c := c)) assignment_numbers
        (fun _ => (by simp : Token.comma ≠ _))
      obtain ⟨l', ys', rfl, means, same⟩ := items all tail room resolved before'
      refine ⟨l', ys', rfl, .intro means ?_, same⟩
      -- The same keys are set in the end, so there is none among them twice.
      have bound := same (List.replicate before'.length default) [] List.length_replicate
      rw [names_of_each means, ← names_of_assigned bound, names_of_assigned resolved,
        ← names_of_each all]
      exact once

theorem sortKey_inlines : Inlines (SortKey.Means c) SortKey.tokens (resolvesBy fun _ k => k) := by
  intro before k p after h values inlined rest pre post z tail room resolved before'
  cases h with
  | @intro name key direction known =>
      obtain ⟨_, rfl, body⟩ := Inlined.plain_cons (by simp) tail
      obtain ⟨_, rfl, last⟩ := Inlined.plain_cons (by simp) body
      cases last
      refine ⟨⟨name, direction⟩, (key, direction), rfl, ?_, fun _ _ _ => resolved⟩
      simpa [parameterTypes] using .intro known

theorem sortKeys_inline : Inlines (SortKeysMean c) (Chain.tokens SortKey.tokens .comma)
    (resolvesEach (resolvesBy fun _ k => k)) := by
  intro before l ys after h values inlined rest pre post zs tail room resolved before'
  cases h with
  | intro all =>
      have items := Inlines.chain (sortKey_inlines (c := c)) sortKey_numbers
        (fun _ => (by simp : Token.comma ≠ _))
      obtain ⟨l', ys', rfl, means, same⟩ := items all tail room resolved before'
      exact ⟨l', ys', rfl, .intro means, same⟩

def limitResolves (values : List Value) (l : Limit) (n : Nat) : Prop :=
  l.resolve values = .ok n

theorem limitResolves_parameter {pre post : List Value} {v : Value} {n : Nat}
    {before : List ValueType} (room : pre.length = before.length) :
    limitResolves (pre ++ [v] ++ post) (.parameter before.length) n ↔
      ∃ m : Int32, v = .int m ∧ 0 < m.toInt ∧ m.toInt.toNat = n := by
  rw [limitResolves, Limit.resolve, getD_parameter room]
  constructor
  · intro resolved
    split at resolved
    · next m =>
        split at resolved
        · next positive => exact ⟨m, rfl, positive, Except.ok.inj resolved⟩
        · contradiction
    · contradiction
  · rintro ⟨m, rfl, positive, rfl⟩
    exact if_pos positive

theorem limit_inlines : Inlines Syntax.Term.Limits (fun t => [t.token]) limitResolves := by
  intro before t l after h values inlined rest pre post n tail room resolved before'
  cases h with
  | parameter =>
      cases tail with
      | plain other => exact absurd rfl (other _)
      | @kept _ v _ _ _ _ more =>
          cases more
          have value := (limitResolves_parameter room).1 resolved
          exact ⟨.parameter (.scalar .int), .parameter before'.length, rfl, .parameter,
            fun pre' post' room' => (limitResolves_parameter room').2 value⟩
      | @replaced _ v literal _ _ _ _ written typed more =>
          cases more
          obtain ⟨m, rfl, positive, rfl⟩ := (limitResolves_parameter room).1 resolved
          rcases literalFor?_cases written with ⟨text, -, other, -⟩ | ⟨word, rfl, stands, -⟩
          · simp [Value.int, Value.string] at other
          · refine ⟨.word word, .fixed m.toInt.toNat, rfl, ?_, fun _ _ _ => rfl⟩
            simpa [parameterTypes] using .word word m stands positive
  | word text m stands positive =>
      obtain ⟨_, rfl, more⟩ := Inlined.plain_cons (by simp [Syntax.Term.token]) tail
      cases more
      refine ⟨.word text, .fixed m.toInt.toNat, rfl, ?_, fun _ _ _ => resolved⟩
      simpa [parameterTypes, Syntax.Term.token] using .word text m stands positive

/-! ## Statements -/

/-- Statements that are resolved alike clause by clause are the same when they are bound. -/
theorem withValues_congr {r r' : Compiled} {values values' : List Value} {n : Option Nat}
    (category : r.category = r'.category) (kind : r.kind = r'.kind)
    (assignments : r.assignments.map (assigned values) = r'.assignments.map (assigned values'))
    (condition : r.condition.map (Condition.resolve values) =
      r'.condition.map (Condition.resolve values'))
    (sort : r.sort = r'.sort) (limit : Option.Rel (limitResolves values) r.limit n)
    (limit' : Option.Rel (limitResolves values') r'.limit n) :
    r.withValues values = r'.withValues values' := by
  obtain ⟨_, category, kind, _, as, e, sort, l⟩ := r
  obtain ⟨_, category', kind', _, as', e', sort', l'⟩ := r'
  simp only at *
  subst category kind sort
  unfold assigned at assignments
  cases limit with
  | none =>
      cases limit'
      simp only [Compiled.withValues, assignments, condition]
  | some resolved =>
      cases limit' with
      | some resolved' =>
          rw [limitResolves] at resolved resolved'
          simp only [Compiled.withValues, assignments, condition, resolved, resolved']

theorem exists_limitResolves {s : Statement} {descriptor : String} {r : Compiled}
    (h : s.Means c descriptor r) {values : List Value} {b : BoundStatement}
    (bound : r.withValues values = .ok b) :
    ∃ n, Option.Rel (limitResolves values) r.limit n := by
  cases limited : r.limit with
  | none => exact ⟨none, .none⟩
  | some limit =>
      cases query : r.kind.isQuery with
      | false => simp [h.unlimited query] at limited
      | true =>
          have resolved := Compiled.withValues_limited values query limited
          cases found : limit.resolve values with
          | ok n => exact ⟨some n, .some found⟩
          | error e => simp [found, bound] at resolved

/-- What the clauses of a statement resolve to. -/
def clausesResolve : List Value →
    Option (List (Key × Descriptor.Term)) × Option Condition ×
      Option (List (Key × SortDirection)) × Option Limit →
    Option (List (Key × Value)) × Option Expression × Option (List (Key × SortDirection)) ×
      Option Nat → Prop :=
  resolvesBoth (fun values => Option.Rel (resolvesEach (resolvesBy assigned) values)) <|
    resolvesBoth (fun values => Option.Rel (resolvesBy Condition.resolve values)) <|
    resolvesBoth (fun values => Option.Rel (resolvesEach (resolvesBy fun _ k => k) values))
      (fun values => Option.Rel (limitResolves values))

theorem clausesResolve_iff {values : List Value} {as : Option (List (Key × Descriptor.Term))}
    {e : Option Condition} {ks ks' : Option (List (Key × SortDirection))} {l : Option Limit}
    {zs : Option (List (Key × Value))} {x : Option Expression} {n : Option Nat} :
    clausesResolve values (as, e, ks, l) (zs, x, ks', n) ↔
      as.map (List.map (assigned values)) = zs ∧ e.map (Condition.resolve values) = x ∧ ks = ks' ∧
        Option.Rel (limitResolves values) l n := by
  simp only [clausesResolve, resolvesBoth, resolvesEach_resolvesBy, optionRel_iff,
    List.map_id_fun', Option.map_id, id_eq]

theorem isSome_of_rel {α β : Type} {related : α → β → Prop} {x : Option α} {y : Option β}
    (h : Option.Rel related x y) : x.isSome = y.isSome := by
  cases h <;> rfl

/-- Clauses that resolve alike are there alike. -/
theorem clausesResolve_isSome {values values' : List Value}
    {as as' : Option (List (Key × Descriptor.Term))} {e e' : Option Condition}
    {ks ks' : Option (List (Key × SortDirection))} {l l' : Option Limit}
    {zs : Option (List (Key × Value))} {x : Option Expression}
    {sorted : Option (List (Key × SortDirection))} {n : Option Nat}
    (h : clausesResolve values (as, e, ks, l) (zs, x, sorted, n))
    (h' : clausesResolve values' (as', e', ks', l') (zs, x, sorted, n)) :
    as'.isSome = as.isSome ∧ e'.isSome = e.isSome ∧ ks'.isSome = ks.isSome ∧
      l'.isSome = l.isSome := by
  obtain ⟨rfl, rfl, rfl, limit⟩ := clausesResolve_iff.1 h
  obtain ⟨assigns, tests, rfl, limit'⟩ := clausesResolve_iff.1 h'
  have assigned := congrArg Option.isSome assigns
  have tested := congrArg Option.isSome tests
  rw [Option.isSome_map, Option.isSome_map] at assigned tested
  exact ⟨assigned, tested, rfl, (isSome_of_rel limit').trans (isSome_of_rel limit).symm⟩

def clausesMean (c : Category) : List ValueType →
    Option (Chain Assignment) × Option Disjunction × Option (Chain SortKey) × Option Syntax.Term →
    Option (List (Key × Descriptor.Term)) × Option Condition ×
      Option (List (Key × SortDirection)) × Option Limit → List ValueType → Prop :=
  Followed (ClauseMeans (AssignmentsMean c)) <| Followed (ClauseMeans (Disjunction.Means c)) <|
    Followed (ClauseMeans (SortKeysMean c)) (ClauseMeans Syntax.Term.Limits)

theorem clauses_inline (kind : StatementKind) (category : String) : Inlines (clausesMean c)
    (fun x => (Statement.mk kind category x.1 x.2.1 x.2.2.1 x.2.2.2).setTokens) clausesResolve :=
  (assignments_inline.clause "SET").followed (assignments_number.clause "SET") <|
    (disjunction_inlines.clause "WHERE").followed (disjunction_numbers.clause "WHERE") <|
    (sortKeys_inline.clause "SORT").followed (sortKeys_number.clause "SORT") <|
    limit_inlines.clause "LIMIT"

/-- Whether the clauses of a statement are allowed is seen from which of them it has. -/
theorem Syntax.Statement.Allowed.transfer {s s' : Statement} (h : s.Allowed) (kind : s'.kind = s.kind)
    (same : ∀ clause, s'.has clause = s.has clause) : s'.Allowed := by
  rw [Statement.allowed_iff] at h ⊢
  intro clause
  rw [kind, same]
  exact h clause

/-- Whatever is inlined in the tokens of a statement, they are those of a statement that is the
same when it is bound. -/
theorem Syntax.Statement.Means.inlined {s : Statement} {descriptor : String} {r : Compiled}
    (h : s.Means c descriptor r) {values rest : List Value} {inlined : List Token}
    (tail : Inlined s.tokens values inlined rest) {b : BoundStatement}
    (bound : r.withValues values = .ok b) (descriptor' : String) :
    ∃ s' : Statement, ∃ r', s'.tokens = inlined ∧ s'.Means c descriptor' r' ∧
      r'.withValues rest = .ok b := by
  obtain ⟨n, limits⟩ := exists_limitResolves h bound
  cases h with
  | @intro first second third _ assignments condition sort limit category allowed set filter
      sorted limited =>
      obtain ⟨_, rfl, verb⟩ := Inlined.plain_cons (by simp) tail
      obtain ⟨_, rfl, clauses⟩ := Inlined.plain_cons (by simp) verb
      have means : clausesMean c [] (s.set, s.filter, s.sort, s.limit)
          (assignments, condition, sort, limit) _ :=
        ⟨first, set, second, filter, third, sorted, limited⟩
      have resolved : clausesResolve ([] ++ values ++ []) (assignments, condition, sort, limit)
          (assignments.map (List.map (assigned values)), condition.map (Condition.resolve values),
            sort, n) := by
        rw [List.nil_append, List.append_nil]
        exact clausesResolve_iff.2 ⟨rfl, rfl, rfl, limits⟩
      obtain ⟨⟨set', filter', sort', limit'⟩, ⟨assignments', condition', sorted', limited'⟩, rfl,
          ⟨_, setMeans, _, filterMeans, _, sortMeans, limitMeans⟩, same⟩ :=
        clauses_inline s.kind s.category means clauses rfl resolved []
      have resolved' := same [] [] rfl
      rw [List.nil_append, List.append_nil] at resolved resolved'
      obtain ⟨hasSet, hasFilter, hasSort, hasLimit⟩ := clausesResolve_isSome resolved resolved'
      obtain ⟨assigns, tests, rfl, limits'⟩ := clausesResolve_iff.1 resolved'
      refine ⟨⟨s.kind, s.category, set', filter', sort', limit'⟩, _, rfl,
        .intro category (allowed.transfer rfl ?_) setMeans filterMeans sortMeans limitMeans, ?_⟩
      · intro clause
        cases clause with
        | set => exact setMeans.isSome.symm.trans (hasSet.trans set.isSome)
        | filter => exact filterMeans.isSome.symm.trans (hasFilter.trans filter.isSome)
        | sort => exact sortMeans.isSome.symm.trans (hasSort.trans sorted.isSome)
        | limit => exact limitMeans.isSome.symm.trans (hasLimit.trans limited.isSome)
      · rw [← bound]
        refine withValues_congr ?category ?kind ?assigned tests ?sorted limits' limits
        case assigned =>
          have spread (values) (as : Option (List (Key × Descriptor.Term))) :
              (as.getD []).map (assigned values) = (as.map (List.map (assigned values))).getD [] :=
            (Option.getD_map _ [] _).symm
          rw [spread, spread, assigns]
        all_goals rfl

/-! ## Parameters that are left -/

/-- What becomes of a number when there is no parameter of another number any more. -/
def lowered (k i : Nat) : Nat :=
  if k < i then i - 1 else i

/-- The parameters without those of a number, numbered as if there had been none. -/
def without (k : Nat) (params : List Parameter) : List Parameter :=
  (params.filter (·.index ≠ k)).map fun p => { p with index := lowered k p.index }

theorem getElem?_lowered {α : Type} (l : List α) {k i : Nat} (other : i ≠ k) :
    (l.eraseIdx k)[lowered k i]? = l[i]? := by
  rw [List.getElem?_eraseIdx, lowered]
  split
  · next above =>
      rw [if_neg (by omega), show i - 1 + 1 = i by omega]
  · next below => rw [if_pos (by omega)]

theorem lowered_inj {k i j : Nat} (hi : i ≠ k) (hj : j ≠ k) (h : lowered k i = lowered k j) :
    i = j := by
  unfold lowered at h
  split at h <;> split at h <;> omega

theorem mem_without {k : Nat} {params : List Parameter} {q : Parameter} : q ∈ without k params ↔
    ∃ p ∈ params, p.index ≠ k ∧ q = { p with index := lowered k p.index } := by
  simp only [without, List.mem_map, List.mem_filter, decide_eq_true_eq, and_assoc, eq_comm (a := q)]

/-- One of the parameters has the number, and all others are left. -/
theorem length_without {k : Nat} {params : List Parameter}
    (distinct : (params.map Parameter.index).Nodup) (present : k ∈ params.map Parameter.index) :
    (without k params).length = params.length - 1 := by
  have once := List.count_eq_one_of_mem distinct present
  have all := List.length_eq_countP_add_countP (fun p : Parameter => p.index == k) (l := params)
  have left : (without k params).length = params.countP fun p => ¬ p.index == k := by
    rw [without, List.length_map, List.countP_eq_length_filter]
    simp
  rw [List.count, List.countP_map, Function.comp_def] at once
  omega

theorem nodup_without {params : List Parameter} (k : Nat)
    (distinct : (params.map Parameter.index).Nodup) :
    ((without k params).map Parameter.index).Nodup := by
  have others : ((params.filter (·.index ≠ k)).map Parameter.index).Nodup :=
    distinct.sublist (List.filter_sublist.map _)
  have apart : (((params.filter (·.index ≠ k)).map Parameter.index).map (lowered k)).Nodup := by
    refine others.map_on fun i hi j hj => lowered_inj ?_ ?_
    · obtain ⟨p, member, rfl⟩ := List.mem_map.1 hi
      simpa using List.of_mem_filter member
    · obtain ⟨p, member, rfl⟩ := List.mem_map.1 hj
      simpa using List.of_mem_filter member
  rw [List.map_map] at apart
  rwa [without, List.map_map]

/-- The other parameters resolve to the other values. -/
theorem resolveParameters_without {signature : List ValueType} {params : List Parameter}
    {values : List Value} {k : Nat} (inside : k < signature.length)
    (resolved : resolveParameters signature params = .ok values) :
    resolveParameters (signature.eraseIdx k) (without k params) = .ok (values.eraseIdx k) := by
  obtain ⟨⟨count, distinct, fits⟩, places, found⟩ := resolveParameters_ok_iff.1 resolved
  have present := mem_number count distinct fits inside
  refine resolveParameters_ok_iff.2 ⟨⟨?_, nodup_without k distinct, ?_⟩, ?_, ?_⟩
  · rw [List.length_eraseIdx_of_lt inside, length_without distinct present, count]
  · intro q member
    obtain ⟨p, known, other, rfl⟩ := mem_without.1 member
    obtain ⟨declared, typed, finite⟩ := fits p known
    exact ⟨(getElem?_lowered signature other).trans declared, typed, finite⟩
  · rw [List.length_eraseIdx_of_lt inside, List.length_eraseIdx_of_lt (places ▸ inside), places]
  · intro q member
    obtain ⟨p, known, other, rfl⟩ := mem_without.1 member
    exact (getElem?_lowered values other).trans (found p known)

variable {descriptor : String} {r : Compiled}

/-- With the literal for the value of a parameter in its place, a statement is the same once the
other parameters are bound. -/
theorem Syntax.Statement.Means.bind_literal {s : Statement} (h : s.Means c descriptor r) {i : Nat}
    {type : ValueType} (place : s.tokens[i]? = some (.parameter type)) {params : List Parameter}
    {b : BoundStatement} (bound : r.bind params = .ok b) {p : Parameter} (given : p ∈ params)
    (number : p.index = (parameterTypes (s.tokens.take i)).length) {literal : Token}
    (written : literalFor? p.value = some literal) (descriptor' : String) :
    ∃ s' : Statement, ∃ r', s'.tokens = s.tokens.set i literal ∧ s'.Means c descriptor' r' ∧
      r'.bind (without p.index params) = .ok b := by
  obtain ⟨signature, -⟩ := h.numbered
  rw [Compiled.bind_eq] at bound
  obtain ⟨values, resolved, placed⟩ := bind_eq_ok_iff.1 bound
  obtain ⟨⟨-, -, fits⟩, places, found⟩ := resolveParameters_ok_iff.1 resolved
  obtain ⟨declared, typed, -⟩ := fits p given
  have wanted : r.signature[p.index]? = some type := by
    rw [number, signature]
    exact parameterTypes_place place
  have fitting : p.value.type = type := typed.trans (Option.some.inj (declared.symm.trans wanted))
  have single := Inlined.single place (places.trans (congrArg List.length signature))
    (number ▸ found p given) written fitting
  obtain ⟨s', r', same, means, bound'⟩ := h.inlined single placed descriptor'
  refine ⟨s', r', same, means, ?_⟩
  have other (type) : literal ≠ .parameter type := by
    rcases literalFor?_cases written with ⟨_, rfl, -, -⟩ | ⟨_, rfl, -, -⟩ <;> simp
  have signature' : r'.signature = r.signature.eraseIdx p.index := by
    rw [means.numbered.1, same, parameterTypes_set place other, signature, number]
  have inside : p.index < r.signature.length := (List.getElem?_eq_some_iff.1 wanted).1
  rw [Compiled.bind_eq, signature', resolveParameters_without inside resolved, number]
  exact bound'

/-- A literal means what a parameter means that is bound to its value: in a list of tokens that
compiles, any parameter that is bound to a value may be replaced by the literal for the value, if
there is one. The tokens still compile, and with the other parameters, of which those that come
later have their numbers lowered by one, they are bound to the same statement.
What is cut from a text and has a literal put into it is what is cut from some text again. -/
theorem literal_means_bound_value {lexemes : List Lexeme}
    (compiled : readStatement c descriptor lexemes = .ok r) {i : Nat} {type : ValueType}
    (place : (lexemes.map Lexeme.token)[i]? = some (.parameter type)) {params : List Parameter}
    {b : BoundStatement} (bound : r.bind params = .ok b) :
    let tokens := lexemes.map Lexeme.token
    let k := (parameterTypes (tokens.take i)).length
    (∃ p ∈ params, p.index = k) ∧
      ∀ p ∈ params, p.index = k → ∀ literal, literalFor? p.value = some literal →
        (∀ descriptor' lexemes', lexemes'.map Lexeme.token = tokens.set i literal →
          ∃ r', readStatement c descriptor' lexemes' = .ok r' ∧
            r'.bind (without k params) = .ok b) ∧
        (tokenize descriptor = .ok lexemes → ∃ text lexemes', tokenize text = .ok lexemes' ∧
          lexemes'.map Lexeme.token = tokens.set i literal ∧
            ∃ r', compile c text = .ok r' ∧ r'.bind (without k params) = .ok b) := by
  intro tokens k
  obtain ⟨s, same, means⟩ := readStatement_ok_iff.1 compiled
  replace same : s.tokens = tokens := same
  constructor
  · rw [Compiled.bind_eq] at bound
    obtain ⟨values, resolved, -⟩ := bind_eq_ok_iff.1 bound
    obtain ⟨⟨count, distinct, fits⟩, -, -⟩ := resolveParameters_ok_iff.1 resolved
    have wanted : r.signature[k]? = some type := by
      rw [means.numbered.1, same]
      exact parameterTypes_place place
    have inside := (List.getElem?_eq_some_iff.1 wanted).1
    exact List.mem_map.1 (mem_number count distinct fits inside)
  · intro p given number literal written
    have replaced (descriptor') : ∃ s' : Statement, ∃ r', s'.tokens = tokens.set i literal ∧
        s'.Means c descriptor' r' ∧ r'.bind (without k params) = .ok b := by
      rw [← number, ← same]
      have here : s.tokens[i]? = some (.parameter type) := by
        rw [same]
        exact place
      exact means.bind_literal here bound given (same ▸ number) written descriptor'
    constructor
    · intro descriptor' lexemes' cut
      obtain ⟨s', r', same', means', bound'⟩ := replaced descriptor'
      exact ⟨r', readStatement_ok_iff.2 ⟨s', same'.trans cut.symm, means'⟩, bound'⟩
    · intro cut
      have spellable : ∀ t ∈ tokens.set i literal, t.Spellable := by
        intro t member
        rcases List.mem_or_eq_of_mem_set member with old | rfl
        · obtain ⟨l, inside, rfl⟩ := List.mem_map.1 old
          exact spellable_of_tokenize cut l inside
        · exact spellable_of_literalFor? written
      obtain ⟨lexemes', cut', tokens'⟩ := tokenize_spelled spellable
      obtain ⟨s', r', same', means', bound'⟩ := replaced (String.ofList (spelled (tokens.set i literal)))
      exact ⟨_, lexemes', cut', tokens', r',
        compile_ok_iff.2 ⟨lexemes', cut', s', same'.trans tokens'.symm, means'⟩, bound'⟩

/-- The tokens of the search. -/
def searchTokens : List Token :=
  [.word "QUERY", .word "vm", .word "WHERE", .word "NOT", .quoted "load", .operator .less,
    .word "5", .word "AND", .quoted "name", .word "IN", .parameter (.list .string), .word "OR",
    .quoted "name", .operator .equal, .parameter (.scalar .string), .word "LIMIT",
    .parameter (.scalar .int)]

/-- The name that the search asks for may be written into it, and the limit is then the parameter
that comes next. -/
theorem search_for_written_name :
    searchTokens[14]? = some (.parameter (.scalar .string)) ∧
    ∃ b, search.bind (searched 3) = .ok b ∧ ∃ text lexemes, tokenize text = .ok lexemes ∧
      lexemes.map Lexeme.token = searchTokens.set 14 (.quoted "c") ∧
      ∃ r, compile fleet text = .ok r ∧
        r.bind [.ofValue 1 (.int 3), .ofValue 0 (.list .string ["a", "b"])] = .ok b := by
  obtain ⟨lexemes, cut, tokens⟩ : ∃ lexemes, tokenize search.descriptor = .ok lexemes ∧
      lexemes.map Lexeme.token = searchTokens :=
    ⟨_, by with_unfolding_all rfl, by with_unfolding_all rfl⟩
  obtain ⟨lexemes', cut', meant⟩ := compile_ok_iff.1 compile_search
  obtain rfl := Except.ok.inj (cut'.symm.trans cut)
  obtain ⟨b, bound⟩ : ∃ b, search.bind (searched 3) = .ok b := ⟨_, by with_unfolding_all rfl⟩
  have place : (lexemes'.map Lexeme.token)[14]? = some (.parameter (.scalar .string)) := by
    rw [tokens]
    rfl
  obtain ⟨-, inlined⟩ := literal_means_bound_value (readStatement_ok_iff.2 meant) place bound
  rw [tokens] at inlined
  have written : literalFor? (.string "c") = some (.quoted "c") := by
    simp [literalFor?, Value.string]
  have name : Parameter.ofValue 1 (.string "c") ∈ searched 3 := by simp [searched]
  obtain ⟨-, rewritten⟩ := inlined _ name rfl _ written
  exact ⟨rfl, b, bound, rewritten cut⟩

end FleetStore.Descriptor
