import FleetStore.Proofs.Binding.Resolved
import FleetStore.Proofs.Language.Numbering

/-! # Which parameters a statement takes

Every place of a statement has its number in the signature, so among values that have been
resolved it finds one of its type. Nothing but a limit can be amiss with such values,
and a limit is an integer. So parameters are bound exactly if they match the signature
and leave the limit positive.
-/

namespace FleetStore.Descriptor

variable {c : Category} {descriptor : String} {r : Compiled}

/-! ## Limits -/

/-- A limit that is left to a parameter gets a 32-bit integer. -/
theorem exists_limit {values : List Value} {k : Nat} (h : (Limit.parameter k).Fits r.signature)
    (checked : Prepared.Checked ⟨r, values.map some⟩) : ∃ n, values[k]? = some (.int n) := by
  have typed : Term.Fits (.scalar .int) r.signature (.parameter k) := h
  obtain ⟨type, -⟩ := typed.resolve checked
  obtain ⟨inside, -⟩ := List.getElem?_eq_some_iff.1 h
  have places : values.length = r.signature.length := by simpa using checked.places
  have found : values[k]? = some values[k] := List.getElem?_eq_getElem (by omega)
  rw [Term.resolve, List.getD_eq_getElem?_getD, found, Option.getD_some] at type
  cases value : values[k] with
  | list => simp [value, Value.type] at type
  | scalar t n =>
      simp only [value, Value.type, ValueType.scalar.injEq] at type
      subst type
      exact ⟨n, found.trans (congrArg some value)⟩

/-- Values leave the limit of a statement positive. -/
def Compiled.Limited (r : Compiled) (values : List Value) : Prop :=
  ∀ k, r.limit = some (.parameter k) → ∃ n, values[k]? = some (.int n) ∧ 0 < n.toInt

theorem Syntax.Statement.Means.unlimited {s : Syntax.Statement} (h : s.Means c descriptor r)
    (write : r.kind.isQuery = false) : r.limit = none := by
  cases h with
  | intro _ allowed _ _ _ limited =>
      have absent : s.limit = none := by
        unfold Syntax.Statement.Allowed at allowed
        cases kind : s.kind with
        | query => simp [kind, StatementKind.isQuery] at write
        | write kind' => cases kind' <;> simp_all
      rw [absent] at limited
      cases limited
      rfl

theorem compile_unlimited (h : compile c descriptor = .ok r) (write : r.kind.isQuery = false) :
    r.limit = none := by
  obtain ⟨_, _, s, _, meant⟩ := compile_ok_iff.1 h
  exact meant.unlimited write

/-- Nothing can be amiss with checked values for a query but a limit that is not positive. -/
theorem withValues_of_query (legal : r.Legal c) (query : r.kind.isQuery = true)
    {values : List Value} (checked : Prepared.Checked ⟨r, values.map some⟩) :
    r.Limited values ∧ (∃ b, r.withValues values = .ok b) ∨
      ¬ r.Limited values ∧ ∃ n ≤ 0, r.withValues values = .error (.invalidLimit n) := by
  cases bounded : r.limit with
  | none =>
      exact .inl ⟨by simp [Compiled.Limited, bounded], Compiled.withValues_unlimited query bounded⟩
  | some limit =>
      have limited := Compiled.withValues_limited values query bounded
      cases limit with
      | fixed count => exact .inl ⟨by simp [Compiled.Limited, bounded], limited⟩
      | parameter k =>
          obtain ⟨n, found⟩ := exists_limit (legal.limit _ bounded) checked
          have positive : r.Limited values ↔ 0 < n.toInt := by
            simp [Compiled.Limited, bounded, found, Value.int]
          rw [Limit.resolve_parameter found] at limited
          by_cases given : 0 < n.toInt
          · rw [if_pos given] at limited
            exact .inl ⟨positive.2 given, limited⟩
          · rw [if_neg given] at limited
            exact .inr ⟨fun all => given (positive.1 all), n.toInt, by omega, limited⟩

/-- Values that have been resolved can be put in place unless the limit among them is not
positive. -/
theorem withValues_of_checked (h : compile c descriptor = .ok r) {values : List Value}
    (checked : Prepared.Checked ⟨r, values.map some⟩) :
    r.Limited values ∧ (∃ b, r.withValues values = .ok b) ∨
      ¬ r.Limited values ∧ ∃ n ≤ 0, r.withValues values = .error (.invalidLimit n) := by
  cases query : r.kind.isQuery with
  | false =>
      -- Only queries have a limit, so nothing can be amiss with a write.
      have unlimited := compile_unlimited h query
      exact .inl ⟨by simp [Compiled.Limited, unlimited], Compiled.withValues_write_ok query⟩
  | true => exact withValues_of_query (compile_legal h) query checked

/-! ## Statements -/

/-- The signature of a statement has the types of the parameters of its text in their order, the
places of the statement have the numbers of the signature in order and demand its types, and
whatever is bound, each place finds a value of its type and the limit an integer. -/
theorem parameters_are_numbered (h : compile c descriptor = .ok r) :
    (∃ lexemes, tokenize descriptor = .ok lexemes ∧
      r.signature = parameterTypes (lexemes.map Lexeme.token)) ∧
    r.places = r.signature.mapIdx (fun index type => (index, some type)) ∧
    ∀ params : List Parameter,
      match resolveParameters r.signature params with
      | .error e => r.bind params = .error e
      | .ok values =>
          (∀ place ∈ r.places, ∃ value, values[place.1]? = some value ∧ some value.type = place.2) ∧
          (∀ limit, r.limit = some limit → ∀ index expected actual,
            limit.resolve values ≠ .error (.typeMismatch index expected actual)) ∧
          ((∃ b, r.bind params = .ok b) ∨ ∃ n ≤ 0, r.bind params = .error (.invalidLimit n)) := by
  obtain ⟨lexemes, cut, signature, places⟩ := compile_numbered h
  have numbers : r.places = r.signature.mapIdx fun index type => (index, some type) := by
    simp [places, numbered]
  refine ⟨⟨lexemes, cut, signature⟩, numbers, fun params => ?_⟩
  rw [Compiled.bind_eq]
  cases resolved : resolveParameters r.signature params with
  | error e => rfl
  | ok values =>
      have checked := resolveParameters_checked resolved
      have legal := compile_legal h
      refine ⟨fun place member => ?_, fun limit bounded index expected actual => ?_, ?_⟩
      · rw [numbers] at member
        obtain ⟨i, inside, rfl⟩ := List.mem_mapIdx.1 member
        have room : values.length = r.signature.length := by simpa using checked.places
        have found : values[i]? = some values[i] := List.getElem?_eq_getElem (by omega)
        have passed := checked.fits i r.signature[i] values[i] (by simp [found])
          (List.getElem?_eq_getElem inside)
        exact ⟨_, found, congrArg some (checkValue_ok_iff.1 passed).1⟩
      · cases limit with
        | fixed count => simp [Limit.resolve]
        | parameter k =>
            obtain ⟨n, found⟩ := exists_limit (legal.limit _ bounded) checked
            rw [Limit.resolve_parameter found]
            split <;> simp
      · rcases withValues_of_checked h checked with ⟨-, bound⟩ | ⟨-, bound⟩
        · exact .inl bound
        · exact .inr bound

def fleet : Category := ⟨"vm", [⟨"load", .scalar .int⟩, ⟨"name", .scalar .string⟩], []⟩

/-- A search with a literal in its condition and three parameters. -/
def search : Compiled :=
  let load : Key := ⟨"load", .scalar .int⟩
  let name : Key := ⟨"name", .scalar .string⟩
  { descriptor := "QUERY vm WHERE NOT 'load' < 5 AND 'name' IN ?s[ OR 'name' = ?s LIMIT ?i",
    category := "vm", kind := .query .select,
    signature := [.list .string, .scalar .string, .scalar .int], assignments := [],
    condition := some (.or
      (.and (.not (.compare load .less (.literal (.int 5)))) (.member name (.parameter 0)))
      (.compare name .equal (.parameter 1))),
    sort := [], limit := some (.parameter 2) }

theorem compile_search : compile fleet search.descriptor = .ok search := by
  with_unfolding_all rfl

/-- Parameters for the search, the limit before the rest. -/
def searched (limit : Int32) : List Parameter :=
  [.ofValue 2 (.int limit), .ofValue 0 (.list .string ["a", "b"]), .ofValue 1 (.string "c")]

/-- A search for no rows at all gets as far as its limit: each place of the search finds a value of
its type. -/
theorem search_for_nothing_reaches_limit :
    compile fleet search.descriptor = .ok search ∧
    search.places = [(0, some (.list .string)), (1, some (.scalar .string)),
      (2, some (.scalar .int))] ∧
    ∃ values, resolveParameters search.signature (searched 0) = .ok values ∧
      (∀ place ∈ search.places, ∃ value, values[place.1]? = some value ∧
        some value.type = place.2) ∧
      ∃ n ≤ 0, search.bind (searched 0) = .error (.invalidLimit n) := by
  obtain ⟨-, places, bound⟩ := parameters_are_numbered compile_search
  have resolved : resolveParameters search.signature (searched 0) =
      .ok [.list .string ["a", "b"], .string "c", .int 0] := rfl
  replace bound := bound (searched 0)
  rw [resolved] at bound
  obtain ⟨found, -, ⟨b, bound⟩ | refused⟩ := bound
  · contradiction
  · exact ⟨compile_search, places, _, resolved, found, refused⟩

/-- Parameters match a statement: there is one for each number, of the type that the
signature has for it, every double in them is finite, and one for the limit is positive. -/
structure Compiled.Matches (r : Compiled) (params : List Parameter) : Prop where
  count : params.length = r.signature.length
  distinct : (params.map Parameter.index).Nodup
  inRange : ∀ p ∈ params, p.index < r.signature.length
  typed : ∀ p ∈ params, ∀ type, r.signature[p.index]? = some type →
    p.declared = type ∧ p.value.type = type
  finite : ∀ p ∈ params, ∀ x ∈ p.value.doubles, ∃ y, x = .finite y
  limited : ∀ p ∈ params, r.limit = some (.parameter p.index) →
    ∃ n, p.value = .int n ∧ 0 < n.toInt

theorem fits_iff {signature : List ValueType} {p : Parameter} : Fits signature p ↔
    p.index < signature.length ∧
      (∀ type, signature[p.index]? = some type → p.declared = type ∧ p.value.type = type) ∧
      ∀ x ∈ p.value.doubles, ∃ y, x = .finite y := by
  rw [Fits, Value.isFinite_iff]
  constructor
  · rintro ⟨found, same, finite⟩
    refine ⟨(List.getElem?_eq_some_iff.1 found).1, fun type wanted => ?_, finite⟩
    obtain rfl := Option.some.inj (found.symm.trans wanted)
    exact ⟨rfl, same⟩
  · rintro ⟨inside, typed, finite⟩
    have found := List.getElem?_eq_getElem inside
    obtain ⟨declared, type⟩ := typed _ found
    exact ⟨found.trans (congrArg some declared.symm), type.trans declared.symm, finite⟩

/-- A limit is positive among resolved values as it is among the parameters. -/
theorem limited_iff {params : List Parameter} {values : List Value}
    (h : compile c descriptor = .ok r)
    (resolved : resolveParameters r.signature params = .ok values) :
    r.Limited values ↔ ∀ p ∈ params, r.limit = some (.parameter p.index) →
      ∃ n, p.value = .int n ∧ 0 < n.toInt := by
  obtain ⟨⟨count, distinct, fits⟩, -, found⟩ := resolveParameters_ok_iff.1 resolved
  constructor
  · intro limited p member bounded
    obtain ⟨n, given, positive⟩ := limited _ bounded
    exact ⟨n, Option.some.inj ((found p member).symm.trans given), positive⟩
  · intro limited k bounded
    have wanted : r.signature[k]? = some (.scalar .int) := (compile_legal h).limit _ bounded
    obtain ⟨inside, -⟩ := List.getElem?_eq_some_iff.1 wanted
    have number : k ∈ params.map Parameter.index := mem_number count distinct fits inside
    obtain ⟨p, member, rfl⟩ := List.mem_map.1 number
    obtain ⟨n, given, positive⟩ := limited p member bounded
    exact ⟨n, (found p member).trans (congrArg some given), positive⟩

theorem matches_iff {params : List Parameter} : r.Matches params ↔
    (params.length = r.signature.length ∧ (params.map Parameter.index).Nodup ∧
      ∀ p ∈ params, Fits r.signature p) ∧
    ∀ p ∈ params, r.limit = some (.parameter p.index) → ∃ n, p.value = .int n ∧ 0 < n.toInt := by
  simp only [fits_iff]
  constructor
  · rintro ⟨count, distinct, inRange, typed, finite, limited⟩
    exact ⟨⟨count, distinct, fun p m => ⟨inRange p m, typed p m, finite p m⟩⟩, limited⟩
  · rintro ⟨⟨count, distinct, fits⟩, limited⟩
    exact ⟨count, distinct, fun p m => (fits p m).1, fun p m => (fits p m).2.1,
      fun p m => (fits p m).2.2, limited⟩

/-- A statement is bound exactly by the parameters that match it, in any order, and it is never
said that one of them is not bound. -/
theorem bind_ok_iff_matches (h : compile c descriptor = .ok r) :
    (∀ params, (∃ b, r.bind params = .ok b) ↔ r.Matches params) ∧
    (∀ params others : List Parameter, others.Perm params →
      ∀ b, r.bind others = .ok b ↔ r.bind params = .ok b) ∧
    ∀ params index, r.bind params ≠ .error (.unbound index) := by
  refine ⟨fun params => ?_, fun params others same b => ?_, fun params index => ?_⟩
  · rw [Compiled.bind_eq, matches_iff]
    constructor
    · rintro ⟨b, bound⟩
      obtain ⟨values, resolved, placed⟩ := bind_eq_ok_iff.1 bound
      refine ⟨(resolveParameters_ok_iff.1 resolved).1, (limited_iff h resolved).1 ?_⟩
      rcases withValues_of_checked h (resolveParameters_checked resolved) with
        ⟨limited, -⟩ | ⟨-, n, -, refused⟩
      · exact limited
      · exact absurd (placed.symm.trans refused) (by simp)
    · rintro ⟨⟨count, distinct, fits⟩, limited⟩
      obtain ⟨values, resolved⟩ := exists_resolved count distinct fits
      rw [resolved]
      rcases withValues_of_checked h (resolveParameters_checked resolved) with
        ⟨-, bound⟩ | ⟨illegal, -⟩
      · exact bound
      · exact absurd ((limited_iff h resolved).2 limited) illegal
  · simp only [Compiled.bind_eq]
    exact (bind_eq_ok_iff.trans (exists_congr fun values => and_congr_left fun _ =>
      resolveParameters_perm same)).trans bind_eq_ok_iff.symm
  · rw [Compiled.bind_eq]
    cases resolved : resolveParameters r.signature params with
    | error e =>
        intro same
        obtain rfl := Except.error.inj same
        exact resolveParameters_bound resolved
    | ok values =>
        rcases withValues_of_checked h (resolveParameters_checked resolved) with
          ⟨-, b, bound⟩ | ⟨-, n, -, refused⟩
        · simp [Except.bind, bound]
        · simp [Except.bind, refused]

/-- The search takes its parameters in any order, and it does not matter for a complaint that the
limit is all there is. -/
theorem search_takes_parameters_in_any_order :
    compile fleet search.descriptor = .ok search ∧
    (∃ b, search.bind (searched 3) = .ok b ∧ search.bind (searched 3).reverse = .ok b) ∧
    (¬ ∃ b, search.bind (searched 0) = .ok b) ∧
    ∀ index, search.bind [.ofValue 2 (.int 3)] ≠ .error (.unbound index) := by
  obtain ⟨bound, reordered, unbound⟩ := bind_ok_iff_matches compile_search
  have matching : search.Matches (searched 3) := by
    refine ⟨rfl, by decide, by decide, ?_, ?_, ?_⟩ <;>
      simp +decide [searched, search, Parameter.ofValue, Value.type, Value.doubles, Value.int,
        Value.string]
  obtain ⟨b, accepted⟩ := (bound _).2 matching
  refine ⟨compile_search, ⟨b, accepted, (reordered _ _ (List.reverse_perm _) b).2 accepted⟩,
    fun refused => ?_, unbound _⟩
  obtain ⟨n, same, positive⟩ := ((bound _).1 refused).limited _ List.mem_cons_self rfl
  simp only [Parameter.ofValue, Value.int, Value.scalar.injEq, heq_eq_eq, true_and] at same
  subst same
  exact absurd positive (by decide)

end FleetStore.Descriptor
