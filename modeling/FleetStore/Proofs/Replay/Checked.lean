import FleetStore.Proofs.Binding.Typed
import FleetStore.Proofs.Config.Loaded
import FleetStore.Proofs.Language.Cache
import FleetStore.Proofs.Replay.Runs

/-! # Statements that pass their check

A check compiles a statement and reads its parameters, and it runs nothing. What is read
for a parameter fits it, so a statement that passes can be bound, unless it is given a
limit that is not positive, and once it is bound nothing can go wrong in running it.
A replay comes to the same compiled statement by way of the cache.
-/

namespace FleetStore

open Descriptor

/-! ## Parameters -/

namespace Config.StatementEntry

variable {s : StatementEntry} {env : Environment} {signature : List ValueType} {values : List Value}

theorem valuesFrom_getElem? {params : List Json} {index : Nat}
    (ok : s.valuesFrom env index signature params = .ok values) {k : Nat} {v : Value}
    (found : values[k]? = some v) :
    ∃ type param, signature[k]? = some type ∧ params[k]? = some param ∧
      Value.ofJson? type (env.expandStrings param) = some v := by
  induction signature generalizing params index values k with
  | nil =>
      cases params <;> simp only [valuesFrom, Except.ok.injEq] at ok <;> simp [← ok] at found
  | cons type types ih =>
      cases params with
      | nil =>
          simp only [valuesFrom, Except.ok.injEq] at ok
          simp [← ok] at found
      | cons param params =>
          unfold valuesFrom at ok
          split at ok
          · contradiction
          · next value read =>
              obtain ⟨more, later, rfl⟩ := map_eq_ok_iff.1 ok
              cases k with
              | zero =>
                  obtain rfl := Option.some.inj found
                  exact ⟨type, param, rfl, rfl, read⟩
              | succ k => exact ih later found

/-- A value stands for the document in its place and is of the type of the place. -/
theorem values_getElem? (ok : s.values env signature = .ok values) {k : Nat} {v : Value}
    (found : values[k]? = some v) :
    ∃ type param, signature[k]? = some type ∧ s.params[k]? = some param ∧
      Value.ofJson? type (env.expandStrings param) = some v := by
  unfold StatementEntry.values at ok
  split at ok
  · contradiction
  · exact valuesFrom_getElem? ok found

/-- What is read for parameters passes the checks of setters and of patches. -/
theorem checkValues_of_values (bounded : ∀ param ∈ s.params, param.Bounded)
    (ok : s.values env signature = .ok values) : checkValues signature 0 values = .ok () := by
  have places := values_length ok
  refine Prepared.checkValues_ok (by omega) fun k expected v found wanted => ?_
  rw [Nat.zero_add] at wanted ⊢
  obtain ⟨type, param, same, there, read⟩ := values_getElem? ok found
  obtain rfl := Option.some.inj (wanted.symm.trans same)
  have inside := bounded param (List.mem_of_getElem? there)
  exact checkValue_ok_iff.2 (Value.ofJson?_fits (env.bounded_expandStrings inside) read)

/-- A query is given an integer for a limit that is left to a parameter. -/
def GivesLimit (s : StatementEntry) (compiled : Compiled) (n : Int) : Prop :=
  compiled.kind.isQuery = true ∧
    ∃ k, compiled.limit = some (.parameter k) ∧ s.params[k]? = some (.int n)

/-- A statement takes what is read for its parameters unless it is given a limit that is not
positive. -/
theorem withValues_cases {compiled : Compiled} {category : Category} (legal : compiled.Legal category)
    (ok : s.values env compiled.signature = .ok values) :
    (∃ b, compiled.withValues values = .ok b) ∧ (∀ n ≤ 0, ¬ s.GivesLimit compiled n) ∨
      ∃ n ≤ 0, compiled.withValues values = .error (.invalidLimit n) ∧ s.GivesLimit compiled n := by
  cases query : compiled.kind.isQuery with
  | false => exact .inl ⟨Compiled.withValues_write_ok query, by simp [GivesLimit, query]⟩
  | true =>
      cases bounded : compiled.limit with
      | none => exact .inl ⟨Compiled.withValues_unlimited query bounded, by simp [GivesLimit, bounded]⟩
      | some limit =>
          have limited := Compiled.withValues_limited values query bounded
          cases limit with
          | fixed count => exact .inl ⟨limited, by simp [GivesLimit, bounded]⟩
          | parameter k =>
              have wanted : compiled.signature[k]? = some (.scalar .int) := legal.limit _ bounded
              obtain ⟨inside, _⟩ := List.getElem?_eq_some_iff.1 wanted
              rw [← values_length ok] at inside
              have found := List.getElem?_eq_getElem inside
              obtain ⟨type, param, same, there, read⟩ := values_getElem? ok found
              obtain rfl := Option.some.inj (wanted.symm.trans same)
              obtain ⟨n, given, value⟩ := Value.ofJson?_int read
              obtain rfl := env.expandStrings_eq_int.1 given
              have gives (m : Int) : s.GivesLimit compiled m ↔ m = n.toInt := by
                simp [GivesLimit, query, bounded, there, eq_comm]
              simp only [Limit.resolve_parameter (found.trans (congrArg some value))] at limited
              by_cases positive : 0 < n.toInt
              · rw [if_pos positive] at limited
                refine .inl ⟨limited, fun m small given => ?_⟩
                have := (gives m).1 given
                omega
              · rw [if_neg positive] at limited
                exact .inr ⟨n.toInt, by omega, limited, (gives _).2 rfl⟩

end Config.StatementEntry

/-! ## Checked statements -/

namespace Config

variable {c : Config} {env : Environment} {s : StatementEntry} {compiled : Compiled}

theorem checkStatement_ok (ok : c.checkStatement env s = .ok compiled) :
    ∃ e category values, c.category? s.category = some e ∧ e.declare = .ok category ∧
      compile category s.descriptor = .ok compiled ∧ s.values env compiled.signature = .ok values := by
  unfold checkStatement at ok
  split at ok
  · contradiction
  · next e found =>
      obtain ⟨category, declared, ok⟩ := bind_eq_ok_iff.1 ok
      obtain ⟨compiled', compiles, ok⟩ := bind_eq_ok_iff.1 ok
      obtain ⟨values, given, ok⟩ := bind_eq_ok_iff.1 ok
      obtain rfl := Except.ok.inj ok
      exact ⟨e, category, values, found, mapError_eq_ok_iff.1 declared, mapError_eq_ok_iff.1 compiles,
        given⟩

/-- What a statement comes to once its values are in place, if it passes its check and its
limit is positive. -/
def bound? (c : Config) (env : Environment) (s : StatementEntry) : Option BoundStatement := do
  let compiled ← (c.checkStatement env s).toOption
  let values ← (s.values env compiled.signature).toOption
  (compiled.withValues values).toOption

/-- The statement of an index fails its check, or it is given a limit that is not positive. -/
def Amiss (c : Config) (env : Environment) (i : Nat) : Prop :=
  (∃ fault, (c.check env)[i]? = some (.error fault)) ∨
    ∃ compiled s, ∃ n ≤ 0, (c.check env)[i]? = some (.ok compiled) ∧ c.statements[i]? = some s ∧
      s.GivesLimit compiled n

theorem bound?_of_error {fault : Fault} (checked : c.checkStatement env s = .error fault) :
    c.bound? env s = none := by
  simp [bound?, checked, Except.toOption]

theorem bound?_of_ok {values : List Value} (checked : c.checkStatement env s = .ok compiled)
    (given : s.values env compiled.signature = .ok values) :
    c.bound? env s = (compiled.withValues values).toOption := by
  simp [bound?, checked, given, Except.toOption]

theorem bound?_eq_none_iff : c.bound? env s = none ↔
    (∃ fault, c.checkStatement env s = .error fault) ∨
      ∃ compiled, ∃ n ≤ 0, c.checkStatement env s = .ok compiled ∧ s.GivesLimit compiled n := by
  cases checked : c.checkStatement env s with
  | error fault => simp [bound?_of_error checked]
  | ok compiled =>
      obtain ⟨e, category, values, _, _, compiles, given⟩ := checkStatement_ok checked
      rw [bound?_of_ok checked given]
      rcases s.withValues_cases (compile_legal compiles) given with
        ⟨⟨b, bound⟩, positive⟩ | ⟨n, small, bound, gives⟩
      · simpa [bound, Except.toOption] using positive
      · simpa [bound, Except.toOption] using ⟨n, small, gives⟩

theorem amiss_iff {i : Nat} : c.Amiss env i ↔ ∃ s, c.statements[i]? = some s ∧ c.bound? env s = none := by
  cases found : c.statements[i]? with
  | none => simp [Amiss, check, found]
  | some s =>
      simp only [Amiss, check, List.getElem?_map, found, Option.map_some, Option.some.injEq,
        exists_eq_left', bound?_eq_none_iff]
      refine or_congr_right (exists_congr fun compiled => ?_)
      simp

theorem not_amiss_iff {i : Nat} : (∀ j < i, ¬ c.Amiss env j) ↔
    ∀ s ∈ c.statements.take i, (c.bound? env s).isSome := by
  constructor
  · intro fine s member
    obtain ⟨j, found⟩ := List.getElem?_of_mem member
    rw [List.getElem?_take] at found
    split at found
    · next before =>
        by_contra missing
        exact fine j before (amiss_iff.2 ⟨s, found, Option.not_isSome_iff_eq_none.1 missing⟩)
    · contradiction
  · intro bound j before amiss
    obtain ⟨s, found, missing⟩ := amiss_iff.1 amiss
    have member : s ∈ c.statements.take i :=
      List.mem_of_getElem? (i := j) (by rw [List.getElem?_take, if_pos before, found])
    simpa [missing] using bound s member

theorem fine_iff : (∀ s ∈ c.statements, (c.bound? env s).isSome) ↔ ∀ i, ¬ c.Amiss env i := by
  have all : (∀ j < c.statements.length, ¬ c.Amiss env j) ↔ _ := not_amiss_iff
  rw [List.take_length] at all
  rw [← all]
  refine ⟨fun fine i amiss => ?_, fun fine i _ => fine i⟩
  obtain ⟨s, found, _⟩ := amiss_iff.1 amiss
  obtain ⟨inside, _⟩ := List.getElem?_eq_some_iff.1 found
  exact fine i inside amiss

end Config

/-! ## The store at the start -/

namespace Config

theorem CategoryEntry.declare_keys {e : CategoryEntry} {category : Category}
    (ok : e.declare = .ok category) : category.keys = e.keys := by
  obtain ⟨index, _, ok⟩ := bind_eq_ok_iff.1 ok
  unfold Category.declare at ok
  repeat' split at ok
  all_goals first
    | contradiction
    | exact (congrArg Category.keys (Except.ok.inj ok)).symm

/-- The table of a category before anything is written. -/
def CategoryEntry.blank (e : CategoryEntry) : String × Table :=
  (e.name, ⟨e.keys, []⟩)

/-- The tables of a configuration before any of its statements is run. -/
def blank (c : Config) : Tables :=
  .ofList (c.categories.map CategoryEntry.blank)

end Config

namespace Unqueued

theorem registerAll_eq_ok {entries : List Config.CategoryEntry} (h : Config.Declarable entries)
    (m : MemoryStore) (new : ∀ e ∈ entries, m.tables.get? e.name = none) :
    registerAll m entries =
      .ok { m with tables := m.tables.insertAll (entries.map Config.CategoryEntry.blank) } := by
  induction entries generalizing m with
  | nil => rfl
  | cons e rest ih =>
      obtain ⟨category, declared⟩ := h.declared e List.mem_cons_self
      obtain ⟨others, _⟩ := List.pairwise_cons.1 h.different
      have absent := new e List.mem_cons_self
      have name := Config.CategoryEntry.declare_name declared
      have keys := Config.CategoryEntry.declare_keys declared
      have registered : Store.register m category =
          .ok { m with tables := m.tables.insert e.name ⟨e.keys, []⟩ } := by
        simp only [Store.register, MemoryStore.register, name, keys, absent]
      have later := ih h.tail { m with tables := m.tables.insert e.name ⟨e.keys, []⟩ }
        fun f member => by
          rw [Dict.get?_insert, if_neg (others f member)]
          exact new f (List.mem_cons_of_mem _ member)
      simp only [registerAll, declared, mapError_ok, registered, later, bind, Except.bind]
      rfl

/-- A store on which statements can be run, with a cache that answers as compiling does. -/
structure Kept (c : Config) (m : MemoryStore) : Prop where
  ready : Ready c m
  filled : ∃ asked, Cache.Filled asked m.cache

theorem kept_of_validate {c : Config} (valid : c.validate = .ok ()) :
    ∃ m, registerAll .empty c.categories = .ok m ∧ Kept c m ∧ m.tables = c.blank := by
  obtain ⟨m, ok, ready⟩ := ready_of_validate valid
  have same := registerAll_eq_ok (Config.declarable_of_validate valid) .empty
    fun e _ => Dict.get?_empty e.name
  obtain rfl := Except.ok.inj (ok.symm.trans same)
  exact ⟨_, ok, ⟨ready, [], Cache.filled_empty⟩, rfl⟩

variable {c : Config} {env : Environment} {m : MemoryStore} {p : Progress}

theorem Kept.after (h : Kept c p.store) (b : BoundStatement) : Kept c (p.after b).store :=
  ⟨h.ready.after b, by cases b <;> exact h.filled⟩

/-- What is prepared is what compiling comes to. -/
theorem Kept.prepare (h : Kept c m) {e : Config.CategoryEntry} {category : Category}
    (member : e ∈ c.categories) (declared : e.declare = .ok category) (descriptor : String) :
    match compile category descriptor with
    | .error fault => Store.prepare m category descriptor = .error fault
    | .ok compiled => ∃ cache,
        Store.prepare m category descriptor = .ok (.ofCompiled compiled, { m with cache }) ∧
          Kept c { m with cache } ∧ (m.tables.get? compiled.category).isSome := by
  obtain ⟨asked, filled⟩ := h.filled
  obtain ⟨filled', _, same, _⟩ := filled.answer ⟨category, descriptor⟩
  simp only [Cache.answer, Inquiry.compiled] at filled' same
  have prepared : Store.prepare m category descriptor =
      (m.cache.getOrCompile category descriptor).map fun found =>
        (.ofCompiled found.1.compiled, { m with cache := found.2 }) := rfl
  cases got : m.cache.getOrCompile category descriptor with
  | error fault =>
      simp only [got, Except.map] at same prepared
      rw [← same]
      exact prepared
  | ok found =>
      obtain ⟨entry, cache⟩ := found
      simp only [got, Except.map] at same prepared filled'
      rw [← same]
      obtain ⟨ready, compiled, statement, registered⟩ := h.ready.prepare member declared prepared
      obtain rfl := congrArg Prepared.compiled statement
      exact ⟨cache, prepared, ⟨ready, _, filled'⟩, registered⟩

/-! ## Statement by statement -/

/-- A statement that is amiss fails, and if it has passed its check, it fails for its limit.
Any other statement is run as it was bound. -/
theorem Kept.runStatement (h : Kept c p.store) (declarable : Config.Declarable c.categories)
    (env : Environment) {s : Config.StatementEntry} (bounded : ∀ param ∈ s.params, param.Bounded) :
    match c.bound? env s with
    | some b => ∃ cache, Kept c { p.store with cache } ∧
        runStatement c env p s = .ok ({ p with store := { p.store with cache } }.after b)
    | none => ∃ failure, runStatement c env p s = .error failure ∧
        ∀ compiled, c.checkStatement env s = .ok compiled →
          ∃ n ≤ 0, failure = .store (.execution (.patch (.invalidLimit n))) := by
  unfold Unqueued.runStatement
  cases found : c.category? s.category with
  | none =>
      have checked : c.checkStatement env s = .error (.undeclared s.category) := by
        simp only [Config.checkStatement, found]
      simp [Config.bound?_of_error checked, checked]
  | some e =>
      have member := List.mem_of_find?_eq_some found
      obtain ⟨category, declared⟩ := declarable.declared e member
      have prepared := h.prepare member declared s.descriptor
      simp only [declared, mapError_ok, bind, Except.bind]
      cases compiles : compile category s.descriptor with
      | error fault =>
          have checked : c.checkStatement env s = .error (.descriptor fault) := by
            simp [Config.checkStatement, found, declared, compiles, bind, Except.bind]
          simp only [compiles] at prepared
          simp [Config.bound?_of_error checked, checked, prepared]
      | ok compiled =>
          simp only [compiles] at prepared
          obtain ⟨cache, prepared, kept, registered⟩ := prepared
          simp only [prepared, mapError_ok, Prepared.ofCompiled]
          cases given : s.values env compiled.signature with
          | error fault =>
              have checked : c.checkStatement env s = .error fault := by
                simp [Config.checkStatement, found, declared, compiles, given, bind, Except.bind]
              simp [Config.bound?_of_error checked, checked]
          | ok values =>
              have checked : c.checkStatement env s = .ok compiled := by
                simp [Config.checkStatement, found, declared, compiles, given, bind, Except.bind, pure,
                  Except.pure]
              have places := Config.StatementEntry.values_length given
              have passed := Config.StatementEntry.checkValues_of_values bounded given
              rw [Config.bound?_of_ok checked given]
              rcases s.withValues_cases (compile_legal compiles) given with
                ⟨⟨b, bound⟩, _⟩ | ⟨n, small, illegal, _⟩
              · simp only [bound, Except.toOption]
                exact ⟨cache, kept, Progress.runBound_legal (p := { p with store := _ }) places passed
                  bound registered⟩
              · simp only [illegal, Except.toOption]
                exact ⟨_, Progress.runBound_illegal places passed illegal, fun _ _ => ⟨n, small, rfl⟩⟩

end Unqueued

end FleetStore
