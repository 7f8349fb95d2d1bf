import FleetStore.Proofs.Store.Addressed
import FleetStore.Proofs.Store.Selected

/-! # What lookups are answered

A cache that was only ever filled by preparing statements holds what its keys compile to, so a
descriptor is run as it compiles, whatever was prepared before. A lookup that is run with
values for its tests finds the records that pass all of them, in the order of its key.
-/

namespace FleetStore

open Descriptor

/-! ## Exact caches -/

namespace Descriptor.Cache

/-- Every entry holds what each inquiry with its key compiles to. -/
def Exact (cache : Cache) : Prop :=
  ∀ entry ∈ cache.entries, ∀ i : Inquiry, i.key = entry.key → i.compiled = .ok entry.compiled

variable {cache cache' : Cache} {c : Category} {descriptor : String}

theorem exact_empty : empty.Exact := by simp [Exact, empty]

theorem Exact.getOrCompile (h : cache.Exact) {entry : CacheEntry}
    (ok : cache.getOrCompile c descriptor = .ok (entry, cache')) :
    cache'.Exact ∧ compile c descriptor = .ok entry.compiled := by
  let asked : Inquiry := ⟨c, descriptor⟩
  have new (n : Nat) (compiled : Compiled) (compiles : compile c descriptor = .ok compiled)
      (i : Inquiry) (same : i.key = asked.key) : i.compiled = .ok compiled :=
    (Inquiry.compiled_same same).trans compiles
  obtain ⟨kept, exact, key⟩ := Cache.getOrCompile_keeps h new ok
  exact ⟨kept, exact asked key.symm⟩

end Descriptor.Cache

namespace MemoryStore

/-- A descriptor that compiles is prepared as it compiles. -/
theorem prepare_compiled {m : MemoryStore} (exact : m.cache.Exact) {c : Category}
    {descriptor : String} {r : Compiled} (compiles : compile c descriptor = .ok r) :
    ∃ cache, m.prepare c descriptor = .ok (.ofCompiled r, { m with cache }) := by
  unfold prepare
  cases got : m.cache.getOrCompile c descriptor with
  | ok found =>
      obtain ⟨entry, cache⟩ := found
      have same := (exact.getOrCompile got).2
      rw [compiles] at same
      obtain rfl := Except.ok.inj same
      exact ⟨cache, rfl⟩
  | error e =>
      unfold Cache.getOrCompile at got
      rw [compiles] at got
      split at got <;> contradiction

end MemoryStore

namespace Session

variable {w w' : Session}

theorem Step.exact (step : Step w w') (h : w.store.cache.Exact) : w'.store.cache.Exact := by
  cases step with
  | register c store declared ok =>
      rcases MemoryStore.register_ok ok with ⟨-, rfl⟩ | ⟨-, rfl⟩ <;> exact h
  | handle store hands step =>
      cases step with
      | prepare c descriptor statement _ ok =>
          obtain ⟨entry, cache, got, -, rfl⟩ := MemoryStore.prepare_ok ok
          exact (h.getOrCompile got).1
      | copy | set | patch => exact h
  | execute statement store known ok =>
      obtain ⟨b, -, applied⟩ := MemoryStore.execute_ok ok
      obtain ⟨tables, -, rfl⟩ := MemoryStore.applyWrite_ok applied
      exact h
  | apply b store known ok =>
      obtain ⟨tables, -, rfl⟩ := MemoryStore.applyWrite_ok ok
      exact h
  | purge | aside => exact h

theorem Leads.exact (reached : w.Leads w') (h : w.store.cache.Exact) : w'.store.cache.Exact := by
  induction reached with
  | here => exact h
  | step _ next ih => exact next.exact ih

end Session

/-! ## Running a descriptor -/

/-- Values with the indices of the parameters they are for. -/
def byIndex (values : List Value) : List (Nat × Value) :=
  values.mapIdx fun index value => (index, value)

/-- A descriptor that compiles and whose values fit is run as the query that it comes to, and at
most the cache is changed. -/
theorem Store.queryDescriptor_eq (α : Type) {m : MemoryStore} (exact : m.cache.Exact) {c : Category}
    {descriptor : String} {r : Compiled} (compiles : compile c descriptor = .ok r)
    {values : List Value} (places : values.length = r.signature.length)
    (passed : checkValues r.signature 0 values = .ok ()) {q : BoundQuery}
    (bound : r.withValues values = .ok (.query q)) :
    ∃ cache, (Store.queryDescriptor m c descriptor (byIndex values) :
      Except StoreError (Cursor α) × MemoryStore) =
        ((m.runQuery q).mapError .execution, { m with cache }) := by
  obtain ⟨cache, prepared⟩ := MemoryStore.prepare_compiled exact compiles
  have set := Prepared.setParameters_inOrder places
  have query : Prepared.boundQuery ⟨r, values.map some⟩ = .ok q := by
    rw [Prepared.boundQuery, Prepared.bound_inOrder places passed, bound]
    rfl
  rw [passed] at set
  refine ⟨cache, ?_⟩
  simp only [Store.queryDescriptor, Store.withBound, Store.prepare, prepared, byIndex, set,
    Except.map, Store.executeQuery, MemoryStore.executeQuery, query, Except.bind]
  rfl

/-! ## The answer to a lookup -/

namespace Descriptor.Lookup

/-- A record passes all tests of a lookup against values in the order of the tests. -/
def passes (q : Lookup) (values : List Value) (r : Record) : Bool :=
  (q.tests.zip values).all fun p => (Expression.compare p.1.1 p.1.2 p.2).holds r

theorem holds_foldl_and (first : Condition) (more : List Condition) (values : List Value)
    (r : Record) : ((more.foldl .and first).resolve values).holds r =
      (first :: more).all fun e => (e.resolve values).holds r := by
  induction more generalizing first with
  | nil => simp
  | cons e rest ih =>
      rw [List.foldl_cons, ih]
      simp [Condition.resolve, Expression.holds, Bool.and_assoc]

theorem all_conditions (done : List Value) {values : List Value} {tests : List (Key × Comparison)}
    (places : values.length = tests.length) (r : Record) :
    ((conditions done.length tests).all fun e => (e.resolve (done ++ values)).holds r) =
      (tests.zip values).all fun p => (Expression.compare p.1.1 p.1.2 p.2).holds r := by
  induction tests generalizing done values with
  | nil => simp [conditions]
  | cons t rest ih =>
      obtain ⟨v, more, rfl⟩ := List.exists_cons_of_length_eq_add_one places
      have later := ih (done ++ [v]) (Nat.succ.inj places)
      rw [List.length_append, List.append_assoc] at later
      rw [conditions_cons, List.all_cons, List.zip_cons_cons, List.all_cons, ← later]
      simp [Condition.resolve, Term.resolve]

theorem satisfies_condition (q : Lookup) {values : List Value}
    (places : values.length = q.tests.length) (r : Record) :
    satisfies (q.condition.map (·.resolve values)) r = q.passes values r := by
  have all := all_conditions [] places r
  unfold condition passes
  cases tests : q.tests with
  | nil => rfl
  | cons first more =>
      rw [← tests, ← all, tests, List.length_nil, conditions_cons]
      exact holds_foldl_and _ _ values r

/-- The query that a lookup comes to with values for its tests. -/
def query (q : Lookup) (category : String) (values : List Value) : BoundQuery where
  category := category
  kind := .select
  condition := q.condition.map (·.resolve values)
  sort := [(q.key, q.direction)]
  limit := q.limit.map fun n => n.toInt.toNat

theorem withValues_compiled (q : Lookup) (category descriptor : String) (values : List Value) :
    (q.compiled category descriptor).withValues values = .ok (.query (q.query category values)) := by
  simp only [Compiled.withValues, compiled, query]
  cases q.limit <;> rfl

/-- The rows of a lookup are the records that pass its tests in the order of its key, as many of the
first as it allows. -/
theorem rowsOf_query (q : Lookup) (category : String) {values : List Value}
    (places : values.length = q.tests.length) (records : List Record) :
    (q.query category values).rowsOf records =
      BoundQuery.upTo (q.limit.map fun n => n.toInt.toNat)
        (sortRecords [(q.key, q.direction)] (records.filter (q.passes values))) := by
  have same : records.filter (satisfies (q.query category values).condition) =
      records.filter (q.passes values) :=
    List.filter_congr fun r _ => q.satisfies_condition places r
  simp only [BoundQuery.rowsOf, same]
  rfl

section

variable {q : Lookup} {c : Category} {descriptor : String}
variable (compiles : Descriptor.compile c descriptor = .ok (q.compiled c.name descriptor))
variable {values : List Value} (types : values.map Value.type = q.tests.map fun t => t.1.type)
variable (finite : ∀ v ∈ values, v.isFinite = true)
variable {m : MemoryStore} (exact : m.cache.Exact)
variable {table : Table} (found : m.tables.get? c.name = some table)

include compiles types finite exact found

/-- A lookup that is run with finite values of the types of its tests has its rows before it. -/
theorem cursor (α : Type) :
    (Store.queryDescriptor m c descriptor (byIndex values) :
      Except StoreError (Cursor α) × MemoryStore).1 =
      .ok (.ofRecords (BoundQuery.upTo (q.limit.map fun n => n.toInt.toNat)
        (sortRecords [(q.key, q.direction)] (table.records.filter (q.passes values))))) := by
  have places : values.length = q.tests.length := by
    simpa using congrArg List.length types
  have passed : checkValues (q.compiled c.name descriptor).signature 0 values = .ok () := by
    refine Prepared.checkValues_ok (by simp [compiled, places]) fun i expected value there wanted => ?_
    have type : (values.map Value.type)[i]? = some expected := by
      rw [types, ← Nat.zero_add i]
      exact wanted
    rw [List.getElem?_map, there] at type
    exact checkValue_ok_iff.2 ⟨Option.some.inj type, finite value (List.mem_of_getElem? there)⟩
  obtain ⟨cache, run⟩ := Store.queryDescriptor_eq α exact compiles
    (by simp [compiled, places]) passed (q.withValues_compiled c.name descriptor values)
  have table : m.tables.get? (q.query c.name values).category = some table := found
  rw [run, MemoryStore.runQuery_eq, table, ← q.rowsOf_query c.name places]
  rfl

/-- A lookup without a limit answers the records that pass its tests, in the order of its key. -/
theorem answer (unlimited : q.limit = none) :
    (Store.queryList m c descriptor (byIndex values)).1 =
      .ok (sortRecords [(q.key, q.direction)] (table.records.filter (q.passes values))) := by
  have rows := cursor compiles types finite exact found Record
  rw [unlimited] at rows
  exact (congrArg (·.bind Cursor.collect) rows).trans (Cursor.collect_ofRecords _)

/-- A lookup for one row answers the first of the records that pass its tests. -/
theorem first (single : q.limit = some 1) :
    (Store.queryHead m c descriptor (byIndex values)).1 =
      .ok (sortRecords [(q.key, q.direction)] (table.records.filter (q.passes values))).head? := by
  have rows := cursor compiles types finite exact found Record
  rw [single] at rows
  refine (congrArg (·.bind Cursor.head) rows).trans ?_
  cases sortRecords [(q.key, q.direction)] (table.records.filter (q.passes values)) <;> rfl

end

end Descriptor.Lookup

end FleetStore
