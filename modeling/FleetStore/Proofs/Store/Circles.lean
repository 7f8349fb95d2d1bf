import FleetStore.Proofs.Language.Filling
import FleetStore.Proofs.Store.Session
import FleetStore.Proofs.Table.Ranking

/-! # Sort keys that go round in circles

A sort key of any type is accepted, and sorting by keys that are not pojos ranks the records
of every table that clients can fill. A pojo may be any document that a setter takes, and
then an integer and a greater one can both tie with a number between them to which the
nearest double of both is equal. So sorting by a pojo goes round in circles in some table,
unless all its documents are objects, which tie.
-/

namespace FleetStore

open Descriptor

/-! ## Records with one field -/

/-- A record with nothing but one field. -/
def single (name : String) (j : Json) : Record :=
  .ofList [(name, j)]

theorem get?_single (name field : String) (j : Json) :
    (single name j).get? field = if name = field then some j else none := by
  rw [single, Dict.ofList, Dict.get?_insertAll]
  by_cases same : name = field <;> simp [Dict.find, same, Dict.empty, Dict.get?]

/-- Such records are in the order that the first sort key for the field puts their documents in. -/
theorem orderRecords_single (name : String) (i j : Json) (sort : List (Key × SortDirection)) :
    orderRecords (single name i) (single name j) sort =
      match sort.find? (fun k => k.1.name = name) with
      | some k => k.2.apply (i.rank j)
      | none => .eq := by
  have ties (direction : SortDirection) : direction.apply .eq = .eq := by cases direction <;> rfl
  induction sort with
  | nil => rfl
  | cons k rest ih =>
      rw [orderRecords, ih, get?_single, get?_single]
      by_cases same : k.1.name = name
      · have head : orderFields (some i) (some j) = i.rank j := rfl
        simp only [same, if_true, head, List.find?_cons, decide_true]
        -- A later key for the same field has nothing to decide: it ties as the first one does.
        cases i.rank j with
        | lt | gt => cases k.2 <;> rfl
        | eq => split <;> simp [ties]
      · simp [same, Ne.symm same, orderFields, ties]

/-- Three documents of which the first ties with the second and the second with the third, but
the first is above the third. -/
structure Circle (i j k : Json) : Prop where
  first : i.rank j = .eq
  second : j.rank k = .eq
  turns : i.rank k = .gt

theorem Circle.not_ranks {i j k : Json} (h : Circle i j k) {sort : List (Key × SortDirection)}
    {key : Key} {direction : SortDirection} (member : (key, direction) ∈ sort) :
    ¬ Ranks sort [single key.name i, single key.name j, single key.name k] := by
  intro ranks
  have there : (sort.find? fun l => l.1.name = key.name).isSome :=
    List.find?_isSome.2 ⟨_, member, by simp⟩
  obtain ⟨l, found⟩ := Option.isSome_iff_exists.1 there
  have order (x y : Json) : orderRecords (single key.name x) (single key.name y) sort =
      l.2.apply (x.rank y) := by
    rw [orderRecords_single, found]
  cases down : l.2 with
  | ascending =>
      refine ranks.transitive (single key.name i) (by simp) (single key.name j) (by simp)
        (single key.name k) (by simp) ?_ ?_ ?_ <;> rw [order, down]
      · simp [h.first, SortDirection.apply]
      · simp [h.second, SortDirection.apply]
      · exact h.turns
  | descending =>
      -- Turned round, the circle is walked from its other end.
      refine ranks.transitive (single key.name k) (by simp) (single key.name j) (by simp)
        (single key.name i) (by simp) ?_ ?_ ?_ <;> rw [order, down, Json.rank_swap]
      · simp [h.second, SortDirection.apply]
      · simp [h.first, SortDirection.apply]
      · simp [h.turns, SortDirection.apply]

/-- 2⁵³ + 1, an integer that is no double. -/
def above : Json := .int 9007199254740993

/-- 2⁵³ as a double. -/
def between : Json := .float ⟨false, twoTo 52, 1075, by decide⟩

/-- 2⁵³ as an integer. -/
def beneath : Json := .int 9007199254740992

/-- Two integers compare exactly, and each of them with a double as the nearest double. -/
theorem circle_of_numbers : Circle above between beneath where
  first := by decide +kernel
  second := by decide +kernel
  turns := by decide +kernel

/-! ## Tables that clients can fill -/

namespace Session

variable {c : Category} {key : Key} {store : MemoryStore} {records : List Record}

/-- A session in which one category was registered and one statement prepared for it. -/
def withStatement (store : MemoryStore) (c : Category) (statement : Prepared)
    (records : List Record) : Session :=
  ⟨{ store with tables := (∅ : Tables).insert c.name ⟨c.keys, records⟩ },
    ⟨[c], [statement], []⟩, [c]⟩

theorem leads_prepared (declared : c.Declared) {r : Compiled}
    (compiles : compile c r.descriptor = .ok r) :
    ∃ store, new.Leads (withStatement store c (.ofCompiled r) []) := by
  let registered : MemoryStore :=
    { MemoryStore.empty with tables := (∅ : Tables).insert c.name ⟨c.keys, []⟩ }
  have register : new.store.register c = .ok registered := rfl
  have prepare : ∃ cache, registered.prepare c r.descriptor =
      .ok (.ofCompiled r, { registered with cache }) := by
    simp [MemoryStore.prepare, Cache.getOrCompile, Cache.find?, registered, MemoryStore.empty,
      Cache.empty, compiles, Except.map]
  obtain ⟨cache, prepared⟩ := prepare
  have first : new.Leads ⟨registered, .empty, [c]⟩ := .step .here (.register c _ declared register)
  exact ⟨{ registered with cache },
    first.step (.handle { registered with cache } _ (.prepare c _ _ _ prepared))⟩

/-- A value is set and the statement run, which adds a record with this value. -/
theorem fill {v : Value} {o : Option Value} (type : v.type = key.type) (finite : v.isFinite = true)
    (reached : new.Leads (withStatement store c ⟨filling c key, [o]⟩ records)) :
    new.Leads (withStatement store c ⟨filling c key, [some v]⟩
      (records ++ [single key.name v.toJson])) := by
  have accepted : (filling c key).Accepts 0 v := ⟨congrArg some type.symm, finite⟩
  have taken : Prepared.setParameter ⟨filling c key, [o]⟩ 0 v = .ok ⟨filling c key, [some v]⟩ :=
    Prepared.setParameter_ok_iff.2 ⟨accepted, rfl⟩
  have set := reached.step (.handle _ _ (.set [] ⟨filling c key, [o]⟩ [] 0 v rfl))
  simp only [Prepared.trySet, taken, List.nil_append] at set
  have passed : checkValues [key.type] 0 [v] = .ok () := by
    have fits : checkValue 0 key.type v = .ok () := checkValue_ok_iff.2 ⟨type, finite⟩
    simp [checkValues, fits, bind, Except.bind]
  have bound : Prepared.boundWrite ⟨filling c key, [some v]⟩ =
      .ok ⟨c.name, .add, [(key, v)], none⟩ := by
    have one : [v].length = (filling c key).signature.length := rfl
    have placed : Prepared.bound ⟨filling c key, [some v]⟩ =
        ((filling c key).withValues [v]).mapError .patch := Prepared.bound_inOrder one passed
    rw [Prepared.boundWrite, placed]
    rfl
  have written : (withStatement store c ⟨filling c key, [some v]⟩ records).store.execute
      ⟨filling c key, [some v]⟩ = .ok (withStatement store c ⟨filling c key, [some v]⟩
        (records ++ [single key.name v.toJson])).store := by
    simp [MemoryStore.execute, bound, MemoryStore.applyWrite, Tables.apply, Tables.write?,
      withStatement, BoundWrite.applyTo, BoundWrite.newRecord, assignedFields, single, Except.bind,
      Except.map, Dict.insert_insert]
  exact set.step (.execute ⟨filling c key, [some v]⟩ _ (List.mem_singleton_self _) written)

/-- A table can come to hold records with nothing but a value for one key, whatever these values
are. -/
theorem leads_filled (declared : c.Declared)
    (compiles : compile c (filling c key).descriptor = .ok (filling c key)) {values : List Value}
    (fits : ∀ v ∈ values, v.type = key.type ∧ v.isFinite = true) :
    ∃ w, new.Leads w ∧ w.hands.used = [c] ∧ w.registered = [c] ∧
      w.store.tables.get? c.name = some ⟨c.keys, values.map fun v => single key.name v.toJson⟩ := by
  have fillAll {store : MemoryStore} {o : Option Value} {records : List Record}
      (reached : new.Leads (withStatement store c ⟨filling c key, [o]⟩ records)) :
      ∃ o', new.Leads (withStatement store c ⟨filling c key, [o']⟩
        (records ++ values.map fun v => single key.name v.toJson)) := by
    induction values generalizing o records with
    | nil => exact ⟨o, by simpa using reached⟩
    | cons v rest ih =>
        obtain ⟨type, finite⟩ := fits v List.mem_cons_self
        obtain ⟨o', later⟩ := ih (fun v member => fits v (List.mem_cons_of_mem _ member))
          (fill type finite reached)
        exact ⟨o', by simpa using later⟩
  obtain ⟨store, prepared⟩ := leads_prepared declared compiles
  obtain ⟨o, filled⟩ := fillAll prepared
  exact ⟨_, filled, rfl, rfl, by simp [withStatement]⟩

/-! ## Sorting tables -/

/-- A category has a table at some moment of a run in which every statement is prepared for a
category that is registered in the run, sooner or later. -/
def HasTable (c : Category) (table : Table) : Prop :=
  ∃ w w', new.Leads w ∧ w.Leads w' ∧ (∀ d ∈ w'.hands.used, d ∈ w'.registered) ∧
    c ∈ w.registered ∧ w.store.tables.get? c.name = some table

/-- Sort keys of whatever types rank the records of a table if all pojos in it that they sort by
are objects. -/
theorem HasTable.ranks {table : Table} (h : HasTable c table) {descriptor : String} {r : Compiled}
    (compiles : compile c descriptor = .ok r)
    (objects : ∀ k ∈ r.sort, k.1.type = .scalar .pojo → ∀ a ∈ table.records, ∀ j,
      a.get? k.1.name = some j → ∃ members, j = .obj members) : Ranks r.sort table.records := by
  obtain ⟨w, w', reached, later, used, member, found⟩ := h
  obtain ⟨same, there, -, typed⟩ := table_of_registered reached later used member
  obtain rfl := Option.some.inj (there.symm.trans found)
  refine ranks_of_sortable fun k sorted => ⟨k.1.type, fun a inside j field => ⟨?_, fun pojo => ?_⟩⟩
  · exact (typed a inside _ j field).2 k.1 ((compile_legal compiles).sort k sorted) rfl
  · exact objects k sorted pojo a inside j field

/-- A table can come to hold nothing but a circle of pojos that some key of its category has. -/
theorem leads_circle (declared : c.Declared) {descriptor : String} {r : Compiled}
    (compiles : compile c descriptor = .ok r) {k : Key × SortDirection} (sorted : k ∈ r.sort)
    (pojo : k.1.type = .scalar .pojo) :
    ∃ w, new.Leads w ∧ w.hands.used = [c] ∧ w.registered = [c] ∧
      w.store.tables.get? c.name =
        some ⟨c.keys, [above, between, beneath].map (single k.1.name)⟩ := by
  obtain ⟨name, keys⟩ := compile_spells compiles
  obtain ⟨known, plain⟩ := keys k sorted
  let values : List Value := [above, between, beneath].map (.scalar .pojo)
  have fits : ∀ v ∈ values, v.type = k.1.type ∧ v.isFinite = true := by
    simp [values, pojo, Value.type, Value.isFinite, ScalarType.isFinite]
  exact leads_filled declared (compile_filling known name plain) fits

/-- A sort key of the type of pojos goes round in circles in some table. -/
theorem exists_circle (declared : c.Declared) {descriptor : String} {r : Compiled}
    (compiles : compile c descriptor = .ok r) {k : Key × SortDirection} (sorted : k ∈ r.sort)
    (pojo : k.1.type = .scalar .pojo) :
    ∃ table, HasTable c table ∧ ¬ Ranks r.sort table.records := by
  obtain ⟨w, reached, used, registered, found⟩ := leads_circle declared compiles sorted pojo
  refine ⟨_, ⟨w, w, reached, .here, by simp [used, registered], by simp [registered], found⟩, ?_⟩
  exact circle_of_numbers.not_ranks sorted

/-- A statement may sort by any keys, and what its sort keys say of two records is turned round when
the records are. They rank the records of every table that clients can come to fill, as long as
every pojo that they sort by is an object. They do so whatever clients do exactly if they
sort by no pojo. -/
theorem sort_ranks_iff_no_pojo (declared : c.Declared) {descriptor : String} {r : Compiled}
    (compiles : compile c descriptor = .ok r) :
    (∀ a b : Record, orderRecords a a r.sort = .eq ∧
      orderRecords b a r.sort = (orderRecords a b r.sort).swap) ∧
    (∀ table, HasTable c table →
      (∀ k ∈ r.sort, k.1.type = .scalar .pojo → ∀ a ∈ table.records, ∀ j,
        a.get? k.1.name = some j → ∃ members, j = .obj members) → Ranks r.sort table.records) ∧
    ((∀ table, HasTable c table → Ranks r.sort table.records) ↔
      ∀ k ∈ r.sort, k.1.type ≠ .scalar .pojo) := by
  refine ⟨fun a b => ⟨orderRecords_self a _, orderRecords_swap b a _⟩,
    fun table has objects => has.ranks compiles objects, fun ranks k sorted pojo => ?_,
    fun none table has => has.ranks compiles fun k sorted pojo => absurd pojo (none k sorted)⟩
  obtain ⟨table, has, circle⟩ := exists_circle declared compiles sorted pojo
  exact circle (ranks table has)

def samples : Category := ⟨"samples", [⟨"count", .scalar .int⟩, ⟨"data", .scalar .pojo⟩], []⟩

def byCount : Compiled :=
  { descriptor := "QUERY samples SORT 'count' DSC", category := "samples", kind := .query .select,
    signature := [], assignments := [], condition := none,
    sort := [(⟨"count", .scalar .int⟩, .descending)], limit := none }

def byData : Compiled :=
  { descriptor := "QUERY samples SORT 'data' ASC", category := "samples", kind := .query .select,
    signature := [], assignments := [], condition := none,
    sort := [(⟨"data", .scalar .pojo⟩, .ascending)], limit := none }

theorem compile_byCount : compile samples byCount.descriptor = .ok byCount := by
  with_unfolding_all rfl

theorem compile_byData : compile samples byData.descriptor = .ok byData := by
  with_unfolding_all rfl

/-- Samples are ranked by their counts, but not always by their data. -/
theorem samples_rank_by_count_not_by_data :
    samples.Declared ∧ compile samples byCount.descriptor = .ok byCount ∧
      compile samples byData.descriptor = .ok byData ∧
      (∀ table, HasTable samples table → Ranks byCount.sort table.records) ∧
      ¬ ∀ table, HasTable samples table → Ranks byData.sort table.records := by
  have declared : samples.Declared := by decide +kernel
  obtain ⟨-, -, always⟩ := sort_ranks_iff_no_pojo declared compile_byCount
  obtain ⟨-, -, never⟩ := sort_ranks_iff_no_pojo declared compile_byData
  refine ⟨declared, compile_byCount, compile_byData, always.2 ?_, fun ranks => ?_⟩
  · simp [byCount]
  · exact never.1 ranks _ (List.mem_singleton_self _) rfl

theorem orderRecords_byData (i j : Json) :
    orderRecords (single "data" i) (single "data" j) byData.sort = i.rank j := by
  rw [orderRecords_single]
  rfl

/-- Three samples are added, the first of which is above the third, and to sort them by their data
leaves them as they were added. -/
theorem samples_are_left_unsorted :
    let first := single "data" above
    let second := single "data" between
    let third := single "data" beneath
    samples.Declared ∧ compile samples byData.descriptor = .ok byData ∧
      ∃ w, new.Leads w ∧ (∀ d ∈ w.hands.used, d ∈ w.registered) ∧ samples ∈ w.registered ∧
        w.store.tables.get? "samples" = some ⟨samples.keys, [first, second, third]⟩ ∧
        orderRecords first second byData.sort ≠ .gt ∧
        orderRecords second third byData.sort ≠ .gt ∧
        orderRecords first third byData.sort = .gt ∧
        w.store.tables.find ⟨"samples", .select, none, byData.sort, none⟩ =
          .ok [first, second, third] := by
  intro first second third
  have declared : samples.Declared := by decide +kernel
  obtain ⟨w, reached, used, registered, found⟩ :=
    leads_circle declared compile_byData (List.mem_singleton_self _) rfl
  have circle := circle_of_numbers
  have early : orderRecords second first byData.sort = .eq := by
    rw [orderRecords_byData, Json.rank_swap, circle.first]
    rfl
  have late : orderRecords third second byData.sort = .eq := by
    rw [orderRecords_byData, Json.rank_swap, circle.second]
    rfl
  refine ⟨declared, compile_byData, w, reached, by simp [used, registered], by simp [registered],
    found, ?_, ?_, ?_, ?_⟩
  · simp [first, second, orderRecords_byData, circle.first]
  · simp [second, third, orderRecords_byData, circle.second]
  · simp [first, third, orderRecords_byData, circle.turns]
  · have stays : sortRecords byData.sort [first, second, third] = [first, second, third] := by
      simp [sortRecords, stableSort, insertDescending, early, late]
    have table : w.store.tables.get? "samples" =
        some ⟨samples.keys, [first, second, third]⟩ := found
    have all : [first, second, third].filter (satisfies none) = [first, second, third] := rfl
    simp [Tables.find, Tables.find?, table, BoundQuery.rowsOf, all, stays]

end Session

end FleetStore
