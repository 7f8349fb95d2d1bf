import FleetStore.Proofs.Binding.Matching
import FleetStore.Proofs.Store.Session

/-! # Copies of a statement

A prepared statement and its copies are rebound and run on one store, in any order. A copy starts
with the calls of its original and goes on with its own, and what it is bound to is for each place
the last value that was taken. Setters take only what binding takes, so a copy that lacks no value
fails to bind only for its limit, and what it is run as is the statement that binding
its parameters comes to.
-/

namespace FleetStore

open Descriptor

/-! ## The last value of a place -/

/-- The last of the calls that had an acceptable value for a place had this one. -/
def Descriptor.Compiled.LastSet (c : Compiled) (calls : List (Nat × Value)) (index : Nat)
    (value : Value) : Prop :=
  ∃ before after, calls = before ++ (index, value) :: after ∧ c.Accepts index value ∧
    ∀ other, (index, other) ∈ after → ¬ c.Accepts index other

namespace Prepared

variable {s s' : Prepared} {index k : Nat} {value v : Value}

theorem trySetAll_concat (s : Prepared) (calls : List (Nat × Value)) (index : Nat) (value : Value) :
    s.trySetAll (calls ++ [(index, value)]) = (s.trySetAll calls).trySet index value :=
  List.foldl_append

theorem value_trySet (found : (s.trySet index value).values[k]? = some (some v)) :
    index = k ∧ value = v ∧ s.compiled.Accepts k v ∨
      s.values[k]? = some (some v) ∧ ¬ (index = k ∧ s.compiled.Accepts k value) := by
  unfold trySet at found
  split at found
  · next set =>
      obtain ⟨accepts, rfl⟩ := setParameter_ok_iff.1 set
      rw [List.getElem?_set] at found
      split at found
      · next same =>
          subst same
          split at found
          · obtain rfl : value = v := by simpa using found
            exact .inl ⟨rfl, rfl, accepts⟩
          · contradiction
      · next other => exact .inr ⟨found, fun both => other both.1⟩
  · next refused =>
      refine .inr ⟨found, ?_⟩
      rintro ⟨rfl, accepts⟩
      simp [setParameter_ok_iff.2 ⟨accepts, rfl⟩] at refused

/-- The value in a place is the last one that was taken for it. -/
theorem lastSet_of_value (c : Compiled) (calls : List (Nat × Value))
    (found : ((ofCompiled c).trySetAll calls).values[k]? = some (some v)) : c.LastSet calls k v := by
  induction calls using List.reverseRecOn with
  | nil => simp [trySetAll, ofCompiled, List.getElem?_replicate] at found
  | append_singleton calls call ih =>
      obtain ⟨index, value⟩ := call
      rw [trySetAll_concat] at found
      rcases value_trySet found with ⟨rfl, rfl, accepts⟩ | ⟨kept, refused⟩
      · rw [compiled_trySetAll] at accepts
        exact ⟨calls, [], rfl, accepts, by simp⟩
      · obtain ⟨before, after, rfl, accepts, none⟩ := ih kept
        refine ⟨before, after ++ [(index, value)], by simp, accepts, fun other member => ?_⟩
        rcases List.mem_append.1 member with earlier | last
        · exact none other earlier
        · obtain ⟨rfl, rfl⟩ := Prod.mk.inj (List.mem_singleton.1 last)
          rw [compiled_trySetAll] at refused
          exact fun accepts => refused ⟨rfl, accepts⟩

theorem checked_trySetAll (h : s.Checked) (calls : List (Nat × Value)) :
    (s.trySetAll calls).Checked := by
  induction calls generalizing s with
  | nil => exact h
  | cons call rest ih => exact ih (h.trySet call.1 call.2)

/-! ## What a copy answers -/

/-- What a statement answers after calls of its setter. -/
structure Answers (c : Compiled) (calls : List (Nat × Value)) (s : Prepared) : Prop where
  takes : ∀ index value, (∃ s', s.setParameter index value = .ok s') ↔ c.Accepts index value
  /-- The complaint is about the first place without a value. -/
  unbound : ∀ i, c.Unset calls i → (∀ j < i, ¬ c.Unset calls j) →
    s.parameters = .error (.unbound i)
  /-- The parameters are the last values that were taken, in the order of their places. -/
  listed : (∀ i, ¬ c.Unset calls i) → ∃ values : List Value,
    s.parameters = .ok (values.mapIdx Parameter.ofValue) ∧
      values.length = c.signature.length ∧ ∀ i v, values[i]? = some v → c.LastSet calls i v
  missing : ∀ e, s.parameters = .error e → ∀ (α : Type) (store : MemoryStore),
    store.execute s = .error (.patch e) ∧ store.executeQuery (α := α) s = .error (.patch e)
  /-- Running the statement binds its parameters first, which fails only for a limit, then looks at
  what kind of statement it is, and then leaves the answer to the store. -/
  run : ∀ params, s.parameters = .ok params → ∀ (α : Type) (store : MemoryStore),
    match c.bind params with
    | .error e => (∃ n ≤ 0, e = .invalidLimit n) ∧ store.execute s = .error (.patch e) ∧
        store.executeQuery (α := α) s = .error (.patch e)
    | .ok (.query q) => store.execute s = .error .notAWrite ∧
        store.executeQuery (α := α) s = store.runQuery q
    | .ok (.write w) => store.execute s = store.applyWrite w ∧
        store.executeQuery (α := α) s = .error .notAQuery

/-- Checked values leave a legal statement nothing to complain of but its limit. -/
theorem Checked.withValues {c : Category} {values : List Value} (h : s.Checked)
    (legal : s.compiled.Legal c) (full : s.values = values.map some) :
    (∃ b, s.compiled.withValues values = .ok b) ∨
      ∃ n ≤ 0, s.compiled.withValues values = .error (.invalidLimit n) := by
  cases query : s.compiled.kind.isQuery with
  | false => exact .inl (Compiled.withValues_write_ok query)
  | true =>
      have checked : Checked ⟨s.compiled, values.map some⟩ := full ▸ h
      rcases withValues_of_query legal query checked with ⟨-, bound⟩ | ⟨-, refused⟩
      · exact .inl bound
      · exact .inr refused

theorem bound_of_parameters {params : List Parameter} (full : s.parameters = .ok params) :
    s.bound = (s.compiled.bind params).mapError .patch := by
  rw [bound, full]
  rfl

theorem bound_of_missing {e : PatchError} (missing : s.parameters = .error e) :
    s.bound = .error (.patch e) := by
  rw [bound, missing]
  rfl

theorem run_of_bound {α : Type} (s : Prepared) (store : MemoryStore) :
    match s.bound with
    | .error e => store.execute s = .error e ∧ store.executeQuery (α := α) s = .error e
    | .ok (.query q) => store.execute s = .error .notAWrite ∧
        store.executeQuery (α := α) s = store.runQuery q
    | .ok (.write w) => store.execute s = store.applyWrite w ∧
        store.executeQuery (α := α) s = .error .notAQuery := by
  unfold MemoryStore.execute MemoryStore.executeQuery boundWrite boundQuery
  rcases s.bound with e | q | w <;> exact ⟨rfl, rfl⟩

/-- A legal statement answers so whatever its setter was called with. -/
theorem answers_trySetAll {c : Category} {r : Compiled} (legal : r.Legal c)
    (calls : List (Nat × Value)) : Answers r calls ((ofCompiled r).trySetAll calls) := by
  have same : ((ofCompiled r).trySetAll calls).compiled = r := compiled_trySetAll _ calls
  have checked := checked_trySetAll (checked_ofCompiled r) calls
  constructor
  case takes =>
    intro index value
    simp only [setParameter_ok_iff, same, exists_and_left, exists_eq', and_true]
  case unbound =>
    intro i unset least
    exact parameters_unset r calls unset least
  case listed =>
    intro set
    obtain ⟨params, full⟩ := exists_parameters r calls set
    obtain ⟨values, slots, rfl⟩ := parametersFrom_ok full
    have places : values.length = r.signature.length := by
      have places := checked.places
      rwa [slots, same, List.length_map] at places
    refine ⟨values, ?_, places, fun i v found => ?_⟩
    · rw [full]
      simp only [Nat.zero_add]
    · apply lastSet_of_value
      rw [slots, List.getElem?_map, found]
      rfl
  case missing =>
    intro e missing α store
    have run := run_of_bound (α := α) ((ofCompiled r).trySetAll calls) store
    rwa [bound_of_missing missing] at run
  case run =>
    intro params full α store
    have run := run_of_bound (α := α) ((ofCompiled r).trySetAll calls) store
    rw [bound_of_parameters full, same] at run
    obtain ⟨values, slots, rfl⟩ := parametersFrom_ok full
    have bind := checked.bind slots
    have limited := checked.withValues (same.symm ▸ legal) slots
    simp only [same] at bind limited
    simp only [Nat.zero_add] at run ⊢
    cases bound : r.bind (values.mapIdx fun i value => Parameter.ofValue i value) with
    | ok b =>
        rw [bound] at run
        cases b <;> exact run
    | error e =>
        rw [bound] at run
        rw [show r.bind (values.mapIdx Parameter.ofValue) = .error e from bound] at bind
        rw [← bind] at limited
        rcases limited with ⟨b, ok⟩ | ⟨n, low, failed⟩
        · contradiction
        · exact ⟨⟨n, low, Except.error.inj failed⟩, run⟩

end Prepared

/-! ## Copies in use -/

/-- A store and the copies of a statement, in the order in which they were made. -/
structure Copies where
  store : MemoryStore
  statements : List Prepared

namespace Copies

/-- What is done with a copy. -/
inductive Use where
  | set (index : Nat) (value : Value)
  | snapshot
  | execute
  | executeQuery

/-- A use of the copy at a place, or whatever others do to the store in the meantime. -/
inductive Event where
  | use (place : Nat) (u : Use)
  | elsewhere (store : MemoryStore)

/-- What an event answers. -/
inductive Answer (α : Type) where
  | done
  | status (code : Status)
  | rows (cursor : Cursor α)
  | failed (e : ExecutionError)

/-- What a use of a copy answers and what it makes of the store and the copies: nothing, if it
fails. -/
def use (α : Type) (k : Copies) (place : Nat) (s : Prepared) : Use → Answer α × Copies
  | .set index value =>
      match s.setParameter index value with
      | .ok s => (.done, { k with statements := k.statements.set place s })
      | .error e => (.failed (.patch e), k)
  | .snapshot => (.done, { k with statements := k.statements ++ [s] })
  | .execute =>
      match k.store.execute s with
      | .ok store => (.status .success, { k with store })
      | .error e => (.failed e, k)
  | .executeQuery =>
      match k.store.executeQuery s with
      | .ok rows => (.rows rows, k)
      | .error e => (.failed e, k)

def event (α : Type) (k : Copies) : Event → Answer α × Copies
  | .use place u =>
      match k.statements[place]? with
      | some s => k.use α place s u
      | none => (.done, k)
  | .elsewhere store => (.done, { k with store })

def events (α : Type) (k : Copies) (es : List Event) : Copies :=
  es.foldl (fun k e => (k.event α e).2) k

/-- The calls of their setters that each of the copies has behind it: those of its original
before it was copied, and its own. -/
def note (histories : List (List (Nat × Value))) : Event → List (List (Nat × Value))
  | .use place (.set index value) => histories.modify place (· ++ [(index, value)])
  | .use place .snapshot => histories ++ histories[place]?.toList
  | _ => histories

def histories (es : List Event) : List (List (Nat × Value)) :=
  es.foldl note [[]]

variable {α : Type} {k : Copies} {place : Nat} {s : Prepared}

/-- What a use of a copy answers and what it leaves behind, by what decides it: whether a setter
accepts the value, whether the statement binds, and whether its category is registered. -/
inductive Used (α : Type) (k : Copies) (place : Nat) (s : Prepared) : Use → Answer α → Copies → Prop where
  | taken (index : Nat) (value : Value) (accepts : s.compiled.Accepts index value) :
      Used α k place s (.set index value) .done { k with
        statements := k.statements.set place { s with values := s.values.set index (some value) } }
  | refused (index : Nat) (value : Value) (e : PatchError) (rejects : ¬ s.compiled.Accepts index value)
      (why : s.setParameter index value = .error e) :
      Used α k place s (.set index value) (.failed (.patch e)) k
  | copied : Used α k place s .snapshot .done { k with statements := k.statements ++ [s] }
  | written (w : BoundWrite) (t : Table) (bound : s.boundWrite = .ok w)
      (registered : k.store.tables.get? w.category = some t) :
      Used α k place s .execute (.status .success) { k with store := { k.store with
        tables := k.store.tables.insert w.category { t with records := w.applyTo t.records } } }
  | noWrite (e : ExecutionError) (why : s.boundWrite = .error e) :
      Used α k place s .execute (.failed e) k
  | unwritten (w : BoundWrite) (bound : s.boundWrite = .ok w)
      (unregistered : k.store.tables.get? w.category = none) :
      Used α k place s .execute (.failed (.unknownCategory w.category)) k
  | found (q : BoundQuery) (t : Table) (bound : s.boundQuery = .ok q)
      (registered : k.store.tables.get? q.category = some t) :
      Used α k place s .executeQuery (.rows (.ofRecords (q.rowsOf t.records))) k
  | noQuery (e : ExecutionError) (why : s.boundQuery = .error e) :
      Used α k place s .executeQuery (.failed e) k
  | unfound (q : BoundQuery) (bound : s.boundQuery = .ok q)
      (unregistered : k.store.tables.get? q.category = none) :
      Used α k place s .executeQuery (.failed (.unknownCategory q.category)) k

theorem used (α : Type) (k : Copies) (place : Nat) (s : Prepared) (u : Use) :
    Used α k place s u (k.use α place s u).1 (k.use α place s u).2 := by
  cases u with
  | set index value =>
      cases set : s.setParameter index value with
      | ok s' =>
          obtain ⟨accepts, rfl⟩ := Prepared.setParameter_ok_iff.1 set
          simpa only [use, set] using .taken index value accepts
      | error e =>
          have rejects : ¬ s.compiled.Accepts index value := fun accepts => by
            rw [Prepared.setParameter_ok_iff.2 ⟨accepts, rfl⟩] at set
            contradiction
          simpa only [use, set] using .refused index value e rejects set
  | snapshot => exact .copied
  | execute =>
      cases bound : s.boundWrite with
      | error e => simpa only [use, MemoryStore.execute, bound] using .noWrite e bound
      | ok w =>
          have run := k.store.applyWrite_eq w
          cases table : k.store.tables.get? w.category with
          | none =>
              rw [table] at run
              simpa only [use, MemoryStore.execute, bound, Except.bind, run] using
                .unwritten w bound table
          | some t =>
              rw [table] at run
              simpa only [use, MemoryStore.execute, bound, Except.bind, run] using
                .written w t bound table
  | executeQuery =>
      cases bound : s.boundQuery with
      | error e => simpa only [use, MemoryStore.executeQuery, bound] using .noQuery e bound
      | ok q =>
          have run := k.store.runQuery_eq (α := α) q
          cases table : k.store.tables.get? q.category with
          | none =>
              rw [table] at run
              simpa only [use, MemoryStore.executeQuery, bound, Except.bind, run] using
                .unfound q bound table
          | some t =>
              rw [table] at run
              simpa only [use, MemoryStore.executeQuery, bound, Except.bind, run] using
                .found q t bound table

theorem event_used (found : k.statements[place]? = some s) (u : Use) :
    Used α k place s u (k.event α (.use place u)).1 (k.event α (.use place u)).2 := by
  simpa only [Copies.event, found] using used α k place s u

/-- A use that fails changes nothing. -/
theorem Used.failed {u : Use} {e : ExecutionError} {k' : Copies}
    (h : Used α k place s u (.failed e) k') : k' = k := by
  cases h <;> rfl

theorem event_failed {event : Event} {e : ExecutionError}
    (failed : (k.event α event).1 = .failed e) : (k.event α event).2 = k := by
  unfold Copies.event at *
  cases event with
  | elsewhere => contradiction
  | use place u =>
      dsimp only at *
      split
      · next s found =>
          rw [found] at failed
          have use := used α k place s u
          rw [failed] at use
          exact use.failed
      · rfl

/-- What a use makes of the copies. -/
theorem use_statements (found : k.statements[place]? = some s) (u : Use) :
    (k.event α (.use place u)).2.statements = match u with
      | .set index value => k.statements.set place (s.trySet index value)
      | .snapshot => k.statements ++ [s]
      | .execute | .executeQuery => k.statements := by
  have used := event_used (α := α) found u
  generalize (k.event α (.use place u)).1 = answer, (k.event α (.use place u)).2 = k' at used
  cases used with
  | taken index value accepts =>
      simp only [Prepared.trySet, Prepared.setParameter_ok_iff.2 ⟨accepts, rfl⟩]
  | refused index value e rejects why =>
      obtain ⟨inside, rfl⟩ := List.getElem?_eq_some_iff.1 found
      simp only [Prepared.trySet, why, List.set_getElem_self]
  | copied | written | noWrite | unwritten | found | noQuery | unfound => rfl

/-- Only the setter of a copy changes the copy. -/
theorem event_keeps {event : Event} (inside : place < k.statements.length)
    (other : ∀ index value, event ≠ .use place (.set index value)) :
    (k.event α event).2.statements[place]? = k.statements[place]? := by
  cases event with
  | elsewhere => rfl
  | use place' u =>
      cases found : k.statements[place']? with
      | none => simp [Copies.event, found]
      | some s =>
          rw [use_statements found]
          cases u with
          | set index value =>
              apply List.getElem?_set_ne
              rintro rfl
              exact other index value rfl
          | snapshot => exact List.getElem?_append_left inside
          | execute | executeQuery => rfl

/-- If the copies are what calls of their setters have made of a statement, they are so after an
event, with the calls that it adds. -/
theorem event_statements {start : Prepared} {histories : List (List (Nat × Value))}
    (made : k.statements = histories.map start.trySetAll) (event : Event) :
    (k.event α event).2.statements = (note histories event).map start.trySetAll := by
  cases event with
  | elsewhere => exact made
  | use place u =>
      cases noted : histories[place]? with
      | none =>
          have found : k.statements[place]? = none := by simp [made, noted]
          simp only [Copies.event, found]
          cases u with
          | set index value => rw [note, List.modify_eq_set_getElem?, noted]; exact made
          | snapshot => simp [note, noted, made]
          | execute | executeQuery => exact made
      | some history =>
          have found : k.statements[place]? = some (start.trySetAll history) := by
            simp [made, noted]
          rw [use_statements found]
          cases u with
          | set index value =>
              show _ = ((histories.modify place (· ++ [(index, value)])).map start.trySetAll)
              rw [List.modify_eq_set_getElem?, noted]
              show _ = (histories.set place (history ++ [(index, value)])).map start.trySetAll
              rw [List.map_set, Prepared.trySetAll_concat, ← made]
          | snapshot => simp [note, noted, made]
          | execute | executeQuery => exact made

theorem events_statements {start : Prepared} {histories : List (List (Nat × Value))}
    (made : k.statements = histories.map start.trySetAll) (es : List Event) :
    (k.events α es).statements = (es.foldl note histories).map start.trySetAll := by
  induction es generalizing k histories with
  | nil => exact made
  | cons event rest ih => exact ih (event_statements made event)

/-! ## Statements that were prepared -/

variable {w : Session} {c : Category} {descriptor : String} {statement : Prepared}
variable {store : MemoryStore}

/-- However a prepared statement and its copies are used, each copy answers as its own calls and
those of its original before it was copied tell, a use of one copy changes no other, and nothing
that fails changes anything. What a use answers and leaves behind is decided by what its setter
accepts, by what it binds to, and by which categories are registered. -/
theorem copies_answer_for_themselves (reached : Session.new.Leads w)
    (ok : w.store.prepare c descriptor = .ok (statement, store)) (α : Type) (es : List Event) :
    let k := events α ⟨store, [statement]⟩ es
    (k.statements.length = (histories es).length ∧
      ∀ (place : Nat) (s : Prepared), k.statements[place]? = some s →
        ∃ history, (histories es)[place]? = some history ∧
          Prepared.Answers statement.compiled history s) ∧
    ((∀ (place : Nat) (s : Prepared) (u : Use), k.statements[place]? = some s →
        Used α k place s u (k.event α (.use place u)).1 (k.event α (.use place u)).2) ∧
      ∀ event e, (k.event α event).1 = .failed e → (k.event α event).2 = k) ∧
    ∀ event (place : Nat), place < k.statements.length →
      (∀ index value, event ≠ .use place (.set index value)) →
        (k.event α event).2.statements[place]? = k.statements[place]? := by
  obtain ⟨entry, cache, got, rfl, -⟩ := MemoryStore.prepare_ok ok
  have legal := ((reached.sound Session.sound_new).hands.cached.getOrCompile got).2
  have made : (events α ⟨store, [.ofCompiled entry.compiled]⟩ es).statements =
      (histories es).map (Prepared.ofCompiled entry.compiled).trySetAll :=
    events_statements rfl es
  refine ⟨⟨?_, ?_⟩, ⟨fun place s u found => event_used found u, fun event e failed =>
    event_failed failed⟩, fun event place inside other => event_keeps inside other⟩
  · rw [made, List.length_map]
  · intro place s found
    rw [made, List.getElem?_map] at found
    obtain ⟨history, noted, rfl⟩ := Option.map_eq_some_iff.1 found
    exact ⟨history, noted, Prepared.answers_trySetAll legal history⟩

def half : Double := .finite ⟨false, twoTo 52, 1021, by decide⟩

/-- A statement is copied before a NaN is bound to it, and a half to the copy. -/
def rebound : List Event :=
  [.use 0 .snapshot, .use 0 (.set 0 (.double .nan)), .use 1 (.set 0 (.double half))]

open Session in
theorem copy_is_bound_alone : ∃ store,
    Session.new.store.prepare machines addLoad.descriptor = .ok (.ofCompiled addLoad, store) ∧
    ∃ original copy : Prepared,
      (events Unit ⟨store, [.ofCompiled addLoad]⟩ rebound).statements = [original, copy] ∧
      (∀ m : MemoryStore, m.execute original = .error (.patch (.unbound 0))) ∧
      copy.parameters = .ok [.ofValue 0 (.double half)] := by
  obtain ⟨store, prepared, -⟩ := prepare_addLoad
  obtain ⟨⟨-, answers⟩, -, -⟩ := copies_answer_for_themselves .here prepared Unit rebound
  obtain ⟨first, noted, original⟩ := answers 0 _ rfl
  obtain rfl : [(0, .double .nan)] = first := Option.some.inj noted
  refine ⟨store, prepared, _, _, rfl, fun m => ?_, rfl⟩
  have unset : addLoad.Unset [(0, .double .nan)] 0 := by
    refine ⟨by decide, fun value member accepts => ?_⟩
    obtain ⟨-, rfl⟩ := Prod.mk.inj (List.mem_singleton.1 member)
    exact absurd accepts.2 (by decide)
  have complaint := original.unbound 0 unset (by simp)
  exact (original.missing _ complaint Unit m).1

end Copies

end FleetStore
