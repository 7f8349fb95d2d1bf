import FleetStore.Proofs.Replay.Prompt
import FleetStore.Proofs.Replay.Registered

/-! # A replay keeps step with a run without a queue

Behind the queue the tables lag, but the store that they will come to is the one of the
run without a queue. Writes keep it so in both modes: a prepared write is queued as
a copy and a patched one with its values in place, and both stand for the same
change. A query is answered by the tables as they are, so it is answered alike if
the flush before it was in time.
-/

namespace FleetStore

open Descriptor

/-! ## The tables while writes are waiting -/

/-- No change drops a table or adds one. -/
theorem Change.apply_isSome (change : Change) (tables : Tables) (name : String) :
    ((change.apply tables).get? name).isSome = (tables.get? name).isSome := by
  cases change with
  | purge agent => simp [Change.apply, Tables.purge]
  | write w =>
      cases found : tables.get? w.category with
      | none => simp [Change.apply, Tables.write?, found]
      | some table =>
          simp only [Change.apply, Tables.write?, found, Option.map_some, Option.getD_some,
            Dict.get?_insert]
          split
          · next same => simp [← same, found]
          · rfl

/-- What tasks make of the tables depends on nothing but the tables. -/
theorem foldl_perform_tables (tasks : List (Task WriteJob)) :
    ∃ f : Tables → Tables,
      (∀ tables name, ((f tables).get? name).isSome = (tables.get? name).isSome) ∧
      ∀ m : MemoryStore, tasks.foldl (Dispatcher.perform WriteJob.run) m =
        { m with tables := f m.tables } := by
  induction tasks with
  | nil => exact ⟨id, fun _ _ => rfl, fun _ => rfl⟩
  | cons task rest ih =>
      obtain ⟨f, kept, rest⟩ := ih
      cases task with
      | mark number => exact ⟨f, kept, rest⟩
      | job j =>
          refine ⟨fun tables => f (j.change?.elim tables fun change => change.apply tables),
            fun tables name => (kept _ name).trans ?_, fun m => ?_⟩
          · cases j.change? with
            | none => rfl
            | some change => exact change.apply_isSome tables name
          · rw [List.foldl_cons, rest, Dispatcher.perform, WriteJob.attempt_eq]

namespace QueuedStore

theorem caughtUp_cache (s : QueuedStore) : s.caughtUp.cache = s.delegate.cache := by
  obtain ⟨f, _, same⟩ := foldl_perform_tables s.writer.backlog
  rw [caughtUp, same]

theorem caughtUp_withCache (s : QueuedStore) (cache : Cache) :
    caughtUp { s with delegate := { s.delegate with cache } } = { s.caughtUp with cache } := by
  obtain ⟨f, _, same⟩ := foldl_perform_tables s.writer.backlog
  simp only [caughtUp, same]

theorem caughtUp_isSome (s : QueuedStore) (name : String) :
    (s.caughtUp.tables.get? name).isSome = (s.delegate.tables.get? name).isSome := by
  obtain ⟨f, kept, same⟩ := foldl_perform_tables s.writer.backlog
  rw [caughtUp, same, kept]

end QueuedStore

namespace Replay

/-- How a failure shows that comes up without a queue: behind a proxy a limit is refused
when the statement is patched, and not when it is run. -/
def Failure.seen (proxied : Bool) : Failure → Failure
  | .store (.execution (.patch e)) =>
      if proxied then .store (.patch e) else .store (.execution (.patch e))
  | failure => failure

/-- A replay has done what a run without a queue has done, but for the writes that wait. -/
structure Follows (proxied : Bool) (p : Progress) (u : Unqueued.Progress) : Prop where
  mode : p.store.settings.proxied = proxied
  stillOpen : p.store.Open
  store : p.store.caughtUp = u.store
  lines : p.lines = u.lines
  writes : p.writes = u.writes
  queries : p.queries = u.queries

/-- Where a replay gets by a step. It follows unless one more flush was late than the
`late` ones before, and with prompt workers none is. -/
structure Onward (schedule : Schedule) (proxied : Bool) (late : Nat) (p : Progress)
    (u : Unqueued.Progress) : Prop where
  overdue : late ≤ p.overdue
  prompt : schedule = .prompt → p.overdue = late
  follows : p.overdue = late → Follows proxied p u

/-- A step comes to the same with a queue as without one. -/
def Alike (schedule : Schedule) (proxied : Bool) (late : Nat) (queued : Except Failure Progress) :
    Except Failure Unqueued.Progress → Prop
  | .error failure => queued = .error (failure.seen proxied)
  | .ok u => ∃ p, queued = .ok p ∧ Onward schedule proxied late p u

variable {proxied : Bool} {p : Progress} {u : Unqueued.Progress}
variable {c : Compiled} {values : List Value}

/-! ## Parts of a step -/

/-- Preparing is answered alike, because no write touches the cache. -/
theorem Follows.prepare (h : Follows proxied p u) (category : Category) (descriptor : String) :
    match Store.prepare u.store category descriptor with
    | .error e => Store.prepare p.store category descriptor = .error e
    | .ok (statement, m) => ∃ store, Store.prepare p.store category descriptor = .ok (statement, store) ∧
        Follows proxied { p with store } { u with store := m } := by
  have same : p.store.delegate.cache = u.store.cache := by rw [← h.store, QueuedStore.caughtUp_cache]
  simp only [Store.prepare, MemoryStore.prepare, same]
  cases u.store.cache.getOrCompile category descriptor with
  | error e => rfl
  | ok found =>
      have stillOpen := h.stillOpen
      refine ⟨_, rfl, h.mode, ⟨stillOpen.writes, stillOpen.files, stillOpen.writing,
        stillOpen.saving, stillOpen.fresh, stillOpen.noFiles⟩, ?_, h.lines, h.writes, h.queries⟩
      rw [QueuedStore.caughtUp_withCache, h.store]

theorem Follows.pause (h : Follows proxied p u) (schedule : Schedule) :
    Follows proxied (p.pause schedule) u := by
  have worked := h.stillOpen.turns (schedule p.moment p.store)
  exact ⟨(congrArg Settings.proxied worked.settings).trans h.mode, worked.stillOpen,
    worked.caughtUp.trans h.store, h.lines, h.writes, h.queries⟩

theorem Follows.flush (h : Follows proxied p u) (schedule : Schedule) :
    ∃ p', p.flush schedule = .ok p' ∧ Follows proxied p' u ∧ p.overdue ≤ p'.overdue ∧
      (schedule = .prompt → p'.overdue = p.overdue) ∧
      (p'.overdue = p.overdue → p'.store.writer.backlog = []) := by
  obtain ⟨inTime, store, flushed, stillOpen, settings, caught, nothing⟩ :=
    h.stillOpen.flush (schedule p.moment)
  have result : p.flush schedule = .ok {
      p with
      store, moment := p.moment + 1, overdue := if inTime then p.overdue else p.overdue + 1 } := by
    simp only [Progress.flush, flushed]
  refine ⟨_, result, ⟨(congrArg Settings.proxied settings).trans h.mode, stillOpen,
    caught.trans h.store, h.lines, h.writes, h.queries⟩, ?_, fun prompt => ?_,
    fun same => nothing ?_⟩
  · simp only
    split <;> omega
  · subst prompt
    have through := h.stillOpen.flush_prompt p.moment
    rw [flushed] at through
    rw [Except.ok.inj through, if_pos rfl]
  · cases inTime with
    | true => rfl
    | false => simp at same

/-- A write that is accepted follows the write that is made at once. -/
theorem Follows.accept (h : Follows proxied p u) {j : WriteJob} {w : BoundWrite}
    (stands : j.change? = some (.write w)) :
    ∃ store, p.store.accept j = .ok store ∧ Follows proxied (p.wrote store) (u.after (.write w)) := by
  obtain ⟨store, accepted, stillOpen, settings, caught⟩ := h.stillOpen.accept j
  refine ⟨store, accepted, (congrArg Settings.proxied settings).trans h.mode, stillOpen, ?_, h.lines,
    congrArg (· + 1) h.writes, h.queries⟩
  rw [show (p.wrote store).store.caughtUp = _ from caught, WriteJob.attempt_run stands, h.store]
  rfl

/-- A query is answered after a flush, and if the flush was in time, it is answered as
without a queue. -/
theorem Follows.query (h : Follows proxied p u) (schedule : Schedule) {q : BoundQuery}
    (registered : (u.store.tables.get? q.category).isSome) :
    ∃ p₁, p.flush schedule = .ok p₁ ∧ Follows proxied (p₁.pause schedule) u ∧
      ∃ cursor, (p₁.pause schedule).store.delegate.runQuery q = .ok cursor ∧
        ∃ p', (p₁.pause schedule).print cursor = .ok p' ∧
          Onward schedule proxied p.overdue p' (u.after (.query q)) := by
  obtain ⟨p₁, flushed, follows₁, overdue, prompt, nothing⟩ := h.flush schedule
  have follows := follows₁.pause schedule
  have there : ((p₁.pause schedule).store.delegate.tables.get? q.category).isSome := by
    rw [← QueuedStore.caughtUp_isSome, follows.store, registered]
  obtain ⟨table, found⟩ := Option.isSome_iff_exists.1 there
  have answered : (p₁.pause schedule).store.delegate.tables.find? q = some (q.rowsOf table.records) := by
    simp only [Tables.find?, found, Option.map_some]
  have printed : (p₁.pause schedule).print (.ofRecords (q.rowsOf table.records)) = .ok {
      p₁.pause schedule with
      lines := p₁.lines ++ (q.rowsOf table.records).map fun row => (Json.ofDict row).compact
      queries := p₁.queries + 1 } := by
    simp only [Progress.print, Cursor.collect_ofRecords, Progress.pause]
  refine ⟨p₁, flushed, follows, .ofRecords (q.rowsOf table.records), ?_, _, printed, overdue, prompt,
    fun same => ?_⟩
  · simp only [MemoryStore.runQuery, Tables.find, answered, Except.map]
  · have still := (follows₁.stillOpen.turns (schedule p₁.moment p₁.store)).backlog_eq_nil (nothing same)
    have now : (p₁.pause schedule).store.delegate = u.store :=
      (QueuedStore.caughtUp_eq_delegate still).symm.trans follows.store
    refine ⟨follows.mode, follows.stillOpen, follows.store, ?_, follows.writes,
      congrArg (· + 1) follows.queries⟩
    rw [now] at answered
    simp only [Unqueued.Progress.after, Unqueued.Progress.printed, answered, Option.getD_some,
      follows₁.lines]

/-! ## A statement in each mode -/

theorem runDirectly_eq {schedule : Schedule} (places : values.length = c.signature.length)
    (passed : checkValues c.signature 0 values = .ok ()) :
    runDirectly schedule p (.ofCompiled c) values =
      if c.kind.isQuery then do
        let p ← p.flush schedule
        let p := p.pause schedule
        p.print (← (p.store.executeQuery ⟨c, values.map some⟩).mapError
          fun e => .store (.execution e))
      else do
        let p := p.pause schedule
        return p.wrote (← (p.store.execute ⟨c, values.map some⟩).mapError
          fun e => .store (.execution e)) := by
  simp only [runDirectly, Prepared.setParameters_inOrder places, passed, Except.map, mapError_ok,
    bind, Except.bind]

/-- Directly run statements queue copies of writes and answer queries from the store. -/
theorem Follows.runDirectly (h : Follows false p u) (schedule : Schedule)
    (places : values.length = c.signature.length)
    (registered : (u.store.tables.get? c.category).isSome) :
    Alike schedule false p.overdue (runDirectly schedule p (.ofCompiled c) values)
      (u.runBound (.ofCompiled c) values) := by
  cases passed : checkValues c.signature 0 values with
  | error e =>
      rw [Unqueued.Progress.runBound_unfit places passed]
      simp [Alike, Failure.seen, Replay.runDirectly, Prepared.setParameters_inOrder places, passed,
        Except.map, bind, Except.bind]
  | ok =>
      have kind := c.withValues_isQuery values
      have bound := Prepared.bound_inOrder places passed
      rw [runDirectly_eq places passed]
      cases legal : c.withValues values with
      | error e =>
          simp only [legal, mapError_error] at kind bound
          obtain ⟨p₁, flushed, follows, _⟩ := h.flush schedule
          have mode := (follows.pause schedule).mode
          rw [Unqueued.Progress.runBound_illegal places passed legal, if_pos kind]
          simp [Alike, Failure.seen, flushed, mode, QueuedStore.executeQuery,
            MemoryStore.executeQuery, Prepared.boundQuery, bound, bind, Except.bind]
      | ok b =>
          rw [Unqueued.Progress.runBound_legal places passed legal registered]
          simp only [legal, mapError_ok] at kind bound
          cases b with
          | query q =>
              obtain ⟨query, category⟩ := kind
              obtain ⟨p₁, flushed, follows, cursor, answered, p', printed, onward⟩ :=
                h.query schedule (category ▸ registered)
              refine ⟨p', ?_, onward⟩
              simp [query, flushed, follows.mode, QueuedStore.executeQuery,
                MemoryStore.executeQuery, Prepared.boundQuery, bound, answered, printed, bind,
                Except.bind]
          | write w =>
              obtain ⟨query, category⟩ := kind
              have follows := h.pause schedule
              have stands : WriteJob.change? (.execute ⟨c, values.map some⟩) = some (.write w) := by
                simp [WriteJob.change?, Prepared.boundWrite, bound]
              have given : Prepared.parameters ⟨c, values.map some⟩ = _ :=
                Prepared.parametersFrom_map_some 0 values
              obtain ⟨store, accepted, after⟩ := follows.accept stands
              refine ⟨(p.pause schedule).wrote store, ?_, Nat.le_refl _, fun _ => rfl, fun _ => after⟩
              simp [query, follows.mode, QueuedStore.execute, given, accepted, bind, Except.bind,
                pure, Except.pure]

/-- Patched statements queue bound writes, and bound queries are answered from the store. -/
theorem Follows.runPatched (h : Follows true p u) (schedule : Schedule)
    (places : values.length = c.signature.length)
    (registered : (u.store.tables.get? c.category).isSome) :
    Alike schedule true p.overdue (runPatched schedule p (.ofCompiled c) values)
      (u.runBound (.ofCompiled c) values) := by
  have patched : (Prepared.ofCompiled c).compiled.bind (values.mapIdx Parameter.ofValue) =
      (checkValues c.signature 0 values).bind fun () => c.withValues values := by
    rw [Compiled.bind_eq]
    simp only [Prepared.ofCompiled, resolveParameters_inOrder places]
    cases checkValues c.signature 0 values <;> rfl
  simp only [Replay.runPatched, patched]
  cases passed : checkValues c.signature 0 values with
  | error e =>
      rw [Unqueued.Progress.runBound_unfit places passed]
      simp [Alike, Failure.seen, bind, Except.bind]
  | ok =>
      have kind := c.withValues_isQuery values
      simp only [Except.bind]
      cases legal : c.withValues values with
      | error e =>
          rw [Unqueued.Progress.runBound_illegal places passed legal]
          simp [Alike, Failure.seen, bind, Except.bind]
      | ok b =>
          rw [Unqueued.Progress.runBound_legal places passed legal registered]
          simp only [legal] at kind
          cases b with
          | query q =>
              obtain ⟨query, category⟩ := kind
              obtain ⟨p₁, flushed, follows, cursor, answered, p', printed, onward⟩ :=
                h.query schedule (category ▸ registered)
              refine ⟨p', ?_, onward⟩
              simp [flushed, Store.runQuery, answered, printed, bind, Except.bind]
          | write w =>
              have follows := h.pause schedule
              obtain ⟨store, accepted, after⟩ := follows.accept (j := .apply w) rfl
              refine ⟨(p.pause schedule).wrote store, ?_, Nat.le_refl _, fun _ => rfl, fun _ => after⟩
              simp [QueuedStore.applyWrite, follows.mode, accepted, bind, Except.bind, pure, Except.pure]

end Replay

end FleetStore
