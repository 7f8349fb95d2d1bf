import FleetStore.Proofs.Dispatch.Order
import FleetStore.Queue.Store

/-! # What jobs change

A write job changes the tables and nothing else of the store behind the queue, and
a file job changes the files and nothing else. What a write job is to change is
settled when it is accepted: a copy of a prepared write stands for the bound
write that it binds to.
-/

namespace FleetStore

/-- A change of the tables that a client asks for. -/
inductive Change where
  | write (w : BoundWrite)
  | purge (agent : String)

/-- The tables after a change. A write to a category that has no table is lost. -/
def Change.apply (tables : Tables) : Change → Tables
  | .write w => (tables.write? w).getD tables
  | .purge agent => tables.purge agent

/-- The change that a job stands for, if it can be bound. -/
def WriteJob.change? : WriteJob → Option Change
  | .execute statement =>
      match statement.boundWrite with
      | .ok w => some (.write w)
      | .error _ => none
  | .apply w => some (.write w)
  | .purge agent => some (.purge agent)

/-- The files after a file was saved; one that could not be read is not saved. -/
def FileJob.saveTo (files : Dict (List UInt8)) (j : FileJob) : Dict (List UInt8) :=
  match j.source.failure with
  | some _ => files
  | none => files.insert j.name j.source.bytes

/-- Preparing touches nothing but the cache. -/
theorem MemoryStore.prepare_ok {s s' : MemoryStore} {c : Category} {descriptor : String}
    {statement : Prepared} (ok : s.prepare c descriptor = .ok (statement, s')) :
    ∃ entry cache, s.cache.getOrCompile c descriptor = .ok (entry, cache) ∧
      statement = .ofCompiled entry.compiled ∧ s' = { s with cache } := by
  unfold prepare at ok
  cases got : s.cache.getOrCompile c descriptor with
  | error e => simp [got, Except.map] at ok
  | ok found =>
      simp only [got, Except.map, Except.ok.injEq, Prod.mk.injEq] at ok
      exact ⟨found.1, found.2, rfl, ok.1.symm, ok.2.symm⟩

/-- A write fails only for want of a table. -/
theorem MemoryStore.applyWrite_eq (s : MemoryStore) (w : BoundWrite) :
    s.applyWrite w = match s.tables.get? w.category with
      | some t => .ok { s with
          tables := s.tables.insert w.category { t with records := w.applyTo t.records } }
      | none => .error (.unknownCategory w.category) := by
  cases found : s.tables.get? w.category <;>
    simp [applyWrite, Tables.apply, Tables.write?, found, Except.map]

/-- A query fails only for want of a table. -/
theorem MemoryStore.runQuery_eq {α : Type} (s : MemoryStore) (q : BoundQuery) :
    s.runQuery (α := α) q = match s.tables.get? q.category with
      | some t => .ok (.ofRecords (q.rowsOf t.records))
      | none => .error (.unknownCategory q.category) := by
  cases found : s.tables.get? q.category <;>
    simp [runQuery, Tables.find, Tables.find?, found, Except.map]

theorem MemoryStore.attempt_applyWrite (s : MemoryStore) (w : BoundWrite) :
    Dispatcher.attempt (fun w s => applyWrite s w) w s =
      { s with tables := Change.apply s.tables (.write w) } := by
  simp only [Dispatcher.attempt, applyWrite, Tables.apply, Change.apply]
  cases s.tables.write? w <;> rfl

/-- A write job changes the tables as it was to do, and nothing else. -/
theorem WriteJob.attempt_run {j : WriteJob} {change : Change} (h : j.change? = some change)
    (s : MemoryStore) :
    Dispatcher.attempt WriteJob.run j s = { s with tables := change.apply s.tables } := by
  cases j with
  | execute statement =>
      cases bound : statement.boundWrite with
      | error e => simp [change?, bound] at h
      | ok w =>
          simp only [change?, bound, Option.some.injEq] at h
          subst h
          have same : run (.execute statement) s = s.applyWrite w := by
            simp only [run, MemoryStore.execute, bound, Except.bind]
          simp only [Dispatcher.attempt, same]
          exact s.attempt_applyWrite w
  | apply w =>
      simp only [change?, Option.some.injEq] at h
      subst h
      exact s.attempt_applyWrite w
  | purge agent =>
      simp only [change?, Option.some.injEq] at h
      subst h
      rfl

/-- A job changes the tables, or nothing at all if it cannot be bound. -/
theorem WriteJob.attempt_eq (j : WriteJob) (m : MemoryStore) :
    Dispatcher.attempt WriteJob.run j m =
      { m with tables := j.change?.elim m.tables fun change => change.apply m.tables } := by
  cases known : j.change? with
  | some change => exact WriteJob.attempt_run known m
  | none =>
      cases j with
      | execute statement =>
          cases bound : statement.boundWrite with
          | error e =>
              simp [Dispatcher.attempt, WriteJob.run, MemoryStore.execute, bound, Except.bind]
          | ok w => simp [WriteJob.change?, bound] at known
      | apply w => simp [WriteJob.change?] at known
      | purge agent => simp [WriteJob.change?] at known

theorem FileJob.attempt_run (j : FileJob) (s : MemoryStore) :
    Dispatcher.attempt FileJob.run j s = { s with files := j.saveTo s.files } := by
  unfold Dispatcher.attempt run MemoryStore.saveFile saveTo
  cases j.source.failure <;> rfl

def Task.job? {Job : Type} : Task (Ticketed Job) → Option Job
  | .job (_, j) => some j
  | .mark _ => none

/-- The change that a task makes, with its ticket, as it was written down when the ticket
was drawn. -/
def Task.change? (issued : List (Nat × Change)) : Task (Ticketed WriteJob) → Option (Nat × Change)
  | .job (ticket, _) => (issued.lookup ticket).map (ticket, ·)
  | .mark _ => none

/-- What was written down for a task is what it does. -/
def Task.Known (issued : List (Nat × Change)) : Task (Ticketed WriteJob) → Prop
  | .job (ticket, j) => ∃ change, j.change? = some change ∧ issued.lookup ticket = some change
  | .mark _ => True

def changed (tables : Tables) (changes : List (Nat × Change)) : Tables :=
  changes.foldl (fun tables c => c.2.apply tables) tables

theorem changed_append (tables : Tables) (first more : List (Nat × Change)) :
    changed tables (first ++ more) = changed (changed tables first) more :=
  List.foldl_append

/-- Doing tasks changes the tables as was written down for them, and nothing else. -/
theorem foldl_perform_writes {issued : List (Nat × Change)} {tasks : List (Task (Ticketed WriteJob))}
    (known : ∀ task ∈ tasks, task.Known issued) (s : MemoryStore) :
    tasks.foldl (Dispatcher.perform (serve WriteJob.run)) s =
      { s with tables := changed s.tables (tasks.filterMap (Task.change? issued)) } := by
  induction tasks generalizing s with
  | nil => rfl
  | cons task rest ih =>
      have later := ih (fun t member => known t (List.mem_cons_of_mem _ member))
      have first := known task List.mem_cons_self
      cases task with
      | mark number => simpa [List.filterMap_cons, Task.change?, Dispatcher.perform] using later s
      | job ticketed =>
          obtain ⟨change, same, found⟩ := first
          have done := WriteJob.attempt_run same s
          simp only [List.foldl_cons, Dispatcher.perform]
          rw [show Dispatcher.attempt (serve WriteJob.run) ticketed s = _ from done, later]
          simp [Task.change?, found, changed]

theorem foldl_perform_files (tasks : List (Task (Ticketed FileJob))) (s : MemoryStore) :
    tasks.foldl (Dispatcher.perform (serve FileJob.run)) s =
      { s with files := (tasks.filterMap Task.job?).foldl FileJob.saveTo s.files } := by
  induction tasks generalizing s with
  | nil => rfl
  | cons task rest ih =>
      cases task with
      | mark number => simpa [List.filterMap_cons, Task.job?, Dispatcher.perform] using ih s
      | job ticketed =>
          simp only [List.foldl_cons, Dispatcher.perform]
          rw [show Dispatcher.attempt (serve FileJob.run) ticketed s = _ from
            ticketed.2.attempt_run s, ih]
          simp [Task.job?]

theorem Task.Known.grow {issued more : List (Nat × Change)} {task : Task (Ticketed WriteJob)}
    (h : task.Known issued) (longer : issued <+: more) : task.Known more := by
  obtain ⟨rest, rfl⟩ := longer
  cases task with
  | mark => trivial
  | job ticketed =>
      obtain ⟨change, same, found⟩ := h
      exact ⟨change, same, by simp [List.lookup_append, found]⟩

/-- What more is written down does not alter what known tasks do. -/
theorem filterMap_change_grow {issued more : List (Nat × Change)}
    {tasks : List (Task (Ticketed WriteJob))} (known : ∀ task ∈ tasks, task.Known issued)
    (longer : issued <+: more) :
    tasks.filterMap (Task.change? more) = tasks.filterMap (Task.change? issued) := by
  obtain ⟨rest, rfl⟩ := longer
  induction tasks with
  | nil => rfl
  | cons task tail ih =>
      have first := known task List.mem_cons_self
      have later := ih fun t member => known t (List.mem_cons_of_mem _ member)
      cases task with
      | mark => simpa only [List.filterMap_cons, Task.change?] using later
      | job ticketed =>
          obtain ⟨change, same, found⟩ := first
          simp [Task.change?, List.lookup_append, found, later]

end FleetStore
