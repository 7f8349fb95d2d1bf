import FleetStore.Proofs.Replay.Runs

/-! # A replay agrees with a run without a queue

If no flush is late, a replay prints the lines of the run without a queue, counts the
same writes and queries, and fails at the same statement for the same cause. The
exception are names with a NUL. They are words, so the configuration is valid, but no
worker can have them, and the replay fails before its first statement.
-/

namespace FleetStore

/-- The configuration with the first of its statements only. -/
def Config.upTo (c : Config) (i : Nat) : Config :=
  { c with statements := c.statements.take i }

/-- A way to run configurations fails at the statement of an index: it gets through the
statements before it, and not through them and the statement. -/
structure FailsAt (failure : Config → Option Replay.Failure) (c : Config) (i : Nat) : Prop where
  inside : i < c.statements.length
  before : failure (c.upTo i) = none
  there : failure (c.upTo (i + 1)) ≠ none

/-- What does not get through all statements fails at one of them. -/
theorem exists_failsAt {failure : Config → Option Replay.Failure} {c : Config}
    (start : failure (c.upTo 0) = none) (fails : failure c ≠ none) : ∃ i, FailsAt failure c i := by
  have all : c.upTo c.statements.length = c := by simp [Config.upTo]
  have search : ∀ n, n ≤ c.statements.length → failure (c.upTo n) ≠ none →
      ∃ i, FailsAt failure c i := by
    intro n
    induction n with
    | zero => exact fun _ failed => absurd start failed
    | succ n ih =>
        intro short failed
        cases before : failure (c.upTo n) with
        | none => exact ⟨n, short, before, failed⟩
        | some f => exact ih (Nat.le_of_succ_le short) (by simp [before])
  exact search _ (Nat.le_refl _) (all.symm ▸ fails)

theorem Config.validate_upTo {c : Config} (valid : c.validate = .ok ()) (i : Nat) :
    (c.upTo i).validate = .ok () := by
  obtain ⟨word, writes, files, categories, statements⟩ := validate_ok_iff.1 valid
  exact validate_ok_iff.2 ⟨word, writes, files, categories,
    fun s member => statements s (List.mem_of_mem_take member)⟩

/-! ## Starting the workers -/

theorem Dispatcher.checkName_ok {name : String} (h : '\x00' ∉ name.toList) :
    checkName name = .ok () := by
  simp [checkName, h]

namespace QueuedStore

variable {settings : Settings}

theorem start_ok (h : '\x00' ∉ settings.name.toList) (delegate : MemoryStore) :
    start settings delegate = .ok (new settings delegate) := by
  have writer : '\x00' ∉ settings.writerName.toList := by
    simp [Settings.writerName, h]
  have filer : '\x00' ∉ settings.filerName.toList := by
    simp [Settings.filerName, h]
  simp [start, Dispatcher.checkName_ok writer, Dispatcher.checkName_ok filer, bind, Except.bind, pure,
    Except.pure]

theorem start_error (h : '\x00' ∈ settings.name.toList) (delegate : MemoryStore) :
    start settings delegate = .error ⟨settings.writerName⟩ := by
  have writer : '\x00' ∈ settings.writerName.toList := by
    simp [Settings.writerName, h]
  simp [start, Dispatcher.checkName, writer, bind, Except.bind]

end QueuedStore

namespace Replay

variable {c : Config} {env : Environment} {schedule : Schedule}

/-- No worker can have a name with a NUL, so nothing is run. -/
theorem run_unnameable (valid : c.validate = .ok ()) (h : '\x00' ∈ c.storage.name.toList) :
    run c env schedule =
      ⟨.start (.new c.storage .empty), some (.worker ⟨c.storage.writerName⟩)⟩ := by
  simp only [run, valid, QueuedStore.start_error h]

/-- A replay registers the categories, runs the statements and shuts the store down. -/
theorem run_eq (valid : c.validate = .ok ()) (h : '\x00' ∉ c.storage.name.toList) {m : MemoryStore}
    (registered : Unqueued.registerAll .empty c.categories = .ok m) (env : Environment)
    (schedule : Schedule) :
    ∃ store, run c env schedule =
      let ran := runStatements env schedule (declared ∅ c.categories) (.start (.new c.storage m))
        c.statements
      ⟨{ ran.1 with store }, ran.2⟩ := by
  have all := registerAll_eq (.new c.storage .empty) ∅ c.categories
  rw [show (QueuedStore.new c.storage .empty).delegate = .empty from rfl, registered] at all
  simp only [Except.map] at all
  simp only [run, valid, QueuedStore.start_ok h, all]
  exact ⟨_, rfl⟩

theorem follows_start (settings : Settings) (m : MemoryStore) :
    Follows settings.proxied (.start (.new settings m)) (.start m) :=
  ⟨rfl, QueuedStore.open_new settings m, rfl, rfl, rfl, rfl⟩

/-- If no flush is late, a replay does what the run without a queue does. -/
theorem run_alike (valid : c.validate = .ok ()) (h : '\x00' ∉ c.storage.name.toList)
    (inTime : (run c env schedule).progress.overdue = 0) :
    let queued := run c env schedule
    let alone := Unqueued.run c env
    queued.progress.lines = alone.progress.lines ∧ queued.progress.writes = alone.progress.writes ∧
      queued.progress.queries = alone.progress.queries ∧
      queued.failure = alone.failure.map (Failure.seen c.storage.proxied) := by
  obtain ⟨m, registered, ready⟩ := Unqueued.ready_of_validate valid
  obtain ⟨store, ran⟩ := run_eq valid h registered env schedule
  have declarable := Config.declarable_of_validate valid
  rw [ran] at inTime ⊢
  obtain ⟨follows, failure⟩ := (follows_start c.storage m).runStatements declarable
    (declared_get? declarable ∅) ready c.statements inTime
  simp only [Unqueued.run, registered]
  exact ⟨follows.lines, follows.writes, follows.queries, failure⟩

theorem overdue_upTo_le (valid : c.validate = .ok ()) (h : '\x00' ∉ c.storage.name.toList)
    (env : Environment) (schedule : Schedule) (i : Nat) :
    (run (c.upTo i) env schedule).progress.overdue ≤ (run c env schedule).progress.overdue := by
  obtain ⟨m, registered, _⟩ := Unqueued.ready_of_validate valid
  obtain ⟨store, ran⟩ := run_eq valid h registered env schedule
  obtain ⟨store', ran'⟩ := run_eq (Config.validate_upTo valid i) h registered env schedule
  rw [ran, ran']
  exact overdue_take_le env schedule _ _ c.statements i

/-- With prompt workers no flush of a replay is late, whatever the configuration. -/
theorem overdue_prompt (c : Config) (env : Environment) : (run c env .prompt).progress.overdue = 0 := by
  cases valid : c.validate with
  | error fault =>
      simp only [run, valid]
      rfl
  | ok =>
      by_cases h : '\x00' ∈ c.storage.name.toList
      · rw [run_unnameable valid h]
        rfl
      · obtain ⟨m, registered, ready⟩ := Unqueued.ready_of_validate valid
        obtain ⟨store, ran⟩ := run_eq valid h registered env .prompt
        have declarable := Config.declarable_of_validate valid
        rw [ran]
        exact (follows_start c.storage m).overdue_prompt declarable (declared_get? declarable ∅) ready
          env c.statements

/-- A replay agrees with a run without a queue. -/
structure Agrees (c : Config) (env : Environment) (schedule : Schedule) : Prop where
  lines : (run c env schedule).progress.lines = (Unqueued.run c env).progress.lines
  writes : (run c env schedule).progress.writes = (Unqueued.run c env).progress.writes
  queries : (run c env schedule).progress.queries = (Unqueued.run c env).progress.queries
  rows : (run c env schedule).progress.rows = (Unqueued.run c env).progress.lines.length
  failure : (run c env schedule).failure =
    (Unqueued.run c env).failure.map (Failure.seen c.storage.proxied)
  place : ∀ i, FailsAt (fun c => (run c env schedule).failure) c i ↔
    FailsAt (fun c => (Unqueued.run c env).failure) c i

/-- A replay of a valid configuration in which no flush is late agrees with the run without a
queue exactly if there is no NUL in the name of the store. If there is one, the replay
fails for it and prints nothing. -/
theorem agrees_iff_nameable (c : Config) (env : Environment) (schedule : Schedule)
    (valid : c.validate = .ok ()) (inTime : (run c env schedule).progress.overdue = 0) :
    (Agrees c env schedule ↔ '\x00' ∉ c.storage.name.toList) ∧
    ('\x00' ∈ c.storage.name.toList → (run c env schedule).progress.lines = [] ∧
      (run c env schedule).failure = some (.worker ⟨c.storage.writerName⟩)) := by
  refine ⟨⟨fun agrees unnameable => ?_, fun h => ?_⟩, fun h => ?_⟩
  · -- The run without a queue would have to fail at some statement, but the replay does not get
    -- through the statements before it.
    let alone (c : Config) := (Unqueued.run c env).failure
    have start : alone (c.upTo 0) = none := by
      obtain ⟨m, registered, _⟩ := Unqueued.ready_of_validate (Config.validate_upTo valid 0)
      simp only [alone, Unqueued.run, registered]
      rfl
    have fails : alone c ≠ none := by
      intro none
      have failure := agrees.failure
      rw [run_unnameable valid unnameable, show (Unqueued.run c env).failure = _ from none] at failure
      contradiction
    obtain ⟨i, place⟩ := exists_failsAt start fails
    have before := ((agrees.place i).2 place).before
    rw [run_unnameable (Config.validate_upTo valid i) unnameable] at before
    contradiction
  · obtain ⟨lines, writes, queries, failure⟩ := run_alike valid h inTime
    have through : ∀ i, (run (c.upTo i) env schedule).failure = none ↔
        (Unqueued.run (c.upTo i) env).failure = none := by
      intro i
      have late := overdue_upTo_le valid h env schedule i
      have alike := run_alike (Config.validate_upTo valid i) h (Nat.le_zero.1 (inTime ▸ late))
      rw [alike.2.2.2, Option.map_eq_none_iff]
    refine ⟨lines, writes, queries, congrArg List.length lines, failure, fun i => ?_⟩
    constructor
    · intro place
      exact ⟨place.inside, (through i).1 place.before, fun none => place.there ((through _).2 none)⟩
    · intro place
      exact ⟨place.inside, (through i).2 place.before, fun none => place.there ((through _).1 none)⟩
  · rw [run_unnameable valid h]
    exact ⟨rfl, rfl⟩

/-- A write, a query for it and a query with a limit. -/
def paint (settings : Settings) (limit : Int) : Config :=
  { storage := settings
    categories := [⟨"paint", [⟨"colour", .scalar .string⟩], []⟩]
    statements := [
      ⟨"paint", "ADD paint SET 'colour' = ?s", [.str "red"]⟩, ⟨"paint", "QUERY paint", []⟩,
      ⟨"paint", "QUERY paint LIMIT ?i", [.int limit]⟩] }

/-- Behind a proxy the colour is printed and a limit of nothing refused, as without a queue. -/
theorem paint_agrees_behind_proxy :
    let c := paint { Settings.standard with proxied := true } 0
    let env : Environment := fun _ => none
    c.validate = .ok () ∧ (run c env .prompt).progress.overdue = 0 ∧
      '\x00' ∉ c.storage.name.toList ∧ Agrees c env .prompt ∧
      (run c env .prompt).progress.lines = ["\x7b\"colour\":\"red\"\x7d"] ∧
      (run c env .prompt).failure.isSome := by
  intro c env
  have valid : c.validate = .ok () := Config.validate_of_isOk (by decide +kernel)
  have inTime := overdue_prompt c env
  have nameable : '\x00' ∉ c.storage.name.toList := by decide +kernel
  refine ⟨valid, inTime, nameable, ?_, by decide +kernel, by decide +kernel⟩
  exact (agrees_iff_nameable c env .prompt valid inTime).1.2 nameable

/-- Under a name with a NUL such a configuration is valid too. Without a queue both queries
print the colour, but the replay does not come to them. -/
theorem paint_disagrees_under_nul :
    let c := paint { Settings.standard with name := "a\x00b" } 1
    let env : Environment := fun _ => none
    c.validate = .ok () ∧ (run c env .prompt).progress.overdue = 0 ∧ ¬ Agrees c env .prompt ∧
      (run c env .prompt).progress.lines = [] ∧ (Unqueued.run c env).failure.isNone ∧
      (Unqueued.run c env).progress.lines = List.replicate 2 "\x7b\"colour\":\"red\"\x7d" := by
  intro c env
  have valid : c.validate = .ok () := Config.validate_of_isOk (by decide +kernel)
  have nothing : (run c env .prompt).progress.lines = [] := by decide +kernel
  have printed : (Unqueued.run c env).progress.lines =
      List.replicate 2 "\x7b\"colour\":\"red\"\x7d" := by decide +kernel
  refine ⟨valid, overdue_prompt c env, fun agrees => ?_, nothing, by decide +kernel, printed⟩
  have lines := agrees.lines
  rw [nothing, printed] at lines
  contradiction

end Replay

end FleetStore
