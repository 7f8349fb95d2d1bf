import FleetStore.Queue.Dispatcher

/-! # What a worker has still to do

The backlog of a dispatcher is the task that its worker has taken and not done,
followed by the tasks that wait in the channel. A step of the worker takes at
most the first task off the backlog and changes the state by that task alone,
whether the task fails or not. A task that is fatal to the worker is the last that is
done, and what is behind it is lost. So the backlog is worked off in its order, and a
worker that is left to itself gets through all of it up to the first fatal task.
-/

namespace FleetStore

/-- The task that a worker has taken and not done, if there is one. -/
def WorkerState.current {Job : Type} : WorkerState Job → List (Task Job)
  | .busy task => [task]
  | _ => []

def Command.task? {Job : Type} : Command Job → Option (Task Job)
  | .run task => some task
  | .stop => none

theorem WorkerState.hasEnded_iff {Job : Type} {w : WorkerState Job} :
    w.hasEnded = true ↔ w = .stopped ∨ w = .broken := by
  cases w <;> simp [hasEnded]

/-! ## Up to a fatal task -/

namespace Task

variable {Job : Type} [Fatal Job]

/-- The first tasks of a list, up to one that is fatal to the worker. -/
def reached : List (Task Job) → List (Task Job)
  | [] => []
  | task :: rest => if task.isFatal then [task] else task :: reached rest

theorem reached_prefix (tasks : List (Task Job)) : reached tasks <+: tasks := by
  induction tasks with
  | nil => exact List.prefix_refl _
  | cons task rest ih =>
      unfold reached
      split
      · exact ⟨rest, rfl⟩
      · exact List.prefix_cons_inj task |>.2 ih

theorem reached_append {first : List (Task Job)} (h : ∀ task ∈ first, task.isFatal = false)
    (rest : List (Task Job)) : reached (first ++ rest) = first ++ reached rest := by
  induction first with
  | nil => rfl
  | cons task more ih =>
      rw [List.cons_append, reached, h task List.mem_cons_self, if_neg Bool.false_ne_true,
        ih fun later member => h later (List.mem_cons_of_mem _ member), List.cons_append]

theorem reached_of_harmless {tasks : List (Task Job)} (h : ∀ task ∈ tasks, task.isFatal = false) :
    reached tasks = tasks := by
  have all := reached_append h []
  rwa [List.append_nil, reached, List.append_nil] at all

/-- A worker gets to all tasks exactly if none but the last is fatal to it. -/
theorem reached_eq_self_iff {tasks : List (Task Job)} :
    reached tasks = tasks ↔ ∀ task ∈ tasks.dropLast, task.isFatal = false := by
  induction tasks with
  | nil => simp [reached]
  | cons task rest ih =>
      cases rest with
      | nil => simp [reached]
      | cons next more =>
          rw [reached, List.dropLast_cons_cons]
          split
          · next fatal => simp [fatal]
          · next harmless =>
              rw [List.cons_inj_right, ih]
              simp [harmless]

end Task

namespace Dispatcher

variable {Job σ ε : Type} {d d' : Dispatcher Job}

/-- The tasks that were sent and are not done, in the order in which they were sent. -/
def backlog (d : Dispatcher Job) : List (Task Job) :=
  d.worker.current ++ d.channel.filterMap Command.task?

@[simp] theorem backlog_new (name : String) : (new name : Dispatcher Job).backlog = [] := rfl

@[simp] theorem backlog_announce (d : Dispatcher Job) : d.announce.backlog = d.backlog := rfl

@[simp] theorem backlog_send (d : Dispatcher Job) (task : Task Job) :
    (d.send task).backlog = d.backlog ++ [task] := by
  simp [backlog, send, Command.task?]

@[simp] theorem backlog_sendStop (d : Dispatcher Job) : d.sendStop.backlog = d.backlog := by
  unfold backlog sendStop
  split <;> simp [Command.task?]

theorem worker_ne_broken (h : d.hasStopped = false) : d.worker ≠ .broken := by
  intro broken
  simp [hasStopped, broken, WorkerState.hasEnded] at h

theorem current_of_ended (h : d.hasStopped = true) : d.worker.current = [] := by
  rcases WorkerState.hasEnded_iff.1 h with worker | worker <;> rw [worker] <;> rfl

/-! ## The end of the channel

The stop command is the last that a dispatcher is sent, so a worker that stops
leaves nothing behind. One that breaks leaves an empty channel too. -/

/-- Nothing comes after the stop command, and a worker that has ended was sent
nothing more. -/
structure Orderly (d : Dispatcher Job) : Prop where
  stopIsLast : Command.stop ∉ d.channel.dropLast
  stoppedAtEnd : d.hasStopped = true → d.channel = []

/-- Nothing that the worker was sent tells it to stop. -/
structure Untold (d : Dispatcher Job) : Prop where
  noStop : Command.stop ∉ d.channel
  goesOn : d.worker ≠ .stopped

theorem untold_new (name : String) : (new name : Dispatcher Job).Untold :=
  ⟨by simp [new], by simp [new]⟩

theorem Untold.send (h : d.Untold) (task : Task Job) : (d.send task).Untold :=
  ⟨by simpa [Dispatcher.send] using h.noStop, h.goesOn⟩

theorem Untold.orderly (h : d.Untold) (listens : d.hasStopped = false) (command : Command Job) :
    ({ d with channel := d.channel ++ [command] } : Dispatcher Job).Orderly :=
  ⟨by simpa using h.noStop, fun ended => absurd (listens.symm.trans ended) Bool.false_ne_true⟩

/-- The worker has ended or is going to stop, when it comes to the command in its channel. -/
def Told (d : Dispatcher Job) : Prop :=
  Command.stop ∈ d.channel ∨ d.hasStopped = true

/-- The steps that the worker needs for everything it was sent. -/
def stepsNeeded (d : Dispatcher Job) : Nat :=
  3 * d.channel.length +
    match d.worker with
    | .busy _ => 2
    | .done => 1
    | _ => 0

theorem stepsNeeded_le_stepsLeft (d : Dispatcher Job) : d.stepsNeeded ≤ d.stepsLeft := by
  unfold stepsNeeded stepsLeft
  split <;> omega

theorem stepsNeeded_of_ended (h : d.Orderly) (ended : d.hasStopped = true) : d.stepsNeeded = 0 := by
  have empty := h.stoppedAtEnd ended
  rcases WorkerState.hasEnded_iff.1 ended with worker | worker <;> simp [stepsNeeded, worker, empty]

theorem channel_eq_nil (h : d.stepsNeeded = 0) : d.channel = [] := by
  unfold stepsNeeded at h
  exact List.length_eq_zero_iff.1 (by omega)

theorem Orderly.backlog_of_ended (h : d.Orderly) (ended : d.hasStopped = true) : d.backlog = [] := by
  rw [backlog, current_of_ended ended, h.stoppedAtEnd ended]
  rfl

theorem backlog_eq_nil (h : d.stepsNeeded = 0) : d.backlog = [] := by
  have empty := channel_eq_nil h
  unfold stepsNeeded at h
  cases state : d.worker <;> simp_all [backlog, WorkerState.current]

theorem isHeld_none (d : Dispatcher Job) : d.isHeld (fun _ => false) = false := by
  unfold isHeld
  split <;> rfl

variable [Fatal Job] {run : Job → σ → Except ε σ} {s s' : σ}

/-! ## One step -/

/-- What a step of the worker makes of a dispatcher and a state. -/
inductive Turned (run : Job → σ → Except ε σ) (d : Dispatcher Job) (s : σ) :
    Dispatcher Job → σ → Prop where
  | waits (idle : d.worker = .idle) (empty : d.channel = []) : Turned run d s d s
  | takes (task rest) (idle : d.worker = .idle) (sent : d.channel = .run task :: rest) :
      Turned run d s { d with channel := rest, worker := .busy task } s
  | stops (rest) (idle : d.worker = .idle) (sent : d.channel = .stop :: rest) :
      Turned run d s { d with channel := rest, worker := .stopped } s
  | does (task) (busy : d.worker = .busy task) (harmless : task.isFatal = false) :
      Turned run d s { d with worker := .done, passed := d.passed ++ task.signals }
        (perform run s task)
  | breaks (task) (busy : d.worker = .busy task) (fatal : task.isFatal = true) :
      Turned run d s { d with channel := [], worker := .broken } (perform run s task)
  | counts (done : d.worker = .done) :
      Turned run d s { d with worker := .idle, pending := d.pending - 1 } s
  | rests (ended : d.hasStopped = true) : Turned run d s d s

theorem turned (run : Job → σ → Except ε σ) (d : Dispatcher Job) (s : σ) :
    Turned run d s (d.turn run s).1 (d.turn run s).2 := by
  unfold turn
  cases worker : d.worker with
  | idle =>
      cases sent : d.channel with
      | nil => exact .waits worker sent
      | cons command rest =>
          cases command with
          | run task => exact .takes task rest worker sent
          | stop => exact .stops rest worker sent
  | busy task =>
      by_cases fatal : task.isFatal = true
      · simpa only [if_pos fatal] using .breaks task worker fatal
      · simpa only [if_neg fatal] using .does task worker (Bool.eq_false_iff.2 fatal)
  | done => exact .counts worker
  | stopped | broken => exact .rests (by simp [hasStopped, worker, WorkerState.hasEnded])

/-- The tasks that are lost with the next step of the worker: those that wait behind a
fatal one. -/
def losing (d : Dispatcher Job) : List (Task Job) :=
  if d.worker.current.any Task.isFatal then d.channel.filterMap Command.task? else []

/-- A worker that is not broken after a step was not before, and loses nothing. -/
theorem Turned.whole (h : Turned run d s d' s') (alive : d'.worker ≠ .broken) :
    d.worker ≠ .broken ∧ d.losing = [] ∧ ∀ task ∈ d.worker.current, task.isFatal = false := by
  cases h with
  | waits idle | takes _ _ idle | stops _ idle => simp [losing, idle, WorkerState.current]
  | does task busy harmless => simp [losing, busy, harmless, WorkerState.current]
  | breaks => contradiction
  | counts done => simp [losing, done, WorkerState.current]
  | rests ended => simp [losing, current_of_ended ended, alive]

theorem Turned.broken (h : Turned run d s d' s') (broken : d'.worker = .broken) :
    d.worker = .broken ∨ ∃ task ∈ d.worker.current, task.isFatal = true := by
  cases h with
  | waits | rests => exact .inl broken
  | takes | stops | does | counts => contradiction
  | breaks task busy fatal => exact .inr ⟨task, by simp [busy, WorkerState.current], fatal⟩

/-- A worker that has ended does nothing more. -/
theorem turn_of_ended (h : d.hasStopped = true) (run : Job → σ → Except ε σ) (s : σ) :
    d.turn run s = (d, s) := by
  unfold turn
  rcases WorkerState.hasEnded_iff.1 h with worker | worker <;> simp only [worker]

/-! ## Working off -/

/-- Between two moments the worker has done some tasks and lost others: those done were the
first of the backlog and account for the whole change of the state, and those lost were
the last. None was done behind a fatal one. -/
structure WorksOff (run : Job → σ → Except ε σ) (done lost : List (Task Job))
    (d : Dispatcher Job) (s : σ) (d' : Dispatcher Job) (s' : σ) : Prop where
  backlog : d.backlog = done ++ (d'.backlog ++ lost)
  reached : Task.reached d.backlog = done ++ Task.reached d'.backlog
  state : s' = done.foldl (perform run) s
  passed : d'.passed = d.passed ++ done.flatMap Task.signals
  calls : d'.calls = d.calls
  accepting : d'.accepting = d.accepting

theorem WorksOff.nothing (d : Dispatcher Job) (s : σ) : WorksOff run [] [] d s d s :=
  ⟨by simp, rfl, rfl, by simp, rfl, rfl⟩

theorem WorksOff.trans {first more lost gone : List (Task Job)} {d'' : Dispatcher Job} {s'' : σ}
    (h : WorksOff run first lost d s d' s') (k : WorksOff run more gone d' s' d'' s'') :
    WorksOff run (first ++ more) (gone ++ lost) d s d'' s'' where
  backlog := by rw [h.backlog, k.backlog]; simp only [List.append_assoc]
  reached := by rw [h.reached, k.reached, List.append_assoc]
  state := by rw [k.state, h.state, List.foldl_append]
  passed := by rw [k.passed, h.passed, List.flatMap_append, List.append_assoc]
  calls := k.calls.trans h.calls
  accepting := k.accepting.trans h.accepting

theorem signals_of_fatal {task : Task Job} (h : task.isFatal = true) : task.signals = [] := by
  cases task with
  | job => rfl
  | mark => contradiction

/-- A step of the worker does the task at which the worker stands, and nothing else. -/
theorem Turned.worksOff (h : Turned run d s d' s') :
    WorksOff run d.worker.current d.losing d s d' s' := by
  cases h with
  | waits idle => simpa [losing, idle, WorkerState.current] using .nothing d s
  | takes task rest idle sent =>
      constructor <;> simp [backlog, losing, idle, sent, WorkerState.current, Command.task?]
  | stops rest idle sent =>
      constructor <;>
        simp [backlog, losing, idle, sent, WorkerState.current, List.filterMap_cons, Command.task?]
  | does task busy harmless =>
      constructor <;> simp [backlog, losing, busy, harmless, WorkerState.current, Task.reached]
  | breaks task busy fatal =>
      have silent := signals_of_fatal fatal
      constructor <;> simp [backlog, losing, busy, fatal, silent, WorkerState.current, Task.reached]
  | counts done => constructor <;> simp [backlog, losing, done, WorkerState.current]
  | rests ended =>
      have nothing : WorksOff run [] [] d s d s := .nothing d s
      rwa [losing, current_of_ended ended]

theorem turn_worksOff (run : Job → σ → Except ε σ) (d : Dispatcher Job) (s : σ) :
    WorksOff run d.worker.current d.losing d s (d.turn run s).1 (d.turn run s).2 :=
  (turned run d s).worksOff

theorem turns_worksOff (held : Job → Bool) (run : Job → σ → Except ε σ) (steps : Nat)
    (d : Dispatcher Job) (s : σ) :
    ∃ done lost,
      WorksOff run done lost d s (turns held run steps d s).1 (turns held run steps d s).2 := by
  induction steps generalizing d s with
  | zero => exact ⟨[], [], .nothing d s⟩
  | succ steps ih =>
      unfold turns
      split
      · exact ⟨[], [], .nothing d s⟩
      · obtain ⟨more, gone, later⟩ := ih (d.turn run s).1 (d.turn run s).2
        exact ⟨_, _, (turn_worksOff run d s).trans later⟩

/-! ## Getting through -/

theorem Orderly.turned (h : d.Orderly) (turned : Turned run d s d' s') : d'.Orderly := by
  have last := h.stopIsLast
  cases turned with
  | waits | rests => exact h
  | takes task rest idle sent =>
      rw [sent] at last
      refine ⟨fun member => last ?_, nofun⟩
      cases rest with
      | nil => simp at member
      | cons head tail =>
          rw [List.dropLast_cons_cons]
          exact List.mem_cons_of_mem _ member
  | stops rest idle sent =>
      have empty : rest = [] := by
        cases rest with
        | nil => rfl
        | cons head tail => simp [sent] at last
      exact ⟨by simp [empty], fun _ => empty⟩
  | does | counts => exact ⟨last, nofun⟩
  | breaks => exact ⟨by simp, fun _ => rfl⟩

theorem Untold.turned (h : d.Untold) (turned : Turned run d s d' s') : d'.Untold := by
  have noStop := h.noStop
  cases turned with
  | waits | rests => exact h
  | takes task rest idle sent => exact ⟨fun member => noStop (by simp [sent, member]), nofun⟩
  | stops rest idle sent => exact absurd (by simp [sent]) noStop
  | does | counts => exact ⟨noStop, nofun⟩
  | breaks => exact ⟨by simp, nofun⟩

theorem Told.turned (h : d.Told) (turned : Turned run d s d' s') : d'.Told := by
  cases turned with
  | waits | rests => exact h
  | takes task rest idle sent =>
      exact .inl (by simpa [Told, sent, hasStopped, idle, WorkerState.hasEnded] using h)
  | stops | breaks => exact .inr rfl
  | does task busy => exact .inl (by simpa [Told, hasStopped, busy, WorkerState.hasEnded] using h)
  | counts done => exact .inl (by simpa [Told, hasStopped, done, WorkerState.hasEnded] using h)

theorem Orderly.stepsNeeded_turned (h : d.Orderly) (turned : Turned run d s d' s') :
    d'.stepsNeeded ≤ d.stepsNeeded - 1 := by
  cases turned with
  | waits idle empty => simp [stepsNeeded, idle, empty]
  | takes task rest idle sent => simp only [stepsNeeded, idle, sent, List.length_cons]; omega
  | stops rest idle sent => simp only [stepsNeeded, idle, sent, List.length_cons]; omega
  | does task busy | breaks task busy => simp [stepsNeeded, busy]
  | counts done => simp [stepsNeeded, done]
  | rests ended => simp [stepsNeeded_of_ended h ended]

theorem Orderly.stepsNeeded_turns (h : d.Orderly) (run : Job → σ → Except ε σ) (steps : Nat)
    (s : σ) : (turns (fun _ => false) run steps d s).1.stepsNeeded ≤ d.stepsNeeded - steps := by
  induction steps generalizing d s with
  | zero => exact Nat.le_refl _
  | succ steps ih =>
      have first := h.stepsNeeded_turned (Dispatcher.turned run d s)
      have later := ih (h.turned (Dispatcher.turned run d s)) (d.turn run s).2
      simp only [turns, isHeld_none, Bool.false_eq_true, if_false]
      omega

theorem WorksOff.of_through {done lost : List (Task Job)} (h : WorksOff run done lost d s d' s')
    (through : d'.backlog = []) : done = Task.reached d.backlog := by
  rw [h.reached, through, Task.reached, List.append_nil]

/-- The worker gets to the task that it has taken. -/
theorem current_prefix (d : Dispatcher Job) : d.worker.current <+: Task.reached d.backlog := by
  cases worker : d.worker with
  | busy task =>
      rw [backlog, worker, WorkerState.current, List.singleton_append, Task.reached]
      split
      · exact List.prefix_refl _
      · exact ⟨_, rfl⟩
  | _ => exact List.nil_prefix

/-- A worker that nothing holds up does its whole backlog up to the first fatal task, whatever
its jobs do, and loses the rest. -/
theorem settle_worksOff (h : d.Orderly) (run : Job → σ → Except ε σ) (s : σ) :
    ∃ lost, d.backlog = Task.reached d.backlog ++ lost ∧
      WorksOff run (Task.reached d.backlog) lost d s (d.settle (fun _ => false) run s).1
        (d.settle (fun _ => false) run s).2 := by
  have needed : (d.settle (fun _ => false) run s).1.stepsNeeded = 0 := by
    have := h.stepsNeeded_turns run d.stepsLeft s
    have := d.stepsNeeded_le_stepsLeft
    unfold settle
    omega
  obtain ⟨done, lost, worked⟩ := turns_worksOff (fun _ => false) run d.stepsLeft d s
  have through := backlog_eq_nil needed
  have all := worked.of_through through
  refine ⟨lost, ?_, all ▸ worked⟩
  rw [← all]
  simpa [show (turns _ run d.stepsLeft d s).1.backlog = [] from through] using worked.backlog

/-! ## Workers that do not break -/

/-- Nothing that the worker has still to do is fatal to it. -/
def Harmless (d : Dispatcher Job) : Prop :=
  ∀ task ∈ d.backlog, task.isFatal = false

theorem WorksOff.harmless {done lost : List (Task Job)} (h : WorksOff run done lost d s d' s')
    (harmless : d.Harmless) : lost = [] ∧ d'.Harmless := by
  have rest : d'.Harmless := fun task member =>
    harmless task (by rw [h.backlog]; simp [member])
  refine ⟨?_, rest⟩
  have whole := h.reached
  rw [Task.reached_of_harmless harmless, Task.reached_of_harmless rest, h.backlog] at whole
  simpa using whole

/-- A worker goes on that was not told to stop and has nothing fatal to do. -/
structure Running (d : Dispatcher Job) : Prop extends Untold d where
  listens : d.hasStopped = false
  harmless : d.Harmless

theorem running_new (name : String) : (new name : Dispatcher Job).Running :=
  ⟨untold_new name, rfl, by simp [Harmless]⟩

theorem Running.toOrderly (h : d.Running) : d.Orderly :=
  ⟨fun member => h.noStop (List.dropLast_subset _ member),
    fun ended => absurd (h.listens.symm.trans ended) Bool.false_ne_true⟩

theorem Running.turned (h : d.Running) (turned : Turned run d s d' s') : d'.Running := by
  refine ⟨h.toUntold.turned turned, ?_, (turned.worksOff.harmless h.harmless).2⟩
  cases turned with
  | waits | rests => exact h.listens
  | takes | does | counts => rfl
  | stops rest idle sent => exact absurd (by simp [sent]) h.noStop
  | breaks task busy fatal =>
      have harmless := h.harmless task (by simp [backlog, busy, WorkerState.current])
      exact absurd (harmless.symm.trans fatal) Bool.false_ne_true

theorem Running.send (h : d.Running) {task : Task Job} (harmless : task.isFatal = false) :
    (d.send task).Running where
  toUntold := h.toUntold.send task
  listens := h.listens
  harmless later member := by
    rw [backlog_send] at member
    rcases List.mem_append.1 member with old | new
    · exact h.harmless later old
    · rwa [List.mem_singleton.1 new]

end Dispatcher

end FleetStore
