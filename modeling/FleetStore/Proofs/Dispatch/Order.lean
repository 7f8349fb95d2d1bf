import FleetStore.Proofs.Dispatch.Ledger

/-! # Jobs are done in the order in which they were accepted

Whatever clients, closers and the worker do in between, the worker takes the
accepted tasks one after another, each once, and a job that fails changes
nothing about what comes after it. A job that is fatal to the worker is the last that it
does. A worker that is left alone gets through all that was accepted up to such a job,
and when it ends there is nothing left before it.
-/

namespace FleetStore.Desk

variable {Job σ τ ε δ : Type} {run : Job → σ → Except ε σ} {asks : Request Job → Prop}
variable {name : String} {start s s' : σ} {k k' : Desk Job}

/-! ## Tickets -/

/-- No ticket is given to two tasks, and none of an accepted task is among the rejected. -/
theorem Tallied.accepted_nodup (h : k.Tallied) : (k.accepted.map Task.ticket).Nodup := by
  refine List.nodup_iff_count.2 fun n => ?_
  have drawn := h.drawn n
  split at drawn <;> omega

theorem Tallied.not_rejected (h : k.Tallied) {task : Task (Ticketed Job)}
    (member : task ∈ k.accepted) : task.ticket ∉ k.rejected := by
  intro rejected
  have once := List.count_pos_iff.2 (List.mem_map_of_mem (f := Task.ticket) member)
  have again := List.count_pos_iff.2 rejected
  have drawn := h.drawn task.ticket
  split at drawn <;> omega

/-- A submission returns without failing only if its task was accepted, and when nobody
is left at the gate all accepted submissions have returned. -/
theorem Tallied.mem_returned (h : k.Tallied) {n : Nat} (member : n ∈ k.returned) :
    n ∈ k.accepted.map Task.ticket := by
  have once := List.count_pos_iff.2 member
  have returned := h.returned n
  exact List.count_pos_iff.1 (by omega)

theorem Tallied.all_returned (h : k.Tallied) (alone : k.visits = []) :
    ∀ task ∈ k.accepted, task.ticket ∈ k.returned := by
  intro task member
  have once := List.count_pos_iff.2 (List.mem_map_of_mem (f := Task.ticket) member)
  have returned := h.returned task.ticket
  simp only [leaving, alone, List.filter_nil, List.map_nil, List.count_nil] at returned
  exact List.count_pos_iff.1 (by omega)

/-- The tasks that were accepted and those of the clients inside the gate. -/
def tasks (k : Desk Job) : List (Task (Ticketed Job)) :=
  k.accepted ++ k.visits.map Visit.task

theorem tasks_enter (k : Desk Job) (request : Request Job) :
    (k.enter request).tasks = k.tasks ++ [request.task k.calls] := by
  simp [tasks, enter]

theorem Tallied.ticket_lt (h : k.Tallied) {task : Task (Ticketed Job)} (member : task ∈ k.tasks) :
    task.ticket < k.calls := by
  have drawn := h.drawn task.ticket
  have somewhere : 0 < (k.accepted.map Task.ticket).count task.ticket +
      k.waiting.count task.ticket := by
    rcases List.mem_append.1 member with accepted | inside
    · have := List.count_pos_iff.2 (List.mem_map_of_mem (f := Task.ticket) accepted)
      omega
    · obtain ⟨v, visits, rfl⟩ := List.mem_map.1 inside
      by_cases sent : v.stage = .sent
      · have leaves : v.task.ticket ∈ k.leaving :=
          List.mem_map_of_mem (List.mem_filter.2 ⟨visits, by simp [sent]⟩)
        have := List.count_pos_iff.2 leaves
        have returned := h.returned v.task.ticket
        omega
      · have waits : v.task.ticket ∈ k.waiting :=
          List.mem_map_of_mem (List.mem_filter.2 ⟨visits, by simp [sent]⟩)
        have := List.count_pos_iff.2 waits
        omega
  split at drawn
  · assumption
  · omega

theorem taking_of_ended {d : Dispatcher Job} (h : d.hasStopped = true) : d.taking = [] := by
  rcases WorkerState.hasEnded_iff.1 h with worker | worker <;> simp [Dispatcher.taking, worker]

variable [Fatal Job]

/-! ## What every run keeps -/

/-- A desk with its gate in order and its accounts in balance. -/
structure Sound (k : Desk Job) : Prop where
  guarded : k.Guarded
  logged : k.Logged
  tallied : k.Tallied

theorem sound_new (name : String) : (new name : Desk Job).Sound :=
  ⟨guarded_new name, logged_new name, tallied_new name⟩

theorem Sound.step (h : k.Sound) (step : Step asks run k s k' s') : k'.Sound :=
  ⟨h.guarded.step step, h.logged.step step, h.tallied.step step⟩

theorem Reachable.sound (h : Reachable asks run name start k s) : k.Sound := by
  induction h with
  | start => exact sound_new name
  | step _ next ih => exact ih.step next

/-- The state is what the tasks done so far have made of it, one after another. -/
theorem Reachable.state (h : Reachable asks run name start k s) :
    s = k.finished.foldl (Dispatcher.perform (serve run)) start := by
  induction h with
  | start => rfl
  | step _ next ih =>
      obtain ⟨done, finished, state⟩ := next.state
      rw [state, finished, List.foldl_append, ← ih]

/-- The tasks that the worker has started are the first that were accepted, and a fatal one is
the last of them. -/
theorem Sound.started_reached (h : k.Sound) : k.started <+: Task.reached k.accepted := by
  rw [h.logged.started, h.logged.reached, List.prefix_append_right_inj]
  exact k.dispatcher.current_prefix

theorem Sound.started_prefix (h : k.Sound) : k.started <+: k.accepted :=
  h.started_reached.trans (Task.reached_prefix _)

theorem Sound.finished_prefix (h : k.Sound) : k.finished <+: k.started := by
  rw [h.logged.started]
  exact List.prefix_append _ _

theorem Sound.finished_accepted (h : k.Sound) : k.finished <+: k.accepted :=
  h.finished_prefix.trans h.started_prefix

/-- A worker that has ended has done all that it can get to. -/
theorem Sound.ended (h : k.Sound) (ended : k.dispatcher.hasStopped = true) :
    k.started = Task.reached k.accepted ∧ k.finished = Task.reached k.accepted := by
  have nothing := h.guarded.orderly.backlog_of_ended ended
  rw [h.logged.started, h.logged.reached, nothing, Dispatcher.current_of_ended ended]
  exact ⟨rfl, (List.append_nil _).symm⟩

theorem Sound.broken_iff (h : k.Sound) :
    k.dispatcher.worker = .broken ↔ ∃ task ∈ k.finished, task.isFatal = true := by
  refine ⟨h.logged.broken, fun ⟨task, finished, fatal⟩ => ?_⟩
  refine Classical.byContradiction fun alive => ?_
  rw [(h.logged.whole alive).2 task finished] at fatal
  contradiction

/-! ## The gate lets in what is asked -/

/-- A task comes in only with a client that goes in at the gate. -/
theorem Step.tasks (step : Step asks run k s k' s') :
    ∀ task ∈ k'.tasks, task ∈ k.tasks ∨ ∃ request, asks request ∧ task = request.task k.calls := by
  intro task member
  cases step with
  | enter request allowed gate =>
      rw [tasks_enter] at member
      rcases List.mem_append.1 member with old | new
      · exact .inl old
      · exact .inr ⟨request, allowed, List.mem_singleton.1 new⟩
  | refuse | shut | sendStop | turn => exact .inl member
  | count other before after visit => exact .inl (by simpa [Desk.tasks, visit] using member)
  | send other before after visit | fail other before after visit | leave other before after visit =>
      refine .inl ?_
      simp [Desk.tasks, visit] at member ⊢
      grind

/-! ## What jobs do has no part in it -/

theorem turn_desk (run : Job → σ → Except ε σ) (run' : Job → τ → Except δ τ) (k : Desk Job) (s : σ)
    (t : τ) :
    (k.turn run s).1 = (k.turn run' t).1 := by
  have same : (k.dispatcher.turn (serve run) s).1 = (k.dispatcher.turn (serve run') t).1 := by
    unfold Dispatcher.turn
    split
    · split <;> rfl
    · split <;> rfl
    · rfl
    · rfl
    · rfl
  simp only [turn, same]

/-- Whatever can come about at a desk can come about with any other jobs: whether some of
them fail, and what they change, is neither here nor there. -/
theorem Reachable.irrespective (h : Reachable asks run name start k s)
    (run' : Job → τ → Except δ τ) (start' : τ) : ∃ t, Reachable asks run' name start' k t := by
  induction h with
  | start => exact ⟨start', .start⟩
  | step _ next ih =>
      obtain ⟨t, reached⟩ := ih
      cases next with
      | enter request allowed gate => exact ⟨t, reached.step (.enter request allowed gate)⟩
      | refuse gate free => exact ⟨t, reached.step (.refuse gate free)⟩
      | count task before after visit => exact ⟨t, reached.step (.count task before after visit)⟩
      | send task before after visit listens =>
          exact ⟨t, reached.step (.send task before after visit listens)⟩
      | fail task before after visit deaf =>
          exact ⟨t, reached.step (.fail task before after visit deaf)⟩
      | leave task before after visit => exact ⟨t, reached.step (.leave task before after visit)⟩
      | shut gate alone => exact ⟨t, reached.step (.shut gate alone)⟩
      | sendStop closing => exact ⟨t, reached.step (.sendStop closing)⟩
      | turn =>
          rw [turn_desk run run' _ _ t]
          exact ⟨_, reached.step .turn⟩

/-! ## A worker left alone -/

/-- A number of steps of the worker, with nobody else doing anything. -/
def turns (run : Job → σ → Except ε σ) : Nat → Desk Job → σ → Desk Job × σ
  | 0, k, s => (k, s)
  | steps + 1, k, s => turns run steps (k.turn run s).1 (k.turn run s).2

theorem Sound.turn (h : k.Sound) (run : Job → σ → Except ε σ) (s : σ) : (k.turn run s).1.Sound := by
  have step : Step (fun _ => True) run k s (k.turn run s).1 (k.turn run s).2 := .turn
  exact h.step step

theorem Sound.turns (h : k.Sound) (run : Job → σ → Except ε σ) (steps : Nat) (s : σ) :
    (k.turns run steps s).1.Sound := by
  induction steps generalizing k s with
  | zero => exact h
  | succ steps ih => exact ih (h.turn run s) _

theorem turns_kept (run : Job → σ → Except ε σ) (steps : Nat) (k : Desk Job) (s : σ) :
    (k.turns run steps s).1.accepted = k.accepted ∧ (k.turns run steps s).1.closing = k.closing ∧
      (k.turns run steps s).1.dispatcher.accepting = k.dispatcher.accepting := by
  induction steps generalizing k s with
  | zero => exact ⟨rfl, rfl, rfl⟩
  | succ steps ih =>
      obtain ⟨accepted, closing, accepting⟩ := ih (k.turn run s).1 (k.turn run s).2
      have same := (Dispatcher.turn_worksOff (serve run) k.dispatcher s).accepting
      exact ⟨accepted, closing, accepting.trans same⟩

theorem Sound.stepsNeeded_turns (h : k.Sound) (run : Job → σ → Except ε σ) (steps : Nat) (s : σ) :
    (k.turns run steps s).1.dispatcher.stepsNeeded ≤ k.dispatcher.stepsNeeded - steps := by
  induction steps generalizing k s with
  | zero => exact Nat.le_refl _
  | succ steps ih =>
      have first := h.guarded.orderly.stepsNeeded_turned
        (Dispatcher.turned (serve run) k.dispatcher s)
      have later := ih (h.turn run s) (k.turn run s).2
      simp only [Desk.turn] at later
      simp only [Desk.turns, Desk.turn]
      omega

/-- The worker gets through everything that was accepted, up to the first fatal task, whether
jobs fail or not, and then ends if it was told to. -/
theorem Sound.settled (h : k.Sound) (run : Job → σ → Except ε σ) (s : σ) :
    (k.turns run k.dispatcher.stepsLeft s).1.finished = Task.reached k.accepted ∧
      (k.dispatcher.accepting = false → k.closing = false →
        (k.turns run k.dispatcher.stepsLeft s).1.dispatcher.hasStopped = true) := by
  have later := h.turns run k.dispatcher.stepsLeft s
  obtain ⟨accepted, closing, accepting⟩ := turns_kept run k.dispatcher.stepsLeft k s
  have through : (k.turns run k.dispatcher.stepsLeft s).1.dispatcher.stepsNeeded = 0 := by
    have := h.stepsNeeded_turns run k.dispatcher.stepsLeft s
    have := k.dispatcher.stepsNeeded_le_stepsLeft
    omega
  constructor
  · have all := later.logged.reached
    rw [Dispatcher.backlog_eq_nil through, Task.reached, List.append_nil, accepted] at all
    exact all.symm
  · intro shut free
    cases later.guarded.told (accepting.trans shut) (closing.trans free) with
    | inl waits => exact absurd waits (by simp [Dispatcher.channel_eq_nil through])
    | inr ended => exact ended

/-! ## A worker that has ended -/

/-- When a worker has ended it starts nothing any more, and nothing more is accepted for it. -/
theorem Step.ended_stays (step : Step asks run k s k' s') (ended : k.dispatcher.hasStopped = true) :
    k'.dispatcher.worker = k.dispatcher.worker ∧ k'.started = k.started ∧
      k'.accepted = k.accepted := by
  cases step with
  | send task before after visit listens =>
      exact absurd (listens.symm.trans ended) Bool.false_ne_true
  | enter | refuse | count | fail | leave | shut | sendStop => exact ⟨rfl, rfl, rfl⟩
  | turn => simp [Desk.turn, Dispatcher.turn_of_ended ended, taking_of_ended ended]

theorem Step.still_ended (step : Step asks run k s k' s') (ended : k.dispatcher.hasStopped = true) :
    k'.dispatcher.hasStopped = true :=
  (congrArg WorkerState.hasEnded (step.ended_stays ended).1).trans ended

theorem Steps.ended_stays (h : Steps asks run k s k' s') (ended : k.dispatcher.hasStopped = true) :
    k'.dispatcher.worker = k.dispatcher.worker ∧ k'.started = k.started ∧
      k'.accepted = k.accepted := by
  induction h with
  | here => exact ⟨rfl, rfl, rfl⟩
  | step _ next ih =>
      obtain ⟨worker, started, accepted⟩ := ih
      have now := next.ended_stays ((congrArg WorkerState.hasEnded worker).trans ended)
      exact ⟨now.1.trans worker, now.2.1.trans started, now.2.2.trans accepted⟩

/-! ## The order -/

/-- What the records of a desk say about the order in which jobs are done. -/
structure Served (asks : Request Job → Prop) (run : Job → σ → Except ε σ) (name : String) (start : σ)
    (k : Desk Job) (s : σ) : Prop where
  /-- The tasks that the worker has started are the first of those accepted, in their order,
  and those it has finished are the first of these. -/
  order : k.started <+: k.accepted ∧ k.finished <+: k.started
  /-- Accepted are those submissions that return without failing. -/
  returned : (∀ n ∈ k.returned, n ∈ k.accepted.map Task.ticket) ∧
    (k.visits = [] → ∀ task ∈ k.accepted, task.ticket ∈ k.returned)
  once : (k.started.map Task.ticket).Nodup
  /-- No task of a call that failed is started. -/
  rejected : ∀ task ∈ k.started, task.ticket ∉ k.rejected
  /-- Whether jobs fail, and what they change, has no part in it. -/
  irrespective : ∀ (run' : Job → σ → Except ε σ) (start' : σ),
    ∃ t, Reachable asks run' name start' k t
  /-- The state is what the finished tasks have made of it, a failed one nothing. -/
  state : s = k.finished.foldl (Dispatcher.perform (serve run)) start
  /-- Nothing is started behind a task that is fatal to the worker. -/
  reached : k.started <+: Task.reached k.accepted
  /-- A worker that is left alone does all the others, and ends if the dispatcher was closed. -/
  settled : (k.turns run k.dispatcher.stepsLeft s).1.finished = Task.reached k.accepted ∧
    (k.dispatcher.accepting = false → k.closing = false →
      (k.turns run k.dispatcher.stepsLeft s).1.dispatcher.hasStopped = true)
  /-- A worker that has ended has done all the others, and starts nothing any more. -/
  ended : k.dispatcher.hasStopped = true → k.started = Task.reached k.accepted ∧
    k.finished = Task.reached k.accepted ∧
    ∀ k' s', Steps asks run k s k' s' → k'.started = k.started
  /-- So all that was accepted is done exactly if no task but the last of them is fatal. -/
  all : (k.turns run k.dispatcher.stepsLeft s).1.finished = k.accepted ↔
    ∀ task ∈ k.accepted.dropLast, task.isFatal = false

/-- At every moment of every run jobs are done in the order in which they were accepted, each
once, whether others fail or not, and all of them but those behind a job that ends the
worker. -/
theorem jobs_run_once_up_to_a_fatal_one (h : Reachable asks run name start k s) :
    Served asks run name start k s := by
  have sound := h.sound
  have settled := sound.settled run s
  refine ⟨⟨sound.started_prefix, sound.finished_prefix⟩,
    ⟨fun n => sound.tallied.mem_returned, sound.tallied.all_returned⟩, ?_, fun task member => ?_,
    h.irrespective, h.state, sound.started_reached, settled, fun ended => ?_, ?_⟩
  · exact (sound.started_prefix.sublist.map _).nodup sound.tallied.accepted_nodup
  · exact sound.tallied.not_rejected (sound.started_prefix.subset member)
  · obtain ⟨started, finished⟩ := sound.ended ended
    exact ⟨started, finished, fun k' s' later => (later.ended_stays ended).2.1⟩
  · rw [settled.1]
    exact Task.reached_eq_self_iff

/-- Jobs to try a worker with: numbers to write down, a job that fails, and one that is fatal to
the worker. -/
inductive Jotting where
  | write (n : Nat)
  | fail
  | burst
deriving DecidableEq, Repr

instance : Fatal Jotting := ⟨fun j => j = .burst⟩

def jot : Jotting → List Nat → Except Unit (List Nat)
  | .write n, s => .ok (s ++ [n])
  | .fail, _ | .burst, _ => .error ()

/-- Two clients submit at the same time, and the second overtakes the first, whose job
fails. Then the dispatcher is closed with both jobs waiting, a third call is
refused, and the worker goes on until it stops. -/
def overlapping : List (Move Jotting) :=
  [.enter (.submit .fail), .enter (.submit (.write 7)), .enter .flush, .advance 1, .advance 0,
    .advance 1, .advance 0, .advance 0, .advance 0, .advance 0, .advance 0, .advance 0, .shut,
    .sendStop, .refuse] ++ List.replicate 10 .turn

theorem overlapping_jobs_run_once :
    let (k, s) := (new "worker" : Desk Jotting).moves (fun _ => True) jot overlapping []
    Reachable (fun _ => True) jot "worker" [] k s ∧ k.accepted.map Task.ticket = [1, 0, 2] ∧
      k.rejected = [3] ∧ k.started <+: k.accepted ∧ k.finished = k.accepted ∧
      (k.started.map Task.ticket).Nodup ∧ s = [7] := by
  have reached : Reachable (fun _ => True) jot "worker" [] _ _ :=
    Reachable.start.moves overlapping
  have served := jobs_run_once_up_to_a_fatal_one reached
  refine ⟨reached, by decide, by decide, served.order.1, ?_, served.once, by decide⟩
  exact (served.ended (by decide)).2.1.trans (Task.reached_eq_self_iff.2 (by decide))

/-- Two clients submit a job each and return, and the first job is fatal to the worker. -/
def bursting : List (Move Jotting) :=
  [.enter (.submit .burst), .enter (.submit (.write 7)), .advance 0, .advance 1, .advance 0,
    .advance 1, .advance 0, .advance 0, .turn, .turn]

/-- A job whose submission returned without failing is never started when one before it ends the
worker, and whoever waits for the worker is told that it is through. -/
theorem job_behind_a_fatal_one_is_lost :
    let (k, s) := (new "worker" : Desk Jotting).moves (fun _ => True) jot bursting []
    Reachable (fun _ => True) jot "worker" [] k s ∧ k.accepted.map Task.ticket = [0, 1] ∧
      k.returned = [0, 1] ∧ k.dispatcher.hasStopped = true ∧
      ∀ k' s', Steps (fun _ => True) jot k s k' s' → 1 ∉ k'.started.map Task.ticket := by
  have reached : Reachable (fun _ => True) jot "worker" [] _ _ := Reachable.start.moves bursting
  refine ⟨reached, by decide, by decide, by decide, fun k' s' later => ?_⟩
  rw [(later.ended_stays (by decide)).2.1]
  decide

end FleetStore.Desk
