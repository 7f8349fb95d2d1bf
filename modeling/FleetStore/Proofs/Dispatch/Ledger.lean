import FleetStore.Proofs.Dispatch.Desk

/-! # What the record of a dispatcher says

Two accounts hold at every moment. The tasks that entered the channel are those
the worker has done, then its backlog, then what was lost, so nothing overtakes; and
something is lost only when a task was fatal to the worker, which was then the last
that it did. And every ticket that was drawn is in exactly one place: with a client
that has still to send, among the accepted or among the rejected.
-/

namespace FleetStore

@[simp] theorem Request.ticket_task {Job : Type} (ticket : Nat) (request : Request Job) :
    (request.task ticket).ticket = ticket := by
  cases request <;> rfl

namespace Desk

variable {Job σ ε : Type} [Fatal Job] {run : Job → σ → Except ε σ} {asks : Request Job → Prop}
variable {k k' : Desk Job} {s s' : σ}

/-! ## Tasks -/

/-- Every accepted task is done, in the hands of the worker, in the channel or lost, and the
worker does those up to the first fatal one. It is broken as soon as it has done that, and
only then is anything lost. -/
structure Logged (k : Desk Job) : Prop where
  accepted : k.accepted = k.finished ++ (k.dispatcher.backlog ++ k.lost)
  reached : Task.reached k.accepted = k.finished ++ Task.reached k.dispatcher.backlog
  started : k.started = k.finished ++ k.dispatcher.worker.current
  whole : k.dispatcher.worker ≠ .broken → k.lost = [] ∧ ∀ task ∈ k.finished, task.isFatal = false
  broken : k.dispatcher.worker = .broken → ∃ task ∈ k.finished, task.isFatal = true

theorem logged_new (name : String) : (new name : Desk Job).Logged :=
  ⟨rfl, rfl, rfl, fun _ => ⟨rfl, by simp [new]⟩, nofun⟩

theorem current_turned {d d' : Dispatcher (Ticketed Job)}
    (h : Dispatcher.Turned (serve run) d s d' s') : d'.worker.current = d.taking := by
  cases h with
  | waits idle sent | takes _ _ idle sent | stops _ idle sent =>
      simp [Dispatcher.taking, idle, sent, WorkerState.current]
  | does _ busy | breaks _ busy => simp [Dispatcher.taking, busy, WorkerState.current]
  | counts done => simp [Dispatcher.taking, done, WorkerState.current]
  | rests ended =>
      rcases WorkerState.hasEnded_iff.1 ended with worker | worker <;>
        simp [Dispatcher.taking, worker, WorkerState.current]

theorem Logged.step (h : k.Logged) (step : Step asks run k s k' s') : k'.Logged := by
  obtain ⟨accepted, reached, started, whole, broken⟩ := h
  cases step with
  | enter | refuse | count | leave | fail | shut => exact ⟨accepted, reached, started, whole, broken⟩
  | send task before after visit listens =>
      obtain ⟨nothing, harmless⟩ := whole (Dispatcher.worker_ne_broken listens)
      have behind : k.accepted ++ [task] = k.finished ++ (k.dispatcher.backlog ++ [task]) := by
        rw [accepted, nothing, List.append_nil, List.append_assoc]
      refine ⟨?_, ?_, started, whole, broken⟩
      · rw [Dispatcher.backlog_send, nothing, List.append_nil, behind]
      · rw [Dispatcher.backlog_send, behind, Task.reached_append harmless]
  | sendStop =>
      have same := Dispatcher.backlog_sendStop k.dispatcher
      exact ⟨same.symm ▸ accepted, same.symm ▸ reached, started, whole, broken⟩
  | turn =>
      have turned := Dispatcher.turned (serve run) k.dispatcher s
      have worked := turned.worksOff
      refine ⟨?_, ?_, ?_, fun alive => ?_, fun broke => ?_⟩
      · simp only [turn, accepted, worked.backlog, List.append_assoc]
      · simp only [turn, reached, worked.reached, List.append_assoc]
      · simp only [turn, started, current_turned turned]
      · obtain ⟨before, nothing, harmless⟩ := turned.whole alive
        obtain ⟨none, earlier⟩ := whole before
        refine ⟨by simp [turn, nothing, none], fun task member => ?_⟩
        exact (List.mem_append.1 member).elim (earlier task) (harmless task)
      · rcases turned.broken broke with before | ⟨task, current, fatal⟩
        · obtain ⟨task, finished, fatal⟩ := broken before
          exact ⟨task, List.mem_append_left _ finished, fatal⟩
        · exact ⟨task, List.mem_append_right _ current, fatal⟩

theorem Step.state (step : Step asks run k s k' s') :
    ∃ done, k'.finished = k.finished ++ done ∧
      s' = done.foldl (Dispatcher.perform (serve run)) s := by
  cases step with
  | enter | refuse | count | send | leave | fail | shut | sendStop =>
      exact ⟨[], (List.append_nil _).symm, rfl⟩
  | turn =>
      have worked := Dispatcher.turn_worksOff (serve run) k.dispatcher s
      exact ⟨k.dispatcher.worker.current, rfl, worked.state⟩

theorem Step.accepted_prefix (step : Step asks run k s k' s') : k.accepted <+: k'.accepted := by
  cases step with
  | send task => exact List.prefix_append _ _
  | _ => exact List.prefix_refl _

theorem Step.calls_le (step : Step asks run k s k' s') : k.calls ≤ k'.calls := by
  cases step with
  | enter | refuse => exact Nat.le_succ _
  | _ => exact Nat.le_refl _

theorem Step.grows (step : Step asks run k s k' s') :
    k.accepted <+: k'.accepted ∧ k.finished <+: k'.finished ∧ k.calls ≤ k'.calls := by
  obtain ⟨done, finished, _⟩ := step.state
  exact ⟨step.accepted_prefix, finished ▸ List.prefix_append _ _, step.calls_le⟩

/-! ## Tickets -/

/-- The tickets of the clients inside who have still to send their task. -/
def waiting (k : Desk Job) : List Nat :=
  (k.visits.filter fun v => v.stage != .sent).map fun v => v.task.ticket

/-- The tickets of the clients inside who have sent their task. -/
def leaving (k : Desk Job) : List Nat :=
  (k.visits.filter fun v => v.stage == .sent).map fun v => v.task.ticket

/-- Every ticket that was drawn is in one place, and a submission returns without failing
exactly if it was accepted. -/
structure Tallied (k : Desk Job) : Prop where
  drawn : ∀ n, (k.accepted.map Task.ticket).count n + k.waiting.count n + k.rejected.count n
    = if n < k.calls then 1 else 0
  returned : ∀ n, k.returned.count n + k.leaving.count n = (k.accepted.map Task.ticket).count n

omit [Fatal Job] in
theorem tallied_new (name : String) : (new name : Desk Job).Tallied :=
  ⟨by simp [new, waiting], by simp [new, leaving]⟩

omit [Fatal Job] in
theorem waiting_enter (k : Desk Job) (request : Request Job) :
    (k.enter request).waiting = k.waiting ++ [k.calls] := by
  simp [waiting, enter]

theorem Tallied.step (h : k.Tallied) (step : Step asks run k s k' s') : k'.Tallied := by
  obtain ⟨drawn, returned⟩ := h
  cases step with
  | enter request allowed gate =>
      refine ⟨fun n => ?_, fun n => ?_⟩
      · have before := drawn n
        rw [waiting_enter, List.count_append, List.count_singleton]
        simp only [enter]
        grind
      · simpa [leaving, enter] using returned n
  | refuse gate free =>
      refine ⟨fun n => ?_, returned⟩
      have before := drawn n
      simp only [refuse, waiting, List.count_append, List.count_singleton] at *
      grind
  | count task before after visit =>
      simp only [waiting, leaving, visit] at drawn returned
      exact ⟨by simpa [waiting] using drawn, by simpa [leaving] using returned⟩
  | send task before after visit listens =>
      simp only [waiting, leaving, visit] at drawn returned
      refine ⟨fun n => ?_, fun n => ?_⟩
      · have before := drawn n
        simp [waiting, List.count_cons] at *
        omega
      · have before := returned n
        simp [leaving, List.count_cons] at *
        omega
  | fail task before after visit deaf =>
      simp only [waiting, leaving, visit] at drawn returned
      refine ⟨fun n => ?_, by simpa [leaving] using returned⟩
      have before := drawn n
      simp [waiting, List.count_cons] at *
      omega
  | leave task before after visit =>
      simp only [waiting, leaving, visit] at drawn returned
      refine ⟨by simpa [waiting] using drawn, fun n => ?_⟩
      have before := returned n
      simp [leaving, List.count_cons] at *
      omega
  | shut | sendStop | turn => exact ⟨drawn, returned⟩

end Desk

end FleetStore
