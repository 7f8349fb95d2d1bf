import FleetStore.Proofs.Dispatch.Order

/-! # A desk whose gate is shut

When the gate of a desk is shut nobody is inside, so nothing more is accepted, and what
the worker still does is what was left to it, in its order and up to a job that is fatal
to it. The gate stays shut and a worker that has ended stays so, but a worker that has
something left does it if it is let.
-/

namespace FleetStore

/-- The call that a task is the job of. -/
def Task.call? {Job : Type} : Task (Ticketed Job) → Option (Ticketed Job)
  | .job call => some call
  | .mark _ => none

namespace Desk

variable {Job σ ε : Type} [Fatal Job] {run : Job → σ → Except ε σ} {asks : Request Job → Prop}
variable {k k' : Desk Job} {s s' : σ}

/-- The calls that were accepted, in the order in which they were. -/
def acceptedCalls (k : Desk Job) : List (Ticketed Job) :=
  k.accepted.filterMap Task.call?

/-- The calls whose jobs are done. -/
def finishedCalls (k : Desk Job) : List (Ticketed Job) :=
  k.finished.filterMap Task.call?

/-- The calls whose jobs the worker gets to. -/
def due (k : Desk Job) : List (Ticketed Job) :=
  (Task.reached k.accepted).filterMap Task.call?

/-- The calls whose jobs the worker has still to do or is about to do, up to one that is fatal
to it. -/
def left (k : Desk Job) : List (Ticketed Job) :=
  (Task.reached k.dispatcher.backlog).filterMap Task.call?

theorem Sound.due (h : k.Sound) : k.due = k.finishedCalls ++ k.left := by
  rw [Desk.due, h.logged.reached, List.filterMap_append]
  rfl

theorem Sound.finishedCalls_prefix (h : k.Sound) : k.finishedCalls <+: k.acceptedCalls :=
  h.finished_accepted.filterMap _

theorem Sound.left_of_ended (h : k.Sound) (ended : k.dispatcher.hasStopped = true) :
    k.left = [] := by
  rw [left, h.guarded.orderly.backlog_of_ended ended]
  rfl

omit [Fatal Job] in
theorem fst_sublist_ticket (tasks : List (Task (Ticketed Job))) :
    ((tasks.filterMap Task.call?).map Prod.fst).Sublist (tasks.map Task.ticket) := by
  induction tasks with
  | nil => exact .slnil
  | cons task rest ih =>
      cases task with
      | job call => exact ih.cons_cons call.1
      | mark number => exact ih.cons number

/-- No two accepted calls have one ticket. -/
theorem Sound.acceptedCalls_nodup (h : k.Sound) : (k.acceptedCalls.map Prod.fst).Nodup :=
  (fst_sublist_ticket k.accepted).nodup h.tallied.accepted_nodup

/-- A worker that is left alone leaves nothing. -/
theorem Sound.left_settled (h : k.Sound) (run : Job → σ → Except ε σ) (s : σ) :
    (k.turns run k.dispatcher.stepsLeft s).1.left = [] := by
  have later := (h.turns run k.dispatcher.stepsLeft s).logged.reached
  rw [(turns_kept run _ k s).1, (h.settled run s).1] at later
  rw [left, List.self_eq_append_right.1 later, List.filterMap_nil]

/-! ## One step -/

omit [Fatal Job] in
theorem foldl_perform_calls (run : Job → σ → Except ε σ) (tasks : List (Task (Ticketed Job))) (s : σ) :
    tasks.foldl (Dispatcher.perform (serve run)) s =
      (tasks.filterMap Task.call?).foldl (fun s call => Dispatcher.attempt (serve run) call s) s := by
  induction tasks generalizing s with
  | nil => rfl
  | cons task rest ih =>
      cases task with
      | job call => exact ih _
      | mark number => exact ih s

/-- What a step adds to the record of finished tasks. -/
def doneSince (k k' : Desk Job) : List (Ticketed Job) :=
  (k'.finished.drop k.finished.length).filterMap Task.call?

theorem Step.finishedCalls (step : Step asks run k s k' s') :
    k'.finishedCalls = k.finishedCalls ++ k.doneSince k' ∧
      s' = (k.doneSince k').foldl (fun s call => Dispatcher.attempt (serve run) call s) s := by
  obtain ⟨done, finished, state⟩ := step.state
  have same : k.doneSince k' = done.filterMap Task.call? := by
    rw [doneSince, finished, List.drop_left]
  refine ⟨?_, ?_⟩
  · rw [same, Desk.finishedCalls, finished, List.filterMap_append]
    rfl
  · rw [state, same, foldl_perform_calls]

theorem Step.shut_stays (step : Step asks run k s k' s') (gate : k.dispatcher.accepting = false) :
    k'.dispatcher.accepting = false ∧ (k.closing = false → k'.closing = false) := by
  cases step with
  | enter | refuse | count | send | fail | leave => exact ⟨gate, id⟩
  | shut => exact ⟨rfl, fun _ => by simp_all⟩
  | sendStop => exact ⟨gate, fun _ => rfl⟩
  | turn =>
      exact ⟨(Dispatcher.turn_worksOff (serve run) k.dispatcher s).accepting.trans gate, id⟩

theorem Steps.shut_stays (h : Steps asks run k s k' s') (gate : k.dispatcher.accepting = false) :
    k'.dispatcher.accepting = false := by
  induction h with
  | here => exact gate
  | step _ next ih => exact (next.shut_stays ih).1

/-- A gate that is as it was before some steps was so all the time. -/
theorem Steps.gate_between {k₁ k₂ : Desk Job} {s₁ s₂ : σ} (h : Steps asks run k₁ s₁ k s)
    (step : Step asks run k s k₂ s₂)
    (same : k₂.dispatcher.accepting = k₁.dispatcher.accepting) :
    k.dispatcher.accepting = k₁.dispatcher.accepting := by
  cases gate : k₁.dispatcher.accepting with
  | true =>
      cases now : k.dispatcher.accepting with
      | true => rfl
      | false =>
          rw [(step.shut_stays now).1, gate] at same
          contradiction
  | false => exact h.shut_stays gate

/-- Nothing is accepted any more when the gate is shut. -/
theorem Step.accepted_of_shut (step : Step asks run k s k' s') (h : k.Guarded)
    (gate : k.dispatcher.accepting = false) : k'.accepted = k.accepted := by
  cases step with
  | send task before after visit =>
      have inside := h.inside (by simp [visit])
      rw [gate] at inside
      contradiction
  | enter | refuse | count | fail | leave | shut | sendStop | turn => rfl

end Desk

end FleetStore
