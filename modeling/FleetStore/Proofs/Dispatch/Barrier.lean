import FleetStore.Proofs.Dispatch.Closing

/-! # Marks and stops are barriers

A mark stands in the channel behind everything that was accepted before it, so when the
worker has passed it, all of that is done, whatever came in since. The stop command
stands behind everything, so when the worker has stopped, all is done and counted, nobody
is at the gate, and it stays so. A worker that a job was fatal to has ended too, but what it
leaves is not counted.
-/

namespace FleetStore

/-- Whether a worker has done a task that it has not counted. One that is broken never
counts its last. -/
def WorkerState.uncounted {Job : Type} : WorkerState Job → Nat
  | .done | .broken => 1
  | .idle | .busy _ | .stopped => 0

/-- What a step of the worker takes off the backlog is uncounted, counted or lost. -/
theorem Dispatcher.Turned.pending {Job σ ε : Type} [Fatal Job] {run : Job → σ → Except ε σ}
    {d d' : Dispatcher Job} {s s' : σ} {others : Nat} (h : Dispatcher.Turned run d s d' s')
    (before : d.pending = d.backlog.length + d.worker.uncounted + others) :
    d'.pending = d'.backlog.length + d'.worker.uncounted + (d.losing.length + others) := by
  cases h with
  | waits idle => simpa [losing, idle, WorkerState.current] using before
  | takes task rest idle sent =>
      simp [backlog, losing, idle, sent, WorkerState.current, WorkerState.uncounted,
        Command.task?] at before ⊢
      omega
  | stops rest idle sent =>
      simpa [backlog, losing, idle, sent, WorkerState.current, WorkerState.uncounted,
        List.filterMap_cons, Command.task?] using before
  | does task busy harmless =>
      simp [backlog, losing, busy, harmless, WorkerState.current, WorkerState.uncounted] at before ⊢
      omega
  | breaks task busy fatal =>
      simp [backlog, losing, busy, fatal, WorkerState.current, WorkerState.uncounted] at before ⊢
      omega
  | counts done =>
      simp [backlog, losing, done, WorkerState.current, WorkerState.uncounted] at before ⊢
      omega
  | rests ended => simpa [losing, current_of_ended ended] using before

namespace Desk

variable {Job σ ε : Type} [Fatal Job] {run : Job → σ → Except ε σ} {asks : Request Job → Prop}
variable {name : String} {start s s' : σ} {k k' : Desk Job}

theorem Steps.accepted_prefix (h : Steps asks run k s k' s') : k.accepted <+: k'.accepted := by
  induction h with
  | here => exact List.prefix_refl _
  | step _ next ih => exact ih.trans next.accepted_prefix

/-! ## What is counted -/

/-- The clients inside who have counted their task and not sent it. -/
def counted (k : Desk Job) : Nat :=
  k.visits.countP fun v => v.stage == .counted

/-- The marks that were passed are those of the finished tasks, and what counts as pending is
the backlog, what the worker has done and not counted, what clients have counted and
not sent, and what was lost. -/
structure Booked (k : Desk Job) : Prop where
  passed : k.dispatcher.passed = k.finished.flatMap Task.signals
  pending : k.dispatcher.pending = k.dispatcher.backlog.length + k.dispatcher.worker.uncounted +
    (k.lost.length + k.counted)

omit [Fatal Job] in
theorem booked_new (name : String) : (new name : Desk Job).Booked :=
  ⟨rfl, rfl⟩

theorem Booked.step (h : k.Booked) (step : Step asks run k s k' s') : k'.Booked := by
  obtain ⟨passed, pending⟩ := h
  cases step with
  | enter request allowed gate =>
      exact ⟨passed, pending.trans (by simp [counted, enter, List.countP_append])⟩
  | refuse | shut => exact ⟨passed, pending⟩
  | count task before after visit =>
      refine ⟨passed, ?_⟩
      simp only [counted, visit, List.countP_append, List.countP_cons] at pending ⊢
      rw [Dispatcher.backlog_announce]
      simp [Dispatcher.announce] at pending ⊢
      omega
  | send task before after visit listens =>
      refine ⟨passed, ?_⟩
      simp only [counted, visit, List.countP_append, List.countP_cons] at pending ⊢
      rw [Dispatcher.backlog_send]
      simp [Dispatcher.send] at pending ⊢
      omega
  | fail task before after visit deaf =>
      refine ⟨passed, ?_⟩
      simp only [counted, visit, List.countP_append, List.countP_cons] at pending ⊢
      simp [Dispatcher.withdraw, Dispatcher.backlog] at pending ⊢
      omega
  | leave task before after visit =>
      refine ⟨passed, ?_⟩
      simpa [counted, visit, List.countP_append, List.countP_cons] using pending
  | sendStop => exact ⟨passed, pending.trans (by rw [Dispatcher.backlog_sendStop]; rfl)⟩
  | turn =>
      have turned := Dispatcher.turned (serve run) k.dispatcher s
      refine ⟨?_, ?_⟩
      · simp only [turn, turned.worksOff.passed, passed, List.flatMap_append]
      · simpa only [turn, counted, List.length_append, Nat.add_assoc] using turned.pending pending

theorem Reachable.booked (h : Reachable asks run name start k s) : k.Booked := by
  induction h with
  | start => exact booked_new name
  | step before next ih => exact ih.step next

/-! ## Barriers -/

/-- What was accepted before a mark is done when the worker has passed the mark. -/
theorem Sound.finished_of_passed (h : k'.Sound) (booked : k'.Booked)
    (more : k.accepted <+: k'.accepted) {mark : Nat} (before : Task.mark mark ∉ k.accepted)
    (passed : k'.dispatcher.hasPassed mark = true) : k.accepted <+: k'.finished := by
  rw [Dispatcher.hasPassed, List.contains_iff_mem, booked.passed] at passed
  obtain ⟨task, member, signalled⟩ := List.mem_flatMap.1 passed
  have there : Task.mark mark ∈ k'.finished := by
    cases task with
    | job => simp [Task.signals] at signalled
    | mark number =>
        obtain rfl := List.mem_singleton.1 signalled
        exact member
  refine (List.prefix_or_prefix_of_prefix more h.finished_accepted).resolve_right fun short => ?_
  exact before (short.subset there)

/-- Nothing is accepted any more, nothing counts as pending and everything is done. -/
structure Over (k : Desk Job) : Prop where
  gate : k.dispatcher.accepting = false
  closed : k.closing = false
  pending : k.dispatcher.pending = 0
  finished : k.finished = k.accepted

omit [Fatal Job] in
/-- When the gate is shut nobody is inside. -/
theorem Guarded.alone (h : k.Guarded) (gate : k.dispatcher.accepting = false) : k.visits = [] := by
  cases visits : k.visits with
  | nil => rfl
  | cons v rest =>
      rw [h.inside (by simp [visits])] at gate
      contradiction

/-- A worker has stopped only when everything is over. -/
theorem Sound.isOver (h : k.Sound) (booked : k.Booked) (stopped : k.dispatcher.worker = .stopped) :
    k.Over := by
  have ended : k.dispatcher.hasStopped = true := WorkerState.hasEnded_iff.2 (.inl stopped)
  have gate : k.dispatcher.accepting = false :=
    Bool.eq_false_iff.2 fun gate => (h.guarded.untold (.inl gate)).goesOn stopped
  have closed : k.closing = false :=
    Bool.eq_false_iff.2 fun closing => (h.guarded.untold (.inr closing)).goesOn stopped
  have nothing := h.guarded.orderly.backlog_of_ended ended
  have none := (h.logged.whole (by simp [stopped])).1
  refine ⟨gate, closed, ?_, ?_⟩
  · rw [booked.pending, counted, h.guarded.alone gate, nothing, stopped, none]
    rfl
  · rw [h.logged.accepted, nothing, none, List.append_nil, List.append_nil]

/-- When a worker has ended everything is over, unless something fatal was accepted. -/
theorem Sound.isOver_iff (h : k.Sound) (booked : k.Booked) (ended : k.dispatcher.hasStopped = true) :
    k.Over ↔ ∀ task ∈ k.accepted, task.isFatal = false := by
  constructor
  · refine fun isOver task member => Bool.eq_false_iff.2 fun fatal => ?_
    have broken := h.broken_iff.2 ⟨task, isOver.finished ▸ member, fatal⟩
    have pending := booked.pending
    rw [isOver.pending, broken, WorkerState.uncounted] at pending
    omega
  · intro harmless
    refine h.isOver booked ((WorkerState.hasEnded_iff.1 ended).resolve_right fun broken => ?_)
    obtain ⟨task, finished, fatal⟩ := h.broken_iff.1 broken
    have harmless := harmless task (h.finished_accepted.subset finished)
    exact absurd (harmless.symm.trans fatal) Bool.false_ne_true

/-- What the answers of flushes and waits at a desk say. -/
structure Barriers (asks : Request Job → Prop) (run : Job → σ → Except ε σ) (k : Desk Job) (s : σ) :
    Prop where
  /-- When a flush has gone in now and its mark is passed later, all that was accepted before
  the mark is done. -/
  flush : k.dispatcher.accepting = true → ∀ k₁ s₁, Steps asks run (k.enter .flush) s k₁ s₁ →
    Task.mark k.calls ∉ k₁.accepted → ∀ k' s', Steps asks run k₁ s₁ k' s' →
      k'.dispatcher.hasPassed k.calls = true →
        k.accepted <+: k₁.accepted ∧ k₁.accepted <+: k'.finished
  /-- When a wait answers now that there is no worker any more, every later one answers the same
  and nothing more is accepted. All is over then, unless something fatal was accepted. -/
  wait : k.dispatcher.hasStopped = true → ∀ k' s', Steps asks run k s k' s' →
    k'.dispatcher.hasStopped = true ∧ k'.accepted = k.accepted ∧
      (k'.Over ↔ ∀ task ∈ k.accepted, task.isFatal = false)

theorem Sound.fresh (h : k.Sound) : Task.mark k.calls ∉ k.accepted := fun member =>
  absurd (h.tallied.ticket_lt (List.mem_append_left _ member)) (Nat.lt_irrefl k.calls)

theorem Reachable.barriers (h : Reachable asks run name start k s) (may : asks .flush) :
    Barriers asks run k s where
  flush gate k₁ s₁ entered before k' s' later passed := by
    have called := h.step (.enter .flush may gate)
    have reached := later.reachable (entered.reachable called)
    exact ⟨entered.accepted_prefix, reached.sound.finished_of_passed reached.booked
      later.accepted_prefix before passed⟩
  wait ended k' s' later := by
    obtain ⟨worker, -, accepted⟩ := later.ended_stays ended
    have still := (congrArg WorkerState.hasEnded worker).trans ended
    have reached := later.reachable h
    exact ⟨still, accepted, accepted ▸ reached.sound.isOver_iff reached.booked still⟩

/-! ## Closing -/

/-- The first of the clients inside sends its task, if it has not yet and there is a worker, and
leaves. -/
theorem exists_leaves (asks : Request Job → Prop) (run : Job → σ → Except ε σ) (s : σ)
    {v : Visit Job} {rest : List (Visit Job)} (visits : k.visits = v :: rest) :
    ∃ k', Steps asks run k s k' s ∧ k'.visits = rest := by
  have counted (k : Desk Job) (task) (visits : k.visits = ⟨task, .counted⟩ :: rest) :
      ∃ k', Steps asks run k s k' s ∧ k'.visits = rest := by
    cases ended : k.dispatcher.hasStopped with
    | true => exact ⟨_, .step .here (.fail task [] rest visits ended), rfl⟩
    | false =>
        have sent : Steps asks run k s _ s := .step .here (.send task [] rest visits ended)
        exact ⟨_, sent.step (.leave task [] rest rfl), rfl⟩
  obtain ⟨task, stage⟩ := v
  cases stage with
  | sent => exact ⟨_, .step .here (.leave task [] rest visits), rfl⟩
  | counted => exact counted k task visits
  | entered =>
      have first : Steps asks run k s _ s := .step .here (.count task [] rest visits)
      obtain ⟨k', later, gone⟩ := counted { k with
        dispatcher := k.dispatcher.announce, visits := ⟨task, .counted⟩ :: rest } task rfl
      exact ⟨k', first.trans later, gone⟩

theorem exists_empties (k : Desk Job) (asks : Request Job → Prop) (run : Job → σ → Except ε σ)
    (s : σ) : ∃ k', Steps asks run k s k' s ∧ k'.visits = [] := by
  generalize visits : k.visits = vs
  induction vs generalizing k with
  | nil => exact ⟨k, .here, visits⟩
  | cons v rest ih =>
      obtain ⟨k₁, first, fewer⟩ := exists_leaves asks run s visits
      obtain ⟨k', later, none⟩ := ih k₁ fewer
      exact ⟨k', first.trans later, none⟩

/-- At a desk that is closed the dispatcher changes by nothing but turns of its worker. -/
theorem Step.of_closed (step : Step asks run k s k' s') (h : k.Guarded)
    (gate : k.dispatcher.accepting = false) (closed : k.closing = false) :
    k'.dispatcher = k.dispatcher ∨ k' = (k.turn run s).1 := by
  have alone := h.alone gate
  cases step with
  | refuse => exact .inl rfl
  | turn => exact .inr rfl
  | enter request allowed opened | shut opened =>
      rw [gate] at opened
      contradiction
  | sendStop closing =>
      rw [closed] at closing
      contradiction
  | count task before after visit | send task before after visit | fail task before after visit
  | leave task before after visit => simp [alone] at visit

/-- Whoever closes a dispatcher comes to an end: the clients inside leave, the gate is shut and
the stop command is sent. -/
theorem exists_closes (k : Desk Job) (asks : Request Job → Prop) (run : Job → σ → Except ε σ) (s : σ) :
    ∃ k', Steps asks run k s k' s ∧ k'.dispatcher.accepting = false ∧ k'.closing = false := by
  obtain ⟨k₁, emptied, alone⟩ := k.exists_empties asks run s
  cases gate : k₁.dispatcher.accepting with
  | true =>
      have shut := emptied.step (.shut gate alone)
      exact ⟨_, shut.step (.sendStop rfl), rfl, rfl⟩
  | false =>
      cases closing : k₁.closing with
      | true => exact ⟨_, emptied.step (.sendStop closing), gate, rfl⟩
      | false => exact ⟨k₁, emptied, gate, closing⟩

end Desk

end FleetStore
