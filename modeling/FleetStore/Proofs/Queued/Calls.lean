import FleetStore.Proofs.Queued.Service

/-! # Calls that nobody interrupts

In a run of a service others may come in between any two steps. If none does, a run comes to
what the queued store itself makes of a call in one go: of a write, a purge or a saving that
is accepted, of turns of the workers, of a flush that is in time, and of a shutdown.
-/

namespace FleetStore.Service

variable {start : MemoryStore} {w w' : Service}

/-! ## Going on at a desk -/

theorem Leads.stepsAtWrites (h : w.Leads w') {k : Desk WriteJob} {m : MemoryStore}
    (steps : Desk.Steps (· = .flush) WriteJob.run w'.writes w'.delegate k m)
    (gate : k.dispatcher.accepting = w'.writes.dispatcher.accepting ∨ w'.phase = .closingWrites) :
    ∃ touches, w.Leads { w' with writes := k, delegate := m, touches } := by
  induction steps with
  | here => exact ⟨_, h⟩
  | step before next ih =>
      obtain ⟨touches, reached⟩ := ih (gate.imp_left (before.gate_between next))
      refine ⟨_, reached.step (.atWrites _ _ next (gate.imp_left fun same => ?_))⟩
      exact same.trans (before.gate_between next same).symm

theorem Leads.stepsAtFiles (h : w.Leads w') {k : Desk FileJob} {m : MemoryStore}
    (steps : Desk.Steps (· = .flush) FileJob.run w'.files w'.delegate k m)
    (gate : k.dispatcher.accepting = w'.files.dispatcher.accepting ∨ w'.phase = .closingFiles) :
    ∃ touches, w.Leads { w' with files := k, delegate := m, touches } := by
  induction steps with
  | here => exact ⟨_, h⟩
  | step before next ih =>
      obtain ⟨touches, reached⟩ := ih (gate.imp_left (before.gate_between next))
      refine ⟨_, reached.step (.atFiles _ _ next (gate.imp_left fun same => ?_))⟩
      exact same.trans (before.gate_between next same).symm

/-! ## Flushes -/

/-- Somebody goes in at the gate for writes with a mark. -/
def markWrites (w : Service) : Service :=
  { w with writes := w.writes.enter .flush }

def markFiles (w : Service) : Service :=
  { w with files := w.files.enter .flush }

theorem leads_markWrites (gate : w.writes.dispatcher.accepting = true) : w.Leads w.markWrites := by
  have step : w.Leads _ := .step .here (.atWrites _ _ (.enter .flush rfl gate) (.inl rfl))
  simpa [Desk.doneSince, Desk.enter, markWrites] using step

theorem leads_markFiles (gate : w.files.dispatcher.accepting = true) : w.Leads w.markFiles := by
  have step : w.Leads _ := .step .here (.atFiles _ _ (.enter .flush rfl gate) (.inl rfl))
  simpa [Desk.doneSince, Desk.enter, markFiles] using step

/-- A flush that is called in the first of three states and answers in the last one that all is
done: it has waited for its mark at the desk for writes up to the second state, and then
for its mark at the desk for files. -/
structure Flush (w v w' : Service) : Prop where
  writesGate : w.writes.dispatcher.accepting = true
  toFiles : w.markWrites.Leads v
  writesPassed : v.writes.dispatcher.hasPassed w.writes.calls = true
  filesGate : v.files.dispatcher.accepting = true
  toAnswer : v.markFiles.Leads w'
  filesPassed : w'.files.dispatcher.hasPassed v.files.calls = true

theorem Flush.leads (h : w.Flush v w') : w.Leads v ∧ v.Leads w' :=
  ⟨(leads_markWrites h.writesGate).trans h.toFiles, (leads_markFiles h.filesGate).trans h.toAnswer⟩

/-! ## In one go -/

/-- The desk for writes after a call that nobody has interrupted. -/
theorem exists_handWrites (w : Service) (request : Request WriteJob)
    (listens : w.writes.dispatcher.hasStopped = false) :
    ∃ touches, Leads { w with writes := w.writes.enter request }
      { w with writes := w.writes.hand request, touches } :=
  (Leads.here (w := { w with writes := w.writes.enter request })).stepsAtWrites
    (w.writes.steps_hand _ _ _ request listens) (.inl rfl)

theorem exists_handFiles (w : Service) (request : Request FileJob)
    (listens : w.files.dispatcher.hasStopped = false) :
    ∃ touches, Leads { w with files := w.files.enter request }
      { w with files := w.files.hand request, touches } :=
  (Leads.here (w := { w with files := w.files.enter request })).stepsAtFiles
    (w.files.steps_hand _ _ _ request listens) (.inl rfl)

theorem acceptedCalls_hand {Job : Type} (k : Desk Job) (j : Job) :
    (k.hand (.submit j)).acceptedCalls = k.acceptedCalls ++ [(k.calls, j)] := by
  simp [Desk.acceptedCalls, Desk.hand, Request.task, Task.call?]

theorem exists_turns (w : Service) (order : List Worker) :
    ∃ v, w.Leads v ∧ v.store = w.store.turns order ∧ v.phase = w.phase := by
  induction order generalizing w with
  | nil => exact ⟨w, .here, rfl, rfl⟩
  | cons worker rest ih =>
      cases worker with
      | writer =>
          have same := (Dispatcher.turn_worksOff (serve WriteJob.run) w.writes.dispatcher
            w.delegate).accepting
          have turned : w.Leads _ := .step .here (.atWrites _ _ .turn (.inl same))
          obtain ⟨v, later, store, phase⟩ := ih _
          refine ⟨v, turned.trans later, store.trans ?_, phase⟩
          exact congrArg (QueuedStore.turns · rest) QueuedStore.turn_writer_ofDesks.symm
      | filer =>
          have same := (Dispatcher.turn_worksOff (serve FileJob.run) w.files.dispatcher
            w.delegate).accepting
          have turned : w.Leads _ := .step .here (.atFiles _ _ .turn (.inl same))
          obtain ⟨v, later, store, phase⟩ := ih _
          refine ⟨v, turned.trans later, store.trans ?_, phase⟩
          exact congrArg (QueuedStore.turns · rest) QueuedStore.turn_filer_ofDesks.symm

/-- What the queued store of a service makes of a call in one go, a run of the service comes
to. -/
structure Mirrors (w : Service) : Prop where
  /-- A write or a purge is queued as the job of its call. -/
  taken : ∀ j, w.Takes j → ∃ v, (w.issue j).Leads v ∧ w.store.accept j = .ok v.store ∧
    v.writes.acceptedCalls = w.writes.acceptedCalls ++ [(w.writes.calls, j)]
  saved : ∀ name source q, w.store.saveFile name source = .ok q → ∃ v, w.Leads v ∧ v.store = q ∧
    v.files.acceptedCalls = w.files.acceptedCalls ++ [(w.files.calls, ⟨name, source⟩)]
  turned : ∀ order, ∃ v, w.Leads v ∧ v.store = w.store.turns order
  /-- Whoever flushes waits for a mark at each desk. -/
  flushed : ∀ (order : QueuedStore → List Worker) (q : QueuedStore),
    w.store.flush (fun q => q.turns (order q)) = (.ok true, q) →
      ∃ v w', w.Flush v w' ∧ w'.store = q
  /-- The queues are closed, the workers are waited for, and the store behind the queues is
  given up. -/
  shutDown : w.phase = .running → w.writes.visits = [] → w.files.visits = [] →
    ∀ order : QueuedStore → List Worker, ∃ v, w.Leads v ∧ v.phase = .ended ∧
      v.store = w.store.shutdown fun q => q.turns (order q)

theorem exists_taken {j : WriteJob} (takes : w.Takes j) :
    ∃ v, (w.issue j).Leads v ∧ w.store.accept j = .ok v.store ∧
      v.writes.acceptedCalls = w.writes.acceptedCalls ++ [(w.writes.calls, j)] := by
  obtain ⟨q, ok⟩ := takes.accept
  obtain ⟨_, listens, rfl⟩ := QueuedStore.accept_ofDesks_ok ok
  obtain ⟨touches, handed⟩ := w.exists_handWrites (.submit j) listens
  exact ⟨_, handed, ok, acceptedCalls_hand _ j⟩

theorem exists_saved {name : String} {source : FileSource} {q : QueuedStore}
    (ok : w.store.saveFile name source = .ok q) : ∃ v, w.Leads v ∧ v.store = q ∧
      v.files.acceptedCalls = w.files.acceptedCalls ++ [(w.files.calls, ⟨name, source⟩)] := by
  obtain ⟨gate, listens, same⟩ := QueuedStore.saveFile_ofDesks_ok ok
  obtain ⟨touches, handed⟩ := w.exists_handFiles (.submit ⟨name, source⟩) listens
  have entered : w.Leads _ := .step .here (.save name source gate)
  exact ⟨_, entered.trans handed, same, acceptedCalls_hand _ _⟩

/-- A mark goes in at the desk for writes, and the workers go on. -/
theorem exists_markWrites {mark : Nat} {writer : Dispatcher WriteJob}
    (marked : w.store.writer.mark? = some (mark, writer)) (order : List Worker) :
    w.writes.dispatcher.accepting = true ∧ mark = w.writes.calls ∧
      ∃ v, w.markWrites.Leads v ∧ v.store = QueuedStore.turns { w.store with writer } order := by
  obtain ⟨gate, listens, rfl, rfl⟩ := Desk.plain_mark?_some marked
  obtain ⟨touches, handed⟩ := w.exists_handWrites .flush listens
  obtain ⟨v, waited, store, _⟩ :=
    exists_turns { w with writes := w.writes.hand .flush, touches } order
  exact ⟨gate, rfl, v, handed.trans waited, store⟩

theorem exists_markFiles {mark : Nat} {filer : Dispatcher FileJob}
    (marked : w.store.filer.mark? = some (mark, filer)) (order : List Worker) :
    w.files.dispatcher.accepting = true ∧ mark = w.files.calls ∧
      ∃ v, w.markFiles.Leads v ∧ v.store = QueuedStore.turns { w.store with filer } order := by
  obtain ⟨gate, listens, rfl, rfl⟩ := Desk.plain_mark?_some marked
  obtain ⟨touches, handed⟩ := w.exists_handFiles .flush listens
  obtain ⟨v, waited, store, _⟩ := exists_turns { w with files := w.files.hand .flush, touches } order
  exact ⟨gate, rfl, v, handed.trans waited, store⟩

theorem exists_flush {order : QueuedStore → List Worker} {q : QueuedStore}
    (ok : w.store.flush (fun q => q.turns (order q)) = (.ok true, q)) :
    ∃ v w', w.Flush v w' ∧ w'.store = q := by
  unfold QueuedStore.flush at ok
  split at ok
  · cases (Prod.mk.inj ok).1
  · next mark writer marked =>
      obtain ⟨writesGate, rfl, v, toFiles, store⟩ :=
        exists_markWrites marked (order { w.store with writer })
      simp only [← store] at ok
      split at ok
      · next writesPassed =>
          split at ok
          · cases (Prod.mk.inj ok).1
          · next mark filer marked =>
              obtain ⟨filesGate, rfl, w', toAnswer, store⟩ :=
                exists_markFiles marked (order { v.store with filer })
              simp only [← store, Prod.mk.injEq, Except.ok.injEq] at ok
              obtain ⟨filesPassed, same⟩ := ok
              exact ⟨v, w', ⟨writesGate, toFiles, writesPassed, filesGate, toAnswer, filesPassed⟩, same⟩
      · cases (Prod.mk.inj ok).1

theorem store_closed (writes : w.writes.dispatcher.accepting = true)
    (files : w.files.dispatcher.accepting = true) : w.closed.store = w.store.close := by
  simp only [store, closed, QueuedStore.ofDesks, QueuedStore.close, Desk.plain_close writes,
    Desk.plain_close files]
  rfl

/-- A shutdown with nobody at the gates closes both queues, waits as long as the workers are given,
and gives the store behind the queues up. -/
theorem Sound.exists_shutdown (h : w.Sound start) (running : w.phase = .running)
    (writes : w.writes.visits = []) (files : w.files.visits = []) (order : QueuedStore → List Worker) :
    ∃ v, w.Leads v ∧ v.phase = .ended ∧ v.store = w.store.shutdown fun q => q.turns (order q) := by
  have closed : w.Leads w.closed := Leads.here.close h running writes files
  have same := store_closed (h.writesGate.before (by simp [running, Phase.rank]))
    (h.filesGate.before (by simp [running, Phase.rank]))
  obtain ⟨v, waited, store, phase⟩ := w.closed.exists_turns (order w.store.close)
  rw [same] at store
  have first := (closed.trans waited).step
    (.writesAwaited v.writes.dispatcher.hasStopped (phase.trans rfl) id)
  have second := first.step (.filesAwaited v.files.dispatcher.hasStopped rfl id)
  refine ⟨_, second.step (.giveUp rfl), rfl, ?_⟩
  have going : ¬ w.store.shutDown = true := by simp [Service.store, QueuedStore.ofDesks, running]
  rw [QueuedStore.shutdown, if_neg going]
  simp only [← store]
  simp only [Service.store, giveUp, QueuedStore.ofDesks, phase, Service.closed]
  rfl

theorem Sound.mirrors (h : w.Sound start) : w.Mirrors where
  taken _ := exists_taken
  saved _ _ _ := exists_saved
  turned order := by
    obtain ⟨v, leads, store, _⟩ := w.exists_turns order
    exact ⟨v, leads, store⟩
  flushed _ _ := exists_flush
  shutDown := h.exists_shutdown

end FleetStore.Service
