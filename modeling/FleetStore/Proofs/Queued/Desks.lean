import FleetStore.Proofs.Dispatch.Order
import FleetStore.Proofs.Dispatch.Plain
import FleetStore.Proofs.Except
import FleetStore.Queue.Store

/-! # A queued store as its desks show it

Of two desks one sees a queued store, without tickets and without the record. A call of the
queued store that is not interrupted hands a job over at one of the desks, and the turns
of its workers are turns at the desks. Writes and purges are not fatal to their worker,
so it is there as long as the gate is open.
-/

namespace FleetStore

namespace QueuedStore

variable {s s' : QueuedStore}

/-! ## What calls answer -/

theorem accept_gate {j : WriteJob} (ok : s.accept j = .ok s') : s.writer.accepting = true := by
  unfold accept submitWrite Dispatcher.submit? Dispatcher.take? at ok
  cases gate : s.writer.accepting with
  | true => rfl
  | false => simp [gate] at ok

theorem accept_of_shut (gate : s.writer.accepting = false) (j : WriteJob) :
    s.accept j = .error .rejected := by
  simp [accept, submitWrite, Dispatcher.submit?, Dispatcher.take?, gate]

/-- Only a write with values for all its parameters is accepted. -/
theorem execute_ok {statement : Prepared} (ok : s.execute statement = .ok s') :
    statement.compiled.kind.isQuery = false ∧ (∃ params, statement.parameters = .ok params) ∧
      s.accept (.execute statement) = .ok s' := by
  unfold execute at ok
  split at ok
  · contradiction
  · split at ok
    · contradiction
    · next write =>
        split at ok
        · contradiction
        · next params full => exact ⟨Bool.eq_false_iff.2 write, ⟨params, full⟩, ok⟩

theorem purge_accept {agent : String} (ok : s.purge agent = .ok s') :
    s.accept (.purge agent) = .ok s' := by
  unfold purge at ok
  unfold accept
  split at ok
  · next taken => simpa [taken] using ok
  · contradiction

/-! ## Desks -/

/-- The queued store that one sees of two desks. -/
def ofDesks (settings : Settings) (delegate : MemoryStore) (writes : Desk WriteJob)
    (files : Desk FileJob) (shutDown : Bool) : QueuedStore :=
  { settings, delegate, writer := writes.plain, filer := files.plain, shutDown }

variable {settings : Settings} {delegate : MemoryStore} {writes : Desk WriteJob}
variable {files : Desk FileJob} {shutDown : Bool}

@[simp] theorem settings_ofDesks :
    (ofDesks settings delegate writes files shutDown).settings = settings := rfl

@[simp] theorem delegate_ofDesks :
    (ofDesks settings delegate writes files shutDown).delegate = delegate := rfl

/-- A write is queued as the job of a call that hands it over, or rejected. -/
theorem accept_ofDesks (j : WriteJob) :
    (ofDesks settings delegate writes files shutDown).accept j =
      if writes.dispatcher.accepting && !writes.dispatcher.hasStopped then
        .ok (ofDesks settings delegate (writes.hand (.submit j)) files shutDown)
      else .error .rejected := by
  simp only [accept, submitWrite, ofDesks, Desk.plain_submit?]
  cases writes.dispatcher.accepting && !writes.dispatcher.hasStopped <;> rfl

theorem saveFile_ofDesks (name : String) (source : FileSource) :
    (ofDesks settings delegate writes files shutDown).saveFile name source =
      if files.dispatcher.accepting && !files.dispatcher.hasStopped then
        .ok (ofDesks settings delegate writes (files.hand (.submit ⟨name, source⟩)) shutDown)
      else .error .closed := by
  simp only [saveFile, ofDesks, Desk.plain_submit?]
  cases files.dispatcher.accepting && !files.dispatcher.hasStopped <;> rfl

theorem accept_ofDesks_ok {j : WriteJob}
    (ok : (ofDesks settings delegate writes files shutDown).accept j = .ok s) :
    writes.dispatcher.accepting = true ∧ writes.dispatcher.hasStopped = false ∧
      ofDesks settings delegate (writes.hand (.submit j)) files shutDown = s := by
  rw [accept_ofDesks] at ok
  split at ok
  · next heard =>
      rw [Bool.and_eq_true, Bool.not_eq_true'] at heard
      exact ⟨heard.1, heard.2, Except.ok.inj ok⟩
  · contradiction

theorem saveFile_ofDesks_ok {name : String} {source : FileSource}
    (ok : (ofDesks settings delegate writes files shutDown).saveFile name source = .ok s) :
    files.dispatcher.accepting = true ∧ files.dispatcher.hasStopped = false ∧
      ofDesks settings delegate writes (files.hand (.submit ⟨name, source⟩)) shutDown = s := by
  rw [saveFile_ofDesks] at ok
  split at ok
  · next heard =>
      rw [Bool.and_eq_true, Bool.not_eq_true'] at heard
      exact ⟨heard.1, heard.2, Except.ok.inj ok⟩
  · contradiction

theorem turn_writer_ofDesks :
    (ofDesks settings delegate writes files shutDown).turn .writer =
      ofDesks settings (writes.turn WriteJob.run delegate).2 (writes.turn WriteJob.run delegate).1
        files shutDown := by
  simp only [turn, ofDesks, Desk.plain_turn]

theorem turn_filer_ofDesks :
    (ofDesks settings delegate writes files shutDown).turn .filer =
      ofDesks settings (files.turn FileJob.run delegate).2 writes
        (files.turn FileJob.run delegate).1 shutDown := by
  simp only [turn, ofDesks, Desk.plain_turn]

end QueuedStore

/-! ## Workers without fatal jobs -/

theorem WriteJob.harmless (j : WriteJob) : Fatal.isFatal j = false := rfl

namespace Desk

variable {Job : Type} [Fatal Job] {k : Desk Job}

theorem isFatal_of_harmless (harmless : ∀ j : Job, Fatal.isFatal j = false)
    (task : Task (Ticketed Job)) : task.isFatal = false := by
  cases task with
  | job call => exact harmless call.2
  | mark => rfl

/-- While the gate is open there is a worker, if no job is fatal to it. -/
theorem Sound.listens (h : k.Sound) (harmless : ∀ j : Job, Fatal.isFatal j = false)
    (gate : k.dispatcher.accepting = true) : k.dispatcher.hasStopped = false := by
  refine Bool.eq_false_iff.2 fun ended => ?_
  rcases WorkerState.hasEnded_iff.1 ended with stopped | broken
  · exact (h.guarded.untold (.inl gate)).goesOn stopped
  · obtain ⟨task, _, fatal⟩ := h.broken_iff.1 broken
    rw [isFatal_of_harmless harmless task] at fatal
    contradiction

end Desk

end FleetStore
