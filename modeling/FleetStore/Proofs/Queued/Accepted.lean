import FleetStore.Proofs.Queued.Calls
import FleetStore.Proofs.Queued.OneWorker

/-! # Accepted writes can be made

What can be wrong with a statement itself is said when it is run: that it is a query,
or which of its parameters is the first without a value. Setters let only checked values
in, so a write without such a fault binds, and a copy of it goes on to bind whatever
is done to the statement later. The copy is queued behind all that was queued before, and
when the worker comes to it there is one thing left that can be wrong, namely that the
category of the write is not registered.
-/

namespace FleetStore

namespace Prepared

/-- A statement that binds to a write to its own category. -/
def Sure (s : Prepared) : Prop :=
  ∃ b, s.boundWrite = .ok b ∧ b.category = s.compiled.category

/-- A write with checked values for all its parameters is sure to bind. -/
theorem Checked.sure {s : Prepared} {params : List Parameter} (h : s.Checked)
    (write : s.compiled.kind.isQuery = false) (full : s.parameters = .ok params) : s.Sure := by
  obtain ⟨b, bound⟩ := h.boundWrite write full
  obtain ⟨_, _, patched⟩ := boundWrite_ok bound
  rw [Descriptor.Compiled.bind_eq] at patched
  obtain ⟨_, _, placed⟩ := bind_eq_ok_iff.1 patched
  exact ⟨b, bound, (Descriptor.Compiled.withValues_write placed).1⟩

/-- On a store that has a table for its category, a statement that is sure to bind writes to
this table, and otherwise it fails for want of the table. -/
theorem Sure.execute {s : Prepared} (h : s.Sure) : ∃ b, s.boundWrite = .ok b ∧ ∀ m : MemoryStore,
    m.execute s = match m.tables.get? s.compiled.category with
      | some t => .ok { m with
          tables := m.tables.insert s.compiled.category { t with records := b.applyTo t.records } }
      | none => .error (.unknownCategory s.compiled.category) := by
  obtain ⟨b, bound, category⟩ := h
  refine ⟨b, bound, fun m => ?_⟩
  have same : m.execute s = m.applyWrite b := by
    simp only [MemoryStore.execute, bound, Except.bind]
  rw [same, ← category]
  exact m.applyWrite_eq b

end Prepared

namespace QueuedStore

variable {q : QueuedStore} {s : Prepared}

/-- What running a statement answers when there is no proxy, for each fault that can be seen
at once. -/
theorem execute_eq (unproxied : q.settings.proxied = false) :
    (s.compiled.kind.isQuery = true → q.execute s = .error .notAWrite) ∧
      (s.compiled.kind.isQuery = false →
        (∀ e, s.parameters = .error e → q.execute s = .error (.patch e)) ∧
        ∀ params, s.parameters = .ok params → q.execute s = q.accept (.execute s)) := by
  refine ⟨fun query => ?_, fun write => ⟨fun e fault => ?_, fun params full => ?_⟩⟩
  · simp [execute, unproxied, query]
  · simp [execute, unproxied, write, fault]
  · simp [execute, unproxied, write, full]

/-- The queued store with one more job behind all that waits. -/
def queueing (q : QueuedStore) (j : WriteJob) : QueuedStore :=
  { q with writer := q.writer.draw.announce.send (.job j) }

theorem accept_of_open (gate : q.writer.accepting = true) (listens : q.writer.hasStopped = false)
    (j : WriteJob) : q.accept j = .ok (q.queueing j) := by
  simp [accept, submitWrite, Dispatcher.submit?, Dispatcher.take?, gate, listens, queueing]

end QueuedStore

namespace Service

variable {settings : Settings} {start : MemoryStore} {w w' : Service}

/-- Statements in hand hold checked values, and every statement in a job is sure to bind. -/
structure Ready (w : Service) : Prop where
  checked : ∀ s ∈ w.hands.statements, s.Checked
  sure : ∀ n s, .job (n, .execute s) ∈ w.writes.tasks → s.Sure

theorem ready_new (settings : Settings) (start : MemoryStore) : (new settings start).Ready :=
  ⟨by simp [new, Hands.empty], by simp [new, Desk.new, Desk.tasks]⟩

theorem Step.checked (step : Step w w') (h : ∀ s ∈ w.hands.statements, s.Checked) :
    ∀ s ∈ w'.hands.statements, s.Checked := by
  cases step with
  | handle delegate hands step =>
      intro s member
      rcases step.statements s member with old | ⟨old, there, index, value, rfl⟩ | ⟨c, _, d, ok⟩
      · exact h s old
      · exact (h old there).trySet index value
      · obtain ⟨entry, _, _, rfl, _⟩ := MemoryStore.prepare_ok ok
        exact Prepared.checked_ofCompiled _
  | register | issue | applyDirectly | save | atWrites | atFiles | shutDown | writesClosed
  | filesClosed | writesAwaited | filesAwaited | giveUp => exact h

theorem Ready.step (h : w.Ready) (step : Step w w') : w'.Ready := by
  refine ⟨step.checked h.checked, fun n s member => ?_⟩
  rcases step.tasks.2 _ member with old | mark | ⟨j, takes, same⟩
  · exact h.sure n s old
  · contradiction
  · obtain ⟨-, rfl⟩ := Prod.mk.inj (Task.job.inj same)
    cases takes with
    | execute _ store known ok =>
        obtain ⟨write, ⟨params, full⟩, _⟩ := QueuedStore.execute_ok ok
        exact (h.checked s known).sure write full

theorem Leads.ready (h : w.Leads w') (ready : w.Ready) : w'.Ready := by
  induction h with
  | here => exact ready
  | step _ next ih => exact ih.step next

/-- What is accepted for the worker for writes is done when the worker is left alone. -/
theorem Sound.writes_settled (h : w.Sound start) :
    (w.writes.turns WriteJob.run w.writes.dispatcher.stepsLeft w.delegate).1.finished =
      w.writes.accepted := by
  have all : ∀ task ∈ w.writes.accepted, task.isFatal = false := fun task _ =>
    Desk.isFatal_of_harmless WriteJob.harmless task
  rw [(h.writes.settled WriteJob.run w.delegate).1, Task.reached_of_harmless all]

/-- Running a statement that is taken hands its copy over to the worker for writes. -/
theorem exists_executed {s : Prepared} (takes : w.Takes (.execute s)) :
    ∃ v, (w.issue (.execute s)).Leads v ∧ w.store.execute s = .ok v.store ∧
      v.writes.acceptedCalls = w.writes.acceptedCalls ++ [(w.writes.calls, .execute s)] := by
  obtain ⟨v, handed, accepted, calls⟩ := exists_taken takes
  cases takes with
  | execute _ store known ok =>
      have same := (QueuedStore.execute_ok ok).2.2.symm.trans accepted
      exact ⟨v, handed, ok.trans same, calls⟩

/-- A statement answers for its own faults when it is run: a query that it is one, and a write
for the first of its places for which no call of a setter had an acceptable value. A
write without such a fault is rejected or queued behind all that waits, as the gate is shut
or open. What is taken stays as it was at that moment, whatever happens later, and the
worker comes to it. If it was accepted it binds, so that on any store it writes to the table
of its category and can fail only if there is none. -/
theorem accepted_write_fails_only_without_table (reached : (new settings start).Leads w)
    (unproxied : settings.proxied = false) :
    (∀ (q q' : QueuedStore) (c : Category) (descriptor : String) (s : Prepared)
        (calls : List (Nat × Value)), Store.prepare q c descriptor = .ok (s, q') →
      (s.compiled.kind.isQuery = true → w.store.execute (s.trySetAll calls) = .error .notAWrite) ∧
      (s.compiled.kind.isQuery = false →
        (∀ i, s.compiled.Unset calls i → (∀ k < i, ¬ s.compiled.Unset calls k) →
          w.store.execute (s.trySetAll calls) = .error (.patch (.unbound i))) ∧
        ((∀ i, ¬ s.compiled.Unset calls i) →
          (w.writes.dispatcher.accepting = false →
            w.store.execute (s.trySetAll calls) = .error .rejected) ∧
          (w.writes.dispatcher.accepting = true →
            w.store.execute (s.trySetAll calls) =
              .ok (w.store.queueing (.execute (s.trySetAll calls))))))) ∧
    ((w.phase = .running → w.writes.dispatcher.accepting = true) ∧
      (1 < w.phase.rank → w.writes.dispatcher.accepting = false)) ∧
    (∀ s, w.Takes (.execute s) →
      (∃ v, (w.issue (.execute s)).Leads v ∧ w.store.execute s = .ok v.store ∧
        v.writes.acceptedCalls = w.writes.acceptedCalls ++ [(w.writes.calls, .execute s)]) ∧
      ∀ w', (w.issue (.execute s)).Leads w' →
        (∀ j, (w.writes.calls, j) ∈ w'.writes.acceptedCalls → j = .execute s) ∧
        (w.writes.calls ∈ w'.writes.returned →
          (w.writes.calls, .execute s) ∈ w'.writes.acceptedCalls)) ∧
    (w.writes.turns WriteJob.run w.writes.dispatcher.stepsLeft w.delegate).1.finished =
      w.writes.accepted ∧
    ∀ n s, (n, .execute s) ∈ w.writes.acceptedCalls → ∃ b, s.boundWrite = .ok b ∧
      ∀ m : MemoryStore, WriteJob.run (.execute s) m =
        match m.tables.get? s.compiled.category with
        | some t => .ok { m with
            tables := m.tables.insert s.compiled.category { t with records := b.applyTo t.records } }
        | none => .error (.unknownCategory s.compiled.category) := by
  have sound := reached.sound (sound_new settings start)
  have ready := reached.ready (ready_new settings start)
  have direct : w.store.settings.proxied = false :=
    (congrArg Settings.proxied reached.kept.2).trans unproxied
  refine ⟨fun q q' c descriptor s calls prepared => ?_, ⟨fun running => ?_, fun late => ?_⟩,
    fun s takes => ⟨exists_executed takes, fun w' later =>
      ⟨fun j => later.accepted_own sound, later.returned_own sound takes⟩⟩,
    sound.writes_settled, fun n s accepted => ?_⟩
  · obtain ⟨⟨statement, m'⟩, made, same⟩ := map_eq_ok_iff.1 prepared
    obtain ⟨rfl, -⟩ := Prod.mk.inj same
    obtain ⟨entry, _, _, rfl, _⟩ := MemoryStore.prepare_ok made
    have kind := (Prepared.ofCompiled entry.compiled).compiled_trySetAll calls
    obtain ⟨query, write⟩ :=
      QueuedStore.execute_eq (s := (Prepared.ofCompiled entry.compiled).trySetAll calls) direct
    rw [kind] at query write
    refine ⟨query, fun isWrite => ⟨fun i unset least => ?_, fun set => ?_⟩⟩
    · exact (write isWrite).1 _ (Prepared.parameters_unset _ calls unset least)
    · obtain ⟨params, full⟩ := Prepared.exists_parameters _ calls set
      rw [(write isWrite).2 params full]
      refine ⟨fun shut => QueuedStore.accept_of_shut shut _, fun gate => ?_⟩
      have listens := sound.writes.listens WriteJob.harmless gate
      exact QueuedStore.accept_of_open gate ((Desk.plain_hasStopped _).trans listens) _
  · exact sound.writesGate.before (by simp [running, Phase.rank])
  · exact (sound.writesGate.after late).1
  · obtain ⟨task, member, same⟩ := List.mem_filterMap.1 accepted
    cases task with
    | mark => contradiction
    | job call =>
        obtain rfl := Option.some.inj same
        exact (ready.sure n s (List.mem_append_left _ member)).execute

open Site (palette colours addColour)

/-- A statement is given a number in place of a colour, and then the colour red. -/
theorem set_red_is_accepted :
    let red := (Prepared.ofCompiled addColour).trySetAll [(0, .int 3), (0, .string "red")]
    oneAccepted.store.execute ((Prepared.ofCompiled addColour).trySetAll [(0, .int 3)]) =
      .error (.patch (.unbound 0)) ∧
    oneAccepted.store.execute red = .ok (oneAccepted.store.queueing (.execute red)) ∧
    oneAccepted.closed.store.execute red = .error .rejected ∧
    (0, .execute red) ∈ oneAccepted.writes.acceptedCalls ∧
    (oneAccepted.writes.turns WriteJob.run 6 oneAccepted.delegate).1.finished =
      [.job (0, .execute red)] ∧
    (∃ m, WriteJob.run (.execute red) palette = .ok m) ∧
    WriteJob.run (.execute red) .empty = .error (.unknownCategory "colours") := by
  have set : ∀ i, ¬ addColour.Unset [(0, .int 3), (0, .string "red")] i := by
    rintro i ⟨less, none⟩
    obtain rfl : i = 0 := Nat.lt_one_iff.1 less
    exact none (.string "red") (by simp) ⟨rfl, rfl⟩
  have unset : addColour.Unset [(0, .int 3)] 0 := by
    refine ⟨Nat.one_pos, fun value member accepts => ?_⟩
    obtain rfl : value = .int 3 := by simpa using member
    exact absurd accepts.1 (by decide)
  obtain ⟨answers, ⟨running, _⟩, _, settled, binds⟩ :=
    accepted_write_fails_only_without_table leads_oneAccepted rfl
  obtain ⟨later, ⟨_, shut⟩, _⟩ :=
    accepted_write_fails_only_without_table leads_oneAccepted_closed rfl
  obtain ⟨_, now⟩ := answers _ _ _ _ _ [(0, .int 3), (0, .string "red")] Site.palette_prepare
  obtain ⟨_, wrong⟩ := answers _ _ _ _ _ [(0, .int 3)] Site.palette_prepare
  obtain ⟨_, afterwards⟩ := later _ _ _ _ _ [(0, .int 3), (0, .string "red")] Site.palette_prepare
  have accepted : (0, .execute ((Prepared.ofCompiled addColour).trySetAll
      [(0, .int 3), (0, .string "red")])) ∈ oneAccepted.writes.acceptedCalls :=
    List.mem_singleton_self _
  obtain ⟨b, bound, run⟩ := binds 0 _ accepted
  exact ⟨(wrong rfl).1 0 unset fun k less => absurd less (Nat.not_lt_zero k),
    ((now rfl).2 set).2 (running (by decide +kernel)),
    ((afterwards rfl).2 set).1 (shut (by decide +kernel)), accepted, settled,
    ⟨_, (run palette).trans rfl⟩, (run .empty).trans rfl⟩

end Service

end FleetStore
