import FleetStore.Proofs.Dispatch.Backlog
import FleetStore.Queue.Store

/-! # Flushing a queued store

The store behind a queue lags behind by the writes in the backlog. What it comes to
when these are made is the same store however far the worker has got, so the
worker may go on at any time without anybody noticing. A flush that is in time
has seen its mark, which was the last task in the queue, and so it leaves a
store behind the queue that has caught up.
-/

namespace FleetStore

namespace Dispatcher

variable {Job σ ε : Type} {run : Job → σ → Except ε σ} {d d' d'' : Dispatcher Job}

/-- No mark has a number that is still to be given. -/
structure Fresh (d : Dispatcher Job) : Prop where
  sent : ∀ n, .mark n ∈ d.backlog → n < d.calls
  passed : ∀ n ∈ d.passed, n < d.calls

theorem fresh_new (name : String) : (new name : Dispatcher Job).Fresh :=
  ⟨by simp, by simp [new]⟩

theorem mem_signals {tasks : List (Task Job)} {n : Nat} (h : n ∈ tasks.flatMap Task.signals) :
    .mark n ∈ tasks := by
  obtain ⟨task, member, signal⟩ := List.mem_flatMap.1 h
  cases task with
  | job j => simp [Task.signals] at signal
  | mark number =>
      rw [Task.signals, List.mem_singleton] at signal
      exact signal ▸ member

/-! ## Taking tasks -/

theorem take?_some {task : Task Job} (ok : d.take? task = some d') :
    d' = d.draw.announce.send task := by
  unfold take? at ok
  split at ok
  · exact (Option.some.inj ok).symm
  · contradiction

theorem mark?_some {mark : Nat} (ok : d.mark? = some (mark, d')) :
    mark = d.calls ∧ d' = d.draw.announce.send (.mark mark) := by
  unfold mark? at ok
  obtain ⟨taken, took, same⟩ := Option.map_eq_some_iff.1 ok
  obtain ⟨rfl, rfl⟩ := Prod.mk.inj same
  exact ⟨rfl, take?_some took⟩

theorem exists_mark? (gate : d.accepting = true) (listens : d.hasStopped = false) :
    ∃ mark d', d.mark? = some (mark, d') := by
  simp [mark?, take?, gate, listens]

/-- A mark that is sent has the number that is given out. -/
theorem Fresh.send {task : Task Job} (h : d.Fresh) (own : ∀ n, task = .mark n → n = d.calls) :
    (d.draw.announce.send task).Fresh where
  sent n member := by
    show n < d.calls + 1
    rw [backlog_send] at member
    rcases List.mem_append.1 member with before | now
    · exact Nat.lt_succ_of_lt (h.sent n before)
    · rw [own n (List.mem_singleton.1 now).symm]
      exact Nat.lt_succ_self _
  passed n member := Nat.lt_succ_of_lt (h.passed n member)

variable [Fatal Job]

theorem Fresh.worksOff {done lost : List (Task Job)} {s s' : σ} (h : d.Fresh)
    (worked : WorksOff run done lost d s d' s') : d'.Fresh where
  sent n member := by
    rw [worked.calls]
    refine h.sent n (worked.backlog ▸ List.mem_append_right _ (List.mem_append_left _ member))
  passed n member := by
    rw [worked.calls]
    rw [worked.passed] at member
    rcases List.mem_append.1 member with before | now
    · exact h.passed n before
    · exact h.sent n (worked.backlog ▸ List.mem_append_left _ (mem_signals now))

theorem Running.take {task : Task Job} (h : d.Running) (harmless : task.isFatal = false) :
    (d.draw.announce.send task).Running := by
  have counted : d.draw.announce.Running := ⟨⟨h.noStop, h.goesOn⟩, h.listens, h.harmless⟩
  exact counted.send harmless

/-- A worker that has passed a mark has done everything that was sent before it. -/
theorem Fresh.backlog_eq_nil {mark : Nat} {done : List (Task Job)} {s s' : σ} (h : d.Fresh)
    (ok : d.mark? = some (mark, d')) (worked : WorksOff run done [] d' s d'' s')
    (through : d''.hasPassed mark = true) : d''.backlog = [] := by
  obtain ⟨rfl, rfl⟩ := mark?_some ok
  have signalled : Task.mark d.calls ∈ done := by
    rw [hasPassed, List.contains_iff_mem, worked.passed, List.mem_append] at through
    rcases through with before | now
    · exact absurd (h.passed _ before) (Nat.lt_irrefl _)
    · exact mem_signals now
  -- Anything left would have the mark at its end, and the mark was sent only once.
  rcases List.eq_nil_or_concat d''.backlog with none | ⟨rest, last, some⟩
  · exact none
  · have split := worked.backlog
    rw [backlog_send, List.append_nil, some, List.concat_eq_append, ← List.append_assoc] at split
    have early : d.backlog = done ++ rest := (List.append_inj' split rfl).1
    exact absurd (h.sent _ (early ▸ List.mem_append_left _ signalled)) (Nat.lt_irrefl _)

end Dispatcher

namespace QueuedStore

open Dispatcher

variable {s s' s'' : QueuedStore}

/-- The store behind the queue as it will be when the worker for writes has done what it
was given. -/
def caughtUp (s : QueuedStore) : MemoryStore :=
  s.writer.backlog.foldl (perform WriteJob.run) s.delegate

theorem caughtUp_eq_delegate (h : s.writer.backlog = []) : s.caughtUp = s.delegate := by
  rw [caughtUp, h, List.foldl_nil]

/-- Writes are taken, and no files are saved. -/
structure Open (s : QueuedStore) : Prop where
  writes : s.writer.accepting = true
  files : s.filer.accepting = true
  writing : s.writer.Running
  saving : s.filer.Running
  fresh : s.writer.Fresh
  noFiles : ∀ task ∈ s.filer.backlog, ∃ n, task = .mark n

theorem open_new (settings : Settings) (delegate : MemoryStore) : (new settings delegate).Open :=
  ⟨rfl, rfl, running_new _, running_new _, fresh_new _, by simp [new]⟩

theorem foldl_perform_marks {tasks : List (Task FileJob)} (h : ∀ task ∈ tasks, ∃ n, task = .mark n)
    (m : MemoryStore) : tasks.foldl (perform FileJob.run) m = m := by
  induction tasks with
  | nil => rfl
  | cons task rest ih =>
      obtain ⟨n, rfl⟩ := h task List.mem_cons_self
      exact ih fun t member => h t (List.mem_cons_of_mem _ member)

/-- The workers have gone on, and an open store has stayed open. -/
structure WorksOn (s s' : QueuedStore) : Prop where
  writes : ∃ done, WorksOff WriteJob.run done [] s.writer s.delegate s'.writer s'.delegate
  stillOpen : s'.Open
  settings : s'.settings = s.settings

theorem WorksOn.trans (h : s.WorksOn s') (later : s'.WorksOn s'') : s.WorksOn s'' := by
  obtain ⟨done, first⟩ := h.writes
  obtain ⟨more, second⟩ := later.writes
  exact ⟨⟨_, first.trans second⟩, later.stillOpen, later.settings.trans h.settings⟩

/-- Nobody can tell from the store it will come to how far the worker has got. -/
theorem WorksOn.caughtUp (h : s.WorksOn s') : s'.caughtUp = s.caughtUp := by
  obtain ⟨done, worked⟩ := h.writes
  rw [QueuedStore.caughtUp, QueuedStore.caughtUp, worked.backlog, List.append_nil,
    List.foldl_append, worked.state]

theorem WorksOn.backlog_eq_nil (h : s.WorksOn s') (nothing : s.writer.backlog = []) :
    s'.writer.backlog = [] := by
  obtain ⟨done, worked⟩ := h.writes
  exact (List.append_eq_nil_iff.1 (List.append_eq_nil_iff.1
    (worked.backlog.symm.trans nothing)).2).1

theorem Open.turn (h : s.Open) (worker : Worker) : s.WorksOn (s.turn worker) := by
  cases worker with
  | writer =>
      have turned := turned WriteJob.run s.writer s.delegate
      have worked := turned.worksOff
      rw [(worked.harmless h.writing.harmless).1] at worked
      exact ⟨⟨_, worked⟩, ⟨worked.accepting.trans h.writes, h.files, h.writing.turned turned,
        h.saving, h.fresh.worksOff worked, h.noFiles⟩, rfl⟩
  | filer =>
      have turned := turned FileJob.run s.filer s.delegate
      have worked := turned.worksOff
      have marks : ∀ task ∈ s.filer.worker.current, ∃ n, task = .mark n := fun task member =>
        h.noFiles task (List.mem_append_left _ member)
      have same : (s.filer.turn FileJob.run s.delegate).2 = s.delegate :=
        worked.state.trans (foldl_perform_marks marks _)
      refine ⟨⟨[], ?_⟩, ⟨h.writes, worked.accepting.trans h.files, h.writing,
        h.saving.turned turned, h.fresh, fun task member => ?_⟩, rfl⟩
      · simp only [QueuedStore.turn, same]
        exact .nothing _ _
      · exact h.noFiles task
          (worked.backlog ▸ List.mem_append_right _ (List.mem_append_left _ member))

theorem Open.turns (h : s.Open) (order : List Worker) : s.WorksOn (s.turns order) := by
  induction order generalizing s with
  | nil => exact ⟨⟨[], .nothing _ _⟩, h, rfl⟩
  | cons worker rest ih =>
      have first := h.turn worker
      exact first.trans (ih first.stillOpen)

/-! ## What a client does -/

/-- An accepted write will be made after all that were accepted before. -/
theorem Open.accept (h : s.Open) (j : WriteJob) :
    ∃ s', s.accept j = .ok s' ∧ s'.Open ∧ s'.settings = s.settings ∧
      s'.caughtUp = attempt WriteJob.run j s.caughtUp := by
  refine ⟨{ s with writer := s.writer.draw.announce.send (.job j) }, ?_,
    ⟨h.writes, h.files, h.writing.take rfl, h.saving, h.fresh.send nofun, h.noFiles⟩, rfl, ?_⟩
  · simp [QueuedStore.accept, submitWrite, submit?, take?, h.writes, h.writing.listens]
  · simp only [QueuedStore.caughtUp, backlog_send, List.foldl_append]
    rfl

theorem Open.markWrites {mark : Nat} {writer : Dispatcher WriteJob} (h : s.Open)
    (ok : s.writer.mark? = some (mark, writer)) :
    Open { s with writer } ∧ caughtUp { s with writer } = s.caughtUp := by
  obtain ⟨rfl, rfl⟩ := mark?_some ok
  refine ⟨⟨h.writes, h.files, h.writing.take rfl, h.saving, h.fresh.send fun _ same => ?_,
    h.noFiles⟩, ?_⟩
  · exact (Task.mark.inj same).symm
  · simp only [QueuedStore.caughtUp, backlog_send, List.foldl_append]
    rfl

theorem Open.markFiles {mark : Nat} {filer : Dispatcher FileJob} (h : s.Open)
    (ok : s.filer.mark? = some (mark, filer)) : Open { s with filer } := by
  obtain ⟨rfl, rfl⟩ := mark?_some ok
  refine ⟨h.writes, h.files, h.writing, h.saving.take rfl, h.fresh, fun task member => ?_⟩
  rw [backlog_send] at member
  rcases List.mem_append.1 member with before | now
  · exact h.noFiles task before
  · exact ⟨_, List.mem_singleton.1 now⟩

/-- A flush cannot fail while the store is open. If it is in time, the store behind the
queue has caught up. -/
theorem Open.flush (h : s.Open) (order : QueuedStore → List Worker) :
    ∃ inTime s', s.flush (fun s => s.turns (order s)) = (.ok inTime, s') ∧ s'.Open ∧
      s'.settings = s.settings ∧ s'.caughtUp = s.caughtUp ∧
      (inTime = true → s'.writer.backlog = []) := by
  obtain ⟨mark, writer, marked⟩ := exists_mark? h.writes h.writing.listens
  obtain ⟨opened, same⟩ := h.markWrites marked
  have waited := opened.turns (order { s with writer })
  have settings := waited.settings
  have caught := waited.caughtUp.trans same
  obtain ⟨done, worked⟩ := waited.writes
  simp only [QueuedStore.flush, marked]
  generalize QueuedStore.turns { s with writer } (order { s with writer }) = s₁ at *
  split
  · next through =>
      have nothing := h.fresh.backlog_eq_nil marked worked through
      obtain ⟨mark', filer, marked'⟩ := exists_mark? waited.stillOpen.files
        waited.stillOpen.saving.listens
      have rest := (waited.stillOpen.markFiles marked').turns (order { s₁ with filer })
      simp only [marked']
      exact ⟨_, _, rfl, rest.stillOpen, rest.settings.trans settings, rest.caughtUp.trans caught,
        fun _ => rest.backlog_eq_nil nothing⟩
  · exact ⟨false, s₁, rfl, waited.stillOpen, settings, caught, nofun⟩

end QueuedStore

end FleetStore
