import FleetStore.Proofs.Dispatch.Desk

/-! # A desk without its tickets

Leaving the tickets and the record out, one sees of a desk a plain dispatcher. A call
that nobody interrupts does to it what submitting at the plain dispatcher does in one go,
a turn of the worker is a turn there, and so is closing.
-/

namespace FleetStore

section Plain

variable {Job σ ε : Type}

def Task.plain : Task (Ticketed Job) → Task Job
  | .job (_, j) => .job j
  | .mark number => .mark number

def Command.plain : Command (Ticketed Job) → Command Job
  | .run task => .run task.plain
  | .stop => .stop

def WorkerState.plain : WorkerState (Ticketed Job) → WorkerState Job
  | .idle => .idle
  | .busy task => .busy task.plain
  | .done => .done
  | .stopped => .stopped
  | .broken => .broken

@[simp] theorem WorkerState.hasEnded_plain (w : WorkerState (Ticketed Job)) :
    w.plain.hasEnded = w.hasEnded := by
  cases w <;> rfl

@[simp] theorem Task.signals_plain (task : Task (Ticketed Job)) :
    task.plain.signals = task.signals := by
  cases task <;> rfl

@[simp] theorem Task.isFatal_plain [Fatal Job] (task : Task (Ticketed Job)) :
    task.plain.isFatal = task.isFatal := by
  cases task <;> rfl

theorem perform_plain (run : Job → σ → Except ε σ) (s : σ) (task : Task (Ticketed Job)) :
    Dispatcher.perform run s task.plain = Dispatcher.perform (serve run) s task := by
  cases task <;> rfl

end Plain

namespace Desk

variable {Job σ ε : Type} {k : Desk Job}

/-- The dispatcher of a desk as it is without tickets. Marks are numbered by the calls. -/
def plain (k : Desk Job) : Dispatcher Job where
  name := k.dispatcher.name
  accepting := k.dispatcher.accepting
  channel := k.dispatcher.channel.map Command.plain
  worker := k.dispatcher.worker.plain
  pending := k.dispatcher.pending
  calls := k.calls
  passed := k.dispatcher.passed

@[simp] theorem plain_hasStopped (k : Desk Job) : k.plain.hasStopped = k.dispatcher.hasStopped :=
  WorkerState.hasEnded_plain _

/-! ## Calls -/

/-- The desk after a call that nobody has interrupted. -/
def hand (k : Desk Job) (request : Request Job) : Desk Job :=
  { k with
    dispatcher := k.dispatcher.announce.send (request.task k.calls)
    calls := k.calls + 1
    accepted := k.accepted ++ [request.task k.calls]
    returned := k.returned ++ [(request.task k.calls).ticket] }

theorem plain_hand (k : Desk Job) (request : Request Job) :
    (k.hand request).plain = k.plain.draw.announce.send (request.task k.calls).plain := by
  simp [plain, hand, Dispatcher.draw, Dispatcher.announce, Dispatcher.send, Command.plain]

/-- Submitting a job in one go is a call that nobody interrupts, and fails without changing
anything if the gate is shut or there is no worker. -/
theorem plain_submit? (k : Desk Job) (j : Job) : k.plain.submit? j =
    if k.dispatcher.accepting && !k.dispatcher.hasStopped then some (k.hand (.submit j)).plain
    else none := by
  rw [Dispatcher.submit?, Dispatcher.take?, plain_hasStopped, plain_hand]
  rfl

theorem plain_mark? (k : Desk Job) : k.plain.mark? =
    if k.dispatcher.accepting && !k.dispatcher.hasStopped then some (k.calls, (k.hand .flush).plain)
    else none := by
  rw [Dispatcher.mark?, Dispatcher.take?, plain_hasStopped, plain_hand, apply_ite (Option.map _)]
  rfl

theorem plain_mark?_some {mark : Nat} {d : Dispatcher Job} (ok : k.plain.mark? = some (mark, d)) :
    k.dispatcher.accepting = true ∧ k.dispatcher.hasStopped = false ∧ mark = k.calls ∧
      d = (k.hand .flush).plain := by
  rw [plain_mark?] at ok
  split at ok
  · next heard =>
      rw [Bool.and_eq_true, Bool.not_eq_true'] at heard
      obtain ⟨rfl, rfl⟩ := Prod.mk.inj (Option.some.inj ok)
      exact ⟨heard.1, heard.2, rfl, rfl⟩
  · contradiction

variable [Fatal Job]

/-- Whoever has gone in counts the task, sends it and leaves. -/
theorem steps_hand (asks : Request Job → Prop) (run : Job → σ → Except ε σ) (k : Desk Job) (s : σ)
    (request : Request Job) (listens : k.dispatcher.hasStopped = false) :
    Steps asks run (k.enter request) s (k.hand request) s := by
  have counted : Steps asks run (k.enter request) s _ s := .step .here (.count _ k.visits [] rfl)
  have sent := counted.step (.send _ k.visits [] rfl listens)
  simpa [enter, hand] using sent.step (.leave _ k.visits [] rfl)

/-! ## The worker and the one who closes -/

/-- Tickets are nothing to the worker. -/
theorem plain_turn (run : Job → σ → Except ε σ) (k : Desk Job) (s : σ) :
    k.plain.turn run s = ((k.turn run s).1.plain, (k.turn run s).2) := by
  cases state : k.dispatcher.worker with
  | idle =>
      cases sent : k.dispatcher.channel with
      | nil => simp [turn, Dispatcher.turn, plain, state, sent, WorkerState.plain]
      | cons command rest =>
          cases command <;>
            simp [turn, Dispatcher.turn, plain, state, sent, WorkerState.plain, Command.plain]
  | busy task =>
      by_cases fatal : task.isFatal = true <;>
        simp [turn, Dispatcher.turn, plain, state, fatal, WorkerState.plain, perform_plain]
  | done | stopped | broken => simp [turn, Dispatcher.turn, plain, state, WorkerState.plain]

/-- The desk after it was closed with nobody at its gate. -/
def closed (k : Desk Job) : Desk Job :=
  { k with dispatcher := k.dispatcher.shut.sendStop, closing := false }

omit [Fatal Job] in
theorem plain_close (gate : k.dispatcher.accepting = true) : k.plain.close = k.closed.plain := by
  cases ended : k.dispatcher.hasStopped <;>
    simp_all [Dispatcher.close, plain, closed, Dispatcher.shut, Dispatcher.sendStop,
      Dispatcher.hasStopped, Command.plain]

end Desk

end FleetStore
