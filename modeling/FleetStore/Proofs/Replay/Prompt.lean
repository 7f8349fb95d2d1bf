import FleetStore.Proofs.Queued.Flush
import FleetStore.Replay

/-! # Prompt workers are never late

Workers that do all there is to do at every moment get past every mark, so no flush
takes too long, whatever is replayed.
-/

namespace FleetStore

namespace Dispatcher

variable {Job σ ε : Type} [Fatal Job] {run : Job → σ → Except ε σ} {d d' : Dispatcher Job}

/-- A worker that settles comes past a mark that was sent before. -/
theorem Running.hasPassed_settle {mark : Nat} (h : d.Running) (ok : d.mark? = some (mark, d'))
    (run : Job → σ → Except ε σ) (s : σ) :
    (d'.settle (fun _ => false) run s).1.hasPassed mark = true := by
  obtain ⟨rfl, rfl⟩ := mark?_some ok
  have running : (d.draw.announce.send (.mark d.calls)).Running := h.take rfl
  obtain ⟨_, _, worked⟩ := settle_worksOff running.toOrderly run s
  rw [Task.reached_of_harmless running.harmless] at worked
  have sent : Task.mark d.calls ∈ (d.draw.announce.send (.mark d.calls)).backlog := by
    rw [backlog_send]
    exact List.mem_append_right _ (List.mem_singleton_self _)
  rw [hasPassed, List.contains_iff_mem, worked.passed]
  exact List.mem_append_right _ (List.mem_flatMap.2 ⟨_, sent, List.mem_singleton_self _⟩)

end Dispatcher

namespace QueuedStore

open Dispatcher

variable {s : QueuedStore}

theorem turns_writer (s : QueuedStore) (steps : Nat) :
    s.turns (List.replicate steps .writer) =
      { s with
        writer := (Dispatcher.turns (fun _ => false) WriteJob.run steps s.writer s.delegate).1
        delegate := (Dispatcher.turns (fun _ => false) WriteJob.run steps s.writer s.delegate).2 } := by
  induction steps generalizing s with
  | zero => rfl
  | succ steps ih =>
      rw [List.replicate_succ]
      show (s.turn .writer).turns (List.replicate steps .writer) = _
      rw [ih]
      simp only [Dispatcher.turns, isHeld_none, Bool.false_eq_true, if_false]
      rfl

theorem turns_filer (s : QueuedStore) (steps : Nat) :
    s.turns (List.replicate steps .filer) =
      { s with
        filer := (Dispatcher.turns (fun _ => false) FileJob.run steps s.filer s.delegate).1
        delegate := (Dispatcher.turns (fun _ => false) FileJob.run steps s.filer s.delegate).2 } := by
  induction steps generalizing s with
  | zero => rfl
  | succ steps ih =>
      rw [List.replicate_succ]
      show (s.turn .filer).turns (List.replicate steps .filer) = _
      rw [ih]
      simp only [Dispatcher.turns, isHeld_none, Bool.false_eq_true, if_false]
      rfl

theorem turns_prompt (s : QueuedStore) (moment : Nat) :
    s.turns (Schedule.prompt moment s) = s.settle .allOpen := by
  unfold Schedule.prompt
  rw [QueuedStore.turns, List.foldl_append]
  show (s.turns (List.replicate s.writer.stepsLeft .writer)).turns
    (List.replicate s.filer.stepsLeft .filer) = _
  rw [turns_writer, turns_filer]
  rfl

theorem Open.flush_prompt (h : s.Open) (moment : Nat) :
    (s.flush fun s => s.turns (Schedule.prompt moment s)).1 = .ok true := by
  obtain ⟨mark, writer, marked⟩ := exists_mark? h.writes h.writing.listens
  obtain ⟨opened, _⟩ := h.markWrites marked
  have still := (opened.turns (Schedule.prompt moment { s with writer })).stillOpen
  have through : (QueuedStore.turns { s with writer }
      (Schedule.prompt moment { s with writer })).writer.hasPassed mark = true := by
    rw [turns_prompt]
    exact h.writing.hasPassed_settle marked WriteJob.run s.delegate
  simp only [QueuedStore.flush, marked, through, if_true]
  generalize QueuedStore.turns { s with writer } (Schedule.prompt moment { s with writer }) = s₁ at *
  obtain ⟨mark', filer, marked'⟩ := exists_mark? still.files still.saving.listens
  simp only [marked', turns_prompt]
  exact congrArg _ (still.saving.hasPassed_settle marked' FileJob.run _)

end QueuedStore

end FleetStore
