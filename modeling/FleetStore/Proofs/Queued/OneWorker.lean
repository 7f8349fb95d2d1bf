import FleetStore.Proofs.Queued.Shutdown

/-! # Which writes go through the queue

Three routes lead to the worker for writes: a prepared write that is run, a patched
write that is run behind a proxy, and a purge. What they hand over waits for its turn,
so it is made after all that was accepted before it and before all that is accepted
after it, and when the queue is closed nothing is taken any more. A patched write
that is run without a proxy takes none of these routes. It is made at once,
ahead of all that waits, and even when the queue has been closed.
-/

namespace FleetStore

namespace QueuedStore

variable {s : QueuedStore}

theorem purge_of_shut (gate : s.writer.accepting = false) (agent : String) :
    s.purge agent = .error .closed := by
  simp [purge, submitWrite, Dispatcher.submit?, Dispatcher.take?, gate]

end QueuedStore

namespace Service

variable {settings : Settings} {start : MemoryStore} {w w' : Service}

/-- The ticket of a call stands for the job that the call handed over. -/
theorem Leads.own_job {j : WriteJob} (later : (w.issue j).Leads w') (sound : w.Sound start) :
    ∀ task ∈ w'.writes.tasks, task.ticket = w.writes.calls → task = .job (w.writes.calls, j) := by
  intro task member own
  have there := later.tasks.2 task member (own ▸ Nat.lt_succ_self _)
  rw [tasks_issue] at there
  rcases List.mem_append.1 there with old | new
  · exact absurd own (Nat.ne_of_lt (sound.writes.tallied.ticket_lt old))
  · exact List.mem_singleton.1 new

theorem Leads.accepted_own {j j' : WriteJob} (later : (w.issue j).Leads w')
    (sound : w.Sound start) (accepted : (w.writes.calls, j') ∈ w'.writes.acceptedCalls) :
    j' = j := by
  obtain ⟨task, member, same⟩ := List.mem_filterMap.1 accepted
  cases task with
  | mark => contradiction
  | job call =>
      obtain rfl := Option.some.inj same
      have own := later.own_job sound _ (List.mem_append_left _ member) rfl
      exact (Prod.mk.inj (Task.job.inj own)).2

/-- A call that returned without failing was accepted. -/
theorem Leads.returned_own {j : WriteJob} (later : (w.issue j).Leads w') (sound : w.Sound start)
    (takes : w.Takes j) (returned : w.writes.calls ∈ w'.writes.returned) :
    (w.writes.calls, j) ∈ w'.writes.acceptedCalls := by
  have now := later.sound (sound.issue takes)
  obtain ⟨task, member, own⟩ := List.mem_map.1 (now.writes.tallied.mem_returned returned)
  obtain rfl := later.own_job sound task (List.mem_append_left _ member) own
  exact List.mem_filterMap.2 ⟨_, member, rfl⟩

/-- What the worker for writes has done are the first of the accepted calls. -/
theorem Sound.written_first (h : w.Sound start) :
    w.touches.filterMap Touch.write? <+: w.writes.acceptedCalls := by
  rw [h.written]
  exact h.writes.finishedCalls_prefix

/-- A patched write that is run without a proxy is made at once. -/
theorem Step.direct {b : BoundWrite} (known : .write b ∈ w.hands.patched)
    (unproxied : w.settings.proxied = false)
    (registered : (w.delegate.tables.get? b.category).isSome) :
    ∃ delegate, Step w { w with delegate, touches := w.touches ++ [.direct b] } := by
  obtain ⟨table, found⟩ := Option.isSome_iff_exists.1 registered
  have applied := w.delegate.applyWrite_eq b
  rw [found] at applied
  have ok := congrArg (Except.map fun delegate => { w.store with delegate }) applied
  refine ⟨_, .applyDirectly b _ known unproxied (Eq.trans ?_ ok)⟩
  have direct : ¬ w.store.settings.proxied = true := Bool.eq_false_iff.1 unproxied
  rw [QueuedStore.applyWrite, if_neg direct]
  rfl

/-- The worker for writes does the jobs of accepted calls, each once and in the order in
which they were accepted, and a job of a call that returned is among them. Besides,
only a patched write that is run without a proxy comes to the store behind the queues.
It comes there at once, whatever waits and even when the queue is closed, so a patched
write that can be made at all is kept in its turn exactly if there is a proxy. When the
queue is closed no other route takes a write or a purge any more. -/
theorem queue_is_bypassed_iff_unproxied (reached : (new settings start).Leads w) :
    (w.touches.filterMap Touch.write? <+: w.writes.acceptedCalls ∧
      (w.writes.acceptedCalls.map Prod.fst).Nodup ∧
      ∃ cache, w.delegate = { w.touches.foldl Touch.perform start with cache }) ∧
    (∀ j, w.Takes j → ∀ w', (w.issue j).Leads w' →
      (∀ j', (w.writes.calls, j') ∈ w'.writes.acceptedCalls → j' = j) ∧
      (w.writes.calls ∈ w'.writes.returned → (w.writes.calls, j) ∈ w'.writes.acceptedCalls)) ∧
    ((∀ b, .direct b ∈ w.touches → settings.proxied = false) ∧
      ∀ b, .write b ∈ w.hands.patched → (w.delegate.tables.get? b.category).isSome →
        ((∀ w', w.Leads w' → .direct b ∉ w'.touches) ↔ settings.proxied = true) ∧
        (settings.proxied = false →
          ∃ delegate, Step w { w with delegate, touches := w.touches ++ [.direct b] })) ∧
    (1 < w.phase.rank → (∀ j, ¬ w.Takes j) ∧
      (∀ agent, w.store.purge agent = .error .closed) ∧
      (settings.proxied = true → ∀ b, w.store.applyWrite b = .error .rejected) ∧
      ∀ w', w.Leads w' → w'.touches.filterMap Touch.write? <+: w.writes.acceptedCalls) := by
  have sound := reached.sound (sound_new settings start)
  have same : w.settings = settings := reached.kept.2
  refine ⟨⟨sound.written_first, sound.writes.acceptedCalls_nodup, sound.account⟩,
    fun j takes w' later => ⟨fun j' => later.accepted_own sound, later.returned_own sound takes⟩,
    ⟨fun b member => same ▸ sound.direct b member, fun b known registered => ⟨⟨?_, ?_⟩, ?_⟩⟩,
    fun late => ?_⟩
  · intro never
    cases proxied : settings.proxied with
    | true => rfl
    | false =>
        obtain ⟨delegate, step⟩ := Step.direct known (same ▸ proxied) registered
        exact absurd (List.mem_append_right _ (List.mem_singleton_self _)) (never _ (.step .here step))
  · intro proxied w' later member
    have unproxied := (later.sound sound).direct b member
    rw [later.kept.2, same, proxied] at unproxied
    contradiction
  · exact fun unproxied => Step.direct known (same ▸ unproxied) registered
  · have shut := (sound.writesGate.after late).1
    refine ⟨fun j takes => ?_, QueuedStore.purge_of_shut shut, fun proxied b => ?_,
      fun w' later => ?_⟩
    · have gate := takes.gate
      rw [shut] at gate
      contradiction
    · have behind : w.store.settings.proxied = true :=
        (congrArg Settings.proxied same).trans proxied
      rw [QueuedStore.applyWrite, if_pos behind]
      exact QueuedStore.accept_of_shut shut _
    · rw [Desk.acceptedCalls, ← (later.writes_stay sound late).1]
      exact (later.sound sound).written_first

open Site (palette colours addColour)

/-- What the compiled write is when it is patched with a colour. -/
def addOf (colour : String) : BoundWrite :=
  { category := "colours", kind := .add,
    assignments := [(⟨"colour", .scalar .string⟩, .string colour)], condition := none }

theorem bind_addColour (colour : String) :
    addColour.bind [.ofValue 0 (.string colour)] = .ok (.write (addOf colour)) := rfl

def behindProxy : Settings := { Settings.standard with proxied := true }

/-- A write has been patched behind a proxy. -/
def redInHand : Service :=
  { new behindProxy palette with
    hands := ⟨[colours], [.ofCompiled addColour], [.write (addOf "red")]⟩ }

theorem leads_redInHand : (new behindProxy palette).Leads redInHand := by
  have prepared : (new behindProxy palette).Leads _ :=
    .step .here (.handle _ _ (.prepare colours _ _ palette prepare_addColour))
  exact prepared.step
    (.handle _ _ (.patch _ _ _ (List.mem_singleton_self _) (bind_addColour "red")))

/-- The write is run and accepted, the queue is closed, and then the worker makes the write. -/
theorem proxied_write_is_queued :
    redInHand.Takes (.apply (addOf "red")) ∧
    ∃ w, (redInHand.issue (.apply (addOf "red"))).Leads w ∧ w.writes.returned = [0] ∧
      (0, .apply (addOf "red")) ∈ w.writes.acceptedCalls ∧
      w.delegate.recordCount "colours" = some 1 ∧ 1 < w.phase.rank ∧ (∀ j, ¬ w.Takes j) ∧
      w.store.applyWrite (addOf "red") = .error .rejected ∧
      ∀ w', w.Leads w' → .direct (addOf "red") ∉ w'.touches := by
  have takes : redInHand.Takes (.apply (addOf "red")) :=
    .apply _ _ (List.mem_singleton_self _) rfl rfl
  have issued := leads_redInHand.step (.issue _ takes)
  have sound := issued.sound (sound_new behindProxy palette)
  have accepted := (Leads.here (w := redInHand.issue (.apply (addOf "red")))).movesAtWrites
    [.advance 0, .advance 0, .advance 0]
  have closed := accepted.close sound (by decide +kernel) (by decide +kernel) (by decide +kernel)
  have w := closed.movesAtWrites [.turn, .turn]
  obtain ⟨_, own, _⟩ := queue_is_bypassed_iff_unproxied leads_redInHand
  obtain ⟨_, _, ⟨_, bypass⟩, shut⟩ := queue_is_bypassed_iff_unproxied (issued.trans w)
  have taken := (own _ takes _ w).2 (by decide +kernel)
  obtain ⟨never, _, rejected, _⟩ := shut (by decide +kernel)
  obtain ⟨kept, _⟩ := bypass (addOf "red") (by exact List.mem_singleton_self _) (by decide +kernel)
  exact ⟨takes, _, w, by decide +kernel, taken, by decide +kernel, by decide +kernel, never,
    rejected rfl _, kept.2 rfl⟩

/-- A write waits that was accepted first, and one that is patched and run without a proxy is
made before it. The queue is closed and the store behind it is given up, and the patched
write is run once more and made. -/
theorem patched_write_overtakes_queue : ∃ w w', (new .standard palette).Leads w ∧ w.Leads w' ∧
    w.writes.returned = [0] ∧ w.writes.left.length = 1 ∧ w.touches = [.direct (addOf "blue")] ∧
    w.delegate.recordCount "colours" = some 1 ∧
    w'.phase = .ended ∧ w'.writes.left.length = 1 ∧
    w'.touches = [.direct (addOf "blue"), .giveUp, .direct (addOf "blue")] ∧
    w'.delegate.recordCount "colours" = some 2 := by
  have patched := leads_oneAccepted.step
    (.handle _ _ (.patch _ _ _ (List.mem_singleton_self _) (bind_addColour "blue")))
  have w := patched.step (.applyDirectly (addOf "blue") _ (List.mem_singleton_self _) rfl rfl)
  have closed := (Leads.here (w := _)).close (w.sound (sound_new _ palette)) (by decide +kernel)
    (by decide +kernel) (by decide +kernel)
  have waited := closed.step (.writesAwaited false rfl nofun)
  have left := waited.step (.filesAwaited false rfl nofun)
  have given := left.step (.giveUp rfl)
  have w' := given.step (.applyDirectly (addOf "blue") _ (List.mem_singleton_self _) rfl rfl)
  exact ⟨_, _, w, w', by decide +kernel, by decide +kernel, rfl, by decide +kernel, rfl,
    by decide +kernel, rfl, by decide +kernel⟩

end Service

end FleetStore
