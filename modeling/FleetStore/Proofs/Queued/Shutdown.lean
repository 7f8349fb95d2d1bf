import FleetStore.Proofs.Queued.Prefix
import FleetStore.Proofs.Queued.Service

/-! # What is done to a store that was given up

The one who shuts a queued store down waits for the workers, but not for ever, and then
gives the store behind the queues up whether they are through or not. What they had
still to do at that moment they go on doing, in its order, and nothing else is queued
any more. So nothing queued is done to the store afterwards exactly if nothing was
left, as it is when both waits have come to their ends in time.
-/

namespace FleetStore.Service

variable {settings : Settings} {start : MemoryStore} {w w' : Service}

/-- What was done to the store behind the queues after it had been given up. -/
def afterShutdown (w : Service) : List Touch :=
  (w.touches.dropWhile fun t => !t.isGiveUp).drop 1

theorem Sound.not_given (h : w.Sound start) (now : w.phase ≠ .ended) :
    ∀ t ∈ w.touches, t.isGiveUp = false := by
  have never : w.touches.filter Touch.isGiveUp = [] := by
    rw [← List.length_eq_zero_iff, h.given, if_neg now]
  simpa using never

theorem Leads.touches_giveUp (later : w.giveUp.Leads w') (h : w.Sound start)
    (now : w.phase = .leaving) : w'.touches = w.touches ++ .giveUp :: w'.afterShutdown := by
  obtain ⟨after, same⟩ := later.kept.1
  have never := h.not_given (by simp [now])
  have passed : w'.afterShutdown = after := by
    rw [afterShutdown, ← same, giveUp, List.append_assoc,
      List.dropWhile_append_of_pos (by simpa using never)]
    simp [Touch.isGiveUp]
  rw [passed, ← same, giveUp, List.append_assoc]
  rfl

/-- What the workers have done since, with what they have still to do, is what they had to do
when the store was given up. -/
theorem Leads.afterShutdown_left (later : w.giveUp.Leads w') (h : w.Sound start)
    (now : w.phase = .leaving) :
    w'.afterShutdown.filterMap Touch.write? ++ w'.writes.left = w.writes.left ∧
      w'.afterShutdown.filterMap Touch.save? ++ w'.files.left = w.files.left := by
  have given := h.step (.giveUp now)
  have sound := later.sound given
  have touches := later.touches_giveUp h now
  have writes : w'.writes.due = w.writes.due := by
    rw [Desk.due, (later.writes_stay given (by simp [giveUp, Phase.rank])).1]
    rfl
  have files : w'.files.due = w.files.due := by
    rw [Desk.due, (later.files_stay given (by simp [giveUp, Phase.rank])).1]
    rfl
  have written := sound.written
  have saved := sound.saved
  rw [touches, List.filterMap_append, h.written] at written
  rw [touches, List.filterMap_append, h.saved] at saved
  constructor
  · rw [sound.writes.due, h.writes.due, ← written, List.append_assoc] at writes
    exact List.append_cancel_left writes
  · rw [sound.files.due, h.files.due, ← saved, List.append_assoc] at files
    exact List.append_cancel_left files

/-! ## Workers left alone -/

theorem Leads.turnWrites (h : w.Leads w') (steps : Nat) : ∃ delegate touches, w.Leads { w' with
    writes := (w'.writes.turns WriteJob.run steps w'.delegate).1, delegate, touches } := by
  induction steps generalizing w' with
  | zero => exact ⟨_, _, h⟩
  | succ steps ih =>
      have same := (Dispatcher.turn_worksOff (serve WriteJob.run) w'.writes.dispatcher
        w'.delegate).accepting
      exact ih (h.step (.atWrites _ _ .turn (.inl same)))

theorem Leads.turnFiles (h : w.Leads w') (steps : Nat) : ∃ delegate touches, w.Leads { w' with
    files := (w'.files.turns FileJob.run steps w'.delegate).1, delegate, touches } := by
  induction steps generalizing w' with
  | zero => exact ⟨_, _, h⟩
  | succ steps ih =>
      have same := (Dispatcher.turn_worksOff (serve FileJob.run) w'.files.dispatcher
        w'.delegate).accepting
      exact ih (h.step (.atFiles _ _ .turn (.inl same)))

/-- Let alone, the workers do everything that was accepted. -/
theorem Leads.settled (h : w.Leads w') (sound : w.Sound start) :
    ∃ v, w.Leads v ∧ v.writes.left = [] ∧ v.files.left = [] := by
  have now := h.sound sound
  obtain ⟨delegate, touches, written⟩ := h.turnWrites w'.writes.dispatcher.stepsLeft
  obtain ⟨delegate', touches', saved⟩ := written.turnFiles w'.files.dispatcher.stepsLeft
  refine ⟨_, saved, ?_, ?_⟩
  · exact now.writes.left_settled WriteJob.run w'.delegate
  · exact now.files.left_settled FileJob.run delegate

/-! ## The moment of giving up -/

theorem Step.ended (step : Step w w') (ended : w'.phase = .ended) :
    w.phase = .ended ∨ w.phase = .leaving ∧ w' = w.giveUp := by
  cases step with
  | giveUp now => exact .inr ⟨now, rfl⟩
  | shutDown | writesClosed | filesClosed | writesAwaited | filesAwaited => contradiction
  | handle | register | issue | applyDirectly | save | atWrites | atFiles => exact .inl ended

/-- A store that was given up was given up at some moment. -/
theorem Leads.exists_leaving (h : w.Leads w') (ended : w'.phase = .ended) :
    w.phase = .ended ∨ ∃ v, w.Leads v ∧ v.phase = .leaving ∧ v.giveUp.Leads w' := by
  induction h with
  | here => exact .inl ended
  | step before next ih =>
      rcases next.ended ended with already | ⟨now, rfl⟩
      · refine (ih already).imp_right fun ⟨v, reached, now, later⟩ => ⟨v, reached, now, later.step next⟩
      · exact .inr ⟨_, before, now, .here⟩

theorem isQueued_eq_false_iff {t : Touch} :
    t.isQueued = false ↔ t.write? = none ∧ t.save? = none := by
  cases t <;> simp [Touch.isQueued, Touch.write?, Touch.save?]

/-- Every run in which the store behind the queues is given up comes to the moment before
that. What the workers do later is the first part of what was left to them at this
moment, in its order, and it may become all of it. So nothing queued is done to the
store after it was given up exactly if both workers had nothing left, and a worker
has nothing left if the wait for it has answered that it has ended. -/
theorem unused_after_shutdown_iff_nothing_left (settings : Settings) (start : MemoryStore) :
    (∀ w', (new settings start).Leads w' → w'.phase = .ended →
      ∃ w, (new settings start).Leads w ∧ w.phase = .leaving ∧ w.giveUp.Leads w') ∧
    ∀ w, (new settings start).Leads w → w.phase = .leaving →
      ((∀ w', w.giveUp.Leads w' → ∀ t ∈ w'.afterShutdown, t.isQueued = false) ↔
        w.writes.left = [] ∧ w.files.left = []) ∧
      (w.writesDrained = true → w.writes.left = []) ∧
      (w.filesDrained = true → w.files.left = []) ∧
      (∃ w', w.giveUp.Leads w' ∧ w'.afterShutdown.filterMap Touch.write? = w.writes.left ∧
        w'.afterShutdown.filterMap Touch.save? = w.files.left) ∧
      ∀ w', w.giveUp.Leads w' →
        w'.touches = w.touches ++ .giveUp :: w'.afterShutdown ∧
        w'.afterShutdown.filterMap Touch.write? ++ w'.writes.left = w.writes.left ∧
        w'.afterShutdown.filterMap Touch.save? ++ w'.files.left = w.files.left ∧
        ∃ cache, w'.delegate = { w'.touches.foldl Touch.perform start with cache } := by
  refine ⟨fun w' reached ended => (reached.exists_leaving ended).resolve_left nofun,
    fun w reached now => ?_⟩
  have sound := reached.sound (sound_new settings start)
  have given := sound.step (.giveUp now)
  obtain ⟨v, settled, writes, files⟩ := (Leads.here (w := w.giveUp)).settled given
  obtain ⟨written, saved⟩ := settled.afterShutdown_left sound now
  rw [writes, List.append_nil] at written
  rw [files, List.append_nil] at saved
  refine ⟨⟨fun unused => ⟨?_, ?_⟩, fun ⟨noWrites, noFiles⟩ w' later t member => ?_⟩,
    fun drained => sound.writes.left_of_ended (sound.writesDrained drained),
    fun drained => sound.files.left_of_ended (sound.filesDrained drained),
    ⟨v, settled, written, saved⟩, fun w' later => ?_⟩
  · rw [← written, List.filterMap_eq_nil_iff]
    exact fun t member => (isQueued_eq_false_iff.1 (unused v settled t member)).1
  · rw [← saved, List.filterMap_eq_nil_iff]
    exact fun t member => (isQueued_eq_false_iff.1 (unused v settled t member)).2
  · obtain ⟨writes, files⟩ := later.afterShutdown_left sound now
    rw [noWrites, List.append_eq_nil_iff] at writes
    rw [noFiles, List.append_eq_nil_iff] at files
    exact isQueued_eq_false_iff.2 ⟨List.filterMap_eq_nil_iff.1 writes.1 t member,
      List.filterMap_eq_nil_iff.1 files.1 t member⟩
  · obtain ⟨writes, files⟩ := later.afterShutdown_left sound now
    exact ⟨later.touches_giveUp sound now, writes, files, (later.sound given).account⟩

open Site (palette colours addColour)

theorem prepare_addColour :
    palette.prepare colours addColour.descriptor = .ok (.ofCompiled addColour, palette) := by
  simp [MemoryStore.prepare, Descriptor.Cache.getOrCompile, Descriptor.Cache.find?, palette,
    Except.map]

/-- A write was accepted, and the worker has not come to it. -/
def oneAccepted : Service :=
  let red : Prepared := ⟨addColour, [some (.string "red")]⟩
  [.advance 0, .advance 0, .advance 0].foldl moveAtWrites
    ({ new .standard palette with hands := ⟨[colours], [red], []⟩ }.issue (.execute red))

theorem leads_oneAccepted : (new .standard palette).Leads oneAccepted := by
  have prepared : (new .standard palette).Leads _ :=
    .step .here (.handle _ _ (.prepare colours _ _ palette prepare_addColour))
  have set := prepared.step (.handle _ _ (.set [] _ [] 0 (.string "red") rfl))
  have called := set.step (.issue _ (.execute _ _ (List.mem_singleton_self _) rfl))
  exact called.movesAtWrites [.advance 0, .advance 0, .advance 0]

theorem leads_oneAccepted_closed : (new .standard palette).Leads oneAccepted.closed :=
  leads_oneAccepted.close (sound_new _ palette) (by decide +kernel) (by decide +kernel)
    (by decide +kernel)

/-- Both waits end in time, and the one write that was accepted is made before. -/
theorem drained_store_is_unused : ∃ w, (new .standard palette).Leads w ∧ w.phase = .leaving ∧
    w.writesDrained = true ∧ w.filesDrained = true ∧
    w.delegate.recordCount "colours" = some 1 ∧
    (∃ v, (new .standard palette).Leads v ∧ v.phase = .leaving ∧ v.giveUp.Leads w.giveUp) ∧
    ∀ w', w.giveUp.Leads w' → ∀ t ∈ w'.afterShutdown, t.isQueued = false := by
  have drained := leads_oneAccepted_closed.movesAtWrites [.turn, .turn, .turn, .turn]
  have idle := drained.movesAtFiles [.turn]
  have waited := idle.step
    (.writesAwaited true (by decide +kernel) fun _ => by decide +kernel)
  have w := waited.step
    (.filesAwaited true rfl fun _ => by decide +kernel)
  obtain ⟨moment, all⟩ := unused_after_shutdown_iff_nothing_left .standard palette
  obtain ⟨unused, noWrites, noFiles, _⟩ := all _ w rfl
  exact ⟨_, w, rfl, rfl, rfl, by decide +kernel, moment _ (w.step (.giveUp rfl)) rfl,
    unused.2 ⟨noWrites rfl, noFiles rfl⟩⟩

/-- Both waits are over before the worker has come to the one write that was accepted. The
store is given up, and then the write is made. -/
theorem written_after_shutdown : ∃ w, (new .standard palette).Leads w ∧
    w.writes.returned = [0] ∧ w.writes.rejected = [] ∧
    (∃ t ∈ w.afterShutdown, t.isQueued = true) ∧
    w.delegate.connection.status = .disconnected ∧ w.delegate.recordCount "colours" = some 1 := by
  have waited := leads_oneAccepted_closed.step (.writesAwaited false rfl nofun)
  have left := waited.step (.filesAwaited false rfl nofun)
  have given := left.step (.giveUp rfl)
  have w := given.movesAtWrites [.turn, .turn]
  exact ⟨_, w, by decide +kernel, by decide +kernel, by decide +kernel, by decide +kernel,
    by decide +kernel⟩

end FleetStore.Service
