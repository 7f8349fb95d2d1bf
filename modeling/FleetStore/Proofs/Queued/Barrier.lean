import FleetStore.Proofs.Dispatch.Barrier
import FleetStore.Proofs.Queued.Calls
import FleetStore.Proofs.Queued.OneWorker

/-! # Flushes and the end of a queued store

A flush passes a mark through the queue for writes and then one through the queue for files,
so when it answers, all that was accepted before it has been done to the store behind the
queues. Shutting down comes to its end whatever the workers do, gives that store up once
and only after both queues were closed, and then nothing is queued any more. A patched
write that is run without a proxy is the one call that is still taken. Whoever waits for
the worker for files is told that it is through also when a file was fatal to it.
-/

namespace FleetStore

/-! ## Saved files -/

/-- Whether a job saves a file of a name: it has that name and can be read. -/
def FileJob.stores (name : String) (j : FileJob) : Bool :=
  j.name = name ∧ j.source.failure = none

/-- The bytes of the last of some calls that saves a file of a name. -/
def lastSaved (name : String) (calls : List (Ticketed FileJob)) : Option (List UInt8) :=
  (calls.reverse.find? fun call => call.2.stores name).map fun call => call.2.source.bytes

theorem FileJob.get?_saveTo (j : FileJob) (files : Dict (List UInt8)) (name : String) :
    (j.saveTo files).get? name = if j.stores name then some j.source.bytes else files.get? name := by
  unfold saveTo stores
  cases j.source.failure with
  | some reason => simp
  | none => simp

theorem lastSaved_append (name : String) (first more : List (Ticketed FileJob)) :
    lastSaved name (first ++ more) = (lastSaved name more).or (lastSaved name first) := by
  simp only [lastSaved, List.reverse_append, List.find?_append]
  cases more.reverse.find? fun call => call.2.stores name <;> rfl

theorem lastSaved_eq_none {name : String} {calls : List (Ticketed FileJob)}
    (h : ∀ call ∈ calls, call.2.stores name = false) : lastSaved name calls = none := by
  have none : (calls.reverse.find? fun call => call.2.stores name) = none :=
    List.find?_eq_none.2 fun call member => by simp [h call (List.mem_reverse.1 member)]
  rw [lastSaved, none, Option.map_none]

/-- A file is the last one of its name that was saved, or was there before. -/
theorem get?_foldl_saveTo (calls : List (Ticketed FileJob)) (files : Dict (List UInt8))
    (name : String) : (calls.foldl (fun files call => call.2.saveTo files) files).get? name =
      (lastSaved name calls).or (files.get? name) := by
  induction calls generalizing files with
  | nil => rfl
  | cons call rest ih =>
      have one : lastSaved name [call] = if call.2.stores name then some call.2.source.bytes else none := by
        unfold lastSaved
        cases stored : call.2.stores name <;> simp [stored]
      rw [List.foldl_cons, ih, FileJob.get?_saveTo, ← List.singleton_append, lastSaved_append, one,
        Option.or_assoc]
      congr 1
      split <;> rfl

/-- Only the worker for files touches the files. -/
theorem Touch.files_perform (t : Touch) (m : MemoryStore) :
    (t.perform m).files = t.save?.elim m.files fun call => call.2.saveTo m.files := by
  cases t with
  | write call =>
      have same : perform m (.write call) = { m with tables := _ } := call.2.attempt_eq m
      rw [same]
      rfl
  | save call => exact congrArg MemoryStore.files (call.2.attempt_run m)
  | direct w =>
      have same : perform m (.direct w) = { m with tables := _ } := m.attempt_applyWrite w
      rw [same]
      rfl
  | register c =>
      simp only [perform, Dispatcher.attempt, MemoryStore.register]
      cases m.tables.get? c.name with
      | none => rfl
      | some t => by_cases same : t.keys = c.keys <;> simp [same, save?]
  | giveUp => rfl

theorem Touch.files_foldl (touches : List Touch) (m : MemoryStore) :
    (touches.foldl perform m).files =
      (touches.filterMap save?).foldl (fun files call => call.2.saveTo files) m.files := by
  induction touches generalizing m with
  | nil => rfl
  | cons t rest ih =>
      rw [List.foldl_cons, ih, files_perform, List.filterMap_cons]
      cases t.save? <;> rfl

namespace QueuedStore

variable {s : QueuedStore}

theorem saveFile_of_shut (gate : s.filer.accepting = false) (name : String) (source : FileSource) :
    s.saveFile name source = .error .closed := by
  simp [saveFile, Dispatcher.submit?, Dispatcher.take?, gate]

theorem flush_of_shut (gate : s.writer.accepting = false) (wait : QueuedStore → QueuedStore) :
    s.flush wait = (.error .closed, s) := by
  simp [flush, Dispatcher.mark?, Dispatcher.take?, gate]

/-- Whatever is wrong with it otherwise, no prepared write is taken. -/
theorem execute_of_shut (gate : s.writer.accepting = false) (statement : Prepared) :
    ∃ e, s.execute statement = .error e ∧
      (s.settings.proxied = false → statement.compiled.kind.isQuery = false →
        ∀ params, statement.parameters = .ok params → e = .rejected) := by
  cases proxied : s.settings.proxied with
  | true => exact ⟨.proxied, by simp [execute, proxied], nofun⟩
  | false =>
      cases query : statement.compiled.kind.isQuery with
      | true => exact ⟨.notAWrite, by simp [execute, proxied, query], nofun⟩
      | false =>
          cases given : statement.parameters with
          | error e => exact ⟨.patch e, by simp [execute, proxied, query, given], nofun⟩
          | ok params =>
              exact ⟨.rejected, by simp [execute, proxied, query, given, accept_of_shut gate],
                fun _ _ _ _ => rfl⟩

end QueuedStore

namespace Service

variable {settings : Settings} {start : MemoryStore} {w v w' w'' : Service}

theorem Sound.loadFile_eq (h : w.Sound start) (name : String) :
    w.delegate.loadFile name = (lastSaved name w.files.finishedCalls).or (start.loadFile name) := by
  obtain ⟨cache, account⟩ := h.account
  rw [account, ← h.saved]
  show (w.touches.foldl Touch.perform start).files.get? name = _
  rw [Touch.files_foldl, get?_foldl_saveTo]
  rfl

/-! ## Both desks -/

/-- The books of both desks are in order. -/
structure Booked (w : Service) : Prop where
  writes : w.writes.Booked
  files : w.files.Booked

theorem booked_new (settings : Settings) (start : MemoryStore) : (new settings start).Booked :=
  ⟨Desk.booked_new _, Desk.booked_new _⟩

theorem Booked.step (h : w.Booked) (step : Step w w') : w'.Booked := by
  obtain ⟨writes, files⟩ := h
  cases step with
  | issue j takes =>
      have step : Desk.Step (fun _ => True) WriteJob.run w.writes w.delegate
        (w.writes.enter (.submit j)) w.delegate := .enter (.submit j) trivial takes.gate
      exact ⟨writes.step step, files⟩
  | save name source gate =>
      have step : Desk.Step (fun _ => True) FileJob.run w.files w.delegate
        (w.files.enter (.submit ⟨name, source⟩)) w.delegate := .enter _ trivial gate
      exact ⟨writes, files.step step⟩
  | atWrites _ _ step => exact ⟨writes.step step, files⟩
  | atFiles _ _ step => exact ⟨writes, files.step step⟩
  | handle | register | applyDirectly | shutDown | writesClosed | filesClosed | writesAwaited
  | filesAwaited | giveUp => exact ⟨writes, files⟩

theorem Leads.booked (h : w.Leads w') (booked : w.Booked) : w'.Booked := by
  induction h with
  | here => exact booked
  | step _ next ih => exact ih.step next

theorem Step.accepted_prefix (step : Step w w') :
    w.writes.accepted <+: w'.writes.accepted ∧ w.files.accepted <+: w'.files.accepted := by
  cases step with
  | atWrites _ _ step => exact ⟨step.accepted_prefix, List.prefix_refl _⟩
  | atFiles _ _ step => exact ⟨List.prefix_refl _, step.accepted_prefix⟩
  | issue | save | handle | register | applyDirectly | shutDown | writesClosed | filesClosed
  | writesAwaited | filesAwaited | giveUp => exact ⟨List.prefix_refl _, List.prefix_refl _⟩

theorem Leads.accepted_prefix (h : w.Leads w') :
    w.writes.accepted <+: w'.writes.accepted ∧ w.files.accepted <+: w'.files.accepted := by
  induction h with
  | here => exact ⟨List.prefix_refl _, List.prefix_refl _⟩
  | step _ next ih =>
      exact ⟨ih.1.trans next.accepted_prefix.1, ih.2.trans next.accepted_prefix.2⟩

/-! ## Flushes -/

/-- What the answer of a flush says of the state in which it is given. -/
structure Flushed (start : MemoryStore) (w w' : Service) : Prop where
  /-- All writes and purges that were accepted before the flush are made, in their order. -/
  written : w.writes.acceptedCalls <+: w'.touches.filterMap Touch.write?
  saved : w.files.acceptedCalls <+: w'.touches.filterMap Touch.save?
  /-- That they are made means that they have made the store behind the queues what it is. -/
  account : ∃ cache, w'.delegate = { w'.touches.foldl Touch.perform start with cache }
  /-- A file is the last of its name that was accepted before the flush and can be read, as long
  as no further one is accepted. -/
  loaded : ∀ name w'', w'.Leads w'' →
    (∀ call ∈ w''.files.acceptedCalls, call.2.stores name = true → call ∈ w.files.acceptedCalls) →
      w''.delegate.loadFile name = (lastSaved name w.files.acceptedCalls).or (start.loadFile name)

theorem Sound.loadFile_of_saved (h : w'.Sound start) {name : String} {calls : List (Ticketed FileJob)}
    (saved : calls <+: w'.files.finishedCalls)
    (last : ∀ call ∈ w'.files.acceptedCalls, call.2.stores name = true → call ∈ calls) :
    w'.delegate.loadFile name = (lastSaved name calls).or (start.loadFile name) := by
  obtain ⟨more, finished⟩ := saved
  have first := h.files.finishedCalls_prefix
  have once := (first.sublist.map Prod.fst).nodup h.files.acceptedCalls_nodup
  rw [← finished, List.map_append, List.nodup_append] at once
  have others : ∀ call ∈ more, call.2.stores name = false := fun call member => by
    cases stored : call.2.stores name with
    | false => rfl
    | true =>
        have accepted : call ∈ w'.files.acceptedCalls :=
          first.subset (finished ▸ List.mem_append_right _ member)
        exact absurd rfl (once.2.2 _ (List.mem_map_of_mem (last call accepted stored)) _
          (List.mem_map_of_mem member))
  rw [h.loadFile_eq, ← finished, lastSaved_append, lastSaved_eq_none others, Option.none_or]

theorem Flush.flushed (h : w.Flush v w') (sound : w.Sound start) (booked : w.Booked) :
    Flushed start w w' := by
  obtain ⟨first, second⟩ := h.leads
  have soundV := first.sound sound
  have bookedV := first.booked booked
  have sound' := second.sound soundV
  have writes : w.writes.accepted <+: v.writes.finished :=
    soundV.writes.finished_of_passed bookedV.writes first.accepted_prefix.1 sound.writes.fresh
      h.writesPassed
  have files : v.files.accepted <+: w'.files.finished :=
    sound'.files.finished_of_passed (second.booked bookedV).files second.accepted_prefix.2
      soundV.files.fresh h.filesPassed
  have written : w.writes.acceptedCalls <+: w'.touches.filterMap Touch.write? := by
    refine List.IsPrefix.trans ?_ (second.kept.1.filterMap Touch.write?)
    rw [soundV.written]
    exact writes.filterMap Task.call?
  have saved : w.files.acceptedCalls <+: w'.files.finishedCalls :=
    (first.accepted_prefix.2.trans files).filterMap Task.call?
  refine ⟨written, sound'.saved ▸ saved, sound'.account, fun name w'' later last => ?_⟩
  have sound'' := later.sound sound'
  refine sound''.loadFile_of_saved ?_ last
  rw [← sound''.saved]
  exact (sound'.saved ▸ saved).trans (later.kept.1.filterMap Touch.save?)

/-! ## The end -/

/-- Shutting down can always go on: the clients inside a gate leave, and no wait is for ever. -/
theorem exists_next_phase (going : w.phase ≠ .ended) :
    ∃ v, w.Leads v ∧ v.phase.rank = w.phase.rank + 1 := by
  cases now : w.phase with
  | running => exact ⟨_, .step .here (.shutDown now), rfl⟩
  | closingWrites =>
      obtain ⟨k, steps, gate, sent⟩ := w.writes.exists_closes (· = .flush) WriteJob.run w.delegate
      obtain ⟨touches, reached⟩ := Leads.here.stepsAtWrites steps (.inr now)
      exact ⟨_, reached.step (.writesClosed now gate sent), rfl⟩
  | closingFiles =>
      obtain ⟨k, steps, gate, sent⟩ := w.files.exists_closes (· = .flush) FileJob.run w.delegate
      obtain ⟨touches, reached⟩ := Leads.here.stepsAtFiles steps (.inr now)
      exact ⟨_, reached.step (.filesClosed now gate sent), rfl⟩
  | awaitingWrites => exact ⟨_, .step .here (.writesAwaited false now nofun), rfl⟩
  | awaitingFiles => exact ⟨_, .step .here (.filesAwaited false now nofun), rfl⟩
  | leaving => exact ⟨_, .step .here (.giveUp now), rfl⟩
  | ended => exact absurd now going

theorem exists_end (w : Service) : ∃ v, w.Leads v ∧ v.phase = .ended := by
  generalize left : Phase.ended.rank - w.phase.rank = n
  induction n generalizing w with
  | zero =>
      refine ⟨w, .here, Phase.rank_inj ?_⟩
      cases now : w.phase <;> simp [now, Phase.rank] at left ⊢
  | succ n ih =>
      have going : w.phase ≠ .ended := fun now => by simp [now] at left
      obtain ⟨v, first, onward⟩ := exists_next_phase going
      obtain ⟨u, later, ended⟩ := ih v (by omega)
      exact ⟨u, first.trans later, ended⟩

/-- Shutting down as the giving up of the store behind the queues shows it. -/
structure ShutDown (settings : Settings) (start : MemoryStore) (w : Service) : Prop where
  /-- The store is given up when shutting down ends, and at no other time. -/
  once : (w.touches.filter Touch.isGiveUp).length = if w.phase = .ended then 1 else 0
  /-- Every shutdown but the first does nothing. -/
  again : w.phase ≠ .running → ∀ wait, w.store.shutdown wait = w.store
  ends : ∃ v, w.Leads v ∧ v.phase = .ended
  /-- At the moment before the store is given up both queues are closed. If the wait for the
  worker for writes has answered that it is through, all writes and purges are made that
  were ever accepted; and so are all files saved for the other, unless one was fatal to it. -/
  moment : w.phase = .ended → ∃ v, (new settings start).Leads v ∧ v.phase = .leaving ∧
    v.giveUp.Leads w ∧
    (v.writes.dispatcher.accepting = false ∧ v.writes.closing = false) ∧
    (v.files.dispatcher.accepting = false ∧ v.files.closing = false) ∧
    (v.writesDrained = true → v.writes.Over ∧
      v.touches.filterMap Touch.write? = w.writes.acceptedCalls) ∧
    (v.filesDrained = true →
      (v.files.Over ↔ ∀ call ∈ w.files.acceptedCalls, Fatal.isFatal call.2 = false) ∧
      (v.files.Over → v.touches.filterMap Touch.save? = w.files.acceptedCalls))

theorem finishedCalls_of_over {Job : Type} {k : Desk Job} (h : k.Over) :
    k.finishedCalls = k.acceptedCalls :=
  congrArg (List.filterMap Task.call?) h.finished

/-- Marks are not fatal. -/
theorem harmless_iff {Job : Type} [Fatal Job] {k : Desk Job} :
    (∀ task ∈ k.accepted, task.isFatal = false) ↔
      ∀ call ∈ k.acceptedCalls, Fatal.isFatal call.2 = false := by
  refine ⟨fun h call member => ?_, fun h task member => ?_⟩
  · obtain ⟨task, accepted, same⟩ := List.mem_filterMap.1 member
    cases task with
    | mark => contradiction
    | job => exact Option.some.inj same ▸ h _ accepted
  · cases task with
    | mark => rfl
    | job call => exact h call (List.mem_filterMap.2 ⟨_, member, rfl⟩)

theorem Leads.shutDown (reached : (new settings start).Leads w) : ShutDown settings start w := by
  have sound := reached.sound (sound_new settings start)
  refine ⟨sound.given, fun later wait => ?_, w.exists_end, fun ended => ?_⟩
  · have done : w.store.shutDown = true := by simpa [Service.store, QueuedStore.ofDesks] using later
    rw [QueuedStore.shutdown, if_pos done]
  · obtain ⟨v, before, now, after⟩ := (reached.exists_leaving ended).resolve_left (by simp [new])
    have soundV := before.sound (sound_new settings start)
    have bookedV := before.booked (booked_new settings start)
    have given := soundV.step (.giveUp now)
    have writes : w.writes.accepted = v.writes.accepted :=
      (after.writes_stay given (by simp [giveUp, Phase.rank])).1
    have files : w.files.accepted = v.files.accepted :=
      (after.files_stay given (by simp [giveUp, Phase.rank])).1
    refine ⟨v, before, now, after, soundV.writesGate.after (by simp [now, Phase.rank]),
      soundV.filesGate.after (by simp [now, Phase.rank]), fun drained => ?_, fun drained => ?_⟩
    · have isOver := (soundV.writes.isOver_iff bookedV.writes (soundV.writesDrained drained)).2
        fun task _ => Desk.isFatal_of_harmless WriteJob.harmless task
      rw [Desk.acceptedCalls, writes, soundV.written]
      exact ⟨isOver, finishedCalls_of_over isOver⟩
    · rw [Desk.acceptedCalls, files, soundV.saved]
      exact ⟨(soundV.files.isOver_iff bookedV.files (soundV.filesDrained drained)).trans harmless_iff,
        finishedCalls_of_over⟩

/-! ## Afterwards -/

/-- What comes of calls when both queues are closed. A call that fails changes nothing, and the
queues change by nothing but the turns of their workers. -/
structure Closed (w : Service) : Prop where
  execute : ∀ statement, ∃ e, w.store.execute statement = .error e ∧
    (w.settings.proxied = false → statement.compiled.kind.isQuery = false →
      ∀ params, statement.parameters = .ok params → e = .rejected)
  purge : ∀ agent, w.store.purge agent = .error .closed
  saveFile : ∀ name source, w.store.saveFile name source = .error .closed
  flush : ∀ wait, w.store.flush wait = (.error .closed, w.store)
  /-- A patched write that could be made is rejected exactly if there is a proxy. -/
  patched : ∀ b, (w.delegate.tables.get? b.category).isSome →
    (w.store.applyWrite b = .error .rejected ↔ w.settings.proxied = true)
  /-- One that is taken does not come to the queues. -/
  unqueued : ∀ b s, w.store.applyWrite b = .ok s →
    s.writer = w.store.writer ∧ s.filer = w.store.filer
  rest : ∀ w', Step w w' →
    (w'.writes.dispatcher = w.writes.dispatcher ∨
      w'.writes = (w.writes.turn WriteJob.run w.delegate).1) ∧
    (w'.files.dispatcher = w.files.dispatcher ∨
      w'.files = (w.files.turn FileJob.run w.delegate).1)

theorem Sound.queues_rest (h : w.Sound start) (late : 2 < w.phase.rank) (step : Step w w') :
    (w'.writes.dispatcher = w.writes.dispatcher ∨
      w'.writes = (w.writes.turn WriteJob.run w.delegate).1) ∧
    (w'.files.dispatcher = w.files.dispatcher ∨
      w'.files = (w.files.turn FileJob.run w.delegate).1) := by
  obtain ⟨writesGate, writesSent⟩ := h.writesGate.after (Nat.lt_of_succ_lt late)
  obtain ⟨filesGate, filesSent⟩ := h.filesGate.after late
  cases step with
  | issue j takes =>
      have gate := takes.gate
      rw [writesGate] at gate
      contradiction
  | save name source gate =>
      rw [filesGate] at gate
      contradiction
  | atWrites _ _ step => exact ⟨step.of_closed h.writes.guarded writesGate writesSent, .inl rfl⟩
  | atFiles _ _ step => exact ⟨.inl rfl, step.of_closed h.files.guarded filesGate filesSent⟩
  | handle | register | applyDirectly | shutDown | writesClosed | filesClosed | writesAwaited
  | filesAwaited | giveUp => exact ⟨.inl rfl, .inl rfl⟩

theorem Sound.closed (h : w.Sound start) (late : 2 < w.phase.rank) : w.Closed := by
  have writesGate : w.store.writer.accepting = false :=
    (h.writesGate.after (Nat.lt_of_succ_lt late)).1
  have filesGate : w.store.filer.accepting = false := (h.filesGate.after late).1
  refine ⟨QueuedStore.execute_of_shut writesGate, QueuedStore.purge_of_shut writesGate,
    QueuedStore.saveFile_of_shut filesGate, QueuedStore.flush_of_shut writesGate,
    fun b registered => ?_, fun b s taken => ?_, fun w' => h.queues_rest late⟩
  · cases proxied : w.settings.proxied with
    | true =>
        have behind : w.store.settings.proxied = true := proxied
        rw [QueuedStore.applyWrite, if_pos behind]
        simpa using QueuedStore.accept_of_shut writesGate (.apply b)
    | false =>
        obtain ⟨table, found⟩ := Option.isSome_iff_exists.1 registered
        have applied := w.delegate.applyWrite_eq b
        rw [found] at applied
        simp [QueuedStore.applyWrite, Service.store, proxied, applied, Except.map]
  · unfold QueuedStore.applyWrite at taken
    split at taken
    · rw [QueuedStore.accept_of_shut writesGate] at taken
      contradiction
    · obtain ⟨delegate, _, rfl⟩ := map_eq_ok_iff.1 taken
      exact ⟨rfl, rfl⟩

/-- Flushes are barriers at every dispatcher, whatever its jobs are, and so they are for a queued
store. Waits are barriers unless a job was accepted that is fatal to the worker. Shutting a
queued store down gives the store behind the queues up exactly once, and from the closing of
the queues on nothing comes to them any more. What is rejected then is everything but
the patched writes that are run without a proxy. All this is said of what the queued store
itself makes of its calls. -/
theorem flush_and_shutdown_are_barriers (settings : Settings) (start : MemoryStore) (w : Service)
    (reached : (new settings start).Leads w) :
    (∀ (Job σ ε : Type) [Fatal Job] (asks : Request Job → Prop) (run : Job → σ → Except ε σ)
      (name : String) (s s' : σ) (k : Desk Job), Desk.Reachable asks run name s k s' → asks .flush →
        k.Barriers asks run s') ∧
    (∀ v w', w.Flush v w' → Flushed start w w') ∧
    ShutDown settings start w ∧
    (2 < w.phase.rank → ∀ w', w.Leads w' → 2 < w'.phase.rank ∧ w'.Closed) ∧
    w.Mirrors := by
  have sound := reached.sound (sound_new settings start)
  have booked := reached.booked (booked_new settings start)
  refine ⟨fun _ _ _ _ _ _ _ _ _ _ desk may => desk.barriers may, fun v w' flush =>
    flush.flushed sound booked, reached.shutDown, fun late w' later => ?_, sound.mirrors⟩
  have stays := (later.files_stay sound late).2
  exact ⟨stays, (later.sound sound).closed stays⟩

open Site (palette colours addColour)
open Desk (Jotting jot)

/-- The first client inside the gate counts its task, sends it and leaves, and the worker goes on. -/
def sends {Job : Type} (turns : Nat) : List (Desk.Move Job) :=
  [.advance 0, .advance 0, .advance 0] ++ List.replicate turns .turn

/-- A write and two files were accepted, and the second file cannot be read. -/
def noted : Service :=
  let saving (w : Service) (source : FileSource) : Service :=
    (sends 0).foldl moveAtFiles { w with files := w.files.enter (.submit ⟨"notes", source⟩) }
  let called := (sends 0).foldl moveAtWrites (redInHand.issue (.apply (addOf "red")))
  saving (saving called ⟨[7], .whole⟩) ⟨[8], .torn "torn"⟩

theorem leads_noted : (new behindProxy palette).Leads noted := by
  have issued := leads_redInHand.step (.issue _ (.apply _ _ (List.mem_singleton_self _) rfl rfl))
  have called := issued.movesAtWrites (sends 0)
  have first := called.step (.save "notes" ⟨[7], .whole⟩ rfl)
  have saved := first.movesAtFiles (sends 0)
  have second := saved.step (.save "notes" ⟨[8], .torn "torn"⟩ rfl)
  exact second.movesAtFiles (sends 0)

def writesFlushed : Service :=
  (sends 6).foldl moveAtWrites noted.markWrites

def notesFlushed : Service :=
  (sends 9).foldl moveAtFiles writesFlushed.markFiles

theorem flush_noted : noted.Flush writesFlushed notesFlushed where
  writesGate := by decide +kernel
  toFiles := Leads.here.movesAtWrites (sends 6)
  writesPassed := by decide +kernel
  filesGate := by decide +kernel
  toAnswer := Leads.here.movesAtFiles (sends 9)
  filesPassed := by decide +kernel

theorem leads_notesFlushed : (new behindProxy palette).Leads notesFlushed :=
  leads_noted.trans (flush_noted.leads.1.trans flush_noted.leads.2)

/-- The service after both workers were waited for in time and the store was given up. -/
def drained (w : Service) : Service :=
  giveUp { w with phase := .leaving, writesDrained := true, filesDrained := true }

theorem Leads.drain (h : w.Leads w') (now : w'.phase = .awaitingWrites)
    (writes : w'.writes.dispatcher.hasStopped = true)
    (files : w'.files.dispatcher.hasStopped = true) : w.Leads w'.drained := by
  have waited := h.step (.writesAwaited true now fun _ => writes)
  have left := waited.step (.filesAwaited true rfl fun _ => files)
  exact left.step (.giveUp rfl)

def notesEnded : Service :=
  drained ([.turn, .turn].foldl moveAtFiles ([.turn, .turn].foldl moveAtWrites notesFlushed.closed))

theorem leads_notesEnded : (new behindProxy palette).Leads notesEnded := by
  have closed := leads_notesFlushed.close (sound_new _ palette) (by decide +kernel)
    (by decide +kernel) (by decide +kernel)
  have stopped := (closed.movesAtWrites [.turn, .turn]).movesAtFiles [.turn, .turn]
  exact stopped.drain (by decide +kernel) (by decide +kernel) (by decide +kernel)

/-- A desk at which one job was accepted, with the state. -/
def jotted : Desk Jotting × List Nat :=
  (Desk.new "worker").moves (fun _ => True) jot (.enter (.submit (.write 5)) :: sends 0) []

/-- The desk after a flush and the closing of its dispatcher. -/
def jottedOver : Desk Jotting × List Nat :=
  (jotted.1.enter .flush).moves (fun _ => True) jot (sends 6 ++ [.shut, .sendStop, .turn]) jotted.2

/-- A write and two files are flushed, and the file that could be read is loaded. Then the store
is shut down, both waits end in time, and the write is rejected. At a dispatcher alone,
a flush and a wait show that the one job that was accepted is done. -/
theorem flushed_file_is_loaded :
    (new behindProxy palette).Leads noted ∧ noted.Flush writesFlushed notesFlushed ∧
    notesFlushed.delegate.recordCount "colours" = some 1 ∧
    notesFlushed.delegate.loadFile "notes" = some [7] ∧
    (new behindProxy palette).Leads notesEnded ∧ notesEnded.phase = .ended ∧
    (notesEnded.touches.filter Touch.isGiveUp).length = 1 ∧
    notesEnded.store.flush id = (.error .closed, notesEnded.store) ∧
    notesEnded.store.saveFile "notes" ⟨[9], .whole⟩ = .error .closed ∧
    notesEnded.store.purge "red" = .error .closed ∧
    notesEnded.store.applyWrite (addOf "red") = .error .rejected ∧
    jotted.1.accepted = [.job (0, .write 5)] ∧ jotted.1.accepted <+: jottedOver.1.finished ∧
    jottedOver.1.Over := by
  obtain ⟨desks, flushed, _⟩ := flush_and_shutdown_are_barriers _ _ noted leads_noted
  have loaded := (flushed _ _ flush_noted).loaded "notes" notesFlushed .here (by decide +kernel)
  obtain ⟨_, _, shutDown, afterwards⟩ :=
    flush_and_shutdown_are_barriers _ _ notesEnded leads_notesEnded
  obtain ⟨_, closed⟩ := afterwards.1 (by decide +kernel) notesEnded .here
  have rejected := (closed.patched (addOf "red") (by decide +kernel)).2 (by decide +kernel)
  have accepted : Desk.Reachable (fun _ => True) jot "worker" [] jotted.1 jotted.2 :=
    Desk.Reachable.start.moves _
  have marked := accepted.step (.enter .flush trivial (by decide +kernel))
  have later : Desk.Steps (fun _ => True) jot (jotted.1.enter .flush) jotted.2 jottedOver.1
    jottedOver.2 := Desk.steps_moves _ _ _ _ _
  have flush := (desks _ _ _ _ _ _ _ _ _ accepted trivial).flush (by decide +kernel)
  obtain ⟨first, done⟩ := flush _ _ .here (by decide +kernel) _ _ later (by decide +kernel)
  have ended := (desks _ _ _ _ _ _ _ _ _ (later.reachable marked) trivial).wait (by decide +kernel)
  have isOver := (ended _ _ .here).2.2.2 (by decide +kernel)
  exact ⟨leads_noted, flush_noted, by decide +kernel, loaded.trans (by decide +kernel),
    leads_notesEnded, rfl, shutDown.once, closed.flush id, closed.saveFile _ _, closed.purge _,
    rejected, rfl, first.trans done, isOver⟩

/-- After a store was shut down and given up with both workers through, a write that was
patched before is run without a proxy, and is made and not rejected. -/
theorem patched_write_is_taken_when_closed : ∃ w, (new .standard palette).Leads w ∧
    w.phase = .ended ∧ w.writesDrained = true ∧ w.filesDrained = true ∧
    .write (addOf "blue") ∈ w.hands.patched ∧ w.delegate.recordCount "colours" = some 1 ∧
    ∃ s, w.store.applyWrite (addOf "blue") = .ok s ∧ s.delegate.recordCount "colours" = some 2 := by
  have patched := leads_oneAccepted.step
    (.handle _ _ (.patch _ _ _ (List.mem_singleton_self _) (bind_addColour "blue")))
  have closed := patched.close (sound_new _ palette) (by decide +kernel) (by decide +kernel)
    (by decide +kernel)
  have stopped := (closed.movesAtWrites (List.replicate 4 .turn)).movesAtFiles [.turn, .turn]
  have drained := stopped.drain (by decide +kernel) (by decide +kernel) (by decide +kernel)
  exact ⟨_, drained, rfl, rfl, rfl, List.mem_singleton_self _, by decide +kernel, _, rfl,
    by decide +kernel⟩

end Service

end FleetStore
