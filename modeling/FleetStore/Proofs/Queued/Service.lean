import FleetStore.Proofs.Dispatch.Closing
import FleetStore.Proofs.Queued.Site
import FleetStore.Proofs.Store.Hands

/-! # A queued store from its start to its end

Clients use a queued store in both modes, from anywhere and at any time, while its two
workers go on and while somebody shuts it down. Shutting down goes through phases:
the queue for writes is closed, then the queue for files, then each worker is waited
for, and then the store behind the queues is given up. A wait ends when its worker has
stopped or when its time is over, and since nobody knows how long anything takes, it
may end at any moment.

Whatever touches the store behind the queues is written down: the jobs of the workers with
the tickets of their calls, the writes that clients run themselves, registrations, and
the giving up. These touches account for all that is in the store but its cache.
-/

namespace FleetStore

/-- How far shutting down has got. -/
inductive Phase where
  | running
  | closingWrites
  | closingFiles
  | awaitingWrites
  | awaitingFiles
  /-- Both waits are over, and the store behind the queues is about to be given up. -/
  | leaving
  | ended
deriving DecidableEq, Repr

/-- How many phases come before a phase. -/
def Phase.rank : Phase → Nat
  | .running => 0
  | .closingWrites => 1
  | .closingFiles => 2
  | .awaitingWrites => 3
  | .awaitingFiles => 4
  | .leaving => 5
  | .ended => 6

theorem Phase.rank_inj {phase other : Phase} (h : phase.rank = other.rank) : phase = other := by
  cases phase <;> cases other <;> first | rfl | contradiction

/-- What is done to the store behind the queues. -/
inductive Touch where
  /-- The worker for writes has done the job of a call. -/
  | write (call : Ticketed WriteJob)
  /-- The worker for files has done the job of a call. -/
  | save (call : Ticketed FileJob)
  /-- A client has run a patched write without the queue. -/
  | direct (w : BoundWrite)
  | register (c : Category)
  | giveUp

namespace Touch

def write? : Touch → Option (Ticketed WriteJob)
  | .write call => some call
  | _ => none

def save? : Touch → Option (Ticketed FileJob)
  | .save call => some call
  | _ => none

/-- Whether a worker has done it. -/
def isQueued : Touch → Bool
  | .write _ | .save _ => true
  | _ => false

def isGiveUp : Touch → Bool
  | .giveUp => true
  | _ => false

def perform (s : MemoryStore) : Touch → MemoryStore
  | .write call => Dispatcher.attempt (serve WriteJob.run) call s
  | .save call => Dispatcher.attempt (serve FileJob.run) call s
  | .direct w => Dispatcher.attempt (fun w s => s.applyWrite w) w s
  | .register c => Dispatcher.attempt (fun c s => s.register c) c s
  | .giveUp => s.shutdown

/-- The cache has no part in it. -/
theorem perform_withCache (s : MemoryStore) (cache : Descriptor.Cache) (t : Touch) :
    perform { s with cache } t = { perform s t with cache } := by
  cases t with
  | write call =>
      have same (m : MemoryStore) : perform m (.write call) =
        { m with tables := call.2.change?.elim m.tables fun change => change.apply m.tables } :=
        call.2.attempt_eq m
      rw [same, same]
  | save call =>
      have same (m : MemoryStore) : perform m (.save call) =
        { m with files := call.2.saveTo m.files } := call.2.attempt_run m
      rw [same, same]
  | direct w =>
      have same (m : MemoryStore) : perform m (.direct w) =
        { m with tables := Change.apply m.tables (.write w) } := m.attempt_applyWrite w
      rw [same, same]
  | register c =>
      simp only [perform, Dispatcher.attempt, MemoryStore.register]
      cases s.tables.get? c.name with
      | none => rfl
      | some t => by_cases same : t.keys = c.keys <;> simp [same]
  | giveUp => rfl

end Touch

/-- A queued store with its clients, and what has happened so far. -/
structure Service where
  settings : Settings
  delegate : MemoryStore
  writes : Desk WriteJob
  files : Desk FileJob
  phase : Phase
  /-- What the waits for the workers have answered; `false` before they are over. -/
  writesDrained : Bool
  filesDrained : Bool
  hands : Hands
  /-- All that was done to the store behind the queues, the first thing first. -/
  touches : List Touch

namespace Service

def new (settings : Settings) (delegate : MemoryStore) : Service :=
  { settings, delegate, writes := .new settings.writerName, files := .new settings.filerName,
    phase := .running, writesDrained := false, filesDrained := false, hands := .empty,
    touches := [] }

/-- The queued store as it is without tickets and without the record. -/
def store (w : Service) : QueuedStore :=
  .ofDesks w.settings w.delegate w.writes w.files (w.phase != .running)

theorem store_new (settings : Settings) (delegate : MemoryStore) :
    (new settings delegate).store = .new settings delegate := rfl

def issue (w : Service) (j : WriteJob) : Service :=
  { w with writes := w.writes.enter (.submit j) }

/-- Gives up the store behind the queues. -/
def giveUp (w : Service) : Service :=
  { w with delegate := w.delegate.shutdown, phase := .ended, touches := w.touches ++ [.giveUp] }

/-- The store takes a job for the worker for writes from a client who has in hand what
the job is about. -/
inductive Takes (w : Service) : WriteJob → Prop where
  /-- A prepared write is run directly. -/
  | execute (statement : Prepared) (store : QueuedStore) (known : statement ∈ w.hands.statements)
      (ok : w.store.execute statement = .ok store) : Takes w (.execute statement)
  /-- A patched write is run behind a proxy. -/
  | apply (b : BoundWrite) (store : QueuedStore) (known : .write b ∈ w.hands.patched)
      (proxied : w.settings.proxied = true) (ok : w.store.applyWrite b = .ok store) :
      Takes w (.apply b)
  | purge (agent : String) (store : QueuedStore) (ok : w.store.purge agent = .ok store) :
      Takes w (.purge agent)

/-- The steps of clients and workers, and of the one who shuts the store down. A call that
fails without going in at a gate changes nothing, and is no step; nor is a question. -/
inductive Step : Service → Service → Prop where
  | handle {w} (delegate : MemoryStore) (hands : Hands)
      (step : Hands.Step w.delegate w.hands delegate hands) : Step w { w with delegate, hands }
  | register {w} (c : Category) (delegate : MemoryStore) (ok : w.delegate.register c = .ok delegate) :
      Step w { w with delegate, touches := w.touches ++ [.register c] }
  | issue {w} (j : WriteJob) (takes : w.Takes j) : Step w (w.issue j)
  /-- A patched write is run, and there is no proxy. -/
  | applyDirectly {w} (b : BoundWrite) (store : QueuedStore) (known : .write b ∈ w.hands.patched)
      (unproxied : w.settings.proxied = false) (ok : w.store.applyWrite b = .ok store) :
      Step w { w with delegate := store.delegate, touches := w.touches ++ [.direct b] }
  /-- A file is handed over. Whether there is still a worker for it shows when it is sent. -/
  | save {w} (name : String) (source : FileSource) (gate : w.files.dispatcher.accepting = true) :
      Step w { w with files := w.files.enter (.submit ⟨name, source⟩) }
  /-- Anything else that goes on at the desk for writes. The gate is shut only by the one who
  shuts the store down. -/
  | atWrites {w} (writes : Desk WriteJob) (delegate : MemoryStore)
      (step : Desk.Step (· = .flush) WriteJob.run w.writes w.delegate writes delegate)
      (gate : writes.dispatcher.accepting = w.writes.dispatcher.accepting ∨
        w.phase = .closingWrites) :
      Step w { w with
        writes, delegate, touches := w.touches ++ (w.writes.doneSince writes).map .write }
  /-- Anything else that goes on at the desk for files. -/
  | atFiles {w} (files : Desk FileJob) (delegate : MemoryStore)
      (step : Desk.Step (· = .flush) FileJob.run w.files w.delegate files delegate)
      (gate : files.dispatcher.accepting = w.files.dispatcher.accepting ∨
        w.phase = .closingFiles) :
      Step w { w with
        files, delegate, touches := w.touches ++ (w.files.doneSince files).map .save }
  /-- Only the first who shuts the store down does anything. -/
  | shutDown {w} (first : w.phase = .running) : Step w { w with phase := .closingWrites }
  | writesClosed {w} (now : w.phase = .closingWrites) (gate : w.writes.dispatcher.accepting = false)
      (sent : w.writes.closing = false) : Step w { w with phase := .closingFiles }
  | filesClosed {w} (now : w.phase = .closingFiles) (gate : w.files.dispatcher.accepting = false)
      (sent : w.files.closing = false) : Step w { w with phase := .awaitingWrites }
  | writesAwaited {w} (drained : Bool) (now : w.phase = .awaitingWrites)
      (ended : drained = true → w.writes.dispatcher.hasStopped = true) :
      Step w { w with phase := .awaitingFiles, writesDrained := drained }
  | filesAwaited {w} (drained : Bool) (now : w.phase = .awaitingFiles)
      (ended : drained = true → w.files.dispatcher.hasStopped = true) :
      Step w { w with phase := .leaving, filesDrained := drained }
  | giveUp {w} (now : w.phase = .leaving) : Step w w.giveUp

/-- What can come of a service after some steps. -/
inductive Leads : Service → Service → Prop where
  | here {w} : Leads w w
  | step {w w' w''} : Leads w w' → Step w' w'' → Leads w w''

theorem Leads.trans {w w' w'' : Service} (h : Leads w w') (later : Leads w' w'') : Leads w w'' := by
  induction later with
  | here => exact h
  | step _ next ih => exact .step ih next

/-! ## What every run keeps -/

/-- The gate of a desk is open before its turn to be shut has come, and shut for good after. -/
structure Gated {Job : Type} (turn : Nat) (phase : Phase) (k : Desk Job) : Prop where
  before : phase.rank < turn → k.dispatcher.accepting = true
  after : turn < phase.rank → k.dispatcher.accepting = false ∧ k.closing = false

/-- The record is in order and accounts for the store behind the queues. -/
structure Sound (start : MemoryStore) (w : Service) : Prop where
  writes : w.writes.Sound
  files : w.files.Sound
  writesGate : Gated 1 w.phase w.writes
  filesGate : Gated 2 w.phase w.files
  writesDrained : w.writesDrained = true → w.writes.dispatcher.hasStopped = true
  filesDrained : w.filesDrained = true → w.files.dispatcher.hasStopped = true
  written : w.touches.filterMap Touch.write? = w.writes.finishedCalls
  saved : w.touches.filterMap Touch.save? = w.files.finishedCalls
  direct : ∀ b, .direct b ∈ w.touches → w.settings.proxied = false
  given : (w.touches.filter Touch.isGiveUp).length = if w.phase = .ended then 1 else 0
  account : ∃ cache, w.delegate = { w.touches.foldl Touch.perform start with cache }

theorem sound_new (settings : Settings) (start : MemoryStore) : (new settings start).Sound start where
  writes := Desk.sound_new _
  files := Desk.sound_new _
  writesGate := ⟨fun _ => rfl, fun late => absurd late (by simp [new, Phase.rank])⟩
  filesGate := ⟨fun _ => rfl, fun late => absurd late (by simp [new, Phase.rank])⟩
  writesDrained := nofun
  filesDrained := nofun
  written := rfl
  saved := rfl
  direct _ member := by simp [new] at member
  given := rfl
  account := ⟨start.cache, rfl⟩

variable {start : MemoryStore} {w w' : Service}

/-! ## One step -/

theorem foldl_withCache (s : MemoryStore) (cache : Descriptor.Cache) (touches : List Touch) :
    touches.foldl Touch.perform { s with cache } =
      { touches.foldl Touch.perform s with cache } := by
  induction touches generalizing s with
  | nil => rfl
  | cons t rest ih => rw [List.foldl_cons, Touch.perform_withCache, ih, List.foldl_cons]

/-- More touches account for what they make of the store. -/
theorem Sound.account_append (h : w.Sound start) {delegate : MemoryStore} (more : List Touch)
    (same : delegate = more.foldl Touch.perform w.delegate) :
    ∃ cache, delegate = { (w.touches ++ more).foldl Touch.perform start with cache } := by
  obtain ⟨cache, before⟩ := h.account
  exact ⟨cache, by rw [same, before, foldl_withCache, List.foldl_append]⟩

theorem Takes.accept {j : WriteJob} (h : w.Takes j) : ∃ store, w.store.accept j = .ok store := by
  cases h with
  | execute statement store known ok => exact ⟨store, (QueuedStore.execute_ok ok).2.2⟩
  | apply b store known proxied ok =>
      have behind : w.store.settings.proxied = true := proxied
      rw [QueuedStore.applyWrite, if_pos behind] at ok
      exact ⟨store, ok⟩
  | purge agent store ok => exact ⟨store, QueuedStore.purge_accept ok⟩

/-- A job is taken only while the gate for writes is open. -/
theorem Takes.gate {j : WriteJob} (h : w.Takes j) : w.writes.dispatcher.accepting = true := by
  obtain ⟨store, ok⟩ := h.accept
  exact QueuedStore.accept_gate ok

theorem Sound.issue (h : w.Sound start) {j : WriteJob} (takes : w.Takes j) :
    (w.issue j).Sound start := by
  have step : Desk.Step (fun _ => True) WriteJob.run w.writes w.delegate
    (w.writes.enter (.submit j)) w.delegate := .enter (.submit j) trivial takes.gate
  exact { h with
    writes := h.writes.step step
    writesGate := ⟨h.writesGate.before, h.writesGate.after⟩ }

/-- What the worker for writes does is in its own record and not in the other. -/
theorem records_write (calls : List (Ticketed WriteJob)) :
    (calls.map Touch.write).filterMap Touch.write? = calls ∧
      (calls.map Touch.write).filterMap Touch.save? = [] := by
  simp [List.filterMap_map, Function.comp_def, Touch.write?, Touch.save?]

theorem records_save (calls : List (Ticketed FileJob)) :
    (calls.map Touch.save).filterMap Touch.save? = calls ∧
      (calls.map Touch.save).filterMap Touch.write? = [] := by
  simp [List.filterMap_map, Function.comp_def, Touch.write?, Touch.save?]

/-- What a worker does is not done by a client, and it is no giving up. -/
theorem Sound.queued (h : w.Sound start) {more : List Touch} (queued : ∀ t ∈ more, t.isQueued = true) :
    (∀ b, .direct b ∈ w.touches ++ more → w.settings.proxied = false) ∧
      ((w.touches ++ more).filter Touch.isGiveUp).length = if w.phase = .ended then 1 else 0 := by
  constructor
  · intro b member
    rcases List.mem_append.1 member with old | new
    · exact h.direct b old
    · exact absurd (queued _ new) (by simp [Touch.isQueued])
  · have none : more.filter Touch.isGiveUp = [] := by
      refine List.filter_eq_nil_iff.2 fun t member => ?_
      have worker := queued t member
      cases t <;> simp_all [Touch.isQueued, Touch.isGiveUp]
    rw [List.filter_append, none, List.append_nil, h.given]

/-- What no worker has done is in neither record. -/
theorem records_unqueued (touches : List Touch) {t : Touch} (h : t.isQueued = false) :
    (touches ++ [t]).filterMap Touch.write? = touches.filterMap Touch.write? ∧
      (touches ++ [t]).filterMap Touch.save? = touches.filterMap Touch.save? := by
  cases t with
  | write | save => contradiction
  | direct | register | giveUp =>
      simp [List.filterMap_append, List.filterMap_cons, Touch.write?, Touch.save?]

theorem Gated.step {Job ε : Type} [Fatal Job] {run : Job → MemoryStore → Except ε MemoryStore} {turn : Nat}
    {phase : Phase} {k k' : Desk Job} {m m' : MemoryStore} (h : Gated turn phase k)
    (step : Desk.Step (· = .flush) run k m k' m')
    (gate : k'.dispatcher.accepting = k.dispatcher.accepting ∨ phase.rank = turn) :
    Gated turn phase k' where
  before early := (gate.resolve_right (Nat.ne_of_lt early)).trans (h.before early)
  after late := by
    obtain ⟨shut, free⟩ := h.after late
    obtain ⟨stays, gone⟩ := step.shut_stays shut
    exact ⟨stays, gone free⟩

/-- The gate whose turn it was is shut by the next phase. -/
theorem Gated.next {Job : Type} {turn : Nat} {phase next : Phase} {k : Desk Job}
    (h : Gated turn phase k) (onward : next.rank = phase.rank + 1)
    (shut : phase.rank = turn → k.dispatcher.accepting = false ∧ k.closing = false) :
    Gated turn next k where
  before early := h.before (by omega)
  after late := (Nat.eq_or_lt_of_le (show turn ≤ phase.rank by omega)).elim
    (fun now => shut now.symm) h.after

theorem Sound.atWrites (h : w.Sound start) {writes : Desk WriteJob} {delegate : MemoryStore}
    (step : Desk.Step (· = .flush) WriteJob.run w.writes w.delegate writes delegate)
    (gate : writes.dispatcher.accepting = w.writes.dispatcher.accepting ∨ w.phase = .closingWrites) :
    Sound start { w with
      writes, delegate, touches := w.touches ++ (w.writes.doneSince writes).map .write } := by
  obtain ⟨finished, state⟩ := step.finishedCalls
  obtain ⟨itself, other⟩ := records_write (w.writes.doneSince writes)
  obtain ⟨direct, given⟩ := h.queued (List.forall_mem_map.2 fun _ _ => rfl :
    ∀ t ∈ (w.writes.doneSince writes).map Touch.write, t.isQueued = true)
  refine { h with
    writes := h.writes.step step
    writesGate := h.writesGate.step step (gate.imp_right fun now => by rw [now]; rfl)
    writesDrained := fun drained => step.still_ended (h.writesDrained drained)
    written := ?_
    saved := ?_
    direct
    given
    account := h.account_append _ ?_ }
  · rw [List.filterMap_append, h.written, itself, finished]
  · rw [List.filterMap_append, h.saved, other, List.append_nil]
  · rw [List.foldl_map]
    exact state

theorem Sound.atFiles (h : w.Sound start) {files : Desk FileJob} {delegate : MemoryStore}
    (step : Desk.Step (· = .flush) FileJob.run w.files w.delegate files delegate)
    (gate : files.dispatcher.accepting = w.files.dispatcher.accepting ∨ w.phase = .closingFiles) :
    Sound start { w with
      files, delegate, touches := w.touches ++ (w.files.doneSince files).map .save } := by
  obtain ⟨finished, state⟩ := step.finishedCalls
  obtain ⟨itself, other⟩ := records_save (w.files.doneSince files)
  obtain ⟨direct, given⟩ := h.queued (List.forall_mem_map.2 fun _ _ => rfl :
    ∀ t ∈ (w.files.doneSince files).map Touch.save, t.isQueued = true)
  refine { h with
    files := h.files.step step
    filesGate := h.filesGate.step step (gate.imp_right fun now => by rw [now]; rfl)
    filesDrained := fun drained => step.still_ended (h.filesDrained drained)
    written := ?_
    saved := ?_
    direct
    given
    account := h.account_append _ ?_ }
  · rw [List.filterMap_append, h.written, other, List.append_nil]
  · rw [List.filterMap_append, h.saved, itself, finished]
  · rw [List.foldl_map]
    exact state

/-- A client does something itself to the store behind the queues. -/
theorem Sound.aside (h : w.Sound start) (t : Touch) (unqueued : t.isQueued = false)
    (stays : t.isGiveUp = false) (unproxied : ∀ b, t = .direct b → w.settings.proxied = false) :
    Sound start { w with delegate := t.perform w.delegate, touches := w.touches ++ [t] } := by
  obtain ⟨writes, saves⟩ := records_unqueued w.touches unqueued
  refine { h with
    written := writes.trans h.written
    saved := saves.trans h.saved
    direct := fun b member => ?_
    given := ?_
    account := h.account_append [t] rfl }
  · rcases List.mem_append.1 member with old | new
    · exact h.direct b old
    · exact unproxied b (List.mem_singleton.1 new).symm
  · rw [List.filter_append, List.filter_cons_of_neg (by simp [stays]), List.filter_nil,
      List.append_nil]
    exact h.given

/-- Going on to the next phase, with the gate shut by then whose turn it was. -/
theorem Sound.advance (h : w.Sound start) (next : Phase) (onward : next.rank = w.phase.rank + 1)
    (goesOn : next ≠ .ended)
    (writes : w.phase = .closingWrites →
      w.writes.dispatcher.accepting = false ∧ w.writes.closing = false)
    (files : w.phase = .closingFiles →
      w.files.dispatcher.accepting = false ∧ w.files.closing = false) :
    Sound start { w with phase := next } := by
  have notEnded : w.phase ≠ .ended := fun ended => by
    rw [ended] at onward
    cases next <;> simp [Phase.rank] at onward
  exact { h with
    writesGate := h.writesGate.next onward fun turn => writes (Phase.rank_inj turn)
    filesGate := h.filesGate.next onward fun turn => files (Phase.rank_inj turn)
    given := by simpa [notEnded, goesOn] using h.given }

theorem Sound.step (h : w.Sound start) (step : Step w w') : w'.Sound start := by
  cases step with
  | handle delegate hands step =>
      obtain ⟨cache, rfl⟩ := step.kept
      obtain ⟨_, before⟩ := h.account
      exact { h with account := ⟨cache, by rw [before]⟩ }
  | register c delegate ok =>
      have same : (Touch.register c).perform w.delegate = delegate := by
        simp [Touch.perform, Dispatcher.attempt, ok]
      exact same ▸ h.aside (.register c) rfl rfl (by simp)
  | issue j takes => exact h.issue takes
  | applyDirectly b store known unproxied ok =>
      have direct : ¬ w.store.settings.proxied = true := Bool.eq_false_iff.1 unproxied
      rw [QueuedStore.applyWrite, if_neg direct] at ok
      obtain ⟨delegate, applied, rfl⟩ := map_eq_ok_iff.1 ok
      have applied : w.delegate.applyWrite b = .ok delegate := applied
      have same : (Touch.direct b).perform w.delegate = delegate := by
        simp [Touch.perform, Dispatcher.attempt, applied]
      exact same ▸ h.aside (.direct b) rfl rfl fun _ _ => unproxied
  | save name source gate =>
      have step : Desk.Step (fun _ => True) FileJob.run w.files w.delegate
        (w.files.enter (.submit ⟨name, source⟩)) w.delegate := .enter _ trivial gate
      exact { h with
        files := h.files.step step
        filesGate := ⟨h.filesGate.before, h.filesGate.after⟩ }
  | atWrites writes delegate step gate => exact h.atWrites step gate
  | atFiles files delegate step gate => exact h.atFiles step gate
  | shutDown first =>
      exact h.advance .closingWrites (by simp [first, Phase.rank]) (by simp) (by simp [first])
        (by simp [first])
  | writesClosed now gate sent =>
      exact h.advance .closingFiles (by simp [now, Phase.rank]) (by simp) (fun _ => ⟨gate, sent⟩)
        (by simp [now])
  | filesClosed now gate sent =>
      exact h.advance .awaitingWrites (by simp [now, Phase.rank]) (by simp) (by simp [now])
        fun _ => ⟨gate, sent⟩
  | writesAwaited drained now ended =>
      have next := h.advance .awaitingFiles (by simp [now, Phase.rank]) (by simp) (by simp [now])
        (by simp [now])
      exact { next with writesDrained := ended }
  | filesAwaited drained now ended =>
      have next := h.advance .leaving (by simp [now, Phase.rank]) (by simp) (by simp [now])
        (by simp [now])
      exact { next with filesDrained := ended }
  | giveUp now =>
      have onward : Phase.ended.rank = w.phase.rank + 1 := by simp [now, Phase.rank]
      obtain ⟨written, saved⟩ := records_unqueued w.touches (t := .giveUp) rfl
      have never : (w.touches.filter Touch.isGiveUp).length = 0 := by simpa [now] using h.given
      exact { h with
        writesGate := h.writesGate.next onward (by simp [now, Phase.rank])
        filesGate := h.filesGate.next onward (by simp [now, Phase.rank])
        written := written.trans h.written
        saved := saved.trans h.saved
        direct := fun b member => h.direct b (by simpa [giveUp] using member)
        given := by simp [giveUp, List.filter_append, List.filter_cons, Touch.isGiveUp, never]
        account := h.account_append [.giveUp] rfl }

theorem Leads.sound (h : w.Leads w') (sound : w.Sound start) : w'.Sound start := by
  induction h with
  | here => exact sound
  | step _ next ih => exact ih.step next

/-! ## Runs that can be computed -/

/-- A move at the desk for writes, if it leaves the gate as it is. -/
def moveAtWrites (w : Service) (m : Desk.Move WriteJob) : Service :=
  let next := w.writes.move (· = .flush) WriteJob.run w.delegate m
  if next.1.dispatcher.accepting = w.writes.dispatcher.accepting then
    { w with
      writes := next.1
      delegate := next.2
      touches := w.touches ++ (w.writes.doneSince next.1).map .write }
  else w

def moveAtFiles (w : Service) (m : Desk.Move FileJob) : Service :=
  let next := w.files.move (· = .flush) FileJob.run w.delegate m
  if next.1.dispatcher.accepting = w.files.dispatcher.accepting then
    { w with
      files := next.1
      delegate := next.2
      touches := w.touches ++ (w.files.doneSince next.1).map .save }
  else w

theorem leads_moveAtWrites (w : Service) (m : Desk.Move WriteJob) : w.Leads (w.moveAtWrites m) := by
  simp only [moveAtWrites]
  split
  · next gate =>
      rcases Desk.move_step (· = .flush) WriteJob.run w.writes w.delegate m with same | next
      · simpa [same, Desk.doneSince] using Leads.here
      · exact .step .here (.atWrites _ _ next (.inl gate))
  · exact .here

theorem leads_moveAtFiles (w : Service) (m : Desk.Move FileJob) : w.Leads (w.moveAtFiles m) := by
  simp only [moveAtFiles]
  split
  · next gate =>
      rcases Desk.move_step (· = .flush) FileJob.run w.files w.delegate m with same | next
      · simpa [same, Desk.doneSince] using Leads.here
      · exact .step .here (.atFiles _ _ next (.inl gate))
  · exact .here

theorem Leads.foldl {Move : Type} {move : Service → Move → Service}
    (each : ∀ w m, Leads w (move w m)) (h : w.Leads w') (ms : List Move) :
    w.Leads (ms.foldl move w') := by
  induction ms generalizing w' with
  | nil => exact h
  | cons m rest ih => exact ih (h.trans (each w' m))

theorem Leads.movesAtWrites (h : w.Leads w') (ms : List (Desk.Move WriteJob)) :
    w.Leads (ms.foldl moveAtWrites w') :=
  h.foldl leads_moveAtWrites ms

theorem Leads.movesAtFiles (h : w.Leads w') (ms : List (Desk.Move FileJob)) :
    w.Leads (ms.foldl moveAtFiles w') :=
  h.foldl leads_moveAtFiles ms

/-- The service after both queues were closed with nobody at their gates. -/
def closed (w : Service) : Service :=
  { w with writes := w.writes.closed, files := w.files.closed, phase := .awaitingWrites }

theorem Leads.close (h : w.Leads w') (sound : w.Sound start) (running : w'.phase = .running)
    (writes : w'.writes.visits = []) (files : w'.files.visits = []) : w.Leads w'.closed := by
  have now := h.sound sound
  have writesOpen := now.writesGate.before (by simp [running, Phase.rank])
  have filesOpen := now.filesGate.before (by simp [running, Phase.rank])
  have first := h.step (.shutDown running)
  have shutWrites := first.step (.atWrites _ _ (.shut writesOpen writes) (.inr rfl))
  have stopWrites := shutWrites.step (.atWrites _ _ (.sendStop rfl) (.inr rfl))
  have second := stopWrites.step (.writesClosed rfl rfl rfl)
  have shutFiles := second.step (.atFiles _ _ (.shut filesOpen files) (.inr rfl))
  have stopFiles := shutFiles.step (.atFiles _ _ (.sendStop rfl) (.inr rfl))
  have third := stopFiles.step (.filesClosed rfl rfl rfl)
  simpa [Desk.doneSince, closed, Desk.closed] using third

/-! ## What does not change -/

/-- Nothing that was done is forgotten, and the settings stay. -/
theorem Step.kept (step : Step w w') : w.touches <+: w'.touches ∧ w'.settings = w.settings := by
  cases step with
  | register | applyDirectly | atWrites | atFiles | giveUp => exact ⟨List.prefix_append _ _, rfl⟩
  | handle | issue | save | shutDown | writesClosed | filesClosed | writesAwaited | filesAwaited =>
      exact ⟨List.prefix_refl _, rfl⟩

theorem Leads.kept (h : w.Leads w') : w.touches <+: w'.touches ∧ w'.settings = w.settings := by
  induction h with
  | here => exact ⟨List.prefix_refl _, rfl⟩
  | step _ next ih => exact ⟨ih.1.trans next.kept.1, next.kept.2.trans ih.2⟩

theorem tasks_issue (w : Service) (j : WriteJob) :
    (w.issue j).writes.tasks = w.writes.tasks ++ [.job (w.writes.calls, j)] :=
  Desk.tasks_enter _ _

/-- A new task at the desk for writes has a new ticket, and if it is a job it was taken. -/
theorem Step.tasks (step : Step w w') : w.writes.calls ≤ w'.writes.calls ∧
    ∀ task ∈ w'.writes.tasks, task ∈ w.writes.tasks ∨ task = .mark w.writes.calls ∨
      ∃ j, w.Takes j ∧ task = .job (w.writes.calls, j) := by
  cases step with
  | issue j takes =>
      refine ⟨Nat.le_succ _, fun task member => ?_⟩
      rw [tasks_issue] at member
      exact (List.mem_append.1 member).imp_right fun new =>
        .inr ⟨j, takes, List.mem_singleton.1 new⟩
  | atWrites writes delegate step gate =>
      refine ⟨step.calls_le, fun task member => (step.tasks task member).imp_right ?_⟩
      rintro ⟨request, rfl, rfl⟩
      exact .inl rfl
  | handle | register | applyDirectly | save | atFiles | shutDown | writesClosed | filesClosed
  | writesAwaited | filesAwaited | giveUp => exact ⟨Nat.le_refl _, fun _ => .inl⟩

/-- Whatever happens later, a ticket that was drawn stands for the same task. -/
theorem Leads.tasks (h : w.Leads w') : w.writes.calls ≤ w'.writes.calls ∧
    ∀ task ∈ w'.writes.tasks, task.ticket < w.writes.calls → task ∈ w.writes.tasks := by
  induction h with
  | here => exact ⟨Nat.le_refl _, fun _ member _ => member⟩
  | step before next ih =>
      obtain ⟨more, old⟩ := ih
      refine ⟨Nat.le_trans more next.tasks.1, fun task member drawn => ?_⟩
      rcases next.tasks.2 task member with there | rfl | ⟨j, takes, rfl⟩
      · exact old task there drawn
      · exact absurd drawn (Nat.not_lt.2 more)
      · exact absurd drawn (Nat.not_lt.2 more)

/-- When the gate for writes is shut no write or purge is accepted any more. -/
theorem Sound.writes_stay (h : w.Sound start) (step : Step w w') (late : 1 < w.phase.rank) :
    w'.writes.accepted = w.writes.accepted ∧ 1 < w'.phase.rank := by
  have shut := (h.writesGate.after late).1
  cases step with
  | issue j takes =>
      have gate := takes.gate
      rw [shut] at gate
      contradiction
  | atWrites writes delegate step gate =>
      exact ⟨step.accepted_of_shut h.writes.guarded shut, late⟩
  | handle | register | applyDirectly | save | atFiles => exact ⟨rfl, late⟩
  | shutDown first => simp [first, Phase.rank] at late
  | writesClosed | filesClosed | writesAwaited | filesAwaited | giveUp =>
      exact ⟨rfl, by simp [giveUp, Phase.rank]⟩

/-- When the gate for files is shut no file is accepted any more. -/
theorem Sound.files_stay (h : w.Sound start) (step : Step w w') (late : 2 < w.phase.rank) :
    w'.files.accepted = w.files.accepted ∧ 2 < w'.phase.rank := by
  have shut := (h.filesGate.after late).1
  cases step with
  | save name source gate =>
      rw [shut] at gate
      contradiction
  | atFiles files delegate step gate =>
      exact ⟨step.accepted_of_shut h.files.guarded shut, late⟩
  | handle | register | issue | applyDirectly | atWrites => exact ⟨rfl, late⟩
  | shutDown first => simp [first, Phase.rank] at late
  | writesClosed now => simp [now, Phase.rank] at late
  | filesClosed | writesAwaited | filesAwaited | giveUp => exact ⟨rfl, by simp [giveUp, Phase.rank]⟩

theorem Leads.writes_stay (h : w.Leads w') (sound : w.Sound start) (late : 1 < w.phase.rank) :
    w'.writes.accepted = w.writes.accepted ∧ 1 < w'.phase.rank := by
  induction h with
  | here => exact ⟨rfl, late⟩
  | step before next ih =>
      obtain ⟨same, later⟩ := (before.sound sound).writes_stay next ih.2
      exact ⟨same.trans ih.1, later⟩

theorem Leads.files_stay (h : w.Leads w') (sound : w.Sound start) (late : 2 < w.phase.rank) :
    w'.files.accepted = w.files.accepted ∧ 2 < w'.phase.rank := by
  induction h with
  | here => exact ⟨rfl, late⟩
  | step before next ih =>
      obtain ⟨same, later⟩ := (before.sound sound).files_stay next ih.2
      exact ⟨same.trans ih.1, later⟩

end Service

end FleetStore
