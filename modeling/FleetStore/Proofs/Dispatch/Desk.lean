import FleetStore.Proofs.Dispatch.Backlog

/-! # Many clients at one dispatcher

Any number of clients submit jobs and flush at one dispatcher, while others close
it and its worker goes on. A submission takes several steps, between which anything
else may happen: the client goes in at the gate while it is open, counts the
task, sends it and leaves. The gate is shut only when nobody is inside, and
whoever shuts it keeps everybody out until the stop command is sent.

Every call draws a ticket, which travels with its task, so that each task that
the worker takes can be traced to the call that sent it. What has happened is
written down beside the dispatcher and never looked at by it.
-/

namespace FleetStore

/-- A job with the ticket of the call that submits it. -/
abbrev Ticketed (Job : Type) : Type := Nat × Job

/-- The ticket of the call that sent a task. -/
def Task.ticket {Job : Type} : Task (Ticketed Job) → Nat
  | .job (ticket, _) => ticket
  | .mark ticket => ticket

/-- A ticket makes no difference to what a job does to the worker. -/
instance {Job : Type} [Fatal Job] : Fatal (Ticketed Job) :=
  ⟨fun call => Fatal.isFatal call.2⟩

/-- Runs a job, whatever its ticket. -/
def serve {Job σ ε : Type} (run : Job → σ → Except ε σ) : Ticketed Job → σ → Except ε σ :=
  fun j => run j.2

/-- What a client asks of a dispatcher. -/
inductive Request (Job : Type) where
  | submit (j : Job)
  /-- Submits a mark and waits for the worker to pass it. -/
  | flush

def Request.task {Job : Type} (ticket : Nat) : Request Job → Task (Ticketed Job)
  | .submit j => .job (ticket, j)
  | .flush => .mark ticket

/-- How far a client has got inside the gate. -/
inductive Stage where
  | entered
  | counted
  | sent
deriving DecidableEq, Repr

/-- A client inside the gate. -/
structure Visit (Job : Type) where
  task : Task (Ticketed Job)
  stage : Stage

/-- A dispatcher, the clients at its gate, and what has happened so far. -/
structure Desk (Job : Type) where
  dispatcher : Dispatcher (Ticketed Job)
  visits : List (Visit Job)
  /-- Somebody has shut the gate and is about to send the stop command. -/
  closing : Bool
  /-- How many calls there were; the next one draws this ticket. -/
  calls : Nat
  /-- The tasks that entered the channel, in the order in which they did. -/
  accepted : List (Task (Ticketed Job))
  /-- The tickets of the calls that failed. -/
  rejected : List Nat
  /-- The tickets of the submissions that returned to their client without failing. -/
  returned : List Nat
  /-- The tasks that the worker has taken. -/
  started : List (Task (Ticketed Job))
  /-- The tasks that the worker has done. -/
  finished : List (Task (Ticketed Job))
  /-- The tasks that were lost with the channel. -/
  lost : List (Task (Ticketed Job))

def Dispatcher.taking {Job : Type} (d : Dispatcher Job) : List (Task Job) :=
  match d.worker, d.channel with
  | .idle, .run task :: _ => [task]
  | _, _ => []

namespace Desk

variable {Job σ ε : Type} [Fatal Job] {run : Job → σ → Except ε σ} {asks : Request Job → Prop}

def new (name : String) : Desk Job :=
  { dispatcher := .new name, visits := [], closing := false, calls := 0, accepted := [],
    rejected := [], returned := [], started := [], finished := [], lost := [] }

def enter (k : Desk Job) (request : Request Job) : Desk Job :=
  { k with visits := k.visits ++ [⟨request.task k.calls, .entered⟩], calls := k.calls + 1 }

def refuse (k : Desk Job) : Desk Job :=
  { k with rejected := k.rejected ++ [k.calls], calls := k.calls + 1 }

def turn (run : Job → σ → Except ε σ) (k : Desk Job) (s : σ) : Desk Job × σ :=
  let (dispatcher, s) := k.dispatcher.turn (serve run) s
  ({ k with
      dispatcher
      started := k.started ++ k.dispatcher.taking
      finished := k.finished ++ k.dispatcher.worker.current
      lost := k.dispatcher.losing ++ k.lost }, s)

/-- The steps of clients, of those who close the dispatcher, and of its worker. Clients
ask only what they may ask. -/
inductive Step (asks : Request Job → Prop) (run : Job → σ → Except ε σ) :
    Desk Job → σ → Desk Job → σ → Prop where
  | enter {k s} (request : Request Job) (allowed : asks request)
      (gate : k.dispatcher.accepting = true) : Step asks run k s (k.enter request) s
  /-- The gate is shut, and the one who shut it has gone. -/
  | refuse {k s} (gate : k.dispatcher.accepting = false) (free : k.closing = false) :
      Step asks run k s k.refuse s
  | count {k s} (task before after) (visit : k.visits = before ++ ⟨task, .entered⟩ :: after) :
      Step asks run k s
        { k with
          dispatcher := k.dispatcher.announce
          visits := before ++ ⟨task, .counted⟩ :: after } s
  | send {k s} (task before after) (visit : k.visits = before ++ ⟨task, .counted⟩ :: after)
      (listens : k.dispatcher.hasStopped = false) :
      Step asks run k s
        { k with
          dispatcher := k.dispatcher.send task
          visits := before ++ ⟨task, .sent⟩ :: after
          accepted := k.accepted ++ [task] } s
  /-- Nothing can be sent when there is no worker. -/
  | fail {k s} (task before after) (visit : k.visits = before ++ ⟨task, .counted⟩ :: after)
      (deaf : k.dispatcher.hasStopped = true) :
      Step asks run k s
        { k with
          dispatcher := k.dispatcher.withdraw
          visits := before ++ after
          rejected := k.rejected ++ [task.ticket] } s
  | leave {k s} (task before after) (visit : k.visits = before ++ ⟨task, .sent⟩ :: after) :
      Step asks run k s
        { k with visits := before ++ after, returned := k.returned ++ [task.ticket] } s
  /-- Whoever closes a dispatcher, shuts it down or gives it up shuts the gate first. -/
  | shut {k s} (gate : k.dispatcher.accepting = true) (alone : k.visits = []) :
      Step asks run k s { k with dispatcher := k.dispatcher.shut, closing := true } s
  | sendStop {k s} (closing : k.closing = true) :
      Step asks run k s { k with dispatcher := k.dispatcher.sendStop, closing := false } s
  | turn {k s} : Step asks run k s (k.turn run s).1 (k.turn run s).2

/-- What can come about from a new dispatcher and a state. -/
inductive Reachable (asks : Request Job → Prop) (run : Job → σ → Except ε σ) (name : String)
    (start : σ) : Desk Job → σ → Prop where
  | start : Reachable asks run name start (.new name) start
  | step {k s k' s'} : Reachable asks run name start k s → Step asks run k s k' s' →
      Reachable asks run name start k' s'

/-- What can come of a desk and a state after some steps. -/
inductive Steps (asks : Request Job → Prop) (run : Job → σ → Except ε σ) (k : Desk Job) (s : σ) :
    Desk Job → σ → Prop where
  | here : Steps asks run k s k s
  | step {k' s' k'' s''} : Steps asks run k s k' s' → Step asks run k' s' k'' s'' →
      Steps asks run k s k'' s''

theorem Steps.trans {k k' k'' : Desk Job} {s s' s'' : σ} (h : Steps asks run k s k' s')
    (later : Steps asks run k' s' k'' s'') : Steps asks run k s k'' s'' := by
  induction later with
  | here => exact h
  | step _ next ih => exact .step ih next

theorem Steps.reachable {k k' : Desk Job} {name : String} {start s s' : σ}
    (h : Steps asks run k s k' s') (reached : Reachable asks run name start k s) :
    Reachable asks run name start k' s' := by
  induction h with
  | here => exact reached
  | step _ next ih => exact ih.step next

/-! ## The gate -/

/-- Clients are inside only while the gate is open. As long as the stop command is not
sent there is none in the channel, and the worker does not stop; once it is sent, it
waits in the channel until the worker ends. -/
structure Guarded (k : Desk Job) : Prop where
  orderly : k.dispatcher.Orderly
  inside : k.visits ≠ [] → k.dispatcher.accepting = true
  closing : k.closing = true → k.dispatcher.accepting = false
  untold : k.dispatcher.accepting = true ∨ k.closing = true → k.dispatcher.Untold
  told : k.dispatcher.accepting = false → k.closing = false → k.dispatcher.Told

omit [Fatal Job] in
theorem guarded_new (name : String) : (new name : Desk Job).Guarded where
  orderly := ⟨by simp [new, Dispatcher.new], fun _ => rfl⟩
  inside := by simp [new]
  closing := by simp [new]
  untold := fun _ => Dispatcher.untold_new name
  told := by simp [new, Dispatcher.new]

theorem Guarded.step {k k' : Desk Job} {s s' : σ} (h : k.Guarded)
    (step : Step asks run k s k' s') : k'.Guarded := by
  obtain ⟨orderly, inside, closing, untold, told⟩ := h
  cases step with
  | enter request allowed gate => exact ⟨orderly, fun _ => gate, closing, untold, told⟩
  | refuse gate free => exact ⟨orderly, inside, closing, untold, told⟩
  | count task before after visit =>
      have gate := inside (by simp [visit])
      have goes := untold (.inl gate)
      exact ⟨⟨orderly.1, orderly.2⟩, fun _ => gate, closing, fun _ => ⟨goes.1, goes.2⟩, told⟩
  | send task before after visit listens =>
      have gate := inside (by simp [visit])
      have goes := untold (.inl gate)
      exact ⟨goes.orderly listens _, fun _ => gate, closing, fun _ => goes.send task,
        fun shut => absurd gate (by simpa [Dispatcher.send] using shut)⟩
  | fail task before after visit deaf =>
      have gate := inside (by simp [visit])
      have goes := untold (.inl gate)
      exact ⟨⟨orderly.1, orderly.2⟩, fun _ => gate, closing, fun _ => ⟨goes.1, goes.2⟩, told⟩
  | leave task before after visit =>
      have gate := inside (by simp [visit])
      exact ⟨orderly, fun _ => gate, closing, untold, told⟩
  | shut gate alone =>
      have goes := untold (.inl gate)
      exact ⟨⟨orderly.1, orderly.2⟩, fun someone => absurd alone someone, fun _ => rfl,
        fun _ => ⟨goes.1, goes.2⟩, fun _ free => by simp at free⟩
  | sendStop busy =>
      have gate := closing busy
      have late : ¬ (k.dispatcher.sendStop.accepting = true ∨ false = true) := by
        simp [Dispatcher.sendStop, gate]
      cases ended : k.dispatcher.hasStopped with
      | true =>
          have same : k.dispatcher.sendStop = k.dispatcher := by simp [Dispatcher.sendStop, ended]
          exact ⟨by simpa only [same] using orderly, inside,
            fun busy => absurd busy Bool.false_ne_true, fun later => absurd later late,
            fun _ _ => .inr ended⟩
      | false =>
          have last : k.dispatcher.sendStop.channel = k.dispatcher.channel ++ [.stop] := by
            simp [Dispatcher.sendStop, ended]
          have orderly := (untold (.inr busy)).orderly ended .stop
          exact ⟨⟨by simpa only [last] using orderly.1,
            fun stopped => absurd (ended.symm.trans stopped) Bool.false_ne_true⟩, inside,
            fun busy => absurd busy Bool.false_ne_true, fun later => absurd later late,
            fun _ _ => .inl (by simp [last])⟩
  | turn =>
      have turned := Dispatcher.turned (serve run) k.dispatcher s
      have same := turned.worksOff.accepting
      refine ⟨orderly.turned turned, fun someone => ?_, fun busy => ?_, fun goes => ?_, fun shut free => ?_⟩
      · exact same.trans (inside someone)
      · exact same.trans (closing busy)
      · exact (untold (goes.imp_left fun gate => same.symm.trans gate)).turned turned
      · exact (told (same.symm.trans shut) free).turned turned

/-! ## Runs that can be computed -/

/-- A move at a desk. A client inside the gate is told to go on by its place among the
visits. -/
inductive Move (Job : Type) where
  | enter (request : Request Job)
  | refuse
  | advance (place : Nat)
  | shut
  | sendStop
  | turn

def advance (k : Desk Job) (place : Nat) : Desk Job :=
  match k.visits[place]? with
  | some ⟨task, .entered⟩ =>
      { k with dispatcher := k.dispatcher.announce, visits := k.visits.set place ⟨task, .counted⟩ }
  | some ⟨task, .counted⟩ =>
      if k.dispatcher.hasStopped then
        { k with
          dispatcher := k.dispatcher.withdraw
          visits := k.visits.eraseIdx place
          rejected := k.rejected ++ [task.ticket] }
      else
        { k with
          dispatcher := k.dispatcher.send task
          visits := k.visits.set place ⟨task, .sent⟩
          accepted := k.accepted ++ [task] }
  | some ⟨task, .sent⟩ =>
      { k with visits := k.visits.eraseIdx place, returned := k.returned ++ [task.ticket] }
  | none => k

def move (asks : Request Job → Prop) [DecidablePred asks] (run : Job → σ → Except ε σ) (k : Desk Job)
    (s : σ) : Move Job → Desk Job × σ
  | .enter request => (if asks request ∧ k.dispatcher.accepting then k.enter request else k, s)
  | .refuse => (if k.dispatcher.accepting ∨ k.closing then k else k.refuse, s)
  | .advance place => (k.advance place, s)
  | .shut =>
      (if k.dispatcher.accepting ∧ k.visits.isEmpty then
        { k with dispatcher := k.dispatcher.shut, closing := true } else k, s)
  | .sendStop =>
      (if k.closing then { k with dispatcher := k.dispatcher.sendStop, closing := false } else k, s)
  | .turn => k.turn run s

def moves (asks : Request Job → Prop) [DecidablePred asks] (run : Job → σ → Except ε σ) :
    List (Move Job) → Desk Job → σ → Desk Job × σ
  | [], k, s => (k, s)
  | m :: rest, k, s => moves asks run rest (k.move asks run s m).1 (k.move asks run s m).2

omit [Fatal Job] in
theorem visits_split {k : Desk Job} {place : Nat} {v : Visit Job} (h : k.visits[place]? = some v) :
    place < k.visits.length ∧ k.visits = k.visits.take place ++ v :: k.visits.drop (place + 1) := by
  obtain ⟨inside, found⟩ := List.getElem?_eq_some_iff.1 h
  rw [← found, List.getElem_cons_drop, List.take_append_drop]
  exact ⟨inside, rfl⟩

theorem advance_step (k : Desk Job) (s : σ) (place : Nat) :
    k.advance place = k ∨ Step asks run k s (k.advance place) s := by
  unfold advance
  split
  · next task found =>
      obtain ⟨inside, parts⟩ := visits_split found
      rw [List.set_eq_take_append_cons_drop, if_pos inside]
      exact .inr (.count task _ _ parts)
  · next task found =>
      obtain ⟨inside, parts⟩ := visits_split found
      split
      · next deaf =>
          rw [List.eraseIdx_eq_take_drop_succ]
          exact .inr (.fail task _ _ parts deaf)
      · next listens =>
          rw [List.set_eq_take_append_cons_drop, if_pos inside]
          exact .inr (.send task _ _ parts (Bool.eq_false_iff.2 listens))
  · next task found =>
      rw [List.eraseIdx_eq_take_drop_succ]
      exact .inr (.leave task _ _ (visits_split found).2)
  · exact .inl rfl

theorem move_step (asks : Request Job → Prop) [DecidablePred asks] (run : Job → σ → Except ε σ)
    (k : Desk Job) (s : σ) (m : Move Job) :
    k.move asks run s m = (k, s) ∨
      Step asks run k s (k.move asks run s m).1 (k.move asks run s m).2 := by
  cases m with
  | enter request =>
      simp only [move]
      split
      · next allowed => exact .inr (.enter request allowed.1 allowed.2)
      · exact .inl rfl
  | refuse =>
      simp only [move]
      split
      · exact .inl rfl
      · next shut =>
          simp only [not_or, Bool.not_eq_true] at shut
          exact .inr (.refuse shut.1 shut.2)
  | advance place => exact (advance_step k s place).imp_left fun same => by rw [move, same]
  | shut =>
      simp only [move]
      split
      · next free => exact .inr (.shut free.1 (List.isEmpty_iff.1 free.2))
      · exact .inl rfl
  | sendStop =>
      simp only [move]
      split
      · next closing => exact .inr (.sendStop closing)
      · exact .inl rfl
  | turn => exact .inr .turn

/-- Whatever moves are made, what comes of them can come about. -/
theorem steps_moves (asks : Request Job → Prop) [DecidablePred asks] (run : Job → σ → Except ε σ)
    (ms : List (Move Job)) (k : Desk Job) (s : σ) :
    Steps asks run k s (k.moves asks run ms s).1 (k.moves asks run ms s).2 := by
  induction ms generalizing k s with
  | nil => exact .here
  | cons m rest ih =>
      refine Steps.trans ?_ (ih (k.move asks run s m).1 (k.move asks run s m).2)
      rcases move_step asks run k s m with same | next
      · rw [same]
        exact .here
      · exact .step .here next

theorem Reachable.moves [DecidablePred asks] {name : String} {start s : σ} {k : Desk Job}
    (h : Reachable asks run name start k s) (ms : List (Move Job)) :
    Reachable asks run name start (k.moves asks run ms s).1 (k.moves asks run ms s).2 :=
  (steps_moves asks run ms k s).reachable h

end Desk

end FleetStore
