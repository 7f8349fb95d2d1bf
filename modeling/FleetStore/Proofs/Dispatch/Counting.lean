import FleetStore.Proofs.Dispatch.Barrier

/-! # What counts as pending

Clients and the worker change one counter, and no lock is held by both. What keeps it right is
that every task is somewhere: with a client who has counted it and not sent it, in the channel,
or in the hands of the worker, who takes it off the counter last. Tasks that are lost with the
channel, because a job was fatal to the worker, are never taken off. All commands that were ever
sent are the tasks that were accepted and then at most one stop command.
-/

namespace FleetStore

/-- Whether a worker has taken a task and not counted it as done. -/
def WorkerState.holding {Job : Type} : WorkerState Job → Nat
  | .busy _ | .done | .broken => 1
  | .idle | .stopped => 0

theorem WorkerState.holding_eq {Job : Type} (w : WorkerState Job) :
    w.holding = w.current.length + w.uncounted := by
  cases w <;> rfl

theorem Dispatcher.Turned.length_channel {Job σ ε : Type} [Fatal Job] {run : Job → σ → Except ε σ}
    {d d' : Dispatcher Job} {s s' : σ} (h : Dispatcher.Turned run d s d' s') :
    d'.channel.length ≤ d.channel.length := by
  cases h with
  | takes _ _ _ sent | stops _ _ sent => simp [sent]
  | breaks => exact Nat.zero_le _
  | waits | does | counts | rests => exact Nat.le_refl _

namespace Desk

variable {Job σ ε : Type} [Fatal Job] {run : Job → σ → Except ε σ} {asks : Request Job → Prop}

/-! ## What was sent -/

/-- The commands that came into the channel in a step. -/
def sentSince (k k' : Desk Job) : List (Command (Ticketed Job)) :=
  k'.dispatcher.channel.drop k.dispatcher.channel.length

/-- What can come about, with all commands that were sent on the way. -/
inductive Transcript (asks : Request Job → Prop) (run : Job → σ → Except ε σ) (name : String)
    (start : σ) : List (Command (Ticketed Job)) → Desk Job → σ → Prop where
  | start : Transcript asks run name start [] (.new name) start
  | step {sent k s k' s'} : Transcript asks run name start sent k s → Step asks run k s k' s' →
      Transcript asks run name start (sent ++ k.sentSince k') k' s'

variable {name : String} {start s s' : σ} {k k' : Desk Job} {sent : List (Command (Ticketed Job))}

theorem Transcript.reachable (h : Transcript asks run name start sent k s) :
    Reachable asks run name start k s := by
  induction h with
  | start => exact .start
  | step _ next ih => exact ih.step next

theorem Reachable.exists_transcript (h : Reachable asks run name start k s) :
    ∃ sent, Transcript asks run name start sent k s := by
  induction h with
  | start => exact ⟨[], .start⟩
  | step _ next ih =>
      obtain ⟨sent, before⟩ := ih
      exact ⟨_, before.step next⟩

omit [Fatal Job] in
theorem sentSince_self (k : Desk Job) : k.sentSince k = [] := by
  simp [sentSince]

/-- The commands that are sent in some moves. -/
def sentBy (asks : Request Job → Prop) [DecidablePred asks] (run : Job → σ → Except ε σ) :
    List (Move Job) → Desk Job → σ → List (Command (Ticketed Job))
  | [], _, _ => []
  | m :: rest, k, s =>
      let next := k.move asks run s m
      k.sentSince next.1 ++ sentBy asks run rest next.1 next.2

theorem Transcript.moves [DecidablePred asks] (h : Transcript asks run name start sent k s)
    (ms : List (Move Job)) : Transcript asks run name start (sent ++ sentBy asks run ms k s)
      (k.moves asks run ms s).1 (k.moves asks run ms s).2 := by
  induction ms generalizing sent k s with
  | nil => simpa [sentBy, Desk.moves] using h
  | cons m rest ih =>
      rw [sentBy, ← List.append_assoc]
      rcases move_step asks run k s m with same | next
      · rw [Desk.moves, same, sentSince_self, List.append_nil]
        exact ih h
      · exact ih (h.step next)

/-- What was sent are the tasks that were accepted and then the stop command, if it was. -/
theorem Transcript.sent_eq (h : Transcript asks run name start sent k s) :
    sent = k.accepted.map .run ∨ sent = k.accepted.map .run ++ [.stop] ∧
      k.dispatcher.accepting = false ∧ k.closing = false := by
  induction h with
  | start => exact .inl rfl
  | @step sent k s k' s' before next ih =>
      have guarded := before.reachable.sound.guarded
      cases next with
      | enter | refuse | count | fail | leave =>
          simpa [sentSince, enter, refuse, Dispatcher.announce, Dispatcher.withdraw] using ih
      | send task before after visit listens =>
          have gate := guarded.inside (by simp [visit])
          rcases ih with rfl | ⟨_, shut, _⟩
          · exact .inl (by simp [sentSince, Dispatcher.send])
          · exact absurd (shut.symm.trans gate) Bool.false_ne_true
      | shut gate alone =>
          rcases ih with rfl | ⟨_, shut, _⟩
          · exact .inl (by simp [sentSince, Dispatcher.shut])
          · exact absurd (shut.symm.trans gate) Bool.false_ne_true
      | sendStop closing =>
          rcases ih with rfl | ⟨_, _, closed⟩
          · cases ended : k.dispatcher.hasStopped with
            | true => exact .inl (by simp [sentSince, Dispatcher.sendStop, ended])
            | false =>
                refine .inr ⟨by simp [sentSince, Dispatcher.sendStop, ended], ?_, rfl⟩
                exact guarded.closing closing
          · exact absurd (closed.symm.trans closing) Bool.false_ne_true
      | turn =>
          have turned := Dispatcher.turned (serve run) k.dispatcher s
          have nothing : k.sentSince (k.turn run s).1 = [] :=
            List.drop_eq_nil_of_le turned.length_channel
          have same := turned.worksOff.accepting
          rw [nothing, List.append_nil]
          exact ih.imp_right fun after => ⟨after.1, same.trans after.2.1, after.2.2⟩

omit [Fatal Job] in
theorem countP_stop (tasks : List (Task (Ticketed Job))) :
    ((tasks.map Command.run).countP fun command => command.task?.isNone) = 0 := by
  simp [List.countP_eq_zero, Command.task?]

theorem Transcript.once (h : Transcript asks run name start sent k s) :
    (sent.countP fun command => command.task?.isNone) ≤ 1 := by
  rcases h.sent_eq with rfl | ⟨rfl, _⟩
  · rw [countP_stop]
    exact Nat.zero_le 1
  · rw [List.countP_append, countP_stop]
    simp [Command.task?]

theorem Transcript.last (h : Transcript asks run name start sent k s) (i : Nat)
    (there : sent[i]? = some .stop) : i + 1 = sent.length := by
  rcases h.sent_eq with rfl | ⟨rfl, _⟩
  · simp at there
  · rw [List.getElem?_append] at there
    split at there
    · simp at there
    · next after =>
        have first := (List.getElem?_eq_some_iff.1 there).1
        simp at first after ⊢
        omega

/-! ## The counter -/

/-- What the counter, the gate and the channel of a desk say after some commands were sent. -/
structure Accounted (asks : Request Job → Prop) (run : Job → σ → Except ε σ) (start : σ)
    (sent : List (Command (Ticketed Job))) (k : Desk Job) (s : σ) : Prop where
  /-- What counts as pending waits in the channel, is in the hands of the worker, is counted
  by a client who has not sent it, or is lost. -/
  pending : k.dispatcher.pending = (k.dispatcher.channel.filterMap Command.task?).length +
    k.dispatcher.worker.holding + k.counted + k.lost.length
  /-- Something is lost only behind a task that was fatal to the worker. -/
  lost : k.lost ≠ [] → ∃ task ∈ k.finished, task.isFatal = true
  /-- A worker that is about to take one off the counter finds one there, and so does a client
  who takes back what it has counted. -/
  above : k.dispatcher.worker = .done ∨ (∃ v ∈ k.visits, v.stage = .counted) →
    0 < k.dispatcher.pending
  /-- A client who is about to send is heard, unless a task was fatal to the worker. -/
  heard : ∀ v ∈ k.visits, v.stage = .counted →
    (k.dispatcher.hasStopped = true ↔ ∃ task ∈ k.finished, task.isFatal = true)
  once : (sent.countP fun command => command.task?.isNone) ≤ 1
  last : ∀ i, sent[i]? = some .stop → i + 1 = sent.length
  gate : k.dispatcher.accepting = false → ∀ k' s', Steps asks run k s k' s' →
    k'.dispatcher.accepting = false
  /-- The state is what the finished tasks have made of it. -/
  state : s = k.finished.foldl (Dispatcher.perform (serve run)) start
  /-- When nothing is pending everything that was accepted is done, and so is the task of every
  submission that has returned. -/
  finished : k.dispatcher.pending = 0 → k.finished = k.accepted ∧
    ∀ n ∈ k.returned, ∃ task ∈ k.finished, task.ticket = n

omit [Fatal Job] in
theorem Booked.pending_eq (h : k.Booked) :
    k.dispatcher.pending = (k.dispatcher.channel.filterMap Command.task?).length +
      k.dispatcher.worker.holding + k.counted + k.lost.length := by
  rw [h.pending, Dispatcher.backlog, List.length_append, WorkerState.holding_eq]
  omega

omit [Fatal Job] in
theorem counted_pos {v : Visit Job} (inside : v ∈ k.visits) (stage : v.stage = .counted) :
    0 < k.counted :=
  List.countP_pos_iff.2 ⟨v, inside, by simp [stage]⟩

/-- When nothing is pending, all that was accepted is done. -/
theorem Sound.finished_of_pending (h : k.Sound) (booked : k.Booked)
    (none : k.dispatcher.pending = 0) : k.finished = k.accepted := by
  have pending := booked.pending
  have nothing : k.dispatcher.backlog ++ k.lost = [] :=
    List.length_eq_zero_iff.1 (by rw [List.length_append]; omega)
  rw [h.logged.accepted, nothing, List.append_nil]

/-- While somebody is inside, the worker has ended only if it is broken. -/
theorem Sound.ended_iff (h : k.Sound) {v : Visit Job} (inside : v ∈ k.visits) :
    k.dispatcher.hasStopped = true ↔ ∃ task ∈ k.finished, task.isFatal = true := by
  have gate := h.guarded.inside (List.ne_nil_of_mem inside)
  have goesOn := (h.guarded.untold (.inl gate)).goesOn
  rw [← h.broken_iff]
  exact WorkerState.hasEnded_iff.trans ⟨fun ended => ended.resolve_left goesOn, .inr⟩

/-- At every moment of every run the counter is right but for what is lost, and not below what is
taken off it, the stop command is sent at most once and is the last, and the gate stays shut. -/
theorem pending_accounted (h : Transcript asks run name start sent k s) :
    Accounted asks run start sent k s where
  pending := h.reachable.booked.pending_eq
  lost something := by
    have sound := h.reachable.sound
    refine sound.broken_iff.1 (Classical.byContradiction fun alive => ?_)
    exact something (sound.logged.whole alive).1
  above taking := by
    have pending := h.reachable.booked.pending
    rcases taking with done | ⟨v, inside, stage⟩
    · rw [pending, done, WorkerState.uncounted]
      omega
    · have := counted_pos inside stage
      omega
  heard v inside _ := h.reachable.sound.ended_iff inside
  once := h.once
  last := h.last
  gate shut k' s' later := later.shut_stays shut
  state := h.reachable.state
  finished none := by
    have sound := h.reachable.sound
    have all := sound.finished_of_pending h.reachable.booked none
    refine ⟨all, fun n returned => ?_⟩
    rw [all]
    exact List.mem_map.1 (sound.tallied.mem_returned returned)

/-- One client has counted a job and not sent it, one job waits in the channel, and the worker is at
a third one. -/
def crowded : List (Move Jotting) :=
  [.enter (.submit .fail), .enter (.submit (.write 7)), .enter (.submit (.write 8)), .advance 0,
    .advance 1, .advance 2, .advance 0, .advance 2, .turn]

/-- The clients leave, the dispatcher is closed, and the worker does everything that it was
sent. -/
def emptied : List (Move Jotting) :=
  [.advance 0, .advance 0, .advance 0, .advance 0, .shut, .sendStop] ++ List.replicate 9 .turn

/-- The counter of a desk in the middle of a run and at its end. -/
theorem crowded_accounted :
    let (k, s) := (new "worker" : Desk Jotting).moves (fun _ => True) jot crowded []
    let (k', s') := k.moves (fun _ => True) jot emptied s
    Transcript (fun _ => True) jot "worker" [] [.run (.job (0, .fail)), .run (.job (2, .write 8))] k s ∧
      k.dispatcher.pending = 1 + 1 + 1 + 0 ∧
      Transcript (fun _ => True) jot "worker" [] [.run (.job (0, .fail)), .run (.job (2, .write 8)),
        .run (.job (1, .write 7)), .stop] k' s' ∧
      k'.dispatcher.accepting = false ∧ k'.dispatcher.pending = 0 ∧ k'.returned = [0, 1, 2] ∧
      (∀ n ∈ k'.returned, ∃ task ∈ k'.finished, task.ticket = n) ∧ s' = [8, 7] := by
  have fresh : Transcript (fun _ => True) jot "worker" [] [] _ _ := .start
  have middle := fresh.moves crowded
  have done := middle.moves emptied
  exact ⟨middle, (pending_accounted middle).pending, done, by decide, by decide, by decide,
    ((pending_accounted done).finished (by decide)).2, by decide⟩

/-- A job that is fatal to the worker goes in, one behind it returns, and a client has counted a
third. -/
def stranded : List (Move Jotting) :=
  [.enter (.submit .burst), .enter (.submit (.write 7)), .enter (.submit (.write 8)), .advance 0,
    .advance 0, .advance 0, .advance 0, .advance 0, .advance 0, .advance 0, .turn, .turn]

/-- The counter is not right when a job is lost, and the client who is about to send fails. -/
theorem lost_job_stays_pending :
    let (k, s) := (new "worker" : Desk Jotting).moves (fun _ => True) jot stranded []
    Reachable (fun _ => True) jot "worker" [] k s ∧ k.returned = [0, 1] ∧
      k.dispatcher.pending ≠ (k.dispatcher.channel.filterMap Command.task?).length +
        k.dispatcher.worker.holding + k.counted ∧
      ∃ k', Step (fun _ => True) jot k s k' s ∧ k'.rejected = [2] := by
  have reached : Reachable (fun _ => True) jot "worker" [] _ _ := Reachable.start.moves stranded
  exact ⟨reached, by decide, by decide, _, .fail (.job (2, .write 8)) [] [] rfl rfl, rfl⟩

end Desk

end FleetStore
