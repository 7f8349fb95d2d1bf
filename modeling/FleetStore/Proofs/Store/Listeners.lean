import FleetStore.Store.Connection
import Mathlib.Data.List.Chain

/-! # What listeners hear

Each listener of a connection hears the changes of the status since it was added and nothing else,
whatever is done to the connection. So what it has heard goes from the status under which it was
added to the status there is now, and never twice in a row to the same one.
-/

namespace FleetStore.Connection

open ConnectionStatus

/-- What is done to a connection. -/
inductive Event where
  | listen (tag : String)
  | set (status : ConnectionStatus)
deriving DecidableEq, Repr

namespace Event

def tag? : Event → Option String
  | .listen tag => some tag
  | .set _ => none

def status? : Event → Option ConnectionStatus
  | .listen _ => none
  | .set status => some status

end Event

def perform (c : Connection) : Event → Connection
  | .listen tag => c.addListener tag
  | .set status => c.setStatus status

def run (c : Connection) (events : List Event) : Connection :=
  events.foldl perform c

/-- The status that was set last, if one was set at all. -/
def statusAfter (start : ConnectionStatus) (events : List Event) : ConnectionStatus :=
  (events.filterMap Event.status?).getLast?.getD start

/-- The new statuses of those events that change the status, when it is `current` before all of
them. -/
def changes (current : ConnectionStatus) : List Event → List ConnectionStatus
  | [] => []
  | .listen _ :: rest => changes current rest
  | .set status :: rest =>
      if current = status then changes current rest else status :: changes status rest

/-- The listeners that events add, and what they hear of later events. -/
def newcomers (current : ConnectionStatus) : List Event → List Listener
  | [] => []
  | .listen tag :: rest => ⟨tag, changes current rest⟩ :: newcomers current rest
  | .set status :: rest => newcomers status rest

/-! ## Steps and runs -/

variable {c : Connection} {start current : ConnectionStatus}

theorem setStatus_eq (c : Connection) (status : ConnectionStatus) :
    c.setStatus status =
      { c with
        status
        listeners := c.listeners.map fun l =>
          { l with heard := l.heard ++ if c.status = status then [] else [status] } } := by
  unfold setStatus
  by_cases same : c.status = status
  · subst same
    simp
  · simp [same]

theorem statusAfter_set (start status : ConnectionStatus) (rest : List Event) :
    statusAfter start (.set status :: rest) = statusAfter status rest := by
  simp [statusAfter, Event.status?, List.getLast?_cons]

theorem changes_set (current status : ConnectionStatus) (rest : List Event) :
    changes current (.set status :: rest) =
      (if current = status then [] else [status]) ++ changes status rest := by
  by_cases same : current = status
  · simp [changes, same]
  · simp [changes, same]

/-- Every listener there is hears the changes, and so does every new one from where it is added. -/
theorem run_eq (c : Connection) (events : List Event) :
    c.run events =
      { url := c.url
        status := statusAfter c.status events
        listeners :=
          c.listeners.map (fun l => { l with heard := l.heard ++ changes c.status events }) ++
            newcomers c.status events } := by
  induction events generalizing c with
  | nil => simp [run, statusAfter, changes, newcomers]
  | cons e rest ih =>
      refine (ih (c.perform e)).trans ?_
      cases e with
      | listen tag => simp [perform, addListener, statusAfter, Event.status?, changes, newcomers]
      | set status => simp [perform, setStatus_eq, statusAfter_set, changes_set, newcomers]

theorem tags_newcomers (current : ConnectionStatus) (events : List Event) :
    (newcomers current events).map Listener.tag = events.filterMap Event.tag? := by
  induction events generalizing current with
  | nil => rfl
  | cons e rest ih => cases e <;> simp [newcomers, Event.tag?, List.filterMap_cons, ih]

theorem run_append (c : Connection) (before after : List Event) :
    c.run (before ++ after) = (c.run before).run after :=
  List.foldl_append

theorem tags_run_new (url : String) (start : ConnectionStatus) (events : List Event) :
    ((new url start).run events).listeners.map Listener.tag = events.filterMap Event.tag? := by
  rw [run_eq]
  exact tags_newcomers start events

/-- Listeners are counted in the order in which they were added. -/
theorem run_listen (url : String) (start : ConnectionStatus) (before : List Event) (tag : String)
    (after : List Event) :
    let earlier := (new url start).run before
    let c := (new url start).run (before ++ .listen tag :: after)
    c.status = statusAfter earlier.status after ∧
      c.listeners[(before.filterMap Event.tag?).length]? =
        some ⟨tag, changes earlier.status after⟩ := by
  intro earlier c
  have later : c = (earlier.addListener tag).run after := by
    rw [show c = (new url start).run (before ++ .listen tag :: after) from rfl, run_append]
    rfl
  have number : (before.filterMap Event.tag?).length = earlier.listeners.length := by
    rw [← tags_run_new url start, List.length_map]
  rw [later, run_eq, number]
  exact ⟨rfl, by simp [addListener]⟩

/-! ## Calls -/

/-- What some calls, made one after another, make of listeners: each goes to the next listener with
its tag. -/
def called : List Listener → List (String × ConnectionStatus) → List Listener
  | listeners, [] => listeners
  | [], _ :: _ => []
  | l :: rest, (tag, status) :: calls =>
      if l.tag = tag then { l with heard := l.heard ++ [status] } :: called rest calls
      else l :: called rest ((tag, status) :: calls)

theorem called_take (listeners : List Listener) (status : ConnectionStatus) (k : Nat) :
    called listeners ((listeners.map fun l => (l.tag, status)).take k) =
      (listeners.map fun l => { l with heard := l.heard ++ [status] }).take k ++
        listeners.drop k := by
  induction listeners generalizing k with
  | nil => simp [called]
  | cons l rest ih =>
      cases k with
      | zero => rfl
      | succ k => simp [called, ih]

/-- When the first `k` of the calls are made that setting a status makes, the first `k` listeners
are as they are after it, and the others as they were before. -/
theorem called_callsOf (c : Connection) (status : ConnectionStatus) (k : Nat) :
    called c.listeners ((c.callsOf status).take k) =
      (c.setStatus status).listeners.take k ++ c.listeners.drop k := by
  unfold callsOf setStatus
  split
  · rw [List.take_nil, List.take_append_drop]
    cases c.listeners <;> rfl
  · exact called_take c.listeners status k

/-! ## What is heard -/

/-- What can be said of statuses that were heard since a listener was added: no two in a row are the
same, they go on from the status under which it was added, and they lead to the one there is now. -/
structure Trail (added now : ConnectionStatus) (heard : List ConnectionStatus) : Prop where
  distinct : heard.IsChain (· ≠ ·)
  first : ∀ status ∈ heard.head?, status ≠ added
  last : ∀ status ∈ heard.getLast?, status = now
  silent : heard = [] → added = now

theorem changes_isChain (current : ConnectionStatus) (events : List Event) :
    (current :: changes current events).IsChain (· ≠ ·) := by
  induction events generalizing current with
  | nil => exact .singleton _
  | cons e rest ih =>
      cases e with
      | listen tag => exact ih current
      | set status =>
          unfold changes
          split
          · exact ih current
          · next other => exact .cons_cons other (ih status)

theorem changes_getLast? (current : ConnectionStatus) (events : List Event) :
    (current :: changes current events).getLast? = some (statusAfter current events) := by
  induction events generalizing current with
  | nil => rfl
  | cons e rest ih =>
      cases e with
      | listen tag => exact ih current
      | set status =>
          rw [statusAfter_set, changes]
          split
          · next same => rw [same, ih]
          · rw [List.getLast?_cons_cons, ih]

theorem trail_changes (added : ConnectionStatus) (events : List Event) :
    Trail added (statusAfter added events) (changes added events) := by
  have chain := changes_isChain added events
  have last := changes_getLast? added events
  generalize changes added events = heard at chain last
  cases heard with
  | nil => exact ⟨.nil, by simp, by simp, fun _ => Option.some.inj last⟩
  | cons status rest =>
      rw [List.getLast?_cons_cons] at last
      rw [List.isChain_cons_cons] at chain
      refine ⟨chain.2, ?_, ?_, by simp⟩
      · rintro _ ⟨⟩
        exact chain.1.symm
      · rw [last]
        rintro _ ⟨⟩
        rfl

/-- Whatever is done to a new connection, its status is the last one set, and its listeners are
those that were added, in this order. A listener has heard the new statuses of exactly those
events since it was added that changed the status. An event that changes the status calls every
listener there is once, in the order in which they were added, and any other event calls none.
These calls, one after another, are all that it does to the listeners. -/
theorem listeners_hear_changes (url : String) (start : ConnectionStatus) :
    (∀ events, let c := (new url start).run events
      c.url = url ∧ c.status = statusAfter start events ∧
        c.listeners.map Listener.tag = events.filterMap Event.tag?) ∧
    (∀ before tag after,
      let c := (new url start).run (before ++ .listen tag :: after)
      let added := ((new url start).run before).status
      ∃ heard, c.listeners[(before.filterMap Event.tag?).length]? = some ⟨tag, heard⟩ ∧
        heard = changes added after ∧ Trail added c.status heard) ∧
    ∀ before status,
      let c := (new url start).run before
      c.callsOf status =
          (if c.status = status then []
            else (before.filterMap Event.tag?).map fun tag => (tag, status)) ∧
        ((c.setStatus status).listeners = c.listeners.map fun l =>
          { l with heard := l.heard ++ if c.status = status then [] else [status] }) ∧
        ∀ k, called c.listeners ((c.callsOf status).take k) =
          (c.setStatus status).listeners.take k ++ c.listeners.drop k := by
  refine ⟨fun events => ?_, fun before tag after => ?_, fun before status => ?_⟩
  · refine ⟨?_, ?_, tags_run_new url start events⟩ <;> rw [run_eq] <;> rfl
  · obtain ⟨now, found⟩ := run_listen url start before tag after
    refine ⟨_, found, rfl, ?_⟩
    rw [now]
    exact trail_changes _ after
  · intro c
    refine ⟨?_, by rw [setStatus_eq], called_callsOf c status⟩
    rw [callsOf, ← tags_run_new url start, List.map_map]
    rfl

/-- The second listener is added when the store is reached already, and setting the same status
again tells it nothing. -/
example : ((new "memory://" .connecting).run [.listen "a", .set .connected, .listen "b",
    .set .connected, .set .disconnected]).listeners =
      [⟨"a", [.connected, .disconnected]⟩, ⟨"b", [.disconnected]⟩] := by
  decide

end FleetStore.Connection
