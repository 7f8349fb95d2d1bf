import FleetStore.Text.Blank

/-! # Dispatchers

A dispatcher owns one worker, which does jobs in the order in which they came
through a channel. Submitting a job counts it as pending and then sends it. When
the dispatcher is closed it takes no more jobs, and a last command tells the
worker to stop after all that was sent before. A mark is a task that only signals
that the worker has come to it: once it is passed, everything before it is done.

The worker goes in small steps, so that what others do may come between any two
of them. A job that fails leaves the state as it was, and the worker goes on. A
job may throw, which the worker catches, and drops what was thrown. If that throws
in turn, nobody catches it: the worker ends, the job is never taken off the count, and
whatever waits in the channel is lost.
-/

namespace FleetStore

/-- Which jobs are fatal to the worker that does them: they throw something that throws
again when it is dropped. -/
class Fatal (Job : Type) where
  isFatal : Job → Bool

/-- Jobs of which nothing else is said are fatal to no worker. -/
instance (priority := low) {Job : Type} : Fatal Job := ⟨fun _ => false⟩

/-- What a worker is given to do. -/
inductive Task (Job : Type) where
  | job (j : Job)
  | mark (number : Nat)
deriving DecidableEq, Repr

/-- The marks that are passed when a task is done. -/
def Task.signals {Job : Type} : Task Job → List Nat
  | .job _ => []
  | .mark number => [number]

def Task.isFatal {Job : Type} [Fatal Job] : Task Job → Bool
  | .job j => Fatal.isFatal j
  | .mark _ => false

/-- What is sent to a worker. -/
inductive Command (Job : Type) where
  | run (task : Task Job)
  | stop
deriving DecidableEq, Repr

/-- What a worker is about. -/
inductive WorkerState (Job : Type) where
  /-- It waits for a command. -/
  | idle
  /-- It has taken a task and is not through with it. -/
  | busy (task : Task Job)
  /-- It has done a task and not yet counted it. -/
  | done
  | stopped
  /-- It has ended with a job that was fatal to it. -/
  | broken
deriving DecidableEq, Repr

/-- Whether there is no worker any more. -/
def WorkerState.hasEnded {Job : Type} : WorkerState Job → Bool
  | .stopped | .broken => true
  | .idle | .busy _ | .done => false

/-- A worker, its channel and the gate in front of the channel. -/
structure Dispatcher (Job : Type) where
  name : String
  accepting : Bool
  channel : List (Command Job)
  worker : WorkerState Job
  /-- The tasks that were submitted and not yet counted as done. -/
  pending : Nat
  /-- How many tasks were submitted. Marks are numbered by it. -/
  calls : Nat
  /-- The marks that the worker has passed, the first one first. -/
  passed : List Nat
deriving DecidableEq, Repr

structure NameFault where
  name : String
deriving DecidableEq, Repr

namespace NameFault

/-- The byte of the name at which the first NUL stands. -/
def offset (f : NameFault) : Nat :=
  Text.byteLength (f.name.toList.takeWhile (· != '\x00'))

def message (f : NameFault) : String :=
  s!"the name of a worker has a NUL at byte {f.offset}"

end NameFault

namespace Dispatcher

def checkName (name : String) : Except NameFault Unit :=
  if name.toList.contains '\x00' then .error ⟨name⟩ else .ok ()

variable {Job : Type} {σ : Type} {ε : Type}

/-- A dispatcher with nothing to do. -/
def new (name : String) : Dispatcher Job :=
  { name, accepting := true, channel := [], worker := .idle, pending := 0, calls := 0,
    passed := [] }

/-- Whether there is no worker any more, because it has done everything that was sent to a
closed dispatcher or because a job was fatal to it. Whoever waits for the worker to be
through waits for this, and is not told which it is. -/
def hasStopped (d : Dispatcher Job) : Bool :=
  d.worker.hasEnded

/-! ## Submitting -/

def announce (d : Dispatcher Job) : Dispatcher Job :=
  { d with pending := d.pending + 1 }

/-- Sends a task behind everything that was sent before. -/
def send (d : Dispatcher Job) (task : Task Job) : Dispatcher Job :=
  { d with channel := d.channel ++ [.run task] }

/-- Takes back the count of a task that could not be sent. -/
def withdraw (d : Dispatcher Job) : Dispatcher Job :=
  { d with pending := d.pending - 1 }

/-- Gives a number to a task that is submitted. -/
def draw (d : Dispatcher Job) : Dispatcher Job :=
  { d with calls := d.calls + 1 }

/-- Counts a task and sends it. Without a worker the count is taken back. -/
def take? (d : Dispatcher Job) (task : Task Job) : Option (Dispatcher Job) :=
  if d.accepting && !d.hasStopped then some (d.draw.announce.send task) else none

def submit? (d : Dispatcher Job) (j : Job) : Option (Dispatcher Job) :=
  d.take? (.job j)

/-- Submits a mark and tells its number. -/
def mark? (d : Dispatcher Job) : Option (Nat × Dispatcher Job) :=
  (d.take? (.mark d.calls)).map (d.calls, ·)

def shut (d : Dispatcher Job) : Dispatcher Job :=
  { d with accepting := false }

/-- Sends the last command, at which the worker stops, if there is still a worker. -/
def sendStop (d : Dispatcher Job) : Dispatcher Job :=
  { d with channel := if d.hasStopped then d.channel else d.channel ++ [.stop] }

/-- Takes no more jobs, and lets the worker stop when it has done the ones sent so
far. Closing again does nothing. -/
def close (d : Dispatcher Job) : Dispatcher Job :=
  if d.accepting then d.shut.sendStop else d

/-- Whether the worker has passed the mark of a number. -/
def hasPassed (d : Dispatcher Job) (mark : Nat) : Bool :=
  d.passed.contains mark

/-! ## The worker -/

/-- What a job makes of the state: a job that fails leaves it as it was. -/
def attempt (run : Job → σ → Except ε σ) (j : Job) (s : σ) : σ :=
  match run j s with
  | .ok s => s
  | .error _ => s

def perform (run : Job → σ → Except ε σ) (s : σ) : Task Job → σ
  | .job j => attempt run j s
  | .mark _ => s

variable [Fatal Job]

/-- One step of the worker: it takes a command, does the task it has taken, or counts
the task it has done. A task that is fatal to it is never counted, and what waits behind
it is dropped with the channel. -/
def turn (run : Job → σ → Except ε σ) (d : Dispatcher Job) (s : σ) : Dispatcher Job × σ :=
  match d.worker with
  | .idle =>
      match d.channel with
      | [] => (d, s)
      | .run task :: rest => ({ d with channel := rest, worker := .busy task }, s)
      | .stop :: rest => ({ d with channel := rest, worker := .stopped }, s)
  | .busy task =>
      if task.isFatal then ({ d with channel := [], worker := .broken }, perform run s task)
      else ({ d with worker := .done, passed := d.passed ++ task.signals }, perform run s task)
  | .done => ({ d with worker := .idle, pending := d.pending - 1 }, s)
  | .stopped | .broken => (d, s)

/-- Whether the worker stands at a job that is held up. -/
def isHeld (held : Job → Bool) (d : Dispatcher Job) : Bool :=
  match d.worker with
  | .busy (.job j) => held j
  | _ => false

/-- At most `steps` steps of the worker, up to a job that is held up. -/
def turns (held : Job → Bool) (run : Job → σ → Except ε σ) :
    Nat → Dispatcher Job → σ → Dispatcher Job × σ
  | 0, d, s => (d, s)
  | steps + 1, d, s =>
      if d.isHeld held then (d, s)
      else
        let (d, s) := d.turn run s
        turns held run steps d s

/-- As many steps as the worker needs for everything it has been sent: each command
is taken, done and counted, and so is what it is about. -/
def stepsLeft (d : Dispatcher Job) : Nat :=
  3 * (d.channel.length + 1)

/-- Lets the worker go on until it has nothing to do or is held up. -/
def settle (held : Job → Bool) (run : Job → σ → Except ε σ) (d : Dispatcher Job) (s : σ) :
    Dispatcher Job × σ :=
  turns held run d.stepsLeft d s

end Dispatcher

end FleetStore
