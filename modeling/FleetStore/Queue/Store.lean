import FleetStore.Queue.Dispatcher
import FleetStore.Queue.Settings
import FleetStore.Store.Interface

/-! # The queued store

A queued store puts two workers in front of a store: one writes and purges, the
other saves files. A write is accepted or rejected at once and applied later, in
the order in which the writes were accepted; reads are answered at once by the
store behind the queue.

Behind a proxy, statements must not be run directly. They are patched, and the
writes that come from patching go through the queue. Otherwise those writes are
applied at once.
-/

namespace FleetStore

/-- What the worker for writes is given to do. -/
inductive WriteJob where
  /-- A copy of a prepared write, as it was when it was accepted. -/
  | execute (statement : Prepared)
  | apply (w : BoundWrite)
  | purge (agent : String)

/-- What a write job does to the store behind the queue. -/
def WriteJob.run (j : WriteJob) (s : MemoryStore) : Except ExecutionError MemoryStore :=
  match j with
  | .execute statement => s.execute statement
  | .apply w => s.applyWrite w
  | .purge agent => .ok (s.purge agent)

/-- Writes and purges run nothing of a caller's, and throw nothing. -/
instance : Fatal WriteJob :=
  ⟨fun _ => false⟩

structure FileJob where
  name : String
  source : FileSource
deriving DecidableEq, Repr

/-- What saving a file does to the store behind the queue. -/
def FileJob.run (j : FileJob) (s : MemoryStore) : Except StoreError MemoryStore :=
  s.saveFile j.name j.source

/-- A source belongs to the caller who hands it over, and what it throws is dropped by the
worker. -/
instance : Fatal FileJob where
  isFatal j :=
    match j.source.ending with
    | .thrown _ again => again
    | .whole | .torn _ => false

/-- A store behind a queue. -/
structure QueuedStore where
  settings : Settings
  delegate : MemoryStore
  writer : Dispatcher WriteJob
  filer : Dispatcher FileJob
  shutDown : Bool

/-- The workers of a queued store. -/
inductive Worker where
  | writer
  | filer
deriving DecidableEq, Repr

/-- Which workers get through to the store behind the queue. -/
structure Gates where
  writes : Bool
  files : Bool
deriving DecidableEq, Repr

def Gates.allOpen : Gates := ⟨true, true⟩

namespace QueuedStore

/-- A queue in front of a store. -/
def new (settings : Settings) (delegate : MemoryStore) : QueuedStore :=
  { settings, delegate, writer := .new settings.writerName, filer := .new settings.filerName,
    shutDown := false }

/-- A queue in front of a store, if its workers can have their names. -/
def start (settings : Settings) (delegate : MemoryStore) : Except NameFault QueuedStore := do
  Dispatcher.checkName settings.writerName
  Dispatcher.checkName settings.filerName
  return new settings delegate

/-- The writes and purges that are not yet counted as done. -/
def pendingWrites (s : QueuedStore) : Nat :=
  s.writer.pending

/-! ## Statements -/

/-- Hands a job to the worker for writes. -/
def submitWrite (s : QueuedStore) (j : WriteJob) : Option QueuedStore :=
  (s.writer.submit? j).map fun writer => { s with writer }

def accept (s : QueuedStore) (j : WriteJob) : Except ExecutionError QueuedStore :=
  match s.submitWrite j with
  | some s => .ok s
  | none => .error .rejected

/-- Queues a prepared write. What can be seen to be wrong with it is answered at once;
how the write itself turns out is not. -/
def execute (s : QueuedStore) (statement : Prepared) : Except ExecutionError QueuedStore :=
  if s.settings.proxied then .error .proxied
  else if statement.compiled.kind.isQuery then .error .notAWrite
  else
    match statement.parameters with
    | .error e => .error (.patch e)
    | .ok _ => s.accept (.execute statement)

/-- Runs a prepared query on the store behind the queue. -/
def executeQuery {α : Type} (s : QueuedStore) (statement : Prepared) :
    Except ExecutionError (Cursor α) :=
  if s.settings.proxied then .error .proxied else s.delegate.executeQuery statement

/-- Runs a patched write: behind a proxy it is queued. -/
def applyWrite (s : QueuedStore) (w : BoundWrite) : Except ExecutionError QueuedStore :=
  if s.settings.proxied then s.accept (.apply w)
  else (s.delegate.applyWrite w).map fun delegate => { s with delegate }

def purge (s : QueuedStore) (agent : String) : Except StoreError QueuedStore :=
  match s.submitWrite (.purge agent) with
  | some s => .ok s
  | none => .error .closed

def saveFile (s : QueuedStore) (name : String) (source : FileSource) :
    Except StoreError QueuedStore :=
  match s.filer.submit? ⟨name, source⟩ with
  | some filer => .ok { s with filer }
  | none => .error .closed

instance : Store QueuedStore where
  register s c := (s.delegate.register c).map fun delegate => { s with delegate }
  prepare s c descriptor :=
    (s.delegate.prepare c descriptor).map fun (statement, delegate) =>
      (statement, { s with delegate })
  execute := execute
  executeQuery := executeQuery
  applyWrite := applyWrite
  runQuery s q := s.delegate.runQuery q
  saveFile := saveFile
  loadFile s name := s.delegate.loadFile name
  purge := purge
  connection s := s.delegate.connection
  listen s tag := { s with delegate := Store.listen s.delegate tag }

/-! ## Workers -/

def turn (s : QueuedStore) : Worker → QueuedStore
  | .writer =>
      let (writer, delegate) := s.writer.turn WriteJob.run s.delegate
      { s with writer, delegate }
  | .filer =>
      let (filer, delegate) := s.filer.turn FileJob.run s.delegate
      { s with filer, delegate }

/-- The steps of several turns, one after another. -/
def turns (s : QueuedStore) (order : List Worker) : QueuedStore :=
  order.foldl turn s

/-- Lets both workers go on until they have nothing to do or stand at a closed gate. -/
def settle (gates : Gates) (s : QueuedStore) : QueuedStore :=
  let (writer, delegate) := s.writer.settle (fun _ => !gates.writes) WriteJob.run s.delegate
  let (filer, delegate) := s.filer.settle (fun _ => !gates.files) FileJob.run delegate
  { s with writer, filer, delegate }

/-- Waits until the workers have passed everything queued so far, first the one for
writes and then the one for files; `wait` is what the workers do in that time. The
answer is `false` if a worker does not get there. -/
def flush (wait : QueuedStore → QueuedStore) (s : QueuedStore) :
    Except StoreError Bool × QueuedStore :=
  match s.writer.mark? with
  | none => (.error .closed, s)
  | some (mark, writer) =>
      let s := wait { s with writer }
      if s.writer.hasPassed mark then
        match s.filer.mark? with
        | none => (.error .closed, s)
        | some (mark, filer) =>
            let s := wait { s with filer }
            (.ok (s.filer.hasPassed mark), s)
      else (.ok false, s)

def close (s : QueuedStore) : QueuedStore :=
  { s with writer := s.writer.close, filer := s.filer.close, shutDown := true }

/-- Closes both queues, waits for the workers and gives up the store behind them,
whether the workers are through or not. Only the first shutdown does anything. -/
def shutdown (wait : QueuedStore → QueuedStore) (s : QueuedStore) : QueuedStore :=
  if s.shutDown then s
  else
    let s := wait s.close
    { s with delegate := s.delegate.shutdown }

end QueuedStore

end FleetStore
