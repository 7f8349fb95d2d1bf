import FleetStore.Proofs.Binding.InOrder
import FleetStore.Proofs.Queued.Change
import FleetStore.Proofs.Queued.Desks

/-! # A queued store in use

Any number of clients prepare statements, bind and rebind values, take copies,
patch, write, purge, save files and ask, in any order and from anywhere, while
the two workers of a queued store go on and while somebody may close it. A write,
a purge and a saving begin with the client going in at the gate of a worker; from
there on it moves like every client at that gate, with anything in between.

Whether a call gets that far is decided by the queued store itself, which is
what one sees of a site without tickets and without the record. What a write is
to change is written down when the call is made, by its ticket.
-/

namespace FleetStore

/-! ## Sites -/

/-- What a client can ask of a store. -/
inductive Question where
  | statement (s : Prepared)
  | query (q : BoundQuery)

/-- The rows of the tables that answer a question. -/
def Question.rows (tables : Tables) : Question → Except ExecutionError (List Record)
  | .statement s => s.boundQuery.bind tables.find
  | .query q => tables.find q

/-- A question and what came of it, with the number of changes made before. -/
structure Answer where
  question : Question
  applied : Nat
  cursor : Except ExecutionError (Cursor Record)

/-- A queued store, what its clients have in hand, and what has happened so far. -/
structure Site where
  settings : Settings
  delegate : MemoryStore
  writes : Desk WriteJob
  files : Desk FileJob
  shutDown : Bool
  /-- The prepared statements of all clients. -/
  statements : List Prepared
  /-- The statements that clients have patched. -/
  patched : List BoundStatement
  /-- What each call of a client that went in at the gate is to change, by its ticket. -/
  issued : List (Nat × Change)
  answers : List Answer

namespace Site

def new (settings : Settings) (delegate : MemoryStore) : Site :=
  { settings, delegate, writes := .new settings.writerName, files := .new settings.filerName,
    shutDown := false, statements := [], patched := [], issued := [], answers := [] }

/-- The queued store as it is without tickets and without the record. -/
def store (w : Site) : QueuedStore :=
  .ofDesks w.settings w.delegate w.writes w.files w.shutDown

theorem store_new (settings : Settings) (delegate : MemoryStore) :
    (new settings delegate).store = .new settings delegate := rfl

/-- The changes that were accepted, in the order in which they were. -/
def accepted (w : Site) : List (Nat × Change) :=
  w.writes.accepted.filterMap (Task.change? w.issued)

/-- How many of the accepted changes have been made. -/
def applied (w : Site) : Nat :=
  (w.writes.finished.filterMap (Task.change? w.issued)).length

/-- The files to be saved that were accepted, in the order in which they were. -/
def saves (w : Site) : List FileJob :=
  w.files.accepted.filterMap Task.job?

/-- How many of them have been saved. -/
def saved (w : Site) : Nat :=
  (w.files.finished.filterMap Task.job?).length

def issue (w : Site) (j : WriteJob) : Site :=
  { w with
    writes := w.writes.enter (.submit j)
    issued :=
      match j.change? with
      | some change => w.issued ++ [(w.writes.calls, change)]
      | none => w.issued }

def ask (w : Site) (question : Question) (cursor : Except ExecutionError (Cursor Record)) : Site :=
  { w with answers := w.answers ++ [⟨question, w.applied, cursor⟩] }

/-- The steps of clients, workers and those who close the store. A call that fails
without going in at a gate changes nothing, and is no step. -/
inductive Step : Site → Site → Prop where
  | prepare {w} (c : Category) (descriptor : String) (statement : Prepared) (store : QueuedStore)
      (ok : Store.prepare w.store c descriptor = .ok (statement, store)) :
      Step w { w with delegate := store.delegate, statements := w.statements ++ [statement] }
  | copy {w} (statement : Prepared) (known : statement ∈ w.statements) :
      Step w { w with statements := w.statements ++ [statement] }
  | set {w} (before : List Prepared) (statement : Prepared) (after : List Prepared) (index : Nat)
      (value : Value) (statement' : Prepared) (known : w.statements = before ++ statement :: after)
      (ok : statement.setParameter index value = .ok statement') :
      Step w { w with statements := before ++ statement' :: after }
  | patch {w} (statement : Prepared) (params : List Parameter) (bound : BoundStatement)
      (known : statement ∈ w.statements) (ok : statement.compiled.bind params = .ok bound) :
      Step w { w with patched := w.patched ++ [bound] }
  /-- A prepared write is run directly. -/
  | execute {w} (statement : Prepared) (store : QueuedStore) (known : statement ∈ w.statements)
      (ok : w.store.execute statement = .ok store) : Step w (w.issue (.execute statement))
  /-- A patched write is run behind a proxy. -/
  | apply {w} (b : BoundWrite) (store : QueuedStore) (known : .write b ∈ w.patched)
      (proxied : w.settings.proxied = true) (ok : w.store.applyWrite b = .ok store) :
      Step w (w.issue (.apply b))
  | purge {w} (agent : String) (store : QueuedStore) (ok : w.store.purge agent = .ok store) :
      Step w (w.issue (.purge agent))
  /-- A file is handed over. Whether there is still a worker for it shows when it is sent. -/
  | save {w} (name : String) (source : FileSource) (gate : w.files.dispatcher.accepting = true) :
      Step w { w with files := w.files.enter (.submit ⟨name, source⟩) }
  | askDirectly {w} (statement : Prepared) (known : statement ∈ w.statements)
      (unproxied : w.settings.proxied = false) :
      Step w (w.ask (.statement statement) (w.store.executeQuery statement))
  | askPatched {w} (q : BoundQuery) : Step w (w.ask (.query q) (Store.runQuery w.store q))
  /-- Anything that goes on at the desk for writes, but for new writes and purges. -/
  | atWrites {w} (writes : Desk WriteJob) (delegate : MemoryStore)
      (step : Desk.Step (· = .flush) WriteJob.run w.writes w.delegate writes delegate) :
      Step w { w with writes, delegate }
  /-- Anything that goes on at the desk for files, but for new files. -/
  | atFiles {w} (files : Desk FileJob) (delegate : MemoryStore)
      (step : Desk.Step (· = .flush) FileJob.run w.files w.delegate files delegate) :
      Step w { w with files, delegate }
  | shutDown {w} (first : w.shutDown = false) : Step w { w with shutDown := true }
  /-- The store behind the queues is given up when both are closed. -/
  | giveUp {w} (shut : w.shutDown = true) (writes : w.writes.dispatcher.accepting = false)
      (files : w.files.dispatcher.accepting = false) :
      Step w { w with delegate := w.delegate.shutdown }

/-- What can come of a site after some steps. -/
inductive Leads : Site → Site → Prop where
  | here {w} : Leads w w
  | step {w w' w''} : Leads w w' → Step w' w'' → Leads w w''

theorem Leads.trans {w w' w'' : Site} (h : Leads w w') (later : Leads w' w'') : Leads w w'' := by
  induction later with
  | here => exact h
  | step _ next ih => exact .step ih next

/-- Clients may flush at a gate whatever else they do there. -/
instance {Job : Type} : DecidablePred fun r : Request Job => r = .flush
  | .flush => .isTrue rfl
  | .submit _ => .isFalse nofun

theorem Leads.stepsAtWrites {w w' : Site} {k : Desk WriteJob} {m : MemoryStore} (h : Leads w w')
    (steps : Desk.Steps (· = .flush) WriteJob.run w'.writes w'.delegate k m) :
    Leads w { w' with writes := k, delegate := m } := by
  induction steps with
  | here => exact h
  | step _ next ih => exact ih.step (.atWrites _ _ next)

theorem Leads.stepsAtFiles {w w' : Site} {k : Desk FileJob} {m : MemoryStore} (h : Leads w w')
    (steps : Desk.Steps (· = .flush) FileJob.run w'.files w'.delegate k m) :
    Leads w { w' with files := k, delegate := m } := by
  induction steps with
  | here => exact h
  | step _ next ih => exact ih.step (.atFiles _ _ next)

theorem Leads.movesAtWrites {w w' : Site} (h : Leads w w') (ms : List (Desk.Move WriteJob)) :
    let (writes, delegate) := w'.writes.moves (· = .flush) WriteJob.run ms w'.delegate
    Leads w { w' with writes, delegate } :=
  h.stepsAtWrites (Desk.steps_moves _ _ ms _ _)

/-! ## What one sees of a site is the queued store -/

/-- What the queued store of a site does in one go comes of the steps of the site. -/
structure Mirrors (w : Site) : Prop where
  /-- A write or a purge that is accepted is handed over at the desk. -/
  taken : ∀ j q, w.store.accept j = .ok q → ∃ v, (w.issue j).Leads v ∧ v.store = q ∧
    v.writes.accepted = w.writes.accepted ++ [.job (w.writes.calls, j)]
  saved : ∀ name source q, w.store.saveFile name source = .ok q → ∃ v, w.Leads v ∧ v.store = q ∧
    v.files.accepted = w.files.accepted ++ [.job (w.files.calls, ⟨name, source⟩)]
  turned : ∀ worker, ∃ v, w.Leads v ∧ v.store = w.store.turn worker

theorem mirrors (w : Site) : w.Mirrors where
  taken j q ok := by
    obtain ⟨_, listens, same⟩ := QueuedStore.accept_ofDesks_ok ok
    have handed := w.writes.steps_hand (· = .flush) WriteJob.run w.delegate (.submit j) listens
    exact ⟨_, (Leads.here (w := w.issue j)).stepsAtWrites handed, same, rfl⟩
  saved name source q ok := by
    obtain ⟨gate, listens, same⟩ := QueuedStore.saveFile_ofDesks_ok ok
    have entered : w.Leads _ := .step .here (.save name source gate)
    have handed := w.files.steps_hand (· = .flush) FileJob.run w.delegate
      (.submit ⟨name, source⟩) listens
    exact ⟨_, entered.stepsAtFiles handed, same, rfl⟩
  turned worker := by
    cases worker with
    | writer => exact ⟨_, .step .here (.atWrites _ _ .turn), QueuedStore.turn_writer_ofDesks.symm⟩
    | filer => exact ⟨_, .step .here (.atFiles _ _ .turn), QueuedStore.turn_filer_ofDesks.symm⟩

end Site

end FleetStore
