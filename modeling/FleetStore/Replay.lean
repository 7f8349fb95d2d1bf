import FleetStore.Config.Validation
import FleetStore.Json.Writer
import FleetStore.Queue.Store

/-! # Replaying configurations

A replay runs the statements of a configuration one after another on a queued
store. Writes go through the queue; before a query the queue is flushed, so
that the query sees every earlier write. Rows of queries are printed as lines,
and the first failure ends the replay. A flush that takes too long is noted and
does not end it.

The workers of the store take their turns while the replay goes on. Which
worker takes a turn at which moment is up to a schedule.
-/

namespace FleetStore

/-- Which workers take turns at a moment, given the store at that moment. -/
abbrev Schedule : Type := Nat → QueuedStore → List Worker

/-- At every moment the workers do all that there is to do. -/
def Schedule.prompt : Schedule := fun _ s =>
  List.replicate s.writer.stepsLeft .writer ++ List.replicate s.filer.stepsLeft .filer

namespace Replay

/-- Why a replay fails. -/
inductive Failure where
  | config (fault : Config.Fault)
  /-- The store cannot be started, because a worker cannot have its name. -/
  | worker (fault : NameFault)
  | store (e : StoreError)

def Failure.message : Failure → String
  | .config fault => (ConfigError.invalid fault).message
  | .worker fault => fault.message
  | .store e => e.message

structure Progress where
  store : QueuedStore
  /-- How often the workers have had their turns. -/
  moment : Nat
  lines : List String
  writes : Nat
  queries : Nat
  /-- The flushes that took too long. -/
  overdue : Nat

namespace Progress

/-- Nothing is done yet. -/
def start (store : QueuedStore) : Progress :=
  { store, moment := 0, lines := [], writes := 0, queries := 0, overdue := 0 }

def rows (p : Progress) : Nat := p.lines.length

def pause (schedule : Schedule) (p : Progress) : Progress :=
  { p with store := p.store.turns (schedule p.moment p.store), moment := p.moment + 1 }

def flush (schedule : Schedule) (p : Progress) : Except Failure Progress :=
  match p.store.flush fun s => s.turns (schedule p.moment s) with
  | (.error e, _) => .error (.store e)
  | (.ok inTime, store) =>
      .ok {
        p with
        store, moment := p.moment + 1, overdue := if inTime then p.overdue else p.overdue + 1 }

def print (p : Progress) (rows : Cursor Record) : Except Failure Progress :=
  match rows.collect with
  | .error e => .error (.store e)
  | .ok rows =>
      .ok {
        p with
        lines := p.lines ++ rows.map fun row => (Json.ofDict row).compact
        queries := p.queries + 1 }

def wrote (p : Progress) (store : QueuedStore) : Progress :=
  { p with store, writes := p.writes + 1 }

end Progress

/-- Runs a statement on a store that is not behind a proxy: its values are bound one
after another and it is run directly. -/
def runDirectly (schedule : Schedule) (p : Progress) (statement : Prepared)
    (values : List Value) : Except Failure Progress := do
  let numbered := values.mapIdx fun index value => (index, value)
  let statement ← (statement.setParameters numbered).mapError fun e => .store (.patch e)
  if statement.compiled.kind.isQuery then
    let p ← p.flush schedule
    let p := p.pause schedule
    p.print (← (p.store.executeQuery statement).mapError fun e => .store (.execution e))
  else
    let p := p.pause schedule
    return p.wrote (← (p.store.execute statement).mapError fun e => .store (.execution e))

/-- Runs a statement on a store behind a proxy: its values are patched into it, and
the patched statement is run. -/
def runPatched (schedule : Schedule) (p : Progress) (statement : Prepared)
    (values : List Value) : Except Failure Progress := do
  let params := values.mapIdx Parameter.ofValue
  match ← (statement.compiled.bind params).mapError fun e => .store (.patch e) with
  | .write w =>
      let p := p.pause schedule
      return p.wrote (← (p.store.applyWrite w).mapError fun e => .store (.execution e))
  | .query q =>
      let p ← p.flush schedule
      let p := p.pause schedule
      p.print (← (Store.runQuery p.store q).mapError fun e => .store (.execution e))

def runStatement (env : Environment) (schedule : Schedule) (categories : Dict Category)
    (p : Progress) (s : Config.StatementEntry) : Except Failure Progress := do
  match categories.get? s.category with
  | none => .error (.config (.undeclared s.category))
  | some category =>
      let (statement, store) ←
        (Store.prepare p.store category s.descriptor).mapError fun e => .store (.descriptor e)
      let p := { p with store }
      let values ← (s.values env statement.compiled.signature).mapError .config
      if p.store.settings.proxied then runPatched schedule p statement values
      else runDirectly schedule p statement values

/-- Runs statements up to the first that fails. -/
def runStatements (env : Environment) (schedule : Schedule) (categories : Dict Category)
    (p : Progress) : List Config.StatementEntry → Progress × Option Failure
  | [] => (p, none)
  | s :: rest =>
      match runStatement env schedule categories p s with
      | .error failure => (p, some failure)
      | .ok p => runStatements env schedule categories p rest

def registerAll (store : QueuedStore) (categories : Dict Category) :
    List Config.CategoryEntry → Except Failure (QueuedStore × Dict Category)
  | [] => .ok (store, categories)
  | e :: rest => do
      let category ← e.declare.mapError fun fault => .store (.invalidCategory fault)
      let store ← (Store.register store category).mapError .store
      registerAll store (categories.insert e.name category) rest

/-- What a replay has done and how it has failed, if it has. -/
structure Outcome where
  progress : Progress
  failure : Option Failure

/-- Replays a configuration. Whatever comes of it, the store is shut down at the end. -/
def run (c : Config) (env : Environment) (schedule : Schedule) : Outcome :=
  let idle : Progress := .start (.new c.storage .empty)
  match c.validate with
  | .error fault => ⟨idle, some (.config fault)⟩
  | .ok () =>
      match QueuedStore.start c.storage .empty with
      | .error fault => ⟨idle, some (.worker fault)⟩
      | .ok store =>
          match registerAll store ∅ c.categories with
          | .error failure => ⟨.start store, some failure⟩
          | .ok (store, categories) =>
              let (p, failure) := runStatements env schedule categories (.start store) c.statements
              let wait (s : QueuedStore) : QueuedStore := s.turns (schedule p.moment s)
              ⟨{ p with store := p.store.shutdown wait }, failure⟩

end Replay

end FleetStore
