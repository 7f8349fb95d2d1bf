import FleetStore.Proofs.Binding.InOrder
import FleetStore.Proofs.Language.Compile
import FleetStore.Proofs.Queued.Change
import FleetStore.Replay

/-! # Running statements without a queue

The statements of a configuration can also be run one after another on a plain store in
memory, each of them to its end before the next. Nothing is left to a schedule.
What a statement comes to is settled in three stages: its values are checked one
by one, they are put in place, and the bound statement changes the tables or
prints rows.
-/

namespace FleetStore

open Descriptor

namespace Unqueued

/-- What has been done so far. -/
structure Progress where
  store : MemoryStore
  lines : List String
  writes : Nat
  queries : Nat

namespace Progress

def start (store : MemoryStore) : Progress :=
  { store, lines := [], writes := 0, queries := 0 }

def runBound (p : Progress) (statement : Prepared) (values : List Value) :
    Except Replay.Failure Progress := do
  let numbered := values.mapIdx fun index value => (index, value)
  let statement ← (statement.setParameters numbered).mapError fun e => .store (.patch e)
  if statement.compiled.kind.isQuery then
    let cursor : Cursor Record ←
      (Store.executeQuery p.store statement).mapError fun e => .store (.execution e)
    let rows ← cursor.collect.mapError .store
    return {
      p with
      lines := p.lines ++ rows.map fun row => (Json.ofDict row).compact
      queries := p.queries + 1 }
  else
    let store ← (Store.execute p.store statement).mapError fun e => .store (.execution e)
    return { p with store, writes := p.writes + 1 }

end Progress

def runStatement (c : Config) (env : Environment) (p : Progress) (s : Config.StatementEntry) :
    Except Replay.Failure Progress := do
  match c.category? s.category with
  | none => .error (.config (.undeclared s.category))
  | some entry =>
      let category ← entry.declare.mapError fun fault => .store (.invalidCategory fault)
      let (statement, store) ←
        (Store.prepare p.store category s.descriptor).mapError fun e => .store (.descriptor e)
      let values ← (s.values env statement.compiled.signature).mapError .config
      { p with store }.runBound statement values

def runStatements (c : Config) (env : Environment) (p : Progress) :
    List Config.StatementEntry → Progress × Option Replay.Failure
  | [] => (p, none)
  | s :: rest =>
      match runStatement c env p s with
      | .error failure => (p, some failure)
      | .ok p => runStatements c env p rest

def registerAll (store : MemoryStore) :
    List Config.CategoryEntry → Except Replay.Failure MemoryStore
  | [] => .ok store
  | e :: rest => do
      let category ← e.declare.mapError fun fault => .store (.invalidCategory fault)
      let store ← (Store.register store category).mapError .store
      registerAll store rest

/-- What was done and how it failed, if it has. -/
structure Outcome where
  progress : Progress
  failure : Option Replay.Failure

/-- Runs the statements of a configuration on a store with its categories. -/
def run (c : Config) (env : Environment) : Outcome :=
  match registerAll .empty c.categories with
  | .error failure => ⟨.start .empty, some failure⟩
  | .ok store =>
      let (progress, failure) := runStatements c env (.start store) c.statements
      ⟨progress, failure⟩

end Unqueued

/-! ## The three stages of a statement -/

theorem Cursor.collect_ofRecords (rows : List Record) :
    (Cursor.ofRecords rows : Cursor Record).collect = .ok rows := by
  show rows.mapM Cursor.decode = .ok rows
  exact mapM_eq_ok_iff.2 rfl

namespace Descriptor.Compiled

/-- What a statement with values in place is follows from its kind. Only a query can fail
for its values, because only a query has a limit. -/
theorem withValues_isQuery (c : Compiled) (values : List Value) :
    match c.withValues values with
    | .error _ => c.kind.isQuery = true
    | .ok (.query q) => c.kind.isQuery = true ∧ q.category = c.category
    | .ok (.write w) => c.kind.isQuery = false ∧ w.category = c.category := by
  cases kind : c.kind with
  | write => simp [withValues, kind, StatementKind.isQuery]
  | query =>
      cases bounded : c.limit with
      | none => simp [withValues, kind, bounded, StatementKind.isQuery, Bind.bind, Except.bind, pure,
          Except.pure]
      | some limit =>
          cases resolved : limit.resolve values <;>
            simp [withValues, kind, bounded, resolved, StatementKind.isQuery, Bind.bind, Except.bind,
              Functor.map, Except.map, pure, Except.pure]

end Descriptor.Compiled

namespace Unqueued.Progress

def printed (store : MemoryStore) (q : BoundQuery) : List String :=
  ((store.tables.find? q).getD []).map fun row => (Json.ofDict row).compact

/-- What comes of a bound statement about a registered category. -/
def after (p : Progress) : BoundStatement → Progress
  | .write w =>
      { p with
        store := { p.store with tables := (Change.write w).apply p.store.tables }
        writes := p.writes + 1 }
  | .query q => { p with lines := p.lines ++ printed p.store q, queries := p.queries + 1 }

variable {p : Progress} {c : Compiled} {values : List Value}

theorem runBound_unfit (places : values.length = c.signature.length) {e : PatchError}
    (unfit : checkValues c.signature 0 values = .error e) :
    p.runBound (.ofCompiled c) values = .error (.store (.patch e)) := by
  simp [runBound, Prepared.setParameters_inOrder places, unfit, Except.map, bind, Except.bind]

theorem runBound_eq (places : values.length = c.signature.length)
    (passed : checkValues c.signature 0 values = .ok ()) :
    p.runBound (.ofCompiled c) values =
      if c.kind.isQuery then do
        let cursor : Cursor Record ← (Store.executeQuery p.store ⟨c, values.map some⟩).mapError
          fun e => .store (.execution e)
        let rows ← cursor.collect.mapError .store
        return {
          p with
          lines := p.lines ++ rows.map fun row => (Json.ofDict row).compact
          queries := p.queries + 1 }
      else do
        let store ← (Store.execute p.store ⟨c, values.map some⟩).mapError
          fun e => .store (.execution e)
        return { p with store, writes := p.writes + 1 } := by
  simp only [runBound, Prepared.setParameters_inOrder places, passed, Except.map, mapError_ok,
    bind, Except.bind]

theorem runBound_illegal (places : values.length = c.signature.length)
    (passed : checkValues c.signature 0 values = .ok ()) {e : PatchError}
    (illegal : c.withValues values = .error e) :
    p.runBound (.ofCompiled c) values = .error (.store (.execution (.patch e))) := by
  have query := c.withValues_isQuery values
  simp only [illegal] at query
  have bound := Prepared.bound_inOrder places passed
  rw [runBound_eq places passed, if_pos query]
  simp [Store.executeQuery, MemoryStore.executeQuery, Prepared.boundQuery, bound, illegal, bind,
    Except.bind]

theorem runBound_legal (places : values.length = c.signature.length)
    (passed : checkValues c.signature 0 values = .ok ()) {b : BoundStatement}
    (legal : c.withValues values = .ok b) (registered : (p.store.tables.get? c.category).isSome) :
    p.runBound (.ofCompiled c) values = .ok (p.after b) := by
  have kind := c.withValues_isQuery values
  have bound := Prepared.bound_inOrder places passed
  obtain ⟨table, found⟩ := Option.isSome_iff_exists.1 registered
  rw [runBound_eq places passed]
  simp only [legal] at kind bound
  cases b with
  | query q =>
      obtain ⟨query, category⟩ := kind
      rw [if_pos query]
      simp [Store.executeQuery, MemoryStore.executeQuery, MemoryStore.runQuery, Prepared.boundQuery,
        bound, Tables.find, Tables.find?, category, found, after, printed, bind, Except.bind,
        Except.map, Cursor.collect_ofRecords, pure, Except.pure]
  | write w =>
      obtain ⟨query, category⟩ := kind
      rw [if_neg (by simp [query])]
      simp [Store.execute, MemoryStore.execute, MemoryStore.applyWrite, Prepared.boundWrite, bound,
        Tables.apply, Tables.write?, category, found, after, Change.apply, bind, Except.bind,
        Except.map, pure, Except.pure]

end Unqueued.Progress

end FleetStore
