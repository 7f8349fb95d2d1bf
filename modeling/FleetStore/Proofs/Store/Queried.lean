import FleetStore.Proofs.Queued.Change
import FleetStore.Proofs.Replay.Unqueued
import Mathlib.Data.List.Basic

/-! # What queries see of writes

A condition holds of a record or it does not, also if the record has no such field or one
that cannot be compared. So a condition and its negation part the records of a category,
and a write, which looks at its own condition before it changes anything, comes to
something that queries can tell from what they answered before the write.
-/

namespace FleetStore

open BoundQuery (countRecord)

/-! ## One record on top of another -/

namespace Dict

variable {α : Type u}

/-- Where every name stands once it does not matter from which end it is looked for. -/
theorem find_reverse {l : List (String × α)} (ordered : l.Pairwise fun a b => a.1 < b.1)
    (name : String) : find name l.reverse = find name l := by
  induction l with
  | nil => rfl
  | cons head rest ih =>
      obtain ⟨first, tail⟩ := List.pairwise_cons.1 ordered
      rw [List.reverse_cons, find_append, ih tail]
      by_cases h : head.1 = name
      · have absent : find name rest = none :=
          find_eq_none fun e member => h ▸ (Std.ne_of_lt (first e member)).symm
        simp [find, h, absent]
      · simp [find, h]

/-- A dictionary with another one written over it. -/
def onTop (new old : Dict α) : Dict α :=
  old.insertAll new.entries

@[simp] theorem get?_onTop (new old : Dict α) (name : String) :
    (new.onTop old).get? name = (new.get? name).or (old.get? name) := by
  rw [onTop, get?_insertAll, find_reverse new.ordered]
  rfl

end Dict

/-- What assignments give a field: the document of the last one for it. -/
def assigned (assignments : List (Key × Value)) (field : String) : Option Json :=
  (assignments.reverse.find? fun a => a.1.name = field).map fun a => a.2.toJson

theorem find_assignedFields (assignments : List (Key × Value)) (field : String) :
    Dict.find field (assignedFields assignments).reverse = assigned assignments field := by
  rw [assigned, assignedFields, ← List.map_reverse]
  induction assignments.reverse with
  | nil => rfl
  | cons a rest ih => by_cases h : a.1.name = field <;> simp [Dict.find, h, ih]

namespace BoundWrite

variable (w : BoundWrite)

theorem get?_newRecord_eq (field : String) :
    w.newRecord.get? field = assigned w.assignments field := by
  rw [newRecord, Dict.ofList, Dict.get?_insertAll, find_assignedFields]
  exact Option.or_none

/-- An update writes the record over that an addition would add. -/
theorem overwrite_eq_onTop (r : Record) : w.overwrite r = w.newRecord.onTop r := by
  refine Dict.ext_get? fun field => ?_
  rw [overwrite, Dict.get?_insertAll, find_assignedFields, Dict.get?_onTop, get?_newRecord_eq]

end BoundWrite

/-! ## Plain queries -/

/-- Nothing passes anything in sorting by no keys. -/
theorem sortRecords_nil (rows : List Record) : sortRecords [] rows = rows := by
  have reversed (sorted : List Record) :
      rows.foldl (fun sorted x => insertDescending (fun a b => orderRecords a b [] == .lt) x sorted)
        sorted = rows.reverse ++ sorted := by
    induction rows generalizing sorted with
    | nil => rfl
    | cons row rest ih =>
        have first : insertDescending (fun a b => orderRecords a b [] == .lt) row sorted =
            row :: sorted := by
          cases sorted <;> simp [insertDescending, orderRecords]
        rw [List.foldl_cons, first, ih, List.reverse_cons, List.append_assoc]
        rfl
  rw [sortRecords, stableSort, reversed, List.append_nil, List.reverse_reverse]

namespace MemoryStore

/-- The rows that a query of a category answers that neither sorts nor limits them. -/
def asked (m : MemoryStore) (kind : QueryKind) (name : String) (condition : Option Expression) :
    Except StoreError (List Record) := do
  let cursor : Cursor Record ← (m.runQuery ⟨name, kind, condition, [], none⟩).mapError .execution
  cursor.collect

/-- What a store answers about a category: the rows for a condition, in order, and the count of
them. -/
structure Answers (m : MemoryStore) (name : String) (rows : Option Expression → List Record) :
    Prop where
  select : ∀ f, m.asked .select name f = .ok (rows f)
  count : ∀ f, m.asked .count name f = .ok [countRecord (rows f).length]

/-- Only the table of one category has changed. -/
def ChangedAt (name : String) (m m' : MemoryStore) : Prop :=
  ∃ tables : Tables, m' = { m with tables } ∧
    ∀ other, other ≠ name → tables.get? other = m.tables.get? other

variable {m : MemoryStore} {name : String} {t : Table}

theorem answers_of_table (found : m.tables.get? name = some t) :
    m.Answers name fun f => t.records.filter (satisfies f) where
  select f := by
    simp [asked, runQuery_eq, found, BoundQuery.rowsOf, sortRecords_nil, bind, Except.bind,
      Cursor.collect_ofRecords]
  count f := by
    simp [asked, runQuery_eq, found, BoundQuery.rowsOf, bind, Except.bind,
      Cursor.collect_ofRecords]

/-- A write to a category puts another list of records in the place of its list, and does
nothing else. -/
theorem applyWrite_answers (found : m.tables.get? name = some t) {w : BoundWrite}
    (about : w.category = name) :
    ∃ m', m.applyWrite w = .ok m' ∧ ChangedAt name m m' ∧
      m'.Answers name fun f => (w.applyTo t.records).filter (satisfies f) := by
  subst about
  have written : m.applyWrite w = _ := (m.applyWrite_eq w).trans (by rw [found])
  refine ⟨_, written, ⟨_, rfl, fun other different => ?_⟩, answers_of_table (t := ⟨t.keys, _⟩) ?_⟩
  · rw [Dict.get?_insert, if_neg different.symm]
  · exact (Dict.get?_insert _ _ _ _).trans (if_pos rfl)

/-! ## The four kinds of writes -/

/-- What remains of the rows for a condition once those for another have been removed. -/
theorem filter_kept (records : List Record) (e f : Expression) :
    (records.filter (!satisfies (some e) ·)).filter (satisfies (some f)) =
      records.filter (satisfies (some (f.and e.not))) := by
  rw [List.filter_filter]
  rfl

theorem filter_singleton (a : Record) (f : Expression) :
    [a].filter (satisfies (some f)) = if f.holds a then [a] else [] := by
  cases h : f.holds a <;> simp [satisfies, h]

/-- A condition and its negation count every record of a category once, and what queries answer
after a write follows from what they answered before it. Here `a` is the record that
the assignments make up. -/
theorem queries_see_writes (registered : (m.tables.get? name).isSome) :
    ∃ rows, m.Answers name rows ∧
      (∀ e : Expression, (rows e).length + (rows e.not).length = (rows none).length) ∧
      ∀ (assignments : List (Key × Value)) (e : Expression),
        ∃ a : Record, (∀ field, a.get? field = assigned assignments field) ∧
        (∃ m', m.applyWrite ⟨name, .remove, [], e⟩ = .ok m' ∧ ChangedAt name m m' ∧
          ∀ f : Expression, m'.asked .select name f = .ok (rows (f.and e.not))) ∧
        (∃ m', m.applyWrite ⟨name, .replace, assignments, e⟩ = .ok m' ∧ ChangedAt name m m' ∧
          ∀ f : Expression, m'.asked .select name f =
            .ok (rows (f.and e.not) ++ if f.holds a then [a] else [])) ∧
        (∃ m', m.applyWrite ⟨name, .update, assignments, e⟩ = .ok m' ∧ ChangedAt name m m' ∧
          ∀ f : Expression, m'.asked .select name f =
            .ok (((rows none).map fun r => if e.holds r then a.onTop r else r).filter f.holds)) ∧
        (∃ m', m.applyWrite ⟨name, .add, assignments, none⟩ = .ok m' ∧ ChangedAt name m m' ∧
          ∀ f : Expression, m'.asked .select name f =
            .ok (rows f ++ if f.holds a then [a] else [])) := by
  obtain ⟨t, found⟩ := Option.isSome_iff_exists.1 registered
  have all : t.records.filter (satisfies none) = t.records := by simp [satisfies]
  refine ⟨_, answers_of_table found, fun e => ?_, fun assignments e => ?_⟩
  · rw [all]
    exact (List.length_eq_length_filter_add _).symm
  · let w (kind : WriteKind) : BoundWrite := ⟨name, kind, assignments, some e⟩
    refine ⟨(w .add).newRecord, (w .add).get?_newRecord_eq, ?_, ?_, ?_, ?_⟩
    · obtain ⟨m', written, only, after⟩ := applyWrite_answers found
        (w := ⟨name, .remove, [], some e⟩) rfl
      refine ⟨m', written, only, fun f => (after.select f).trans (congrArg _ ?_)⟩
      exact filter_kept t.records e f
    · obtain ⟨m', written, only, after⟩ := applyWrite_answers found (w := w .replace) rfl
      refine ⟨m', written, only, fun f => (after.select f).trans (congrArg _ ?_)⟩
      show (_ ++ [(w .add).newRecord]).filter _ = _
      rw [List.filter_append, filter_kept, filter_singleton]
    · obtain ⟨m', written, only, after⟩ := applyWrite_answers found (w := w .update) rfl
      refine ⟨m', written, only, fun f => (after.select f).trans (congrArg _ ?_)⟩
      rw [all, BoundWrite.applyTo]
      simp only [w, BoundWrite.overwrite_eq_onTop]
      rfl
    · obtain ⟨m', written, only, after⟩ := applyWrite_answers found
        (w := ⟨name, .add, assignments, none⟩) rfl
      refine ⟨m', written, only, fun f => (after.select f).trans (congrArg _ ?_)⟩
      show (t.records ++ [(w .add).newRecord]).filter _ = _
      rw [List.filter_append, filter_singleton]

/-- Two machines, one without a load and one with a load of 1. -/
def twoMachines : MemoryStore :=
  { empty with
    tables := (∅ : Tables).insert "vm"
      ⟨[⟨"load", .scalar .int⟩], [∅, .ofList [("load", .int 1)]]⟩ }

/-- Machines that do not have a load over 2 get the load 3 and are found by it: a missing load is
not over 2, and the condition is asked before the load is set. -/
theorem unloaded_machines_are_loaded :
    let load : Key := ⟨"load", .scalar .int⟩
    let heavy := Expression.compare load .greater (.int 2)
    let loaded : Record := .ofList [("load", .int 3)]
    (twoMachines.tables.get? "vm").isSome ∧
      ∃ m', twoMachines.applyWrite ⟨"vm", .update, [(load, .int 3)], heavy.not⟩ = .ok m' ∧
        m'.asked .select "vm" heavy = .ok [loaded, loaded] := by
  intro load heavy loaded
  have registered : (twoMachines.tables.get? "vm").isSome := rfl
  obtain ⟨rows, before, _, writes⟩ := queries_see_writes registered
  obtain ⟨a, fields, _, _, ⟨m', written, _, after⟩, _⟩ := writes [(load, .int 3)] heavy.not
  have all : rows none = [∅, .ofList [("load", .int 1)]] :=
    (Except.ok.inj (before.select none)).symm
  have same : a = loaded := Dict.ext_get? fun field => by
    rw [fields, ← BoundWrite.get?_newRecord_eq ⟨"vm", .add, [(load, .int 3)], none⟩]
    rfl
  refine ⟨registered, m', written, (after heavy).trans ?_⟩
  rw [all, same]
  rfl

end MemoryStore

end FleetStore
