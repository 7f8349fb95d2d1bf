import FleetStore.Proofs.Store.Selected
import FleetStore.Proofs.Table.Coherence

/-! # What a purge deletes

A purge goes over all tables and takes out the records whose agent is a given one. A removal asks
about the records of one table by a condition, which compares documents instead of asking
whether they are equal. Both find the same records, so a purge comes to one such removal for
every category, in whichever order they are made, and queries about another agent are
answered as before.
-/

namespace FleetStore

open BoundQuery (countRecord)

/-! ## The records of an agent -/

namespace Tables

theorem ofAgent_iff {agent : String} {r : Record} :
    ofAgent agent r = true ↔ r.get? Key.agentId.name = some (.str agent) := by
  unfold ofAgent
  cases r.get? Key.agentId.name with
  | none => simp
  | some j =>
      rw [Option.any_some, Option.some.injEq]
      cases j with
      | str s =>
          show (s == agent) = true ↔ _
          simp
      | null | bool | int | float | arr | obj => simp [BEq.beq, Json.same]

/-- The condition that the agent of a record is a given one. -/
def agentIs (agent : String) : Expression :=
  .compare .agentId .equal (.string agent)

/-- The condition finds the records that a purge takes out. -/
theorem satisfies_agentIs (agent : String) (r : Record) :
    satisfies (some (agentIs agent)) r = ofAgent agent r :=
  Expression.holds_text r .agentId agent

/-- The removal of the records of an agent from a category. -/
def removal (name agent : String) : BoundWrite :=
  ⟨name, .remove, [], some (agentIs agent)⟩

end Tables

open Tables

/-! ## Tables without them -/

/-- A table without the records of an agent. -/
def Table.without (t : Table) (agent : String) : Table :=
  { t with records := t.records.filter (!ofAgent agent ·) }

namespace Table

theorem without_without (t : Table) (agent : String) :
    (t.without agent).without agent = t.without agent := by
  simp only [without, List.filter_filter, Bool.and_self]

theorem without_comm (t : Table) (agent other : String) :
    (t.without agent).without other = (t.without other).without agent := by
  simp only [without, List.filter_filter, Bool.and_comm]

end Table

namespace Tables

theorem get?_purge (tables : Tables) (agent name : String) :
    (tables.purge agent).get? name = (tables.get? name).map (·.without agent) :=
  Dict.get?_map _ tables name

theorem purge_purge (tables : Tables) (agent : String) :
    (tables.purge agent).purge agent = tables.purge agent := by
  refine Dict.ext_get? fun name => ?_
  simp only [get?_purge, Option.map_map, Function.comp_def, Table.without_without]

theorem purge_comm (tables : Tables) (agent other : String) :
    (tables.purge agent).purge other = (tables.purge other).purge agent := by
  refine Dict.ext_get? fun name => ?_
  simp only [get?_purge, Option.map_map, Function.comp_def, Table.without_comm]

end Tables

/-- Of no records a query selects none and counts none. -/
theorem BoundQuery.rowsOf_nil (q : BoundQuery) : q.rowsOf [] =
    match q.kind with
    | .select => []
    | .count => [countRecord 0] := by
  unfold BoundQuery.rowsOf
  cases q.kind with
  | count => rfl
  | select =>
      have sorted : sortRecords q.sort [] = [] := rfl
      simp only [List.filter_nil, sorted]
      cases q.limit with
      | none => rfl
      | some limit => exact List.take_nil

namespace MemoryStore

variable {m : MemoryStore} {q : BoundQuery} {agent other : String}

/-! ## One removal after another -/

/-- A removal takes the records of an agent out of one table. -/
theorem applyWrite_removal (agent : String) {name : String}
    (registered : (m.tables.get? name).isSome) :
    ∃ tables : Tables, m.applyWrite (removal name agent) = .ok { m with tables } ∧
      ∀ n, tables.get? n =
        if n = name then (m.tables.get? n).map (·.without agent) else m.tables.get? n := by
  obtain ⟨t, found⟩ := Option.isSome_iff_exists.1 registered
  have removed : { t with records := (removal name agent).applyTo t.records } = t.without agent := by
    simp only [BoundWrite.applyTo, removal, satisfies_agentIs, Table.without]
  refine ⟨m.tables.insert name (t.without agent), ?_, fun n => ?_⟩
  · rw [applyWrite_eq, show (removal name agent).category = name from rfl, found]
    exact congrArg (fun t => Except.ok { m with tables := m.tables.insert name t }) removed
  · rw [Dict.get?_insert]
    by_cases same : name = n
    · subst same
      simp [found]
    · simp [same, Ne.symm same]

/-- Removals take the records of an agent out of the tables that they are about, one by one. -/
theorem applyWrite_removals (agent : String) {order : List String}
    (registered : ∀ name ∈ order, (m.tables.get? name).isSome) :
    ∃ tables : Tables,
      order.foldlM (fun m name => applyWrite m (removal name agent)) m = .ok { m with tables } ∧
      ∀ n, tables.get? n =
        if n ∈ order then (m.tables.get? n).map (·.without agent) else m.tables.get? n := by
  induction order generalizing m with
  | nil => exact ⟨m.tables, rfl, by simp⟩
  | cons name rest ih =>
      obtain ⟨first, others⟩ := List.forall_mem_cons.1 registered
      obtain ⟨once, written, after⟩ := applyWrite_removal agent first
      have still : ∀ n ∈ rest, (once.get? n).isSome := by
        intro n member
        rw [after n]
        split <;> simp [others n member]
      obtain ⟨tables, all, last⟩ := ih (m := { m with tables := once }) still
      refine ⟨tables, ?_, fun n => ?_⟩
      · rw [List.foldlM_cons, written]
        exact all
      · rw [last n, after n]
        by_cases head : n = name <;> by_cases later : n ∈ rest <;>
          simp [head, later, Function.comp_def, Table.without_without]

/-- A purge is made up of a removal for every category. -/
theorem purge_eq_removals {order : List String}
    (all : ∀ name, name ∈ order ↔ (m.tables.get? name).isSome) :
    order.foldlM (fun m name => applyWrite m (removal name agent)) m = .ok (m.purge agent) := by
  obtain ⟨tables, removed, after⟩ :=
    applyWrite_removals agent fun name member => (all name).1 member
  have same : tables = m.tables.purge agent := by
    refine Dict.ext_get? fun n => ?_
    rw [after n, get?_purge]
    split
    · rfl
    · next absent =>
        rw [all n, Option.not_isSome_iff_eq_none] at absent
        rw [absent]
        rfl
  rw [removed, same]
  rfl

/-! ## Queries afterwards -/

section

variable {α : Type}

/-- A query that finds no record of an agent is answered as before. -/
theorem runQuery_purge_of_others
    (others : ∀ r, satisfies q.condition r = true → ofAgent agent r = false) :
    ((m.purge agent).runQuery q : Except ExecutionError (Cursor α)) = m.runQuery q := by
  have found (t : Table) : q.rowsOf (t.without agent).records = q.rowsOf t.records := by
    have same : (t.without agent).records.filter (satisfies q.condition) =
        t.records.filter (satisfies q.condition) := by
      rw [Table.without, List.filter_filter]
      refine List.filter_congr fun r _ => ?_
      cases inside : satisfies q.condition r with
      | false => rfl
      | true => simp [others r inside]
    simp only [BoundQuery.rowsOf, same]
  unfold runQuery Tables.find Tables.find? purge
  simp only [get?_purge, Option.map_map, Function.comp_def, found]

/-- A query that finds records of an agent alone finds nothing any more. -/
theorem runQuery_purge_of_own (registered : (m.tables.get? q.category).isSome)
    (own : ∀ r, satisfies q.condition r = true → ofAgent agent r = true) :
    ((m.purge agent).runQuery q : Except ExecutionError (Cursor α)) =
      .ok (.ofRecords (q.rowsOf [])) := by
  obtain ⟨t, found⟩ := Option.isSome_iff_exists.1 registered
  have nothing : (t.without agent).records.filter (satisfies q.condition) = [] := by
    rw [Table.without, List.filter_filter]
    refine List.filter_eq_nil_iff.2 fun r _ inside => ?_
    obtain ⟨holds, other⟩ := Bool.and_eq_true_iff.1 inside
    simp [own r holds] at other
  have rows : q.rowsOf (t.without agent).records = q.rowsOf [] := by
    simp only [BoundQuery.rowsOf, nothing, List.filter_nil]
  unfold runQuery Tables.find Tables.find? purge
  simp only [get?_purge, found, Option.map_some, rows]
  rfl

end

/-! ## What a purge comes to -/

/-- One store is what a purge has left of another. -/
structure Purged (m m' : MemoryStore) (agent : String) : Prop where
  /-- The records of the agent may as well be removed from all categories, in any order. -/
  removals : ∀ order : List String, (∀ name, name ∈ order ↔ (m.tables.get? name).isSome) →
    order.foldlM (fun m name => applyWrite m (removal name agent)) m = .ok m'
  /-- Files, the cache and the connection stay, and so do the other records in their order. -/
  rest : ∃ tables : Tables, m' = { m with tables } ∧ ∀ name, tables.get? name =
    (m.tables.get? name).map fun t => { t with records := t.records.filter (!ofAgent agent ·) }
  /-- Other records are those without an agent or with anything else in its place. -/
  other : ∀ r, ofAgent agent r = false ↔ r.get? Key.agentId.name ≠ some (.str agent)
  again : m'.purge agent = m'
  commutes : ∀ second, m'.purge second = (m.purge second).purge agent
  empty : ∀ q : BoundQuery, q.condition = some (agentIs agent) →
    (m.tables.get? q.category).isSome → ∀ α : Type,
    (m'.runQuery q : Except ExecutionError (Cursor α)) =
      .ok (.ofRecords (match q.kind with
        | .select => []
        | .count => [countRecord 0]))
  unchanged : ∀ second, second ≠ agent → ∀ q : BoundQuery,
    q.condition = some (agentIs second) → ∀ α : Type,
    (m'.runQuery q : Except ExecutionError (Cursor α)) = m.runQuery q

/-- A purge comes to the removals of the records of an agent from all categories, making it again
changes nothing, purges may change places, and queries about the agent find nothing while those
about any other agent are answered as before. -/
theorem purge_deletes_agent (m : MemoryStore) (agent : String) :
    Purged m (m.purge agent) agent where
  removals _ all := purge_eq_removals all
  rest := ⟨_, rfl, m.tables.get?_purge agent⟩
  other r := by rw [← Bool.not_eq_true, ofAgent_iff]
  again := by
    unfold purge
    rw [purge_purge]
  commutes second := by
    unfold purge
    rw [purge_comm]
  empty q asked registered α := by
    have own (r : Record) (inside : satisfies q.condition r = true) : ofAgent agent r = true := by
      rwa [asked, satisfies_agentIs] at inside
    rw [runQuery_purge_of_own registered own, BoundQuery.rowsOf_nil]
  unchanged second different q asked α := by
    refine runQuery_purge_of_others fun r inside => ?_
    rw [asked, satisfies_agentIs, ofAgent_iff] at inside
    rw [← Bool.not_eq_true, ofAgent_iff, inside]
    simpa using different

/-- Three machines, of two agents and of none, and a category in which agents are numbers. -/
def fleet : MemoryStore :=
  { empty with
    tables := ((∅ : Tables).insert "vm" ⟨[.agentId, .vmId],
        [.ofList [("agentId", .str "a"), ("vmId", .str "1")],
          .ofList [("vmId", .str "2")], .ofList [("agentId", .str "b"), ("vmId", .str "3")]]⟩).insert
      "net" ⟨[⟨"agentId", .scalar .int⟩], [.ofList [("agentId", .int 7)]]⟩ }

/-- One agent is removed from both categories in both orders, which leaves the record without an
agent and the one with a number for it. The machine of the other agent is found as before. -/
theorem fleet_loses_agent :
    let about (agent : String) : BoundQuery := ⟨"vm", .select, some (agentIs agent), [], none⟩
    let remove (order : List String) : Except ExecutionError MemoryStore :=
      order.foldlM (fun m name => applyWrite m (removal name "a")) fleet
    ∃ m, remove ["vm", "net"] = .ok m ∧ remove ["net", "vm"] = .ok m ∧ m.purge "a" = m ∧
      m.recordCount "vm" = some 2 ∧ m.recordCount "net" = some 1 ∧
      (m.runQuery (about "a") : Except ExecutionError (Cursor Record)) = .ok (.ofRecords []) ∧
      (m.runQuery (about "b") : Except ExecutionError (Cursor Record)) =
        .ok (.ofRecords [.ofList [("agentId", .str "b"), ("vmId", .str "3")]]) := by
  intro about remove
  have laws := purge_deletes_agent fleet "a"
  have known (name : String) : name ∈ ["vm", "net"] ↔ (fleet.tables.get? name).isSome := by
    by_cases net : "net" = name
    · simp [fleet, ← net]
    · by_cases vm : "vm" = name
      · simp [fleet, ← vm]
      · simp [fleet, net, vm, Ne.symm net, Ne.symm vm]
  have turned (name : String) : name ∈ ["net", "vm"] ↔ (fleet.tables.get? name).isSome := by
    rw [← known name, List.mem_pair, List.mem_pair, or_comm]
  exact ⟨_, laws.removals _ known, laws.removals _ turned, laws.again, by decide +kernel,
    by decide +kernel, laws.empty (about "a") rfl rfl Record,
    laws.unchanged "b" (by decide) (about "b") rfl Record⟩

end MemoryStore

end FleetStore
