import FleetStore.Proofs.Store.Queried
import FleetStore.Proofs.Store.Session

/-! # Writes that are made again

A client that does not know whether a write got through may make it again. An update gives the
records that it finds what they would be given once more, whether they still satisfy its
condition or not, and after a removal there is nothing left to remove. A replacement takes
back its own record, but only if its condition finds it; otherwise one more record
is added each time.
-/

namespace FleetStore

/-- Values that are set again change nothing. -/
theorem Dict.insertAll_insertAll {α : Type} (d : Dict α) (new : List (String × α)) :
    (d.insertAll new).insertAll new = d.insertAll new := by
  refine ext_get? fun name => ?_
  rw [get?_insertAll, get?_insertAll, ← Option.or_assoc, Option.or_self]

namespace BoundWrite

/-- A write that changes nothing more when it is made again. -/
def Settles (w : BoundWrite) : Prop :=
  w.kind = .update ∨ w.kind = .remove ∨
    w.kind = .replace ∧ satisfies w.condition w.newRecord = true

variable {w : BoundWrite} (records : List Record)

theorem overwrite_overwrite (w : BoundWrite) (r : Record) :
    w.overwrite (w.overwrite r) = w.overwrite r :=
  Dict.insertAll_insertAll r _

/-- A record that still satisfies the condition is given the same fields, and one that does not is
left as it is. -/
theorem update_again (kind : w.kind = .update) :
    w.applyTo (w.applyTo records) = w.applyTo records := by
  simp only [applyTo, kind, List.map_map]
  refine List.map_congr_left fun r _ => ?_
  rw [Function.comp_apply]
  by_cases before : satisfies w.condition r = true
  · rw [if_pos before, overwrite_overwrite, ite_self]
  · rw [if_neg before, if_neg before]

theorem remove_again (kind : w.kind = .remove) :
    w.applyTo (w.applyTo records) = w.applyTo records := by
  simp only [applyTo, kind, List.filter_filter, Bool.and_self]

/-- A replacement finds its own record again, or adds another one like it. -/
theorem replace_again (kind : w.kind = .replace) :
    w.applyTo (w.applyTo records) =
      if satisfies w.condition w.newRecord then w.applyTo records
      else w.applyTo records ++ [w.newRecord] := by
  simp only [applyTo, kind, List.filter_append, List.filter_filter, Bool.and_self]
  cases found : satisfies w.condition w.newRecord <;> simp [found]

/-- After a replacement its own record is the only one that its condition may find. -/
theorem replace_alone (kind : w.kind = .replace)
    (own : satisfies w.condition w.newRecord = true) :
    (w.applyTo records).filter (satisfies w.condition) = [w.newRecord] := by
  simp [applyTo, kind, own]

theorem again_iff_settles : w.applyTo (w.applyTo records) = w.applyTo records ↔ w.Settles := by
  unfold Settles
  cases kind : w.kind with
  | add => simp [applyTo, kind]
  | update => simp [update_again records kind]
  | remove => simp [remove_again records kind]
  | replace =>
      rw [replace_again records kind]
      cases own : satisfies w.condition w.newRecord <;> simp

end BoundWrite

namespace MemoryStore

/-- A write to a registered category may be made again, without a change to the store, exactly if it
is an update, a removal, or a replacement whose new record satisfies its own condition. After
such a replacement no other record satisfies the condition. -/
theorem again_changes_nothing_iff {m : MemoryStore} {w : BoundWrite}
    (registered : (m.tables.get? w.category).isSome) :
    ∃ m', m.applyWrite w = .ok m' ∧ (m'.applyWrite w = .ok m' ↔ w.Settles) ∧
      (w.kind = .replace → w.Settles → ∃ t, m'.tables.get? w.category = some t ∧
        t.records.filter (satisfies w.condition) = [w.newRecord]) := by
  obtain ⟨t, found⟩ := Option.isSome_iff_exists.1 registered
  let written (records : List Record) : MemoryStore :=
    { m with tables := m.tables.insert w.category { t with records } }
  have table (records : List Record) :
      (written records).tables.get? w.category = some { t with records } :=
    (Dict.get?_insert _ _ _ _).trans (if_pos rfl)
  have first : m.applyWrite w = .ok (written (w.applyTo t.records)) := by
    rw [applyWrite_eq, found]
  have second : (written (w.applyTo t.records)).applyWrite w =
      .ok (written (w.applyTo (w.applyTo t.records))) := by
    rw [applyWrite_eq, table]
    simp only [written, Dict.insert_insert]
  refine ⟨_, first, ?_, fun kind settles => ⟨_, table _, ?_⟩⟩
  · rw [second, ← BoundWrite.again_iff_settles t.records]
    constructor
    · intro same
      have tables := congrArg (fun m : MemoryStore => m.tables.get? w.category) (Except.ok.inj same)
      simp only [table, Option.some.injEq] at tables
      exact congrArg Table.records tables
    · intro same
      rw [same]
  · have own : satisfies w.condition w.newRecord = true := by
      simpa [BoundWrite.Settles, kind] using settles
    exact BoundWrite.replace_alone t.records kind own

/-- Machines without a load over 2 are given the load 3, which takes them out of the condition, and
are then replaced by a single machine that has the load 3. -/
theorem loaded_machines_are_replaced_once :
    let load : Key := ⟨"load", .scalar .int⟩
    let light := (Expression.compare load .greater (.int 2)).not
    let set : BoundWrite := ⟨"vm", .update, [(load, .int 3)], some light⟩
    let merge : BoundWrite :=
      ⟨"vm", .replace, [(load, .int 3)], some (.compare load .equal (.int 3))⟩
    (twoMachines.tables.get? "vm").isSome ∧ ∃ m m', twoMachines.applyWrite set = .ok m ∧
      m.applyWrite set = .ok m ∧ (m.tables.get? "vm").isSome ∧ m.applyWrite merge = .ok m' ∧
      m'.applyWrite merge = .ok m' ∧ ∃ t, m'.tables.get? "vm" = some t ∧
        t.records.filter (satisfies merge.condition) = [.ofList [("load", .int 3)]] := by
  intro load light set merge
  have known : (twoMachines.tables.get? "vm").isSome := rfl
  obtain ⟨m, updated, again, -⟩ := again_changes_nothing_iff (m := twoMachines) (w := set) known
  have still : (m.tables.get? "vm").isSome := by
    obtain ⟨tables, written, rfl⟩ := applyWrite_ok updated
    rw [← Option.isSome_map]
    exact congrArg Option.isSome (Tables.keys?_write? written "vm")
  have settles : merge.Settles := .inr (.inr ⟨rfl, by decide +kernel⟩)
  obtain ⟨m', merged, again', alone⟩ := again_changes_nothing_iff (m := m) (w := merge) still
  exact ⟨known, m, m', updated, again.2 (.inl rfl), still, merged, again'.2 settles,
    alone rfl settles⟩

end MemoryStore

end FleetStore
