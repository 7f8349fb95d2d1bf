import FleetStore.Proofs.Binding.Typed
import FleetStore.Proofs.Value.Representation
import FleetStore.Store.Memory

/-! # Where the fields of records come from

Records change only by writes, and a field that a write leaves in a record was there
before or is one that the write sets. So if writes fit the categories that they
are about, every field of every record is described by such a category: it has
the name of one of its keys and a document of the type of this key.
-/

namespace FleetStore

namespace BoundWrite

variable {w : BoundWrite} {field : String} {j : Json}

theorem get?_overwrite {r : Record} (h : (w.overwrite r).get? field = some j) :
    r.get? field = some j ∨ ∃ a ∈ w.assignments, a.1.name = field ∧ a.2.toJson = j := by
  have entry := Dict.mem_insertAll (Dict.get?_eq_some_iff.1 h)
  refine entry.imp Dict.get?_eq_some_iff.2 fun set => ?_
  obtain ⟨a, member, same⟩ := List.mem_map.1 set
  obtain ⟨rfl, rfl⟩ := Prod.mk.inj same
  exact ⟨a, member, rfl, rfl⟩

/-- A new record is the empty one with the assignments written over it. -/
theorem get?_newRecord (h : w.newRecord.get? field = some j) :
    ∃ a ∈ w.assignments, a.1.name = field ∧ a.2.toJson = j :=
  (get?_overwrite (r := ∅) h).resolve_left nofun

/-- A field after a write was there before the write or is set by it. -/
theorem get?_of_mem_applyTo {records : List Record} {r : Record} (member : r ∈ w.applyTo records)
    (h : r.get? field = some j) :
    (∃ old ∈ records, old.get? field = some j) ∨
      ∃ a ∈ w.assignments, a.1.name = field ∧ a.2.toJson = j := by
  unfold applyTo at member
  cases kind : w.kind with
  | add =>
      simp only [kind, List.mem_append, List.mem_singleton] at member
      rcases member with old | rfl
      · exact .inl ⟨r, old, h⟩
      · exact .inr (get?_newRecord h)
  | replace =>
      simp only [kind, List.mem_append, List.mem_singleton] at member
      rcases member with kept | rfl
      · exact .inl ⟨r, (List.mem_filter.1 kept).1, h⟩
      · exact .inr (get?_newRecord h)
  | update =>
      simp only [kind] at member
      obtain ⟨old, inside, same⟩ := List.mem_map.1 member
      split at same
      · subst same
        exact (get?_overwrite h).imp_left fun before => ⟨old, inside, before⟩
      · subst same
        exact .inl ⟨old, inside, h⟩
  | remove =>
      simp only [kind] at member
      exact .inl ⟨r, (List.mem_filter.1 member).1, h⟩

end BoundWrite

/-- A category has a key of the name of a field, and the document of the field stands for a
value of the type of the key. -/
def Category.Describes (c : Category) (field : String) (j : Json) : Prop :=
  ∃ key ∈ c.keys, key.name = field ∧ key.type.Represents j

theorem BoundWrite.Fits.describes {c : Category} {w : BoundWrite} (h : w.Fits c) :
    ∀ a ∈ w.assignments, c.Describes a.1.name a.2.toJson := by
  intro a member
  obtain ⟨known, typed, finite⟩ := h.assignments a member
  exact ⟨a.1, known, rfl, typed ▸ a.2.represents_toJson finite⟩

namespace Tables

variable {used longer : List Category} {tables tables' : Tables}

/-- Every field of every record is described by one of the categories that has the name of
its table. -/
def Described (used : List Category) (tables : Tables) : Prop :=
  ∀ name table, tables.get? name = some table → ∀ r ∈ table.records, ∀ field j,
    r.get? field = some j → ∃ c ∈ used, c.name = name ∧ c.Describes field j

theorem Described.mono (h : tables.Described used) (more : used ⊆ longer) :
    tables.Described longer := by
  intro name table found r member field j there
  obtain ⟨c, known, rest⟩ := h name table found r member field j there
  exact ⟨c, more known, rest⟩

theorem described_empty : (∅ : Tables).Described used := by
  intro name table found
  contradiction

/-- A table whose records have only described fields may take the place of another. -/
theorem Described.insert {name : String} {table : Table} (h : tables.Described used)
    (new : ∀ r ∈ table.records, ∀ field j, r.get? field = some j →
      ∃ c ∈ used, c.name = name ∧ c.Describes field j) :
    Described used (tables.insert name table) := by
  intro other t found
  rw [Dict.get?_insert] at found
  split at found
  · next same =>
      obtain rfl := Option.some.inj found
      exact same ▸ new
  · exact h other t found

theorem Described.write? {c : Category} {w : BoundWrite} (h : tables.Described used)
    (known : c ∈ used) (fits : w.Fits c) (ok : tables.write? w = some tables') :
    tables'.Described used := by
  obtain ⟨table, found, rfl⟩ := Option.map_eq_some_iff.1 ok
  refine h.insert fun r member field j there => ?_
  rcases BoundWrite.get?_of_mem_applyTo member there with ⟨old, inside, before⟩ | ⟨a, set, rfl, rfl⟩
  · exact h w.category table found old inside field j before
  · exact ⟨c, known, fits.category.symm, fits.describes a set⟩

theorem Described.purge (h : tables.Described used) (agent : String) :
    (tables.purge agent).Described used := by
  intro name table found r member field j there
  rw [Tables.purge, Dict.get?_map] at found
  obtain ⟨old, before, rfl⟩ := Option.map_eq_some_iff.1 found
  exact h name old before r (List.mem_filter.1 member).1 field j there

end Tables

end FleetStore
