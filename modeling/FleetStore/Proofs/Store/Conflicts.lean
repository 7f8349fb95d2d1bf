import FleetStore.Proofs.Store.Circles

/-! # Which registrations are in conflict

A store remembers the keys of the category that was first registered under a name, and
compares the keys of every later one with them. So it refuses categories with other keys,
and what it accepts changes no table besides the one that is added for a new name. It does
not remember index keys: a category that differs from the first one in these alone is
accepted, although it is another category.
-/

namespace FleetStore

open Descriptor

/-- The first of some categories that has a name. -/
def firstNamed (calls : List Category) (name : String) : Option Category :=
  calls.find? fun c => c.name == name

theorem firstNamed_concat (calls : List Category) (c : Category) (name : String) :
    firstNamed (calls ++ [c]) name =
      (firstNamed calls name).or (if c.name = name then some c else none) := by
  simp only [firstNamed, List.find?_append]
  by_cases same : c.name = name <;> simp [same]

/-- A category that is not the first of its name comes too late. -/
theorem firstNamed_again {calls : List Category} {c : Category}
    (before : (firstNamed calls c.name).isSome) (name : String) :
    firstNamed (calls ++ [c]) name = firstNamed calls name := by
  rw [firstNamed_concat]
  by_cases same : c.name = name
  · obtain ⟨first, found⟩ := Option.isSome_iff_exists.1 before
    rw [← same, found, Option.some_or]
  · simp [same]

theorem name_of_firstNamed {calls : List Category} {name : String} {c : Category}
    (found : firstNamed calls name = some c) : c.name = name := by
  simpa using List.find?_some found

namespace MemoryStore

/-- Registering depends on the keys that are already there under the name of the category. -/
theorem register_eq (s : MemoryStore) (c : Category) : s.register c =
    match s.tables.keys? c.name with
    | none => .ok { s with tables := s.tables.insert c.name ⟨c.keys, []⟩ }
    | some keys =>
        if keys = c.keys then .ok s
        else .error (.invalidCategory (.registeredDifferently c.name)) := by
  unfold register Tables.keys?
  cases s.tables.get? c.name <;> rfl

theorem keys?_isSome_of_register {s : MemoryStore} {c : Category} {e : StoreError}
    (failed : s.register c = .error e) : (s.tables.keys? c.name).isSome := by
  rw [register_eq] at failed
  split at failed
  · contradiction
  · next found => simp [found]

end MemoryStore

namespace Session

/-- Sessions with all categories that clients called for so far, accepted or not. In between
clients do whatever else they like. -/
inductive Asked : List Category → Session → Prop where
  | new : Asked [] .new
  | accepted {calls w} (asked : Asked calls w) (c : Category) (store : MemoryStore)
      (declared : c.Declared) (ok : w.store.register c = .ok store) :
      Asked (calls ++ [c]) { w with store, registered := w.registered ++ [c] }
  | refused {calls w} (asked : Asked calls w) (c : Category) (e : StoreError)
      (declared : c.Declared) (failed : w.store.register c = .error e) : Asked (calls ++ [c]) w
  | other {calls w w'} (asked : Asked calls w) (step : Step w w')
      (registered : w'.registered = w.registered) : Asked calls w'

variable {calls : List Category} {w w' : Session} {c : Category}

theorem asked_of_leads (reached : new.Leads w) : Asked w.registered w := by
  generalize start : new = first at reached
  induction reached with
  | here => exact start ▸ .new
  | step _ next ih =>
      cases next with
      | register c store declared ok => exact .accepted ih c store declared ok
      | handle store hands step => exact .other ih (.handle store hands step) rfl
      | execute statement store known ok =>
          exact .other ih (.execute statement store known ok) rfl
      | apply b store known ok => exact .other ih (.apply b store known ok) rfl
      | purge agent => exact .other ih (.purge agent) rfl
      | aside files connection => exact .other ih (.aside files connection) rfl

/-- Nothing but a registration changes the keys under a name. -/
theorem Step.keys? (step : Step w w') (registered : w'.registered = w.registered) (name : String) :
    w'.store.tables.keys? name = w.store.tables.keys? name := by
  cases step with
  | register c => simp at registered
  | handle store hands step =>
      obtain ⟨cache, rfl⟩ := step.kept
      rfl
  | execute statement store known ok =>
      obtain ⟨b, -, applied⟩ := MemoryStore.execute_ok ok
      obtain ⟨tables, written, rfl⟩ := MemoryStore.applyWrite_ok applied
      exact Tables.keys?_write? written name
  | apply b store known ok =>
      obtain ⟨tables, written, rfl⟩ := MemoryStore.applyWrite_ok ok
      exact Tables.keys?_write? written name
  | purge agent => exact Tables.keys?_purge _ agent name
  | aside => rfl

/-- The keys under a name are always those of the first category that was called for by this name. -/
theorem Asked.keys? (asked : Asked calls w) (name : String) :
    w.store.tables.keys? name = (firstNamed calls name).map Category.keys := by
  induction asked generalizing name with
  | new => rfl
  | @accepted calls w asked c store declared ok ih =>
      rcases MemoryStore.register_ok ok with ⟨again, rfl⟩ | ⟨absent, rfl⟩
      · have before : (firstNamed calls c.name).isSome := by
          rw [← Option.isSome_map, ← ih, again]
          rfl
        rw [firstNamed_again before]
        exact ih name
      · have unnamed : firstNamed calls c.name = none := by
          rw [← Option.map_eq_none_iff, ← ih, absent]
        rw [firstNamed_concat]
        by_cases same : c.name = name
        · subst same
          simp [unnamed, Tables.keys?]
        · simpa [same, Tables.keys?] using ih name
  | @refused calls w asked c e declared failed ih =>
      have before : (firstNamed calls c.name).isSome := by
        rw [← Option.isSome_map, ← ih]
        exact MemoryStore.keys?_isSome_of_register failed
      rw [firstNamed_again before]
      exact ih name
  | other asked step registered ih => rw [step.keys? registered, ih]

/-- A category is accepted if none was called for by its name before, or if the first one had the
same keys, and the call is refused as a conflict otherwise. So calls are answered as the equality
of categories tells, unless a category differs from the first one of its name in its index
keys alone. Only the first call by a name changes the store: it adds an empty table. -/
theorem conflicts_are_detected_iff (asked : Asked calls w) (c : Category) :
    ((∃ store, w.store.register c = .ok store) ↔
      ∀ first ∈ firstNamed calls c.name, first.keys = c.keys) ∧
    (∀ e, w.store.register c = .error e → e = .invalidCategory (.registeredDifferently c.name)) ∧
    (((∃ store, w.store.register c = .ok store) ↔ ∀ first ∈ firstNamed calls c.name, first = c) ↔
      ∀ first ∈ firstNamed calls c.name, first.keys = c.keys → first.indexKeys = c.indexKeys) ∧
    ∀ store, w.store.register c = .ok store →
      (firstNamed calls c.name = none ∧
        store = { w.store with tables := w.store.tables.insert c.name ⟨c.keys, []⟩ }) ∨
      ((firstNamed calls c.name).isSome ∧ store = w.store) := by
  rw [MemoryStore.register_eq, asked.keys?]
  cases found : firstNamed calls c.name with
  | none => simp
  | some first =>
      have name := name_of_firstNamed found
      have equal : first = c ↔ first.keys = c.keys ∧ first.indexKeys = c.indexKeys := by
        obtain ⟨_, keys, indexKeys⟩ := first
        obtain ⟨_, keys', indexKeys'⟩ := c
        simp_all
      by_cases keys : first.keys = c.keys <;> simp [keys, equal]

def load : Key := ⟨"load", .scalar .double⟩

/-- Machines without their tags. -/
def untagged : Category := { machines with keys := [load] }

/-- Machines whose loads are to tell them apart. -/
def indexed : Category := { machines with indexKeys := [load] }

/-- Once a machine was added, its category may be registered again, which leaves the machine there,
and the category without tags is refused. -/
theorem untagged_machines_are_refused : ∃ calls w record, Asked calls w ∧
    w.store.tables.get? "vm" = some ⟨machines.keys, [record]⟩ ∧
    w.store.register machines = .ok w.store ∧
    w.store.register untagged = .error (.invalidCategory (.registeredDifferently "vm")) := by
  have declared : machines.Declared := by decide +kernel
  have known : machines.key? load.name = some load := by decide
  have name : (Token.word machines.name).Spellable := by
    simp [Token.Spellable, machines, isDelimiter, Text.isBlank]
  have plain : (Token.quoted load.name).Spellable := by simp [Token.Spellable, load]
  have fits : ∀ v ∈ [Value.double (.finite (.zero false))], v.type = load.type ∧ v.isFinite = true := by decide
  obtain ⟨w, reached, -, registered, table⟩ :=
    leads_filled declared (compile_filling known name plain) fits
  have asked : Asked [machines] w := registered ▸ asked_of_leads reached
  have first : firstNamed [machines] "vm" = some machines := by decide
  refine ⟨_, w, _, asked, table, ?_, ?_⟩
  · obtain ⟨answer, -, -, frame⟩ := conflicts_are_detected_iff asked machines
    obtain ⟨store, ok⟩ := answer.2 fun m found => by
      rw [Option.some.inj (first.symm.trans found)]
    rcases frame store ok with ⟨unnamed, -⟩ | ⟨-, rfl⟩
    · exact absurd (first.symm.trans unnamed) (by simp)
    · exact ok
  · obtain ⟨answer, refused, -, -⟩ := conflicts_are_detected_iff asked untagged
    cases result : w.store.register untagged with
    | ok store => exact absurd (answer.1 ⟨store, result⟩ machines first) (by decide)
    | error e => rw [refused e result, untagged, machines]

/-- Another category of the same name is accepted after the first one. -/
theorem index_keys_are_overlooked : ∃ calls w, Asked calls w ∧ indexed.Declared ∧
    firstNamed calls indexed.name = some machines ∧ machines ≠ indexed ∧
    w.store.register indexed = .ok w.store := by
  have declared : machines.Declared := by decide +kernel
  refine ⟨[machines], _, .accepted .new machines _ declared rfl, by decide +kernel, by decide,
    by decide, ?_⟩
  simp [MemoryStore.register, indexed, machines]

end Session

end FleetStore
