import FleetStore.Proofs.Store.Fields
import FleetStore.Proofs.Store.Hands

/-! # Records fit the categories that were registered

Clients register categories, prepare statements, bind and rebind values, copy and patch
statements, write and purge, in any order. As long as no statement is prepared for a
category that never comes to be registered, every field of every record has the
name of a key of the registered category and a document of the type of this key.
The category of a statement need not be registered yet when the statement is
prepared, or even when a write of it fails for want of a table.
-/

namespace FleetStore

/-! ## Registered keys -/

theorem Dict.insert_insert {α : Type} (d : Dict α) (name : String) (first second : α) :
    (d.insert name first).insert name second = d.insert name second := by
  refine ext_get? fun other => ?_
  simp only [get?_insert]
  split <;> rfl

namespace Category

/-- A category as a declaration leaves it. -/
def Declared (c : Category) : Prop :=
  declare c.name c.keys c.indexKeys = .ok c

instance (c : Category) : Decidable c.Declared :=
  match h : declare c.name c.keys c.indexKeys with
  | .ok d => decidable_of_iff (d = c) (by simp [Declared, h])
  | .error _ => .isFalse (by simp [Declared, h])

theorem unique_of_repeatedName? {seen : List String} {keys : List Key}
    (h : repeatedName? seen keys = none) :
    (∀ k ∈ keys, ∀ l ∈ keys, k.name = l.name → k = l) ∧ ∀ k ∈ keys, k.name ∉ seen := by
  induction keys generalizing seen with
  | nil => simp
  | cons first rest ih =>
      unfold repeatedName? at h
      split at h
      · contradiction
      · next new =>
          obtain ⟨unique, unseen⟩ := ih h
          have other : ∀ k ∈ rest, k.name ≠ first.name := fun k member same =>
            unseen k member (same ▸ List.mem_cons_self)
          simp only [List.mem_cons]
          refine ⟨?_, ?_⟩
          · rintro k (rfl | inK) l (rfl | inL) same
            · rfl
            · exact absurd same.symm (other l inL)
            · exact absurd same (other k inK)
            · exact unique k inK l inL same
          · rintro k (rfl | later)
            · exact new
            · exact fun old => unseen k later (List.mem_cons_of_mem _ old)

/-- A declared category has no two keys of one name. -/
theorem Declared.unique {c : Category} (h : c.Declared) :
    ∀ k ∈ c.keys, ∀ l ∈ c.keys, k.name = l.name → k = l := by
  unfold Declared declare at h
  split at h
  · contradiction
  · split at h
    · contradiction
    · split at h
      · contradiction
      · next different => exact (unique_of_repeatedName? different).1

end Category

namespace Tables

/-- The keys under which the category of a name is registered. -/
def keys? (tables : Tables) (name : String) : Option (List Key) :=
  (tables.get? name).map Table.keys

theorem keys?_write? {tables tables' : Tables} {w : BoundWrite} (ok : tables.write? w = some tables')
    (name : String) : tables'.keys? name = tables.keys? name := by
  obtain ⟨table, found, rfl⟩ := Option.map_eq_some_iff.1 ok
  by_cases same : w.category = name
  · simp [keys?, ← same, found]
  · simp [keys?, same]

theorem keys?_purge (tables : Tables) (agent name : String) :
    (tables.purge agent).keys? name = tables.keys? name := by
  simp [keys?, purge, Function.comp_def]

end Tables

namespace MemoryStore

/-- Registering finds the category registered with the same keys, or adds an empty table. -/
theorem register_ok {s s' : MemoryStore} {c : Category} (ok : s.register c = .ok s') :
    s.tables.keys? c.name = some c.keys ∧ s' = s ∨
      s.tables.keys? c.name = none ∧
        s' = { s with tables := s.tables.insert c.name ⟨c.keys, []⟩ } := by
  unfold register at ok
  cases found : s.tables.get? c.name with
  | none =>
      simp only [found, Except.ok.injEq] at ok
      exact .inr ⟨by simp [Tables.keys?, found], ok.symm⟩
  | some table =>
      simp only [found] at ok
      split at ok
      · next same => exact .inl ⟨by simp [Tables.keys?, found, same], (Except.ok.inj ok).symm⟩
      · contradiction

theorem applyWrite_ok {s s' : MemoryStore} {w : BoundWrite} (ok : s.applyWrite w = .ok s') :
    ∃ tables, s.tables.write? w = some tables ∧ s' = { s with tables } := by
  obtain ⟨tables, applied, rfl⟩ := map_eq_ok_iff.1 ok
  unfold Tables.apply at applied
  split at applied
  · next written =>
      obtain rfl := Except.ok.inj applied
      exact ⟨_, written, rfl⟩
  · contradiction

theorem execute_ok {s s' : MemoryStore} {statement : Prepared} (ok : s.execute statement = .ok s') :
    ∃ w, statement.boundWrite = .ok w ∧ s.applyWrite w = .ok s' :=
  bind_eq_ok_iff.1 ok

end MemoryStore

/-! ## A store in use -/

/-- A store in memory, what its clients have in hand, and the categories that were
registered so far. -/
structure Session where
  store : MemoryStore
  hands : Hands
  registered : List Category

namespace Session

def new : Session := ⟨.empty, .empty, []⟩

/-- What clients do to a store. A call that fails changes nothing, and is no step. -/
inductive Step : Session → Session → Prop where
  | register {w} (c : Category) (store : MemoryStore) (declared : c.Declared)
      (ok : w.store.register c = .ok store) :
      Step w { w with store, registered := w.registered ++ [c] }
  | handle {w} (store : MemoryStore) (hands : Hands)
      (step : Hands.Step w.store w.hands store hands) : Step w { w with store, hands }
  | execute {w} (statement : Prepared) (store : MemoryStore) (known : statement ∈ w.hands.statements)
      (ok : w.store.execute statement = .ok store) : Step w { w with store }
  | apply {w} (b : BoundWrite) (store : MemoryStore) (known : .write b ∈ w.hands.patched)
      (ok : w.store.applyWrite b = .ok store) : Step w { w with store }
  | purge {w} (agent : String) : Step w { w with store := w.store.purge agent }
  /-- Saving files, listening to the connection and giving it up. -/
  | aside {w} (files : Dict (List UInt8)) (connection : Connection) :
      Step w { w with store := { w.store with files, connection } }

/-- What can come of a session after some steps. -/
inductive Leads : Session → Session → Prop where
  | here {w} : Leads w w
  | step {w w' w''} : Leads w w' → Step w' w'' → Leads w w''

variable {w w' : Session}

/-- The tables are those of the registered categories, and what is in them was written for
categories that were used. -/
structure Sound (w : Session) : Prop where
  hands : w.hands.Sound w.store
  described : w.store.tables.Described w.hands.used
  declared : ∀ c ∈ w.registered, c.Declared
  registered : ∀ c ∈ w.registered, w.store.tables.keys? c.name = some c.keys
  known : ∀ name keys, w.store.tables.keys? name = some keys →
    ∃ c ∈ w.registered, c.name = name ∧ c.keys = keys

theorem sound_new : new.Sound where
  hands := Hands.sound_empty Descriptor.Cache.legal_empty
  described := Tables.described_empty
  declared := by simp [new]
  registered := by simp [new]
  known name keys found := by simp [new, MemoryStore.empty, Tables.keys?] at found

/-- A write by a category that was used keeps everything in order. -/
theorem Sound.write (h : w.Sound) {c : Category} {b : BoundWrite} {store : MemoryStore}
    (used : c ∈ w.hands.used) (fits : b.Fits c) (ok : w.store.applyWrite b = .ok store) :
    Sound { w with store } := by
  obtain ⟨tables, written, rfl⟩ := MemoryStore.applyWrite_ok ok
  have keys := Tables.keys?_write? written
  refine ⟨h.hands.elsewhere rfl, h.described.write? used fits written, h.declared, ?_, ?_⟩
  · intro d member
    exact (keys d.name).trans (h.registered d member)
  · intro name found there
    exact h.known name found ((keys name).symm.trans there)

theorem Sound.register (h : w.Sound) {c : Category} {store : MemoryStore} (declared : c.Declared)
    (ok : w.store.register c = .ok store) :
    Sound { w with store, registered := w.registered ++ [c] } := by
  have all : ∀ d ∈ w.registered ++ [c], d.Declared := fun d member => by
    rcases List.mem_append.1 member with old | new
    · exact h.declared d old
    · exact List.mem_singleton.1 new ▸ declared
  rcases MemoryStore.register_ok ok with ⟨again, rfl⟩ | ⟨absent, rfl⟩
  · refine ⟨h.hands, h.described, all, fun d member => ?_, fun name keys found => ?_⟩
    · rcases List.mem_append.1 member with old | new
      · exact h.registered d old
      · exact List.mem_singleton.1 new ▸ again
    · obtain ⟨d, known, same⟩ := h.known name keys found
      exact ⟨d, List.mem_append_left _ known, same⟩
  · refine ⟨h.hands.elsewhere rfl, h.described.insert (by simp), all, fun d member => ?_,
      fun name keys found => ?_⟩
    · by_cases same : c.name = d.name
      · rcases List.mem_append.1 member with old | new
        · have there := h.registered d old
          rw [← same, absent] at there
          contradiction
        · obtain rfl := List.mem_singleton.1 new
          simp [Tables.keys?]
      · rcases List.mem_append.1 member with old | new
        · have there := h.registered d old
          simpa [Tables.keys?, same] using there
        · exact absurd (congrArg _ (List.mem_singleton.1 new).symm) same
    · by_cases same : c.name = name
      · exact ⟨c, List.mem_append_right _ (List.mem_singleton_self c), same,
          by simpa [Tables.keys?, same] using found⟩
      · obtain ⟨d, known, rest⟩ := h.known name keys (by simpa [Tables.keys?, same] using found)
        exact ⟨d, List.mem_append_left _ known, rest⟩

theorem Sound.step (h : w.Sound) (step : Step w w') : w'.Sound := by
  cases step with
  | register c store declared ok => exact h.register declared ok
  | handle store hands step =>
      obtain ⟨cache, rfl⟩ := step.kept
      exact ⟨h.hands.step step, h.described.mono step.used, h.declared, h.registered, h.known⟩
  | execute statement store known ok =>
      obtain ⟨b, bound, applied⟩ := MemoryStore.execute_ok ok
      obtain ⟨c, used, fits⟩ := (h.hands.statements statement known).boundWrite bound
      exact h.write used fits applied
  | apply b store known ok =>
      obtain ⟨c, used, fits⟩ := h.hands.patched b known
      exact h.write used fits ok
  | purge agent =>
      refine ⟨h.hands.elsewhere rfl, h.described.purge agent, h.declared, fun c member => ?_,
        fun name keys found => ?_⟩
      · exact (Tables.keys?_purge _ agent _).trans (h.registered c member)
      · exact h.known name keys ((Tables.keys?_purge _ agent _).symm.trans found)
  | aside files connection =>
      exact ⟨h.hands.elsewhere rfl, h.described, h.declared, h.registered, h.known⟩

theorem Leads.sound (h : w.Leads w') (sound : w.Sound) : w'.Sound := by
  induction h with
  | here => exact sound
  | step _ next ih => exact ih.step next

/-- What was used and what was registered is not forgotten. -/
theorem Leads.grows (h : w.Leads w') :
    w.hands.used ⊆ w'.hands.used ∧ w.registered ⊆ w'.registered := by
  induction h with
  | here => exact ⟨List.Subset.refl _, List.Subset.refl _⟩
  | step _ next ih =>
      cases next with
      | register => exact ⟨ih.1, fun _ member => List.mem_append_left _ (ih.2 member)⟩
      | handle _ _ step => exact ⟨fun _ member => step.used (ih.1 member), ih.2⟩
      | execute | apply | purge | aside => exact ih

/-- In a run in which every statement is prepared for a category that is registered in the run,
sooner or later, the fields in the table of a registered category are those of its keys. -/
theorem table_of_registered (reached : new.Leads w) (later : w.Leads w')
    (used : ∀ c ∈ w'.hands.used, c ∈ w'.registered) {c : Category} (member : c ∈ w.registered) :
    ∃ table, w.store.tables.get? c.name = some table ∧ table.keys = c.keys ∧
      ∀ r ∈ table.records, ∀ field j, r.get? field = some j →
        (∃ key ∈ c.keys, key.name = field) ∧
        ∀ key ∈ c.keys, key.name = field → key.type.Represents j := by
  have now := reached.sound sound_new
  have last := later.sound now
  obtain ⟨usedLater, registeredLater⟩ := later.grows
  obtain ⟨table, found, keys⟩ := Option.map_eq_some_iff.1 (now.registered c member)
  refine ⟨table, found, keys, fun r inside field j there => ?_⟩
  obtain ⟨d, usedNow, name, key, known, named, represents⟩ :=
    now.described c.name table found r inside field j there
  -- Both categories are registered in the end, under one name and so with the same keys.
  have same : d.keys = c.keys := by
    have first := last.registered d (used d (usedLater usedNow))
    rw [name, last.registered c (registeredLater member)] at first
    exact (Option.some.inj first).symm
  rw [same] at known
  refine ⟨⟨key, known, named⟩, fun other isKey alike => ?_⟩
  rwa [(now.declared c member).unique other isKey key known (alike.trans named.symm)]

/-- At every moment of a run in which every statement is prepared for a category that is
registered in the run, sooner or later, the tables are those of the categories
registered so far. Every field of every record has the name of a key of the category
of its table, and its document stands for a finite value of the type of that key. -/
theorem records_fit_registered (reached : new.Leads w) (later : w.Leads w')
    (used : ∀ c ∈ w'.hands.used, c ∈ w'.registered) :
    (∀ name table, w.store.tables.get? name = some table → ∃ c ∈ w.registered, c.name = name) ∧
    ∀ c ∈ w.registered, ∃ table, w.store.tables.get? c.name = some table ∧ table.keys = c.keys ∧
      ∀ r ∈ table.records, ∀ field j, r.get? field = some j →
        (∃ key ∈ c.keys, key.name = field) ∧
        ∀ key ∈ c.keys, key.name = field → key.type.Represents j := by
  refine ⟨fun name table found => ?_, fun c member => table_of_registered reached later used member⟩
  have now := reached.sound sound_new
  obtain ⟨c, known, same, _⟩ := now.known name table.keys (by simp [Tables.keys?, found])
  exact ⟨c, known, same⟩

def machines : Category := ⟨"vm", [⟨"load", .scalar .double⟩, ⟨"tags", .list .string⟩], []⟩

def addLoad : Descriptor.Compiled :=
  { descriptor := "ADD vm SET 'load' = ?d", category := "vm", kind := .write .add,
    signature := [.scalar .double], assignments := [(⟨"load", .scalar .double⟩, .parameter 0)],
    condition := none, sort := [], limit := none }

open Descriptor Syntax in
theorem compile_addLoad : compile machines addLoad.descriptor = .ok addLoad := by
  have cut : tokenize addLoad.descriptor = .ok
      [⟨.word "ADD", 0⟩, ⟨.word "vm", 4⟩, ⟨.word "SET", 7⟩, ⟨.quoted "load", 11⟩,
        ⟨.operator .equal, 18⟩, ⟨.parameter (.scalar .double), 20⟩] :=
    toOption_eq_some_iff.1 (by decide +kernel)
  let assignments : Chain Syntax.Assignment := ⟨⟨"load", .parameter (.scalar .double)⟩, []⟩
  let statement : Statement := ⟨.write .add, "vm", some assignments, none, none, none⟩
  have load : Assignment.Means machines [] ⟨"load", .parameter (.scalar .double)⟩
      (⟨"load", .scalar .double⟩, .parameter 0) [.scalar .double] :=
    .intro (by decide) .parameter
  have set : AssignmentsMean machines [] assignments addLoad.assignments [.scalar .double] :=
    .intro (.cons load .nil) (by simp [assignments, Chain.items])
  have allowed : statement.Allowed := by simp [statement, Statement.Allowed]
  refine compile_ok_iff.2 ⟨_, cut, statement, rfl, ?_⟩
  exact Statement.Means.intro rfl allowed (.some set) .none .none .none

theorem prepare_addLoad : ∃ store, new.store.prepare machines addLoad.descriptor =
    .ok (.ofCompiled addLoad, store) ∧ store.tables = ∅ := by
  simp [MemoryStore.prepare, Descriptor.Cache.getOrCompile, Descriptor.Cache.find?, new,
    MemoryStore.empty, Descriptor.Cache.empty, compile_addLoad, Except.map]

/-- A load is added twice, by the statement itself and by a patch of it. The category is
registered only after the statement was prepared, and a setter is called with a NaN
in between. -/
theorem added_loads_are_finite : ∃ w w', new.Leads w ∧ w.Leads w' ∧
    (∀ c ∈ w'.hands.used, c ∈ w'.registered) ∧ machines ∈ w.registered ∧
    ∃ table, w.store.tables.get? "vm" = some table ∧ table.records.length = 2 ∧
      (∀ r ∈ table.records, (r.get? "load").isSome) ∧
      ∀ r ∈ table.records, ∀ j, r.get? "load" = some j → ScalarType.double.Represents j := by
  let half : Double := .finite ⟨false, twoTo 52, 1021, by decide⟩
  let unbound : Prepared := .ofCompiled addLoad
  let bound : Prepared := ⟨addLoad, [some (.double half)]⟩
  let write : BoundWrite := ⟨"vm", .add, [(⟨"load", .scalar .double⟩, .double half)], none⟩
  obtain ⟨empty, prepare, nothing⟩ := prepare_addLoad
  let store (count : Nat) : MemoryStore :=
    { empty with
      tables := (∅ : Tables).insert "vm" ⟨machines.keys, List.replicate count write.newRecord⟩ }
  have register : empty.register machines = .ok (store 0) := by
    simp [MemoryStore.register, nothing, store, machines]
  have add (count : Nat) : (store count).applyWrite write = .ok (store (count + 1)) := by
    simp [MemoryStore.applyWrite, Tables.apply, Tables.write?, store, write, BoundWrite.applyTo,
      Except.map, List.replicate_succ', Dict.insert_insert]
  have prepared : new.Leads ⟨empty, ⟨[machines], [unbound], []⟩, []⟩ :=
    .step .here (.handle _ _ (.prepare machines _ _ empty prepare))
  have refused : new.Leads ⟨empty, ⟨[machines], [unbound], []⟩, []⟩ :=
    prepared.step (.handle _ _ (.set [] unbound [] 0 (.double .nan) rfl))
  have set : new.Leads ⟨empty, ⟨[machines], [bound], []⟩, []⟩ :=
    refused.step (.handle _ _ (.set [] unbound [] 0 (.double half) rfl))
  have registered : new.Leads ⟨store 0, ⟨[machines], [bound], []⟩, [machines]⟩ :=
    set.step (.register machines _ (by decide +kernel) register)
  have executed : new.Leads ⟨store 1, ⟨[machines], [bound], []⟩, [machines]⟩ :=
    registered.step (.execute bound _ (List.mem_singleton_self _) (add 0))
  have patched : new.Leads ⟨store 1, ⟨[machines], [bound], [.write write]⟩, [machines]⟩ :=
    executed.step (.handle _ _ (.patch bound [.ofValue 0 (.double half)] _ (List.mem_singleton_self _) rfl))
  have applied : new.Leads ⟨store 2, ⟨[machines], [bound], [.write write]⟩, [machines]⟩ :=
    patched.step (.apply write _ (List.mem_singleton_self _) (add 1))
  have used : ∀ c ∈ [machines], c ∈ [machines] := fun _ member => member
  obtain ⟨table, found, _, fits⟩ :=
    (records_fit_registered applied .here used).2 machines (List.mem_singleton_self _)
  have two : (store 2).tables.get? "vm" = some ⟨machines.keys, [write.newRecord, write.newRecord]⟩ := by
    simp [store, List.replicate]
  obtain rfl := Option.some.inj (found.symm.trans two)
  refine ⟨_, _, applied, .here, used, List.mem_singleton_self _, _, two, rfl, by decide +kernel, ?_⟩
  intro r member j there
  exact (fits r member "load" j there).2 ⟨"load", .scalar .double⟩ (by decide) rfl

end Session

end FleetStore
