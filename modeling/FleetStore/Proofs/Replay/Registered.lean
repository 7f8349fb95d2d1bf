import FleetStore.Proofs.Language.Cache
import FleetStore.Proofs.Replay.Unqueued

/-! # Setting up a store from a valid configuration

The categories of a valid configuration have different names and can be declared, so
registering them on an empty store succeeds, with or without a queue in front of it.
Afterwards every statement that is prepared for a category of the configuration
is about a category that has a table.
-/

namespace FleetStore

open Descriptor

/-! ## The cache -/

/-- Kept statements are about the category that they are kept by. -/
def Descriptor.Cache.Sound (cache : Cache) : Prop :=
  ∀ entry ∈ cache.entries, entry.compiled.category = entry.key.category

theorem Descriptor.Cache.sound_empty : Cache.empty.Sound := by simp [Cache.Sound, Cache.empty]

theorem Descriptor.Cache.Sound.getOrCompile {cache cache' : Cache} {c : Category}
    {descriptor : String} {entry : CacheEntry} (h : cache.Sound)
    (ok : cache.getOrCompile c descriptor = .ok (entry, cache')) :
    cache'.Sound ∧ entry.compiled.category = c.name := by
  obtain ⟨kept, sound, key⟩ :=
    Cache.getOrCompile_keeps h (fun _ _ compiles => compile_category compiles) ok
  exact ⟨kept, sound.trans (congrArg CacheKey.category key)⟩

/-! ## Valid configurations -/

namespace Config

theorem CategoryEntry.declare_name {e : CategoryEntry} {category : Category}
    (ok : e.declare = .ok category) : category.name = e.name := by
  obtain ⟨index, _, ok⟩ := bind_eq_ok_iff.1 ok
  unfold Category.declare at ok
  repeat' split at ok
  all_goals first
    | contradiction
    | exact (congrArg Category.name (Except.ok.inj ok)).symm

/-- The entries have different names, and each declares a category. -/
structure Declarable (entries : List CategoryEntry) : Prop where
  different : entries.Pairwise fun e f => e.name ≠ f.name
  declared : ∀ e ∈ entries, ∃ category, e.declare = .ok category

theorem Declarable.tail {e : CategoryEntry} {rest : List CategoryEntry}
    (h : Declarable (e :: rest)) : Declarable rest :=
  ⟨h.different.of_cons, fun f member => h.declared f (List.mem_cons_of_mem _ member)⟩

theorem declarable_of_validateCategories {seen : List String} {entries : List CategoryEntry}
    (ok : validateCategories seen entries = .ok ()) :
    Declarable entries ∧ ∀ e ∈ entries, e.name ∉ seen := by
  induction entries generalizing seen with
  | nil => exact ⟨⟨.nil, by simp⟩, by simp⟩
  | cons e rest ih =>
      unfold validateCategories at ok
      split at ok
      · contradiction
      · next new =>
          split at ok
          · contradiction
          · next category declared =>
              obtain ⟨later, unseen⟩ := ih ok
              refine ⟨⟨List.pairwise_cons.2 ⟨fun f member same => ?_, later.different⟩, ?_⟩, ?_⟩
              · exact unseen f member (by simp [same])
              · intro f member
                rcases List.mem_cons.1 member with rfl | member
                · exact ⟨category, declared⟩
                · exact later.declared f member
              · intro f member
                rcases List.mem_cons.1 member with rfl | member
                · exact new
                · exact fun old => unseen f member (List.mem_cons_of_mem _ old)

theorem validateStatements_ok_iff {c : Config} {statements : List StatementEntry} :
    c.validateStatements statements = .ok () ↔ ∀ s ∈ statements, (c.category? s.category).isSome := by
  induction statements with
  | nil => simp [validateStatements]
  | cons s rest ih =>
      cases found : c.category? s.category <;> simp [validateStatements, found, ih]

/-- What makes a configuration valid. -/
theorem validate_ok_iff {c : Config} : c.validate = .ok () ↔
    Text.isWord c.storage.name = true ∧ c.storage.writeTimeout.isZero = false ∧
      c.storage.fileTimeout.isZero = false ∧ validateCategories [] c.categories = .ok () ∧
      ∀ s ∈ c.statements, (c.category? s.category).isSome := by
  rw [← validateStatements_ok_iff]
  unfold validate
  cases Text.isWord c.storage.name with
  | false => simp
  | true =>
      cases c.storage.writeTimeout.isZero with
      | true => simp
      | false =>
          cases c.storage.fileTimeout.isZero with
          | true => simp
          | false => cases validateCategories [] c.categories <;> simp [bind, Except.bind]

theorem validate_of_isOk {c : Config} (ok : c.validate.isOk = true) : c.validate = .ok () := by
  cases result : c.validate with
  | ok => rfl
  | error fault => simp [result, Except.isOk, Except.toBool] at ok

theorem declarable_of_validate {c : Config} (valid : c.validate = .ok ()) :
    Declarable c.categories := by
  obtain ⟨_, _, _, categories, _⟩ := validate_ok_iff.1 valid
  exact (declarable_of_validateCategories categories).1

end Config

/-! ## Registering -/

namespace Unqueued

/-- Statements can be prepared and run: every category of the configuration has a table,
and the cache can be relied on. -/
structure Ready (c : Config) (m : MemoryStore) : Prop where
  cached : m.cache.Sound
  registered : ∀ e ∈ c.categories, (m.tables.get? e.name).isSome

theorem registerAll_ok {entries : List Config.CategoryEntry} (h : Config.Declarable entries)
    (m : MemoryStore) (new : ∀ e ∈ entries, m.tables.get? e.name = none) :
    ∃ m', registerAll m entries = .ok m' ∧ m'.cache = m.cache ∧
      (∀ name, (m.tables.get? name).isSome → (m'.tables.get? name).isSome) ∧
      ∀ e ∈ entries, (m'.tables.get? e.name).isSome := by
  induction entries generalizing m with
  | nil => exact ⟨m, rfl, rfl, fun _ known => known, by simp⟩
  | cons e rest ih =>
      obtain ⟨category, declared⟩ := h.declared e List.mem_cons_self
      obtain ⟨others, _⟩ := List.pairwise_cons.1 h.different
      have name := Config.CategoryEntry.declare_name declared
      let next : MemoryStore :=
        { m with tables := m.tables.insert category.name ⟨category.keys, []⟩ }
      have registered : Store.register m category = .ok next := by
        have absent := new e List.mem_cons_self
        rw [← name] at absent
        simp only [Store.register, MemoryStore.register, absent, next]
      obtain ⟨m', ok, cache, grown, there⟩ := ih h.tail next fun f member => by
        rw [Dict.get?_insert, name, if_neg (others f member)]
        exact new f (List.mem_cons_of_mem _ member)
      refine ⟨m', ?_, cache, fun n known => grown n ?_, fun f member => ?_⟩
      · simp [registerAll, declared, registered, ok, bind, Except.bind]
      · rw [Dict.get?_insert]
        split <;> simp [known]
      · rcases List.mem_cons.1 member with rfl | member
        · exact grown f.name (by simp [next, name])
        · exact there f member

theorem ready_of_validate {c : Config} (valid : c.validate = .ok ()) :
    ∃ m, registerAll .empty c.categories = .ok m ∧ Ready c m := by
  obtain ⟨m, ok, cache, _, there⟩ := registerAll_ok (Config.declarable_of_validate valid) .empty
    fun e _ => Dict.get?_empty e.name
  exact ⟨m, ok, ⟨cache ▸ Cache.sound_empty, there⟩⟩

end Unqueued

namespace Replay

/-- Categories by name, the declared ones among them. -/
def declared (categories : Dict Category) : List Config.CategoryEntry → Dict Category
  | [] => categories
  | e :: rest =>
      match e.declare with
      | .ok category => declared (categories.insert e.name category) rest
      | .error _ => declared categories rest

/-- Registering on a queued store is registering on the store behind the queue. -/
theorem registerAll_eq (store : QueuedStore) (categories : Dict Category)
    (entries : List Config.CategoryEntry) :
    registerAll store categories entries =
      (Unqueued.registerAll store.delegate entries).map fun delegate =>
        ({ store with delegate }, declared categories entries) := by
  induction entries generalizing store categories with
  | nil => rfl
  | cons e rest ih =>
      cases declare : e.declare with
      | error fault =>
          simp [registerAll, Unqueued.registerAll, declare, bind, Except.bind, Except.map]
      | ok category =>
          cases register : store.delegate.register category with
          | error fault =>
              simp [registerAll, Unqueued.registerAll, declare, Store.register, register,
                bind, Except.bind, Except.map]
          | ok delegate =>
              simp [registerAll, Unqueued.registerAll, declared, declare, Store.register, register,
                bind, Except.bind, Except.map, ih]

theorem declared_get? {entries : List Config.CategoryEntry} (h : Config.Declarable entries)
    (categories : Dict Category) (name : String) :
    (declared categories entries).get? name =
      match entries.find? fun e => e.name = name with
      | some e => e.declare.toOption
      | none => categories.get? name := by
  induction entries generalizing categories with
  | nil => rfl
  | cons e rest ih =>
      obtain ⟨category, declare⟩ := h.declared e List.mem_cons_self
      obtain ⟨others, _⟩ := List.pairwise_cons.1 h.different
      simp only [declared, declare, ih h.tail, List.find?_cons, Dict.get?_insert]
      by_cases same : e.name = name
      · have alone : (rest.find? fun e => e.name = name) = none := by
          refine List.find?_eq_none.2 fun f member found => others f member ?_
          exact same.trans (of_decide_eq_true found).symm
        simp [same, alone, declare, Except.toOption]
      · simp [same]

end Replay

end FleetStore
