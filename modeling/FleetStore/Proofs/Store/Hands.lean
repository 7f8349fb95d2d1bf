import FleetStore.Proofs.Binding.Typed
import FleetStore.Proofs.Language.Cache
import FleetStore.Proofs.Queued.Change

/-! # What clients have in hand

Clients prepare statements, copy them, call their setters and patch them, and all of
that leaves the records alone. Whatever they do, every statement that they hold is
legal for a category that one of them prepared statements for, it has a place for
each parameter with a checked value in it or none, and every write that they
have patched fits such a category.
-/

namespace FleetStore

open Descriptor

/-! ## The cache -/

/-- Only the name and the keys of a category say what is legal for it. -/
theorem Descriptor.Compiled.Legal.same {c c' : Category} {r : Compiled} (h : r.Legal c)
    (name : c'.name = c.name) (keys : c'.keys = c.keys) : r.Legal c' where
  category := h.category.trans name.symm
  assignments := keys ▸ h.assignments
  condition := keys ▸ h.condition
  sort := keys ▸ h.sort
  limit := h.limit

/-- Kept statements are legal for the categories that they are kept by. -/
def Descriptor.Cache.Legal (cache : Cache) : Prop :=
  ∀ entry ∈ cache.entries, ∀ c, entry.key = .of c entry.key.descriptor → entry.compiled.Legal c

theorem Descriptor.Cache.legal_empty : Cache.empty.Legal := by simp [Cache.Legal, Cache.empty]

theorem Descriptor.Cache.Legal.getOrCompile {cache cache' : Cache} {c : Category}
    {descriptor : String} {entry : CacheEntry} (h : cache.Legal)
    (ok : cache.getOrCompile c descriptor = .ok (entry, cache')) :
    cache'.Legal ∧ entry.compiled.Legal c := by
  have new (n : Nat) (compiled : Compiled) (compiles : compile c descriptor = .ok compiled)
      (d : Category) (key : CacheKey.of c descriptor = .of d descriptor) : compiled.Legal d := by
    obtain ⟨name, keys, -⟩ := CacheKey.mk.inj key
    exact (compile_legal compiles).same name.symm keys.symm
  obtain ⟨kept, legal, key⟩ := Cache.getOrCompile_keeps h new ok
  exact ⟨kept, legal c (by rw [key]; rfl)⟩

/-! ## Statements -/

namespace Prepared

/-- A statement is legal for one of the categories, and its values have been checked. -/
structure Usable (used : List Category) (s : Prepared) : Prop where
  checked : s.Checked
  legal : ∃ c ∈ used, s.compiled.Legal c

theorem Usable.mono {used longer : List Category} {s : Prepared} (h : s.Usable used)
    (more : used ⊆ longer) : s.Usable longer :=
  ⟨h.checked, h.legal.imp fun _ found => ⟨more found.1, found.2⟩⟩

theorem Usable.trySet {used : List Category} {s : Prepared} (h : s.Usable used) (index : Nat)
    (value : Value) : (s.trySet index value).Usable used :=
  ⟨h.checked.trySet index value, (s.compiled_trySet index value).symm ▸ h.legal⟩

theorem usable_ofCompiled {c : Category} {r : Compiled} {used : List Category} (known : c ∈ used)
    (legal : r.Legal c) : (ofCompiled r).Usable used :=
  ⟨checked_ofCompiled r, c, known, legal⟩

/-- Whatever values a usable write was given, what it binds to fits one of the categories. -/
theorem Usable.boundWrite {used : List Category} {s : Prepared} {w : BoundWrite}
    (h : s.Usable used) (ok : s.boundWrite = .ok w) : ∃ c ∈ used, w.Fits c :=
  h.legal.imp fun _ found => ⟨found.1, boundWrite_fits found.2 ok⟩

end Prepared

/-! ## Statements in use -/

/-- What the clients of a store have in their hands. -/
structure Hands where
  /-- The categories that statements were prepared for. -/
  used : List Category
  statements : List Prepared
  /-- The statements that were patched. -/
  patched : List BoundStatement

namespace Hands

def empty : Hands := ⟨[], [], []⟩

/-- What clients do with statements short of running them. Preparing fills the cache of the
store. -/
inductive Step : MemoryStore → Hands → MemoryStore → Hands → Prop where
  | prepare {m h} (c : Category) (descriptor : String) (statement : Prepared) (m' : MemoryStore)
      (ok : m.prepare c descriptor = .ok (statement, m')) :
      Step m h m' { h with used := h.used ++ [c], statements := h.statements ++ [statement] }
  | copy {m h} (statement : Prepared) (known : statement ∈ h.statements) :
      Step m h m { h with statements := h.statements ++ [statement] }
  | set {m h} (before : List Prepared) (statement : Prepared) (after : List Prepared) (index : Nat)
      (value : Value) (known : h.statements = before ++ statement :: after) :
      Step m h m { h with statements := before ++ statement.trySet index value :: after }
  | patch {m h} (statement : Prepared) (params : List Parameter) (bound : BoundStatement)
      (known : statement ∈ h.statements) (ok : statement.compiled.bind params = .ok bound) :
      Step m h m { h with patched := h.patched ++ [bound] }

/-- Everything in the hands of clients is legal for a category that was used. -/
structure Sound (m : MemoryStore) (h : Hands) : Prop where
  cached : m.cache.Legal
  statements : ∀ s ∈ h.statements, s.Usable h.used
  patched : ∀ w, .write w ∈ h.patched → ∃ c ∈ h.used, w.Fits c

variable {m m' : MemoryStore} {h h' : Hands}

theorem sound_empty (cached : m.cache.Legal) : Sound m empty :=
  ⟨cached, by simp [empty], by simp [empty]⟩

/-- Nothing but the cache of the store has a part in it. -/
theorem Sound.elsewhere (sound : Sound m h) (cache : m'.cache = m.cache) : Sound m' h :=
  { sound with cached := cache ▸ sound.cached }

/-- Using statements leaves records, files and the connection alone. -/
theorem Step.kept (step : Step m h m' h') : ∃ cache, m' = { m with cache } := by
  cases step with
  | prepare c descriptor statement _ ok =>
      obtain ⟨entry, cache, _, _, same⟩ := MemoryStore.prepare_ok ok
      exact ⟨cache, same⟩
  | copy | set | patch => exact ⟨m.cache, rfl⟩

theorem Step.used (step : Step m h m' h') : h.used ⊆ h'.used := by
  cases step with
  | prepare => exact List.subset_append_left _ _
  | copy | set | patch => exact List.Subset.refl _

/-- A statement in hand was there before, or it is one of those with a call of its setter, or
it was just prepared. -/
theorem Step.statements (step : Step m h m' h') : ∀ s ∈ h'.statements, s ∈ h.statements ∨
    (∃ old ∈ h.statements, ∃ index value, s = old.trySet index value) ∨
      ∃ c ∈ h'.used, ∃ descriptor, m.prepare c descriptor = .ok (s, m') := by
  intro s member
  cases step with
  | prepare c descriptor statement _ ok =>
      refine (List.mem_append.1 member).imp_right fun new => .inr ⟨c, ?_, descriptor, ?_⟩
      · exact List.mem_append_right _ (List.mem_singleton_self c)
      · exact List.mem_singleton.1 new ▸ ok
  | copy statement known =>
      refine .inl ((List.mem_append.1 member).elim id fun new => ?_)
      exact List.mem_singleton.1 new ▸ known
  | set before statement after index value known =>
      simp only [known, List.mem_append, List.mem_cons] at member ⊢
      rcases member with earlier | rfl | later
      · exact .inl (.inl earlier)
      · exact .inr (.inl ⟨statement, .inr (.inl rfl), index, value, rfl⟩)
      · exact .inl (.inr (.inr later))
  | patch => exact .inl member

theorem Sound.step (sound : Sound m h) (step : Step m h m' h') : Sound m' h' := by
  have grown := step.used
  refine ⟨?_, fun s member => ?_, fun w member => ?_⟩
  · cases step with
    | prepare c descriptor statement _ ok =>
        obtain ⟨entry, cache, got, -, rfl⟩ := MemoryStore.prepare_ok ok
        exact (sound.cached.getOrCompile got).1
    | copy | set | patch => exact sound.cached
  · rcases step.statements s member with old | ⟨old, there, index, value, rfl⟩ | ⟨c, used, d, ok⟩
    · exact (sound.statements s old).mono grown
    · exact ((sound.statements old there).trySet index value).mono grown
    · obtain ⟨entry, cache, got, rfl, -⟩ := MemoryStore.prepare_ok ok
      exact Prepared.usable_ofCompiled used (sound.cached.getOrCompile got).2
  · have fits : ∃ c ∈ h.used, w.Fits c := by
      cases step with
      | prepare | copy | set => exact sound.patched w member
      | patch statement params bound known ok =>
          rcases List.mem_append.1 member with old | new
          · exact sound.patched w old
          · obtain ⟨c, used, legal⟩ := (sound.statements statement known).legal
            exact ⟨c, used, legal.bind (ok.trans (congrArg _ (List.mem_singleton.1 new).symm))⟩
    exact fits.imp fun _ found => ⟨grown found.1, found.2⟩

end Hands

end FleetStore
