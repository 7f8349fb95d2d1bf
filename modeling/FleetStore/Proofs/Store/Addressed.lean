import FleetStore.Proofs.Language.Filling
import FleetStore.Proofs.Language.Lookups
import FleetStore.Proofs.Store.Session
import FleetStore.Store.Samples

/-! # Which categories descriptors can name

A declared category has a name without blanks and quotes, but other characters may be in it
that end a word in a descriptor, and a key may have a quote in its name. A category
is addressed by descriptors exactly if its name is free of these characters, and a
key of it exactly if its name has no quote. The lookups about samples have keys
with names that can be spelled, so they depend on the name of the category alone.
-/

namespace FleetStore

open Descriptor

namespace Category

/-- The characters that end a word in a descriptor and may still be part of a declared name. -/
def strayDelimiters : List Char := [',', '=', '!', '<', '>', '?']

/-- No character of the name would end a word in a descriptor. -/
def OneWord (c : Category) : Prop :=
  ∀ x ∈ c.name.toList, x ∉ strayDelimiters

instance (c : Category) : Decidable c.OneWord :=
  List.decidableBAll (· ∉ strayDelimiters) c.name.toList

variable {c : Category}

theorem isDelimiter_eq (x : Char) :
    isDelimiter x = (isRefused x || strayDelimiters.contains x) := by
  simp only [isDelimiter, isRefused, strayDelimiters, List.contains_cons, List.contains_nil]
  ac_rfl

/-- A declared name is not empty and has no character that is refused. -/
theorem Declared.name (h : c.Declared) :
    c.name.toList ≠ [] ∧ ∀ x ∈ c.name.toList, isRefused x = false := by
  unfold Declared declare at h
  split at h
  · contradiction
  · next filled =>
      split at h
      · contradiction
      · next plain =>
          refine ⟨?_, by simpa using plain⟩
          intro empty
          rw [empty] at filled
          contradiction

theorem Declared.spellable_iff (h : c.Declared) :
    (Token.word c.name).Spellable ↔ c.OneWord := by
  obtain ⟨filled, plain⟩ := h.name
  refine ⟨fun spellable x member stray => ?_, fun word => ⟨filled, fun x member => ?_⟩⟩
  · have inside := spellable.2 x member
    rw [isDelimiter_eq] at inside
    simp [stray] at inside
  · simp [isDelimiter_eq, plain x member, word x member]

/-- A key of a declared category is found by its name. -/
theorem Declared.key? (h : c.Declared) {key : Key} (member : key ∈ c.keys) :
    c.key? key.name = some key := by
  unfold Category.key?
  cases found : c.keys.find? fun k => k.name == key.name with
  | none =>
      have other := List.find?_eq_none.1 found key member
      simp at other
  | some k =>
      have same : k.name = key.name := by simpa using List.find?_some found
      rw [h.unique k (List.mem_of_find?_eq_some found) key member same]

end Category

/-! ## Sorting by one key -/

/-- The text that asks for all records in the order of one key. -/
def sortText (category key : String) : String :=
  s!"QUERY {category} SORT '{key}' ASC"

namespace Descriptor.Lookup

/-- The lookup for all records in the order of one key. -/
def byKey (key : Key) : Lookup :=
  ⟨[], key, .ascending, none⟩

theorem toList_sortText (category : String) (key : Key) : (sortText category key.name).toList =
    "QUERY ".toList ++ (category.toList ++ (byKey key).written) := by
  have tokens : ((byKey key).statement "").setTokens =
      [.word "SORT", .quoted key.name, .word "ASC"] := rfl
  simp [sortText, toString, written, tokens, Writing.textOf, Token.spelling]

/-- The keys that a lookup tests or sorts by. -/
def keys (q : Lookup) : List Key :=
  q.key :: q.tests.map Prod.fst

end Descriptor.Lookup

/-! ## The lookups about samples -/

/-- The lookups about samples. -/
inductive Getter where
  | hostLatest
  | vmLatest
  | hostInterval
  | hostNewest
  | hostOldest

namespace Getter

open Samples

/-- The descriptor that is generated for a category. -/
def text : Getter → String → String
  | .hostLatest => hostLatestText
  | .vmLatest => vmLatestText
  | .hostInterval => hostIntervalText
  | .hostNewest => hostNewestText
  | .hostOldest => hostOldestText

def lookup : Getter → Lookup
  | .hostLatest => ⟨[(.agentId, .equal), (.timeStamp, .greater)], .timeStamp, .descending, none⟩
  | .vmLatest =>
      ⟨[(.agentId, .equal), (.vmId, .equal), (.timeStamp, .greater)], .timeStamp, .descending, none⟩
  | .hostInterval =>
      ⟨[(.agentId, .equal), (.timeStamp, .greaterEqual), (.timeStamp, .less)], .timeStamp,
        .descending, none⟩
  | .hostNewest => ⟨[(.agentId, .equal)], .timeStamp, .descending, some 1⟩
  | .hostOldest => ⟨[(.agentId, .equal)], .timeStamp, .ascending, some 1⟩

variable {c : Category} {g : Getter}

/-- A text that is made of some characters is read as these, and not decoded. -/
theorem toList_of_eq {s : String} {l : List Char} (h : s = String.ofList l) : s.toList = l := by
  rw [h, String.toList_ofList]

theorem toList_text (g : Getter) (category : String) : (g.text category).toList =
    "QUERY ".toList ++ (category.toList ++ g.lookup.written) := by
  cases g <;> simp only [text, hostLatestText, vmLatestText, hostIntervalText, hostNewestText,
    hostOldestText, toString, String.append_assoc] <;>
    rw [String.toList_append, String.toList_append] <;>
    exact congrArg _ (congrArg _ (toList_of_eq rfl))

/-- The lookups use no keys but the well-known ones. -/
theorem wellKnown (g : Getter) :
    ∀ key ∈ g.lookup.keys, key ∈ [Key.agentId, .vmId, .timeStamp] := by
  cases g <;> decide

theorem fits (declared : c.Declared) (keys : ∀ key ∈ g.lookup.keys, key ∈ c.keys) :
    g.lookup.Fits c := by
  have plain : ∀ key ∈ [Key.agentId, .vmId, .timeStamp], '\'' ∉ key.name.toList := by
    simp [Key.agentId, Key.vmId, Key.timeStamp]
  have ordered : ∀ t ∈ g.lookup.tests, t.2 ∈ Syntax.orderings → t.1.type ∈ Syntax.orderedTypes := by
    cases g <;> decide
  have known (key : Key) (member : key ∈ g.lookup.keys) :
      c.key? key.name = some key ∧ (Token.quoted key.name).Spellable :=
    ⟨declared.key? (keys key member), plain key (g.wellKnown key member)⟩
  refine ⟨fun t member => ?_, known _ List.mem_cons_self, by cases g <;> simp [lookup]⟩
  obtain ⟨found, spellable⟩ := known t.1 (List.mem_cons_of_mem _ (List.mem_map_of_mem member))
  exact ⟨found, spellable, ordered t member⟩

/-- A lookup about samples compiles for every category that has its keys and can be named. -/
theorem compile (declared : c.Declared) (word : c.OneWord)
    (keys : ∀ key ∈ g.lookup.keys, key ∈ c.keys) :
    Descriptor.compile c (g.text c.name) = .ok (g.lookup.compiled c.name (g.text c.name)) :=
  Lookup.compile (fits declared keys) (declared.spellable_iff.2 word) (g.toList_text c.name)

end Getter

/-! ## What is addressed -/

namespace Category

variable {c : Category}

/-- A declared category is addressed exactly if its name is one word in a descriptor, and a key of it
exactly if there is no quote in its name besides. -/
theorem addressed_iff_plain (declared : c.Declared) :
    (∀ key ∈ c.keys, (∃ r, compile c (sortText c.name key.name) = .ok r ∧
        r.sort = [(key, .ascending)]) ↔ c.OneWord ∧ '\'' ∉ key.name.toList) ∧
      (∀ g : Getter, (∀ key ∈ g.lookup.keys, key ∈ c.keys) →
        ((∃ r, compile c (g.text c.name) = .ok r) ↔ c.OneWord)) ∧
      (¬ c.OneWord → ∀ descriptor r, compile c descriptor ≠ .ok r) := by
  have named {descriptor : String} {r : Compiled} (ok : compile c descriptor = .ok r) : c.OneWord :=
    declared.spellable_iff.1 (compile_spells ok).1
  refine ⟨fun key member => ⟨?_, ?_⟩, fun g keys => ⟨?_, ?_⟩, fun stray descriptor r ok => ?_⟩
  · rintro ⟨r, ok, sorted⟩
    have inside : (key, .ascending) ∈ r.sort := by simp [sorted]
    exact ⟨named ok, ((compile_spells ok).2 _ inside).2⟩
  · rintro ⟨word, plain⟩
    have fits : (Lookup.byKey key).Fits c :=
      ⟨by simp [Lookup.byKey], ⟨declared.key? member, plain⟩, by simp [Lookup.byKey]⟩
    have name := declared.spellable_iff.2 word
    exact ⟨_, Lookup.compile fits name (Lookup.toList_sortText c.name key), rfl⟩
  · rintro ⟨r, ok⟩
    exact named ok
  · exact fun word => ⟨_, Getter.compile declared word keys⟩
  · exact stray (named ok)

/-- The category of the samples of virtual machines. -/
def samples : Category :=
  ⟨"vm-cpu-stats", [.agentId, .vmId, .timeStamp], [.agentId, .vmId]⟩

theorem samples_are_addressed : samples.Declared ∧
    (∀ key ∈ samples.keys, ∃ r, compile samples (sortText samples.name key.name) = .ok r ∧
      r.sort = [(key, .ascending)]) ∧
    ∀ g : Getter, ∃ r, compile samples (g.text samples.name) = .ok r := by
  have declared : samples.Declared := by decide +kernel
  have word : samples.OneWord := by decide +kernel
  have plain : ∀ key ∈ samples.keys, '\'' ∉ key.name.toList := by decide
  obtain ⟨sorts, getters, -⟩ := addressed_iff_plain declared
  refine ⟨declared, fun key member => (sorts key member).2 ⟨word, plain key member⟩, fun g => ?_⟩
  exact (getters g (by cases g <;> decide)).2 word

/-- A category with a comma in its name. -/
def loads : Category :=
  ⟨"cpu,load", [.agentId, .timeStamp], []⟩

theorem loads_are_not_addressed : loads.Declared ∧ Key.agentId ∈ loads.keys ∧
    Key.timeStamp ∈ loads.keys ∧
    (¬ ∃ r, compile loads (sortText loads.name Key.agentId.name) = .ok r ∧
      r.sort = [(.agentId, .ascending)]) ∧
    ¬ ∃ r, compile loads (Getter.hostLatest.text loads.name) = .ok r := by
  have refused {descriptor : String} {r : Compiled} (ok : compile loads descriptor = .ok r) : False := by
    have spellable := (compile_spells ok).1
    exact absurd (spellable.2 ',' (by decide)) (by decide)
  refine ⟨by decide +kernel, by decide, by decide, ?_, ?_⟩
  · rintro ⟨r, ok, -⟩
    exact refused ok
  · rintro ⟨r, ok⟩
    exact refused ok

end Category

end FleetStore
