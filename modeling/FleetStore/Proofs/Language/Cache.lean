import FleetStore.Descriptor.Cache
import FleetStore.Proofs.Except
import Mathlib.Data.Finset.Card

/-! # What a cache of statements answers

Compiling looks at nothing of a category but its name and its keys, and a cache keeps what
it has compiled by these and the text. So whatever it is asked, one thing after another,
it answers what compiling would have come to, faults included. What it has once found it
gives back as the same entry, and it holds one entry for each different thing that
it was asked for and that compiles.
-/

namespace FleetStore.Descriptor

/-! ## Index keys are nothing to the compiler -/

section

variable {c d : Category} (name : c.name = d.name) (keys : c.keys = d.keys)
include name keys

theorem readKey_same : readKey c = readKey d := by
  funext s
  simp only [readKey, Category.key?, name, keys]

theorem readAssignments_same : readAssignments c = readAssignments d := by
  have item : readAssignment c = readAssignment d := by
    funext seen s
    simp only [readAssignment, readKey_same name keys]
  funext s
  simp only [readAssignments, item]

theorem readUnary_same : readUnary c = readUnary d := by
  have comparison : readComparison c = readComparison d := by
    funext s
    simp only [readComparison, readKey_same name keys]
  have negations (signature : List ValueType) (l : List Lexeme) :
      readNegations c signature l = readNegations d signature l := by
    fun_induction readNegations c signature l with
    | case1 rest offset ih => rw [readNegations, ih]
    | case2 l notNegated => rw [readNegations.eq_2 d signature l notNegated, comparison]
  funext s
  exact negations s.signature s.rest

theorem readCondition_same : readCondition c = readCondition d := by
  have conjunction : readConjunction c = readConjunction d := by
    funext s
    simp only [readConjunction, readUnary_same name keys]
  funext s
  simp only [readCondition, conjunction]

theorem readSortKeys_same : readSortKeys c = readSortKeys d := by
  have item : readSortKey c = readSortKey d := by
    funext s
    simp only [readSortKey, readKey_same name keys]
  funext s
  simp only [readSortKeys, item]

/-- What a descriptor compiles to, and what is wrong with it, depends on the name and the keys
of its category alone. -/
theorem compile_same (descriptor : String) : compile c descriptor = compile d descriptor := by
  have category : readCategory c = readCategory d := by
    funext kind l
    cases l with
    | nil => rfl
    | cons head rest => simp only [readCategory, name]
  have clauses : readClauses c descriptor = readClauses d descriptor := by
    funext kind l
    simp only [readClauses, name, readAssignments_same name keys, readCondition_same name keys,
      readSortKeys_same name keys]
  simp only [compile, readStatement, category, clauses]

end

/-- What holds of every entry and of whatever compiles goes on to hold of every entry, and it
holds of the answer. -/
theorem Cache.getOrCompile_keeps {cache cache' : Cache} {c : Category} {descriptor : String}
    {entry : CacheEntry} {P : CacheEntry → Prop} (every : ∀ e ∈ cache.entries, P e)
    (new : ∀ n compiled, compile c descriptor = .ok compiled → P ⟨n, .of c descriptor, compiled⟩)
    (ok : cache.getOrCompile c descriptor = .ok (entry, cache')) :
    (∀ e ∈ cache'.entries, P e) ∧ P entry ∧ entry.key = .of c descriptor := by
  unfold getOrCompile at ok
  split at ok
  · next kept found =>
      obtain ⟨rfl, rfl⟩ := Prod.mk.inj (Except.ok.inj ok)
      exact ⟨every, every _ (List.mem_of_find?_eq_some found), by simpa using List.find?_some found⟩
  · obtain ⟨compiled, compiles, same⟩ := map_eq_ok_iff.1 ok
    obtain ⟨rfl, rfl⟩ := Prod.mk.inj same
    have added := new cache.size compiled compiles
    refine ⟨fun e member => ?_, added, rfl⟩
    rcases List.mem_append.1 member with old | last
    · exact every e old
    · exact List.mem_singleton.1 last ▸ added

/-! ## Inquiries -/

/-- What a cache is asked for. -/
structure Inquiry where
  category : Category
  descriptor : String
deriving DecidableEq

namespace Inquiry

def key (i : Inquiry) : CacheKey :=
  .of i.category i.descriptor

/-- What compiling comes to. -/
def compiled (i : Inquiry) : Except Error Compiled :=
  compile i.category i.descriptor

theorem key_eq_iff {i j : Inquiry} : i.key = j.key ↔
    i.category.name = j.category.name ∧ i.category.keys = j.category.keys ∧
      i.descriptor = j.descriptor := by
  simp [key, CacheKey.of]

theorem compiled_same {i j : Inquiry} (h : i.key = j.key) : i.compiled = j.compiled := by
  obtain ⟨name, keys, text⟩ := key_eq_iff.1 h
  rw [compiled, compiled, text, compile_same name keys]

end Inquiry

namespace Cache

/-- What the cache answers, and the cache after it. -/
def answer (cache : Cache) (i : Inquiry) : Except Error CacheEntry × Cache :=
  match cache.getOrCompile i.category i.descriptor with
  | .ok (entry, later) => (.ok entry, later)
  | .error e => (.error e, cache)

/-- The answers to inquiries that are made one after another. -/
def answers (cache : Cache) : List Inquiry → List (Except Error CacheEntry) × Cache
  | [] => ([], cache)
  | i :: rest =>
      let (first, cache) := cache.answer i
      let (more, cache) := cache.answers rest
      (first :: more, cache)

/-- A cache that has been asked some things and nothing else: each of its entries holds what
everything with its key compiles to and stands at the place of its number, and there
is one entry for each key of something that compiles. -/
structure Filled (asked : List Inquiry) (cache : Cache) : Prop where
  compiled : ∀ entry ∈ cache.entries, ∀ i : Inquiry, i.key = entry.key → i.compiled = .ok entry.compiled
  numbered : ∀ n (entry : CacheEntry), cache.entries[n]? = some entry → entry.number = n
  single : (cache.entries.map CacheEntry.key).Nodup
  keys : ∀ key, key ∈ cache.entries.map CacheEntry.key ↔
    ∃ i ∈ asked, i.compiled.isOk = true ∧ i.key = key

variable {asked : List Inquiry} {cache : Cache}

theorem filled_empty : Filled [] empty where
  compiled := by simp [empty]
  numbered := by simp [empty]
  single := .nil
  keys := by simp [empty]

/-- An inquiry finds its entry, or adds it, or fails as compiling fails. -/
theorem answer_cases (cache : Cache) (i : Inquiry) :
    (∃ entry ∈ cache.entries, entry.key = i.key ∧ cache.answer i = (.ok entry, cache)) ∨
      i.key ∉ cache.entries.map CacheEntry.key ∧
        match i.compiled with
        | .ok compiled =>
            cache.answer i = (.ok ⟨cache.size, i.key, compiled⟩,
              ⟨cache.entries ++ [⟨cache.size, i.key, compiled⟩]⟩)
        | .error e => cache.answer i = (.error e, cache) := by
  unfold answer getOrCompile
  cases found : cache.find? (.of i.category i.descriptor) with
  | some entry =>
      have same : entry.key = i.key := by simpa [Inquiry.key] using List.find?_some found
      exact .inl ⟨entry, List.mem_of_find?_eq_some found, same, rfl⟩
  | none =>
      refine .inr ⟨fun there => ?_, ?_⟩
      · obtain ⟨entry, member, same⟩ := List.mem_map.1 there
        exact List.find?_eq_none.1 found entry member (decide_eq_true same)
      · unfold Inquiry.compiled
        cases compile i.category i.descriptor <;> rfl

/-- A new entry takes the next number, and its key is one that no other entry has. -/
theorem Filled.add (h : Filled asked cache) {i : Inquiry} {compiled : Compiled}
    (new : i.key ∉ cache.entries.map CacheEntry.key) (ok : i.compiled = .ok compiled) :
    Filled (asked ++ [i]) ⟨cache.entries ++ [⟨cache.size, i.key, compiled⟩]⟩ where
  compiled entry member j same := by
    rcases List.mem_append.1 member with old | added
    · exact h.compiled entry old j same
    · obtain rfl := List.mem_singleton.1 added
      exact (Inquiry.compiled_same same).trans ok
  numbered n entry found := by
    rw [List.getElem?_append] at found
    split at found
    · exact h.numbered n entry found
    · next beyond =>
        rw [List.getElem?_singleton] at found
        split at found
        · obtain rfl := Option.some.inj found
          simp only [Cache.size]
          omega
        · contradiction
  single := by
    rw [List.map_append, List.nodup_append]
    refine ⟨h.single, List.nodup_singleton _, fun key old other added => ?_⟩
    obtain rfl := List.mem_singleton.1 added
    rintro rfl
    exact new old
  keys key := by
    rw [List.map_append, List.mem_append, h.keys]
    simp only [List.map_cons, List.map_nil, List.mem_singleton, List.mem_append, or_and_right,
      exists_or, exists_eq_left, ok]
    exact or_congr_right ⟨fun same => ⟨rfl, same.symm⟩, fun ⟨_, same⟩ => same.symm⟩

/-- An inquiry with the key of an entry, or that does not compile, adds nothing. -/
theorem Filled.pass (h : Filled asked cache) {i : Inquiry}
    (known : i.compiled.isOk = true → i.key ∈ cache.entries.map CacheEntry.key) :
    Filled (asked ++ [i]) cache := by
  refine { h with keys := fun key => (h.keys key).trans ?_ }
  simp only [List.mem_append, List.mem_singleton, or_and_right, exists_or, exists_eq_left]
  refine ⟨.inl, fun either => either.elim id ?_⟩
  rintro ⟨ok, rfl⟩
  exact (h.keys _).1 (known ok)

/-- Every inquiry is answered as compiling would answer it, with an entry of its key. -/
theorem Filled.answer (h : Filled asked cache) (i : Inquiry) :
    Filled (asked ++ [i]) (cache.answer i).2 ∧ cache.entries <+: (cache.answer i).2.entries ∧
      (cache.answer i).1.map CacheEntry.compiled = i.compiled ∧
      ∀ entry, (cache.answer i).1 = .ok entry →
        entry ∈ (cache.answer i).2.entries ∧ entry.key = i.key := by
  rcases cache.answer_cases i with ⟨entry, member, key, answered⟩ | ⟨new, answered⟩
  · have same := h.compiled entry member i key.symm
    rw [answered]
    refine ⟨h.pass fun _ => key ▸ List.mem_map_of_mem member, List.prefix_refl _, same.symm, ?_⟩
    rintro _ ⟨⟩
    exact ⟨member, key⟩
  · cases ok : i.compiled with
    | error e =>
        simp only [ok] at answered
        rw [answered]
        refine ⟨h.pass (by simp [ok, Except.isOk, Except.toBool]), List.prefix_refl _, rfl, nofun⟩
    | ok compiled =>
        simp only [ok] at answered
        rw [answered]
        refine ⟨h.add new ok, List.prefix_append _ _, rfl, ?_⟩
        rintro _ ⟨⟩
        exact ⟨List.mem_append_right _ (List.mem_singleton_self _), rfl⟩

/-! ## Many inquiries -/

theorem answers_append (cache : Cache) (first more : List Inquiry) :
    cache.answers (first ++ more) =
      ((cache.answers first).1 ++ ((cache.answers first).2.answers more).1,
        ((cache.answers first).2.answers more).2) := by
  induction first generalizing cache with
  | nil => rfl
  | cons i rest ih => simp only [List.cons_append, answers, ih]

theorem Filled.answers (h : Filled asked cache) (inquiries : List Inquiry) :
    Filled (asked ++ inquiries) (cache.answers inquiries).2 ∧
      cache.entries <+: (cache.answers inquiries).2.entries ∧
      (cache.answers inquiries).1.map (Except.map CacheEntry.compiled) =
        inquiries.map Inquiry.compiled ∧
      ∀ (n : Nat) (i : Inquiry) (entry : CacheEntry), inquiries[n]? = some i →
        (cache.answers inquiries).1[n]? = some (.ok entry) →
        entry ∈ (cache.answers inquiries).2.entries ∧ entry.key = i.key := by
  induction inquiries generalizing asked cache with
  | nil => exact ⟨by simpa [Cache.answers] using h, List.prefix_refl _, rfl, by simp⟩
  | cons i rest ih =>
      obtain ⟨filled, grown, same, found⟩ := h.answer i
      obtain ⟨all, longer, others, later⟩ := ih filled
      refine ⟨by simpa [Cache.answers] using all, grown.trans longer, ?_, fun n j entry asked answered => ?_⟩
      · simp only [Cache.answers, List.map_cons, same, others]
      · cases n with
        | succ n => exact later n j entry asked answered
        | zero =>
            obtain rfl := Option.some.inj asked
            obtain ⟨member, key⟩ := found entry (Option.some.inj answered)
            exact ⟨longer.subset member, key⟩

/-- Entries are told apart by their numbers, and by their keys. -/
theorem Filled.entry_inj (h : Filled asked cache) {d e : CacheEntry} (one : d ∈ cache.entries)
    (other : e ∈ cache.entries) : (d.number = e.number ↔ d = e) ∧ (d.key = e.key ↔ d = e) := by
  obtain ⟨m, found⟩ := List.getElem?_of_mem one
  obtain ⟨n, found'⟩ := List.getElem?_of_mem other
  refine ⟨⟨fun same => ?_, congrArg _⟩, ⟨List.inj_on_of_nodup_map h.single one other, congrArg _⟩⟩
  rw [h.numbered m d found, h.numbered n e found'] at same
  rw [same, found'] at found
  exact (Option.some.inj found).symm

theorem Filled.size (h : Filled asked cache) :
    cache.size = ((asked.filter fun i => i.compiled.isOk).map Inquiry.key).toFinset.card := by
  have same : ((asked.filter fun i => i.compiled.isOk).map Inquiry.key).toFinset =
      (cache.entries.map CacheEntry.key).toFinset := by
    ext key
    rw [List.mem_toFinset, List.mem_toFinset, h.keys]
    simp [and_assoc]
  rw [same, List.toFinset_card_of_nodup h.single, List.length_map]
  rfl

/-- Whatever an empty cache is asked, one thing after another, each answer is what compiling
comes to. Two answers are one entry exactly if they were asked for with the same name,
the same keys and the same text. What does not compile leaves the cache as it is,
and there are as many entries as different things that compile. -/
theorem answers_are_compiled (inquiries : List Inquiry) :
    (empty.answers inquiries).1.map (Except.map CacheEntry.compiled) =
      inquiries.map Inquiry.compiled ∧
    (∀ (m n : Nat) (i j : Inquiry) (d e : CacheEntry),
      inquiries[m]? = some i → (empty.answers inquiries).1[m]? = some (.ok d) →
      inquiries[n]? = some j → (empty.answers inquiries).1[n]? = some (.ok e) →
        (d.number = e.number ↔ d = e) ∧
        (d.number = e.number ↔ i.category.name = j.category.name ∧
          i.category.keys = j.category.keys ∧ i.descriptor = j.descriptor)) ∧
    (∀ (i : Inquiry) (e : Error), i.compiled = .error e →
      (empty.answers (inquiries ++ [i])).2 = (empty.answers inquiries).2) ∧
    (empty.answers inquiries).2.size =
      ((inquiries.filter fun i => i.compiled.isOk).map Inquiry.key).toFinset.card := by
  obtain ⟨filled, _, same, found⟩ := filled_empty.answers inquiries
  refine ⟨same, fun m n i j d e asked answered asked' answered' => ?_, fun i e fails => ?_,
    by simpa using filled.size⟩
  · obtain ⟨one, key⟩ := found m i d asked answered
    obtain ⟨other, key'⟩ := found n j e asked' answered'
    obtain ⟨byNumber, byKey⟩ := filled.entry_inj one other
    refine ⟨byNumber, byNumber.trans ?_⟩
    rw [← byKey, key, key', Inquiry.key_eq_iff]
  · rw [answers_append]
    rcases (empty.answers inquiries).2.answer_cases i with ⟨entry, member, key, _⟩ | ⟨_, answered⟩
    · have compiles := filled.compiled entry member i key.symm
      rw [fails] at compiles
      contradiction
    · simp only [fails] at answered
      simp only [answers, answered]

/-- A cache is asked for a query, for a text that does not compile, for the query again by a
category with an index key, and for another query by this category. -/
def queries : List Inquiry :=
  let load : Key := ⟨"load", .scalar .double⟩
  [⟨⟨"vm", [load], []⟩, "QUERY vm"⟩, ⟨⟨"vm", [load], []⟩, "QUERY VM"⟩,
    ⟨⟨"vm", [load], [load]⟩, "QUERY vm"⟩, ⟨⟨"vm", [load], [load]⟩, "QUERY vm LIMIT 1"⟩]

theorem indexed_query_is_found :
    (empty.answers queries).1.map (fun a => a.toOption.map CacheEntry.number) =
      [some 0, none, some 0, some 1] ∧
    (∀ d e, (empty.answers queries).1[0]? = some (.ok d) →
      (empty.answers queries).1[2]? = some (.ok e) → d = e) ∧
    ((queries.filter fun i => i.compiled.isOk).map Inquiry.key).toFinset.card = 2 := by
  obtain ⟨_, same, _, size⟩ := answers_are_compiled queries
  refine ⟨by decide +kernel, fun d e first third => ?_, size.symm.trans (by decide +kernel)⟩
  obtain ⟨one, byKey⟩ := same 0 2 _ _ d e rfl first rfl third
  exact one.1 (byKey.2 ⟨rfl, rfl, rfl⟩)

end Cache

end FleetStore.Descriptor
