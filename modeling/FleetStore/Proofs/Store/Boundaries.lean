import FleetStore.Proofs.Store.Windows

/-! # The newest and the oldest sample

The samples of a host are sorted by their times, and the first of them is answered. A sample without
a time comes after those that have one where times descend, and before them where they ascend.
So the newest sample has the greatest time that there is, but the oldest one has the least
only as long as all samples of the host have a time, and otherwise it has none.
-/

namespace FleetStore

open Descriptor

namespace Samples

/-! ## Samples with a time -/

def isTimed (r : Record) : Bool :=
  (r.get? Key.timeStamp.name).isSome

/-- All samples of a host have a time. -/
def AllTimed (records : List Record) (agent : String) : Prop :=
  ∀ r ∈ records, Tables.ofAgent agent r = true → isTimed r = true

/-- A sample of a host has a time, and the times of all samples of the host that have one are related
to it. -/
structure Extreme (related : Int → Int → Prop) (records : List Record) (agent : String)
    (r : Record) : Prop where
  member : r ∈ records
  own : Tables.ofAgent agent r = true
  time : ∃ t, time? r = some t ∧ ∀ other ∈ records, Tables.ofAgent agent other = true →
    isTimed other = true → ∃ s, time? other = some s ∧ related s t

/-- The newest sample of a host among those that have a time. -/
def Newest : List Record → String → Record → Prop :=
  Extreme (· ≤ ·)

/-- The oldest sample of a host among those that have a time. -/
def Oldest : List Record → String → Record → Prop :=
  Extreme (· ≥ ·)

/-- The time of every sample is an integer of 64 bits. -/
def TimesTyped (records : List Record) : Prop :=
  ∀ r ∈ records, ∀ j, r.get? Key.timeStamp.name = some j → ScalarType.long.Represents j

variable {records : List Record} {agent : String} {r : Record}

theorem TimesTyped.time? (typed : TimesTyped records) (member : r ∈ records)
    (timed : isTimed r = true) : ∃ t, Samples.time? r = some t := by
  obtain ⟨j, there⟩ := Option.isSome_iff_exists.1 timed
  obtain ⟨t, small, rfl⟩ := typed r member j there
  exact ⟨t, by simp [Samples.time?, there, Json.int64?, small]⟩

theorem isTimed_of_time? {t : Int} (found : time? r = some t) : isTimed r = true := by
  simp [isTimed, get?_of_time? found]

/-- A sample without a time is below all that have one. -/
theorem fieldBelow_untimed {other : Record} (untimed : isTimed r = false)
    (timed : isTimed other = true) :
    fieldBelow (r.get? Key.timeStamp.name) (other.get? Key.timeStamp.name) = true := by
  have missing : r.get? Key.timeStamp.name = none := by simpa [isTimed] using untimed
  obtain ⟨j, there⟩ := Option.isSome_iff_exists.1 timed
  rw [missing, there]
  rfl

/-! ## The first sample in an order -/

/-- No sample of a host comes before a given one of them. -/
structure First (direction : SortDirection) (records : List Record) (agent : String) (r : Record) :
    Prop where
  member : r ∈ records
  own : Tables.ofAgent agent r = true
  notAfter : ∀ other ∈ records, Tables.ofAgent agent other = true →
    direction.before (other.get? Key.timeStamp.name) (r.get? Key.timeStamp.name) = false

/-- The time of the first sample, if it has one, is in the order with those of the others. -/
theorem First.extreme {direction : SortDirection} {related : Int → Int → Prop}
    (first : First direction records agent r) (typed : TimesTyped records)
    (timed : isTimed r = true)
    (ordered : ∀ s t, direction.before (some (.int s)) (some (.int t)) = false → related s t) :
    Extreme related records agent r := by
  obtain ⟨t, found⟩ := typed.time? first.member timed
  refine ⟨first.member, first.own, t, found, ?_⟩
  intro other member own otherTimed
  obtain ⟨s, found'⟩ := typed.time? member otherTimed
  have order := first.notAfter other member own
  rw [get?_of_time? found, get?_of_time? found'] at order
  exact ⟨s, found', ordered s t order⟩

/-- Where times descend, the first sample is the newest one, if any sample has a time. -/
theorem First.newest (first : First .descending records agent r) (typed : TimesTyped records)
    (anyTimed : ∃ other ∈ records, Tables.ofAgent agent other = true ∧ isTimed other = true) :
    Newest records agent r := by
  apply first.extreme typed
  · obtain ⟨other, member, own, timed⟩ := anyTimed
    have above : fieldBelow (r.get? _) (other.get? _) = false := first.notAfter other member own
    cases untimed : isTimed r with
    | true => rfl
    | false =>
        rw [fieldBelow_untimed untimed timed] at above
        contradiction
  · intro s t
    simp [SortDirection.before, fieldBelow, Json.isBelow]

/-- Where times ascend, the first sample is the oldest one, if all have a time. -/
theorem First.oldest (first : First .ascending records agent r) (typed : TimesTyped records)
    (timed : AllTimed records agent) : Oldest records agent r := by
  apply first.extreme typed (timed r first.member first.own)
  intro s t
  simp [SortDirection.before, fieldBelow, Json.isBelow]

/-- Where times ascend, the first sample has none as soon as any sample has none. -/
theorem First.untimed (first : First .ascending records agent r)
    (anyUntimed : ¬ AllTimed records agent) : isTimed r = false := by
  unfold AllTimed at anyUntimed
  push Not at anyUntimed
  obtain ⟨other, member, own, untimed⟩ := anyUntimed
  have below : fieldBelow (other.get? _) (r.get? _) = false := first.notAfter other member own
  cases timed : isTimed r with
  | false => rfl
  | true =>
      rw [fieldBelow_untimed (Bool.eq_false_iff.2 untimed) timed] at below
      contradiction

/-! ## Answers about the boundaries -/

section

variable {c : Category} {table : Table} {store : MemoryStore}

/-- The samples of a host in the order of their times. -/
def inOrder (direction : SortDirection) (table : Table) (agent : String) : List Record :=
  sortRecords [(.timeStamp, direction)] (table.records.filter (Tables.ofAgent agent))

/-- In an order of the samples of a host, if there are any, there is a first one. -/
theorem exists_first (declared : c.Declared) (key : Key.timeStamp ∈ c.keys)
    (typed : ∀ r ∈ table.records, WellTyped c.keys r) (direction : SortDirection)
    (member : r ∈ table.records) (own : Tables.ofAgent agent r = true) :
    ∃ first, (inOrder direction table agent).head? = some first ∧
      First direction table.records agent first := by
  have arranged : Arranged [(.timeStamp, direction)] (table.records.filter (Tables.ofAgent agent))
      (inOrder direction table agent) :=
    sortRecords_arranged (sortsBy_time declared key direction) fun r inside =>
      typed r (List.mem_filter.1 inside).1
  have inside := arranged.perm.mem_iff.2 (List.mem_filter.2 ⟨member, own⟩)
  cases rows : inOrder direction table agent with
  | nil =>
      rw [rows] at inside
      exact absurd inside List.not_mem_nil
  | cons first rest =>
      rw [rows] at arranged
      obtain ⟨found, least⟩ := arranged.of_cons
      obtain ⟨there, ofHost⟩ := List.mem_filter.1 found
      refine ⟨first, rfl, there, ofHost, fun other member own => ?_⟩
      simpa [before] using least other (List.mem_filter.2 ⟨member, own⟩)

/-- A lookup for one sample of a host answers the first in its order. -/
theorem getter_first (declared : c.Declared) (word : c.OneWord)
    (keys : ∀ key ∈ [Key.agentId, .timeStamp], key ∈ c.keys) {g : Getter}
    (tests : g.lookup.tests = [(.agentId, .equal)]) (sorted : g.lookup.key = .timeStamp)
    (single : g.lookup.limit = some 1) (exact : store.cache.Exact)
    (found : store.tables.get? c.name = some table) (agent : String) :
    (Store.queryHead store c (g.text c.name) (byIndex [.string agent])).1 =
      .ok (inOrder g.lookup.direction table agent).head? := by
  have known : ∀ key ∈ g.lookup.keys, key ∈ c.keys := by
    intro key member
    apply keys
    simpa [Lookup.keys, tests, sorted, or_comm] using member
  have passes : g.lookup.passes [.string agent] = Tables.ofAgent agent := by
    funext r
    simp [Lookup.passes, tests, Expression.holds_text, Tables.ofAgent]
  have types : [Value.string agent].map Value.type = g.lookup.tests.map fun t => t.1.type := by
    rw [tests]
    rfl
  have finite : ∀ v ∈ [Value.string agent], v.isFinite = true := by
    intro v member
    rw [List.mem_singleton.1 member]
    rfl
  have answered := Lookup.first (Getter.compile declared word known) types finite exact found single
  rwa [passes, sorted] at answered

end

/-- What is answered as the newest and the oldest sample of a host. The first is the newest one among
the samples with a time. The second is a sample of the host, and the oldest one among those with a
time exactly if there are no others, and otherwise it has no time. -/
structure Boundaries (records : List Record) (agent : String) (newest oldest : Record) : Prop where
  newest : Newest records agent newest
  member : oldest ∈ records
  own : Tables.ofAgent agent oldest = true
  oldest_iff : Oldest records agent oldest ↔ AllTimed records agent
  untimed : ¬ AllTimed records agent → isTimed oldest = false

theorem First.boundaries {first last : Record} (newest : First .descending records agent first)
    (oldest : First .ascending records agent last) (typed : TimesTyped records)
    (anyTimed : ∃ other ∈ records, Tables.ofAgent agent other = true ∧ isTimed other = true) :
    Boundaries records agent first last := by
  refine ⟨newest.newest typed anyTimed, oldest.member, oldest.own, ⟨?_, oldest.oldest typed⟩,
    oldest.untimed⟩
  intro extreme
  by_contra anyUntimed
  obtain ⟨t, found, -⟩ := extreme.time
  have timed := isTimed_of_time? found
  rw [oldest.untimed anyUntimed] at timed
  contradiction

/-- In a run in which every statement is prepared for a category that is registered in the run,
sooner or later, a registered category that has samples and can be named answers about every
host of which a sample has a time: with its newest sample, and with its oldest one exactly if
all of its samples have a time. -/
theorem oldest_is_answered_iff_timed {w w' : Session} (reached : Session.new.Leads w)
    (later : w.Leads w') (used : ∀ d ∈ w'.hands.used, d ∈ w'.registered) {c : Category}
    (member : c ∈ w.registered) (word : c.OneWord)
    (keys : ∀ key ∈ [Key.agentId, .timeStamp], key ∈ c.keys) :
    ∃ table, w.store.tables.get? c.name = some table ∧ ∀ agent,
      (∃ r ∈ table.records, Tables.ofAgent agent r = true ∧ isTimed r = true) →
      ∃ newest oldest, (hostNewest w.store c agent).1 = .ok (some newest) ∧
        (hostOldest w.store c agent).1 = .ok (some oldest) ∧
        Boundaries table.records agent newest oldest := by
  have declared := (reached.sound Session.sound_new).declared c member
  obtain ⟨table, found, -, typed⟩ := Session.table_of_registered reached later used member
  have exact := reached.exact Cache.exact_empty
  have time := keys .timeStamp (by decide)
  have times : TimesTyped table.records := fun r inside j there =>
    (typed r inside _ j there).2 .timeStamp time rfl
  refine ⟨table, found, fun agent anyTimed => ?_⟩
  obtain ⟨r, inside, own, -⟩ := id anyTimed
  obtain ⟨newest, head, first⟩ := exists_first declared time typed .descending inside own
  obtain ⟨oldest, head', first'⟩ := exists_first declared time typed .ascending inside own
  refine ⟨newest, oldest, ?_, ?_, first.boundaries first' times anyTimed⟩
  · have answered := getter_first declared word keys (g := .hostNewest) rfl rfl rfl exact found agent
    exact answered.trans (congrArg Except.ok head)
  · have answered := getter_first declared word keys (g := .hostOldest) rfl rfl rfl exact found agent
    exact answered.trans (congrArg Except.ok head')

/-- Two samples of one host. -/
theorem later_sample_is_newest : ∃ w newest oldest, Session.new.Leads w ∧
    (hostNewest w.store .samples "a").1 = .ok (some newest) ∧
    (hostOldest w.store .samples "a").1 = .ok (some oldest) ∧
    time? newest = some 9 ∧ time? oldest = some 5 := by
  obtain ⟨store, empty⟩ := leads_sampled
  obtain ⟨_, one⟩ := leads_sample empty "1" (some 9)
  obtain ⟨_, two⟩ := leads_sample one "2" (some 5)
  have used : ∀ d ∈ [Category.samples, .samples], d ∈ [Category.samples] := by simp
  obtain ⟨table, found, answered⟩ := oldest_is_answered_iff_timed two .here used
    (List.mem_singleton_self _) (by decide +kernel) (by decide)
  obtain rfl := Option.some.inj (found.symm.trans (Dict.get?_insert _ _ _ _))
  have timed : ∀ r ∈ [(sample "1" (some 9)).newRecord, (sample "2" (some 5)).newRecord],
      Tables.ofAgent "a" r = true ∧ isTimed r = true := by decide +kernel
  obtain ⟨own, first⟩ := timed _ List.mem_cons_self
  obtain ⟨own', second⟩ := timed _ (List.mem_cons_of_mem _ List.mem_cons_self)
  obtain ⟨newest, oldest, ok, ok', bounds⟩ := answered "a" ⟨_, List.mem_cons_self, own, first⟩
  -- The time of an extreme sample is one of the two, and related to both.
  have times {related : Int → Int → Prop} {r : Record} (extreme : Extreme related
      [(sample "1" (some 9)).newRecord, (sample "2" (some 5)).newRecord] "a" r) :
      ∃ t, time? r = some t ∧ (t = 9 ∨ t = 5) ∧ related 9 t ∧ related 5 t := by
    obtain ⟨t, time, all⟩ := extreme.time
    obtain ⟨s, nine, above⟩ := all _ List.mem_cons_self own first
    obtain ⟨s', five, beneath⟩ := all _ (List.mem_cons_of_mem _ List.mem_cons_self) own' second
    obtain rfl : 9 = s := Option.some.inj nine
    obtain rfl : 5 = s' := Option.some.inj five
    refine ⟨t, time, ?_, above, beneath⟩
    rcases List.mem_pair.1 extreme.member with rfl | rfl
    · exact .inl (Option.some.inj time).symm
    · exact .inr (Option.some.inj time).symm
  refine ⟨_, newest, oldest, two, ok, ok', ?_, ?_⟩
  · obtain ⟨t, time, known, atLeast, -⟩ := times bounds.newest
    obtain rfl : t = 9 := by omega
    exact time
  · obtain ⟨t, time, known, -, atMost⟩ :=
      times (bounds.oldest_iff.2 fun r member _ => (timed r member).2)
    obtain rfl : t = 5 := by omega
    exact time

/-- A sample with a time and one without. The one without a time is answered as the oldest. -/
theorem untimed_sample_is_oldest : ∃ w table, Session.new.Leads w ∧
    (∀ d ∈ w.hands.used, d ∈ w.registered) ∧ Category.samples ∈ w.registered ∧
    Category.samples.OneWord ∧ (∀ key ∈ [Key.agentId, .timeStamp], key ∈ Category.samples.keys) ∧
    w.store.tables.get? Category.samples.name = some table ∧
    table.records = [(sample "1" (some 5)).newRecord, (sample "1" none).newRecord] ∧
    (∃ r ∈ table.records, Tables.ofAgent "a" r = true ∧ isTimed r = true) ∧
    (hostOldest w.store .samples "a").1 = .ok (some (sample "1" none).newRecord) ∧
    ¬ Oldest table.records "a" (sample "1" none).newRecord := by
  obtain ⟨store, empty⟩ := leads_sampled
  obtain ⟨_, one⟩ := leads_sample empty "1" (some 5)
  obtain ⟨_, two⟩ := leads_sample one "1" none
  have declared : Category.samples.Declared := by decide +kernel
  have word : Category.samples.OneWord := by decide +kernel
  have keys : ∀ key ∈ [Key.agentId, .timeStamp], key ∈ Category.samples.keys := by decide
  have found := Dict.get?_insert (∅ : Tables) "vm-cpu-stats" "vm-cpu-stats" ⟨Category.samples.keys,
    [(sample "1" (some 5)).newRecord, (sample "1" none).newRecord]⟩
  have answered := getter_first declared word keys (g := .hostOldest) rfl rfl rfl
    (two.exact Cache.exact_empty) found "a"
  refine ⟨_, _, two, by simp [sampled], List.mem_singleton_self _, word, keys, found, rfl,
    ⟨_, List.mem_cons_self, by decide +kernel, by decide +kernel⟩, answered, ?_⟩
  rintro ⟨-, -, t, found, -⟩
  contradiction

end Samples

end FleetStore
