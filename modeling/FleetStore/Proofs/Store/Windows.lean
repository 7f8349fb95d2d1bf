import FleetStore.Proofs.Store.Answered
import FleetStore.Proofs.Store.Circles
import FleetStore.Proofs.Table.Coherence
import FleetStore.Proofs.Table.Tiling

/-! # Windows of time

The samples of a host are found by its name and by their times. A sample without a time is in no
window, and of two samples with different times the newer one comes first. So a window that is cut
in two is answered by what the newer part is answered and then the older one, with samples of
one time as they were added. What is answered about a virtual machine is what is answered
about its host without the samples of others.
-/

namespace FleetStore

open Descriptor

/-! ## Comparisons with fields -/

theorem Comparison.holds_less (m n : Int) : less.holds (compare m n) = decide (m < n) := by
  rw [Bool.eq_iff_iff, holds, beq_iff_eq, Std.compare_eq_lt, decide_eq_true_iff]

theorem Comparison.holds_greater (m n : Int) : greater.holds (compare m n) = decide (n < m) := by
  rw [Bool.eq_iff_iff, holds, beq_iff_eq, Std.compare_eq_gt, decide_eq_true_iff]

theorem Comparison.holds_greaterEqual (m n : Int) :
    greaterEqual.holds (compare m n) = decide (n ≤ m) := by
  rw [Bool.eq_iff_iff, holds, bne_iff_ne, compare_ge_iff_ge, decide_eq_true_iff]

namespace Samples

/-- The time of a sample, if it has one. -/
def time? (r : Record) : Option Int :=
  (r.get? Key.timeStamp.name).bind Json.int64?

def ofVm (vm : String) (r : Record) : Bool :=
  (r.get? Key.vmId.name).any fun j => j == .str vm

/-- The samples of a host with a time in a window. -/
def within (agent : String) (window : Int → Bool) (r : Record) : Bool :=
  Tables.ofAgent agent r && (time? r).any window

theorem holds_time {r : Record}
    (typed : ∀ j, r.get? Key.timeStamp.name = some j → ScalarType.long.Represents j)
    {op : Comparison} (ordering : op ∈ Syntax.orderings) (n : Int64) :
    (Expression.compare .timeStamp op (.long n)).holds r =
      (time? r).any fun t => op.holds (compare t n.toInt) := by
  have fits : FitsSigned 63 n.toInt := ⟨n.le_toInt, n.toInt_lt⟩
  rw [Expression.holds_compare, Expression.standing, time?]
  cases found : r.get? Key.timeStamp.name with
  | none =>
      simp only [Syntax.orderings, List.mem_cons, List.not_mem_nil, or_false] at ordering
      rcases ordering with rfl | rfl | rfl | rfl <;> rfl
  | some j =>
      obtain ⟨t, small, rfl⟩ := typed j found
      have order : (Json.int t).order? (Value.long n).toJson = some (compare t n.toInt) :=
        Json.order?_int small fits
      simp [order, Json.int64?, small]

section

variable {r : Record}
variable (typed : ∀ j, r.get? Key.timeStamp.name = some j → ScalarType.long.Represents j)

include typed

theorem passes_hostInterval (agent : String) (start stop : Int64) :
    Getter.hostInterval.lookup.passes [.string agent, .long start, .long stop] r =
      within agent (fun t => start.toInt ≤ t && t < stop.toInt) r := by
  have lower := holds_time typed (show .greaterEqual ∈ Syntax.orderings by decide) start
  have upper := holds_time typed (show .less ∈ Syntax.orderings by decide) stop
  simp only [Comparison.holds_greaterEqual] at lower
  simp only [Comparison.holds_less] at upper
  simp only [Lookup.passes, Getter.lookup, List.zip_cons_cons, List.zip_nil_left, List.all_cons,
    List.all_nil, Bool.and_true, Expression.holds_text, lower, upper]
  unfold within Tables.ofAgent
  cases time? r <;> simp

theorem passes_hostLatest (agent : String) (since : Int64) :
    Getter.hostLatest.lookup.passes [.string agent, .long since] r =
      within agent (fun t => since.toInt < t) r := by
  have lower := holds_time typed (show .greater ∈ Syntax.orderings by decide) since
  simp only [Comparison.holds_greater] at lower
  simp only [Lookup.passes, Getter.lookup, List.zip_cons_cons, List.zip_nil_left, List.all_cons,
    List.all_nil, Bool.and_true, Expression.holds_text, lower]
  rfl

theorem passes_vmLatest (agent vm : String) (since : Int64) :
    Getter.vmLatest.lookup.passes [.string agent, .string vm, .long since] r =
      (within agent (fun t => since.toInt < t) r && ofVm vm r) := by
  have lower := holds_time typed (show .greater ∈ Syntax.orderings by decide) since
  simp only [Comparison.holds_greater] at lower
  simp only [Lookup.passes, Getter.lookup, List.zip_cons_cons, List.zip_nil_left, List.all_cons,
    List.all_nil, Bool.and_true, Expression.holds_text, lower]
  unfold within Tables.ofAgent ofVm
  rw [Bool.and_assoc, Bool.and_comm (Option.any _ (time? r))]

end

/-! ## Newest first -/

def newestFirst : List (Key × SortDirection) :=
  [(.timeStamp, .descending)]

/-- A sample with a time has it as an integer. -/
theorem get?_of_time? {r : Record} {t : Int} (found : time? r = some t) :
    r.get? Key.timeStamp.name = some (.int t) := by
  obtain ⟨j, there, integer⟩ := Option.bind_eq_some_iff.1 found
  rw [there, (Json.int64?_eq_some_iff.1 integer).2]

theorem newer_precedes {a b : Record} {x y : Int} (later : time? a = some x)
    (earlier : time? b = some y) (less : y < x) : precedes a b newestFirst = true := by
  rw [newestFirst, precedes_singleton, before, get?_of_time? later, get?_of_time? earlier]
  exact decide_eq_true less

variable {records front back : List Record} {agent : String} {p q : Int → Bool}

/-- The samples of a newer window and then those of an older one. -/
theorem arranged_append (h : Arranged newestFirst (records.filter (within agent p)) front)
    (h' : Arranged newestFirst (records.filter (within agent q)) back)
    (apart : ∀ x y, p x = true → q y = true → y < x) :
    Arranged newestFirst (records.filter (within agent fun t => p t || q t)) (front ++ back) := by
  have both := h.append h' fun a _ b _ inP inQ => by
    obtain ⟨x, later, newer⟩ := (Option.any_eq_true _ _).1 (Bool.and_eq_true_iff.1 inP).2
    obtain ⟨y, earlier, older⟩ := (Option.any_eq_true _ _).1 (Bool.and_eq_true_iff.1 inQ).2
    exact newer_precedes later earlier (apart x y newer older)
  have same : (fun r => within agent p r || within agent q r) =
      within agent fun t => p t || q t := by
    funext r
    unfold within
    cases Tables.ofAgent agent r <;> cases time? r <;> simp
  rwa [same] at both

/-! ## Answers about a host -/

/-- What is answered about a host and one of its virtual machines. -/
structure Answers where
  interval : Int64 → Int64 → List Record
  latest : Int64 → List Record
  ofVm : Int64 → List Record

namespace Answers

/-- A store gives these answers. -/
structure Given (a : Answers) (store : MemoryStore) (c : Category) (agent vm : String) : Prop where
  interval (start stop : Int64) :
    (hostInterval store c agent start stop).1 = .ok (a.interval start stop)
  latest (since : Int64) : (hostLatest store c agent since).1 = .ok (a.latest since)
  ofVm (since : Int64) : (vmLatest store c agent vm since).1 = .ok (a.ofVm since)

/-- The answers are the samples of their windows with the newest first, a window that is cut in two
is answered by the newer part and then the older one, and a virtual machine is answered its own
samples among those of its host. -/
structure Tile (a : Answers) (records : List Record) (agent vm : String) : Prop where
  arranged (start stop : Int64) : Arranged newestFirst
    (records.filter (within agent fun t => start.toInt ≤ t && t < stop.toInt)) (a.interval start stop)
  newer (since : Int64) : Arranged newestFirst
    (records.filter (within agent fun t => since.toInt < t)) (a.latest since)
  interval (start middle stop : Int64) (first : start ≤ middle) (second : middle ≤ stop) :
    a.interval start stop = a.interval middle stop ++ a.interval start middle
  latest (since middle : Int64) (before : since ≤ middle) : ∃ between,
    Arranged newestFirst
      (records.filter (within agent fun t => since.toInt < t && t ≤ middle.toInt)) between ∧
    a.latest since = a.latest middle ++ between
  ofVm (since : Int64) : a.ofVm since = (a.latest since).filter (Samples.ofVm vm)

end Answers

section

variable {c : Category} {table : Table} {store : MemoryStore} (agent vm : String)

/-- The samples of a table that pass a test, the newest first. -/
def newest (table : Table) (p : Record → Bool) : List Record :=
  sortRecords newestFirst (table.records.filter p)

/-- The answers from a table. -/
def answers (table : Table) (agent vm : String) : Answers where
  interval start stop :=
    newest table (within agent fun t => start.toInt ≤ t && t < stop.toInt)
  latest since := newest table (within agent fun t => since.toInt < t)
  ofVm since := newest table fun r => within agent (fun t => since.toInt < t) r && ofVm vm r

theorem sortsBy_time (declared : c.Declared) (key : Key.timeStamp ∈ c.keys)
    (direction : SortDirection) : SortsBy c.keys [(.timeStamp, direction)] := by
  intro k member other known same
  obtain rfl := List.mem_singleton.1 member
  obtain rfl := declared.unique other known .timeStamp key same
  exact ⟨.long, by decide, rfl⟩

theorem newest_arranged (declared : c.Declared) (key : Key.timeStamp ∈ c.keys)
    (typed : ∀ r ∈ table.records, WellTyped c.keys r) (p : Record → Bool) :
    Arranged newestFirst (table.records.filter p) (newest table p) :=
  sortRecords_arranged (sortsBy_time declared key .descending) fun r member =>
    typed r (List.mem_filter.1 member).1

theorem answers_tile (declared : c.Declared) (key : Key.timeStamp ∈ c.keys)
    (typed : ∀ r ∈ table.records, WellTyped c.keys r) :
    (answers table agent vm).Tile table.records agent vm := by
  have arranged := newest_arranged declared key typed
  -- Two windows of which one is newer than the other, and the window that they make up.
  have split {p q whole : Int → Bool} (made : ∀ t, whole t = true ↔ p t = true ∨ q t = true)
      (apart : ∀ x y, p x = true → q y = true → y < x) :
      newest table (within agent whole) =
        newest table (within agent p) ++ newest table (within agent q) := by
    have both : whole = fun t => p t || q t :=
      funext fun t => Bool.eq_iff_iff.2 ((made t).trans Bool.or_eq_true_iff.symm)
    rw [both]
    exact (arranged_append (arranged _) (arranged _) apart).unique (arranged _)
  refine ⟨fun _ _ => arranged _, fun _ => arranged _, fun start middle stop first second => ?_,
    fun since middle before => ⟨_, arranged _, ?_⟩, fun since => ?_⟩
  · rw [Int64.le_iff_toInt_le] at first second
    apply split
    all_goals
      simp only [Bool.and_eq_true, decide_eq_true_eq]
      omega
  · rw [Int64.le_iff_toInt_le] at before
    apply split
    all_goals
      simp only [Bool.and_eq_true, decide_eq_true_eq]
      omega
  · have part := (arranged (within agent fun t => since.toInt < t)).filter (ofVm vm)
    rw [List.filter_filter] at part
    simp only [Bool.and_comm (ofVm vm _)] at part
    exact part.unique (arranged _)

/-- A lookup about samples answers the newest of those that pass its tests. -/
theorem getter_answer (declared : c.Declared) (word : c.OneWord) {g : Getter}
    (keys : ∀ key ∈ g.lookup.keys, key ∈ c.keys) (unlimited : g.lookup.limit = none)
    (sorted : [(g.lookup.key, g.lookup.direction)] = newestFirst) {values : List Value}
    (types : values.map Value.type = g.lookup.tests.map fun t => t.1.type)
    (finite : ∀ v ∈ values, v.isFinite = true) {p : Record → Bool}
    (passes : ∀ r ∈ table.records, g.lookup.passes values r = p r) (exact : store.cache.Exact)
    (found : store.tables.get? c.name = some table) :
    (Store.queryList store c (g.text c.name) (byIndex values)).1 = .ok (newest table p) := by
  have answered := Lookup.answer (Getter.compile declared word keys) types finite exact found
    unlimited
  rwa [sorted, List.filter_congr passes] at answered

theorem answers_given (declared : c.Declared) (word : c.OneWord)
    (keys : ∀ key ∈ [Key.agentId, .vmId, .timeStamp], key ∈ c.keys)
    (typed : ∀ r ∈ table.records, WellTyped c.keys r) (exact : store.cache.Exact)
    (found : store.tables.get? c.name = some table) :
    (answers table agent vm).Given store c agent vm := by
  have known (g : Getter) (key : Key) (member : key ∈ g.lookup.keys) : key ∈ c.keys :=
    keys key (g.wellKnown key member)
  have text (s : String) : (Value.string s).isFinite = true := rfl
  have number (n : Int64) : (Value.long n).isFinite = true := rfl
  have times (r : Record) (member : r ∈ table.records) (j : Json)
      (there : r.get? Key.timeStamp.name = some j) : ScalarType.long.Represents j :=
    (typed r member _ j there).2 .timeStamp (keys _ (by decide)) rfl
  refine ⟨fun start stop => ?_, fun since => ?_, fun since => ?_⟩
  · have types : [Value.string agent, .long start, .long stop].map Value.type =
        Getter.hostInterval.lookup.tests.map fun t => t.1.type := rfl
    exact getter_answer declared word (known .hostInterval) rfl rfl types (by simp [text, number])
      (fun r member => passes_hostInterval (times r member) agent start stop) exact found
  · have types : [Value.string agent, .long since].map Value.type =
        Getter.hostLatest.lookup.tests.map fun t => t.1.type := rfl
    exact getter_answer declared word (known .hostLatest) rfl rfl types (by simp [text, number])
      (fun r member => passes_hostLatest (times r member) agent since) exact found
  · have types : [Value.string agent, .string vm, .long since].map Value.type =
        Getter.vmLatest.lookup.tests.map fun t => t.1.type := rfl
    exact getter_answer declared word (known .vmLatest) rfl rfl types (by simp [text, number])
      (fun r member => passes_vmLatest (times r member) agent vm since) exact found

end

/-- In a run in which every statement is prepared for a category that is registered in the run,
sooner or later, a registered category that has samples and can be named gets the same answers
whenever its tables are the same, and they tile. -/
theorem windows_tile {w w' : Session} (reached : Session.new.Leads w) (later : w.Leads w')
    (used : ∀ d ∈ w'.hands.used, d ∈ w'.registered) {c : Category} (member : c ∈ w.registered)
    (word : c.OneWord) (keys : ∀ key ∈ [Key.agentId, .vmId, .timeStamp], key ∈ c.keys) :
    ∃ table, w.store.tables.get? c.name = some table ∧ ∀ agent vm, ∃ a : Answers,
      (∀ v, Session.new.Leads v → v.store.tables = w.store.tables → a.Given v.store c agent vm) ∧
      a.Tile table.records agent vm := by
  have declared := (reached.sound Session.sound_new).declared c member
  obtain ⟨table, found, -, typed⟩ := Session.table_of_registered reached later used member
  refine ⟨table, found, fun agent vm => ⟨answers table agent vm, fun v there same => ?_, ?_⟩⟩
  · have exact := there.exact Cache.exact_empty
    rw [← same] at found
    exact answers_given agent vm declared word keys typed exact found
  · exact answers_tile agent vm declared (keys _ (by decide)) typed

/-! ## Samples that were added -/

/-- A statement that sets some keys of a category to parameters. -/
def adding (c : Category) (descriptor : String) (keys : List Key) : Compiled :=
  { descriptor, category := c.name, kind := .write .add, signature := keys.map Key.type,
    assignments := keys.mapIdx fun i key => (key, .parameter i), condition := none, sort := [],
    limit := none }

def addTimed : Compiled :=
  adding .samples "ADD vm-cpu-stats SET 'agentId' = ?s, 'vmId' = ?s, 'timeStamp' = ?l"
    [.agentId, .vmId, .timeStamp]

def addUntimed : Compiled :=
  adding .samples "ADD vm-cpu-stats SET 'agentId' = ?s, 'vmId' = ?s" [.agentId, .vmId]

theorem compile_addTimed : Descriptor.compile .samples addTimed.descriptor = .ok addTimed := by
  with_unfolding_all rfl

theorem compile_addUntimed : Descriptor.compile .samples addUntimed.descriptor = .ok addUntimed := by
  with_unfolding_all rfl

/-- A sample of the host `a`. -/
def sample (vm : String) (time : Option Int64) : BoundWrite :=
  ⟨"vm-cpu-stats", .add,
    [(.agentId, .string "a"), (.vmId, .string vm)] ++ (time.map fun t => (.timeStamp, .long t)).toList,
    none⟩

/-- A session in which samples were added by patches of two statements. -/
def sampled (store : MemoryStore) (patched : List BoundStatement) (records : List Record) : Session :=
  ⟨{ store with tables := (∅ : Tables).insert "vm-cpu-stats" ⟨Category.samples.keys, records⟩ },
    ⟨[.samples, .samples], [.ofCompiled addTimed, .ofCompiled addUntimed], patched⟩, [.samples]⟩

theorem leads_sampled : ∃ store, Session.new.Leads (sampled store [] []) := by
  have declared : Category.samples.Declared := by decide +kernel
  obtain ⟨store, first⟩ := Session.leads_prepared declared compile_addTimed
  obtain ⟨cache, prepared⟩ :=
    MemoryStore.prepare_compiled (first.exact Cache.exact_empty) compile_addUntimed
  exact ⟨{ store with cache }, first.step (.handle _ _ (.prepare .samples _ _ _ prepared))⟩

theorem leads_sample {store : MemoryStore} {patched : List BoundStatement} {records : List Record}
    (reached : Session.new.Leads (sampled store patched records)) (vm : String)
    (time : Option Int64) : ∃ patched,
      Session.new.Leads (sampled store patched (records ++ [(sample vm time).newRecord])) := by
  let b := sample vm time
  have bound : ∃ statement ∈ [Prepared.ofCompiled addTimed, .ofCompiled addUntimed], ∃ params,
      statement.compiled.bind params = .ok (.write b) := by
    cases time with
    | some t =>
        exact ⟨_, List.mem_cons_self,
          [.ofValue 0 (.string "a"), .ofValue 1 (.string vm), .ofValue 2 (.long t)], rfl⟩
    | none =>
        exact ⟨_, List.mem_cons_of_mem _ List.mem_cons_self,
          [.ofValue 0 (.string "a"), .ofValue 1 (.string vm)], rfl⟩
  obtain ⟨statement, known, params, ok⟩ := bound
  have written : (sampled store patched records).store.applyWrite b =
      .ok (sampled store patched (records ++ [b.newRecord])).store := by
    simp [MemoryStore.applyWrite, Tables.apply, Tables.write?, sampled, b, sample,
      BoundWrite.applyTo, Except.map, Dict.insert_insert]
  have patch := reached.step (.handle _ _ (.patch statement params (.write b) known ok))
  exact ⟨_, patch.step (.apply b _ (List.mem_append_right _ (List.mem_singleton_self _)) written)⟩

/-- Two samples of one time, a newer one of another virtual machine and one without a time. The
newer one comes first, and the one without a time is in no window. -/
theorem four_samples_tile : ∃ w a table, Session.new.Leads w ∧
    w.store.tables.get? "vm-cpu-stats" = some table ∧
    table.records = [(sample "1" (some 5)).newRecord, (sample "2" (some 9)).newRecord,
      (sample "1" none).newRecord, (sample "1" (some 5)).newRecord] ∧
    Answers.Given a w.store .samples "a" "1" ∧
    a.interval 0 10 = a.interval 7 10 ++ a.interval 0 7 ∧
    (a.interval 7 10).length = 1 ∧ (a.interval 0 7).length = 2 ∧
    a.ofVm 0 = (a.latest 0).filter (ofVm "1") := by
  obtain ⟨store, empty⟩ := leads_sampled
  obtain ⟨_, one⟩ := leads_sample empty "1" (some 5)
  obtain ⟨_, two⟩ := leads_sample one "2" (some 9)
  obtain ⟨_, three⟩ := leads_sample two "1" none
  obtain ⟨_, four⟩ := leads_sample three "1" (some 5)
  have used : ∀ d ∈ [Category.samples, .samples], d ∈ [Category.samples] := by simp
  obtain ⟨table, found, answered⟩ := windows_tile four .here used (List.mem_singleton_self _)
    (by decide +kernel) (by decide)
  obtain ⟨a, given, tile⟩ := answered "a" "1"
  have records : table.records = _ := congrArg Table.records (Option.some.inj (found.symm.trans
    (Dict.get?_insert _ _ _ _)))
  refine ⟨_, a, table, four, found, records, given _ four rfl,
    tile.interval 0 7 10 (by decide) (by decide), ?_, ?_, tile.ofVm 0⟩
  · rw [(tile.arranged 7 10).perm.length_eq, records]
    decide +kernel
  · rw [(tile.arranged 0 7).perm.length_eq, records]
    decide +kernel

end Samples

end FleetStore
