import FleetStore.Proofs.Table.Ranking
import FleetStore.Proofs.Table.Sorting

/-! # The arrangement of records by sort keys

Which of two records comes first is said here without the comparison that sorting uses: by
the first key on which they differ, where a missing field is below all others, and
documents are told apart by what they stand for. Only one list has given records in this
order and those that tie as they were. It is what sorting comes to where the keys are of
types whose values have an order.
-/

namespace FleetStore

/-! ## Which record comes first -/

/-- Texts go by their code points, numbers by their values, and false is below true. -/
def Json.isBelow : Json → Json → Bool
  | .str s, .str t => decide (s.toList.map Char.toNat < t.toList.map Char.toNat)
  | .int m, .int n => decide (m < n)
  | .float x, .float y => decide (x.units < y.units)
  | .bool s, .bool t => !s && t
  | _, _ => false

/-- A missing field is below all others. -/
def fieldBelow : Option Json → Option Json → Bool
  | none, some _ => true
  | some i, some j => i.isBelow j
  | _, none => false

def SortDirection.before : SortDirection → Option Json → Option Json → Bool
  | .ascending, o, p => fieldBelow o p
  | .descending, o, p => fieldBelow p o

/-- A sort key puts one record before another. -/
def before (k : Key × SortDirection) (a b : Record) : Bool :=
  k.2.before (a.get? k.1.name) (b.get? k.1.name)

/-- A sort key puts neither of two records before the other. -/
def ties (k : Key × SortDirection) (a b : Record) : Bool :=
  !before k a b && !before k b a

/-- The first of the sort keys on which they do not tie puts one record before another. -/
def precedes (a b : Record) : List (Key × SortDirection) → Bool
  | [] => false
  | k :: rest => before k a b || ties k a b && precedes a b rest

/-- Two records tie on all sort keys. -/
def tied (sort : List (Key × SortDirection)) (a b : Record) : Bool :=
  sort.all fun k => ties k a b

/-- A list has the records of another one in the order of sort keys, with those that tie on all
keys in the order in which they were. -/
structure Arranged (sort : List (Key × SortDirection)) (records rows : List Record) : Prop where
  perm : rows.Perm records
  ordered : rows.Pairwise fun a b => precedes b a sort = false
  stable : ∀ r ∈ records, rows.filter (tied sort r) = records.filter (tied sort r)

/-! ## One arrangement -/

theorem fieldBelow_self (o : Option Json) : fieldBelow o o = false := by
  cases o with
  | none => rfl
  | some j => cases j <;> simp [fieldBelow, Json.isBelow]

theorem before_self (k : Key × SortDirection) (a : Record) : before k a a = false := by
  unfold before SortDirection.before
  split <;> exact fieldBelow_self _

theorem precedes_self (a : Record) (sort : List (Key × SortDirection)) :
    precedes a a sort = false := by
  induction sort with
  | nil => rfl
  | cons k rest ih => simp [precedes, before_self, ih]

theorem tied_self (sort : List (Key × SortDirection)) (a : Record) : tied sort a a = true := by
  simp [tied, ties, before_self]

/-- Two records tie on all keys exactly if neither precedes the other. -/
theorem tied_iff {sort : List (Key × SortDirection)} {a b : Record} :
    tied sort a b = true ↔ precedes a b sort = false ∧ precedes b a sort = false := by
  induction sort with
  | nil => simp [tied, precedes]
  | cons k rest ih =>
      have parts : tied (k :: rest) a b = (ties k a b && tied rest a b) := rfl
      rw [parts, Bool.and_eq_true, ih]
      simp only [precedes, ties]
      cases before k a b <;> cases before k b a <;> simp

@[simp] theorem precedes_singleton (a b : Record) (k : Key × SortDirection) :
    precedes a b [k] = before k a b := by
  simp [precedes]

/-- None of the records precedes the first one of an arrangement. -/
theorem Arranged.of_cons {sort : List (Key × SortDirection)} {records rest : List Record}
    {first : Record} (h : Arranged sort records (first :: rest)) :
    first ∈ records ∧ ∀ r ∈ records, precedes r first sort = false := by
  refine ⟨h.perm.mem_iff.1 List.mem_cons_self, fun r member => ?_⟩
  rcases List.mem_cons.1 (h.perm.mem_iff.2 member) with rfl | later
  · exact precedes_self r sort
  · exact (List.pairwise_cons.1 h.ordered).1 r later

/-- Two lists of the same records in order are one list, if those that tie are alike in both. -/
theorem eq_of_ordered {sort : List (Key × SortDirection)} {rows others : List Record}
    (perm : rows.Perm others) (ordered : rows.Pairwise fun a b => precedes b a sort = false)
    (ordered' : others.Pairwise fun a b => precedes b a sort = false)
    (alike : ∀ r ∈ rows, rows.filter (tied sort r) = others.filter (tied sort r)) :
    rows = others := by
  induction rows generalizing others with
  | nil => exact perm.nil_eq
  | cons a rest ih =>
      cases others with
      | nil => exact absurd perm.symm.nil_eq (by simp)
      | cons b rest' =>
          obtain ⟨least, tail⟩ := List.pairwise_cons.1 ordered
          obtain ⟨least', tail'⟩ := List.pairwise_cons.1 ordered'
          -- Each head stands in the other list too, so neither precedes the other.
          have notAfter : precedes b a sort = false := by
            rcases List.mem_cons.1 (perm.mem_iff.2 List.mem_cons_self) with rfl | later
            · exact precedes_self _ sort
            · exact least b later
          have notBefore : precedes a b sort = false := by
            rcases List.mem_cons.1 (perm.mem_iff.1 List.mem_cons_self) with rfl | later
            · exact precedes_self _ sort
            · exact least' a later
          have heads := alike a List.mem_cons_self
          rw [List.filter_cons_of_pos (tied_self sort a),
            List.filter_cons_of_pos (tied_iff.2 ⟨notBefore, notAfter⟩)] at heads
          obtain rfl := (List.cons.inj heads).1
          refine congrArg (a :: ·) (ih perm.cons_inv tail tail' fun r member => ?_)
          have same := alike r (List.mem_cons_of_mem _ member)
          cases matching : tied sort r a <;> simpa [List.filter_cons, matching] using same

theorem Arranged.unique {sort : List (Key × SortDirection)} {records rows others : List Record}
    (h : Arranged sort records rows) (h' : Arranged sort records others) : others = rows :=
  eq_of_ordered (h'.perm.trans h.perm.symm) h'.ordered h.ordered fun r member =>
    (h'.stable r (h'.perm.mem_iff.1 member)).trans (h.stable r (h'.perm.mem_iff.1 member)).symm

/-! ## What sorting arranges -/

/-- The types whose values have an order that sorting goes by. -/
def ScalarType.ordered : List ScalarType :=
  [.string, .int, .long, .double, .boolean]

/-- Every field of a record is that of a key, and its document stands for a value of the type of the
key. -/
def WellTyped (keys : List Key) (r : Record) : Prop :=
  ∀ field j, r.get? field = some j →
    (∃ key ∈ keys, key.name = field) ∧ ∀ key ∈ keys, key.name = field → key.type.Represents j

theorem lt_iff_codePoints (s t : List Char) : s < t ↔ s.map Char.toNat < t.map Char.toNat := by
  induction s generalizing t with
  | nil => cases t <;> simp
  | cons a s ih =>
      cases t with
      | nil => simp
      | cons b t =>
          simp only [List.map_cons, List.cons_lt_cons_iff, ih, Char.toNat_inj]
          rfl

theorem rank_eq_lt {type : ScalarType} (known : type ∈ ScalarType.ordered) {i j : Json}
    (h : type.Represents i) (h' : type.Represents j) : (i.rank j == .lt) = i.isBelow j := by
  have integers {m n : Int} (small : FitsSigned 63 m) (small' : FitsSigned 63 n) :
      ((Json.int m).rank (.int n) == .lt) = (Json.int m).isBelow (.int n) := by
    rw [Json.rank_int small small', Bool.eq_iff_iff, beq_iff_eq, Std.compare_eq_lt]
    simp [Json.isBelow]
  cases type with
  | string =>
      obtain ⟨s, rfl⟩ := h
      obtain ⟨t, rfl⟩ := h'
      have texts : compare s t = .lt ↔ s < t := compareOfLessAndEq_eq_lt
      rw [Json.rank_str, Bool.eq_iff_iff, beq_iff_eq, texts, String.lt_iff, lt_iff_codePoints]
      simp [Json.isBelow]
  | int =>
      obtain ⟨m, small, rfl⟩ := h
      obtain ⟨n, small', rfl⟩ := h'
      exact integers small.widen small'.widen
  | long =>
      obtain ⟨m, small, rfl⟩ := h
      obtain ⟨n, small', rfl⟩ := h'
      exact integers small small'
  | double =>
      obtain ⟨x, rfl⟩ := h
      obtain ⟨y, rfl⟩ := h'
      rw [Json.rank_float, FiniteDouble.order, Bool.eq_iff_iff, beq_iff_eq, Std.compare_eq_lt]
      simp [Json.isBelow]
  | boolean =>
      obtain ⟨s, rfl⟩ := h
      obtain ⟨t, rfl⟩ := h'
      cases s <;> cases t <;> rfl
  | pojo => simp [ScalarType.ordered] at known

theorem orderFields_eq_lt {type : ScalarType} (known : type ∈ ScalarType.ordered)
    {o p : Option Json} (h : ∀ j, o = some j → type.Represents j)
    (h' : ∀ j, p = some j → type.Represents j) : (orderFields o p == .lt) = fieldBelow o p := by
  cases o <;> cases p
  case some.some i j => exact rank_eq_lt known (h i rfl) (h' j rfl)
  all_goals rfl

/-- Every key of a category that sort keys go by has an ordered type. -/
def SortsBy (keys : List Key) (sort : List (Key × SortDirection)) : Prop :=
  ∀ k ∈ sort, ∀ key ∈ keys, key.name = k.1.name → ∃ t ∈ ScalarType.ordered, key.type = .scalar t

variable {keys : List Key} {k : Key × SortDirection} {sort : List (Key × SortDirection)}

/-- Where a sort key finds anything at all, it finds documents of one ordered type. -/
theorem exists_ordered (sorts : SortsBy keys sort) (member : k ∈ sort) :
    ∃ t ∈ ScalarType.ordered, ∀ r, WellTyped keys r → ∀ j, r.get? k.1.name = some j →
      t.Represents j := by
  by_cases known : ∃ key ∈ keys, key.name = k.1.name
  · obtain ⟨key, isKey, named⟩ := known
    obtain ⟨t, ordered, type⟩ := sorts k member key isKey named
    refine ⟨t, ordered, fun r typed j found => ?_⟩
    have represents := (typed _ j found).2 key isKey named
    rwa [type] at represents
  · exact ⟨.string, by decide, fun r typed j found => absurd (typed _ j found).1 known⟩

theorem apply_eq_lt {a b : Record} (sorts : SortsBy keys sort) (member : k ∈ sort)
    (typed : WellTyped keys a) (typed' : WellTyped keys b) :
    (k.2.apply (orderFields (a.get? k.1.name) (b.get? k.1.name)) == .lt) = before k a b := by
  obtain ⟨t, ordered, represents⟩ := exists_ordered sorts member
  unfold before
  cases k.2 with
  | ascending => exact orderFields_eq_lt ordered (represents a typed) (represents b typed')
  | descending =>
      show ((orderFields _ _).swap == .lt) = fieldBelow (b.get? k.1.name) (a.get? k.1.name)
      rw [← orderFields_swap]
      exact orderFields_eq_lt ordered (represents b typed') (represents a typed)

/-- Sorting compares well-typed records as the sort keys put them. -/
theorem orderRecords_eq_lt {a b : Record} (sorts : SortsBy keys sort) (typed : WellTyped keys a)
    (typed' : WellTyped keys b) : (orderRecords a b sort == .lt) = precedes a b sort := by
  induction sort with
  | nil => rfl
  | cons k rest ih =>
      have first := apply_eq_lt sorts List.mem_cons_self typed typed'
      have second := apply_eq_lt sorts List.mem_cons_self typed' typed
      have later := ih fun l member => sorts l (List.mem_cons_of_mem _ member)
      rw [orderFields_swap, SortDirection.apply_swap] at second
      rw [orderRecords, precedes, ties, ← first, ← second, ← later]
      cases k.2.apply (orderFields (a.get? k.1.name) (b.get? k.1.name)) <;> rfl

theorem tied_iff_orderRecords {a b : Record} (sorts : SortsBy keys sort) (typed : WellTyped keys a)
    (typed' : WellTyped keys b) : tied sort a b = true ↔ orderRecords a b sort = .eq := by
  rw [tied_iff, ← orderRecords_eq_lt sorts typed typed', ← orderRecords_eq_lt sorts typed' typed,
    orderRecords_swap b a sort]
  cases orderRecords a b sort <;> decide

/-- Sort keys of ordered types rank well-typed records. -/
theorem SortsBy.ranks {records : List Record} (sorts : SortsBy keys sort)
    (typed : ∀ r ∈ records, WellTyped keys r) : Ranks sort records :=
  ranks_of_sortable fun k member => by
    obtain ⟨t, ordered, represents⟩ := exists_ordered sorts member
    refine ⟨.scalar t, fun r inside j found => ⟨represents r (typed r inside) j found, ?_⟩⟩
    rintro ⟨⟩
    simp [ScalarType.ordered] at ordered

/-- Sorting arranges well-typed records by keys of ordered types. -/
theorem sortRecords_arranged {records : List Record} (sorts : SortsBy keys sort)
    (typed : ∀ r ∈ records, WellTyped keys r) :
    Arranged sort records (sortRecords sort records) := by
  have ranks := sorts.ranks typed
  have perm : (sortRecords sort records).Perm records := perm_stableSort _ _
  have isTyped {r : Record} (inside : r ∈ sortRecords sort records) : WellTyped keys r :=
    typed r (perm.mem_iff.1 inside)
  refine ⟨perm, ?_, fun r member => ?_⟩
  · have sorted : (sortRecords sort records).Pairwise fun a b =>
        (orderRecords b a sort == .lt) = false := by
      refine pairwise_stableSort (fun a known b known' less => ?_)
        fun a known b known' c known'' first second => ?_
      · rw [beq_iff_eq] at less
        rw [ranks.swapped a known b known', less]
        rfl
      · rw [beq_eq_false_iff_ne] at first second ⊢
        exact ranks.not_lt known known' known'' first second
    refine sorted.imp_of_mem fun {a b} inside inside' less => ?_
    rwa [orderRecords_eq_lt sorts (isTyped inside') (isTyped inside)] at less
  · -- Records that tie with one record tie with each other.
    refine filter_stableSort fun a known b known' first second => ?_
    rw [tied_iff_orderRecords sorts (typed r member) (typed a known)] at first
    rw [tied_iff_orderRecords sorts (typed r member) (typed b known')] at second
    rw [beq_eq_false_iff_ne]
    refine ranks.not_lt known member known' ?_ (by simp [second])
    rw [ranks.swapped r member a known, first]
    decide

end FleetStore
