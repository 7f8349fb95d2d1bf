import FleetStore.Proofs.Table.Arrangement

/-! # Arrangements of parts

What comes before something by sort keys does not come after it. So if all records of one part
come before all records of another, both parts together are arranged by arranging one of them
and then the other. What is left of an arrangement when it is filtered is the arrangement of
what is left of the records.
-/

namespace FleetStore

/-! ## What comes before does not come after -/

theorem Json.isBelow_asymm {i j : Json} (below : i.isBelow j = true) : j.isBelow i = false := by
  cases i <;> cases j <;> simp only [isBelow, Bool.false_eq_true] at below ⊢
  case str.str s t =>
    rw [decide_eq_true_eq] at below
    exact decide_eq_false (Std.Asymm.asymm _ _ below)
  case int.int m n =>
    rw [decide_eq_true_eq] at below
    exact decide_eq_false (Int.not_lt.2 (Int.le_of_lt below))
  case float.float x y =>
    rw [decide_eq_true_eq] at below
    exact decide_eq_false (Int.not_lt.2 (Int.le_of_lt below))
  case bool.bool s t => cases s <;> cases t <;> trivial

theorem fieldBelow_asymm {o p : Option Json} (below : fieldBelow o p = true) :
    fieldBelow p o = false := by
  cases o <;> cases p
  case some.some i j => exact Json.isBelow_asymm below
  all_goals trivial

theorem before_asymm {k : Key × SortDirection} {a b : Record} (first : before k a b = true) :
    before k b a = false := by
  obtain ⟨key, direction⟩ := k
  cases direction with
  | ascending => exact fieldBelow_asymm (o := a.get? key.name) first
  | descending => exact fieldBelow_asymm (o := b.get? key.name) first

theorem precedes_asymm {sort : List (Key × SortDirection)} {a b : Record}
    (first : precedes a b sort = true) : precedes b a sort = false := by
  induction sort with
  | nil => contradiction
  | cons k rest ih =>
      rw [precedes, Bool.or_eq_true, Bool.and_eq_true] at first
      rcases first with here | ⟨tie, later⟩
      · simp [precedes, ties, here, before_asymm here]
      · have undecided : before k b a = false := by simp_all [ties]
        simp [precedes, undecided, ih later]

theorem not_tied_of_precedes {sort : List (Key × SortDirection)} {a b : Record}
    (first : precedes a b sort = true) : tied sort a b = false ∧ tied sort b a = false := by
  have one : ¬ tied sort a b = true := fun tie => by simp [(tied_iff.1 tie).1] at first
  have other : ¬ tied sort b a = true := fun tie => by simp [(tied_iff.1 tie).2] at first
  exact ⟨Bool.eq_false_iff.2 one, Bool.eq_false_iff.2 other⟩

/-! ## Parts -/

section

variable {α : Type} {p q : α → Bool} {l : List α}

/-- Two parts of a list that have nothing in common make up what is in either of them. -/
theorem perm_filter_or (disjoint : ∀ x ∈ l, p x = true → q x = false) :
    (l.filter p ++ l.filter q).Perm (l.filter fun x => p x || q x) := by
  have first : (l.filter fun x => p x || q x).filter p = l.filter p := by
    rw [List.filter_filter]
    exact List.filter_congr fun x _ => by cases p x <;> simp
  have second : (l.filter fun x => p x || q x).filter (!p ·) = l.filter q := by
    rw [List.filter_filter]
    refine List.filter_congr fun x member => ?_
    cases inP : p x
    · simp
    · simp [disjoint x member inP]
  have parts := List.filter_append_perm p (l.filter fun x => p x || q x)
  rwa [first, second] at parts

/-- A filter that nothing of one part passes finds only what it finds in the other part. -/
theorem filter_filter_or {t : α → Bool} (none : ∀ x ∈ l, q x = true → t x = false) :
    (l.filter fun x => p x || q x).filter t = (l.filter p).filter t := by
  rw [List.filter_filter, List.filter_filter]
  refine List.filter_congr fun x member => ?_
  cases inQ : q x with
  | false => simp
  | true => simp [none x member inQ]

end

variable {sort : List (Key × SortDirection)} {records rows front back : List Record}
variable {p q : Record → Bool}

theorem Arranged.of_mem (h : Arranged sort (records.filter p) rows) {r : Record} (member : r ∈ rows) :
    r ∈ records ∧ p r = true :=
  List.mem_filter.1 (h.perm.mem_iff.1 member)

theorem Arranged.filter_eq_nil (h : Arranged sort (records.filter p) rows) {t : Record → Bool}
    (none : ∀ r ∈ records, p r = true → t r = false) : rows.filter t = [] := by
  refine List.filter_eq_nil_iff.2 fun r member => ?_
  obtain ⟨known, inP⟩ := h.of_mem member
  simp [none r known inP]

/-- The arrangement of a part, and after it that of another one that comes after it. -/
theorem Arranged.append (h : Arranged sort (records.filter p) front)
    (h' : Arranged sort (records.filter q) back)
    (apart : ∀ a ∈ records, ∀ b ∈ records, p a = true → q b = true → precedes a b sort = true) :
    Arranged sort (records.filter fun r => p r || q r) (front ++ back) := by
  have disjoint (r) (member : r ∈ records) (inP : p r = true) : q r = false := by
    refine Bool.eq_false_iff.2 fun inQ => ?_
    have itself := apart r member r member inP inQ
    rw [precedes_self] at itself
    contradiction
  refine ⟨(h.perm.append h'.perm).trans (perm_filter_or disjoint), ?_, fun r member => ?_⟩
  · refine List.pairwise_append.2 ⟨h.ordered, h'.ordered, fun a inFront b inBack => ?_⟩
    obtain ⟨known, inP⟩ := h.of_mem inFront
    obtain ⟨known', inQ⟩ := h'.of_mem inBack
    exact precedes_asymm (apart a known b known' inP inQ)
  · -- What ties with a record of one part is in that part.
    obtain ⟨known, either⟩ := List.mem_filter.1 member
    rw [List.filter_append]
    cases inP : p r with
    | true =>
        have other (b) (known' : b ∈ records) (inQ : q b = true) : tied sort r b = false :=
          (not_tied_of_precedes (apart r known b known' inP inQ)).1
        rw [h'.filter_eq_nil other, List.append_nil, filter_filter_or other]
        exact h.stable r (List.mem_filter.2 ⟨known, inP⟩)
    | false =>
        have inQ : q r = true := by simpa [inP] using either
        have other (a) (known' : a ∈ records) (inP' : p a = true) : tied sort r a = false :=
          (not_tied_of_precedes (apart a known' r known inP' inQ)).2
        simp only [Bool.or_comm (p _)]
        rw [h.filter_eq_nil other, List.nil_append, filter_filter_or other]
        exact h'.stable r (List.mem_filter.2 ⟨known, inQ⟩)

/-- What is left of an arrangement is an arrangement of what is left. -/
theorem Arranged.filter (h : Arranged sort records rows) (p : Record → Bool) :
    Arranged sort (records.filter p) (rows.filter p) where
  perm := h.perm.filter p
  ordered := h.ordered.filter p
  stable r member := by
    have alike := congrArg (List.filter p) (h.stable r ((List.mem_filter.1 member).1))
    simpa only [List.filter_filter, Bool.and_comm] using alike

end FleetStore
