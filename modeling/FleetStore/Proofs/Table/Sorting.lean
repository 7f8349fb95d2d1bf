import FleetStore.Table.Sort

/-! # What sorting comes to

An element is put into a sorted list in front of everything that it is not less than, so it
passes only what it is less than and never what it ties with. The list that comes out has
the elements in an order that nothing in it contradicts, with ties as they were, and
there is only one such list.
-/

namespace FleetStore

/-! ## Insertion -/

section

variable {α : Type} (less : α → α → Bool)

theorem perm_insertDescending (x : α) (l : List α) : (insertDescending less x l).Perm (x :: l) := by
  induction l with
  | nil => exact .refl _
  | cons y rest ih =>
      unfold insertDescending
      split
      · exact (ih.cons y).trans (.swap x y rest)
      · exact .refl _

/-- The elements of a list put into another one, one after another. -/
def insertAllDescending (l sorted : List α) : List α :=
  l.foldl (fun sorted x => insertDescending less x sorted) sorted

/-- What is still to be put in and what is in already are the same things after each step. -/
theorem perm_step (x : α) (rest sorted : List α) :
    (rest ++ insertDescending less x sorted).Perm (x :: rest ++ sorted) :=
  ((perm_insertDescending less x sorted).append_left rest).trans List.perm_middle

theorem perm_stableSort (l : List α) : (stableSort less l).Perm l := by
  have all (sorted : List α) : (insertAllDescending less l sorted).Perm (l ++ sorted) := by
    induction l generalizing sorted with
    | nil => exact .refl _
    | cons x rest ih => exact (ih _).trans (perm_step less x rest sorted)
  have whole := all []
  rw [List.append_nil] at whole
  exact (List.reverse_perm _).trans whole

variable {less}

/-- An element passes none of its kind, if no two of them are less than one another. -/
theorem filter_insertDescending {p : α → Bool} {x : α} {l : List α}
    (tied : ∀ y ∈ l, p x → p y → less x y = false) :
    (insertDescending less x l).filter p = (x :: l).filter p := by
  induction l with
  | nil => rfl
  | cons y rest ih =>
      unfold insertDescending
      split
      · next passed =>
          have later := ih fun z member => tied z (List.mem_cons_of_mem _ member)
          have other : p x → ¬ p y := fun px py => by
            simp [tied y List.mem_cons_self px py] at passed
          rw [List.filter_cons, later]
          cases px : p x <;> cases py : p y <;> simp_all
      · rfl

/-- Elements of a kind stay in their order, if no two of them are less than one another. -/
theorem filter_stableSort {p : α → Bool} {l : List α}
    (tied : ∀ x ∈ l, ∀ y ∈ l, p x → p y → less x y = false) :
    (stableSort less l).filter p = l.filter p := by
  have all (rest sorted : List α) (known : ∀ x ∈ rest ++ sorted, x ∈ l) :
      (insertAllDescending less rest sorted).filter p = (rest.reverse ++ sorted).filter p := by
    induction rest generalizing sorted with
    | nil => rfl
    | cons x rest ih =>
        have first : (insertDescending less x sorted).filter p = (x :: sorted).filter p :=
          filter_insertDescending fun y member =>
            tied x (known x (by simp)) y (known y (by simp [member]))
        have left (y) (member : y ∈ rest ++ insertDescending less x sorted) : y ∈ l :=
          known y ((perm_step less x rest sorted).mem_iff.1 member)
        refine (ih _ left).trans ?_
        simp only [List.filter_append, first, List.reverse_cons, List.append_assoc,
          List.singleton_append]
  have whole : (insertAllDescending less l []).filter p = l.reverse.filter p := by
    simpa using all l [] (by simp)
  rw [stableSort, List.filter_reverse]
  exact (congrArg List.reverse whole).trans (by simp)

theorem pairwise_insertDescending {x : α} {l : List α}
    (asymm : ∀ y ∈ l, less x y → less y x = false)
    (skip : ∀ y ∈ l, ∀ z ∈ l, less x y = false → less y z = false → less x z = false)
    (sorted : l.Pairwise fun a b => less a b = false) :
    (insertDescending less x l).Pairwise fun a b => less a b = false := by
  induction l with
  | nil => simp [insertDescending]
  | cons y rest ih =>
      obtain ⟨first, tail⟩ := List.pairwise_cons.1 sorted
      unfold insertDescending
      split
      · next passed =>
          refine List.pairwise_cons.2 ⟨fun z member => ?_, ?_⟩
          · rcases List.mem_cons.1 ((perm_insertDescending less x rest).mem_iff.1 member) with
              rfl | later
            · exact asymm y List.mem_cons_self passed
            · exact first z later
          · refine ih (fun z m => asymm z (List.mem_cons_of_mem _ m)) (fun z mz w mw => ?_) tail
            exact skip z (List.mem_cons_of_mem _ mz) w (List.mem_cons_of_mem _ mw)
      · next stays =>
          have front : less x y = false := by simpa using stays
          refine List.pairwise_cons.2 ⟨fun z member => ?_, sorted⟩
          rcases List.mem_cons.1 member with rfl | later
          · exact front
          · -- What comes after the head is no greater than the head.
            exact skip y List.mem_cons_self z member front (first z later)

/-- Nothing that comes out is less than what stands before it. -/
theorem pairwise_stableSort {l : List α} (asymm : ∀ x ∈ l, ∀ y ∈ l, less x y → less y x = false)
    (skip : ∀ x ∈ l, ∀ y ∈ l, ∀ z ∈ l, less x y = false → less y z = false → less x z = false) :
    (stableSort less l).Pairwise fun a b => less b a = false := by
  have all {rest sorted : List α} (known : ∀ x ∈ rest ++ sorted, x ∈ l)
      (ordered : sorted.Pairwise fun a b => less a b = false) :
      (insertAllDescending less rest sorted).Pairwise fun a b => less a b = false := by
    induction rest generalizing sorted with
    | nil => exact ordered
    | cons x rest ih =>
        have there (y) (member : y ∈ sorted) : y ∈ l := known y (by simp [member])
        refine ih (fun y member => known y ((perm_step less x rest sorted).mem_iff.1 member)) ?_
        exact pairwise_insertDescending (fun y m => asymm x (known x (by simp)) y (there y m))
          (fun y my z mz => skip x (known x (by simp)) y (there y my) z (there z mz)) ordered
  exact List.pairwise_reverse.2 (all (by simp) .nil)

end

end FleetStore
