/-! # Results and errors

How steps that can fail are put together: a chain of steps succeeds exactly if each of
them does and fails as the first of them that does not, and an error is put into the terms of
the caller only where there is one.
-/

namespace FleetStore

variable {ε ε' α β : Type}

theorem bind_eq_ok_iff {x : Except ε α} {f : α → Except ε β} {y : β} :
    (x >>= f) = .ok y ↔ ∃ a, x = .ok a ∧ f a = .ok y := by
  cases x with
  | error e => simp [bind, Except.bind]
  | ok a => simp [bind, Except.bind]

theorem bind_eq_error_iff {x : Except ε α} {f : α → Except ε β} {e : ε} :
    (x >>= f) = .error e ↔ x = .error e ∨ ∃ a, x = .ok a ∧ f a = .error e := by
  cases x with
  | error e' => simp [bind, Except.bind]
  | ok a => simp [bind, Except.bind]

@[simp]
theorem mapError_ok (f : ε → ε') (a : α) : (Except.ok a : Except ε α).mapError f = .ok a := rfl

@[simp]
theorem mapError_error (f : ε → ε') (e : ε) :
    (Except.error e : Except ε α).mapError f = .error (f e) := rfl

theorem mapError_eq_ok_iff {f : ε → ε'} {x : Except ε α} {a : α} :
    x.mapError f = .ok a ↔ x = .ok a := by
  cases x <;> simp

theorem map_eq_ok_iff {f : α → β} {x : Except ε α} {y : β} :
    x.map f = .ok y ↔ ∃ a, x = .ok a ∧ f a = y := by
  cases x <;> simp [Except.map]

/-- Steps taken one after another succeed if each of them does. -/
theorem mapM_eq_ok_iff {f : α → Except ε β} {l : List α} {ys : List β} :
    l.mapM f = .ok ys ↔ l.map f = ys.map .ok := by
  induction l generalizing ys with
  | nil => simp [pure, Except.pure]
  | cons x rest ih =>
      simp only [List.mapM_cons, bind_eq_ok_iff, pure, Except.pure, Except.ok.injEq, ih]
      cases ys with
      | nil => simp
      | cons y ys => simp

/-- Steps taken one after another fail with the error of the first of them that fails. -/
theorem mapM_eq_error_iff {f : α → Except ε β} {l : List α} {e : ε} :
    l.mapM f = .error e ↔ ∃ before x after, l = before ++ x :: after ∧
      (∀ y ∈ before, ∃ z, f y = .ok z) ∧ f x = .error e := by
  induction l with
  | nil => simp [pure, Except.pure]
  | cons x rest ih =>
      have first : (x :: rest).mapM f = .error e ↔
          f x = .error e ∨ ∃ z, f x = .ok z ∧ rest.mapM f = .error e := by
        simp [List.mapM_cons, bind_eq_error_iff, pure, Except.pure]
      rw [first, ih]
      constructor
      · rintro (bad | ⟨z, made, before, y, after, rfl, fine, bad⟩)
        · exact ⟨[], x, rest, rfl, by simp, bad⟩
        · exact ⟨x :: before, y, after, rfl, List.forall_mem_cons.2 ⟨⟨z, made⟩, fine⟩, bad⟩
      · rintro ⟨before, y, after, same, fine, bad⟩
        cases before with
        | nil =>
            obtain ⟨rfl, rfl⟩ := List.cons.inj same
            exact .inl bad
        | cons b before =>
            obtain ⟨rfl, rfl⟩ := List.cons.inj same
            obtain ⟨⟨z, made⟩, fine⟩ := List.forall_mem_cons.1 fine
            exact .inr ⟨z, made, before, y, after, rfl, fine, bad⟩

theorem toOption_eq_some_iff {x : Except ε α} {a : α} : x.toOption = some a ↔ x = .ok a := by
  cases x <;> simp [Except.toOption]

end FleetStore
