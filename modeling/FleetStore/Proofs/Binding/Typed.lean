import FleetStore.Proofs.Binding.Setters
import FleetStore.Proofs.Language.Typing

/-! # Bound writes are typed

A value takes the place of a parameter only if it has passed the check of that place,
whether it comes from a setter or with a patch. So whatever a legal statement is
bound to, each key that it sets is one of the category and gets a finite value of
the type of the key.
-/

namespace FleetStore

/-- The keys that a write sets are keys of a category, and they get finite values of their
types. -/
structure BoundWrite.Fits (c : Category) (w : BoundWrite) : Prop where
  category : w.category = c.name
  assignments : ∀ a ∈ w.assignments, a.1 ∈ c.keys ∧ a.2.type = a.1.type ∧ a.2.isFinite = true

namespace Descriptor

/-! ## Parameters of a patch -/

/-- A parameter of a patch that finds its slot passes as it would pass a setter. -/
theorem fillSlot_ok {c : Compiled} {slots slots' : List (Option Value)} {p : Parameter}
    (h : fillSlot c.signature slots p = .ok slots') :
    Prepared.setParameter ⟨c, slots⟩ p.index p.value = .ok ⟨c, slots'⟩ := by
  unfold fillSlot at h
  unfold Prepared.setParameter
  split at h
  · contradiction
  · next expected found =>
      split at h
      · contradiction
      · split at h
        · contradiction
        · simp only [found]
          cases passed : checkValue p.index expected p.value with
          | error e => simp [passed, Except.map] at h
          | ok =>
              simp only [passed, Except.map, Except.ok.injEq] at h
              simp only [Except.map, h]

theorem foldlM_fillSlot_checked {c : Compiled} {params : List Parameter}
    {slots slots' : List (Option Value)} (h : Prepared.Checked ⟨c, slots⟩)
    (ok : params.foldlM (fillSlot c.signature) slots = .ok slots') :
    Prepared.Checked ⟨c, slots'⟩ := by
  induction params generalizing slots with
  | nil =>
      obtain rfl := Except.ok.inj ok
      exact h
  | cons p rest ih =>
      rw [List.foldlM_cons] at ok
      obtain ⟨next, filled, later⟩ := bind_eq_ok_iff.1 ok
      exact ih (h.setParameter (fillSlot_ok filled)).1 later

theorem allBound_ok {index : Nat} {slots : List (Option Value)} {values : List Value}
    (h : allBound index slots = .ok values) : slots = values.map some := by
  induction slots generalizing index values with
  | nil =>
      obtain rfl := Except.ok.inj h
      rfl
  | cons slot rest ih =>
      cases slot with
      | none => contradiction
      | some value =>
          cases later : allBound (index + 1) rest with
          | error e => simp [allBound, later, Except.map] at h
          | ok more =>
              simp only [allBound, later, Except.map, Except.ok.injEq] at h
              rw [← h, List.map_cons, ih later]

/-- Parameters that are resolved have passed the check of every place. -/
theorem resolveParameters_checked {c : Compiled} {params : List Parameter} {values : List Value}
    (h : resolveParameters c.signature params = .ok values) :
    Prepared.Checked ⟨c, values.map some⟩ := by
  unfold resolveParameters at h
  split at h
  · contradiction
  · obtain ⟨slots, filled, all⟩ := bind_eq_ok_iff.1 h
    have checked := foldlM_fillSlot_checked (Prepared.checked_ofCompiled c) filled
    rwa [allBound_ok all] at checked

/-! ## Statements -/

/-- A term stands for a finite value of its type when the parameters have their values. -/
theorem Term.Fits.resolve {c : Compiled} {values : List Value} {type : ValueType} {term : Term}
    (h : term.Fits type c.signature) (checked : Prepared.Checked ⟨c, values.map some⟩) :
    (term.resolve values).type = type ∧ (term.resolve values).isFinite = true := by
  cases term with
  | literal => exact h
  | parameter index =>
      obtain ⟨inside, -⟩ := List.getElem?_eq_some_iff.1 h
      have places : values.length = c.signature.length := by simpa using checked.places
      have found : values[index]? = some values[index] := List.getElem?_eq_getElem (by omega)
      have passed := checked.fits index type values[index] (by simp [found]) h
      rw [Term.resolve, List.getD_eq_getElem?_getD, found]
      exact checkValue_ok_iff.1 passed

theorem Compiled.withValues_write {r : Compiled} {values : List Value} {w : BoundWrite}
    (ok : r.withValues values = .ok (.write w)) :
    w.category = r.category ∧
      w.assignments = r.assignments.map fun (key, term) => (key, term.resolve values) := by
  unfold Compiled.withValues at ok
  split at ok
  · cases limit : r.limit with
    | none => simp [limit, Bind.bind, Except.bind, pure, Except.pure] at ok
    | some l =>
        cases resolved : l.resolve values <;>
          simp [limit, resolved, Bind.bind, Except.bind, pure, Except.pure, Functor.map, Except.map] at ok
  · obtain rfl := BoundStatement.write.inj (Except.ok.inj ok)
    exact ⟨rfl, rfl⟩

/-- Whatever parameters a legal write is patched with, it sets keys of its category to values
of their types. -/
theorem Compiled.Legal.bind {c : Category} {r : Compiled} {params : List Parameter} {w : BoundWrite}
    (h : r.Legal c) (ok : r.bind params = .ok (.write w)) : w.Fits c := by
  rw [Compiled.bind_eq] at ok
  obtain ⟨values, resolved, bound⟩ := bind_eq_ok_iff.1 ok
  obtain ⟨category, assignments⟩ := Compiled.withValues_write bound
  refine ⟨category.trans h.category, fun a member => ?_⟩
  rw [assignments] at member
  obtain ⟨⟨key, term⟩, inside, rfl⟩ := List.mem_map.1 member
  obtain ⟨known, fits⟩ := h.assignments _ inside
  exact ⟨known, fits.resolve (resolveParameters_checked resolved)⟩

end Descriptor

theorem Prepared.boundWrite_ok {s : Prepared} {w : BoundWrite} (ok : s.boundWrite = .ok w) :
    ∃ params, s.parameters = .ok params ∧ s.compiled.bind params = .ok (.write w) := by
  unfold Prepared.boundWrite at ok
  split at ok
  · contradiction
  · next b bound =>
      obtain rfl := Except.ok.inj ok
      exact bind_eq_ok_iff.1 (mapError_eq_ok_iff.1 bound)
  · contradiction

/-- Whatever values a legal write was given by its setters, it sets keys of its category to
values of their types. -/
theorem Prepared.boundWrite_fits {c : Category} {s : Prepared} {w : BoundWrite}
    (h : s.compiled.Legal c) (ok : s.boundWrite = .ok w) : w.Fits c := by
  obtain ⟨params, _, bound⟩ := boundWrite_ok ok
  exact h.bind bound

end FleetStore
