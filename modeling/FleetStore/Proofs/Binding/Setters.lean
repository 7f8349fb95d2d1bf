import FleetStore.Proofs.Binding.InOrder

/-! # What calls of a setter leave behind

A setter takes a value that has the type of its place and is finite, and anything else
it leaves aside. So after any calls, successful or not, a place is unset exactly if no
call had a value for it that was taken, and the first such place is what running
the statement would complain of.
-/

namespace FleetStore

open Descriptor

/-- A value has the type of a place and is finite. -/
def Descriptor.Compiled.Accepts (c : Compiled) (index : Nat) (value : Value) : Prop :=
  c.signature[index]? = some value.type ∧ value.isFinite = true

/-- A place for which none of the calls has an acceptable value. -/
def Descriptor.Compiled.Unset (c : Compiled) (calls : List (Nat × Value)) (index : Nat) : Prop :=
  index < c.signature.length ∧ ∀ value, (index, value) ∈ calls → ¬ c.Accepts index value

theorem Descriptor.checkValue_ok_iff {index : Nat} {expected : ValueType} {value : Value} :
    checkValue index expected value = .ok () ↔ value.type = expected ∧ value.isFinite = true := by
  unfold checkValue
  by_cases typed : value.type = expected
  · cases value.isFinite <;> simp [typed]
  · simp [typed]

namespace Prepared

/-- A statement after a call of its setter: a value that does not fit leaves it as it was. -/
def trySet (s : Prepared) (index : Nat) (value : Value) : Prepared :=
  match s.setParameter index value with
  | .ok s => s
  | .error _ => s

/-- A statement after calls of its setter, one after another. -/
def trySetAll (s : Prepared) (calls : List (Nat × Value)) : Prepared :=
  calls.foldl (fun s call => s.trySet call.1 call.2) s

variable {s s' : Prepared} {index k : Nat} {value : Value}

theorem setParameter_ok_iff : s.setParameter index value = .ok s' ↔
    s.compiled.Accepts index value ∧ { s with values := s.values.set index (some value) } = s' := by
  unfold setParameter Compiled.Accepts
  cases found : s.compiled.signature[index]? with
  | none => simp
  | some expected =>
      simp only [map_eq_ok_iff, Option.some.injEq]
      exact ⟨fun ⟨_, passed, same⟩ => ⟨(checkValue_ok_iff.1 passed).imp_left Eq.symm, same⟩,
        fun ⟨fits, same⟩ => ⟨(), checkValue_ok_iff.2 (fits.imp_left Eq.symm), same⟩⟩

@[simp]
theorem compiled_trySet (s : Prepared) (index : Nat) (value : Value) :
    (s.trySet index value).compiled = s.compiled := by
  unfold trySet
  split
  · next set =>
      obtain ⟨_, rfl⟩ := setParameter_ok_iff.1 set
      rfl
  · rfl

theorem compiled_trySetAll (s : Prepared) (calls : List (Nat × Value)) :
    (s.trySetAll calls).compiled = s.compiled := by
  induction calls generalizing s with
  | nil => rfl
  | cons call rest ih => exact (ih _).trans (s.compiled_trySet call.1 call.2)

theorem Checked.trySet (h : s.Checked) (index : Nat) (value : Value) :
    (s.trySet index value).Checked := by
  unfold Prepared.trySet
  split
  · next set => exact (h.setParameter set).1
  · exact h

/-! ## Unset places -/

theorem unset_trySet : (s.trySet index value).values[k]? = some none ↔
    s.values[k]? = some none ∧ ¬ (index = k ∧ s.compiled.Accepts k value) := by
  unfold trySet
  split
  · next set =>
      obtain ⟨accepts, rfl⟩ := setParameter_ok_iff.1 set
      rw [List.getElem?_set]
      by_cases same : index = k
      · subst same
        rw [if_pos rfl]
        split <;> simp [accepts]
      · simp [same]
  · next set =>
      refine ⟨fun unset => ⟨unset, ?_⟩, And.left⟩
      rintro ⟨rfl, accepts⟩
      simp [setParameter_ok_iff.2 ⟨accepts, rfl⟩] at set

theorem unset_trySetAll (s : Prepared) (calls : List (Nat × Value)) :
    (s.trySetAll calls).values[k]? = some none ↔
      s.values[k]? = some none ∧ ∀ value, (k, value) ∈ calls → ¬ s.compiled.Accepts k value := by
  induction calls generalizing s with
  | nil => simp [trySetAll]
  | cons call rest ih =>
      obtain ⟨index, value⟩ := call
      have later := ih (s.trySet index value)
      rw [unset_trySet, compiled_trySet] at later
      refine later.trans ⟨fun ⟨⟨unset, first⟩, others⟩ => ⟨unset, ?_⟩,
        fun ⟨unset, all⟩ => ⟨⟨unset, ?_⟩, fun v member => all v (List.mem_cons_of_mem _ member)⟩⟩
      · intro v member accepts
        rcases List.mem_cons.1 member with same | member
        · obtain ⟨rfl, rfl⟩ := Prod.mk.inj same
          exact first ⟨rfl, accepts⟩
        · exact others v member accepts
      · rintro ⟨rfl, accepts⟩
        exact all value List.mem_cons_self accepts

/-- A place of a statement is unset after calls of its setter exactly if none of them had an
acceptable value for it. -/
theorem unset_iff (c : Compiled) (calls : List (Nat × Value)) :
    ((ofCompiled c).trySetAll calls).values[k]? = some none ↔ c.Unset calls k := by
  rw [unset_trySetAll]
  simp [ofCompiled, Compiled.Unset, List.getElem?_replicate]

/-! ## The first unset place -/

theorem parametersFrom_unset (first : Nat) {slots : List (Option Value)}
    (unset : slots[k]? = some none) (least : ∀ i < k, slots[i]? ≠ some none) :
    parametersFrom first slots = .error (.unbound (first + k)) := by
  induction slots generalizing first k with
  | nil => simp at unset
  | cons slot rest ih =>
      cases k with
      | zero =>
          obtain rfl : slot = none := by simpa using unset
          rfl
      | succ k =>
          have set := least 0 (Nat.succ_pos k)
          have later := ih (first + 1) (by simpa using unset) fun i less => by
            simpa using least (i + 1) (Nat.succ_lt_succ less)
          cases slot with
          | none => simp at set
          | some value => simp [parametersFrom, later, Except.map, Nat.add_assoc, Nat.add_comm 1]

theorem exists_parametersFrom (first : Nat) {slots : List (Option Value)}
    (set : ∀ i : Nat, slots[i]? ≠ some none) : ∃ params, parametersFrom first slots = .ok params := by
  induction slots generalizing first with
  | nil => exact ⟨[], rfl⟩
  | cons slot rest ih =>
      obtain ⟨params, later⟩ := ih (first + 1) fun i => by simpa using set (i + 1)
      cases slot with
      | none => exact absurd rfl (set 0)
      | some value => exact ⟨.ofValue first value :: params, by simp [parametersFrom, later, Except.map]⟩

/-- The parameters after calls of a setter: those of a statement without an unset place, or the
complaint about the first. -/
theorem parameters_unset (c : Compiled) (calls : List (Nat × Value)) (unset : c.Unset calls k)
    (least : ∀ i < k, ¬ c.Unset calls i) :
    ((ofCompiled c).trySetAll calls).parameters = .error (.unbound k) := by
  have complaint := parametersFrom_unset 0 ((unset_iff c calls).2 unset)
    fun i less found => least i less ((unset_iff c calls).1 found)
  rwa [Nat.zero_add] at complaint

theorem exists_parameters (c : Compiled) (calls : List (Nat × Value))
    (set : ∀ i, ¬ c.Unset calls i) :
    ∃ params, ((ofCompiled c).trySetAll calls).parameters = .ok params :=
  exists_parametersFrom 0 fun i found => set i ((unset_iff c calls).1 found)

end Prepared

end FleetStore
