import FleetStore.Proofs.Binding.Typed
import Mathlib.Data.List.Nodup
import Mathlib.Data.List.Perm.Subperm

/-! # Parameters that fill every slot

Parameters are put into slots one after another, and whatever is wrong with one of them
stops it. What comes through has one parameter of the right type for each number of the
signature, whatever the order, because as many different numbers as there are slots fill
them all. So nothing is ever found to be unbound.
-/

namespace FleetStore

open Descriptor

/-- The double precision numbers in a value. -/
def Value.doubles : Value → List Double
  | .scalar .double x => [x]
  | .list .double xs => xs
  | _ => []

theorem Value.isFinite_iff (v : Value) :
    v.isFinite = true ↔ ∀ x ∈ v.doubles, ∃ y, x = .finite y := by
  have finite (x : Double) : x.isFinite = true ↔ ∃ y, x = .finite y := by
    cases x <;> simp [Double.isFinite]
  cases v with
  | scalar t x => cases t <;> simp [isFinite, ScalarType.isFinite, doubles, finite]
  | list t xs => cases t <;> simp [isFinite, ScalarType.isFinite, doubles, finite]

namespace Descriptor

/-! ## Slots -/

/-- A parameter has the type of its number, as declared and in its value, and is finite. -/
def Fits (signature : List ValueType) (p : Parameter) : Prop :=
  signature[p.index]? = some p.declared ∧ p.value.type = p.declared ∧ p.value.isFinite = true

theorem Fits.inRange {signature : List ValueType} {p : Parameter} (h : Fits signature p) :
    p.index < signature.length :=
  (List.getElem?_eq_some_iff.1 h.1).1

/-- The slots with parameters put into them, each over what was there before. -/
def filled (slots : List (Option Value)) (params : List Parameter) : List (Option Value) :=
  params.foldl (fun slots p => slots.set p.index (some p.value)) slots

theorem fillSlot_ok_iff {signature : List ValueType} {slots slots' : List (Option Value)}
    {p : Parameter} : fillSlot signature slots p = .ok slots' ↔
      Fits signature p ∧ slots.getD p.index none = none ∧ filled slots [p] = slots' := by
  unfold fillSlot Fits
  cases found : signature[p.index]? with
  | none => simp
  | some expected =>
      cases slot : slots.getD p.index none with
      | some value => simp
      | none =>
          by_cases declared : p.declared = expected
          · subst declared
            simp only [Option.isSome_none, Bool.false_eq_true, if_false, ne_eq, not_true_eq_false,
              map_eq_ok_iff, true_and]
            exact ⟨fun ⟨_, passed, same⟩ => ⟨checkValue_ok_iff.1 passed, same⟩,
              fun ⟨fits, same⟩ => ⟨(), checkValue_ok_iff.2 fits, same⟩⟩
          · simp [declared, Ne.symm declared]

theorem length_filled (slots : List (Option Value)) (params : List Parameter) :
    (filled slots params).length = slots.length := by
  induction params generalizing slots with
  | nil => rfl
  | cons p params ih => exact (ih _).trans List.length_set

theorem filled_untouched {slots : List (Option Value)} {params : List Parameter} {i : Nat}
    (absent : i ∉ params.map Parameter.index) : (filled slots params)[i]? = slots[i]? := by
  induction params generalizing slots with
  | nil => rfl
  | cons p params ih =>
      simp only [List.map_cons, List.mem_cons, not_or] at absent
      exact (ih absent.2).trans (List.getElem?_set_ne (Ne.symm absent.1))

/-- Parameters with different numbers do not get into each other's slots. -/
theorem filled_getElem? {slots : List (Option Value)} {params : List Parameter}
    (distinct : (params.map Parameter.index).Nodup) {p : Parameter} (member : p ∈ params)
    (inside : p.index < slots.length) : (filled slots params)[p.index]? = some (some p.value) := by
  induction params generalizing slots with
  | nil => simp at member
  | cons q params ih =>
      obtain ⟨fresh, later⟩ := List.nodup_cons.1 distinct
      rcases List.mem_cons.1 member with rfl | member
      · exact (filled_untouched fresh).trans (List.getElem?_set_self inside)
      · exact ih later member (by simpa using inside)

/-- A slot is free after a parameter was put in if it was free and is not the slot of this
parameter. -/
theorem free_iff {slots : List (Option Value)} {p : Parameter} (inside : p.index < slots.length)
    (i : Nat) : (filled slots [p]).getD i none = none ↔ i ≠ p.index ∧ slots.getD i none = none := by
  simp only [filled, List.foldl_cons, List.foldl_nil, List.getD_eq_getElem?_getD, List.getElem?_set]
  by_cases same : p.index = i
  · simp [← same, inside]
  · simp [same, Ne.symm same]

theorem foldlM_fillSlot_ok_iff {signature : List ValueType} {params : List Parameter}
    {slots slots' : List (Option Value)} (room : slots.length = signature.length) :
    params.foldlM (fillSlot signature) slots = .ok slots' ↔
      (∀ p ∈ params, Fits signature p ∧ slots.getD p.index none = none) ∧
        (params.map Parameter.index).Nodup ∧ filled slots params = slots' := by
  induction params generalizing slots with
  | nil => simp [filled, pure, Except.pure]
  | cons p params ih =>
      have inside (fits : Fits signature p) : p.index < slots.length := room ▸ fits.inRange
      have rest : params.foldlM (fillSlot signature) (filled slots [p]) = .ok slots' ↔ _ :=
        ih ((length_filled _ _).trans room)
      simp only [List.foldlM_cons, bind_eq_ok_iff, fillSlot_ok_iff, List.map_cons, List.nodup_cons,
        List.forall_mem_cons]
      constructor
      · rintro ⟨_, ⟨fits, free, rfl⟩, later⟩
        obtain ⟨all, distinct, same⟩ := rest.1 later
        -- The slot of the first parameter is free for none of the others.
        have others (q) (member : q ∈ params) := (free_iff (inside fits) q.index).1 (all q member).2
        refine ⟨⟨⟨fits, free⟩, fun q member => ⟨(all q member).1, (others q member).2⟩⟩,
          ⟨fun again => ?_, distinct⟩, same⟩
        obtain ⟨q, member, number⟩ := List.mem_map.1 again
        exact (others q member).1 number
      · rintro ⟨⟨⟨fits, free⟩, all⟩, ⟨fresh, distinct⟩, same⟩
        refine ⟨_, ⟨fits, free, rfl⟩,
          rest.2 ⟨fun q member => ⟨(all q member).1, ?_⟩, distinct, same⟩⟩
        exact (free_iff (inside fits) q.index).2
          ⟨fun number => fresh (number ▸ List.mem_map_of_mem member), (all q member).2⟩

/-! ## Resolved values -/

/-- As many different numbers below a bound as the bound allows are all the numbers below it. -/
theorem mem_of_distinct {numbers : List Nat} {i : Nat} (distinct : numbers.Nodup)
    (inside : ∀ n ∈ numbers, n < numbers.length) (below : i < numbers.length) : i ∈ numbers := by
  have among : numbers ⊆ List.range numbers.length := fun n member =>
    List.mem_range.2 (inside n member)
  have all := (distinct.subperm among).perm_of_length_le (by simp)
  exact all.mem_iff.2 (List.mem_range.2 below)

/-- Where there are as many parameters as places, with different numbers, one has each number. -/
theorem mem_number {signature : List ValueType} {params : List Parameter} {i : Nat}
    (count : params.length = signature.length) (distinct : (params.map Parameter.index).Nodup)
    (fits : ∀ p ∈ params, Fits signature p) (below : i < signature.length) :
    i ∈ params.map Parameter.index := by
  refine mem_of_distinct distinct (fun n member => ?_) (by simpa [count] using below)
  obtain ⟨p, known, rfl⟩ := List.mem_map.1 member
  simpa [count] using (fits p known).inRange

/-- Parameters are resolved if there is one for each number, and then each has its value in the
place of its number. -/
theorem resolveParameters_ok_iff {signature : List ValueType} {params : List Parameter}
    {values : List Value} : resolveParameters signature params = .ok values ↔
      (params.length = signature.length ∧ (params.map Parameter.index).Nodup ∧
        ∀ p ∈ params, Fits signature p) ∧
      values.length = signature.length ∧ ∀ p ∈ params, values[p.index]? = some p.value := by
  unfold resolveParameters
  by_cases count : params.length = signature.length
  · generalize start : List.replicate signature.length (none : Option Value) = unfilled
    have room : unfilled.length = signature.length := by simp [← start]
    have free (i : Nat) : unfilled.getD i none = none := by
      by_cases inside : i < signature.length <;>
        simp [← start, List.getD_eq_getElem?_getD, inside]
    simp only [count, ne_eq, not_true_eq_false, if_false, bind_eq_ok_iff,
      foldlM_fillSlot_ok_iff room, free, and_true, true_and]
    constructor
    · rintro ⟨slots, ⟨all, distinct, rfl⟩, bound⟩
      have full := allBound_ok bound
      have places : values.length = signature.length := by
        simpa [length_filled, room] using (congrArg List.length full).symm
      refine ⟨⟨distinct, all⟩, places, fun p member => ?_⟩
      have found := filled_getElem? distinct member (room.symm ▸ (all p member).inRange)
      simpa [full] using found
    · rintro ⟨⟨distinct, all⟩, places, found⟩
      refine ⟨values.map some, ⟨all, distinct, List.ext_getElem? fun i => ?_⟩,
        allBound_map_some 0 values⟩
      by_cases below : i < signature.length
      · -- Some parameter has this number, since there are as many parameters as numbers.
        obtain ⟨p, member, rfl⟩ := List.mem_map.1 (mem_number count distinct all below)
        rw [filled_getElem? distinct member (room.symm ▸ below), List.getElem?_map, found p member]
        rfl
      · rw [List.getElem?_eq_none (by simp only [length_filled, room]; omega),
          List.getElem?_eq_none (by simp only [List.length_map]; omega)]
  · simp [count]

/-- The order of the parameters is nothing to what they resolve to. -/
theorem resolveParameters_perm {signature : List ValueType} {params others : List Parameter}
    {values : List Value} (same : others.Perm params) :
    resolveParameters signature others = .ok values ↔
      resolveParameters signature params = .ok values := by
  simp only [resolveParameters_ok_iff, same.length_eq, (same.map Parameter.index).nodup_iff,
    same.mem_iff]

theorem exists_resolved {signature : List ValueType} {params : List Parameter}
    (count : params.length = signature.length) (distinct : (params.map Parameter.index).Nodup)
    (fits : ∀ p ∈ params, Fits signature p) :
    ∃ values, resolveParameters signature params = .ok values := by
  let given (i : Nat) : Value := ((params.find? (·.index == i)).map Parameter.value).getD default
  refine ⟨(List.range signature.length).map given,
    resolveParameters_ok_iff.2 ⟨⟨count, distinct, fits⟩, by simp, fun p member => ?_⟩⟩
  have there : (params.find? (·.index == p.index)).isSome :=
    List.find?_isSome.2 ⟨p, member, beq_self_eq_true p.index⟩
  obtain ⟨q, found⟩ := Option.isSome_iff_exists.1 there
  have number : q.index = p.index := by simpa using List.find?_some found
  have same : q = p :=
    List.inj_on_of_nodup_map distinct (List.mem_of_find?_eq_some found) member number
  rw [List.getElem?_map, List.getElem?_range (fits p member).inRange]
  simp [given, found, same]

theorem fillSlot_bound {signature : List ValueType} {slots : List (Option Value)} {p : Parameter}
    {i : Nat} : fillSlot signature slots p ≠ .error (.unbound i) := by
  unfold fillSlot checkValue
  repeat' split
  all_goals simp [Except.map]

theorem foldlM_fillSlot_bound {signature : List ValueType} {params : List Parameter}
    {slots : List (Option Value)} {i : Nat} :
    params.foldlM (fillSlot signature) slots ≠ .error (.unbound i) := by
  induction params generalizing slots with
  | nil => simp [pure, Except.pure]
  | cons p params ih =>
      rw [List.foldlM_cons]
      cases filled : fillSlot signature slots p with
      | error e =>
          intro same
          obtain rfl := Except.error.inj same
          exact fillSlot_bound filled
      | ok => exact ih

/-- No parameter is found to be missing: where every one was put into a slot, there is one for
each slot. -/
theorem resolveParameters_bound {signature : List ValueType} {params : List Parameter} {i : Nat} :
    resolveParameters signature params ≠ .error (.unbound i) := by
  intro unbound
  have raw := unbound
  unfold resolveParameters at raw
  split at raw
  · simp at raw
  · next count =>
      cases filled : params.foldlM (fillSlot signature) (List.replicate signature.length none) with
      | error e =>
          rw [filled] at raw
          obtain rfl := Except.error.inj raw
          exact foldlM_fillSlot_bound filled
      | ok slots =>
          obtain ⟨fits, distinct, -⟩ := (foldlM_fillSlot_ok_iff List.length_replicate).1 filled
          obtain ⟨values, resolved⟩ :=
            exists_resolved (not_ne_iff.1 count) distinct fun p member => (fits p member).1
          rw [resolved] at unbound
          contradiction

end Descriptor

end FleetStore
