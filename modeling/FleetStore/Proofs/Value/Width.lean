import FleetStore.Config.Environment
import FleetStore.Value.Document

/-! # Integers of 64 bits

The integers of a document that was read have 64 bits, with a sign or without one. The
double nearest to such an integer is finite, so a value that is made of such a
document is finite whatever its type is. Beyond all doubles this would fail: a huge
integer has an infinite double next to it.
-/

namespace FleetStore

/-! ## Rounding -/

/-- A quotient is rounded to one of the two naturals around it. -/
theorem roundDiv_bounds (num den : Nat) :
    num / den ≤ roundDiv num den ∧ roundDiv num den ≤ num / den + 1 := by
  simp only [roundDiv]
  split
  · omega
  · split
    · omega
    · split <;> omega

theorem roundDiv_one (num : Nat) : roundDiv num 1 = num := by
  simp [roundDiv, Nat.mod_one]

theorem twoTo_add (m n : Nat) : twoTo (m + n) = twoTo m * twoTo n := Nat.pow_add 2 m n

theorem twoTo_le {m n : Nat} (h : m ≤ n) : twoTo m ≤ twoTo n := Nat.pow_le_pow_right (by decide) h

theorem log2_lt {num n : Nat} (positive : num ≠ 0) (h : num < twoTo n) : num.log2 < n :=
  (Nat.log2_lt positive).2 h

namespace Double

/-- The digits of a number before the last ones, of which as many are left out as it takes. -/
theorem div_twoTo_bounds {num : Nat} (h : twoTo 53 ≤ num) :
    twoTo 52 ≤ num / twoTo (num.log2 - 52) ∧ num / twoTo (num.log2 - 52) < twoTo 53 := by
  have positive : num ≠ 0 := by
    have := twoTo_pos 53
    omega
  have long : 53 ≤ num.log2 := (Nat.le_log2 positive).2 h
  have least : twoTo 52 * twoTo (num.log2 - 52) ≤ num := by
    rw [← twoTo_add, show 52 + (num.log2 - 52) = num.log2 by omega]
    exact Nat.log2_self_le positive
  have most : num < twoTo 53 * twoTo (num.log2 - 52) := by
    rw [← twoTo_add, show 53 + (num.log2 - 52) = num.log2 + 1 by omega]
    exact Nat.lt_log2_self
  exact ⟨(Nat.le_div_iff_mul_le (twoTo_pos _)).2 least, (Nat.div_lt_iff_lt_mul (twoTo_pos _)).2 most⟩

/-- Rounding does not leave the finite doubles from far below their end. -/
theorem isFinite_ofUnits (negative : Bool) {num : Nat} (h : num < twoTo 2097) :
    (ofUnits negative num 1).isFinite = true := by
  have doubled : twoTo 53 = 2 * twoTo 52 := by decide
  have isFinite_dite (significand shift : Nat) (fits : Representable significand shift) :
      (if h : Representable significand shift then Double.finite ⟨negative, significand, shift, h⟩
        else .infinite negative).isFinite = true := by
    rw [dif_pos fits]
    rfl
  unfold ofUnits
  simp only [Nat.div_one, Nat.one_mul]
  refine isFinite_dite _ _ ?_
  by_cases small : num < twoTo 53
  · have whole : roundDiv num (twoTo 0) = num := roundDiv_one num
    rw [if_pos small, whole, if_neg (by omega), if_neg (by omega)]
    exact ⟨small, Nat.zero_le _, .inl rfl⟩
  · have positive : num ≠ 0 := by
      have := twoTo_pos 53
      omega
    have short := log2_lt positive h
    obtain ⟨least, most⟩ := div_twoTo_bounds (Nat.not_lt.1 small)
    obtain ⟨above, below⟩ := roundDiv_bounds num (twoTo (num.log2 - 52))
    rw [if_neg small]
    split
    · exact ⟨by omega, by omega, .inr (Nat.le_refl _)⟩
    · exact ⟨by omega, by omega, .inr (by omega)⟩

theorem isFinite_ofInt {n : Int} (h : n.natAbs < twoTo 65) : (ofInt n).isFinite = true := by
  refine isFinite_ofUnits _ (Nat.lt_of_lt_of_le ?_ (twoTo_le (by decide : 65 + 1074 ≤ 2097)))
  rw [twoTo_add]
  exact Nat.mul_lt_mul_of_pos_right h (twoTo_pos _)

end Double

/-! ## Documents -/

/-- A document of which all integers have 64 bits, with a sign or without one. -/
inductive Json.Bounded : Json → Prop where
  | null : Bounded .null
  | bool (b : Bool) : Bounded (.bool b)
  | int (n : Int) (fits : FitsSigned 63 n ∨ FitsUnsigned 64 n) : Bounded (.int n)
  | float (x : FiniteDouble) : Bounded (.float x)
  | str (s : String) : Bounded (.str s)
  | arr (items : List Json) (all : ∀ item ∈ items, Bounded item) : Bounded (.arr items)
  | obj (members : List (String × Json)) (all : ∀ m ∈ members, Bounded m.2) : Bounded (.obj members)

theorem Json.Bounded.isFinite_double {j : Json} {x : Double} (h : j.Bounded) (ok : j.double? = some x) :
    x.isFinite = true := by
  cases h with
  | int n fits =>
      obtain rfl := Option.some.inj ok
      have wide : twoTo 65 = 2 * twoTo 64 := by decide
      have half : twoTo 64 = 2 * twoTo 63 := by decide
      refine Double.isFinite_ofInt ?_
      rcases fits with ⟨least, most⟩ | ⟨least, most⟩ <;> omega
  | float x =>
      obtain rfl := Option.some.inj ok
      rfl
  | null | bool | str | arr | obj => contradiction

namespace Environment

variable (env : Environment)

theorem expandItems_eq (items : List Json) : env.expandItems items = items.map env.expandStrings := by
  induction items with
  | nil => rfl
  | cons item rest ih => rw [expandItems, ih, List.map_cons]

theorem expandMembers_eq (members : List (String × Json)) :
    env.expandMembers members = members.map fun m => (m.1, env.expandStrings m.2) := by
  induction members with
  | nil => rfl
  | cons m rest ih => rw [expandMembers, ih, List.map_cons]

/-- Replacing references in strings touches no integer. -/
theorem bounded_expandStrings {j : Json} (h : j.Bounded) : (env.expandStrings j).Bounded := by
  induction h with
  | null => exact .null
  | bool b => exact .bool b
  | int n fits => exact .int n fits
  | float x => exact .float x
  | str s => exact .str _
  | arr items _ ih =>
      rw [expandStrings, expandItems_eq]
      refine .arr _ fun item member => ?_
      obtain ⟨old, inside, rfl⟩ := List.mem_map.1 member
      exact ih old inside
  | obj members _ ih =>
      rw [expandStrings, expandMembers_eq]
      refine .obj _ fun m member => ?_
      obtain ⟨old, inside, rfl⟩ := List.mem_map.1 member
      exact ih old inside

theorem expandStrings_eq_int {j : Json} {n : Int} : env.expandStrings j = .int n ↔ j = .int n := by
  cases j <;> simp [expandStrings]

end Environment

/-! ## Values -/

theorem ScalarType.isFinite_decode {t : ScalarType} {j : Json} {x : t.Carrier} (h : j.Bounded)
    (ok : t.decode? j = some x) : t.isFinite x = true := by
  cases t with
  | double => exact h.isFinite_double ok
  | string | int | long | boolean | pojo => rfl

theorem mapM_cons_eq_some_iff {α β : Type} {f : α → Option β} {x : α} {l : List α} {l' : List β} :
    (x :: l).mapM f = some l' ↔ ∃ y ys, f x = some y ∧ l.mapM f = some ys ∧ y :: ys = l' := by
  simp [List.mapM_cons, Option.bind_eq_some_iff]

theorem mem_of_mapM {α β : Type} {f : α → Option β} {l : List α} {l' : List β}
    (ok : l.mapM f = some l') : ∀ y ∈ l', ∃ x ∈ l, f x = some y := by
  induction l generalizing l' with
  | nil =>
      obtain rfl := Option.some.inj ok
      simp
  | cons x rest ih =>
      obtain ⟨first, others, made, more, rfl⟩ := mapM_cons_eq_some_iff.1 ok
      intro y member
      rcases List.mem_cons.1 member with rfl | later
      · exact ⟨x, List.mem_cons_self, made⟩
      · obtain ⟨z, inside, made⟩ := ih more y later
        exact ⟨z, List.mem_cons_of_mem _ inside, made⟩

theorem Json.arr?_eq_some_iff {j : Json} {items : List Json} :
    j.arr? = some items ↔ j = .arr items := by
  cases j <;> simp [arr?]

theorem Value.type_of_ofJson? {type : ValueType} {j : Json} {v : Value}
    (ok : Value.ofJson? type j = some v) : v.type = type := by
  cases type with
  | scalar t =>
      obtain ⟨x, -, rfl⟩ := Option.map_eq_some_iff.1 ok
      rfl
  | list t =>
      obtain ⟨items, -, ok⟩ := Option.bind_eq_some_iff.1 ok
      obtain ⟨xs, -, rfl⟩ := Option.map_eq_some_iff.1 ok
      rfl

/-- What a document of bounded integers stands for has the type that it was read for and is
finite. -/
theorem Value.ofJson?_fits {type : ValueType} {j : Json} {v : Value} (h : j.Bounded)
    (ok : Value.ofJson? type j = some v) : v.type = type ∧ v.isFinite = true := by
  refine ⟨type_of_ofJson? ok, ?_⟩
  cases type with
  | scalar t =>
      obtain ⟨x, read, rfl⟩ := Option.map_eq_some_iff.1 ok
      exact ScalarType.isFinite_decode h read
  | list t =>
      obtain ⟨items, array, ok⟩ := Option.bind_eq_some_iff.1 ok
      obtain ⟨xs, read, rfl⟩ := Option.map_eq_some_iff.1 ok
      obtain rfl := Json.arr?_eq_some_iff.1 array
      refine List.all_eq_true.2 fun x member => ?_
      obtain ⟨item, inside, made⟩ := mem_of_mapM read x member
      cases h with
      | arr items all => exact ScalarType.isFinite_decode (all item inside) made

/-- A value of type `int` stands for an integer that is given as such. -/
theorem Value.ofJson?_int {j : Json} {v : Value} (ok : Value.ofJson? (.scalar .int) j = some v) :
    ∃ n : Int32, j = .int n.toInt ∧ v = .int n := by
  obtain ⟨n, read, rfl⟩ := Option.map_eq_some_iff.1 ok
  obtain ⟨m, found, fits⟩ := Option.bind_eq_some_iff.1 read
  refine ⟨n, ?_, rfl⟩
  cases j with
  | int k =>
      simp only [Json.int64?] at found
      split at found
      · obtain rfl := Option.some.inj found
        rw [Text.toInt_of_int32? fits]
      · contradiction
  | null | bool | float | str | arr | obj => contradiction

end FleetStore
