import FleetStore.Proofs.Value.Representation
import FleetStore.Proofs.Value.Width

/-! # Values and their documents

A value is found again from its document, unless it holds a number that is not finite, which its
document does not tell, or a pojo that is not an object, which is not taken back. The other
way round, a document that is taken for a value is the document of this value and nothing
near it: integers out of range and numbers with a point are refused for integers. Only
doubles are also taken from integers.
-/

namespace FleetStore

/-! ## Scalars -/

namespace ScalarType

/-- Whether a scalar is one of the pojos that are taken back. -/
def isTakenBack : (t : ScalarType) → t.Carrier → Bool
  | .pojo, j =>
      match j with
      | .obj _ => true
      | _ => false
  | _, _ => true

/-- The documents that are taken for scalars of a type: any number for a double, an object for a
pojo, and otherwise what stands for a scalar. -/
def Takes : ScalarType → Json → Prop
  | .double, j => (∃ n, j = .int n) ∨ ∃ x, j = .float x
  | .pojo, j => ∃ members, j = .obj members
  | t, j => t.Represents j

variable {t : ScalarType} {j : Json}

theorem decode?_encode (t : ScalarType) (x : t.Carrier) :
    t.decode? (t.encode x) = if t.isFinite x && t.isTakenBack x then some x else none := by
  cases t with
  | string | boolean => rfl
  | int =>
      have inside : FitsSigned 63 (Int32.toInt x) :=
        FitsSigned.widen ⟨Int32.le_toInt x, Int32.toInt_lt x⟩
      simp [decode?, encode, Json.int64?, inside, isFinite, isTakenBack]
  | long =>
      have inside : FitsSigned 63 (Int64.toInt x) := ⟨Int64.le_toInt x, Int64.toInt_lt x⟩
      simp [decode?, encode, Json.int64?, inside, isFinite, isTakenBack]
  | double => cases x <;> rfl
  | pojo => cases x <;> rfl

/-- Nothing but a double is taken from a document that is not its own. -/
theorem encode_of_decode? {x : t.Carrier} (ok : t.decode? j = some x) (exact : t ≠ .double) :
    t.encode x = j := by
  cases t with
  | string =>
      cases j with
      | str s => exact congrArg Json.str (Option.some.inj ok).symm
      | null | bool | int | float | arr | obj => contradiction
  | int =>
      obtain ⟨n, found, fits⟩ := Option.bind_eq_some_iff.1 ok
      obtain ⟨-, rfl⟩ := Json.int64?_eq_some_iff.1 found
      exact congrArg Json.int (Text.toInt_of_int32? fits)
  | long =>
      obtain ⟨n, found, fits⟩ := Option.bind_eq_some_iff.1 ok
      obtain ⟨-, rfl⟩ := Json.int64?_eq_some_iff.1 found
      exact congrArg Json.int (Text.toInt_of_int64? fits)
  | double => contradiction
  | boolean =>
      cases j with
      | bool b => exact congrArg Json.bool (Option.some.inj ok).symm
      | null | int | float | str | arr | obj => contradiction
  | pojo =>
      cases j with
      | obj members => exact (Option.some.inj ok).symm
      | null | bool | int | float | str | arr => contradiction

/-- Where every scalar is finite and taken back, what is taken is what stands for a scalar. -/
theorem exists_decode?_iff_represents (exact : t ≠ .double) (plain : t ≠ .pojo) :
    (∃ x, t.decode? j = some x) ↔ t.Represents j := by
  have sound (x : t.Carrier) : t.isFinite x = true ∧ t.isTakenBack x = true := by
    cases t with
    | string | int | long | boolean => exact ⟨rfl, rfl⟩
    | double | pojo => contradiction
  constructor
  · rintro ⟨x, ok⟩
    rw [← encode_of_decode? ok exact]
    exact represents_encode (sound x).1
  · intro h
    obtain ⟨x, -, rfl⟩ := exists_encode h
    refine ⟨x, ?_⟩
    rw [decode?_encode, (sound x).1, (sound x).2]
    rfl

theorem exists_decode?_iff : (∃ x, t.decode? j = some x) ↔ t.Takes j := by
  cases t with
  | double => cases j <;> simp [decode?, Json.double?, Takes]
  | pojo => cases j <;> simp [decode?, Takes]
  | string | int | long | boolean =>
      exact exists_decode?_iff_represents (by decide) (by decide)

/-! ## Lists -/

theorem mapM_decode?_encode (t : ScalarType) (xs : List t.Carrier) :
    (xs.map t.encode).mapM t.decode? =
      if xs.all t.isFinite && xs.all t.isTakenBack then some xs else none := by
  induction xs with
  | nil => rfl
  | cons x rest ih =>
      rw [List.map_cons, List.mapM_cons, decode?_encode, ih, List.all_cons, List.all_cons]
      cases t.isFinite x <;> cases t.isTakenBack x <;> cases rest.all t.isFinite <;>
        cases rest.all t.isTakenBack <;> rfl

theorem map_encode_of_mapM {items : List Json} {xs : List t.Carrier}
    (ok : items.mapM t.decode? = some xs) (exact : t ≠ .double) : xs.map t.encode = items := by
  induction items generalizing xs with
  | nil =>
      obtain rfl := Option.some.inj ok
      rfl
  | cons item rest ih =>
      obtain ⟨x, more, first, others, rfl⟩ := mapM_cons_eq_some_iff.1 ok
      rw [List.map_cons, encode_of_decode? first exact, ih others]

/-- One item that is not taken is enough to refuse a list. -/
theorem exists_mapM_iff {items : List Json} :
    (∃ xs, items.mapM t.decode? = some xs) ↔ ∀ item ∈ items, t.Takes item := by
  induction items with
  | nil => simp
  | cons item rest ih =>
      rw [List.forall_mem_cons, ← ih, ← exists_decode?_iff]
      constructor
      · rintro ⟨_, ok⟩
        obtain ⟨x, more, first, others, -⟩ := mapM_cons_eq_some_iff.1 ok
        exact ⟨⟨x, first⟩, more, others⟩
      · rintro ⟨⟨x, first⟩, more, others⟩
        exact ⟨x :: more, mapM_cons_eq_some_iff.2 ⟨x, more, first, others, rfl⟩⟩

end ScalarType

/-! ## Values -/

namespace ValueType

/-- The type of the scalars that values of a type are made of. -/
def item : ValueType → ScalarType
  | .scalar t => t
  | .list t => t

/-- The documents that are taken for values of a type: for a list, an array of which every item
is taken. -/
def Takes : ValueType → Json → Prop
  | .scalar t, j => t.Takes j
  | .list t, j => ∃ items, j = .arr items ∧ ∀ item ∈ items, t.Takes item

end ValueType

namespace Value

/-- Whether a value holds no pojo but such as are taken back. -/
def isTakenBack : Value → Bool
  | .scalar t x => t.isTakenBack x
  | .list t xs => xs.all t.isTakenBack

theorem ofJson?_toJson (v : Value) :
    ofJson? v.type v.toJson = if v.isFinite && v.isTakenBack then some v else none := by
  cases v with
  | scalar t x =>
      show (t.decode? (t.encode x)).map (scalar t) = _
      rw [t.decode?_encode, apply_ite (Option.map (scalar t))]
      rfl
  | list t xs =>
      show ((xs.map t.encode).mapM t.decode?).map (list t) = _
      rw [t.mapM_decode?_encode, apply_ite (Option.map (list t))]
      rfl

theorem toJson_of_ofJson? {type : ValueType} {j : Json} {v : Value}
    (ok : ofJson? type j = some v) (exact : type.item ≠ .double) : v.toJson = j := by
  cases type with
  | scalar t =>
      obtain ⟨x, read, rfl⟩ := Option.map_eq_some_iff.1 ok
      exact ScalarType.encode_of_decode? read exact
  | list t =>
      obtain ⟨items, array, ok⟩ := Option.bind_eq_some_iff.1 ok
      obtain ⟨xs, read, rfl⟩ := Option.map_eq_some_iff.1 ok
      obtain rfl := Json.arr?_eq_some_iff.1 array
      exact congrArg Json.arr (ScalarType.map_encode_of_mapM read exact)

theorem exists_ofJson?_iff {type : ValueType} {j : Json} :
    (∃ v, ofJson? type j = some v) ↔ type.Takes j := by
  cases type with
  | scalar t =>
      simp only [ValueType.Takes, ← ScalarType.exists_decode?_iff, ofJson?, Option.map_eq_some_iff]
      constructor
      · rintro ⟨_, x, read, -⟩
        exact ⟨x, read⟩
      · rintro ⟨x, read⟩
        exact ⟨_, x, read, rfl⟩
  | list t =>
      simp only [ValueType.Takes, ← ScalarType.exists_mapM_iff, ofJson?, Option.bind_eq_some_iff,
        Option.map_eq_some_iff, Json.arr?_eq_some_iff]
      constructor
      · rintro ⟨_, items, array, xs, read, -⟩
        exact ⟨items, array, xs, read⟩
      · rintro ⟨items, array, xs, read⟩
        exact ⟨_, items, array, xs, read, rfl⟩

/-- A value is found again from its document exactly if it is finite and every pojo in it is an
object. What a document is taken for has the type that was asked for, is finite if integers have
64 bits, and has this very document, unless it is made of doubles. A document is refused
exactly if it, or one item of it for a list, does not stand for a scalar of the type. -/
theorem found_again_iff :
    (∀ v : Value, ofJson? v.type v.toJson =
      if v.isFinite && v.isTakenBack then some v else none) ∧
    ∀ (type : ValueType) (j : Json),
      ((∃ v, ofJson? type j = some v) ↔ type.Takes j) ∧
      ∀ v, ofJson? type j = some v → v.type = type ∧ (j.Bounded → v.isFinite = true) ∧
        (type.item ≠ .double → v.toJson = j) := by
  refine ⟨ofJson?_toJson, fun type j => ⟨exists_ofJson?_iff, fun v ok => ?_⟩⟩
  exact ⟨type_of_ofJson? ok, fun bounded => (ofJson?_fits bounded ok).2, toJson_of_ofJson? ok⟩

/-- The greatest integer of 32 bits is found again in a list, and the next one in the middle of a list
is enough to refuse it. The greatest integer of all documents is taken for a finite double. -/
theorem greatest_integers_are_found :
    ofJson? (.list .int) (.arr [.int 1, .int 2147483647]) = some (.list .int [1, 2147483647]) ∧
      (list .int [1, 2147483647]).toJson = .arr [.int 1, .int 2147483647] ∧
      ofJson? (.list .int) (.arr [.int 1, .int 2147483648, .int 2]) = none ∧
      ∃ v, ofJson? (.scalar .double) (.int 18446744073709551615) = some v ∧ v.isFinite = true := by
  obtain ⟨found, taken⟩ := found_again_iff
  have kept : ofJson? (.list .int) (.arr [.int 1, .int 2147483647]) =
      some (.list .int [1, 2147483647]) := found (.list .int [1, 2147483647])
  refine ⟨kept, ((taken _ _).2 _ kept).2.2 (by decide), ?_, ?_⟩
  · rw [Option.eq_none_iff_forall_ne_some]
    intro v ok
    obtain ⟨items, array, all⟩ := (taken _ _).1.1 ⟨v, ok⟩
    obtain rfl := Json.arr.inj array
    obtain ⟨n, inside, same⟩ := all (.int 2147483648) (by simp)
    obtain rfl := Json.int.inj same
    exact absurd inside (by decide)
  · obtain ⟨v, ok⟩ := (taken (.scalar .double) (.int 18446744073709551615)).1.2 (.inl ⟨_, rfl⟩)
    exact ⟨v, ok, ((taken _ _).2 v ok).2.1 (.int _ (.inr (by decide)))⟩

end Value

end FleetStore
