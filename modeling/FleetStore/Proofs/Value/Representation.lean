import FleetStore.Value.Document

/-! # Documents that stand for values

Which documents a field of a type may hold, told without a value: integers in the
range of the type, finite numbers, texts, truth values, and arrays of these. They
are exactly the documents of the finite values of the type, so `null` stands for
nothing but a pojo: it is what a NaN or an infinity would leave behind.
-/

namespace FleetStore

theorem FitsSigned.widen {n : Int} (h : FitsSigned 31 n) : FitsSigned 63 n :=
  ⟨Int.le_trans (by decide) h.1, Int.lt_trans h.2 (by decide)⟩

/-- An integer is read as it stands, if it has 64 bits. -/
theorem Json.int64?_eq_some_iff {j : Json} {n : Int} :
    j.int64? = some n ↔ FitsSigned 63 n ∧ j = .int n := by
  cases j with
  | int k =>
      simp only [int64?, Option.ite_none_right_eq_some, Option.some.injEq, int.injEq]
      constructor
      · rintro ⟨inside, rfl⟩
        exact ⟨inside, rfl⟩
      · rintro ⟨inside, rfl⟩
        exact ⟨inside, rfl⟩
  | null | bool | float | str | arr | obj => simp [int64?]

/-- The documents of single values. A pojo is any document. -/
def ScalarType.Represents : ScalarType → Json → Prop
  | .string, j => ∃ text, j = .str text
  | .int, j => ∃ n, FitsSigned 31 n ∧ j = .int n
  | .long, j => ∃ n, FitsSigned 63 n ∧ j = .int n
  | .double, j => ∃ x, j = .float x
  | .boolean, j => ∃ b, j = .bool b
  | .pojo, _ => True

def ValueType.Represents : ValueType → Json → Prop
  | .scalar t, j => t.Represents j
  | .list t, j => ∃ items, j = .arr items ∧ ∀ item ∈ items, t.Represents item

theorem ScalarType.represents_encode {t : ScalarType} {x : t.Carrier} (finite : t.isFinite x = true) :
    t.Represents (t.encode x) := by
  cases t with
  | string => exact ⟨x, rfl⟩
  | int => exact ⟨Int32.toInt x, ⟨Int32.le_toInt x, Int32.toInt_lt x⟩, rfl⟩
  | long => exact ⟨Int64.toInt x, ⟨Int64.le_toInt x, Int64.toInt_lt x⟩, rfl⟩
  | double =>
      cases x with
      | nan | infinite => contradiction
      | finite x => exact ⟨x, rfl⟩
  | boolean => exact ⟨x, rfl⟩
  | pojo => trivial

theorem ScalarType.exists_encode {t : ScalarType} {j : Json} (h : t.Represents j) :
    ∃ x : t.Carrier, t.isFinite x = true ∧ t.encode x = j := by
  cases t with
  | string => exact h.imp fun text same => ⟨rfl, same.symm⟩
  | int =>
      obtain ⟨n, inside, rfl⟩ := h
      exact ⟨Int32.ofInt n, rfl, congrArg Json.int (Int32.toInt_ofInt_of_le inside.1 inside.2)⟩
  | long =>
      obtain ⟨n, inside, rfl⟩ := h
      exact ⟨Int64.ofInt n, rfl, congrArg Json.int (Int64.toInt_ofInt_of_le inside.1 inside.2)⟩
  | double =>
      obtain ⟨x, rfl⟩ := h
      exact ⟨.finite x, rfl, rfl⟩
  | boolean => exact h.imp fun b same => ⟨rfl, same.symm⟩
  | pojo => exact ⟨j, rfl, rfl⟩

theorem ScalarType.exists_encodes {t : ScalarType} {items : List Json}
    (all : ∀ item ∈ items, t.Represents item) :
    ∃ xs : List t.Carrier, xs.all t.isFinite = true ∧ xs.map t.encode = items := by
  induction items with
  | nil => exact ⟨[], rfl, rfl⟩
  | cons item rest ih =>
      obtain ⟨x, finite, same⟩ := exists_encode (all item List.mem_cons_self)
      obtain ⟨xs, finites, sames⟩ := ih fun j member => all j (List.mem_cons_of_mem _ member)
      exact ⟨x :: xs, by simp [finite, finites], by simp [same, sames]⟩

theorem Value.represents_toJson {v : Value} (finite : v.isFinite = true) :
    v.type.Represents v.toJson := by
  cases v with
  | scalar t x => exact ScalarType.represents_encode finite
  | list t xs =>
      refine ⟨_, rfl, fun item member => ?_⟩
      obtain ⟨x, inside, rfl⟩ := List.mem_map.1 member
      exact ScalarType.represents_encode (List.all_eq_true.1 finite x inside)

/-- A document stands for a value of a type exactly if it is the document of a finite one. -/
theorem ValueType.represents_iff {type : ValueType} {j : Json} :
    type.Represents j ↔ ∃ v : Value, v.type = type ∧ v.isFinite = true ∧ v.toJson = j := by
  constructor
  · intro h
    cases type with
    | scalar t =>
        obtain ⟨x, finite, same⟩ := ScalarType.exists_encode h
        exact ⟨.scalar t x, rfl, finite, same⟩
    | list t =>
        obtain ⟨items, rfl, all⟩ := h
        obtain ⟨xs, finite, same⟩ := ScalarType.exists_encodes all
        exact ⟨.list t xs, rfl, finite, congrArg Json.arr same⟩
  · rintro ⟨v, rfl, finite, rfl⟩
    exact v.represents_toJson finite

end FleetStore
