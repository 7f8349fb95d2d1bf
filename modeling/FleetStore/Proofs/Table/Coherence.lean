import FleetStore.Proofs.Table.Arrangement
import Mathlib.Algebra.Order.Field.Rat
import Mathlib.Algebra.Order.Ring.Cast
import Mathlib.Data.List.Lex
import Mathlib.Data.String.Basic
import Mathlib.Order.Compare

/-! # Comparisons that fit together

The six comparisons of a condition are all read off one order of the field and the value, which
may be undefined. So each of them can be told from the others, whatever the field holds. Where the
field was written from a value of the type that it is compared with, the order is defined, and it
is that of the values themselves: texts go by their code points, integers and doubles by the
numbers that they are.
-/

namespace FleetStore

/-! ## How values stand to each other -/

/-- The number that a double is. -/
def FiniteDouble.value (x : FiniteDouble) : ℚ :=
  (if x.negative then -1 else 1) * x.significand * 2 ^ ((x.shift : ℤ) - 1074)

theorem FiniteDouble.value_eq (x : FiniteDouble) : x.value = x.units * 2 ^ (-1074 : ℤ) := by
  have scaled : (2 : ℚ) ^ ((x.shift : ℤ) - 1074) = 2 ^ x.shift * 2 ^ (-1074 : ℤ) := by
    rw [Int.sub_eq_add_neg, zpow_add₀ (by decide), zpow_natCast]
  have magnitude : (x.magnitude : ℚ) = x.significand * 2 ^ x.shift := by
    rw [FiniteDouble.magnitude, Nat.cast_mul]
    exact congrArg _ (Nat.cast_pow 2 x.shift)
  unfold value units
  rw [scaled]
  cases x.negative <;> simp [magnitude, mul_assoc]

theorem FiniteDouble.order_compares (x y : FiniteDouble) : (x.order y).Compares x.value y.value := by
  have unit : (0 : ℚ) < 2 ^ (-1074 : ℤ) := zpow_pos (by decide) _
  have monotone : StrictMono fun n : ℤ => (n : ℚ) * 2 ^ (-1074 : ℤ) := fun m n less =>
    mul_lt_mul_of_pos_right (Int.cast_lt.2 less) unit
  rw [value_eq, value_eq]
  exact monotone.compares.2 ((compare_iff x.units y.units).1 rfl)

def codePoints (s : String) : List Nat :=
  s.toList.map Char.toNat

theorem compare_compares (s t : String) : (compare s t).Compares (codePoints s) (codePoints t) := by
  have monotone : StrictMono codePoints := fun s t less =>
    (lt_iff_codePoints s.toList t.toList).1 (String.lt_iff.1 less)
  exact monotone.compares.2 ((compare_iff s t).1 rfl)

theorem Json.order?_int {m n : Int} (small : FitsSigned 63 m) (small' : FitsSigned 63 n) :
    (Json.int m).order? (.int n) = some (compare m n) := by
  simp [order?, int64?, small, small']

/-- A text ties with no document but itself. -/
theorem Json.order?_str (j : Json) (text : String) :
    (j.order? (.str text) == some .eq) = (j == .str text) := by
  cases j with
  | str s =>
      have equal : (some (compare s text) == some .eq) = true ↔ (s == text) = true := by simp
      exact Bool.eq_iff_iff.2 equal
  | int n =>
      by_cases small : FitsSigned 63 n <;> simp [order?, int64?, double?, small] <;> rfl
  | _ => rfl

namespace Value

/-- One value stands in an order to another one of its type. -/
inductive Stands (o : Ordering) : Value → Value → Prop
  | string {s t : String} (h : o.Compares (codePoints s) (codePoints t)) :
      Stands o (.string s) (.string t)
  | int {m n : Int32} (h : o.Compares m.toInt n.toInt) : Stands o (.int m) (.int n)
  | long {m n : Int64} (h : o.Compares m.toInt n.toInt) : Stands o (.long m) (.long n)
  | double {x y : FiniteDouble} (h : o.Compares x.value y.value) :
      Stands o (.double (.finite x)) (.double (.finite y))
  | boolean {a b : Bool} (h : o.Compares a b) : Stands o (.boolean a) (.boolean b)

/-- Two finite values of one ordered type stand in an order, and it is that of their documents. -/
theorem exists_stands {w v : Value} (same : w.type = v.type)
    (ordered : ∃ t ∈ ScalarType.ordered, v.type = .scalar t) (finite : w.isFinite = true)
    (finite' : v.isFinite = true) :
    ∃ o, Stands o w v ∧ w.toJson.order? v.toJson = some o := by
  have inside (n : Int32) : FitsSigned 63 n.toInt :=
    FitsSigned.widen ⟨Int32.le_toInt n, Int32.toInt_lt n⟩
  have inside' (n : Int64) : FitsSigned 63 n.toInt := ⟨Int64.le_toInt n, Int64.toInt_lt n⟩
  obtain ⟨t, known, type⟩ := ordered
  obtain ⟨t, y⟩ | ⟨_, _⟩ := v
  case list => cases type
  obtain ⟨t, x⟩ | ⟨_, _⟩ := w
  case list => cases same
  cases same
  cases type
  cases t with
  | string => exact ⟨_, .string (compare_compares x y), rfl⟩
  | int => exact ⟨_, .int ((compare_iff _ _).1 rfl), Json.order?_int (inside x) (inside y)⟩
  | long => exact ⟨_, .long ((compare_iff _ _).1 rfl), Json.order?_int (inside' x) (inside' y)⟩
  | double =>
      obtain _ | _ | x := x
      case nan | infinite => cases finite
      obtain _ | _ | y := y
      case nan | infinite => cases finite'
      exact ⟨_, .double (x.order_compares y), rfl⟩
  | boolean => exact ⟨_, .boolean ((compare_iff x y).1 rfl), rfl⟩
  | pojo => simp [ScalarType.ordered] at known

end Value

/-! ## The comparisons of a condition -/

namespace Comparison

/-- The comparisons that exclude each other. -/
def strict : List Comparison :=
  [.less, .equal, .greater]

/-- The one among them that holds of two things in an order. -/
def ofOrdering : Ordering → Comparison
  | .lt => .less
  | .eq => .equal
  | .gt => .greater

theorem holds_iff {op : Comparison} (known : op ∈ strict) (o : Ordering) :
    op.holds o = true ↔ op = ofOrdering o := by
  simp only [strict, List.mem_cons, List.not_mem_nil, or_false] at known
  rcases known with rfl | rfl | rfl <;> cases o <;> decide

end Comparison

namespace Expression

/-- The laws of the comparisons of a field of a record with a value. -/
structure Coherent (r : Record) (key : Key) (v : Value) : Prop where
  notEqual : (compare key .notEqual v).holds r = true ↔ ¬(compare key .equal v).holds r = true
  lessEqual : (compare key .lessEqual v).holds r = true ↔
    (compare key .less v).holds r = true ∨ (compare key .equal v).holds r = true
  greaterEqual : (compare key .greaterEqual v).holds r = true ↔
    (compare key .greater v).holds r = true ∨ (compare key .equal v).holds r = true
  /-- At most one of three comparisons holds. -/
  exclusive : ∀ op ∈ Comparison.strict, ∀ op' ∈ Comparison.strict,
    (compare key op v).holds r = true → (compare key op' v).holds r = true → op = op'
  /-- To be one of several values is to equal one of them. -/
  member : ∀ t xs, v = .list t xs → ((member key v).holds r = true ↔
    ∃ x ∈ xs, (compare key .equal (.scalar t x)).holds r = true)
  /-- What was written from a value is compared as that value is, and exactly one of the three
  comparisons holds. -/
  written : ∀ w, r.get? key.name = some w.toJson → w.type = v.type →
    (∃ t ∈ ScalarType.ordered, v.type = .scalar t) → w.isFinite = true → v.isFinite = true →
    ∃ o, Value.Stands o w v ∧ ∀ op ∈ Comparison.strict,
      ((compare key op v).holds r = true ↔ op = Comparison.ofOrdering o)

variable (r : Record) (key : Key) (v : Value)

/-- How the field of a record stands to a value, if they are comparable. -/
def standing : Option Ordering :=
  (r.get? key.name).bind fun j => j.order? v.toJson

theorem holds_compare (op : Comparison) :
    (compare key op v).holds r =
      match standing r key v with
      | some o => op.holds o
      | none => op == .notEqual := rfl

theorem holds_equal : (compare key .equal v).holds r = (standing r key v == some .eq) := by
  rw [holds_compare]
  cases standing r key v <;> rfl

theorem holds_text (text : String) :
    (compare key .equal (.string text)).holds r =
      (r.get? key.name).any fun j => j == .str text := by
  rw [holds_equal, standing]
  cases r.get? key.name with
  | none => rfl
  | some j => exact j.order?_str text

theorem holds_member (t : ScalarType) (xs : List t.Carrier) :
    (member key (.list t xs)).holds r =
      xs.any fun x => (compare key .equal (.scalar t x)).holds r := by
  simp only [holds_equal]
  show memberHolds (r.get? key.name) (.arr (xs.map t.encode)) = _
  unfold memberHolds standing
  cases r.get? key.name with
  | none => simp
  | some j => exact List.any_map

theorem holds_of_strict {op : Comparison} (known : op ∈ Comparison.strict) :
    (compare key op v).holds r = true ↔
      ∃ o, standing r key v = some o ∧ op = Comparison.ofOrdering o := by
  rw [holds_compare]
  cases standing r key v with
  | none =>
      have other : op ≠ .notEqual := by rintro rfl; contradiction
      simp [other]
  | some o => simp [Comparison.holds_iff known]

/-- Whatever the fields of a record hold, the comparisons of a field with a value fit together. -/
theorem comparisons_coherent : Coherent r key v where
  notEqual := by
    simp only [holds_compare]
    cases standing r key v with
    | none => decide
    | some o => cases o <;> decide
  lessEqual := by
    simp only [holds_compare]
    cases standing r key v with
    | none => decide
    | some o => cases o <;> decide
  greaterEqual := by
    simp only [holds_compare]
    cases standing r key v with
    | none => decide
    | some o => cases o <;> decide
  exclusive op known op' known' first second := by
    obtain ⟨o, stands, rfl⟩ := (holds_of_strict r key v known).1 first
    obtain ⟨o', stands', rfl⟩ := (holds_of_strict r key v known').1 second
    rw [Option.some.inj (stands.symm.trans stands')]
  member t xs same := by
    subst same
    rw [holds_member, List.any_eq_true]
  written w found same ordered finite finite' := by
    obtain ⟨o, stands, documents⟩ := Value.exists_stands same ordered finite finite'
    have defined : standing r key v = some o := by rw [standing, found]; exact documents
    refine ⟨o, stands, fun op known => ?_⟩
    rw [holds_of_strict r key v known, defined]
    simp

/-- Two integers of 64 bits whose nearest doubles are one are told apart. -/
theorem coherent_of_nearest_double :
    (compare Key.timeStamp .greater (.long 9007199254740992)).holds
        ((∅ : Record).insert "timeStamp" (.int 9007199254740993)) = true ∧
      ¬(compare Key.timeStamp .equal (.long 9007199254740992)).holds
        ((∅ : Record).insert "timeStamp" (.int 9007199254740993)) = true := by
  have laws := comparisons_coherent ((∅ : Record).insert "timeStamp" (.int 9007199254740993))
    Key.timeStamp (.long 9007199254740992)
  obtain ⟨o, stands, only⟩ := laws.written (.long 9007199254740993) rfl rfl
    ⟨.long, by decide, rfl⟩ rfl rfl
  have above : Ordering.gt.Compares (9007199254740993 : Int) 9007199254740992 := by
    show (9007199254740992 : Int) < 9007199254740993
    decide
  obtain rfl : o = .gt := by
    cases stands with
    | long order => exact order.inj above
  exact ⟨(only .greater (by decide)).2 rfl, fun equal => nomatch (only .equal (by decide)).1 equal⟩

end Expression

end FleetStore
