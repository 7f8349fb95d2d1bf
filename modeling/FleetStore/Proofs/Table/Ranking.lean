import FleetStore.Proofs.Value.Representation
import FleetStore.Table.Sort

/-! # Sort keys that rank records

To swap two records reverses their order, whatever documents they hold. That there are no
circles takes more: texts, truth values, integers of 64 bits and floating point numbers are
each ranked among themselves, and arrays all tie, and so do objects, but documents of
different kinds tie as well, and a number may tie with two that differ. Records are ranked
if their fields are, by however many keys and in whichever directions.
-/

namespace FleetStore

open Std

instance : TransCmp FiniteDouble.order :=
  inferInstanceAs (TransCmp (compareOn FiniteDouble.units))

/-! ## Documents -/

namespace Json

/-- How documents are sorted: those that cannot be compared tie. -/
def rank (i j : Json) : Ordering :=
  (i.order? j).getD .eq

theorem orderDoubles_swap (x y : Double) :
    (orderDoubles x y).getD .eq = ((orderDoubles y x).getD .eq).swap := by
  cases x <;> cases y
  case finite.finite x y =>
    show x.order y = (y.order x).swap
    exact OrientedCmp.eq_swap
  case infinite.infinite a b => cases a <;> cases b <;> rfl
  case infinite.finite a y => cases a <;> rfl
  case finite.infinite x b => cases b <;> rfl
  all_goals rfl

/-- To swap two documents reverses how they are sorted. -/
theorem rank_swap (i j : Json) : i.rank j = (j.rank i).swap := by
  have ties (same : Bool) : (if same then some Ordering.eq else none).getD .eq = .eq := by
    cases same <;> rfl
  unfold rank
  by_cases texts : ∃ s t, i = .str s ∧ j = .str t
  · obtain ⟨s, t, rfl, rfl⟩ := texts
    show compare s t = (compare t s).swap
    exact OrientedCmp.eq_swap
  by_cases truths : ∃ s t, i = .bool s ∧ j = .bool t
  · obtain ⟨s, t, rfl, rfl⟩ := truths
    show compare s t = (compare t s).swap
    exact OrientedCmp.eq_swap
  rw [order?.eq_3 i j (fun s t h h' => texts ⟨s, t, h, h'⟩) (fun s t h h' => truths ⟨s, t, h, h'⟩),
    order?.eq_3 j i (fun s t h h' => texts ⟨t, s, h', h⟩) (fun s t h h' => truths ⟨t, s, h', h⟩)]
  -- Unless both are integers of 64 bits they go by their doubles, if they have any.
  cases i.int64? <;> cases j.int64?
  case some.some m n =>
    show compare m n = (compare n m).swap
    exact OrientedCmp.eq_swap
  all_goals
    cases i.double? <;> cases j.double?
    case some.some x y => exact orderDoubles_swap x y
    all_goals simp only [ties, Ordering.swap_eq]

theorem rank_int {m n : Int} (small : FitsSigned 63 m) (small' : FitsSigned 63 n) :
    (Json.int m).rank (.int n) = compare m n := by
  simp [rank, order?, int64?, small, small']

theorem rank_float (x y : FiniteDouble) : (Json.float x).rank (.float y) = x.order y := rfl

theorem rank_str (s t : String) : (Json.str s).rank (.str t) = compare s t := rfl

theorem rank_bool (s t : Bool) : (Json.bool s).rank (.bool t) = compare s t := rfl

theorem rank_arr (is js : List Json) : (Json.arr is).rank (.arr js) = .eq := by
  unfold rank order?
  by_cases same : Json.arr is == .arr js <;> simp [int64?, double?, same]

theorem rank_obj (ms ns : List (String × Json)) : (Json.obj ms).rank (.obj ns) = .eq := by
  unfold rank order?
  by_cases same : Json.obj ms == .obj ns <;> simp [int64?, double?, same]

/-- Documents are ranked if they are written for things that are. -/
theorem rank_of_image {D : Json → Prop} {κ : Type} (encode : κ → Json) (cmp : κ → κ → Ordering)
    [TransCmp cmp] (onto : ∀ j, D j → ∃ x, encode x = j)
    (same : ∀ x y, D (encode x) → D (encode y) → (encode x).rank (encode y) = cmp x y) :
    TransCmp fun i j : Subtype D => i.1.rank j.1 where
  eq_swap := rank_swap _ _
  isLE_trans {i j k} := by
    obtain ⟨i, there⟩ := i
    obtain ⟨j, there'⟩ := j
    obtain ⟨k, there''⟩ := k
    obtain ⟨x, rfl⟩ := onto i there
    obtain ⟨y, rfl⟩ := onto j there'
    obtain ⟨z, rfl⟩ := onto k there''
    simp only [same x y there there', same y z there' there'', same x z there there'']
    exact TransCmp.isLE_trans

end Json

/-- Integers of at most 64 bits are ranked. -/
theorem Json.rank_of_integers {D : Json → Prop}
    (small : ∀ j, D j → ∃ n, FitsSigned 63 n ∧ j = .int n) :
    TransCmp fun i j : Subtype D => i.1.rank j.1 := by
  refine rank_of_image Json.int compare (fun j h => (small j h).imp fun _ there => there.2.symm) ?_
  intro m n there there'
  obtain ⟨_, fits, same⟩ := small _ there
  obtain ⟨_, fits', same'⟩ := small _ there'
  obtain rfl := Json.int.inj same
  obtain rfl := Json.int.inj same'
  exact rank_int fits fits'

/-- A document stands for a value of a type, and if the type is that of pojos, it is an
object. -/
def ValueType.Sortable (type : ValueType) (j : Json) : Prop :=
  type.Represents j ∧ (type = .scalar .pojo → ∃ members, j = .obj members)

instance ValueType.ranked (type : ValueType) :
    TransCmp fun i j : Subtype type.Sortable => i.1.rank j.1 := by
  have ties {α : Type} : TransCmp fun _ _ : α => Ordering.eq :=
    { eq_swap := rfl, isLE_trans := fun _ _ => rfl }
  cases type with
  | list t =>
      exact Json.rank_of_image Json.arr (fun _ _ => .eq)
        (fun j h => h.1.imp fun _ there => there.1.symm) fun is js _ _ => Json.rank_arr is js
  | scalar t =>
      cases t with
      | string =>
          exact Json.rank_of_image Json.str compare (fun j h => h.1.imp fun _ => Eq.symm)
            fun s t _ _ => Json.rank_str s t
      | int =>
          exact Json.rank_of_integers fun j h => h.1.imp fun _ there => there.imp_left FitsSigned.widen
      | long =>
          exact Json.rank_of_integers fun j h => h.1
      | double =>
          exact Json.rank_of_image Json.float FiniteDouble.order
            (fun j h => h.1.imp fun _ => Eq.symm) fun x y _ _ => Json.rank_float x y
      | boolean =>
          exact Json.rank_of_image Json.bool compare (fun j h => h.1.imp fun _ => Eq.symm)
            fun s t _ _ => Json.rank_bool s t
      | pojo =>
          exact Json.rank_of_image Json.obj (fun _ _ => .eq)
            (fun j h => (h.2 rfl).imp fun _ => Eq.symm) fun ms ns _ _ => Json.rank_obj ms ns

/-! ## Fields -/

theorem orderFields_swap (o p : Option Json) : orderFields o p = (orderFields p o).swap := by
  cases o <;> cases p
  case some.some i j => exact Json.rank_swap i j
  all_goals rfl

/-- A missing field is below all others, which are ranked as their documents are. -/
instance orderFields_ranked (type : ValueType) :
    TransCmp fun o p : { o : Option Json // ∀ j, o = some j → type.Sortable j } =>
      orderFields o.1 p.1 where
  eq_swap := orderFields_swap _ _
  isLE_trans {o p q} below below' := by
    obtain ⟨_ | i, typed⟩ := o
    · obtain ⟨_ | k, -⟩ := q <;> rfl
    · obtain ⟨_ | j, typed'⟩ := p
      · contradiction
      · obtain ⟨_ | k, typed''⟩ := q
        · contradiction
        · exact type.ranked.isLE_trans (a := ⟨i, typed i rfl⟩) (b := ⟨j, typed' j rfl⟩)
            (c := ⟨k, typed'' k rfl⟩) below below'

/-! ## Records -/

namespace SortDirection

theorem apply_swap (direction : SortDirection) (o : Ordering) :
    direction.apply o.swap = (direction.apply o).swap := by
  cases direction <;> rfl

/-- Turning an order round leaves it transitive. -/
theorem apply_ranked {α : Type} (direction : SortDirection) (cmp : α → α → Ordering)
    [TransCmp cmp] : TransCmp fun a b => direction.apply (cmp a b) := by
  cases direction with
  | ascending => assumption
  | descending =>
      have same : (fun a b => SortDirection.descending.apply (cmp a b)) = fun a b => cmp b a := by
        funext a b
        exact OrientedCmp.eq_swap.symm
      rw [same]
      exact TransCmp.opposite

end SortDirection

theorem orderRecords_swap (a b : Record) (sort : List (Key × SortDirection)) :
    orderRecords a b sort = (orderRecords b a sort).swap := by
  induction sort with
  | nil => rfl
  | cons k rest ih =>
      rw [orderRecords, orderRecords, Ordering.swap_then, ← ih, ← SortDirection.apply_swap,
        ← orderFields_swap]

@[simp] theorem orderRecords_self (a : Record) (sort : List (Key × SortDirection)) :
    orderRecords a a sort = .eq := by
  have same := orderRecords_swap a a sort
  cases o : orderRecords a a sort <;> simp_all

theorem orderRecords_ranked {P : Record → Prop} {sort : List (Key × SortDirection)}
    (typed : ∀ k ∈ sort, ∃ type : ValueType, ∀ r, P r → ∀ j, r.get? k.1.name = some j →
      type.Sortable j) :
    TransCmp fun a b : Subtype P => orderRecords a.1 b.1 sort := by
  induction sort with
  | nil => exact { eq_swap := rfl, isLE_trans := fun _ _ => rfl }
  | cons k rest ih =>
      obtain ⟨type, first⟩ := typed k List.mem_cons_self
      let field (r : Subtype P) : { o : Option Json // ∀ j, o = some j → type.Sortable j } :=
        ⟨r.1.get? k.1.name, first r.1 r.2⟩
      have head : TransCmp fun a b : Subtype P =>
          orderFields (a.1.get? k.1.name) (b.1.get? k.1.name) :=
        { eq_swap := orderFields_swap _ _
          isLE_trans {a b c} :=
            (orderFields_ranked type).isLE_trans (a := field a) (b := field b) (c := field c) }
      have directed := k.2.apply_ranked fun a b : Subtype P =>
        orderFields (a.1.get? k.1.name) (b.1.get? k.1.name)
      have tail := ih fun k member => typed k (List.mem_cons_of_mem _ member)
      exact inferInstanceAs
        (TransCmp (compareLex _ fun a b : Subtype P => orderRecords a.1 b.1 rest))

/-- The order of records by sort keys is a total preorder on some records: each is equal to itself,
to swap two of them reverses the answer, and there are no circles. -/
structure Ranks (sort : List (Key × SortDirection)) (records : List Record) : Prop where
  same : ∀ a ∈ records, orderRecords a a sort = .eq
  swapped : ∀ a ∈ records, ∀ b ∈ records, orderRecords b a sort = (orderRecords a b sort).swap
  transitive : ∀ a ∈ records, ∀ b ∈ records, ∀ c ∈ records,
    orderRecords a b sort ≠ .gt → orderRecords b c sort ≠ .gt → orderRecords a c sort ≠ .gt

theorem Ranks.not_lt {sort : List (Key × SortDirection)} {records : List Record}
    (h : Ranks sort records) {a b c : Record} (known : a ∈ records) (known' : b ∈ records)
    (known'' : c ∈ records) (first : orderRecords a b sort ≠ .lt)
    (second : orderRecords b c sort ≠ .lt) : orderRecords a c sort ≠ .lt := by
  have turned := h.transitive c known'' b known' a known
  rw [h.swapped a known b known', h.swapped b known' c known'', h.swapped a known c known'']
    at turned
  simp only [ne_eq, Ordering.swap_eq_gt] at turned
  exact turned second first

/-- Sort keys rank the records in whose fields they find documents of one type each. -/
theorem ranks_of_sortable {sort : List (Key × SortDirection)} {records : List Record}
    (typed : ∀ k ∈ sort, ∃ type : ValueType, ∀ r ∈ records, ∀ j, r.get? k.1.name = some j →
      type.Sortable j) :
    Ranks sort records where
  same a _ := orderRecords_self a sort
  swapped a _ b _ := orderRecords_swap b a sort
  transitive a known b known' c known'' := by
    have ranked := (orderRecords_ranked (P := (· ∈ records)) typed).isLE_trans (a := ⟨a, known⟩)
      (b := ⟨b, known'⟩) (c := ⟨c, known''⟩)
    simpa only [Ordering.isLE_iff_ne_gt] using ranked

end FleetStore
