import FleetStore.Proofs.Language.Compile

/-! # Compiled statements are typed

What compiles is typed by the category and by the signature of the statement:
every term in the place of a key is a finite literal of the type of the key or
a parameter for which the signature has that type, and no parameter is beyond
the signature. A part of a statement is typed by the parameters up to its end,
and the ones that come after it alter nothing about that.
-/

namespace FleetStore.Descriptor

open Syntax

/-- A term stands for finite values of a type. -/
def Term.Fits (type : ValueType) (signature : List ValueType) : Descriptor.Term → Prop
  | .parameter index => signature[index]? = some type
  | .literal value => value.type = type ∧ value.isFinite = true

/-- A condition is about some of the keys and about terms that fit them. -/
def Condition.Fits (keys : List Key) (signature : List ValueType) : Condition → Prop
  | .compare key _ term => key ∈ keys ∧ term.Fits key.type signature
  | .member key term =>
      key ∈ keys ∧ ∃ type, key.type = .scalar type ∧ term.Fits (.list type) signature
  | .not e => e.Fits keys signature
  | .and l r => l.Fits keys signature ∧ r.Fits keys signature
  | .or l r => l.Fits keys signature ∧ r.Fits keys signature

def Limit.Fits (signature : List ValueType) : Limit → Prop
  | .fixed count => 0 < count
  | .parameter index => signature[index]? = some (.scalar .int)

/-- A statement that is typed by a category and by its own signature. -/
structure Compiled.Legal (c : Category) (r : Compiled) : Prop where
  category : r.category = c.name
  assignments : ∀ a ∈ r.assignments, a.1 ∈ c.keys ∧ a.2.Fits a.1.type r.signature
  condition : ∀ e, r.condition = some e → e.Fits c.keys r.signature
  sort : ∀ k ∈ r.sort, k.1 ∈ c.keys
  limit : ∀ l, r.limit = some l → l.Fits r.signature

/-- What parts of one kind mean is typed by the parameters up to the end of the part, and
it stays so when more parameters come after them. -/
structure Typed {α β : Type} (means : List ValueType → α → β → List ValueType → Prop)
    (fits : List ValueType → β → Prop) : Prop where
  grows : ∀ {before x y after}, means before x y after → before <+: after
  typed : ∀ {before x y after}, means before x y after → fits after y
  kept : ∀ {signature longer y}, signature <+: longer → fits signature y → fits longer y

variable {c : Category} {descriptor : String}

/-! ## Terms -/

theorem readFinite?_isFinite {word : String} {v : Value} (h : readFinite? word = some v) :
    v.isFinite = true := by
  obtain ⟨x, -, finite⟩ := Option.bind_eq_some_iff.1 h
  split at finite
  · next inside =>
      obtain rfl := Option.some.inj finite
      exact inside
  · contradiction

theorem literal?_isFinite {word : String} {v : Value} (h : literal? word = some v) :
    v.isFinite = true := by
  unfold literal? at h
  split at h
  · obtain rfl := Option.some.inj h; rfl
  · split at h
    · obtain rfl := Option.some.inj h; rfl
    · split at h
      · obtain ⟨n, -, rfl⟩ := Option.map_eq_some_iff.1 h; rfl
      · split at h
        · obtain rfl := Option.some.inj h; rfl
        · split at h
          · exact readFinite?_isFinite h
          · contradiction

theorem getElem?_prefix {signature longer : List ValueType} {index : Nat} {type : ValueType}
    (more : signature <+: longer) (h : signature[index]? = some type) :
    longer[index]? = some type := by
  obtain ⟨rest, rfl⟩ := more
  obtain ⟨inside, -⟩ := List.getElem?_eq_some_iff.1 h
  rw [List.getElem?_append_left inside, h]

theorem Term.Fits.grow {type : ValueType} {signature longer : List ValueType}
    {term : Descriptor.Term} (more : signature <+: longer) (h : term.Fits type signature) :
    term.Fits type longer := by
  cases term with
  | parameter index => exact getElem?_prefix more h
  | literal => exact h

theorem term_typed (type : ValueType) : Typed (Syntax.Term.Means type) (fun s t => t.Fits type s) where
  grows h := by
    cases h with
    | parameter => exact List.prefix_append _ _
    | quoted | word => exact List.prefix_refl _
  typed h := by
    cases h with
    | parameter => exact List.getElem?_concat_length
    | quoted text typed => exact ⟨typed.symm, rfl⟩
    | word text value stands typed => exact ⟨typed, literal?_isFinite stands⟩
  kept := Term.Fits.grow

/-! ## Lists and clauses -/

section

variable {α β : Type} {means : List ValueType → α → β → List ValueType → Prop}
variable {fits : List ValueType → β → Prop}

theorem Typed.each_grows (item : Typed means fits) {before after : List ValueType} {xs : List α}
    {ys : List β} (h : Each means before xs ys after) : before <+: after := by
  induction h with
  | nil => exact List.prefix_refl _
  | cons first _ ih => exact (item.grows first).trans ih

theorem Typed.each (item : Typed means fits) : Typed (Each means) (fun s ys => ∀ y ∈ ys, fits s y) where
  grows := item.each_grows
  typed h := by
    induction h with
    | nil => simp
    | cons first more ih =>
        intro y member
        rcases List.mem_cons.1 member with rfl | member
        · exact item.kept (item.each_grows more) (item.typed first)
        · exact ih y member
  kept more h y member := item.kept more (h y member)

theorem Typed.clause (item : Typed means fits) :
    Typed (ClauseMeans means) (fun s y => ∀ x, y = some x → fits s x) where
  grows h := by
    cases h with
    | none => exact List.prefix_refl _
    | some present => exact item.grows present
  typed h x same := by
    cases h with
    | none => contradiction
    | some present => exact Option.some.inj same ▸ item.typed present
  kept more h x same := item.kept more (h x same)

end

/-! ## Conditions -/

theorem Condition.Fits.grow {keys : List Key} {signature longer : List ValueType} {e : Condition}
    (more : signature <+: longer) (h : e.Fits keys signature) : e.Fits keys longer := by
  induction e with
  | compare key op term => exact ⟨h.1, h.2.grow more⟩
  | member key term =>
      obtain ⟨known, type, single, fits⟩ := h
      exact ⟨known, type, single, fits.grow more⟩
  | not e ih => exact ih h
  | and l r left right | or l r left right => exact ⟨left h.1, right h.2⟩

theorem mem_keys {name : String} {key : Key} (h : c.key? name = some key) : key ∈ c.keys :=
  List.mem_of_find?_eq_some h

theorem test_typed : Typed (Test.Means c) (fun s e => e.Fits c.keys s) where
  grows h := by
    induction h with
    | not _ ih => exact ih
    | compare _ _ typed => exact (term_typed _).grows typed
    | member => exact List.prefix_append _ _
  typed h := by
    induction h with
    | not _ ih => exact ih
    | compare known _ typed => exact ⟨mem_keys known, (term_typed _).typed typed⟩
    | member known single => exact ⟨mem_keys known, _, single, List.getElem?_concat_length⟩
  kept := Condition.Fits.grow

theorem conjunction_typed : Typed (Conjunction.Means c) (fun s e => e.Fits c.keys s) where
  grows h := by
    cases h with
    | intro all => exact test_typed.each.grows all
  typed h := by
    cases h with
    | intro all =>
        have fits := test_typed.each.typed all
        refine List.foldlRecOn _ _ (fits _ List.mem_cons_self) fun left joined right member => ?_
        exact ⟨joined, fits right (List.mem_cons_of_mem _ member)⟩
  kept := Condition.Fits.grow

theorem disjunction_typed : Typed (Disjunction.Means c) (fun s e => e.Fits c.keys s) where
  grows h := by
    cases h with
    | intro all => exact conjunction_typed.each.grows all
  typed h := by
    cases h with
    | intro all =>
        have fits := conjunction_typed.each.typed all
        refine List.foldlRecOn _ _ (fits _ List.mem_cons_self) fun left joined right member => ?_
        exact ⟨joined, fits right (List.mem_cons_of_mem _ member)⟩
  kept := Condition.Fits.grow

/-! ## The other clauses -/

theorem assignment_typed :
    Typed (Assignment.Means c) (fun s a => a.1 ∈ c.keys ∧ a.2.Fits a.1.type s) where
  grows h := by
    cases h with
    | intro _ typed => exact (term_typed _).grows typed
  typed h := by
    cases h with
    | intro known typed => exact ⟨mem_keys known, (term_typed _).typed typed⟩
  kept more h := ⟨h.1, h.2.grow more⟩

theorem assignments_typed :
    Typed (AssignmentsMean c) (fun s l => ∀ a ∈ l, a.1 ∈ c.keys ∧ a.2.Fits a.1.type s) where
  grows h := by
    cases h with
    | intro all => exact assignment_typed.each.grows all
  typed h := by
    cases h with
    | intro all => exact assignment_typed.each.typed all
  kept := assignment_typed.each.kept

theorem sortKey_typed : Typed (SortKey.Means c) (fun _ k => k.1 ∈ c.keys) where
  grows h := by
    cases h with
    | intro => exact List.prefix_refl _
  typed h := by
    cases h with
    | intro known => exact mem_keys known
  kept _ h := h

theorem sortKeys_typed : Typed (SortKeysMean c) (fun _ l => ∀ k ∈ l, k.1 ∈ c.keys) where
  grows h := by
    cases h with
    | intro all => exact sortKey_typed.each.grows all
  typed h := by
    cases h with
    | intro all => exact sortKey_typed.each.typed all
  kept _ h := h

theorem limit_typed : Typed Syntax.Term.Limits (fun s l => l.Fits s) where
  grows h := by
    cases h with
    | parameter => exact List.prefix_append _ _
    | word => exact List.prefix_refl _
  typed h := by
    cases h with
    | parameter => exact List.getElem?_concat_length
    | word text n stands positive =>
        show 0 < n.toInt.toNat
        omega
  kept {_ _ l} more h := by
    cases l with
    | fixed => exact h
    | parameter => exact getElem?_prefix more h

/-! ## Statements -/

theorem mem_getD {α : Type} {x : α} {l : Option (List α)} (h : x ∈ l.getD []) :
    ∃ xs, l = some xs ∧ x ∈ xs := by
  cases l with
  | none => simp at h
  | some xs => exact ⟨xs, rfl, h⟩

/-- What compiles is typed by its category and its signature. -/
theorem compile_legal {r : Compiled} (h : compile c descriptor = .ok r) : r.Legal c := by
  obtain ⟨_, _, s, _, meant⟩ := compile_ok_iff.1 h
  cases meant with
  | intro category allowed set filter sorted limited =>
      have filtered := disjunction_typed.clause.grows filter
      have beyond := (sortKeys_typed.clause.grows sorted).trans (limit_typed.clause.grows limited)
      refine ⟨rfl, fun a member => ?_, ?_, fun k member => ?_, limit_typed.clause.typed limited⟩
      · obtain ⟨l, present, inside⟩ := mem_getD member
        have fits := assignments_typed.clause.typed set l present
        exact assignment_typed.kept (filtered.trans beyond) (fits a inside)
      · exact disjunction_typed.clause.kept beyond (disjunction_typed.clause.typed filter)
      · obtain ⟨l, present, inside⟩ := mem_getD member
        exact sortKeys_typed.clause.typed sorted l present k inside

end FleetStore.Descriptor
