/-! # Dictionaries

A dictionary holds one value for each of finitely many names and lists them in
the order of the names, code point by code point. The order is part of the
type, so two dictionaries with the same look-ups are the same dictionary
(`Dict.ext_get?`), whichever way they were filled.
-/

namespace FleetStore

/-- Values by name, in the order of the names. -/
structure Dict (α : Type u) where
  entries : List (String × α)
  ordered : entries.Pairwise fun a b => a.1 < b.1

namespace Dict

variable {α : Type u} {β : Type v}

@[ext] theorem ext {d e : Dict α} (h : d.entries = e.entries) : d = e := by
  cases d; cases e; cases h; rfl

instance [DecidableEq α] : DecidableEq (Dict α) := fun d e =>
  if h : d.entries = e.entries then .isTrue (ext h)
  else .isFalse fun same => h (congrArg entries same)

def empty : Dict α := ⟨[], .nil⟩

instance : EmptyCollection (Dict α) := ⟨empty⟩
instance : Inhabited (Dict α) := ⟨empty⟩

def keys (d : Dict α) : List String :=
  d.entries.map Prod.fst

def values (d : Dict α) : List α :=
  d.entries.map Prod.snd

def size (d : Dict α) : Nat :=
  d.entries.length

def find (name : String) : List (String × α) → Option α
  | [] => none
  | (k, v) :: rest => if k = name then some v else find name rest

def get? (d : Dict α) (name : String) : Option α :=
  find name d.entries

def contains (d : Dict α) (name : String) : Bool :=
  (d.get? name).isSome

/-- Puts a value at its place in an ordered list of entries; an earlier value of
the same name is replaced. -/
def place (name : String) (value : α) : List (String × α) → List (String × α)
  | [] => [(name, value)]
  | (k, v) :: rest =>
      if name < k then (name, value) :: (k, v) :: rest
      else if name = k then (name, value) :: rest
      else (k, v) :: place name value rest

theorem mem_place {name : String} {value : α} {l : List (String × α)} {e : String × α}
    (h : e ∈ place name value l) : e = (name, value) ∨ e ∈ l := by
  induction l with
  | nil => exact .inl (by simpa [place] using h)
  | cons head rest ih =>
      unfold place at h
      split at h
      · simpa using h
      · split at h
        · rcases List.mem_cons.1 h with h | h
          · exact .inl h
          · exact .inr (List.mem_cons_of_mem _ h)
        · rcases List.mem_cons.1 h with h | h
          · exact .inr (by simp [h])
          · exact (ih h).imp_right (List.mem_cons_of_mem _)

theorem place_ordered {name : String} {value : α} {l : List (String × α)}
    (h : l.Pairwise fun a b => a.1 < b.1) :
    (place name value l).Pairwise fun a b => a.1 < b.1 := by
  induction l with
  | nil => simp [place]
  | cons head rest ih =>
      have ⟨first, tail⟩ := List.pairwise_cons.1 h
      unfold place
      split
      · next before =>
          refine List.pairwise_cons.2 ⟨fun e member => ?_, h⟩
          rcases List.mem_cons.1 member with rfl | member
          · exact before
          · exact String.lt_trans before (first e member)
      · next notBefore =>
          split
          · next same =>
              subst same
              exact List.pairwise_cons.2 ⟨first, tail⟩
          · next different =>
              refine List.pairwise_cons.2 ⟨fun e member => ?_, ih tail⟩
              rcases mem_place member with rfl | member
              · exact Std.lt_of_le_of_ne (Std.not_lt.1 notBefore) (Ne.symm different)
              · exact first e member

def insert (d : Dict α) (name : String) (value : α) : Dict α :=
  ⟨place name value d.entries, place_ordered d.ordered⟩

/-- Sets values one after another: of two values for one name the later stays. -/
def insertAll (d : Dict α) (new : List (String × α)) : Dict α :=
  new.foldl (fun d e => d.insert e.1 e.2) d

/-- The dictionary of a list of entries in any order. -/
def ofList (l : List (String × α)) : Dict α :=
  empty.insertAll l

def map (f : α → β) (d : Dict α) : Dict β :=
  ⟨d.entries.map fun e => (e.1, f e.2), by
    rw [List.pairwise_map]
    exact d.ordered⟩

/-! ## Look-ups after each operation -/

@[simp] theorem get?_empty (name : String) : (∅ : Dict α).get? name = none := rfl

theorem find_eq_none {name : String} {l : List (String × α)} (h : ∀ e ∈ l, e.1 ≠ name) :
    find name l = none := by
  induction l with
  | nil => rfl
  | cons head rest ih =>
      simp [find, h head (by simp), ih fun e member => h e (by simp [member])]

theorem find_place (name other : String) (value : α) (l : List (String × α))
    (h : l.Pairwise fun a b => a.1 < b.1) :
    find other (place name value l) = if name = other then some value else find other l := by
  induction l with
  | nil => simp [place, find]
  | cons head rest ih =>
      have ⟨_, tail⟩ := List.pairwise_cons.1 h
      unfold place
      split
      · simp [find]
      · split
        · next same =>
            by_cases h : name = other
            · simp [find, h]
            · simp [find, h, ← same]
        · next different =>
            by_cases h : head.1 = other
            · have : name ≠ other := fun same => different (same.trans h.symm)
              simp [find, h, this]
            · simp [find, h, ih tail]

@[simp] theorem get?_insert (d : Dict α) (name other : String) (value : α) :
    (d.insert name value).get? other = if name = other then some value else d.get? other :=
  find_place name other value d.entries d.ordered

@[simp] theorem get?_map (f : α → β) (d : Dict α) (name : String) :
    (d.map f).get? name = (d.get? name).map f := by
  simp only [get?, map]
  induction d.entries with
  | nil => rfl
  | cons head rest ih => by_cases h : head.1 = name <;> simp [find, h, ih]

theorem find_eq_some_iff {name : String} {value : α} {l : List (String × α)}
    (h : l.Pairwise fun a b => a.1 < b.1) :
    find name l = some value ↔ (name, value) ∈ l := by
  induction l with
  | nil => simp [find]
  | cons head rest ih =>
      have ⟨first, tail⟩ := List.pairwise_cons.1 h
      by_cases same : head.1 = name
      · have absent : (name, value) ∉ rest := fun member =>
          absurd (first _ member) (same ▸ String.lt_irrefl name)
        simp only [find, same, if_true, Option.some.injEq, List.mem_cons, absent, or_false]
        constructor
        · rintro rfl
          rw [← same]
        · intro equal
          rw [← equal]
      · have : (name, value) ≠ head := fun equal => same (by rw [← equal])
        simp [find, same, ih tail, this]

/-- An entry stands in the list exactly if the look-up finds it. -/
theorem get?_eq_some_iff {d : Dict α} {name : String} {value : α} :
    d.get? name = some value ↔ (name, value) ∈ d.entries :=
  find_eq_some_iff d.ordered

private theorem entries_eq {l m : List (String × α)}
    (hl : l.Pairwise fun a b => a.1 < b.1) (hm : m.Pairwise fun a b => a.1 < b.1)
    (h : ∀ e, e ∈ l ↔ e ∈ m) : l = m := by
  induction l generalizing m with
  | nil =>
      cases m with
      | nil => rfl
      | cons head rest => exact absurd ((h head).2 (by simp)) (by simp)
  | cons a l ih =>
      cases m with
      | nil => exact absurd ((h a).1 (by simp)) (by simp)
      | cons b m =>
          have ⟨firstA, tailA⟩ := List.pairwise_cons.1 hl
          have ⟨firstB, tailB⟩ := List.pairwise_cons.1 hm
          have heads : a = b := by
            rcases List.mem_cons.1 ((h a).1 (by simp)) with equal | member
            · exact equal
            · rcases List.mem_cons.1 ((h b).2 (by simp)) with equal | member'
              · exact equal.symm
              · exact absurd (String.lt_trans (firstB a member) (firstA b member'))
                  (String.lt_irrefl _)
          subst heads
          refine congrArg (a :: ·) (ih tailA tailB fun e => ?_)
          constructor
          · intro member
            rcases List.mem_cons.1 ((h e).1 (List.mem_cons_of_mem _ member)) with equal | member'
            · exact absurd (equal ▸ firstA e member) (String.lt_irrefl _)
            · exact member'
          · intro member
            rcases List.mem_cons.1 ((h e).2 (List.mem_cons_of_mem _ member)) with equal | member'
            · exact absurd (equal ▸ firstB e member) (String.lt_irrefl _)
            · exact member'

/-- Dictionaries with the same look-ups are equal. -/
theorem ext_get? {d e : Dict α} (h : ∀ name, d.get? name = e.get? name) : d = e := by
  refine ext (entries_eq d.ordered e.ordered fun (name, value) => ?_)
  rw [← get?_eq_some_iff, ← get?_eq_some_iff, h]

/-! ## Several entries -/

theorem mem_insertAll {d : Dict α} {new : List (String × α)} {e : String × α}
    (h : e ∈ (d.insertAll new).entries) : e ∈ d.entries ∨ e ∈ new := by
  induction new generalizing d with
  | nil => exact .inl h
  | cons head rest ih =>
      rcases ih (d := d.insert head.1 head.2) h with before | later
      · rcases mem_place before with rfl | old
        · exact .inr List.mem_cons_self
        · exact .inl old
      · exact .inr (List.mem_cons_of_mem _ later)

theorem find_append (name : String) (l m : List (String × α)) :
    find name (l ++ m) = (find name l).or (find name m) := by
  induction l with
  | nil => rfl
  | cons head rest ih => by_cases h : head.1 = name <;> simp [find, h, ih]

/-- The later of two values for one name wins. -/
theorem get?_insertAll (d : Dict α) (new : List (String × α)) (name : String) :
    (d.insertAll new).get? name = (find name new.reverse).or (d.get? name) := by
  induction new generalizing d with
  | nil => rfl
  | cons head rest ih =>
      have later := ih (d.insert head.1 head.2)
      rw [get?_insert] at later
      rw [List.reverse_cons, find_append, Option.or_assoc]
      refine later.trans (congrArg _ ?_)
      by_cases h : head.1 = name <;> simp [find, h]

end Dict

end FleetStore
