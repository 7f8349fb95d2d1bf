import FleetStore.Descriptor.Grammar
import FleetStore.Proofs.Language.Meaning

/-! # What readers read

A reader reads a rule of the grammar if it succeeds exactly on what starts with
the tokens of some legal tree, gives what this tree means, and stops where the
tokens end. A reader of a chain goes on as long as there is a separator, so what
follows a chain is never one.
-/

namespace FleetStore.Descriptor

open Syntax

/-! ## Taking tokens -/

/-- The first of the lexemes are those of some tokens, and the others remain. -/
inductive Takes : List Lexeme → List Token → List Lexeme → Prop where
  | nil {l} : Takes l [] l
  | cons {l tokens rest} (token : Token) (offset : Nat) (more : Takes l tokens rest) :
      Takes (⟨token, offset⟩ :: l) (token :: tokens) rest

def upcoming (l : List Lexeme) : List Token :=
  l.map Lexeme.token

theorem Takes.append {l m rest : List Lexeme} {tokens others : List Token} (h : Takes l tokens m)
    (later : Takes m others rest) : Takes l (tokens ++ others) rest := by
  induction h with
  | nil => exact later
  | cons token offset _ ih => exact .cons token offset (ih later)

theorem Takes.split {l rest : List Lexeme} {tokens others : List Token}
    (h : Takes l (tokens ++ others) rest) : ∃ m, Takes l tokens m ∧ Takes m others rest := by
  induction tokens generalizing l with
  | nil => exact ⟨l, .nil, h⟩
  | cons token tokens ih =>
      cases h with
      | cons _ offset more =>
          obtain ⟨m, first, others⟩ := ih more
          exact ⟨m, .cons token offset first, others⟩

theorem Takes.upcoming {l rest : List Lexeme} {tokens : List Token} (h : Takes l tokens rest) :
    upcoming l = tokens ++ upcoming rest := by
  induction h with
  | nil => rfl
  | cons token offset _ ih => exact congrArg (token :: ·) ih

theorem takes_all_iff {l : List Lexeme} {tokens : List Token} :
    Takes l tokens [] ↔ tokens = upcoming l := by
  constructor
  · intro h
    simpa [Descriptor.upcoming] using h.upcoming.symm
  · rintro rfl
    induction l with
    | nil => exact .nil
    | cons head l ih => exact .cons head.token head.offset ih

/-- A reader reads what some trees stand for, and gives what they mean. -/
def Reads {α β : Type} (read : Reader α) (tokens : β → List Token)
    (means : List ValueType → β → α → List ValueType → Prop) (follow : List Token → Prop) : Prop :=
  ∀ s x s', read s = .ok (x, s') ↔ ∃ tree, Takes s.rest (tokens tree) s'.rest ∧
    means s.signature tree x s'.signature ∧ follow (upcoming s'.rest)

/-- Nothing is asked of what follows. -/
abbrev Anything : List Token → Prop := fun _ => True

variable {α β γ : Type}

theorem Reads.onValue {read : Reader α} {tokens : β → List Token}
    {means : List ValueType → β → α → List ValueType → Prop} {follow : List Token → Prop}
    {f : α → γ} {means' : List ValueType → β → γ → List ValueType → Prop}
    (h : Reads read tokens means follow)
    (same : ∀ before tree y after,
      means' before tree y after ↔ ∃ x, means before tree x after ∧ f x = y) :
    Reads (fun s => Descriptor.onValue f (read s)) tokens means' follow := by
  intro s y s'
  rw [onValue_eq_ok_iff]
  constructor
  · rintro ⟨x, found, rfl⟩
    obtain ⟨tree, taken, meant, stop⟩ := (h s x s').1 found
    exact ⟨tree, taken, (same _ _ _ _).2 ⟨x, meant, rfl⟩, stop⟩
  · rintro ⟨tree, taken, meant, stop⟩
    obtain ⟨x, inner, applied⟩ := (same _ _ _ _).1 meant
    exact ⟨x, (h s x s').2 ⟨tree, taken, inner, stop⟩, applied⟩

/-! ## Keys and terms -/

theorem key?_name {c : Category} {name : String} {key : Key} (h : c.key? name = some key) :
    key.name = name := by
  have found := List.find?_some h
  simpa using found

theorem readKey_ok_iff {c : Category} {s s' : State} {key : Key} :
    readKey c s = .ok (key, s') ↔ ∃ name, Takes s.rest [.quoted name] s'.rest ∧
      c.key? name = some key ∧ s'.signature = s.signature := by
  obtain ⟨l, before⟩ := s
  obtain ⟨rest, after⟩ := s'
  constructor
  · intro h
    unfold readKey at h
    split at h
    · next name offset rest found =>
        split at h
        · next known =>
            cases h
            simp only at found
            subst found
            exact ⟨name, .cons _ _ .nil, known, rfl⟩
        · cases h
    · cases h
  · rintro ⟨name, taken, known, same⟩
    simp only at taken same
    subst same
    cases taken with
    | cons _ offset more =>
        cases more
        simp only [readKey, known]

theorem ensureType_ok_iff {key : Key} {expected actual : ValueType} {term t : Descriptor.Term}
    {s s' : State} :
    ensureType key expected actual term s = .ok (t, s') ↔ actual = expected ∧ t = term ∧ s' = s := by
  unfold ensureType
  split
  · next same => simp [same, eq_comm]
  · next other => simp [other]

theorem readTerm_reads (key : Key) (expected : ValueType) :
    Reads (readTerm key expected) (fun t : Syntax.Term => [t.token]) (Term.Means expected)
      Anything := by
  rintro ⟨l, before⟩ t ⟨rest, after⟩
  constructor
  · intro h
    unfold readTerm at h
    split at h
    · next type offset l found =>
        obtain ⟨rfl, rfl, state⟩ := ensureType_ok_iff.1 h
        cases state
        simp only at found
        subst found
        exact ⟨.parameter type, .cons _ _ .nil, .parameter, trivial⟩
    · next text offset l found =>
        obtain ⟨typed, rfl, state⟩ := ensureType_ok_iff.1 h
        cases state
        simp only at found
        subst found
        exact ⟨.quoted text, .cons _ _ .nil, .quoted text typed.symm, trivial⟩
    · next text offset l found =>
        split at h
        · next value stands =>
            obtain ⟨typed, rfl, state⟩ := ensureType_ok_iff.1 h
            cases state
            simp only at found
            subst found
            exact ⟨.word text, .cons _ _ .nil, .word text value stands typed, trivial⟩
        · cases h
    · cases h
  · rintro ⟨tree, taken, meant, -⟩
    simp only at taken meant
    cases meant with
    | parameter =>
        cases taken with
        | cons _ offset more =>
            cases more
            simp only [Term.token, readTerm, ensureType_ok_iff, and_self]
    | quoted text typed =>
        cases taken with
        | cons _ offset more =>
            cases more
            simp only [Term.token, readTerm, ensureType_ok_iff, typed, and_self]
    | word text value stands typed =>
        cases taken with
        | cons _ offset more =>
            cases more
            simp only [Term.token, readTerm, stands, ensureType_ok_iff, typed, and_self]

/-! ## Sequences -/

/-- The items of a list mean the items of another, each in view of those before it. -/
inductive EachAfter (item : List α → List ValueType → β → α → List ValueType → Prop) :
    List α → List ValueType → List β → List α → List ValueType → Prop where
  | nil {seen before} : EachAfter item seen before [] [] before
  | cons {seen before between after x y xs ys} (first : item seen before x y between)
      (more : EachAfter item (seen ++ [y]) between xs ys after) :
      EachAfter item seen before (x :: xs) (y :: ys) after

theorem eachAfter_iff_each {item : List ValueType → β → α → List ValueType → Prop} {seen ys : List α}
    {before after : List ValueType} {xs : List β} :
    EachAfter (fun _ => item) seen before xs ys after ↔ Each item before xs ys after := by
  constructor
  · intro h
    induction h with
    | nil => exact .nil
    | cons first _ ih => exact .cons first ih
  · intro h
    induction h generalizing seen with
    | nil => exact .nil
    | cons first _ ih => exact .cons first ih

section Sequence

variable {item : List α → Reader α} {consuming : ∀ seen, Consuming (item seen)}
variable {tokens : β → List Token} {follow : List Token → Prop} {separator : Token}
variable {means : List α → List ValueType → β → α → List ValueType → Prop}

theorem readMore_end {seen xs : List α} {s s' : State} (follows : follow (upcoming s.rest))
    (stop : StopsAt separator (upcoming s.rest)) : ([], s) = (xs, s') ↔
      ∃ trees, Takes s.rest (Chain.tokensAfter tokens separator trees) s'.rest ∧
        EachAfter means seen s.signature trees xs s'.signature ∧
        follow (upcoming s'.rest) ∧ StopsAt separator (upcoming s'.rest) := by
  obtain ⟨l, before⟩ := s
  obtain ⟨rest, after⟩ := s'
  constructor
  · rintro ⟨⟩
    exact ⟨[], .nil, .nil, follows, stop⟩
  · rintro ⟨trees, taken, all, -⟩
    cases trees with
    | nil =>
        simp only at taken all
        cases all
        cases taken
        rfl
    | cons tree trees => exact absurd (congrArg List.head? taken.upcoming) stop

theorem readMore_next (items : ∀ seen, Reads (item seen) tokens (means seen) follow)
    (separated : ∀ l, follow (separator :: l)) {seen xs : List α} {l : Lexeme} {rest end' : List Lexeme}
    {before after : List ValueType} {trees : List β} (same : l.token = separator)
    (taken : Takes (l :: rest) (Chain.tokensAfter tokens separator trees) end')
    (all : EachAfter means seen before trees xs after) (follows : follow (upcoming end'))
    (stop : StopsAt separator (upcoming end')) :
    ∃ y ys s others, xs = y :: ys ∧ item seen ⟨rest, before⟩ = .ok (y, s) ∧
      Takes s.rest (Chain.tokensAfter tokens separator others) end' ∧
      EachAfter means (seen ++ [y]) s.signature others ys after := by
  cases all with
  | nil =>
      cases taken
      simp [upcoming, StopsAt, same] at stop
  | cons first more =>
      rename_i between tree y trees ys
      cases taken with
      | cons _ offset taken =>
          obtain ⟨m, one, others⟩ := taken.split
          refine ⟨y, ys, ⟨m, between⟩, trees, rfl, ?_, others, more⟩
          refine (items seen _ _ _).2 ⟨tree, one, first, ?_⟩
          rw [others.upcoming]
          exact follow_after separated trees follows

theorem readMore_ok_iff (items : ∀ seen, Reads (item seen) tokens (means seen) follow)
    (separated : ∀ l, follow (separator :: l)) (seen : List α) (s : State)
    (follows : follow (upcoming s.rest)) (xs : List α) (s' : State) :
    readMore item consuming separator seen s = .ok (xs, s') ↔
      ∃ trees, Takes s.rest (Chain.tokensAfter tokens separator trees) s'.rest ∧
        EachAfter means seen s.signature trees xs s'.signature ∧
        follow (upcoming s'.rest) ∧ StopsAt separator (upcoming s'.rest) := by
  fun_induction readMore item consuming separator seen s generalizing xs s' with
  | case1 seen s found =>
      rw [Except.ok.injEq]
      exact readMore_end follows (by simp [found, upcoming, StopsAt])
  | case2 seen s l rest found same fault h =>
      constructor
      · rintro ⟨⟩
      · rintro ⟨trees, taken, all, follows, stop⟩
        rw [found] at taken
        obtain ⟨y, ys, t, others, _, read, _⟩ :=
          readMore_next items separated same taken all follows stop
        exact absurd (h.symm.trans read) (by simp)
  | case3 seen s l rest found same y t h shorter ih =>
      obtain ⟨tree, one, meant, between⟩ := (items seen _ _ _).1 h
      rw [onValue_eq_ok_iff]
      constructor
      · rintro ⟨ys, read, rfl⟩
        obtain ⟨trees, others, all, stop⟩ := (ih between ys s').1 read
        obtain ⟨token, offset⟩ := l
        obtain rfl : token = separator := same
        exact ⟨tree :: trees, found ▸ .cons _ _ (one.append others), .cons meant all, stop⟩
      · rintro ⟨trees, taken, all, follows, stop⟩
        rw [found] at taken
        obtain ⟨x, ys, u, others, rfl, read, later, more⟩ :=
          readMore_next items separated same taken all follows stop
        obtain ⟨rfl, rfl⟩ : y = x ∧ t = u := by simpa using h.symm.trans read
        exact ⟨ys, (ih between ys s').2 ⟨others, later, more, follows, stop⟩, rfl⟩
  | case4 seen s l rest found different =>
      rw [Except.ok.injEq]
      exact readMore_end follows (by simpa [found, upcoming, StopsAt] using different)

theorem sequence_reads (items : ∀ seen, Reads (item seen) tokens (means seen) follow)
    (separated : ∀ l, follow (separator :: l)) :
    Reads (sequence item consuming separator) (Chain.tokens tokens separator)
      (fun before chain xs after => EachAfter means [] before chain.items (xs.1 :: xs.2) after)
      fun l => follow l ∧ StopsAt separator l := by
  rintro s ⟨x, xs⟩ s'
  constructor
  · intro h
    unfold sequence at h
    split at h
    · cases h
    · next first t start =>
        obtain ⟨ys, read, same⟩ := onValue_eq_ok_iff.1 h
        cases same
        obtain ⟨tree, one, meant, between⟩ := (items [] s x t).1 start
        obtain ⟨trees, others, all, stop⟩ :=
          (readMore_ok_iff items separated [x] t between xs s').1 read
        exact ⟨⟨tree, trees⟩, one.append others, .cons meant all, stop⟩
  · rintro ⟨⟨tree, trees⟩, taken, all, follows, stop⟩
    obtain ⟨m, one, others⟩ := taken.split
    simp only [Chain.items] at all
    cases all with
    | cons first more =>
        rename_i between
        have follows' : follow (upcoming m) := by
          rw [others.upcoming]
          exact follow_after separated trees follows
        have start := (items [] s x ⟨m, between⟩).2 ⟨tree, one, first, follows'⟩
        have read : readMore item consuming separator [x] ⟨m, between⟩ = .ok (xs, s') :=
          (readMore_ok_iff items separated [x] ⟨m, between⟩ follows' xs s').2
            ⟨trees, others, more, follows, stop⟩
        simp only [sequence, start]
        exact onValue_eq_ok_iff.2 ⟨xs, read, rfl⟩

end Sequence

end FleetStore.Descriptor
