import FleetStore.Proofs.Language.Literals
import FleetStore.Proofs.Language.Numbering
import Mathlib.Data.List.Forall2

/-! # Literals in the place of parameters

A parameter of a statement may be replaced by the literal for the value that it is to have. The
parameters that are left are numbered anew, by those of them that stand before, and each keeps
its value. What holds of such a replacement in the items of a chain holds in the whole chain, and what holds
in the body of a clause holds in the clause.
-/

namespace FleetStore.Descriptor

open Syntax

/-! ## Tokens -/

/-- Tokens with values for their parameters, and the same tokens in which some of the parameters
are replaced by the literals for their values, with the values of the others. -/
inductive Inlined : List Token → List Value → List Token → List Value → Prop where
  | nil : Inlined [] [] [] []
  | plain {t tokens values inlined rest} (other : ∀ type, t ≠ .parameter type)
      (more : Inlined tokens values inlined rest) : Inlined (t :: tokens) values (t :: inlined) rest
  | kept {type value tokens values inlined rest} (more : Inlined tokens values inlined rest) :
      Inlined (.parameter type :: tokens) (value :: values) (.parameter type :: inlined) (value :: rest)
  | replaced {type value literal tokens values inlined rest}
      (written : literalFor? value = some literal) (typed : value.type = type)
      (more : Inlined tokens values inlined rest) :
      Inlined (.parameter type :: tokens) (value :: values) (literal :: inlined) rest

namespace Inlined

variable {tokens others inlined more : List Token} {values rest us vs : List Value}

/-- What is inlined in two lists of tokens is inlined in each of them. -/
theorem split (h : Inlined (tokens ++ others) values inlined rest) :
    ∃ vs us inlined' more rest' rest'', Inlined tokens vs inlined' rest' ∧ Inlined others us more rest'' ∧
      values = vs ++ us ∧ inlined = inlined' ++ more ∧ rest = rest' ++ rest'' := by
  induction tokens generalizing values inlined rest with
  | nil => exact ⟨[], values, [], inlined, [], rest, .nil, h, rfl, rfl, rfl⟩
  | cons t tokens ih =>
      cases h with
      | plain other tail =>
          obtain ⟨vs, us, l, m, ws, xs, first, second, rfl, rfl, rfl⟩ := ih tail
          exact ⟨_, _, _, _, _, _, .plain other first, second, rfl, rfl, rfl⟩
      | kept tail =>
          obtain ⟨vs, us, l, m, ws, xs, first, second, rfl, rfl, rfl⟩ := ih tail
          exact ⟨_, _, _, _, _, _, .kept first, second, rfl, rfl, rfl⟩
      | replaced written typed tail =>
          obtain ⟨vs, us, l, m, ws, xs, first, second, rfl, rfl, rfl⟩ := ih tail
          exact ⟨_, _, _, _, _, _, .replaced written typed first, second, rfl, rfl, rfl⟩

/-- There is one value for each parameter. -/
theorem length_values (h : Inlined tokens values inlined rest) :
    values.length = (parameterTypes tokens).length := by
  induction h with
  | nil => rfl
  | @plain t _ _ _ _ other _ ih =>
      cases t with
      | parameter type => exact absurd rfl (other type)
      | word | quoted | comma | operator => exact ih
  | kept _ ih | replaced _ _ _ ih => exact congrArg Nat.succ ih

theorem length_rest (h : Inlined tokens values inlined rest) :
    rest.length = (parameterTypes inlined).length := by
  induction h with
  | nil => rfl
  | @plain t _ _ _ _ other _ ih =>
      cases t with
      | parameter type => exact absurd rfl (other type)
      | word | quoted | comma | operator => exact ih
  | kept _ ih => exact congrArg Nat.succ ih
  | replaced written _ _ ih =>
      rcases literalFor?_cases written with ⟨_, rfl, -, -⟩ | ⟨_, rfl, -, -⟩ <;> exact ih

/-- Nothing has to be replaced. -/
theorem refl (count : values.length = (parameterTypes tokens).length) :
    Inlined tokens values tokens values := by
  induction tokens generalizing values with
  | nil =>
      obtain rfl := List.length_eq_zero_iff.1 count
      exact .nil
  | cons t tokens ih =>
      cases t with
      | parameter type =>
          cases values with
          | nil => contradiction
          | cons v values => exact .kept (ih (Nat.succ.inj count))
      | word | quoted | comma | operator => exact .plain (by simp) (ih count)

end Inlined

theorem parameterTypes_append (tokens others : List Token) :
    parameterTypes (tokens ++ others) = parameterTypes tokens ++ parameterTypes others :=
  List.filterMap_append

theorem parameterTypes_plain {t : Token} (other : ∀ type, t ≠ .parameter type)
    (tokens : List Token) : parameterTypes (t :: tokens) = parameterTypes tokens := by
  cases t with
  | parameter type => exact absurd rfl (other type)
  | word | quoted | comma | operator => rfl

section

variable {tokens : List Token} {i : Nat} {type : ValueType}

theorem parameterTypes_split (place : tokens[i]? = some (.parameter type)) :
    parameterTypes tokens =
      parameterTypes (tokens.take i) ++ type :: parameterTypes (tokens.drop (i + 1)) := by
  obtain ⟨inside, here⟩ := List.getElem?_eq_some_iff.1 place
  calc parameterTypes tokens
    _ = parameterTypes (tokens.take i ++ tokens.drop i) := by rw [List.take_append_drop]
    _ = parameterTypes (tokens.take i) ++
          parameterTypes (.parameter type :: tokens.drop (i + 1)) := by
        rw [parameterTypes_append, List.drop_eq_getElem_cons inside, here]
    _ = _ := rfl

/-- The type of a parameter comes after those of the parameters before it. -/
theorem parameterTypes_place (place : tokens[i]? = some (.parameter type)) :
    (parameterTypes tokens)[(parameterTypes (tokens.take i)).length]? = some type := by
  rw [parameterTypes_split place, List.getElem?_append_right (Nat.le_refl _), Nat.sub_self]
  rfl

/-- With something else in the place of a parameter, its type is no longer there. -/
theorem parameterTypes_set {t : Token} (place : tokens[i]? = some (.parameter type))
    (other : ∀ type, t ≠ .parameter type) : parameterTypes (tokens.set i t) =
      (parameterTypes tokens).eraseIdx (parameterTypes (tokens.take i)).length := by
  obtain ⟨inside, -⟩ := List.getElem?_eq_some_iff.1 place
  rw [List.set_eq_take_append_cons_drop, if_pos inside, parameterTypes_append,
    parameterTypes_plain other, parameterTypes_split place,
    List.eraseIdx_append_of_length_le (Nat.le_refl _), Nat.sub_self]
  rfl

end

/-- What stands in place of a token that is no parameter. -/
theorem Inlined.plain_cons {t : Token} {tokens inlined : List Token} {values rest : List Value}
    (other : ∀ type, t ≠ .parameter type) (h : Inlined (t :: tokens) values inlined rest) :
    ∃ more, inlined = t :: more ∧ Inlined tokens values more rest := by
  cases h with
  | plain _ more => exact ⟨_, rfl, more⟩
  | kept | replaced => exact absurd rfl (other _)

/-- The literal for one value in the place of its parameter. -/
theorem Inlined.single {tokens : List Token} {values : List Value} {i : Nat} {type : ValueType}
    {value : Value} {literal : Token} (place : tokens[i]? = some (.parameter type))
    (count : values.length = (parameterTypes tokens).length)
    (given : values[(parameterTypes (tokens.take i)).length]? = some value)
    (written : literalFor? value = some literal) (typed : value.type = type) :
    Inlined tokens values (tokens.set i literal)
      (values.eraseIdx (parameterTypes (tokens.take i)).length) := by
  induction tokens generalizing i values with
  | nil => contradiction
  | cons t tokens ih =>
      cases i with
      | zero =>
          obtain rfl := Option.some.inj place
          cases values with
          | nil => contradiction
          | cons v values =>
              obtain rfl := Option.some.inj given
              exact .replaced written typed (.refl (Nat.succ.inj count))
      | succ i =>
          cases t with
          | parameter other =>
              cases values with
              | nil => contradiction
              | cons v values => exact .kept (ih place (Nat.succ.inj count) given)
          | word | quoted | comma | operator => exact .plain (by simp) (ih place count given)

/-! ## Parts of a statement -/

section

variable {α β γ : Type} {means : List ValueType → α → β → List ValueType → Prop}
variable {tokens : α → List Token} {places : β → List Place}
variable {resolves : List Value → β → γ → Prop} {separator : Token}

/-- Whatever is inlined in the tokens of a part, some part with the tokens that come of it means,
behind any parameters, what is resolved alike. -/
def InlinesAt (means : List ValueType → α → β → List ValueType → Prop) (tokens : α → List Token)
    (resolves : List Value → β → γ → Prop) (before : List ValueType) (x : α) (y : β) : Prop :=
  ∀ ⦃values inlined rest pre post z⦄, Inlined (tokens x) values inlined rest →
    pre.length = before.length → resolves (pre ++ values ++ post) y z → ∀ before', ∃ x' y',
      tokens x' = inlined ∧ means before' x' y' (before' ++ parameterTypes inlined) ∧
        ∀ pre' post', pre'.length = before'.length → resolves (pre' ++ rest ++ post') y' z

def Inlines (means : List ValueType → α → β → List ValueType → Prop) (tokens : α → List Token)
    (resolves : List Value → β → γ → Prop) : Prop :=
  ∀ ⦃before x y after⦄, means before x y after → InlinesAt means tokens resolves before x y

section

variable {α' β' γ' : Type} {means' : List ValueType → α' → β' → List ValueType → Prop}
variable {tokens' : α' → List Token} {resolves' : List Value → β' → γ' → Prop}

/-- One part after another, which counts on from where the first has stopped. -/
def Followed (means : List ValueType → α → β → List ValueType → Prop)
    (means' : List ValueType → α' → β' → List ValueType → Prop) (before : List ValueType)
    (x : α × α') (y : β × β') (after : List ValueType) : Prop :=
  ∃ between, means before x.1 y.1 between ∧ means' between x.2 y.2 after

def resolvesBoth (resolves : List Value → β → γ → Prop) (resolves' : List Value → β' → γ' → Prop)
    (values : List Value) (y : β × β') (z : γ × γ') : Prop :=
  resolves values y.1 z.1 ∧ resolves' values y.2 z.2

theorem InlinesAt.followed {before between : List ValueType} {x : α} {y : β} {x' : α'} {y' : β'}
    (first : InlinesAt means tokens resolves before x y)
    (counted : between = before ++ parameterTypes (tokens x))
    (second : InlinesAt means' tokens' resolves' between x' y') :
    InlinesAt (Followed means means') (fun x => tokens x.1 ++ tokens' x.2)
      (resolvesBoth resolves resolves') before (x, x') (y, y') := by
  intro values inlined rest pre post z tail room resolved before'
  obtain ⟨vs, us, inlined, others, kept, left, head, remainder, rfl, rfl, rfl⟩ := tail.split
  have here : resolves (pre ++ vs ++ (us ++ post)) y z.1 := by
    simpa only [List.append_assoc] using resolved.1
  have there : resolves' ((pre ++ vs) ++ us ++ post) y' z.2 := by
    simpa only [List.append_assoc] using resolved.2
  obtain ⟨u, v, rfl, means, same⟩ := first head room here before'
  have further : (pre ++ vs).length = between.length := by
    rw [counted, List.length_append, List.length_append, room, head.length_values]
  obtain ⟨u', v', rfl, meansMore, sameMore⟩ :=
    second remainder further there (before' ++ parameterTypes (tokens u))
  refine ⟨(u, u'), (v, v'), rfl, ⟨_, means, ?_⟩, fun pre' post' room' => ⟨?_, ?_⟩⟩
  · rwa [parameterTypes_append, ← List.append_assoc]
  · simpa only [List.append_assoc] using same pre' (left ++ post') room'
  · have further' : (pre' ++ kept).length = (before' ++ parameterTypes (tokens u)).length := by
      rw [List.length_append, List.length_append, room', head.length_rest]
    simpa only [List.append_assoc] using sameMore (pre' ++ kept) post' further'

theorem Inlines.followed (first : Inlines means tokens resolves) (numbers : Numbers means tokens places)
    (second : Inlines means' tokens' resolves') :
    Inlines (Followed means means') (fun x => tokens x.1 ++ tokens' x.2)
      (resolvesBoth resolves resolves') := by
  intro before x y after h
  obtain ⟨between, here, there⟩ := h
  exact (first here).followed (numbers here).1 (second there)

end

/-- The values of some parts one after another. -/
def resolvesEach (resolves : List Value → β → γ → Prop) (values : List Value) (ys : List β)
    (zs : List γ) : Prop :=
  List.Forall₂ (resolves values) ys zs

/-- A part resolves by itself. -/
def resolvesBy (resolve : List Value → β → γ) (values : List Value) (y : β) (z : γ) : Prop :=
  resolve values y = z

theorem resolvesEach_iff {resolve : List Value → β → γ} {values : List Value} {ys : List β}
    {zs : List γ} : resolvesEach (resolvesBy resolve) values ys zs ↔ ys.map (resolve values) = zs := by
  rw [← List.forall₂_eq_eq_eq, List.forall₂_map_left_iff]
  rfl

theorem resolvesEach_resolvesBy {resolve : List Value → β → γ} :
    resolvesEach (resolvesBy resolve) = resolvesBy fun values => List.map (resolve values) := by
  funext values ys zs
  exact propext resolvesEach_iff

theorem optionRel_iff {resolve : List Value → β → γ} {values : List Value} {y : Option β}
    {z : Option γ} : Option.Rel (resolvesBy resolve values) y z ↔ y.map (resolve values) = z := by
  cases y <;> cases z <;> simp [resolvesBy]

theorem Inlines.after (item : Inlines means tokens resolves) (numbers : Numbers means tokens places)
    (other : ∀ type, separator ≠ .parameter type) :
    Inlines (Each means) (Chain.tokensAfter tokens separator) (resolvesEach resolves) := by
  intro before xs ys after h
  induction h with
  | nil =>
      intro values inlined rest pre post zs tail room resolved before'
      cases tail
      cases resolved
      refine ⟨[], [], rfl, ?_, fun _ _ _ => .nil⟩
      rw [show before' ++ parameterTypes [] = before' from List.append_nil _]
      exact .nil
  | @cons before between after x y xs ys first more ih =>
      intro values inlined rest pre post zs tail room resolved before'
      obtain ⟨_, rfl, body⟩ := Inlined.plain_cons other tail
      cases resolved with
      | @cons _ z _ zs value later =>
      have both := (item first).followed (numbers first).1 ih
      obtain ⟨⟨x', xs'⟩, ⟨y', ys'⟩, rfl, ⟨_, means, meansMore⟩, same⟩ :=
        both (z := (z, zs)) body room ⟨value, later⟩ before'
      refine ⟨x' :: xs', y' :: ys', rfl, ?_, fun pre' post' room' => ?_⟩
      · rw [parameterTypes_plain other]
        exact .cons means meansMore
      · obtain ⟨value', later'⟩ := same pre' post' room'
        exact .cons value' later'

/-- The items of a chain. -/
def chainMeans (means : List ValueType → α → β → List ValueType → Prop) (before : List ValueType)
    (c : Chain α) (ys : List β) (after : List ValueType) : Prop :=
  Each means before c.items ys after

theorem Inlines.chain (item : Inlines means tokens resolves) (numbers : Numbers means tokens places)
    (other : ∀ type, separator ≠ .parameter type) :
    Inlines (chainMeans means) (Chain.tokens tokens separator) (resolvesEach resolves) := by
  intro before c ys after h values inlined rest pre post zs tail room resolved before'
  -- With a separator before the first item as well, a chain is what comes after items.
  have all : Inlined (Chain.tokensAfter tokens separator c.items) values (separator :: inlined) rest :=
    .plain other tail
  obtain ⟨xs', ys', same, means, sames⟩ := item.after numbers other h all room resolved before'
  cases xs' with
  | nil => contradiction
  | cons x' xs' =>
      refine ⟨⟨x', xs'⟩, ys', (List.cons.inj same).2, ?_, sames⟩
      rwa [parameterTypes_plain other] at means

theorem Inlines.clause (part : Inlines means tokens resolves) (keyword : String) :
    Inlines (ClauseMeans means) (clause keyword tokens)
      (fun values => Option.Rel (resolves values)) := by
  intro before x y after h values inlined rest pre post z tail room resolved before'
  cases h with
  | none =>
      cases tail
      cases resolved
      refine ⟨none, none, rfl, ?_, fun _ _ _ => .none⟩
      rw [show before' ++ parameterTypes [] = before' from List.append_nil _]
      exact .none
  | some present =>
      obtain ⟨l, rfl, body⟩ := Inlined.plain_cons (by simp) tail
      cases resolved with
      | some resolved =>
      obtain ⟨x', y', rfl, means, same⟩ := part present body room resolved before'
      exact ⟨some x', some y', rfl, .some means, fun pre' post' room' => .some (same pre' post' room')⟩

end

end FleetStore.Descriptor
