import FleetStore.Proofs.Language.Compile
import FleetStore.Proofs.Language.Spelling

/-! # Statements that fill one key

The name of the category and the names of sort keys in a statement that compiles were spelled
in its text, so they can be spelled in another text, and a statement can be written
that adds a record with nothing but a value of one of these keys in it.
-/

namespace FleetStore.Descriptor

open Syntax

variable {c : Category} {descriptor : String} {r : Compiled}

/-- What some parts mean, each of them means. -/
theorem Syntax.Each.exists_item {α β : Type} {item : List ValueType → α → β → List ValueType → Prop}
    {before after : List ValueType} {xs : List α} {ys : List β} (h : Each item before xs ys after) :
    ∀ y ∈ ys, ∃ x ∈ xs, ∃ before after, item before x y after := by
  induction h with
  | nil => simp
  | cons first _ ih =>
      rw [List.forall_mem_cons]
      refine ⟨⟨_, List.mem_cons_self, _, _, first⟩, fun y member => ?_⟩
      obtain ⟨x, inside, means⟩ := ih y member
      exact ⟨x, List.mem_cons_of_mem _ inside, means⟩

/-- The tokens of an item are among those of its chain. -/
theorem Syntax.Chain.mem_tokens {α : Type} {item : α → List Token} (separator : Token) {c : Chain α}
    {x : α} {t : Token} (member : t ∈ item x) (inside : x ∈ c.items) :
    t ∈ c.tokens item separator := by
  rcases List.mem_cons.1 inside with rfl | later
  · exact List.mem_append_left _ member
  · exact List.mem_append_right _
      (List.mem_flatMap.2 ⟨x, later, List.mem_cons_of_mem _ member⟩)

/-- The names of the category and of the sort keys of a statement that compiles can be spelled, and
a sort key is found by its name. -/
theorem compile_spells (h : compile c descriptor = .ok r) :
    (Token.word c.name).Spellable ∧
      ∀ k ∈ r.sort, c.key? k.1.name = some k.1 ∧ (Token.quoted k.1.name).Spellable := by
  obtain ⟨lexemes, cut, s, same, meant⟩ := compile_ok_iff.1 h
  have spelled : ∀ t ∈ s.tokens, t.Spellable := fun t member => by
    rw [same] at member
    obtain ⟨l, inside, rfl⟩ := List.mem_map.1 member
    exact spellable_of_tokenize cut l inside
  cases meant with
  | intro category _ _ _ sorted _ =>
      refine ⟨category ▸ spelled _ (by simp [Statement.tokens]), fun k member => ?_⟩
      generalize written : s.sort = keys at sorted
      cases sorted with
      | none => simp at member
      | some present =>
          cases present with
          | intro all =>
              obtain ⟨x, inside, _, _, means⟩ := all.exists_item k member
              cases means with
              | @intro name key direction known =>
                  obtain rfl := key?_name known
                  refine ⟨known, spelled _ ?_⟩
                  have first : .quoted key.name ∈ SortKey.tokens ⟨key.name, direction⟩ :=
                    List.mem_cons_self
                  have token := Chain.mem_tokens .comma first inside
                  simp [Statement.tokens, Statement.setTokens, Statement.filterTokens,
                    Statement.sortTokens, written, clause, token]

/-- The tokens of a statement that adds a record with one key set to a parameter. -/
def fillingTokens (c : Category) (key : Key) : List Token :=
  [.word "ADD", .word c.name, .word "SET", .quoted key.name, .operator .equal, .parameter key.type]

/-- The statement that adds a record with one key set to a parameter. -/
def filling (c : Category) (key : Key) : Compiled :=
  { descriptor := String.ofList (spelled (fillingTokens c key)), category := c.name,
    kind := .write .add, signature := [key.type], assignments := [(key, .parameter 0)],
    condition := none, sort := [], limit := none }

theorem compile_filling {key : Key} (known : c.key? key.name = some key)
    (name : (Token.word c.name).Spellable) (plain : (Token.quoted key.name).Spellable) :
    compile c (filling c key).descriptor = .ok (filling c key) := by
  have verb : (Token.word "ADD").Spellable := by
    simp [Token.Spellable, isDelimiter, Text.isBlank]
  have set : (Token.word "SET").Spellable := by
    simp [Token.Spellable, isDelimiter, Text.isBlank]
  have spellable : ∀ t ∈ fillingTokens c key, t.Spellable := by
    simp only [fillingTokens, List.forall_mem_cons]
    exact ⟨verb, name, set, plain, trivial, trivial, by simp⟩
  obtain ⟨lexemes, cut, tokens⟩ := tokenize_spelled spellable
  let assignments : Chain Syntax.Assignment := ⟨⟨key.name, .parameter key.type⟩, []⟩
  let statement : Statement := ⟨.write .add, c.name, some assignments, none, none, none⟩
  have set : AssignmentsMean c [] assignments [(key, .parameter 0)] [key.type] :=
    .intro (.cons (.intro known .parameter) .nil) (by simp [assignments, Chain.items])
  have allowed : statement.Allowed := by simp [statement, Statement.Allowed]
  refine compile_ok_iff.2 ⟨lexemes, cut, statement, tokens.symm, ?_⟩
  exact Statement.Means.intro rfl allowed (.some set) .none .none .none

end FleetStore.Descriptor
