import FleetStore.Descriptor.Token

/-! # The grammar of descriptors

A syntax tree for each rule of the grammar, and the tokens that it stands for. A
list of tokens is derivable from a rule if it is what some tree of the rule stands
for:

    statement  ::=  verb category ['SET' set] ['WHERE' or] ['SORT' sort] ['LIMIT' term]
    set        ::=  key '=' term {',' key '=' term}
    or         ::=  and {'OR' and}
    and        ::=  test {'AND' test}
    test       ::=  'NOT' test | key operator term | key 'IN' term
    sort       ::=  key ('ASC' | 'DSC') {',' key ('ASC' | 'DSC')}
    term       ::=  parameter | quoted text | word

Keys are quoted texts, and the words that are terms are the bare literals. No list
of tokens is derivable in two ways.
-/

namespace FleetStore.Descriptor.Syntax

/-- A parameter, a quoted text or a bare word in the place of a value. -/
inductive Term where
  | parameter (type : ValueType)
  | quoted (text : String)
  | word (text : String)

def Term.token : Term → Token
  | .parameter type => .parameter type
  | .quoted text => .quoted text
  | .word text => .word text

/-- A condition that is not made up by `AND` or `OR`. -/
inductive Test where
  | not (t : Test)
  | compare (key : String) (op : Comparison) (term : Term)
  | member (key : String) (term : Term)

def Test.tokens : Test → List Token
  | .not t => .word "NOT" :: t.tokens
  | .compare key op term => [.quoted key, .operator op, term.token]
  | .member key term => [.quoted key, .word "IN", term.token]

/-- One item at least, with separators between the items. -/
structure Chain (α : Type) where
  first : α
  more : List α

namespace Chain

variable {α : Type}

def items (c : Chain α) : List α :=
  c.first :: c.more

/-- The tokens of items that each come after a separator. -/
def tokensAfter (item : α → List Token) (separator : Token) (l : List α) : List Token :=
  l.flatMap fun x => separator :: item x

def tokens (item : α → List Token) (separator : Token) (c : Chain α) : List Token :=
  item c.first ++ tokensAfter item separator c.more

end Chain

abbrev Conjunction : Type := Chain Test

def Conjunction.tokens (c : Conjunction) : List Token :=
  Chain.tokens Test.tokens (.word "AND") c

/-- Conjunctions joined by `OR`. -/
abbrev Disjunction : Type := Chain Conjunction

def Disjunction.tokens (d : Disjunction) : List Token :=
  Chain.tokens Conjunction.tokens (.word "OR") d

/-- A key and the term that it is set to. -/
structure Assignment where
  key : String
  term : Term

def Assignment.tokens (a : Assignment) : List Token :=
  [.quoted a.key, .operator .equal, a.term.token]

/-- A key to sort by, with its direction. -/
structure SortKey where
  key : String
  direction : SortDirection

def SortKey.tokens (k : SortKey) : List Token :=
  [.quoted k.key, .word k.direction.word]

/-- A clause is a keyword and what comes after it, or nothing at all. -/
def clause {α : Type} (keyword : String) (tokens : α → List Token) : Option α → List Token
  | none => []
  | some x => .word keyword :: tokens x

/-- A statement as it is written. -/
structure Statement where
  kind : StatementKind
  category : String
  set : Option (Chain Assignment)
  filter : Option Disjunction
  sort : Option (Chain SortKey)
  limit : Option Term

namespace Statement

def limitTokens (s : Statement) : List Token :=
  clause "LIMIT" (fun t => [t.token]) s.limit

def sortTokens (s : Statement) : List Token :=
  clause "SORT" (Chain.tokens SortKey.tokens .comma) s.sort ++ s.limitTokens

def filterTokens (s : Statement) : List Token :=
  clause "WHERE" Disjunction.tokens s.filter ++ s.sortTokens

def setTokens (s : Statement) : List Token :=
  clause "SET" (Chain.tokens Assignment.tokens .comma) s.set ++ s.filterTokens

/-- The tokens of a statement: its verb, its category and its clauses in their order. -/
def tokens (s : Statement) : List Token :=
  .word s.kind.verb :: .word s.category :: s.setTokens

end Statement

/-! ## What may come next -/

/-- The tokens do not go on with a separator. -/
def StopsAt (separator : Token) (l : List Token) : Prop :=
  l.head? ≠ some separator

/-- The tokens are at their end or go on with one of some keywords. -/
def GoesOn (keywords : List String) (l : List Token) : Prop :=
  l = [] ∨ ∃ w ∈ keywords, ∃ rest, l = .word w :: rest

theorem GoesOn.clause {α : Type} {keywords : List String} {l : List Token} (h : GoesOn keywords l)
    (keyword : String) (tokens : α → List Token) (x : Option α) :
    GoesOn (keyword :: keywords) (Syntax.clause keyword tokens x ++ l) := by
  cases x with
  | none => exact h.imp_right fun ⟨w, member, rest⟩ => ⟨w, List.mem_cons_of_mem _ member, rest⟩
  | some x => exact .inr ⟨keyword, List.mem_cons_self, _, rfl⟩

theorem GoesOn.stopsAt {keywords : List String} {l : List Token} (h : GoesOn keywords l)
    {separator : Token} (other : ∀ w ∈ keywords, Token.word w ≠ separator) :
    StopsAt separator l := by
  rcases h with rfl | ⟨w, member, rest, rfl⟩
  · simp [StopsAt]
  · simpa [StopsAt] using other w member

theorem Statement.goesOn_limit (s : Statement) : GoesOn ["LIMIT"] s.limitTokens := by
  have next : GoesOn ["LIMIT"] (s.limitTokens ++ []) := GoesOn.clause (.inl rfl) _ _ _
  rwa [List.append_nil] at next

theorem Statement.goesOn_sort (s : Statement) : GoesOn ["SORT", "LIMIT"] s.sortTokens :=
  s.goesOn_limit.clause _ _ _

theorem Statement.goesOn_filter (s : Statement) : GoesOn ["WHERE", "SORT", "LIMIT"] s.filterTokens :=
  s.goesOn_sort.clause _ _ _

/-! ## No tokens are derivable in two ways -/

/-- Trees are told apart by their tokens, also where other tokens follow them, if only
these meet a condition. -/
def Distinct {α : Type} (tokens : α → List Token) (follow : List Token → Prop) : Prop :=
  ∀ x y l m, follow l → follow m → tokens x ++ l = tokens y ++ m → x = y ∧ l = m

theorem Term.token_inj {t u : Term} (h : t.token = u.token) : t = u := by
  cases t <;> cases u <;> simp_all [Term.token]

theorem Test.distinct : Distinct Test.tokens fun _ => True := by
  intro t
  induction t with
  | not t ih =>
      intro u l m _ _ same
      cases u with
      | not u =>
          simp only [Test.tokens, List.cons_append, List.cons.injEq, true_and] at same
          obtain ⟨rfl, rest⟩ := ih u l m trivial trivial same
          exact ⟨rfl, rest⟩
      | compare | member => simp [Test.tokens] at same
  | compare key op term =>
      intro u l m _ _ same
      cases u with
      | compare key' op' term' =>
          simp only [Test.tokens, List.cons_append, List.nil_append, List.cons.injEq,
            Token.quoted.injEq, Token.operator.injEq] at same
          obtain ⟨rfl, rfl, terms, rest⟩ := same
          exact ⟨by rw [Term.token_inj terms], rest⟩
      | not | member => simp [Test.tokens] at same
  | member key term =>
      intro u l m _ _ same
      cases u with
      | member key' term' =>
          simp only [Test.tokens, List.cons_append, List.nil_append, List.cons.injEq,
            Token.quoted.injEq, true_and] at same
          obtain ⟨rfl, terms, rest⟩ := same
          exact ⟨by rw [Term.token_inj terms], rest⟩
      | not | compare => simp [Test.tokens] at same

theorem Assignment.distinct : Distinct Assignment.tokens fun _ => True := by
  intro a b l m _ _ same
  simp only [Assignment.tokens, List.cons_append, List.nil_append, List.cons.injEq,
    Token.quoted.injEq, true_and] at same
  obtain ⟨keys, terms, rest⟩ := same
  cases a
  cases b
  simp only at keys terms
  exact ⟨by rw [keys, Term.token_inj terms], rest⟩

theorem SortDirection.word_inj {d e : SortDirection} (h : d.word = e.word) : d = e := by
  cases d <;> cases e <;> first | rfl | exact absurd h (by decide)

theorem SortKey.distinct : Distinct SortKey.tokens fun _ => True := by
  intro a b l m _ _ same
  simp only [SortKey.tokens, List.cons_append, List.nil_append, List.cons.injEq,
    Token.quoted.injEq, Token.word.injEq] at same
  obtain ⟨keys, directions, rest⟩ := same
  cases a
  cases b
  simp only at keys directions
  exact ⟨by rw [keys, SortDirection.word_inj directions], rest⟩

/-- What follows an item of a chain is what follows the chain or a separator. -/
theorem follow_after {α : Type} {item : α → List Token} {follow : List Token → Prop}
    {separator : Token} (separated : ∀ l, follow (separator :: l)) (l : List α) {rest : List Token}
    (h : follow rest) : follow (Chain.tokensAfter item separator l ++ rest) := by
  cases l with
  | nil => exact h
  | cons x l => exact separated _

theorem Distinct.after {α : Type} {item : α → List Token} {follow : List Token → Prop}
    {separator : Token} (h : Distinct item follow) (separated : ∀ l, follow (separator :: l)) :
    Distinct (Chain.tokensAfter item separator) fun l => follow l ∧ StopsAt separator l := by
  intro xs
  induction xs with
  | nil =>
      intro ys l m first second same
      cases ys with
      | nil => exact ⟨rfl, same⟩
      | cons y ys => exact absurd (congrArg List.head? same) first.2
  | cons x xs ih =>
      intro ys l m first second same
      cases ys with
      | nil => exact absurd (congrArg List.head? same).symm second.2
      | cons y ys =>
          simp only [Chain.tokensAfter, List.flatMap_cons, List.cons_append, List.append_assoc,
            List.cons.injEq, true_and] at same
          obtain ⟨rfl, others⟩ := h x y _ _ (follow_after separated xs first.1)
            (follow_after separated ys second.1) same
          obtain ⟨rfl, rest⟩ := ih ys l m first second others
          exact ⟨rfl, rest⟩

theorem Distinct.chain {α : Type} {item : α → List Token} {follow : List Token → Prop}
    {separator : Token} (h : Distinct item follow) (separated : ∀ l, follow (separator :: l)) :
    Distinct (Chain.tokens item separator) fun l => follow l ∧ StopsAt separator l := by
  rintro ⟨x, xs⟩ ⟨y, ys⟩ l m first second same
  simp only [Chain.tokens, List.append_assoc] at same
  obtain ⟨rfl, others⟩ := h x y _ _ (follow_after separated xs first.1)
    (follow_after separated ys second.1) same
  obtain ⟨rfl, rest⟩ := h.after separated xs ys l m first second others
  exact ⟨rfl, rest⟩

theorem Distinct.clause {α : Type} {tokens : α → List Token} {follow : List Token → Prop}
    {keyword : String} (h : Distinct tokens follow) :
    Distinct (clause keyword tokens) fun l => follow l ∧ StopsAt (.word keyword) l := by
  intro x y l m first second same
  cases x with
  | none =>
      cases y with
      | none => exact ⟨rfl, same⟩
      | some y => exact absurd (congrArg List.head? same) first.2
  | some x =>
      cases y with
      | none => exact absurd (congrArg List.head? same).symm second.2
      | some y =>
          simp only [Syntax.clause, List.cons_append, List.cons.injEq, true_and] at same
          obtain ⟨rfl, rest⟩ := h x y l m first.1 second.1 same
          exact ⟨rfl, rest⟩

theorem Term.distinct : Distinct (fun t : Term => [t.token]) fun _ => True := by
  intro t u l m _ _ same
  simp only [List.cons_append, List.nil_append, List.cons.injEq] at same
  exact ⟨Term.token_inj same.1, same.2⟩

theorem Conjunction.distinct :
    Distinct Conjunction.tokens fun l => True ∧ StopsAt (.word "AND") l :=
  Test.distinct.chain fun _ => trivial

theorem Disjunction.distinct : Distinct Disjunction.tokens
    fun l => (True ∧ StopsAt (.word "AND") l) ∧ StopsAt (.word "OR") l :=
  Conjunction.distinct.chain fun _ => ⟨trivial, by simp [StopsAt]⟩

theorem StatementKind.verb_inj {k k' : StatementKind} (h : k.verb = k'.verb) : k = k' := by
  have same := StatementKind.ofVerb?_verb k
  rw [h, StatementKind.ofVerb?_verb] at same
  exact (Option.some.inj same).symm

/-- No list of tokens is derivable from the grammar in two ways. -/
theorem Statement.tokens_inj {s t : Statement} (h : s.tokens = t.tokens) : s = t := by
  simp only [tokens, List.cons.injEq, Token.word.injEq] at h
  obtain ⟨verbs, categories, clauses⟩ := h
  have sets := (Assignment.distinct.chain (fun _ => trivial)).clause s.set t.set _ _
    ⟨⟨trivial, s.goesOn_filter.stopsAt (by simp)⟩, s.goesOn_filter.stopsAt (by simp)⟩
    ⟨⟨trivial, t.goesOn_filter.stopsAt (by simp)⟩, t.goesOn_filter.stopsAt (by simp)⟩ clauses
  have filters := Disjunction.distinct.clause s.filter t.filter _ _
    ⟨⟨⟨trivial, s.goesOn_sort.stopsAt (by simp)⟩, s.goesOn_sort.stopsAt (by simp)⟩,
      s.goesOn_sort.stopsAt (by simp)⟩
    ⟨⟨⟨trivial, t.goesOn_sort.stopsAt (by simp)⟩, t.goesOn_sort.stopsAt (by simp)⟩,
      t.goesOn_sort.stopsAt (by simp)⟩ sets.2
  have sorts := (SortKey.distinct.chain (fun _ => trivial)).clause s.sort t.sort _ _
    ⟨⟨trivial, s.goesOn_limit.stopsAt (by simp)⟩, s.goesOn_limit.stopsAt (by simp)⟩
    ⟨⟨trivial, t.goesOn_limit.stopsAt (by simp)⟩, t.goesOn_limit.stopsAt (by simp)⟩ filters.2
  have last : Distinct (clause "LIMIT" fun t : Term => [t.token]) _ := Term.distinct.clause
  have limits := last s.limit t.limit [] [] ⟨trivial, by simp [StopsAt]⟩
    ⟨trivial, by simp [StopsAt]⟩ (by simpa [limitTokens] using sorts.2)
  cases s
  cases t
  simp only at verbs categories sets filters sorts limits
  rw [StatementKind.verb_inj verbs, categories, sets.1, filters.1, sorts.1, limits.1]

end FleetStore.Descriptor.Syntax
