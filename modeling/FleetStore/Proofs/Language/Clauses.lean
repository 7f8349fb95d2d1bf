import FleetStore.Proofs.Language.Reading

/-! # What the clauses of a statement read

Each reader of a clause reads its rule of the grammar. Conditions are read by three
readers, one for each level of binding; assignments also look back at the keys
that were set before.
-/

namespace FleetStore.Descriptor

open Syntax

variable {c : Category}

/-! ## Conditions -/

theorem isOrdering_iff {op : Comparison} : op.isOrdering = true ↔ op ∈ orderings := by
  cases op <;> decide

theorem isOrdered_iff {type : ValueType} : type.isOrdered = true ↔ type ∈ orderedTypes := by
  cases type with
  | scalar t => cases t <;> decide
  | list t => cases t <;> decide

theorem readOperand_ok_iff {key : Key} {op : Comparison} {s s' : State} {e : Condition} :
    readOperand key op s = .ok (e, s') ↔ (op ∈ orderings → key.type ∈ orderedTypes) ∧
      ∃ term value, Takes s.rest [term.token] s'.rest ∧
        Term.Means key.type s.signature term value s'.signature ∧ e = .compare key op value := by
  have reads := readTerm_reads key key.type
  simp only [readOperand, ← isOrdering_iff, ← isOrdered_iff]
  constructor
  · intro h
    split at h
    · cases h
    · next allowed =>
        obtain ⟨value, read, rfl⟩ := onValue_eq_ok_iff.1 h
        obtain ⟨term, taken, typed, -⟩ := (reads _ _ _).1 read
        exact ⟨by simpa using allowed, term, value, taken, typed, rfl⟩
  · rintro ⟨allowed, term, value, taken, typed, rfl⟩
    rw [if_neg (by simpa using allowed)]
    exact onValue_eq_ok_iff.2 ⟨value, (reads _ _ _).2 ⟨term, taken, typed, trivial⟩, rfl⟩

theorem readMembership_ok_iff {key : Key} {s s' : State} {e : Condition} :
    readMembership key s = .ok (e, s') ↔ ∃ type, key.type = .scalar type ∧
      Takes s.rest [.parameter (.list type)] s'.rest ∧
      s'.signature = s.signature ++ [.list type] ∧ e = .member key (.parameter s.signature.length) := by
  obtain ⟨l, before⟩ := s
  obtain ⟨rest, after⟩ := s'
  constructor
  · intro h
    unfold readMembership at h
    split at h
    · cases h
    · next list single =>
        split at h
        · next type offset l found =>
            simp only at found
            subst found
            obtain ⟨value, read, rfl⟩ := onValue_eq_ok_iff.1 h
            obtain ⟨rfl, rfl, state⟩ := ensureType_ok_iff.1 read
            cases state
            cases shape : key.type with
            | list t => simp [shape, ValueType.listOf?] at single
            | scalar t =>
                obtain rfl : .list t = type := by simpa [shape, ValueType.listOf?] using single
                exact ⟨t, rfl, .cons _ _ .nil, rfl, rfl⟩
        · cases h
  · rintro ⟨type, single, taken, same, rfl⟩
    simp only at taken same
    subst same
    cases taken with
    | cons _ offset more =>
        cases more
        simp only [readMembership, single, ValueType.listOf?, readTerm, onValue_eq_ok_iff,
          ensureType_ok_iff, true_and, and_true, exists_eq_left]

/-- The trees of comparisons and membership tests. -/
def Syntax.Test.IsComparison : Test → Prop
  | .not _ => False
  | .compare _ _ _ | .member _ _ => True

theorem readComparison_ok_iff {s s' : State} {e : Condition} :
    readComparison c s = .ok (e, s') ↔ ∃ t : Test, t.IsComparison ∧ Takes s.rest t.tokens s'.rest ∧
      t.Means c s.signature e s'.signature := by
  constructor
  · intro h
    unfold readComparison at h
    split at h
    · cases h
    · next key t start =>
        obtain ⟨name, first, known, same⟩ := readKey_ok_iff.1 start
        split at h
        · next offset rest found =>
            obtain ⟨type, single, taken, after, rfl⟩ := readMembership_ok_iff.1 h
            rw [after, same]
            refine ⟨.member name (.parameter (.list type)), trivial, ?_, .member known single⟩
            exact first.append (found ▸ .cons _ _ taken)
        · next op offset rest found =>
            obtain ⟨ordered, term, value, taken, typed, rfl⟩ := readOperand_ok_iff.1 h
            simp only [same] at typed
            refine ⟨.compare name op term, trivial, ?_, .compare known ordered typed⟩
            exact first.append (found ▸ .cons _ _ taken)
        · cases h
  · obtain ⟨l, before⟩ := s
    obtain ⟨rest, after⟩ := s'
    rintro ⟨t, comparison, taken, meant⟩
    simp only at taken meant
    cases meant with
    | not => exact comparison.elim
    | compare known ordered typed =>
        cases taken with
        | cons _ offset taken =>
            cases taken with
            | cons _ offset taken =>
                simp only [readComparison, readKey, known]
                exact readOperand_ok_iff.2 ⟨ordered, _, _, taken, typed, rfl⟩
    | member known single =>
        cases taken with
        | cons _ offset taken =>
            cases taken with
            | cons _ offset taken =>
                simp only [readComparison, readKey, known]
                exact readMembership_ok_iff.2 ⟨_, single, taken, rfl, rfl⟩

theorem readNegations_ok_iff {before : List ValueType} {l : List Lexeme} {e : Condition}
    {s' : State} : readNegations c before l = .ok (e, s') ↔
      ∃ t : Test, Takes l t.tokens s'.rest ∧ t.Means c before e s'.signature := by
  fun_induction readNegations c before l generalizing e with
  | case1 rest offset ih =>
      rw [onValue_eq_ok_iff]
      constructor
      · rintro ⟨e, read, rfl⟩
        obtain ⟨t, taken, meant⟩ := ih.1 read
        exact ⟨.not t, .cons _ _ taken, .not meant⟩
      · rintro ⟨t, taken, meant⟩
        obtain ⟨left, after⟩ := s'
        simp only at meant
        cases meant with
        | not meant =>
            cases taken with
            | cons _ _ taken => exact ⟨_, ih.2 ⟨_, taken, meant⟩, rfl⟩
        | compare | member => cases taken
  | case2 l notNegated =>
      rw [readComparison_ok_iff]
      constructor
      · rintro ⟨t, -, taken, meant⟩
        exact ⟨t, taken, meant⟩
      · rintro ⟨t, taken, meant⟩
        refine ⟨t, ?_, taken, meant⟩
        cases t with
        | not t =>
            cases taken with
            | cons _ offset taken => exact absurd rfl (notNegated _ _)
        | compare | member => trivial

theorem readUnary_reads : Reads (readUnary c) Test.tokens (Test.Means c) Anything := by
  intro s e s'
  rw [readUnary, readNegations_ok_iff]
  simp only [and_true]

theorem readConjunction_reads : Reads (readConjunction c) Conjunction.tokens (Conjunction.Means c)
    fun l => True ∧ StopsAt (.word "AND") l := by
  refine (sequence_reads (fun _ => readUnary_reads) fun _ => trivial).onValue fun before t e after => ?_
  simp only [eachAfter_iff_each]
  constructor
  · rintro ⟨all⟩
    exact ⟨(_, _), all, rfl⟩
  · rintro ⟨x, all, rfl⟩
    exact .intro all

theorem readCondition_reads : Reads (readCondition c) Disjunction.tokens (Disjunction.Means c)
    fun l => (True ∧ StopsAt (.word "AND") l) ∧ StopsAt (.word "OR") l := by
  have separated : ∀ l, True ∧ StopsAt (.word "AND") (Token.word "OR" :: l) :=
    fun l => ⟨trivial, by simp [StopsAt]⟩
  refine (sequence_reads (fun _ => readConjunction_reads) separated).onValue
    fun before t e after => ?_
  simp only [eachAfter_iff_each]
  constructor
  · rintro ⟨all⟩
    exact ⟨(_, _), all, rfl⟩
  · rintro ⟨x, all, rfl⟩
    exact .intro all

/-! ## Assignments -/

theorem readAssignment_reads (seen : List (Key × Descriptor.Term)) :
    Reads (readAssignment c seen) Assignment.tokens
      (fun before a p after => Assignment.Means c before a p after ∧ ∀ q ∈ seen, q.1.name ≠ a.key)
      Anything := by
  intro s p s'
  constructor
  · intro h
    unfold readAssignment at h
    split at h
    · cases h
    · next key t start =>
        obtain ⟨name, first, known, same⟩ := readKey_ok_iff.1 start
        split at h
        · cases h
        · next fresh =>
            split at h
            · next offset rest found =>
                obtain ⟨value, read, rfl⟩ := onValue_eq_ok_iff.1 h
                obtain ⟨term, taken, typed, -⟩ := (readTerm_reads _ _ _ _ _).1 read
                simp only [same] at typed
                refine ⟨⟨name, term⟩, first.append (found ▸ .cons _ _ taken),
                  ⟨.intro known typed, ?_⟩, trivial⟩
                simpa [key?_name known] using fresh
            · cases h
  · obtain ⟨l, before⟩ := s
    obtain ⟨rest, after⟩ := s'
    rintro ⟨a, taken, ⟨meant, fresh⟩, -⟩
    simp only at taken meant
    cases meant with
    | intro known typed =>
        cases taken with
        | cons _ offset taken =>
            cases taken with
            | cons _ offset taken =>
                rename_i name key term value _ _
                have unset : ¬(seen.any fun q => q.1.name == key.name) = true := by
                  simpa [key?_name known] using fresh
                simp only [readAssignment, readKey, known]
                rw [if_neg unset]
                exact onValue_eq_ok_iff.2
                  ⟨_, (readTerm_reads _ _ _ _ _).2 ⟨_, taken, typed, trivial⟩, rfl⟩

theorem Syntax.Assignment.Means.name {before after : List ValueType} {a : Assignment}
    {p : Key × Descriptor.Term} (h : Assignment.Means c before a p after) : p.1.name = a.key := by
  cases h with
  | intro known typed => exact key?_name known

/-- Looking back at the keys before is asking that no key is set twice. -/
theorem eachAfter_iff_once {seen result : List (Key × Descriptor.Term)}
    {before after : List ValueType} {assignments : List Assignment} :
    EachAfter (fun seen before (a : Assignment) p after =>
        Assignment.Means c before a p after ∧ ∀ q ∈ seen, q.1.name ≠ a.key)
      seen before assignments result after ↔
    Each (Assignment.Means c) before assignments result after ∧
      (assignments.map Assignment.key).Nodup ∧ ∀ a ∈ assignments, ∀ q ∈ seen, q.1.name ≠ a.key := by
  induction assignments generalizing seen before result with
  | nil =>
      constructor
      · rintro ⟨⟩
        exact ⟨.nil, .nil, by simp⟩
      · rintro ⟨⟨⟩, -⟩
        exact .nil
  | cons a assignments ih =>
      constructor
      · intro h
        cases h with
        | cons first more =>
            obtain ⟨meant, fresh⟩ := first
            obtain ⟨all, once, others⟩ := ih.1 more
            refine ⟨.cons meant all, List.nodup_cons.2 ⟨?_, once⟩, ?_⟩
            · intro member
              obtain ⟨b, inside, same⟩ := List.mem_map.1 member
              exact others b inside _ (List.mem_append_right _ (List.mem_singleton_self _))
                (meant.name.trans same.symm)
            · intro b member q set
              rcases List.mem_cons.1 member with rfl | inside
              · exact fresh q set
              · exact others b inside q (List.mem_append_left _ set)
      · rintro ⟨all, once, others⟩
        cases all with
        | cons meant all =>
            obtain ⟨absent, once⟩ := List.nodup_cons.1 once
            refine .cons ⟨meant, others a List.mem_cons_self⟩ (ih.2 ⟨all, once, ?_⟩)
            intro b inside q set
            rcases List.mem_append.1 set with earlier | last
            · exact others b (List.mem_cons_of_mem _ inside) q earlier
            · rw [List.mem_singleton.1 last, meant.name]
              intro same
              exact absent (same ▸ List.mem_map_of_mem inside)

theorem readAssignments_reads : Reads (readAssignments c) (Chain.tokens Assignment.tokens .comma)
    (AssignmentsMean c) fun l => True ∧ StopsAt .comma l := by
  refine (sequence_reads readAssignment_reads fun _ => trivial).onValue
    fun before a result after => ?_
  simp only [eachAfter_iff_once]
  constructor
  · rintro ⟨all, once⟩
    cases all with
    | cons first more => exact ⟨(_, _), ⟨.cons first more, once, by simp⟩, rfl⟩
  · rintro ⟨x, ⟨all, once, -⟩, rfl⟩
    exact .intro all once

/-! ## Sort keys -/

theorem ofWord?_word (d : SortDirection) : SortDirection.ofWord? d.word = some d := by
  cases d <;> decide

theorem word_of_ofWord? {word : String} {d : SortDirection}
    (h : SortDirection.ofWord? word = some d) : d.word = word := by
  have found := List.find?_some h
  simpa using found

theorem readSortKey_reads : Reads (readSortKey c) SortKey.tokens (SortKey.Means c) Anything := by
  intro s p s'
  constructor
  · intro h
    unfold readSortKey at h
    split at h
    · cases h
    · next key t start =>
        obtain ⟨name, first, known, same⟩ := readKey_ok_iff.1 start
        split at h
        · next word offset rest found =>
            split at h
            · next direction directed =>
                cases h
                rw [← word_of_ofWord? directed] at found
                refine ⟨⟨name, direction⟩, first.append (found ▸ .cons _ _ .nil), ?_, trivial⟩
                exact same ▸ .intro known
            · cases h
        · cases h
  · obtain ⟨l, before⟩ := s
    obtain ⟨rest, after⟩ := s'
    rintro ⟨k, taken, meant, -⟩
    simp only at taken meant
    cases meant with
    | intro known =>
        cases taken with
        | cons _ offset taken =>
            cases taken with
            | cons _ offset taken =>
                cases taken
                simp only [readSortKey, readKey, known, ofWord?_word]

theorem readSortKeys_reads : Reads (readSortKeys c) (Chain.tokens SortKey.tokens .comma)
    (SortKeysMean c) fun l => True ∧ StopsAt .comma l := by
  refine (sequence_reads (fun _ => readSortKey_reads) fun _ => trivial).onValue
    fun before a result after => ?_
  simp only [eachAfter_iff_each]
  constructor
  · rintro ⟨all⟩
    cases all with
    | cons first more => exact ⟨(_, _), .cons first more, rfl⟩
  · rintro ⟨x, all, rfl⟩
    exact .intro all

/-! ## Limits -/

theorem readNat?_getLast {digits : List Char} {n : Nat} (h : Text.readNat? digits = some n) :
    ∃ d, digits.getLast? = some d ∧ d.isDigit = true := by
  unfold Text.readNat? at h
  split at h
  · cases h
  · next decimal =>
      have parts : digits ≠ [] ∧ ∀ d ∈ digits, d.isDigit = true := by simpa using decimal
      exact ⟨_, List.getLast?_eq_some_getLast parts.1, parts.2 _ (List.getLast_mem parts.1)⟩

theorem readInt?_getLast {cs : List Char} {n : Int} (h : Text.readInt? cs = some n) :
    ∃ d, cs.getLast? = some d ∧ d.isDigit = true := by
  unfold Text.readInt? at h
  split at h
  · obtain ⟨m, read, _⟩ := Option.map_eq_some_iff.1 h
    obtain ⟨d, last, digit⟩ := readNat?_getLast read
    exact ⟨d, by simp [List.getLast?_cons, last], digit⟩
  · obtain ⟨m, read, _⟩ := Option.map_eq_some_iff.1 h
    obtain ⟨k, read, _⟩ := Option.bind_eq_some_iff.1 read
    obtain ⟨d, last, digit⟩ := readNat?_getLast read
    exact ⟨d, by simp [List.getLast?_cons, last], digit⟩
  · obtain ⟨m, read, _⟩ := Option.map_eq_some_iff.1 h
    exact readNat?_getLast read

/-- The bare literals for 32-bit integers are the numbers in their range. -/
theorem literal?_int_iff {word : String} {n : Int32} :
    literal? word = some (.int n) ↔ (Text.readInt? word.toList).bind Text.int32? = some n := by
  constructor
  · intro h
    unfold literal? at h
    split at h
    · simp [Value.int, Value.boolean] at h
    split at h
    · simp [Value.int, Value.boolean] at h
    split at h
    · obtain ⟨m, _, same⟩ := Option.map_eq_some_iff.1 h
      simp [Value.int, Value.long] at same
    split at h
    · next found =>
        simp only [Option.some.injEq, Value.int, Value.scalar.injEq, heq_eq_eq, true_and] at h
        exact h ▸ found
    split at h
    · simp [readFinite?, Value.int, Value.double, Option.bind_eq_some_iff] at h
    · cases h
  · intro h
    obtain ⟨i, read, _⟩ := Option.bind_eq_some_iff.1 h
    obtain ⟨d, last, digit⟩ := readInt?_getLast read
    have notTrue : word ≠ "true" := by
      rintro rfl
      simp [Text.readInt?, Text.readNat?] at read
    have notFalse : word ≠ "false" := by
      rintro rfl
      simp [Text.readInt?, Text.readNat?] at read
    have notLong : beforeL? word.toList = none := by
      unfold beforeL?
      rw [if_neg]
      intro long
      obtain rfl : d = 'L' := Option.some.inj (last.symm.trans long)
      exact absurd digit (by decide)
    simp only [literal?, notTrue, notFalse, if_false, notLong, h]

theorem readLimit_reads :
    Reads readLimit (fun t : Syntax.Term => [t.token]) Term.Limits Anything := by
  rintro ⟨l, before⟩ limit ⟨rest, after⟩
  constructor
  · intro h
    unfold readLimit at h
    split at h
    · next offset l found =>
        cases h
        simp only at found
        subst found
        exact ⟨.parameter (.scalar .int), .cons _ _ .nil, .parameter, trivial⟩
    · cases h
    · next word offset l found =>
        split at h
        · cases h
        · next n stands =>
            split at h
            · next positive =>
                cases h
                simp only at found
                subst found
                exact ⟨.word word, .cons _ _ .nil, .word word n (literal?_int_iff.2 stands) positive,
                  trivial⟩
            · cases h
    · cases h
  · rintro ⟨t, taken, meant, -⟩
    simp only at taken meant
    cases meant with
    | parameter =>
        cases taken with
        | cons _ offset more =>
            cases more
            rfl
    | word text n stands positive =>
        cases taken with
        | cons _ offset more =>
            cases more
            simp only [Term.token, readLimit, literal?_int_iff.1 stands, if_pos positive]

end FleetStore.Descriptor
