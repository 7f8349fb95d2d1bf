import FleetStore.Descriptor.Token
import FleetStore.Proofs.Except

/-! # How tokens are spelled

A token that can be spelled at all is what is read where its spelling stands, if nothing comes
right after it into which it would run on, and nothing else is ever read. A word is not
empty and has no delimiter in it, and a quoted text has no quote. So tokens that come
from one text can be spelled in another.
-/

namespace FleetStore.Descriptor

/-- How the letter of a type and the mark of a list are spelled. -/
def typeSpelling : ValueType → List Char
  | .scalar t => [t.letter]
  | .list t => [t.letter, '[']

namespace Token

def spelling : Token → List Char
  | .word text => text.toList
  | .quoted text => '\'' :: text.toList ++ ['\'']
  | .parameter type => '?' :: typeSpelling type
  | .comma => [',']
  | .operator op => op.symbol.toList

/-- Words are not empty and hold no delimiters, and quoted texts hold no quotes. -/
def Spellable : Token → Prop
  | .word text => text.toList ≠ [] ∧ ∀ c ∈ text.toList, isDelimiter c = false
  | .quoted text => '\'' ∉ text.toList
  | _ => True

/-- Nothing comes after a token into which it would run on. -/
def Ends : Token → List Char → Prop
  | .word _, rest | .parameter _, rest => ∀ c ∈ rest.head?, isDelimiter c = true
  | .operator .less, rest | .operator .greater, rest => rest.head? ≠ some '='
  | _, _ => True

end Token

/-! ## What stands is read -/

theorem readQuoted_spelling {text : String} (plain : '\'' ∉ text.toList) (rest : List Char) :
    readQuoted (text.toList ++ '\'' :: rest) = .ok (.quoted text, rest) := by
  have before : ∀ c ∈ text.toList, (c != '\'') = true := fun c member => by
    rw [bne_iff_ne]
    rintro rfl
    exact plain member
  unfold readQuoted
  rw [List.dropWhile_append_of_pos before, List.takeWhile_append_of_pos before]
  simp

theorem endParameter_spelling {type : ValueType} {rest : List Char}
    (ends : (Token.parameter type).Ends rest) :
    endParameter type rest = .ok (.parameter type, rest) := by
  unfold endParameter
  cases rest with
  | nil => rfl
  | cons c rest => simp [ends c rfl]

theorem readParameter_spelling {type : ValueType} {rest : List Char}
    (ends : (Token.parameter type).Ends rest) :
    readParameter (typeSpelling type ++ rest) = .ok (.parameter type, rest) := by
  have known (t : ScalarType) : ScalarType.ofLetter? t.letter = some t := by cases t <;> decide
  cases type with
  | list t => simp [typeSpelling, readParameter, known, endParameter_spelling ends]
  | scalar t =>
      -- What comes after a parameter is no mark of a list, since that is no delimiter.
      cases rest with
      | nil => simp [typeSpelling, readParameter, known, endParameter_spelling ends]
      | cons c rest =>
          have other : c ≠ '[' := by
            rintro rfl
            exact absurd (ends '[' rfl) (by decide)
          simp [typeSpelling, readParameter, known, endParameter_spelling ends, other]

theorem readToken_word {c : Char} (inside : isDelimiter c = false) (rest : List Char) :
    readToken c rest = .ok (.word (String.ofList (c :: rest.takeWhile (!isDelimiter ·))),
      rest.dropWhile (!isDelimiter ·)) := by
  simp only [isDelimiter, Bool.or_eq_false_iff, beq_eq_false_iff_ne] at inside
  simp [readToken, inside]

theorem takeWhile_append_stop {α : Type} {p : α → Bool} {l : List α} (all : ∀ x ∈ l, p x)
    {rest : List α} (stops : ∀ x ∈ rest.head?, p x = false) :
    (l ++ rest).takeWhile p = l ∧ (l ++ rest).dropWhile p = rest := by
  rw [List.takeWhile_append_of_pos all, List.dropWhile_append_of_pos all]
  cases rest with
  | nil => simp
  | cons x rest => simp [stops x rfl]

theorem readOperator_spelling {op : Comparison} {rest : List Char}
    (ends : (Token.operator op).Ends rest) :
    ∃ c cs, op.symbol.toList = c :: cs ∧ Text.isBlank c = false ∧
      readToken c (cs ++ rest) = .ok (.operator op, rest) := by
  have short {first second : Comparison} (other : rest.head? ≠ some '=') :
      readOperator first second rest = (.operator first, rest) := by
    unfold readOperator
    split
    · exact absurd rfl other
    · rfl
  cases op with
  | equal | notEqual | lessEqual | greaterEqual => exact ⟨_, _, rfl, by decide, rfl⟩
  | less | greater => exact ⟨_, _, rfl, by decide, congrArg Except.ok (short ends)⟩

/-- A token that can be spelled is read where it stands, if nothing comes right after it into which
it would run on. -/
theorem readToken_spelling {t : Token} {rest : List Char} (spellable : t.Spellable)
    (ends : t.Ends rest) : ∃ c cs, t.spelling = c :: cs ∧ Text.isBlank c = false ∧
      readToken c (cs ++ rest) = .ok (t, rest) := by
  cases t with
  | word text =>
      obtain ⟨some, plain⟩ := spellable
      obtain ⟨c, cs, letters⟩ := List.exists_cons_of_ne_nil some
      rw [letters] at plain
      have first : isDelimiter c = false := plain c List.mem_cons_self
      have inside : ∀ d ∈ cs, (!isDelimiter d) = true := fun d member => by
        simp [plain d (List.mem_cons_of_mem _ member)]
      have stops : ∀ d ∈ rest.head?, (!isDelimiter d) = false := fun d head => by simp [ends d head]
      obtain ⟨taken, dropped⟩ := takeWhile_append_stop inside stops
      have unblank : Text.isBlank c = false := by
        simp only [isDelimiter, Bool.or_eq_false_iff] at first
        simp [first]
      refine ⟨c, cs, letters, unblank, ?_⟩
      rw [readToken_word first, taken, dropped, ← letters, String.ofList_toList]
  | quoted text =>
      refine ⟨'\'', text.toList ++ ['\''], rfl, by decide, ?_⟩
      rw [List.append_assoc]
      exact readQuoted_spelling spellable rest
  | parameter type => exact ⟨_, _, rfl, by decide, readParameter_spelling ends⟩
  | comma => exact ⟨_, _, rfl, by decide, rfl⟩
  | operator op => exact readOperator_spelling ends

/-! ## Texts -/

theorem tokenizeFrom_blank {c : Char} (blank : Text.isBlank c = true) (offset : Nat)
    (rest : List Char) :
    tokenizeFrom offset (c :: rest) = tokenizeFrom (offset + c.utf8Size) rest := by
  rw [tokenizeFrom.eq_def]
  exact if_pos blank

theorem tokenizeFrom_token {c : Char} (unblank : Text.isBlank c = false) (offset : Nat)
    {rest after : List Char} {t : Token} (read : readToken c rest = .ok (t, after)) :
    tokenizeFrom offset (c :: rest) =
      (tokenizeFrom (offset + (Text.byteLength (c :: rest) - Text.byteLength after)) after).map
        (⟨t, offset⟩ :: ·) := by
  rw [tokenizeFrom.eq_def]
  refine (if_neg (by simp [unblank])).trans ?_
  split
  · simp_all
  · simp_all

theorem tokenizeFrom_spelling {t : Token} {rest : List Char} (spellable : t.Spellable)
    (ends : t.Ends rest) (offset : Nat) : tokenizeFrom offset (t.spelling ++ rest) =
      (tokenizeFrom (offset + Text.byteLength t.spelling) rest).map (⟨t, offset⟩ :: ·) := by
  obtain ⟨c, cs, letters, unblank, read⟩ := readToken_spelling spellable ends
  rw [letters, List.cons_append, tokenizeFrom_token unblank offset read]
  congr 2
  simp
  omega

/-- Tokens with a blank after each of them. -/
def spelled (tokens : List Token) : List Char :=
  tokens.flatMap fun t => t.spelling ++ [' ']

/-- Nothing runs on into a blank or past the end of a text. -/
theorem Token.ends_blank (t : Token) {rest : List Char}
    (blank : ∀ c ∈ rest.head?, Text.isBlank c = true) : t.Ends rest := by
  have delimits : ∀ c ∈ rest.head?, isDelimiter c = true := fun c next => by
    simp [isDelimiter, blank c next]
  have other : rest.head? ≠ some '=' := fun next => by
    have equals := blank '=' next
    contradiction
  cases t with
  | word | parameter => exact delimits
  | quoted | comma => trivial
  | operator op =>
      cases op with
      | less | greater => exact other
      | equal | notEqual | lessEqual | greaterEqual => trivial

/-- Tokens that can be spelled are the tokens of the text in which they are spelled. -/
theorem tokenize_spelled {tokens : List Token} (spellable : ∀ t ∈ tokens, t.Spellable) :
    ∃ lexemes, tokenize (String.ofList (spelled tokens)) = .ok lexemes ∧
      lexemes.map Lexeme.token = tokens := by
  have cut (offset : Nat) : ∃ lexemes, tokenizeFrom offset (spelled tokens) = .ok lexemes ∧
      lexemes.map Lexeme.token = tokens := by
    induction tokens generalizing offset with
    | nil => exact ⟨[], tokenizeFrom.eq_def offset [], rfl⟩
    | cons t tokens ih =>
        let after := offset + Text.byteLength t.spelling
        obtain ⟨lexemes, later, same⟩ :=
          ih (fun u member => spellable u (List.mem_cons_of_mem _ member)) (after + ' '.utf8Size)
        refine ⟨⟨t, offset⟩ :: lexemes, ?_, by simp [same]⟩
        have blank : ∀ c ∈ (' ' :: spelled tokens).head?, Text.isBlank c = true := by
          rintro c ⟨⟩
          decide
        have first := tokenizeFrom_spelling (spellable t List.mem_cons_self)
          (t.ends_blank blank) offset
        have skipped : tokenizeFrom after (' ' :: spelled tokens) = .ok lexemes :=
          (tokenizeFrom_blank (by decide) after _).trans later
        rw [skipped] at first
        simpa [spelled, List.append_assoc, Except.map] using first
  simpa [tokenize] using cut 0

/-! ## What is read stands there -/

/-- A text starts with the spelling of a token that can be spelled, and nothing comes after it into
which it would run on. -/
structure Token.Stands (t : Token) (text rest : List Char) : Prop where
  spellable : t.Spellable
  spelled : text = t.spelling ++ rest
  ends : t.Ends rest

theorem readQuoted_stands {rest after : List Char} {t : Token}
    (read : readQuoted rest = .ok (t, after)) : t.Stands ('\'' :: rest) after := by
  unfold readQuoted at read
  have parts := List.takeWhile_append_dropWhile (p := (· != '\'')) (l := rest)
  have closing := List.head?_dropWhile_not (· != '\'') rest
  split at read
  · contradiction
  · next quote after found =>
      cases read
      rw [found] at parts closing
      have closes : quote = '\'' := by simpa using closing
      refine ⟨fun member => ?_, ?_, trivial⟩
      · rw [String.toList_ofList] at member
        simpa using List.all_eq_true.1 List.all_takeWhile _ member
      · have text : rest = rest.takeWhile (· != '\'') ++ '\'' :: after := closes ▸ parts.symm
        rw [Token.spelling, String.toList_ofList, List.cons_append, List.cons_append,
          List.append_assoc]
        exact congrArg ('\'' :: ·) text

theorem endParameter_ends {type : ValueType} {rest after : List Char} {t : Token}
    (read : endParameter type rest = .ok (t, after)) :
    t = .parameter type ∧ after = rest ∧ t.Ends rest := by
  unfold endParameter at read
  split at read
  · cases read
    exact ⟨rfl, rfl, by simp [Token.Ends]⟩
  · split at read
    · next delimits =>
        cases read
        exact ⟨rfl, rfl, by simpa [Token.Ends] using delimits⟩
    · contradiction

theorem readParameter_stands {rest after : List Char} {t : Token}
    (read : readParameter rest = .ok (t, after)) : t.Stands ('?' :: rest) after := by
  unfold readParameter at read
  split at read
  · contradiction
  · next c rest =>
      split at read
      · contradiction
      · next type known =>
          have letter : type.letter = c := by simpa using List.find?_some known
          split at read
          · obtain ⟨rfl, rfl, ends⟩ := endParameter_ends read
            exact ⟨trivial, by simp [Token.spelling, typeSpelling, letter], ends⟩
          · obtain ⟨rfl, rfl, ends⟩ := endParameter_ends read
            exact ⟨trivial, by simp [Token.spelling, typeSpelling, letter], ends⟩

/-- Of two operators, the second is the first with `=` after it. -/
theorem readOperator_stands (first second : Comparison) {c : Char} {rest after : List Char}
    {t : Token} (one : first.symbol.toList = [c]) (two : second.symbol.toList = [c, '='])
    (short : rest.head? ≠ some '=' → (Token.operator first).Ends rest)
    (long : ∀ rest, (Token.operator second).Ends rest)
    (read : readOperator first second rest = (t, after)) : t.Stands (c :: rest) after := by
  unfold readOperator at read
  split at read
  · cases read
    exact ⟨trivial, by simp [Token.spelling, two], long after⟩
  · next other =>
      cases read
      refine ⟨trivial, by simp [Token.spelling, one], short fun next => ?_⟩
      obtain ⟨more, same⟩ := List.head?_eq_some_iff.1 next
      exact other more same

theorem readWord_stands {c : Char} {rest : List Char} (inside : isDelimiter c = false) :
    (Token.word (String.ofList (c :: rest.takeWhile (!isDelimiter ·)))).Stands (c :: rest)
      (rest.dropWhile (!isDelimiter ·)) := by
  refine ⟨⟨by simp, fun d member => ?_⟩, by simp [Token.spelling], fun d next => ?_⟩
  · rw [String.toList_ofList] at member
    rcases List.mem_cons.1 member with rfl | later
    · exact inside
    · simpa using List.all_eq_true.1 List.all_takeWhile _ later
  · have stops := List.head?_dropWhile_not (!isDelimiter ·) rest
    rw [Option.mem_def.1 next] at stops
    simpa using stops

/-- A token that is read stands where it is read. -/
theorem readToken_stands {c : Char} {rest after : List Char} {t : Token}
    (unblank : Text.isBlank c = false) (read : readToken c rest = .ok (t, after)) :
    t.Stands (c :: rest) after := by
  cases inside : isDelimiter c with
  | false =>
      rw [readToken_word inside] at read
      cases read
      exact readWord_stands inside
  | true =>
      simp only [isDelimiter, unblank, Bool.false_or, Bool.or_eq_true, beq_iff_eq] at inside
      rcases inside with (((((rfl | rfl) | rfl) | rfl) | rfl) | rfl) | rfl
      · cases read
        exact ⟨trivial, rfl, trivial⟩
      · cases read
        exact ⟨trivial, rfl, trivial⟩
      · cases rest with
        | nil => contradiction
        | cons c rest =>
            by_cases equals : c = '='
            · subst equals
              cases read
              exact ⟨trivial, rfl, trivial⟩
            · simp [readToken, equals] at read
      · exact readOperator_stands .less .lessEqual rfl rfl id (fun _ => trivial)
          (Except.ok.inj read)
      · exact readOperator_stands .greater .greaterEqual rfl rfl id (fun _ => trivial)
          (Except.ok.inj read)
      · exact readQuoted_stands read
      · exact readParameter_stands read

/-- Every token of a text can be spelled. -/
theorem spellable_of_tokenize {text : String} {lexemes : List Lexeme}
    (cut : tokenize text = .ok lexemes) : ∀ l ∈ lexemes, l.token.Spellable := by
  have all (offset : Nat) (cs : List Char) (lexemes : List Lexeme)
      (cut : tokenizeFrom offset cs = .ok lexemes) : ∀ l ∈ lexemes, l.token.Spellable := by
    fun_induction tokenizeFrom offset cs generalizing lexemes with
    | case1 offset =>
        cases cut
        simp
    | case2 offset c rest blank ih => exact ih lexemes cut
    | case3 => contradiction
    | case4 offset c rest blank t after read shorter next ih =>
        obtain ⟨more, later, rfl⟩ := map_eq_ok_iff.1 cut
        simp only [List.forall_mem_cons]
        exact ⟨(readToken_stands (by simpa using blank) read).spellable, ih more later⟩
  exact all 0 _ lexemes cut

end FleetStore.Descriptor
