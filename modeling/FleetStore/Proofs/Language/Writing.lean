import FleetStore.Proofs.Language.Spelling
import Mathlib.Data.List.Chain

/-! # Written tokens

Tokens can be written one after another, with blanks before, between and after them. There
need be no blanks between two tokens unless the first would run on into the second. A text
is cut into tokens exactly if it is written in this way, and then it is cut into the
tokens that were written, each at the byte at which it stands.
-/

namespace FleetStore.Descriptor

/-! ## Texts of tokens -/

/-- Whether a token would run on into another one that comes right after it. -/
def Token.RunsInto : Token → Token → Prop
  | .word _, .word _ | .parameter _, .word _ => True
  | .operator .less, .operator .equal | .operator .greater, .operator .equal => True
  | _, _ => False

/-- A token with the blanks that are written before it. -/
structure Piece where
  gap : List Char
  token : Token

/-- Tokens as they are written, and the blanks after the last of them. -/
structure Writing where
  pieces : List Piece
  ending : List Char

namespace Writing

def textOf (ending : List Char) : List Piece → List Char
  | [] => ending
  | p :: rest => p.gap ++ (p.token.spelling ++ textOf ending rest)

def text (w : Writing) : List Char :=
  textOf w.ending w.pieces

/-- The tokens of some pieces, each with the byte at which it stands if the first of the pieces
starts at the byte `offset`. -/
def lexemesFrom (offset : Nat) : List Piece → List Lexeme
  | [] => []
  | p :: rest =>
      let start := offset + Text.byteLength p.gap
      ⟨p.token, start⟩ :: lexemesFrom (start + Text.byteLength p.token.spelling) rest

def lexemes (w : Writing) : List Lexeme :=
  lexemesFrom 0 w.pieces

/-- There are only blanks around tokens that can be spelled, and some blanks at least where a token
would run on into the next. -/
structure Legal (w : Writing) : Prop where
  blank : ∀ p ∈ w.pieces, ∀ c ∈ p.gap, Text.isBlank c = true
  spellable : ∀ p ∈ w.pieces, p.token.Spellable
  apart : w.pieces.IsChain fun p q => p.token.RunsInto q.token → q.gap ≠ []
  ending : ∀ c ∈ w.ending, Text.isBlank c = true

end Writing

/-! ## What may follow a token -/

namespace Token

/-- Words are the only tokens that do not start with a delimiter, and `=` is the only one that
starts with an equals sign. -/
theorem spelling_cons {t : Token} (spellable : t.Spellable) : ∃ c cs, t.spelling = c :: cs ∧
    (isDelimiter c = false ↔ ∃ text, t = .word text) ∧ (c = '=' ↔ t = .operator .equal) := by
  cases t with
  | word text =>
      obtain ⟨c, cs, letters⟩ := List.exists_cons_of_ne_nil spellable.1
      have inside : isDelimiter c = false := spellable.2 c (letters ▸ List.mem_cons_self)
      have other : c ≠ '=' := by
        rintro rfl
        contradiction
      exact ⟨c, cs, letters, by simp [inside], by simp [other]⟩
  | quoted text => exact ⟨_, _, rfl, by simp [isDelimiter], by simp⟩
  | parameter type => exact ⟨_, _, rfl, by simp [isDelimiter], by simp⟩
  | comma => exact ⟨_, _, rfl, by simp [isDelimiter], by simp⟩
  | operator op =>
      cases op with
      | equal => exact ⟨'=', [], rfl, by simp [isDelimiter], by simp⟩
      | notEqual => exact ⟨'!', ['='], rfl, by simp [isDelimiter], by simp⟩
      | less => exact ⟨'<', [], rfl, by simp [isDelimiter], by simp⟩
      | lessEqual => exact ⟨'<', ['='], rfl, by simp [isDelimiter], by simp⟩
      | greater => exact ⟨'>', [], rfl, by simp [isDelimiter], by simp⟩
      | greaterEqual => exact ⟨'>', ['='], rfl, by simp [isDelimiter], by simp⟩

/-- A token may come right after another unless this would run on into it. -/
theorem ends_spelling {t u : Token} (spellable : u.Spellable) (rest : List Char) :
    t.Ends (u.spelling ++ rest) ↔ ¬ t.RunsInto u := by
  obtain ⟨c, cs, letters, delimits, equals⟩ := spelling_cons spellable
  have word : isDelimiter c = true ↔ ¬ ∃ text, u = .word text := by
    rw [← delimits, Bool.not_eq_false]
  rw [letters, List.cons_append]
  cases t with
  | word | parameter =>
      refine Iff.trans (by simp [Ends]) (word.trans (not_congr ?_))
      cases u <;> simp [RunsInto]
  | quoted | comma => cases u <;> simp [Ends, RunsInto]
  | operator op =>
      cases op with
      | less | greater =>
          refine Iff.trans (by simp [Ends]) ((not_congr equals).trans (not_congr ?_))
          cases u with
          | operator op => cases op <;> simp [RunsInto]
          | word | quoted | parameter | comma => simp [RunsInto]
      | equal | notEqual | lessEqual | greaterEqual => cases u <;> simp [Ends, RunsInto]

end Token

/-! ## What is written is read -/

theorem tokenizeFrom_gap {gap : List Char} (blank : ∀ c ∈ gap, Text.isBlank c = true) (offset : Nat)
    (rest : List Char) :
    tokenizeFrom offset (gap ++ rest) = tokenizeFrom (offset + Text.byteLength gap) rest := by
  induction gap generalizing offset with
  | nil => simp
  | cons c gap ih =>
      obtain ⟨first, later⟩ := List.forall_mem_cons.1 blank
      rw [List.cons_append, tokenizeFrom_blank first, ih later, Text.byteLength_cons, Nat.add_assoc]

namespace Writing

/-- What is written after a token in a legal writing does not make it run on. -/
theorem Legal.ends {p : Piece} {rest : List Piece} {ending : List Char}
    (legal : Legal ⟨p :: rest, ending⟩) : p.token.Ends (textOf ending rest) := by
  cases rest with
  | nil => exact p.token.ends_blank fun c next => legal.ending c (List.mem_of_mem_head? next)
  | cons q rest =>
      have known : q ∈ p :: q :: rest := List.mem_cons_of_mem _ List.mem_cons_self
      rw [textOf]
      cases gap : q.gap with
      | nil =>
          have apart := legal.apart.rel
          rw [List.nil_append, Token.ends_spelling (legal.spellable q known)]
          exact fun runs => apart runs gap
      | cons c more =>
          refine p.token.ends_blank ?_
          rintro c ⟨⟩
          exact legal.blank q known c (gap ▸ List.mem_cons_self)

theorem Legal.tail {p : Piece} {rest : List Piece} {ending : List Char}
    (legal : Legal ⟨p :: rest, ending⟩) : Legal ⟨rest, ending⟩ where
  blank q member := legal.blank q (List.mem_cons_of_mem _ member)
  spellable q member := legal.spellable q (List.mem_cons_of_mem _ member)
  apart := legal.apart.tail
  ending := legal.ending

/-- A legal writing of some tokens is cut into these tokens. -/
theorem Legal.tokenizeFrom {pieces : List Piece} {ending : List Char}
    (legal : Legal ⟨pieces, ending⟩) (offset : Nat) :
    tokenizeFrom offset (textOf ending pieces) = .ok (lexemesFrom offset pieces) := by
  induction pieces generalizing offset with
  | nil =>
      have skipped := tokenizeFrom_gap legal.ending offset []
      rw [List.append_nil] at skipped
      exact skipped.trans (tokenizeFrom.eq_def _ _)
  | cons p rest ih =>
      have blank := legal.blank p List.mem_cons_self
      have spellable := legal.spellable p List.mem_cons_self
      rw [textOf, tokenizeFrom_gap blank, tokenizeFrom_spelling spellable legal.ends, ih legal.tail]
      rfl

end Writing

/-! ## What is read was written -/

namespace Writing

/-- The writing with one more blank at its front. -/
def indent (c : Char) : Writing → Writing
  | ⟨[], ending⟩ => ⟨[], c :: ending⟩
  | ⟨p :: rest, ending⟩ => ⟨⟨c :: p.gap, p.token⟩ :: rest, ending⟩

theorem text_indent (c : Char) (w : Writing) : (w.indent c).text = c :: w.text := by
  obtain ⟨_ | ⟨p, rest⟩, ending⟩ := w <;> rfl

theorem lexemesFrom_indent (offset : Nat) (c : Char) (w : Writing) :
    lexemesFrom offset (w.indent c).pieces = lexemesFrom (offset + c.utf8Size) w.pieces := by
  obtain ⟨_ | ⟨p, rest⟩, ending⟩ := w
  · rfl
  · simp [indent, lexemesFrom, Nat.add_assoc]

theorem Legal.indent {c : Char} {w : Writing} (blank : Text.isBlank c = true) (legal : w.Legal) :
    (w.indent c).Legal := by
  obtain ⟨_ | ⟨p, rest⟩, ending⟩ := w
  · exact ⟨by simp [Writing.indent], by simp [Writing.indent], .nil,
      List.forall_mem_cons.2 ⟨blank, legal.ending⟩⟩
  · obtain ⟨gap, gaps⟩ := List.forall_mem_cons.1 legal.blank
    obtain ⟨first, others⟩ := List.forall_mem_cons.1 legal.spellable
    refine ⟨List.forall_mem_cons.2 ⟨List.forall_mem_cons.2 ⟨blank, gap⟩, gaps⟩,
      List.forall_mem_cons.2 ⟨first, others⟩, ?_, legal.ending⟩
    exact List.isChain_cons.2 (List.isChain_cons.1 legal.apart)

/-- The writing with one more token right at its front. -/
def putFirst (t : Token) (w : Writing) : Writing :=
  ⟨⟨[], t⟩ :: w.pieces, w.ending⟩

theorem Legal.putFirst {t : Token} {w : Writing} (spellable : t.Spellable) (ends : t.Ends w.text)
    (legal : w.Legal) : (w.putFirst t).Legal := by
  refine ⟨List.forall_mem_cons.2 ⟨by simp, legal.blank⟩,
    List.forall_mem_cons.2 ⟨spellable, legal.spellable⟩, ?_, legal.ending⟩
  obtain ⟨_ | ⟨p, rest⟩, ending⟩ := w
  · exact .singleton _
  · refine .cons_cons (fun runs untouched => ?_) legal.apart
    -- Right after the token, its spelling would have been read further.
    rw [text, textOf, untouched, List.nil_append,
      Token.ends_spelling (legal.spellable p List.mem_cons_self)] at ends
    exact ends runs

end Writing

/-- What is cut into tokens is a legal writing of them. -/
theorem exists_writing {offset : Nat} {cs : List Char} {lexemes : List Lexeme}
    (cut : tokenizeFrom offset cs = .ok lexemes) :
    ∃ w : Writing, w.Legal ∧ w.text = cs ∧ Writing.lexemesFrom offset w.pieces = lexemes := by
  fun_induction tokenizeFrom offset cs generalizing lexemes with
  | case1 offset =>
      cases cut
      exact ⟨⟨[], []⟩, ⟨by simp, by simp, .nil, by simp⟩, rfl, rfl⟩
  | case2 offset c rest blank ih =>
      obtain ⟨w, legal, rfl, same⟩ := ih cut
      exact ⟨w.indent c, legal.indent blank, w.text_indent c, (w.lexemesFrom_indent offset c).trans same⟩
  | case3 => contradiction
  | case4 offset c rest blank t after read shorter next =>
      rename_i ih
      obtain ⟨more, later, rfl⟩ := map_eq_ok_iff.1 cut
      obtain ⟨w, legal, rfl, same⟩ := ih later
      obtain ⟨spellable, spelled, ends⟩ := readToken_stands (by simpa using blank) read
      refine ⟨w.putFirst t, legal.putFirst spellable ends, spelled.symm, ?_⟩
      have width : next = offset + Text.byteLength t.spelling := by
        simp only [next, spelled, Text.byteLength_append, Nat.add_sub_cancel]
      simp [Writing.putFirst, Writing.lexemesFrom, ← width, same]

/-- A text is cut into tokens exactly if it is a legal writing of them, in which each stands at the
byte that is told of it. No other text is cut into tokens. -/
theorem tokenize_ok_iff_written (text : String) :
    (∀ lexemes, tokenize text = .ok lexemes ↔
      ∃ w : Writing, w.Legal ∧ w.text = text.toList ∧ w.lexemes = lexemes) ∧
    ((∃ fault offset, tokenize text = .error (fault, offset)) ↔
      ¬ ∃ w : Writing, w.Legal ∧ w.text = text.toList) := by
  have written (lexemes : List Lexeme) : tokenize text = .ok lexemes ↔
      ∃ w : Writing, w.Legal ∧ w.text = text.toList ∧ w.lexemes = lexemes := by
    constructor
    · exact exists_writing
    · rintro ⟨w, legal, same, rfl⟩
      rw [tokenize, ← same]
      exact legal.tokenizeFrom 0
  refine ⟨written, ?_⟩
  cases cut : tokenize text with
  | ok lexemes =>
      obtain ⟨w, legal, same, -⟩ := (written lexemes).1 cut
      refine iff_of_false ?_ fun none => none ⟨w, legal, same⟩
      rintro ⟨fault, offset, ⟨⟩⟩
  | error e =>
      refine iff_of_true ⟨e.1, e.2, rfl⟩ ?_
      rintro ⟨w, legal, same⟩
      have read := (written w.lexemes).2 ⟨w, legal, same, rfl⟩
      rw [cut] at read
      contradiction

end FleetStore.Descriptor
