import FleetStore.Proofs.Language.Clauses
import FleetStore.Proofs.Language.Spelling

/-! # Literals for values

Truth values, integers of both widths and texts without a quote can be written down in a
statement: there is a token that stands for such a value where one of its type is expected, and
the token can be spelled. Decimal digits are read back as the number that they were written for.
-/

namespace FleetStore.Descriptor

/-! ## Decimal integers -/

theorem isDelimiter_of_isDigit {c : Char} (h : c.isDigit = true) : isDelimiter c = false := by
  have range : 48 ≤ c.toNat ∧ c.toNat ≤ 57 := by
    simpa [Char.isDigit, UInt32.le_iff_toNat_le] using h
  obtain ⟨n, below, digit⟩ : ∃ n < 10, c.toNat = 48 + n := ⟨c.toNat - 48, by omega, by omega⟩
  have among : ∀ n < 10, isDelimiter (Char.ofNat (48 + n)) = false := by decide
  rw [← Char.ofNat_toNat c, digit]
  exact among n below

theorem isDigit_of_mem_repr {n : Nat} {d : Char} (member : d ∈ n.repr.toList) :
    d.isDigit = true := by
  rw [Nat.toList_repr] at member
  exact Nat.isDigit_of_mem_toDigits (by decide) (Nat.le_refl 10) member

theorem readNat?_repr (n : Nat) : Text.readNat? n.repr.toList = some n := by
  have some : n.repr.toList ≠ [] := by
    rw [Nat.toList_repr]
    exact Nat.toDigits_ne_nil
  have value : Text.valueOfDigits 0 n.repr.toList = n := by
    rw [Nat.toList_repr, Text.valueOfDigits, ← Nat.ofDigitChars_eq_foldl,
      Nat.ofDigitChars_ten_toDigits]
  unfold Text.readNat?
  rw [value, if_neg]
  simp only [Bool.or_eq_true, List.isEmpty_iff, Bool.not_eq_true', not_or, some, not_false_eq_true,
    Bool.not_eq_false, List.all_eq_true, true_and]
  exact fun d => isDigit_of_mem_repr

/-- No sign is a digit, so digits are read as they stand. -/
theorem readInt?_digits {digits : List Char} (decimal : ∀ d ∈ digits, d.isDigit = true) :
    Text.readInt? digits = (Text.readNat? digits).map Int.ofNat := by
  unfold Text.readInt?
  split
  · exact absurd (decimal _ List.mem_cons_self) (by decide)
  · exact absurd (decimal _ List.mem_cons_self) (by decide)
  · rfl

/-- An integer is read back from its decimal digits. -/
theorem readInt?_toString (n : Int) : Text.readInt? (toString n).toList = some n := by
  cases n with
  | ofNat m =>
      show Text.readInt? m.repr.toList = some (Int.ofNat m)
      rw [readInt?_digits fun d => isDigit_of_mem_repr, readNat?_repr]
      rfl
  | negSucc m =>
      have letters : (toString (Int.negSucc m)).toList = '-' :: (m + 1).repr.toList := by
        show ("-" ++ (m + 1).repr).toList = _
        simp
      rw [letters, Text.readInt?, readNat?_repr]
      rfl

/-- Whether there is a delimiter in a text is found out letter by letter. -/
theorem undelimited_of_all {cs : List Char} (h : cs.all (fun c => !isDelimiter c) = true) :
    ∀ c ∈ cs, isDelimiter c = false := by
  simpa using h

theorem spellable_toString (n : Int) (suffix : String)
    (plain : ∀ c ∈ suffix.toList, isDelimiter c = false) :
    (Token.word (toString n ++ suffix)).Spellable := by
  obtain ⟨d, last, -⟩ := readInt?_getLast (readInt?_toString n)
  have some : (toString n).toList ≠ [] := by
    intro none
    rw [none] at last
    contradiction
  have digits : ∀ c ∈ (toString n).toList, isDelimiter c = false := by
    intro c member
    cases n with
    | ofNat m => exact isDelimiter_of_isDigit (isDigit_of_mem_repr member)
    | negSucc m =>
        have letters : c ∈ ("-" ++ (m + 1).repr).toList := member
        rw [String.toList_append, List.mem_append] at letters
        rcases letters with sign | digit
        · obtain rfl : c = '-' := by simpa using sign
          decide
        · exact isDelimiter_of_isDigit (isDigit_of_mem_repr digit)
  constructor
  · rw [String.toList_append]
    exact List.append_ne_nil_of_left_ne_nil some _
  · intro c member
    rw [String.toList_append, List.mem_append] at member
    exact member.elim (digits c) (plain c)

/-! ## Tokens for values -/

/-- The token that stands for a value by itself, if there is one. -/
def literalFor? : Value → Option Token
  | .scalar .string text => if '\'' ∈ text.toList then none else some (.quoted text)
  | .scalar .int n => some (.word (toString (Int32.toInt n)))
  | .scalar .long n => some (.word (toString (Int64.toInt n) ++ "L"))
  | .scalar .boolean b => some (.word (if b then "true" else "false"))
  | _ => none

theorem literal?_toString_int (n : Int32) : literal? (toString n.toInt) = some (.int n) := by
  rw [literal?_int_iff, readInt?_toString]
  exact Text.int32?_toInt n

/-- A word that ends with `L` is read by what comes before. -/
theorem literal?_append_L (digits : String) :
    literal? (digits ++ "L") =
      ((Text.readInt? digits.toList).bind Text.int64?).map Value.long := by
  have last : (digits ++ "L").toList = digits.toList ++ ['L'] := String.toList_append
  have other (word : String) (ends : word.toList.getLast? ≠ some 'L') : digits ++ "L" ≠ word := by
    rintro rfl
    rw [last] at ends
    exact ends List.getLast?_concat
  have before : beforeL? (digits ++ "L").toList = some digits.toList := by
    rw [beforeL?, last, List.getLast?_concat, if_pos rfl, List.dropLast_concat]
  unfold literal?
  rw [if_neg (other "true" (by decide)), if_neg (other "false" (by decide)), before]

theorem literal?_toString_long (n : Int64) : literal? (toString n.toInt ++ "L") = some (.long n) := by
  rw [literal?_append_L, readInt?_toString, Option.bind_some, Text.int64?_toInt]
  rfl

/-- The token for a value is a text, or a word that stands for the value. -/
theorem literalFor?_cases {v : Value} {t : Token} (written : literalFor? v = some t) :
    (∃ text, t = .quoted text ∧ v = .string text ∧ '\'' ∉ text.toList) ∨
      ∃ word, t = .word word ∧ literal? word = some v ∧ (Token.word word).Spellable := by
  unfold literalFor? at written
  split at written
  · next text =>
      split at written
      · contradiction
      · next plain => exact .inl ⟨text, (Option.some.inj written).symm, rfl, plain⟩
  · next n =>
      refine .inr ⟨_, (Option.some.inj written).symm, literal?_toString_int n, ?_⟩
      have spellable := spellable_toString n.toInt "" (by simp)
      rwa [String.append_empty] at spellable
  · next n =>
      refine .inr ⟨_, (Option.some.inj written).symm, literal?_toString_long n, ?_⟩
      exact spellable_toString n.toInt "L" (undelimited_of_all (by decide))
  · next b =>
      refine .inr ⟨_, (Option.some.inj written).symm, ?_⟩
      cases b with
      | true => exact ⟨rfl, by decide, undelimited_of_all (by decide)⟩
      | false => exact ⟨rfl, by decide, undelimited_of_all (by decide)⟩
  · contradiction

theorem spellable_of_literalFor? {v : Value} {t : Token} (written : literalFor? v = some t) :
    t.Spellable := by
  rcases literalFor?_cases written with ⟨text, rfl, -, plain⟩ | ⟨word, rfl, -, spellable⟩
  · exact plain
  · exact spellable

end FleetStore.Descriptor
