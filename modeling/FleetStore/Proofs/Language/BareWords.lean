import FleetStore.Proofs.Language.Literals
import Mathlib.Data.Nat.Digits.Defs

/-! # What bare words stand for

A bare word has at most one reading: it is one of the two truth values, or an integer of 32 bits, or
an integer of 64 bits with an `L` after it, or it has a point in it and is a finite double. A
number beyond the limits of its type has no reading at all, neither as the number that its bits
would come to nor in another type.
-/

namespace FleetStore

/-! ## Numerals -/

namespace Text

def digitValue (d : Char) : Nat :=
  d.toNat - '0'.toNat

/-- Decimal digits, of which there is at least one, and the number that they denote. -/
structure Denotes (digits : List Char) (n : Nat) : Prop where
  nonempty : digits ≠ []
  decimal : ∀ d ∈ digits, d.isDigit = true
  value : Nat.ofDigits 10 (digits.map digitValue).reverse = n

/-- Decimal digits that may have a sign before them, and the integer that they denote. -/
inductive Numeral : List Char → Int → Prop where
  | unsigned {digits : List Char} {n : Nat} (denotes : Denotes digits n) : Numeral digits n
  | plus {digits : List Char} {n : Nat} (denotes : Denotes digits n) : Numeral ('+' :: digits) n
  | minus {digits : List Char} {n : Nat} (denotes : Denotes digits n) :
      Numeral ('-' :: digits) (-n)

theorem valueOfDigits_eq (digits : List Char) :
    valueOfDigits 0 digits = Nat.ofDigits 10 (digits.map digitValue).reverse := by
  rw [Nat.ofDigits_eq_foldr, List.foldr_reverse, List.foldl_map, valueOfDigits]
  congr 1
  funext n d
  rw [digitValue, Nat.cast_id, Nat.add_comm]

theorem readNat?_eq_some_iff {digits : List Char} {n : Nat} :
    readNat? digits = some n ↔ Denotes digits n := by
  have decimal : (digits.isEmpty || !digits.all Char.isDigit) = false ↔
      digits ≠ [] ∧ ∀ d ∈ digits, d.isDigit = true := by
    simp
  unfold readNat?
  constructor
  · intro read
    split at read
    · contradiction
    · next plain =>
        obtain ⟨nonempty, all⟩ := decimal.1 (Bool.eq_false_of_not_eq_true plain)
        exact ⟨nonempty, all, (valueOfDigits_eq digits).symm.trans (Option.some.inj read)⟩
  · rintro ⟨nonempty, all, value⟩
    rw [decimal.2 ⟨nonempty, all⟩, if_neg Bool.false_ne_true, valueOfDigits_eq, value]

theorem readInt?_eq_some_iff {cs : List Char} {n : Int} : readInt? cs = some n ↔ Numeral cs n := by
  constructor
  · intro read
    unfold readInt? at read
    split at read
    · obtain ⟨m, found, rfl⟩ := Option.map_eq_some_iff.1 read
      exact .plus (readNat?_eq_some_iff.1 found)
    · obtain ⟨m, found, rfl⟩ := Option.map_eq_some_iff.1 read
      obtain ⟨k, magnitude, same⟩ := Option.bind_eq_some_iff.1 found
      rw [← Option.some.inj same]
      exact .minus (readNat?_eq_some_iff.1 magnitude)
    · obtain ⟨m, found, rfl⟩ := Option.map_eq_some_iff.1 read
      exact .unsigned (readNat?_eq_some_iff.1 found)
  · intro numeral
    cases numeral with
    | unsigned denotes =>
        rw [Descriptor.readInt?_digits denotes.decimal, readNat?_eq_some_iff.2 denotes]
        rfl
    | plus denotes =>
        rw [readInt?, readNat?_eq_some_iff.2 denotes]
        rfl
    | minus denotes =>
        rw [readInt?, readNat?_eq_some_iff.2 denotes]
        rfl

namespace Numeral

variable {cs : List Char} {m n : Int}

theorem unique (h : Numeral cs m) (h' : Numeral cs n) : m = n :=
  Option.some.inj ((readInt?_eq_some_iff.2 h).symm.trans (readInt?_eq_some_iff.2 h'))

theorem mem (h : Numeral cs n) : ∀ c ∈ cs, c = '+' ∨ c = '-' ∨ c.isDigit = true := by
  cases h with
  | unsigned denotes => exact fun c member => .inr (.inr (denotes.decimal c member))
  | plus denotes =>
      rw [List.forall_mem_cons]
      exact ⟨.inl rfl, fun c member => .inr (.inr (denotes.decimal c member))⟩
  | minus denotes =>
      rw [List.forall_mem_cons]
      exact ⟨.inr (.inl rfl), fun c member => .inr (.inr (denotes.decimal c member))⟩

/-- There is no point in a numeral and no letter. -/
theorem not_mem (h : Numeral cs n) {c : Char} (other : ¬ (c = '+' ∨ c = '-' ∨ c.isDigit = true)) :
    c ∉ cs :=
  fun member => other (h.mem c member)

end Numeral

end Text

/-! ## Readings -/

namespace Descriptor

open Text (Numeral)

/-- What a bare word stands for. -/
inductive Reading : String → Value → Prop where
  | yes : Reading "true" (.boolean true)
  | no : Reading "false" (.boolean false)
  | int {word : String} {n : Int32} (numeral : Numeral word.toList n.toInt) :
      Reading word (.int n)
  | long {digits : String} {n : Int64} (numeral : Numeral digits.toList n.toInt) :
      Reading (digits ++ "L") (.long n)
  | double {word : String} {x : FiniteDouble} (pointed : '.' ∈ word.toList)
      (unmarked : word.toList.getLast? ≠ some 'L') (read : Double.read? word = some (.finite x)) :
      Reading word (.double (.finite x))

variable {word : String} {v : Value}

theorem beforeL?_eq_some_iff {cs digits : List Char} :
    beforeL? cs = some digits ↔ cs = digits ++ ['L'] := by
  unfold beforeL?
  constructor
  · intro found
    split at found
    · next ends =>
        obtain ⟨front, rfl⟩ := List.getLast?_eq_some_iff.1 ends
        obtain rfl := Option.some.inj found
        rw [List.dropLast_concat]
    · contradiction
  · rintro rfl
    rw [List.getLast?_concat, if_pos rfl, List.dropLast_concat]

theorem reading_of_literal? (read : literal? word = some v) : Reading word v := by
  unfold literal? at read
  split at read
  · next same =>
      obtain rfl := Option.some.inj read
      exact same ▸ .yes
  split at read
  · next same =>
      obtain rfl := Option.some.inj read
      exact same ▸ .no
  split at read
  · next digits marked =>
      obtain ⟨n, found, rfl⟩ := Option.map_eq_some_iff.1 read
      obtain ⟨i, numeral, fits⟩ := Option.bind_eq_some_iff.1 found
      have written : word = String.ofList digits ++ "L" := by
        rw [← String.toList_inj, beforeL?_eq_some_iff.1 marked, String.toList_append,
          String.toList_ofList]
        rfl
      rw [written]
      refine .long ?_
      rw [String.toList_ofList, Text.toInt_of_int64? fits]
      exact Text.readInt?_eq_some_iff.1 numeral
  · next unmarked =>
      split at read
      · next n found =>
          obtain rfl := Option.some.inj read
          obtain ⟨i, numeral, fits⟩ := Option.bind_eq_some_iff.1 found
          refine .int ?_
          rw [Text.toInt_of_int32? fits]
          exact Text.readInt?_eq_some_iff.1 numeral
      · split at read
        · next pointed =>
            obtain ⟨x, found, finite⟩ := Option.bind_eq_some_iff.1 read
            cases x with
            | finite x =>
                obtain rfl := Option.some.inj finite
                refine .double (by simpa using pointed) (fun ends => ?_) found
                rw [beforeL?, if_pos ends] at unmarked
                contradiction
            | nan | infinite => contradiction
        · contradiction

theorem literal?_of_reading (h : Reading word v) : literal? word = some v := by
  cases h with
  | yes => rfl
  | no => rfl
  | @int _ n numeral =>
      rw [literal?_int_iff, Text.readInt?_eq_some_iff.2 numeral]
      exact Text.int32?_toInt n
  | @long digits n numeral =>
      rw [literal?_append_L, Text.readInt?_eq_some_iff.2 numeral, Option.bind_some,
        Text.int64?_toInt]
      rfl
  | @double _ x pointed unmarked read =>
      have other (word' : String) (plain : '.' ∉ word'.toList) : word ≠ word' := by
        rintro rfl
        exact plain pointed
      have noNumeral : Text.readInt? word.toList = none := by
        rw [Option.eq_none_iff_forall_ne_some]
        intro i numeral
        exact (Text.readInt?_eq_some_iff.1 numeral).not_mem (by decide) pointed
      unfold literal?
      rw [if_neg (other _ (by decide)), if_neg (other _ (by decide)), beforeL?, if_neg unmarked,
        noNumeral]
      simp [pointed, readFinite?, read, Double.isFinite]

theorem literal?_eq_some_iff : literal? word = some v ↔ Reading word v :=
  ⟨reading_of_literal?, literal?_of_reading⟩

/-- A numeral is read as an integer of 32 bits or not at all. -/
theorem literal?_numeral {n : Int} (numeral : Numeral word.toList n) :
    literal? word = (Text.int32? n).map .int := by
  cases fits : Text.int32? n with
  | some k =>
      rw [← Text.toInt_of_int32? fits] at numeral
      exact literal?_of_reading (.int numeral)
  | none =>
      rw [Option.map_none, Option.eq_none_iff_forall_ne_some]
      intro v read
      cases reading_of_literal? read with
      | yes => exact numeral.not_mem (c := 't') (by decide) (by decide)
      | no => exact numeral.not_mem (c := 'f') (by decide) (by decide)
      | int same =>
          rw [numeral.unique same, Text.int32?_toInt] at fits
          contradiction
      | long => exact numeral.not_mem (c := 'L') (by decide) (by simp)
      | double pointed => exact numeral.not_mem (by decide) pointed

/-- Every integer of 32 bits is read from its decimal text, and every one of 64 bits from its
decimal text with an `L` after it. A word is read as a value exactly if it stands for it: as an
integer if it is the decimal digits of one within the limits of its type, with a sign or without
one and with `L` after them for 64 bits, as a finite double if it has a point, no `L` at its
end and this value, and as a truth value if it is its name. So no word stands for values of two
types, and numbers beyond the limits stand for nothing. -/
theorem bare_words_are_read_exactly :
    (∀ n : Int32, literal? (toString n.toInt) = some (.int n)) ∧
      (∀ n : Int64, literal? (toString n.toInt ++ "L") = some (.long n)) ∧
      (∀ word v, literal? word = some v ↔ Reading word v) ∧
      (∀ word v w, Reading word v → w.type ≠ v.type → ¬ Reading word w) ∧
      (∀ word n, Numeral word.toList n → ¬ FitsSigned 31 n → literal? word = none) ∧
      ∀ digits n, Numeral digits.toList n → ¬ FitsSigned 63 n →
        literal? (digits ++ "L") = none := by
  refine ⟨literal?_toString_int, literal?_toString_long, fun _ _ => literal?_eq_some_iff, ?_, ?_,
    ?_⟩
  · intro word v w reads other reads'
    have same := (literal?_of_reading reads).symm.trans (literal?_of_reading reads')
    exact other (congrArg Value.type (Option.some.inj same)).symm
  · intro word n numeral out
    rw [literal?_numeral numeral, Text.int32?, if_neg out]
    rfl
  · intro digits n numeral out
    rw [literal?_append_L, Text.readInt?_eq_some_iff.2 numeral, Option.bind_some, Text.int64?,
      if_neg out]
    rfl

/-- One more than the greatest integer of either width is not read, and the greatest one of 32 bits
is not read as one of 64. -/
theorem greatest_integers_are_the_last_read :
    Reading "2147483647" (.int 2147483647) ∧ ¬ Reading "2147483647" (.long 2147483647) ∧
      Numeral "2147483648".toList 2147483648 ∧ ¬ FitsSigned 31 2147483648 ∧
      literal? "2147483648" = none ∧
      Numeral "+9223372036854775808".toList 9223372036854775808 ∧
      ¬ FitsSigned 63 9223372036854775808 ∧ literal? ("+9223372036854775808" ++ "L") = none := by
  obtain ⟨-, -, reads, apart, short, long⟩ := bare_words_are_read_exactly
  have greatest : Reading "2147483647" (.int 2147483647) := (reads _ _).1 rfl
  have numeral : Numeral "2147483648".toList 2147483648 :=
    Text.readInt?_eq_some_iff.1 (by decide)
  have signed : Numeral "+9223372036854775808".toList 9223372036854775808 :=
    Text.readInt?_eq_some_iff.1 (by decide)
  have beyond : ¬ FitsSigned 31 2147483648 := by decide
  have beyond' : ¬ FitsSigned 63 9223372036854775808 := by decide
  refine ⟨greatest, apart _ _ _ greatest (by decide), numeral, beyond, short _ _ numeral beyond,
    signed, beyond', long _ _ signed beyond'⟩

end Descriptor

end FleetStore
