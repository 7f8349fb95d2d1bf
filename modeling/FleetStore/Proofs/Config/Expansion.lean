import FleetStore.Config.Validation
import FleetStore.Proofs.Language.Spelling
import FleetStore.Proofs.Value.Width
import Mathlib.Data.List.Forall2

/-! # References are replaced once

A text is put together of literal texts and of references as they are written, and expanding it puts
the value of each reference in the place of the reference. What is put in may look like a
reference itself and is left as it is. A text in which no reference is written stays as it
is. In the parameters of a statement every string is expanded, wherever it stands, and nothing
else is changed.
-/

namespace FleetStore

/-! ## References as they are written -/

namespace Reference

/-- A letter or an underscore, and after it letters, digits and underscores. -/
def IsName (name : String) : Prop :=
  ∃ first more, name.toList = first :: more ∧ (first.isAlpha = true ∨ first = '_') ∧
    ∀ c ∈ more, c.isAlpha = true ∨ c.isDigit = true ∨ c = '_'

theorem isNameChar_iff {c : Char} :
    isNameChar c = true ↔ c.isAlpha = true ∨ c.isDigit = true ∨ c = '_' := by
  simp [isNameChar, Char.isAlphanum, or_assoc]

theorem not_isDigit_of_isAlpha {c : Char} (alpha : c.isAlpha = true) : c.isDigit = false := by
  rw [← Bool.not_eq_true]
  intro digit
  have letter : c.isUpper = true ∨ c.isLower = true := Bool.or_eq_true_iff.1 alpha
  have least : 65 ≤ c.val.toNat := by
    rcases letter with upper | lower
    · have above : 65 ≤ c.val := (of_decide_eq_true upper).1
      exact UInt32.le_iff_toNat_le.1 above
    · have above : 97 ≤ c.val := of_decide_eq_true (Bool.and_eq_true_iff.1 lower).1
      exact Nat.le_trans (by decide) (UInt32.le_iff_toNat_le.1 above)
  have most : c.val ≤ 57 := of_decide_eq_true (Bool.and_eq_true_iff.1 digit).2
  exact absurd (Nat.le_trans least (UInt32.le_iff_toNat_le.1 most)) (by decide)

theorem isName_iff {name : String} : IsName name ↔
    (∃ first more, name.toList = first :: more ∧ first.isDigit = false) ∧
      ∀ c ∈ name.toList, isNameChar c = true := by
  constructor
  · rintro ⟨first, more, letters, starts, follow⟩
    refine ⟨⟨first, more, letters, ?_⟩, ?_⟩
    · rcases starts with alpha | rfl
      · exact not_isDigit_of_isAlpha alpha
      · decide
    · rw [letters, List.forall_mem_cons]
      exact ⟨isNameChar_iff.2 (starts.imp_right .inr),
        fun c member => isNameChar_iff.2 (follow c member)⟩
  · rintro ⟨⟨first, more, letters, plain⟩, all⟩
    rw [letters, List.forall_mem_cons] at all
    refine ⟨first, more, letters, ?_, fun c member => isNameChar_iff.1 (all.2 c member)⟩
    simpa [plain] using isNameChar_iff.1 all.1

instance : DecidablePred IsName := fun name =>
  decidable_of_iff
    (name.toList.head?.any (fun first => !first.isDigit) = true ∧ name.toList.all isNameChar = true)
    (by
      rw [isName_iff, List.all_eq_true]
      refine and_congr_left fun _ => ?_
      cases name.toList <;> simp)

/-- A reference as it is written: a name, and maybe a text to fall back to that does not end the
reference. -/
structure Mention where
  name : String
  fallback? : Option String
  isName : IsName name
  unbraced : ∀ text ∈ fallback?, '\x7d' ∉ text.toList

namespace Mention

/-- What stands after the name. -/
def ending (m : Mention) : List Char :=
  match m.fallback? with
  | none => ['\x7d']
  | some text => ':' :: '-' :: text.toList ++ ['\x7d']

def spelling (m : Mention) : List Char :=
  '$' :: '\x7b' :: m.name.toList ++ m.ending

def reference (m : Mention) : Reference :=
  ⟨m.name, m.fallback?.getD ""⟩

/-- The variable if it is set, even to nothing, else the text to fall back to, else nothing. -/
def value (env : Environment) (m : Mention) : String :=
  match env m.name, m.fallback? with
  | some value, _ => value
  | none, some text => text
  | none, none => ""

theorem value_reference (env : Environment) (m : Mention) :
    m.reference.value env = m.value env := by
  unfold Reference.value reference value
  cases env m.name <;> cases m.fallback? <;> rfl

end Mention

theorem readEnd?_eq_some_iff {name : String} {cs rest : List Char} {r : Reference} :
    readEnd? name cs = some (r, rest) ↔
      (cs = '\x7d' :: rest ∧ r = ⟨name, ""⟩) ∨
        ∃ text : String, '\x7d' ∉ text.toList ∧
          cs = ':' :: '-' :: (text.toList ++ '\x7d' :: rest) ∧ r = ⟨name, text⟩ := by
  constructor
  · intro read
    unfold readEnd? at read
    split at read
    · cases read
      exact .inl ⟨rfl, rfl⟩
    · next inner =>
        have parts := List.takeWhile_append_dropWhile (p := (· != '\x7d')) (l := inner)
        have closing := List.head?_dropWhile_not (· != '\x7d') inner
        split at read
        · contradiction
        · next c rest found =>
            cases read
            rw [found] at parts closing
            obtain rfl : c = '\x7d' := by simpa using closing
            refine .inr ⟨_, ?_, ?_, rfl⟩
            · rw [String.toList_ofList]
              intro member
              simpa using List.all_eq_true.1 List.all_takeWhile _ member
            · rw [String.toList_ofList, parts]
    · contradiction
  · rintro (⟨rfl, rfl⟩ | ⟨text, closed, rfl, rfl⟩)
    · rfl
    · have inside : ∀ c ∈ text.toList, (c != '\x7d') = true := by
        intro c member
        rw [bne_iff_ne]
        rintro rfl
        exact closed member
      unfold readEnd?
      simp only [List.dropWhile_append_of_pos inside, List.takeWhile_append_of_pos inside]
      simp

theorem exists_name_of_read? {cs rest : List Char} {r : Reference}
    (read : read? cs = some (r, rest)) :
    ∃ name after, IsName name ∧ cs = '\x7b' :: (name.toList ++ after) ∧
      readEnd? name after = some (r, rest) := by
  unfold read? at read
  split at read
  · next inner =>
      have parts := List.takeWhile_append_dropWhile (p := isNameChar) (l := inner)
      split at read
      · contradiction
      · next first more taken =>
          split at read
          · contradiction
          · next plain =>
              rw [taken] at parts
              refine ⟨String.ofList (first :: more), _, ?_, ?_, read⟩
              · rw [isName_iff, String.toList_ofList]
                refine ⟨⟨first, more, rfl, by simpa using plain⟩, ?_⟩
                rw [← taken]
                exact List.all_eq_true.1 List.all_takeWhile
              · rw [String.toList_ofList, parts]
  · contradiction

/-- The name ends where it ends in writing, because what follows is no part of any name. -/
theorem read?_name {name : String} (isName : IsName name) {after : List Char}
    (stops : ∀ c ∈ after.head?, isNameChar c = false) :
    read? ('\x7b' :: (name.toList ++ after)) = readEnd? name after := by
  obtain ⟨⟨first, more, letters, plain⟩, all⟩ := isName_iff.1 isName
  obtain ⟨taken, dropped⟩ := Descriptor.takeWhile_append_stop all stops
  simp only [read?]
  rw [taken, dropped, letters]
  simp only [plain, Bool.false_eq_true, if_false]
  rw [← letters, String.ofList_toList]

/-- A reference is read after a dollar sign exactly if one is written there. Nothing is left to
choose, since no other is written there. -/
theorem read?_eq_some_iff {cs rest : List Char} {r : Reference} :
    read? cs = some (r, rest) ↔
      ∃ m : Mention, m.reference = r ∧ '$' :: cs = m.spelling ++ rest := by
  constructor
  · intro read
    obtain ⟨name, after, isName, rfl, ends⟩ := exists_name_of_read? read
    rcases readEnd?_eq_some_iff.1 ends with ⟨rfl, rfl⟩ | ⟨text, unbraced, rfl, rfl⟩
    · exact ⟨⟨name, none, isName, by simp⟩, rfl, by simp [Mention.spelling, Mention.ending]⟩
    · exact ⟨⟨name, some text, isName, by simpa using unbraced⟩, rfl,
        by simp [Mention.spelling, Mention.ending]⟩
  · rintro ⟨⟨name, fallback?, isName, unbraced⟩, rfl, written⟩
    cases fallback? with
    | none =>
        obtain rfl : cs = '\x7b' :: (name.toList ++ '\x7d' :: rest) := by
          simpa [Mention.spelling, Mention.ending] using written
        rw [read?_name isName (by simp [isNameChar]), readEnd?_eq_some_iff]
        exact .inl ⟨rfl, rfl⟩
    | some text =>
        obtain rfl :
            cs = '\x7b' :: (name.toList ++ ':' :: '-' :: (text.toList ++ '\x7d' :: rest)) := by
          simpa [Mention.spelling, Mention.ending] using written
        rw [read?_name isName (by simp [isNameChar]), readEnd?_eq_some_iff]
        exact .inr ⟨text, unbraced text rfl, rfl, rfl⟩

end Reference

/-! ## Cutting a text -/

namespace Segment

open Reference (Mention)

theorem split_literal {c : Char} (plain : c ≠ '$') (rest : List Char) :
    split (c :: rest) = .char c :: split rest := by
  rw [split.eq_def]
  split
  · contradiction
  · simp_all
  · simp_all

theorem split_read {cs rest : List Char} {r : Reference}
    (read : Reference.read? cs = some (r, rest)) :
    split ('$' :: cs) = .reference r :: split rest := by
  rw [split]
  split
  · simp_all
  · simp_all

theorem split_unread {cs : List Char} (unread : Reference.read? cs = none) :
    split ('$' :: cs) = .char '$' :: split cs := by
  rw [split]
  split
  · simp_all
  · rfl

theorem split_mention (m : Mention) (rest : List Char) :
    split (m.spelling ++ rest) = .reference m.reference :: split rest := by
  obtain ⟨cs, written⟩ : ∃ cs, m.spelling ++ rest = '$' :: cs := ⟨_, rfl⟩
  rw [written, split_read (Reference.read?_eq_some_iff.2 ⟨m, rfl, written.symm⟩)]

end Segment

/-! ## Texts put together -/

/-- A part of a text as it is written. -/
inductive Piece where
  | literal (text : String) (plain : '$' ∉ text.toList)
  | mention (m : Reference.Mention)

namespace Piece

def spelling : Piece → List Char
  | .literal text _ => text.toList
  | .mention m => m.spelling

/-- What a part of a text is expanded to. -/
def value (env : Environment) : Piece → String
  | .literal text _ => text
  | .mention m => m.value env

/-- The text that is put together of parts. -/
def text (pieces : List Piece) : String :=
  String.ofList (pieces.flatMap spelling)

end Piece

namespace Environment

variable (env : Environment)

theorem toList_expand (text : String) :
    (env.expand text).toList = (Segment.split text.toList).flatMap (Segment.expand env) :=
  String.toList_ofList

theorem flatMap_split_literal {text : List Char} (plain : '$' ∉ text) (rest : List Char) :
    (Segment.split (text ++ rest)).flatMap (Segment.expand env) =
      text ++ (Segment.split rest).flatMap (Segment.expand env) := by
  induction text with
  | nil => rfl
  | cons c text ih =>
      rw [List.mem_cons, not_or] at plain
      rw [List.cons_append, Segment.split_literal (Ne.symm plain.1), List.flatMap_cons, ih plain.2]
      rfl

theorem flatMap_split_pieces (pieces : List Piece) :
    (Segment.split (pieces.flatMap Piece.spelling)).flatMap (Segment.expand env) =
      pieces.flatMap fun p => (p.value env).toList := by
  induction pieces with
  | nil => simp [Segment.split]
  | cons p pieces ih =>
      rw [List.flatMap_cons, List.flatMap_cons, ← ih]
      cases p with
      | literal text plain => exact env.flatMap_split_literal plain _
      | mention m =>
          rw [Piece.spelling, Segment.split_mention, List.flatMap_cons, Segment.expand,
            m.value_reference]
          rfl

/-- Every part of a text is replaced with its value. -/
theorem expand_text (pieces : List Piece) :
    env.expand (Piece.text pieces) = String.join (pieces.map (Piece.value env)) := by
  apply String.toList_inj.1
  rw [toList_expand, Piece.text, String.toList_ofList, flatMap_split_pieces, String.toList_join,
    List.flatMap_map]

/-- Where no reference is written every character stands for itself. -/
theorem flatMap_split_unmentioned {cs : List Char}
    (unmentioned : ∀ m : Reference.Mention, ¬ m.spelling <:+: cs) :
    (Segment.split cs).flatMap (Segment.expand env) = cs := by
  have later {c : Char} {rest : List Char}
      (unmentioned : ∀ m : Reference.Mention, ¬ m.spelling <:+: c :: rest) (m : Reference.Mention) :
      ¬ m.spelling <:+: rest :=
    fun inside => unmentioned m (inside.trans (List.suffix_cons c rest).isInfix)
  induction cs using Segment.split.induct with
  | case1 => simp [Segment.split]
  | case2 cs r rest read =>
      obtain ⟨m, -, written⟩ := Reference.read?_eq_some_iff.1 read
      exact absurd ⟨[], rest, written.symm⟩ (unmentioned m)
  | case3 cs unread ih =>
      rw [Segment.split_unread unread, List.flatMap_cons, ih (later unmentioned)]
      rfl
  | case4 c cs other ih =>
      rw [Segment.split_literal other, List.flatMap_cons, ih (later unmentioned)]
      rfl

theorem expand_unmentioned {text : String}
    (unmentioned : ∀ m : Reference.Mention, ¬ m.spelling <:+: text.toList) :
    env.expand text = text := by
  apply String.toList_inj.1
  rw [toList_expand, flatMap_split_unmentioned env unmentioned]

end Environment

/-! ## Documents -/

/-- Two documents are the same but for their strings, and each string of the second is what a
function makes of the string of the first in the same place. -/
inductive Json.Rewritten (f : String → String) : Json → Json → Prop where
  | null : Rewritten f .null .null
  | bool (b : Bool) : Rewritten f (.bool b) (.bool b)
  | int (n : Int) : Rewritten f (.int n) (.int n)
  | float (x : FiniteDouble) : Rewritten f (.float x) (.float x)
  | str (s : String) : Rewritten f (.str s) (.str (f s))
  | arr {items items' : List Json} (all : List.Forall₂ (Rewritten f) items items') :
      Rewritten f (.arr items) (.arr items')
  | obj {members members' : List (String × Json)}
      (names : members.map Prod.fst = members'.map Prod.fst)
      (all : List.Forall₂ (Rewritten f) (members.map Prod.snd) (members'.map Prod.snd)) :
      Rewritten f (.obj members) (.obj members')

namespace Environment

variable (env : Environment)

theorem names_expandMembers (members : List (String × Json)) :
    members.map Prod.fst = (env.expandMembers members).map Prod.fst := by
  rw [expandMembers_eq, List.map_map]
  rfl

mutual
theorem rewritten_expandStrings (j : Json) : Json.Rewritten env.expand j (env.expandStrings j) := by
  cases j with
  | null => exact .null
  | bool b => exact .bool b
  | int n => exact .int n
  | float x => exact .float x
  | str s => exact .str s
  | arr items => exact .arr (rewritten_expandItems items)
  | obj members => exact .obj (env.names_expandMembers members) (rewritten_expandMembers members)

theorem rewritten_expandItems (items : List Json) :
    List.Forall₂ (Json.Rewritten env.expand) items (env.expandItems items) := by
  cases items with
  | nil => exact .nil
  | cons item rest => exact .cons (rewritten_expandStrings item) (rewritten_expandItems rest)

theorem rewritten_expandMembers (members : List (String × Json)) :
    List.Forall₂ (Json.Rewritten env.expand) (members.map Prod.snd)
      ((env.expandMembers members).map Prod.snd) := by
  cases members with
  | nil => exact .nil
  | cons m rest =>
      obtain ⟨name, value⟩ := m
      exact .cons (rewritten_expandStrings value) (rewritten_expandMembers rest)
end

end Environment

namespace Config.StatementEntry

/-- The value that a document stands for as the parameter of a number. -/
def readParameter (s : StatementEntry) (type : ValueType) (document : Json) (index : Nat) :
    Except Fault Value :=
  match Value.ofJson? type document with
  | some value => .ok value
  | none => .error (.parameterType s.descriptor index type)

/-- The values that documents stand for as the parameters of a statement. -/
def read (s : StatementEntry) (signature : List ValueType) (documents : List Json) :
    Except Fault (List Value) :=
  if documents.length ≠ signature.length then
    .error (.parameterCount s.descriptor signature.length documents.length)
  else
    (signature.zip documents).zipIdx.mapM fun p => s.readParameter p.1.1 p.1.2 p.2

variable (s : StatementEntry) (env : Environment)

theorem valuesFrom_eq (index : Nat) (signature : List ValueType) (params : List Json) :
    s.valuesFrom env index signature params =
      ((signature.zip (params.map env.expandStrings)).zipIdx index).mapM fun p =>
        s.readParameter p.1.1 p.1.2 p.2 := by
  induction signature generalizing index params with
  | nil => rfl
  | cons type types ih =>
      cases params with
      | nil => rfl
      | cons param params =>
          rw [valuesFrom, ih, List.map_cons, List.zip_cons_cons, List.zipIdx_cons, List.mapM_cons,
            readParameter]
          cases Value.ofJson? type (env.expandStrings param) with
          | none => rfl
          | some value => rfl

/-- The environment has a part in the values of a statement only in the strings of its
parameters. -/
theorem values_eq (signature : List ValueType) :
    s.values env signature = s.read signature (s.params.map env.expandStrings) := by
  rw [values, read, List.length_map, valuesFrom_eq]

end Config.StatementEntry

namespace Environment

/-- A text that is put together of literal texts without dollar signs and of references expands to
the literal texts and the values of the references, whatever these look like. A text in which
no reference is written stays as it is. The values of a statement are what its parameters
stand for once each string in them is expanded, at any depth, and nothing else is changed. -/
theorem references_are_replaced_once :
    (∀ (env : Environment) (pieces : List Piece),
      env.expand (Piece.text pieces) = String.join (pieces.map (Piece.value env))) ∧
    (∀ (env : Environment) (text : String),
      (∀ m : Reference.Mention, ¬ m.spelling <:+: text.toList) → env.expand text = text) ∧
    ∀ (s : Config.StatementEntry) (env : Environment) (signature : List ValueType),
      ∃ documents, List.Forall₂ (Json.Rewritten env.expand) s.params documents ∧
        s.values env signature = s.read signature documents := by
  refine ⟨expand_text, fun env text => env.expand_unmentioned, fun s env signature => ?_⟩
  refine ⟨s.params.map env.expandStrings, ?_, s.values_eq env signature⟩
  rw [List.forall₂_map_right_iff, List.forall₂_same]
  exact fun param _ => env.rewritten_expandStrings param

/-- A value looks like a reference, a text to fall back to begins like one, and both stand as they
are. A reference that is not closed is none. -/
theorem inserted_references_stand :
    let env := Environment.ofList [("HOST", ""), ("URL", "$\x7bHOST\x7d")]
    let unclosed := "$\x7bHOST:-$\x7bURL"
    env.expand "$\x7bURL\x7d/$\x7bHOST:-x\x7d$\x7bPORT:-$\x7bHOST\x7d\x7d" =
        "$\x7bHOST\x7d/$\x7bHOST\x7d" ∧
      (∀ m : Reference.Mention, ¬ m.spelling <:+: unclosed.toList) ∧
      env.expand unclosed = unclosed := by
  intro env unclosed
  obtain ⟨replaced, kept, -⟩ := references_are_replaced_once
  have unmentioned : ∀ m : Reference.Mention, ¬ m.spelling <:+: unclosed.toList := by
    intro m inside
    have closes : '\x7d' ∈ m.spelling := by
      obtain ⟨name, fallback?, -, -⟩ := m
      cases fallback? <;> simp [Reference.Mention.spelling, Reference.Mention.ending]
    exact absurd (inside.subset closes) (by decide)
  refine ⟨?_, unmentioned, kept env unclosed unmentioned⟩
  let url : Reference.Mention := ⟨"URL", none, by decide, by simp⟩
  let host : Reference.Mention := ⟨"HOST", some "x", by decide, by simp⟩
  let port : Reference.Mention := ⟨"PORT", some "$\x7bHOST", by decide, by simp⟩
  let parts : List Piece :=
    [.mention url, .literal "/" (by decide), .mention host, .mention port,
      .literal "\x7d" (by decide)]
  have written :
      Piece.text parts = "$\x7bURL\x7d/$\x7bHOST:-x\x7d$\x7bPORT:-$\x7bHOST\x7d\x7d" := by
    decide
  have meant : String.join (parts.map (Piece.value env)) = "$\x7bHOST\x7d/$\x7bHOST\x7d" := by
    decide
  rw [← written, replaced, meant]

end Environment

end FleetStore
