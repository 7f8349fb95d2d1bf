import FleetStore.Statement.Kind
import FleetStore.Text.Blank
import FleetStore.Value.Type

/-! # Tokens of descriptors

A descriptor is a text of words, quoted texts, parameters, commas and
comparison operators. Blanks separate tokens; commas, operators, quotes and
question marks also end a word by themselves. `tokenize` cuts a text into its
tokens and tells for each the byte at which it starts.
-/

namespace FleetStore.Descriptor

/-- The smallest parts of a descriptor. -/
inductive Token where
  /-- A verb, a keyword, a category name or a bare literal. -/
  | word (text : String)
  /-- A text between single quotes, kept without them. -/
  | quoted (text : String)
  /-- A free parameter with its type. -/
  | parameter (type : ValueType)
  | comma
  | operator (op : Comparison)
deriving DecidableEq, Repr

def Token.describe : Token → String
  | .word text => text
  | .quoted text => "'" ++ text ++ "'"
  | .parameter type => "parameter of type " ++ type.name
  | .comma => ","
  | .operator op => op.symbol

/-- A token and the byte of the descriptor at which it starts. -/
structure Lexeme where
  token : Token
  offset : Nat
deriving DecidableEq, Repr

inductive TokenFault where
  /-- `!` without `=` after it. -/
  | loneExclamation
  | openQuote
  /-- `?` without a letter of a type after it. -/
  | unknownType
  /-- A parameter that runs on into other characters. -/
  | malformedParameter
deriving DecidableEq, Repr

def isDelimiter (c : Char) : Bool :=
  Text.isBlank c || c == ',' || c == '=' || c == '!' || c == '<' || c == '>' || c == '\''
    || c == '?'

/-- The rest of a quoted text: what stands before the closing quote, and after it. -/
def readQuoted (cs : List Char) : Except TokenFault (Token × List Char) :=
  match cs.dropWhile (· != '\'') with
  | [] => .error .openQuote
  | _ :: rest => .ok (.quoted (String.ofList (cs.takeWhile (· != '\''))), rest)

/-- The end of a parameter: it must not touch a following word. -/
def endParameter (type : ValueType) (rest : List Char) : Except TokenFault (Token × List Char) :=
  match rest with
  | [] => .ok (.parameter type, rest)
  | c :: _ => if isDelimiter c then .ok (.parameter type, rest) else .error .malformedParameter

/-- The rest of a parameter: the letter of its type and the mark of a list. -/
def readParameter : List Char → Except TokenFault (Token × List Char)
  | [] => .error .unknownType
  | c :: rest =>
      match ScalarType.ofLetter? c with
      | none => .error .unknownType
      | some t =>
          match rest with
          | '[' :: rest => endParameter (.list t) rest
          | rest => endParameter (.scalar t) rest

/-- The rest of an operator that may be followed by `=`. -/
def readOperator (short long : Comparison) : List Char → Token × List Char
  | '=' :: rest => (.operator long, rest)
  | rest => (.operator short, rest)

/-- The token that starts with a character that is not blank, and what follows it. -/
def readToken (c : Char) (rest : List Char) : Except TokenFault (Token × List Char) :=
  if c = ',' then .ok (.comma, rest)
  else if c = '=' then .ok (.operator .equal, rest)
  else if c = '!' then
    match rest with
    | '=' :: rest => .ok (.operator .notEqual, rest)
    | _ => .error .loneExclamation
  else if c = '<' then .ok (readOperator .less .lessEqual rest)
  else if c = '>' then .ok (readOperator .greater .greaterEqual rest)
  else if c = '\'' then readQuoted rest
  else if c = '?' then readParameter rest
  else
    .ok (.word (String.ofList (c :: rest.takeWhile (!isDelimiter ·))),
      rest.dropWhile (!isDelimiter ·))

/-! ## A token takes at least one character -/

theorem readQuoted_length {rest after : List Char} {t : Token}
    (h : readQuoted rest = .ok (t, after)) : after.length ≤ rest.length := by
  unfold readQuoted at h
  have shorter := (List.dropWhile_sublist (l := rest) (· != '\'')).length_le
  split at h
  · cases h
  · next rest' found =>
      cases h
      rw [found] at shorter
      simp only [List.length_cons] at shorter
      omega

theorem endParameter_length {rest after : List Char} {t : Token} {type : ValueType}
    (h : endParameter type rest = .ok (t, after)) : after = rest := by
  unfold endParameter at h
  split at h
  · cases h; rfl
  · split at h <;> cases h; rfl

theorem readParameter_length {rest after : List Char} {t : Token}
    (h : readParameter rest = .ok (t, after)) : after.length ≤ rest.length := by
  unfold readParameter at h
  split at h
  · cases h
  · split at h
    · cases h
    · split at h <;> rw [endParameter_length h] <;> simp only [List.length_cons] <;> omega

theorem readOperator_length (short long : Comparison) (rest : List Char) :
    (readOperator short long rest).2.length ≤ rest.length := by
  unfold readOperator
  split <;> simp

theorem readToken_length {c : Char} {rest after : List Char} {t : Token}
    (h : readToken c rest = .ok (t, after)) : after.length ≤ rest.length := by
  unfold readToken at h
  split at h
  · cases h; exact Nat.le_refl _
  split at h
  · cases h; exact Nat.le_refl _
  split at h
  · split at h <;> cases h; simp
  split at h
  · rw [show after = (readOperator .less .lessEqual rest).2 by simp_all]
    exact readOperator_length _ _ rest
  split at h
  · rw [show after = (readOperator .greater .greaterEqual rest).2 by simp_all]
    exact readOperator_length _ _ rest
  split at h
  · exact readQuoted_length h
  split at h
  · exact readParameter_length h
  · cases h
    exact (List.dropWhile_sublist (l := rest) (!isDelimiter ·)).length_le

/-- Cuts a text into its tokens. The text is what remains of a descriptor from the
byte `offset` on; a fault is reported with the byte at which its token starts. -/
def tokenizeFrom (offset : Nat) : List Char → Except (TokenFault × Nat) (List Lexeme)
  | [] => .ok []
  | c :: rest =>
      if Text.isBlank c then tokenizeFrom (offset + c.utf8Size) rest
      else
        match h : readToken c rest with
        | .error fault => .error (fault, offset)
        | .ok (token, after) =>
            have : after.length ≤ rest.length := readToken_length h
            let next := offset + (Text.byteLength (c :: rest) - Text.byteLength after)
            (tokenizeFrom next after).map (⟨token, offset⟩ :: ·)
termination_by cs => cs.length

def tokenize (text : String) : Except (TokenFault × Nat) (List Lexeme) :=
  tokenizeFrom 0 text.toList

end FleetStore.Descriptor
