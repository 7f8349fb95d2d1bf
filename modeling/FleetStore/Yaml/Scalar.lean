import FleetStore.Yaml.Position

/-! # Scalars of YAML texts

A scalar stands between single or double quotes or plainly. It may go over
several lines, of which a plain scalar keeps on only as long as they are indented
deeply enough. Blanks around line ends do not count. A single line feed then
stands for one blank, and of several the first is dropped; a separator stands for
itself.
-/

namespace FleetStore.Yaml

/-! ## Between two words -/

/-- What lies between two words of a scalar: blanks, or line ends with the blanks
around them. Characters are held backwards. -/
inductive Seam where
  | blanks (cs : List Char)
  /-- The first line end, unless a backslash hides it, and the further ones. -/
  | breaks (first : Option Char) (more : List Char)
deriving DecidableEq, Repr

namespace Seam

def empty : Seam := .blanks []

def crossed : Seam → Bool
  | .blanks _ => false
  | .breaks .. => true

/-- Goes on with a blank or a line end. -/
def extend (c : Char) : Seam → Seam
  | .blanks cs => if isBreak c then .breaks (some c) [] else .blanks (c :: cs)
  | .breaks first more => if isBreak c then .breaks first (c :: more) else .breaks first more

/-- What a seam stands for between two words, backwards. -/
def text : Seam → List Char
  | .blanks cs => cs
  | .breaks none more => more
  | .breaks (some '\n') [] => [' ']
  | .breaks (some '\n') more => more
  | .breaks (some c) more => more ++ [c]

end Seam

/-- A scalar that has been read. -/
structure Scanned where
  text : List Char
  /-- Where it is over; the blanks and line ends after a plain scalar belong to it. -/
  position : Position
  /-- Whether a line has ended after its last word. -/
  crossed : Bool
deriving DecidableEq, Repr

/-! ## Plain scalars -/

/-- Whether a plain scalar may start with these characters. -/
def startsPlain (flow : Bool) : List Char → Bool
  | [] => false
  | c :: rest =>
      if c = '-' then !gapAhead rest
      else if c = '?' ∨ c = ':' then !flow && !gapAhead rest
      else
        isAllowed c
          && !(isGap c || isBreak c || isFlowMark c || c == '#' || c == '&' || c == '*'
            || c == '!' || c == '|' || c == '>' || c == '\'' || c == '"' || c == '%'
            || c == '@' || c.toNat == 0x60)

/-- Whether a colon before these characters stands where none may stand in a flow
collection: what follows it has to be set off by a blank. -/
def isStrayColon (flow : Bool) : List Char → Bool
  | c :: _ => flow && (isFlowMark c || c == '?')
  | [] => false

/-- Whether a plain scalar ends before the word that starts here after a seam. A line of
it outside of a flow collection has to start in column `least` or further right. -/
def endsBefore (flow : Bool) (least column : Nat) (seam : Seam) (cs : List Char) : Bool :=
  seam != .empty
    && ((!flow && column < least) || cs.head? == some '#' || (column == 0 && isMarker cs))

/-- Reads on in a plain scalar after the text and the seam so far. -/
def plain? (flow : Bool) (least : Nat) (text : List Char) (seam : Seam) (place : Place) :
    List Char → Option Scanned
  | [] => some ⟨text.reverse, ⟨[], place⟩, seam.crossed⟩
  | c :: rest =>
      if isGap c ∨ isBreak c then
        if c = '\t' ∧ seam.crossed ∧ place.column < least then none
        else plain? flow least text (seam.extend c) (place.after c) rest
      else if !isAllowed c then none
      else if endsBefore flow least place.column seam (c :: rest) ∨ (c = ':' ∧ gapAhead rest)
          ∨ (flow ∧ isFlowMark c) then
        some ⟨text.reverse, ⟨c :: rest, place⟩, seam.crossed⟩
      else if c = ':' ∧ isStrayColon flow rest then none
      else plain? flow least (c :: seam.text ++ text) .empty (place.after c) rest

/-! ## Quoted scalars -/

/-- Reads on in a scalar in single quotes, in which a quote is written twice. -/
def singleQuoted? (text : List Char) (seam : Seam) (place : Place) :
    List Char → Option Scanned
  | [] => none
  | '\'' :: '\'' :: rest =>
      singleQuoted? ('\'' :: seam.text ++ text) .empty ((place.after '\'').after '\'') rest
  | c :: rest =>
      if isGap c ∨ isBreak c then singleQuoted? text (seam.extend c) (place.after c) rest
      else if (place.column = 0 ∧ isMarker (c :: rest)) ∨ !isAllowed c then none
      else if c = '\'' then
        some ⟨(seam.text ++ text).reverse, ⟨rest, place.after c⟩, false⟩
      else singleQuoted? (c :: seam.text ++ text) .empty (place.after c) rest

/-- The character that a backslash and another character stand for. -/
def escaped? : Char → Option Char
  | '0' => some '\x00'
  | 'a' => some '\x07'
  | 'b' => some '\x08'
  | 't' | '\t' => some '\t'
  | 'n' => some '\n'
  | 'v' => some '\x0b'
  | 'f' => some '\x0c'
  | 'r' => some '\r'
  | 'e' => some '\x1b'
  | ' ' => some ' '
  | '"' => some '"'
  | '/' => some '/'
  | '\\' => some '\\'
  | 'N' => some '\u0085'
  | '_' => some '\u00a0'
  | 'L' => some '\u2028'
  | 'P' => some '\u2029'
  | _ => none

/-- The number of hexadecimal digits that follow a letter behind a backslash. -/
def digitCount? : Char → Option Nat
  | 'x' => some 2
  | 'u' => some 4
  | 'U' => some 8
  | _ => none

def hexValue? (c : Char) : Option Nat :=
  if c.isDigit then some (c.toNat - '0'.toNat)
  else if 'a' ≤ c.toLower ∧ c.toLower ≤ 'f' then some (c.toLower.toNat - 'a'.toNat + 10)
  else none

/-- The character with a number. -/
def numbered? (n : Nat) : Option Char :=
  if h : n.isValidChar then some (Char.ofNatAux n h) else none

/-- What has been read of something that a backslash introduces. -/
inductive Escape where
  | none
  | backslash
  /-- As many hexadecimal digits are still to come, and one more. -/
  | digits (more value : Nat)
deriving DecidableEq, Repr

def doubleQuoted? (text : List Char) (seam : Seam) (escape : Escape) (place : Place) :
    List Char → Option Scanned
  | [] => none
  | c :: rest =>
      match escape with
      | .none =>
          if isGap c ∨ isBreak c then
            doubleQuoted? text (seam.extend c) .none (place.after c) rest
          else if (place.column = 0 ∧ isMarker (c :: rest)) ∨ !isAllowed c then none
          else if c = '"' then
            some ⟨(seam.text ++ text).reverse, ⟨rest, place.after c⟩, false⟩
          else if c = '\\' then
            doubleQuoted? (seam.text ++ text) .empty .backslash (place.after c) rest
          else doubleQuoted? (c :: seam.text ++ text) .empty .none (place.after c) rest
      | .backslash =>
          if isBreak c then doubleQuoted? text (.breaks none []) .none (place.after c) rest
          else
            match digitCount? c with
            | some n => doubleQuoted? text .empty (.digits (n - 1) 0) (place.after c) rest
            | none =>
                match escaped? c with
                | some d => doubleQuoted? (d :: text) .empty .none (place.after c) rest
                | none => none
      | .digits more value =>
          match hexValue? c, more with
          | none, _ => none
          | some digit, more + 1 =>
              doubleQuoted? text .empty (.digits more (16 * value + digit)) (place.after c) rest
          | some digit, 0 =>
              match numbered? (16 * value + digit) with
              | some d => doubleQuoted? (d :: text) .empty .none (place.after c) rest
              | none => none

namespace Position

def plain? (p : Position) (flow : Bool) (least : Nat) : Option Scanned :=
  Yaml.plain? flow least [] .empty p.place p.rest

/-- Reads a quoted scalar, of which the quotation mark is the first character. -/
def quoted? (p : Position) : Option Scanned :=
  match p.rest with
  | '\'' :: rest => singleQuoted? [] .empty (p.place.after '\'') rest
  | '"' :: rest => doubleQuoted? [] .empty .none (p.place.after '"') rest
  | _ => none

end Position

end FleetStore.Yaml
