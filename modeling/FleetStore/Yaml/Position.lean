import FleetStore.Json.Writer

/-! # Positions in YAML texts

A YAML text is read from left to right. What a character means depends on the
column in which it stands, because columns tell blocks apart, and on its line,
because a key has to be followed by its colon on the same line.

A line ends in a line feed, in a carriage return or both, in a next-line
character, or in one of the two separators of lines and paragraphs. All but the
last two are the same to a text. At the beginning of a line a byte order mark is
skipped, but takes up a column.

Some characters may not stand in a text. A text is looked at in chunks, so that
such a character hides what comes before it in its chunk.
-/

namespace FleetStore.Yaml

/-! ## Characters -/

def isGap (c : Char) : Bool :=
  c == ' ' || c == '\t'

/-- The ends of lines in a text whose line ends are unified. -/
def isBreak (c : Char) : Bool :=
  c == '\n' || c == '\u2028' || c == '\u2029'

/-- Whether what follows starts with a blank or ends the line. -/
def gapAhead : List Char → Bool
  | [] => true
  | c :: _ => isGap c || isBreak c

/-- The characters that structure a flow collection. -/
def isFlowMark (c : Char) : Bool :=
  c == ',' || c == '[' || c == ']' || c == '\x7b' || c == '\x7d'

/-- Whether three dashes or three points stand here by themselves. At the beginning of
a line they mark where a document starts or ends. -/
def isMarker : List Char → Bool
  | '-' :: '-' :: '-' :: rest => gapAhead rest
  | '.' :: '.' :: '.' :: rest => gapAhead rest
  | _ => false

def isAllowed (c : Char) : Bool :=
  let n := c.toNat
  n == 0x09 || n == 0x0A || n == 0x0D || (0x20 ≤ n && n ≤ 0x7E) || n == 0x85
    || (0xA0 ≤ n && n ≤ 0xD7FF) || (0xE000 ≤ n && n ≤ 0xFFFD) || 0x10000 ≤ n

/-- A text in which a line feed stands for every line end but the separators. -/
def unifyBreaks : List Char → List Char
  | [] => []
  | '\r' :: '\n' :: rest => '\n' :: unifyBreaks rest
  | c :: rest => (if c = '\r' ∨ c = '\u0085' then '\n' else c) :: unifyBreaks rest

/-! ## Chunks -/

/-- How many bytes of a text are looked at together. -/
def chunkSize : Nat := 16384

/-- A text as far as it can be read. Of a chunk with a character that may not stand in a
text nothing but that character is left, and of what comes behind it nothing at all.
`chunk` holds the characters of the current chunk so far, backwards, and has `room` for
some more bytes. -/
def readable (chunk : List Char) (room : Nat) : List Char → List Char
  | [] => chunk.reverse
  | c :: rest =>
      if c.utf8Size ≤ room then
        if isAllowed c then readable (c :: chunk) (room - c.utf8Size) rest else [c]
      else if isAllowed c then chunk.reverse ++ readable [c] (chunkSize - c.utf8Size) rest
      else chunk.reverse ++ [c]

/-! ## Places -/

/-- Where a character stands in a text. -/
structure Place where
  line : Nat
  column : Nat
  /-- How many bytes stand before it on its line. -/
  offset : Nat
deriving DecidableEq, Repr

namespace Place

def origin : Place := ⟨0, 0, 0⟩

/-- The place behind a character. -/
def after (p : Place) (c : Char) : Place :=
  if isBreak c then ⟨p.line + 1, 0, 0⟩ else ⟨p.line, p.column + 1, p.offset + c.utf8Size⟩

end Place

structure Position where
  rest : List Char
  place : Place
deriving DecidableEq, Repr

namespace Position

def start (text : String) : Position :=
  ⟨unifyBreaks (readable [] chunkSize text.toList), .origin⟩

/-- The position some characters further. -/
def drop (p : Position) (n : Nat) : Position :=
  ⟨p.rest.drop n, (p.rest.take n).foldl Place.after p.place⟩

end Position

/-- What comes next, and whether a line ended before it. -/
structure Ahead where
  position : Position
  crossed : Bool
deriving DecidableEq, Repr

/-- Skips blanks, comments and line ends. Within a line, tabs count as blanks if `tabs`
holds; once a line has ended, they do so only if `deepTabs` holds. -/
def skip (tabs deepTabs crossed inComment : Bool) (place : Place) : List Char → Ahead
  | [] => ⟨⟨[], place⟩, crossed⟩
  | c :: rest =>
      if isBreak c then skip deepTabs deepTabs true false (place.after c) rest
      else if (inComment ∧ isAllowed c) ∨ c = ' ' ∨ (c = '\t' ∧ tabs)
          ∨ (c = '\ufeff' ∧ place.column = 0) then
        skip tabs deepTabs crossed inComment (place.after c) rest
      else if c = '#' then skip tabs deepTabs crossed true (place.after c) rest
      else ⟨⟨c :: rest, place⟩, crossed⟩

/-- What comes next after a position. A tab may stand before it in a flow collection
and, elsewhere, after something on the same line that no key can follow. -/
def Position.ahead (p : Position) (flow keyAllowed : Bool) : Ahead :=
  skip (flow || !keyAllowed) flow false false p.place p.rest

end FleetStore.Yaml
