import FleetStore.Yaml.Scalar

/-! # Tokens of YAML texts

A text is cut into scalars and the marks that structure it. Blocks have no marks
of their own: where one begins or ends follows from columns, and that a scalar or
a flow collection was a key is known only when its colon comes. The lexer
therefore remembers where a key may have begun and puts the tokens that announce
it in front of it afterwards.

A key has to be followed by its colon on the same line and within 1024 bytes.
Anchors, aliases, tags, directives, block scalars and keys behind a question mark
are not read.
-/

namespace FleetStore.Yaml

/-- A part of a text. -/
inductive Token where
  | scalar (plain : Bool) (text : String)
  /-- A block sequence begins. -/
  | openItems
  /-- A block mapping begins. -/
  | openEntries
  | closeBlock
  | leftBracket
  | rightBracket
  | leftBrace
  | rightBrace
  | comma
  | dash
  /-- What follows is a key. -/
  | key
  | colon
  | documentStart
  | documentEnd
deriving DecidableEq, Repr

/-- A place where a key may have begun. -/
structure KeyStart where
  place : Place
  /-- How many tokens stand before it. -/
  index : Nat
  /-- Whether nothing but a key may stand there. -/
  isRequired : Bool
deriving DecidableEq, Repr

/-- How many bytes further on the colon of a key may stand. -/
def KeyStart.reach : Nat := 1024

/-- Whether a key that began there is over at a place. -/
def KeyStart.isOver (k : KeyStart) (p : Place) : Bool :=
  k.place.line < p.line || k.place.offset + KeyStart.reach < p.offset

/-- A lexer within a text. -/
structure Lexer where
  position : Position
  /-- The columns of the blocks that are open, the innermost first. -/
  blocks : List Nat
  /-- Where a key may have begun within the innermost collection. -/
  keyStart : Option KeyStart
  /-- Where keys may have begun around each open flow collection, the innermost first. -/
  outer : List (Option KeyStart)
  /-- Whether a key may begin here. -/
  keyAllowed : Bool
  tokens : List Token
  count : Nat

namespace Lexer

def start (text : String) : Lexer :=
  ⟨.start text, [], none, [], true, [], 0⟩

/-- Where the lexer stands. -/
def place (l : Lexer) : Place := l.position.place

/-- Whether the lexer is in a flow collection. -/
def flow (l : Lexer) : Bool := !l.outer.isEmpty

/-- The first column that is deeper than the innermost block. -/
def least (l : Lexer) : Nat := l.blocks.head?.elim 0 (· + 1)

def add (l : Lexer) (t : Token) : Lexer :=
  { l with tokens := t :: l.tokens, count := l.count + 1 }

def take (l : Lexer) (t : Token) (length : Nat) : Lexer :=
  { l.add t with position := l.position.drop length }

/-- Puts a token in front of all but the first tokens. -/
def insert (l : Lexer) (index : Nat) (t : Token) : Lexer :=
  let later := l.count - index
  { l with tokens := l.tokens.take later ++ t :: l.tokens.drop later, count := l.count + 1 }

/-! ## Blocks -/

/-- Begins a block in a column, unless one is open there or further right. Its token is
put in front of all but the first tokens. -/
def openBlock (l : Lexer) (column index : Nat) (t : Token) : Lexer :=
  if l.flow ∨ column < l.least then l
  else { l.insert index t with blocks := column :: l.blocks }

/-- Ends blocks, given the columns of those that are open. -/
def closeBlocks (l : Lexer) (isOver : Nat → Bool) : List Nat → Lexer
  | [] => { l with blocks := [] }
  | column :: rest =>
      if isOver column then closeBlocks (l.add .closeBlock) isOver rest
      else { l with blocks := column :: rest }

/-- Ends the blocks that stand further right than a column. -/
def closeTo (l : Lexer) (column : Nat) : Lexer :=
  if l.flow then l else l.closeBlocks (column < ·) l.blocks

def closeAll (l : Lexer) : Lexer :=
  if l.flow then l else l.closeBlocks (fun _ => true) l.blocks

/-! ## Keys -/

/-- Gives up a place where a key may have begun, if it need not be one. -/
def release : Option KeyStart → Option (Option KeyStart)
  | some k => if k.isRequired then none else some none
  | none => some none

/-- Gives up a place where a key may have begun, if the key would be over. -/
def releaseOver (p : Place) : Option KeyStart → Option (Option KeyStart)
  | some k => if k.isOver p then release (some k) else some (some k)
  | none => some none

/-- No key has begun here after all. -/
def release? (l : Lexer) : Option Lexer :=
  (release l.keyStart).map fun keyStart => { l with keyStart }

/-- Gives up all places where a key that may have begun would be over. -/
def releaseOver? (l : Lexer) : Option Lexer := do
  let keyStart ← releaseOver l.place l.keyStart
  let outer ← l.outer.mapM (releaseOver l.place)
  return { l with keyStart, outer }

/-- Remembers that a key may begin here, if it may. -/
def mark? (l : Lexer) : Option Lexer :=
  if l.keyAllowed then do
    let l ← l.release?
    let isRequired := !l.flow && l.blocks.head? == some l.place.column
    return { l with keyStart := some ⟨l.place, l.count, isRequired⟩ }
  else some l

/-! ## Going on -/

/-- Goes on to the next token: ends the keys and the blocks that cannot go on there. -/
def reach? (l : Lexer) : Option Lexer := do
  let next := l.position.ahead l.flow l.keyAllowed
  let keyAllowed := l.keyAllowed || (next.crossed && !l.flow)
  let l ← { l with position := next.position, keyAllowed }.releaseOver?
  return l.closeTo l.place.column

/-- A mark that begins or ends a document. -/
def takeMarker? (l : Lexer) (t : Token) : Option Lexer := do
  let l ← l.closeAll.release?
  return { l with keyAllowed := false }.take t 3

/-- A bracket or brace that opens a flow collection. -/
def takeOpening? (l : Lexer) (t : Token) : Option Lexer := do
  let l ← l.mark?
  return { l with keyStart := none, outer := l.keyStart :: l.outer, keyAllowed := true }.take t 1

/-- A bracket or brace that closes a flow collection. -/
def takeClosing? (l : Lexer) (t : Token) : Option Lexer := do
  let l ← l.release?
  let l :=
    match l.outer with
    | keyStart :: outer => { l with keyStart, outer }
    | [] => l
  return { l with keyAllowed := false }.take t 1

/-- A comma between the parts of a flow collection. -/
def takeComma? (l : Lexer) : Option Lexer := do
  let l ← l.release?
  return { l with keyAllowed := true }.take .comma 1

/-- A dash in front of an item. -/
def takeDash? (l : Lexer) : Option Lexer :=
  if !l.flow ∧ !l.keyAllowed then none
  else do
    let l ← (l.openBlock l.place.column l.count .openItems).release?
    return { l with keyAllowed := true }.take .dash 1

/-- A colon. If a key may have begun before it, it has. -/
def takeColon? (l : Lexer) : Option Lexer :=
  match l.keyStart with
  | some k =>
      let l := (l.insert k.index .key).openBlock k.place.column k.index .openEntries
      some ({ l with keyStart := none, keyAllowed := false }.take .colon 1)
  | none =>
      if l.flow then some ({ l with keyAllowed := false }.take .colon 1)
      else if !l.keyAllowed then none
      else some ((l.openBlock l.place.column l.count .openEntries).take .colon 1)

/-- A scalar, if it can be read; it may be a key. After a plain scalar a key may begin
only on a further line. -/
def takeScalar? (l : Lexer) (plain : Bool) (read : Position → Option Scanned) :
    Option Lexer := do
  let l ← l.mark?
  let scalar ← read l.position
  let l := l.add (.scalar plain (String.ofList scalar.text))
  return { l with position := scalar.position, keyAllowed := scalar.crossed }

/-- Takes the token that begins here. -/
def take? (l : Lexer) : Option Lexer :=
  let cs := l.position.rest
  if l.place.column = 0 ∧ isMarker cs then
    l.takeMarker? (if cs.head? = some '-' then .documentStart else .documentEnd)
  else
    match cs with
    | '[' :: _ => l.takeOpening? .leftBracket
    | '\x7b' :: _ => l.takeOpening? .leftBrace
    | ']' :: _ => l.takeClosing? .rightBracket
    | '\x7d' :: _ => l.takeClosing? .rightBrace
    | ',' :: _ => l.takeComma?
    | '\'' :: _ | '"' :: _ => l.takeScalar? false Position.quoted?
    | c :: rest =>
        if c = '-' ∧ gapAhead rest then l.takeDash?
        else if c = ':' ∧ (l.flow ∨ gapAhead rest) then l.takeColon?
        else if startsPlain l.flow cs then
          l.takeScalar? true fun p => p.plain? l.flow l.least
        else none
    | [] => none

/-- Ends a text that is over. -/
def finish? (l : Lexer) : Option Lexer :=
  l.closeAll.release?

/-- The first token that may still turn out to be a key. -/
def undecided (l : Lexer) : Nat :=
  (l.keyStart :: l.outer).foldl (fun least k =>
    match k with
    | some k => if k.isRequired ∨ !k.isOver l.place then min least k.index else least
    | none => least) l.count

end Lexer

/-- The tokens of a text. If it goes on in a way that is not allowed, they are those in
front of that place of which it is clear that they stand for themselves. -/
structure Tokens where
  list : List Token
  /-- Whether they are all the tokens of the text. -/
  isWhole : Bool
deriving DecidableEq, Repr

namespace Tokens

/-- The tokens of a text that does not go on as it may. -/
def broken (l : Lexer) : Tokens :=
  ⟨l.tokens.reverse.take l.undecided, false⟩

/-- Cuts on; every token takes up a character, so that `fuel` need not exceed the number
of characters. -/
def cut (l : Lexer) : Nat → Tokens
  | 0 => broken l
  | fuel + 1 =>
      match l.reach? with
      | none => broken l
      | some here =>
          if here.position.rest.isEmpty then
            match here.finish? with
            | some l => ⟨l.tokens.reverse, true⟩
            | none => broken l
          else
            match here.take? with
            | some next => cut next fuel
            | none => broken l

/-- Cuts a text into its tokens. -/
def ofText (text : String) : Tokens :=
  cut (.start text) (text.length + 1)

end Tokens

end FleetStore.Yaml
