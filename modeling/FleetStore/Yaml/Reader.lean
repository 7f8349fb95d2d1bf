import FleetStore.Yaml.Node
import FleetStore.Yaml.Token

/-! # Reading YAML texts

The tokens of a text are put together to the node that its document holds. What
is open at a moment is a stack of collections, the innermost first; each token
adds a part to the innermost one, opens one or closes one. A part that is left
out is added as soon as the next token shows it.

A text that goes on in a way that is not allowed still stands for a node: all
that was read before is there, and a broken node marks the place.
-/

namespace FleetStore.Yaml

/-- How far an entry of a mapping has come. -/
inductive Stage where
  /-- An entry or the end may come. -/
  | next
  /-- A key comes. -/
  | key
  /-- The colon after a key comes. -/
  | colon (key : Node)
  /-- A value comes. -/
  | value (key : Node)
  /-- In a flow mapping, a comma or the end comes. -/
  | after

/-- A collection that is open. What it holds so far is held backwards. -/
inductive Frame where
  /-- A block sequence; `begun` tells that an item comes after a dash. -/
  | items (done : List Node) (begun : Bool)
  /-- A block sequence that is a value and stands in the column of its key. -/
  | looseItems (done : List Node) (begun : Bool)
  | entries (done : List (Node × Node)) (stage : Stage)
  /-- A flow sequence; `begun` tells that an item or the end may come. -/
  | flowItems (done : List Node) (begun : Bool)
  | flowEntries (done : List (Node × Node)) (stage : Stage)
  /-- An item of a flow sequence that is an entry without braces. -/
  | pair (stage : Stage)

/-- What is open, and the node of the document when it is complete. -/
structure Builder where
  frames : List Frame
  root : Option Node

namespace Builder

def start : Builder := ⟨[], none⟩

/-- Adds a node to the innermost of some open collections, if one may come there. -/
def addTo (node : Node) : List Frame → Option Builder
  | [] => some ⟨[], some node⟩
  | .items done true :: frames => some ⟨.items (node :: done) false :: frames, none⟩
  | .looseItems done true :: frames => some ⟨.looseItems (node :: done) false :: frames, none⟩
  | .entries done .key :: frames => some ⟨.entries done (.colon node) :: frames, none⟩
  | .entries done (.value key) :: frames =>
      some ⟨.entries ((key, node) :: done) .next :: frames, none⟩
  | .flowItems done true :: frames => some ⟨.flowItems (node :: done) false :: frames, none⟩
  | .flowEntries done .key :: frames => some ⟨.flowEntries done (.colon node) :: frames, none⟩
  | .flowEntries done (.value key) :: frames =>
      some ⟨.flowEntries ((key, node) :: done) .after :: frames, none⟩
  | .flowEntries done .next :: frames =>
      some ⟨.flowEntries ((node, .void) :: done) .after :: frames, none⟩
  | .pair .key :: frames => some ⟨.pair (.colon node) :: frames, none⟩
  | .pair (.value key) :: frames => addTo (.mapping [(key, node)]) frames
  | _ => none

def add (b : Builder) (node : Node) : Option Builder :=
  if b.root.isSome then none else addTo node b.frames

/-- Opens a collection, if a node may come. -/
def push (b : Builder) (f : Frame) : Option Builder :=
  (b.add .void).map fun _ => { b with frames := f :: b.frames }

/-- Adds the item or the value that is left out before a token. -/
def fillGap (b : Builder) (t : Token) : Option Builder :=
  match b.frames with
  | .items _ true :: _ => if t = .dash ∨ t = .closeBlock then b.add .void else some b
  | .looseItems _ true :: _ =>
      if t = .dash ∨ t = .key ∨ t = .closeBlock then b.add .void else some b
  | .entries _ (.value _) :: _ => if t = .key ∨ t = .closeBlock then b.add .void else some b
  | .flowEntries _ (.value _) :: _ => if t = .comma ∨ t = .rightBrace then b.add .void else some b
  | .pair (.value _) :: _ => if t = .comma ∨ t = .rightBracket then b.add .void else some b
  | _ => some b

/-- Closes a sequence in the column of its key before a token that is no dash. -/
def closeLoose (b : Builder) (t : Token) : Option Builder :=
  match b.frames with
  | .looseItems done false :: frames =>
      if t = .dash then some b else addTo (.sequence done.reverse) frames
  | _ => some b

def take (b : Builder) (t : Token) : Option Builder :=
  match t, b.frames with
  | .scalar plain text, _ => b.add (.scalar plain text)
  | .openItems, _ => b.push (.items [] false)
  | .openEntries, _ => b.push (.entries [] .next)
  | .leftBracket, _ => b.push (.flowItems [] true)
  | .leftBrace, _ => b.push (.flowEntries [] .next)
  | .dash, .items done false :: frames => some { b with frames := .items done true :: frames }
  | .dash, .looseItems done false :: frames =>
      some { b with frames := .looseItems done true :: frames }
  | .dash, .entries _ (.value _) :: _ => b.push (.looseItems [] true)
  | .key, .entries done .next :: frames => some { b with frames := .entries done .key :: frames }
  | .key, .flowEntries done .next :: frames =>
      some { b with frames := .flowEntries done .key :: frames }
  | .key, .flowItems _ true :: _ => b.push (.pair .key)
  | .colon, .entries done (.colon key) :: frames =>
      some { b with frames := .entries done (.value key) :: frames }
  | .colon, .flowEntries done (.colon key) :: frames =>
      some { b with frames := .flowEntries done (.value key) :: frames }
  | .colon, .pair (.colon key) :: frames => some { b with frames := .pair (.value key) :: frames }
  | .comma, .flowItems done false :: frames =>
      some { b with frames := .flowItems done true :: frames }
  | .comma, .flowEntries done .after :: frames =>
      some { b with frames := .flowEntries done .next :: frames }
  | .closeBlock, .items done false :: frames => addTo (.sequence done.reverse) frames
  | .closeBlock, .entries done .next :: frames => addTo (.mapping done.reverse) frames
  | .rightBracket, .flowItems done _ :: frames => addTo (.sequence done.reverse) frames
  | .rightBrace, .flowEntries done .next :: frames => addTo (.mapping done.reverse) frames
  | .rightBrace, .flowEntries done .after :: frames => addTo (.mapping done.reverse) frames
  | _, _ => none

def step (b : Builder) (t : Token) : Option Builder := do
  (← (← b.fillGap t).closeLoose t).take t

/-- Takes tokens up to the first that cannot be taken. -/
def run (b : Builder) : List Token → Builder × List Token
  | [] => (b, [])
  | t :: rest =>
      match b.step t with
      | some next => run next rest
      | none => (b, t :: rest)

/-! ## Texts that break off -/

/-- The entries of a mapping that breaks off within a node. -/
def brokenEntries (done : List (Node × Node)) (inner : Node) (stage : Stage) : Node :=
  let last :=
    match stage with
    | .value key => [(key, inner), (.broken, .broken)]
    | .key => [(inner, .broken)]
    | _ => [(.broken, .broken)]
  .mapping (done.reverse ++ last)

/-- What open collections stand for that break off within a node. -/
def breakOff (inner : Node) : List Frame → Node
  | [] => inner
  | .items done _ :: frames | .looseItems done _ :: frames | .flowItems done _ :: frames =>
      breakOff (.sequence (done.reverse ++ [inner, .broken])) frames
  | .entries done stage :: frames | .flowEntries done stage :: frames =>
      breakOff (brokenEntries done inner stage) frames
  | .pair stage :: frames => breakOff (brokenEntries [] inner stage) frames

/-- The node of a document that may be incomplete. -/
def node (b : Builder) : Node :=
  b.root.getD (breakOff .broken b.frames)

end Builder

/-- What a text stands for. -/
structure Document where
  root : Node
  /-- Whether the text holds nothing else. -/
  isWhole : Bool

namespace Document

def isOver (tokens : List Token) : Bool :=
  tokens.all (· == .documentEnd)

/-- The document that tokens stand for. A mark of its start may stand in front of it; if
there is nothing behind that, the document is a plain scalar without text. -/
def ofTokens (tokens : Tokens) : Document :=
  let (isMarked, list) :=
    match tokens.list with
    | .documentStart :: rest => (true, rest)
    | list => (false, list)
  let isEmpty :=
    match list with
    | [] => true
    | .documentStart :: _ | .documentEnd :: _ => isMarked
    | _ => false
  if isEmpty then ⟨if tokens.isWhole then .void else .broken, tokens.isWhole && isOver list⟩
  else
    let (b, rest) := Builder.start.run list
    ⟨b.node, b.root.isSome && tokens.isWhole && isOver rest⟩

def read (text : String) : Document :=
  ofTokens (.ofText text)

end Document

end FleetStore.Yaml
