import FleetStore.Config.Basic
import FleetStore.Duration.Reader

/-! # Reading configurations

A configuration is read from a tree of texts, truth values, lists and groups of
named fields. How such a tree is written is the matter of a `Source`; what its
fields mean is laid down here once. Fields that a group does not know are
ignored, and a field that may be left out may not be null.

The parts of a tree are read in the order in which they are written. The first
that cannot be read decides what is wrong with the whole.
-/

namespace FleetStore.Config

/-- Why a tree is no configuration. -/
inductive TreeFault where
  /-- It has not the shape of a configuration. -/
  | malformed
  /-- The seconds of a time to wait are exhausted. -/
  | exhausted
deriving DecidableEq, Repr

/-- The named fields of a group, in the order in which they are written. -/
structure Group (σ : Type) where
  entries : List (String × σ)
  /-- Whether the group holds nothing else. -/
  isWhole : Bool

/-- A kind of tree from which configurations are read. -/
class Source (σ : Type) where
  text? : σ → Option String
  truth? : σ → Option Bool
  items? : σ → Option (List σ)
  group? : List String → σ → Option (Group σ)
  /-- The word for one of finitely many things. -/
  choice? : σ → Option String
  /-- A part that is taken over as a document. -/
  document? : σ → Option Json

/-- What is read from a part of a tree. -/
abbrev Read (α : Type) : Type := Except TreeFault α

/-- A part that has to have some shape. -/
def shaped {α : Type} : Option α → Read α
  | some x => .ok x
  | none => .error .malformed

variable {σ : Type} [Source σ]

open Source

def text (node : σ) : Read String := shaped (text? node)
def truth (node : σ) : Read Bool := shaped (truth? node)

def listOf {α : Type} (decode : σ → Read α) (node : σ) : Read (List α) := do
  (← shaped (items? node)).mapM decode

def timeout (node : σ) : Read Duration := do
  match Duration.read (← text node) with
  | .ok d => .ok d
  | .error .exhausted => .error .exhausted
  | .error _ => .error .malformed

/-! ## Groups -/

/-- Reads the fields of a group one after another into what is known so far. Those with
names in `seen` were read before and must not come again. -/
def readFields {α : Type} (names seen : List String) (set : α → String → σ → Read α) :
    α → List (String × σ) → Read α
  | found, [] => .ok found
  | found, (name, node) :: rest =>
      if name ∉ names then readFields names seen set found rest
      else if name ∈ seen then .error .malformed
      else do readFields names (name :: seen) set (← set found name node) rest

/-- Reads a group with the given fields. The ones in `required` have to be there; from
`blank`, what is known before any field is read, the others keep their value. -/
def readGroup {α : Type} (required optional : List String) (blank : α)
    (set : α → String → σ → Read α) (node : σ) : Read α := do
  let group ← shaped (group? (required ++ optional) node)
  let found ← readFields (required ++ optional) [] set blank group.entries
  if group.isWhole ∧ required.all fun name => group.entries.any (·.1 = name) then return found
  else throw .malformed

def settings : σ → Read Settings :=
  readGroup [] ["name", "backing_storage_in_proxy", "queue_drain_timeout", "file_drain_timeout"]
    .standard fun s field node =>
      match field with
      | "name" => return { s with name := ← text node }
      | "backing_storage_in_proxy" => return { s with proxied := ← truth node }
      | "queue_drain_timeout" => return { s with writeTimeout := ← timeout node }
      | _ => return { s with fileTimeout := ← timeout node }

def key : σ → Read Key :=
  readGroup ["name", "type"] [] ⟨"", .scalar .string⟩ fun k field node =>
    match field with
    | "name" => return { k with name := ← text node }
    | _ => return { k with type := ← shaped ((choice? node).bind ValueType.ofName?) }

def categoryEntry : σ → Read CategoryEntry :=
  readGroup ["name", "keys"] ["index_keys"] ⟨"", [], []⟩ fun e field node =>
    match field with
    | "name" => return { e with name := ← text node }
    | "keys" => return { e with keys := ← listOf key node }
    | _ => return { e with indexKeys := ← listOf text node }

def statementEntry : σ → Read StatementEntry :=
  readGroup ["category", "descriptor"] ["params"] ⟨"", "", []⟩ fun e field node =>
    match field with
    | "category" => return { e with category := ← text node }
    | "descriptor" => return { e with descriptor := ← text node }
    | _ => return { e with params := ← listOf (fun item => shaped (document? item)) node }

def decode : σ → Read Config :=
  readGroup [] ["storage", "categories", "statements"] ⟨.standard, [], []⟩ fun c field node =>
    match field with
    | "storage" => return { c with storage := ← settings node }
    | "categories" => return { c with categories := ← listOf categoryEntry node }
    | _ => return { c with statements := ← listOf statementEntry node }

/-- A document is a source: an object is a group, and so is an array, of which the items
are the fields in the order of their names. -/
instance : Source Json where
  text? := Json.str?
  truth? := Json.bool?
  items? := Json.arr?
  group? names
    | .obj members => some ⟨members, true⟩
    | .arr items => some ⟨names.zip items, items.length ≤ names.length⟩
    | _ => none
  choice?
    | .str word => some word
    | .obj [(word, .null)] => some word
    | _ => none
  document? := some

end FleetStore.Config
