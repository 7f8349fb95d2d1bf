import FleetStore.Config.Decode
import FleetStore.Number.Reader

/-! # Nodes of YAML texts

A YAML text is a tree of scalars, sequences and mappings. A scalar is a text;
only where any document may stand does it matter whether it was written plainly,
for then it may be a number, a truth value or null. A plain scalar without text
counts as an empty sequence or mapping where one is expected.
-/

namespace FleetStore.Yaml

/-- A tree of scalars, sequences and mappings. -/
inductive Node where
  | scalar (plain : Bool) (text : String)
  | sequence (items : List Node)
  | mapping (entries : List (Node × Node))
  /-- A place at which the text goes on in a way that is not allowed. -/
  | broken
deriving Inhabited, Repr

/-- What is left out: a plain scalar without text. -/
def Node.void : Node := .scalar true ""

/-! ## Plain scalars -/

def digitValue? (base : Nat) (c : Char) : Option Nat :=
  let value :=
    if c.isDigit then c.toNat - '0'.toNat
    else if c.isAlpha then c.toLower.toNat - 'a'.toNat + 10
    else base
  if value < base then some value else none

/-- The number that digits of a base stand for; there has to be at least one. -/
def readDigits? (base : Nat) : List Char → Option Nat
  | [] => none
  | digits => (digits.mapM (digitValue? base)).map (·.foldl (fun n d => base * n + d) 0)

/-- The size of an integer written in base 16, 8, 2 or 10. -/
def readSize? : List Char → Option Nat
  | '0' :: 'x' :: digits => readDigits? 16 digits
  | '0' :: 'o' :: digits => readDigits? 8 digits
  | '0' :: 'b' :: digits => readDigits? 2 digits
  | digits => readDigits? 10 digits

def splitSign : List Char → Bool × List Char
  | '+' :: rest => (false, rest)
  | '-' :: rest => (true, rest)
  | rest => (false, rest)

/-- Whether a text holds decimal digits with a leading zero, which is no number. -/
def isPadded (cs : List Char) : Bool :=
  match (splitSign cs).2 with
  | '0' :: c :: rest => (c :: rest).all Char.isDigit
  | _ => false

def readInteger? (cs : List Char) : Option Int :=
  if isPadded cs then none
  else
    let (negative, rest) := splitSign cs
    (readSize? rest).map fun (size : Nat) => if negative then -(size : Int) else size

/-- The floating point number that a plain scalar stands for; an infinite number and
NaN have words of their own and no document. -/
def readFloat? (cs : List Char) : Option Json :=
  let text := String.ofList cs
  if [".inf", ".Inf", ".INF", "+.inf", "+.Inf", "+.INF", "-.inf", "-.Inf", "-.INF",
    ".nan", ".NaN", ".NAN"].contains text then some .null
  else if isPadded cs then none
  else
    match Double.read? text with
    | some (.finite x) => some (.float x)
    | _ => none

def nullWords : List String := ["", "~", "null", "Null", "NULL"]
def trueWords : List String := ["true", "True", "TRUE"]
def falseWords : List String := ["false", "False", "FALSE"]

def readTruth? (text : String) : Option Bool :=
  if trueWords.contains text then some true
  else if falseWords.contains text then some false
  else none

/-- The document that a plain scalar stands for: null, a truth value, a number, or
else its text. An integer that fits into 128 bits and not into 64 has no document. -/
def readPlain? (text : String) : Option Json :=
  if nullWords.contains text then some .null
  else
    match readTruth? text with
    | some b => some (.bool b)
    | none =>
        let float := (readFloat? text.toList).getD (.str text)
        match readInteger? text.toList with
        | none => some float
        | some n =>
            if FitsSigned 63 n ∨ FitsUnsigned 64 n then some (.int n)
            else if FitsSigned 127 n ∨ FitsUnsigned 128 n then none
            else some float

namespace Node

def text? : Node → Option String
  | .scalar _ text => some text
  | _ => none

/-- Whether a node is a plain scalar without text. -/
def isVoid : Node → Bool
  | .scalar true "" => true
  | _ => false

mutual
/-- The document that a node stands for, if collections are nested no more than
`levels` deep in it. -/
def document? (levels : Nat) : Node → Option Json
  | .scalar true text => readPlain? text
  | .scalar false text => some (.str text)
  | .sequence items => if levels = 0 then none else (documents? (levels - 1) items).map .arr
  | .mapping entries =>
      if levels = 0 then none
      else (members? (levels - 1) entries).map fun members => .ofDict (.ofList members)
  | .broken => none

def documents? (levels : Nat) : List Node → Option (List Json)
  | [] => some []
  | node :: rest => do return (← document? levels node) :: (← documents? levels rest)

/-- The members that entries stand for; their keys have to be scalars. -/
def members? (levels : Nat) : List (Node × Node) → Option (List (String × Json))
  | [] => some []
  | (key, value) :: rest => do
      return (← key.text?, ← document? levels value) :: (← members? levels rest)
end

/-- How deep collections may be nested in a parameter. A text has 128 levels, of which
the configuration, its statements, the statement and its parameters take one each. -/
def parameterLevels : Nat := 124

/-- The entries of a mapping up to the first of which the key is no scalar. -/
def fields : List (Node × Node) → Config.Group Node
  | [] => ⟨[], true⟩
  | (key, value) :: rest =>
      match key.text? with
      | none => ⟨[], false⟩
      | some name =>
          let group := fields rest
          { group with entries := (name, value) :: group.entries }

end Node

instance : Config.Source Node where
  text? := Node.text?
  truth?
    | .scalar true text => readTruth? text
    | _ => none
  items?
    | .sequence items => some items
    | node => if node.isVoid then some [] else none
  group? _
    | .mapping entries => some (Node.fields entries)
    | node => if node.isVoid then some ⟨[], true⟩ else none
  choice? := Node.text?
  document? := Node.document? Node.parameterLevels

end FleetStore.Yaml
