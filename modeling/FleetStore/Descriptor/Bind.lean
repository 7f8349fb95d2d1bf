import FleetStore.Descriptor.Compiled
import FleetStore.Statement.Bound
import FleetStore.Statement.PatchError

/-! # Binding

Binding puts a value in the place of every free parameter. The parameters may
come in any order; there must be exactly one of the right type for every index
of the signature, and a value for `LIMIT` must be positive.
-/

namespace FleetStore.Descriptor

/-- The value of a term. Every index of a compiled statement is below the length
of its signature, so the default is never taken. -/
def Term.resolve (values : List Value) : Term → Value
  | .parameter index => values.getD index default
  | .literal value => value

def Condition.resolve (values : List Value) : Condition → Expression
  | .compare key op term => .compare key op (term.resolve values)
  | .member key term => .member key (term.resolve values)
  | .not e => .not (e.resolve values)
  | .and l r => .and (l.resolve values) (r.resolve values)
  | .or l r => .or (l.resolve values) (r.resolve values)

/-- The number of rows that a bound limit allows. -/
def Limit.resolve (values : List Value) : Limit → Except PatchError Nat
  | .fixed count => .ok count
  | .parameter index =>
      match values.getD index default with
      | .scalar .int n =>
          if 0 < Int32.toInt n then .ok (Int32.toInt n).toNat
          else .error (.invalidLimit (Int32.toInt n))
      | other => .error (.typeMismatch index (.scalar .int) other.type)

def checkValue (index : Nat) (expected : ValueType) (value : Value) : Except PatchError Unit :=
  if value.type ≠ expected then .error (.typeMismatch index expected value.type)
  else if !value.isFinite then .error (.nonFiniteDouble index)
  else .ok ()

def fillSlot (signature : List ValueType) (slots : List (Option Value)) (p : Parameter) :
    Except PatchError (List (Option Value)) :=
  match signature[p.index]? with
  | none => .error (.indexOutOfRange p.index signature.length)
  | some expected =>
      if (slots.getD p.index none).isSome then .error (.duplicate p.index)
      else if p.declared ≠ expected then .error (.typeMismatch p.index expected p.declared)
      else (checkValue p.index expected p.value).map fun () => slots.set p.index (some p.value)

/-- The values of all slots, if every slot from `index` on is filled. -/
def allBound (index : Nat) : List (Option Value) → Except PatchError (List Value)
  | [] => .ok []
  | none :: _ => .error (.unbound index)
  | some value :: rest => (allBound (index + 1) rest).map (value :: ·)

/-- The values of the parameters in the order of the signature. -/
def resolveParameters (signature : List ValueType) (params : List Parameter) :
    Except PatchError (List Value) :=
  if params.length ≠ signature.length then
    .error (.parameterCount signature.length params.length)
  else do
    let slots ← params.foldlM (fillSlot signature) (List.replicate signature.length none)
    allBound 0 slots

/-- Substitutes parameters for the free parameters of a statement. -/
def Compiled.bind (c : Compiled) (params : List Parameter) :
    Except PatchError BoundStatement := do
  let values ← resolveParameters c.signature params
  let condition := c.condition.map (·.resolve values)
  match c.kind with
  | .query kind =>
      let limit ←
        match c.limit with
        | none => pure none
        | some limit => some <$> limit.resolve values
      return .query { category := c.category, kind, condition, sort := c.sort, limit }
  | .write kind =>
      let assignments := c.assignments.map fun (key, term) => (key, term.resolve values)
      return .write { category := c.category, kind, assignments, condition }

end FleetStore.Descriptor
