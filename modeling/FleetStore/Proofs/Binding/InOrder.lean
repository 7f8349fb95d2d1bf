import FleetStore.Proofs.Except
import FleetStore.Store.Prepared

/-! # Values in the order of the signature

The values of a statement come from its setters or as parameters of a patch. Given
in the order of the signature, both ways check them one after another by the
same check, so they accept the same values and fail alike. A prepared statement
that has come through its setters holds only values that pass the check, and
what it binds to is the statement with these values in place.
-/

namespace FleetStore

namespace Descriptor

/-- Checks values for the places of a signature from an index on, up to the first that
does not fit. -/
def checkValues (signature : List ValueType) (index : Nat) : List Value → Except PatchError Unit
  | [] => .ok ()
  | value :: rest =>
      match signature[index]? with
      | none => .error (.indexOutOfRange index signature.length)
      | some expected => do
          checkValue index expected value
          checkValues signature (index + 1) rest

/-- The statement with values for all its parameters. -/
def Compiled.withValues (c : Compiled) (values : List Value) : Except PatchError BoundStatement :=
  match c.kind with
  | .query kind => do
      let limit ←
        match c.limit with
        | none => pure none
        | some limit => some <$> limit.resolve values
      return .query {
        category := c.category, kind, condition := c.condition.map (·.resolve values),
        sort := c.sort, limit }
  | .write kind =>
      .ok (.write {
        category := c.category, kind
        assignments := c.assignments.map fun (key, term) => (key, term.resolve values)
        condition := c.condition.map (·.resolve values) })

theorem Compiled.bind_eq (c : Compiled) (params : List Parameter) :
    c.bind params = (resolveParameters c.signature params).bind c.withValues := by
  unfold Compiled.bind Compiled.withValues
  cases resolveParameters c.signature params with
  | error e => rfl
  | ok values => cases c.kind <;> rfl

theorem Compiled.withValues_write_ok {c : Compiled} {values : List Value}
    (write : c.kind.isQuery = false) : ∃ b, c.withValues values = .ok b := by
  cases kind : c.kind with
  | query => simp [kind, StatementKind.isQuery] at write
  | write => simp [Compiled.withValues, kind]

theorem Compiled.withValues_unlimited {c : Compiled} {values : List Value}
    (query : c.kind.isQuery = true) (bounded : c.limit = none) :
    ∃ b, c.withValues values = .ok b := by
  cases kind : c.kind with
  | query => simp [Compiled.withValues, kind, bounded, pure, Except.pure, Bind.bind, Except.bind]
  | write => simp [kind, StatementKind.isQuery] at query

/-- A query can be bound if its limit can. -/
theorem Compiled.withValues_limited {c : Compiled} (values : List Value)
    (query : c.kind.isQuery = true) {limit : Limit} (bounded : c.limit = some limit) :
    match limit.resolve values with
    | .ok _ => ∃ b, c.withValues values = .ok b
    | .error e => c.withValues values = .error e := by
  cases kind : c.kind with
  | query =>
      cases resolved : limit.resolve values <;>
        simp [Compiled.withValues, kind, bounded, resolved, Bind.bind, Except.bind, pure, Except.pure,
          Functor.map, Except.map]
  | write => simp [kind, StatementKind.isQuery] at query

theorem Limit.resolve_parameter {values : List Value} {k : Nat} {n : Int32}
    (found : values[k]? = some (.int n)) : (Limit.parameter k).resolve values =
      if 0 < n.toInt then .ok n.toInt.toNat else .error (.invalidLimit n.toInt) := by
  have taken : values.getD k default = .scalar .int n := by
    rw [List.getD_eq_getElem?_getD, found]
    rfl
  rw [Limit.resolve, taken]

theorem fillSlot_next (signature : List ValueType) (done : List Value) (value : Value)
    (free : List (Option Value)) :
    fillSlot signature (done.map some ++ none :: free) (.ofValue done.length value) =
      match signature[done.length]? with
      | none => .error (.indexOutOfRange done.length signature.length)
      | some expected =>
          (checkValue done.length expected value).map fun () =>
            (done ++ [value]).map some ++ free := by
  have slot : (done.map some ++ none :: free).getD done.length none = none := by simp
  have filled : (done.map some ++ none :: free).set done.length (some value) =
      (done ++ [value]).map some ++ free := by
    rw [List.set_append_right _ _ (by simp)]
    simp
  simp only [fillSlot, Parameter.ofValue, slot, filled, Option.isSome_none, Bool.false_eq_true,
    if_false]
  cases signature[done.length]? with
  | none => rfl
  | some expected =>
      by_cases same : value.type = expected
      · simp [same]
      · simp [checkValue, same, Except.map]

theorem foldlM_fillSlot (signature : List ValueType) (done values : List Value) :
    (values.mapIdx fun i value => Parameter.ofValue (done.length + i) value).foldlM
        (fillSlot signature) (done.map some ++ List.replicate values.length none) =
      (checkValues signature done.length values).map fun () => (done ++ values).map some := by
  induction values generalizing done with
  | nil => simp [checkValues, Except.map, pure, Except.pure]
  | cons value rest ih =>
      rw [List.mapIdx_cons, List.foldlM_cons, Nat.add_zero, List.length_cons, List.replicate_succ,
        fillSlot_next, checkValues]
      cases signature[done.length]? with
      | none => rfl
      | some expected =>
          cases checked : checkValue done.length expected value with
          | error e => simp [checked, bind, Except.bind, Except.map]
          | ok =>
              have later := ih (done ++ [value])
              simp only [List.length_append, List.length_singleton, List.append_assoc,
                List.singleton_append, Nat.add_assoc, Nat.add_comm 1] at later
              simpa [checked, bind, Except.bind, Except.map] using later

theorem allBound_map_some (index : Nat) (values : List Value) :
    allBound index (values.map some) = .ok values := by
  induction values generalizing index with
  | nil => rfl
  | cons value rest ih => simp [allBound, ih, Except.map]

/-- As many values as the signature has places, given in order, are resolved to
themselves if they pass the checks. -/
theorem resolveParameters_inOrder {signature : List ValueType} {values : List Value}
    (h : values.length = signature.length) :
    resolveParameters signature (values.mapIdx Parameter.ofValue) =
      (checkValues signature 0 values).map fun () => values := by
  have filled := foldlM_fillSlot signature [] values
  simp only [List.length_nil, Nat.zero_add, List.map_nil, List.nil_append] at filled
  simp only [resolveParameters, List.length_mapIdx, h, ne_eq, not_true_eq_false, if_false]
  rw [← h, show Parameter.ofValue = fun i value => Parameter.ofValue i value from rfl, filled]
  cases checkValues signature 0 values with
  | error e => rfl
  | ok => exact allBound_map_some 0 values

end Descriptor

namespace Prepared

open Descriptor

/-! ## Setters -/

/-- There is a place for every parameter, and each value in a place has passed its check. -/
structure Checked (s : Prepared) : Prop where
  places : s.values.length = s.compiled.signature.length
  fits : ∀ index expected value, s.values[index]? = some (some value) →
    s.compiled.signature[index]? = some expected → checkValue index expected value = .ok ()

theorem checked_ofCompiled (c : Compiled) : (ofCompiled c).Checked where
  places := by simp [ofCompiled]
  fits index expected value found := by simp [ofCompiled, List.getElem?_replicate] at found

theorem Checked.setParameter {s s' : Prepared} {index : Nat} {value : Value} (h : s.Checked)
    (set : s.setParameter index value = .ok s') : s'.Checked ∧ s'.compiled = s.compiled := by
  unfold Prepared.setParameter at set
  split at set
  · contradiction
  · next expected found =>
      cases passed : checkValue index expected value with
      | error e => simp [passed, Except.map] at set
      | ok =>
          simp only [passed, Except.map, Except.ok.injEq] at set
          subst set
          refine ⟨⟨by simpa using h.places, fun i type v present wanted => ?_⟩, rfl⟩
          simp only [List.getElem?_set] at present
          split at present
          · next same =>
              subst same
              split at present
              · simp_all
              · contradiction
          · exact h.fits i type v present wanted

theorem setParameters_next (c : Compiled) (done values : List Value)
    (h : c.signature.length = done.length + values.length) :
    setParameters ⟨c, done.map some ++ List.replicate values.length none⟩
        (values.mapIdx fun i value => (done.length + i, value)) =
      (checkValues c.signature done.length values).map fun () => ⟨c, (done ++ values).map some⟩ := by
  induction values generalizing done with
  | nil => simp [setParameters, checkValues, Except.map]
  | cons value rest ih =>
      simp only [List.length_cons] at h
      have later := ih (done ++ [value]) (by simp; omega)
      have slot : (done.map some ++ none :: List.replicate rest.length none).set done.length
          (some value) = (done ++ [value]).map some ++ List.replicate rest.length none := by
        rw [List.set_append_right _ _ (by simp)]
        simp
      simp only [List.mapIdx_cons, List.length_cons, List.replicate_succ, setParameters,
        Prepared.setParameter, Nat.add_zero, checkValues, slot]
      have inside : done.length < c.signature.length := by omega
      simp only [List.getElem?_eq_getElem inside]
      cases checked : checkValue done.length c.signature[done.length] value with
      | error e => simp [bind, Except.bind, Except.map]
      | ok =>
          simp only [List.length_append, List.length_singleton, List.append_assoc,
            List.singleton_append, Nat.add_assoc, Nat.add_comm 1] at later
          simpa [bind, Except.bind, Except.map] using later

theorem setParameters_inOrder {c : Compiled} {values : List Value}
    (h : values.length = c.signature.length) :
    (ofCompiled c).setParameters (values.mapIdx fun index value => (index, value)) =
      (checkValues c.signature 0 values).map fun () => ⟨c, values.map some⟩ := by
  have set := setParameters_next c [] values (by simp [h])
  simpa [ofCompiled, h] using set

/-! ## Binding -/

theorem parametersFrom_ok {index : Nat} {slots : List (Option Value)} {params : List Parameter}
    (h : parametersFrom index slots = .ok params) : ∃ values : List Value, slots = values.map some ∧
      params = values.mapIdx fun i value => .ofValue (index + i) value := by
  induction slots generalizing index params with
  | nil => exact ⟨[], rfl, by simpa [parametersFrom] using h.symm⟩
  | cons slot rest ih =>
      cases slot with
      | none => simp [parametersFrom] at h
      | some value =>
          cases later : parametersFrom (index + 1) rest with
          | error e => simp [parametersFrom, later, Except.map] at h
          | ok more =>
              simp only [parametersFrom, later, Except.map, Except.ok.injEq] at h
              obtain ⟨values, rfl, rfl⟩ := ih later
              refine ⟨value :: values, rfl, ?_⟩
              simp only [← h, List.mapIdx_cons, Nat.add_zero, Nat.add_assoc, Nat.add_comm 1]

theorem parametersFrom_map_some (index : Nat) (values : List Value) :
    parametersFrom index (values.map some) =
      .ok (values.mapIdx fun i value => .ofValue (index + i) value) := by
  induction values generalizing index with
  | nil => rfl
  | cons value rest ih =>
      simp only [List.map_cons, parametersFrom, ih, Except.map, List.mapIdx_cons, Nat.add_zero,
        Nat.add_assoc, Nat.add_comm 1]

theorem checkValues_ok {signature : List ValueType} {values : List Value} {index : Nat}
    (room : index + values.length ≤ signature.length)
    (h : ∀ i expected value, values[i]? = some value → signature[index + i]? = some expected →
      checkValue (index + i) expected value = .ok ()) :
    checkValues signature index values = .ok () := by
  induction values generalizing index with
  | nil => rfl
  | cons value rest ih =>
      simp only [List.length_cons] at room
      have inside : index < signature.length := by omega
      have first := h 0 signature[index] value rfl (List.getElem?_eq_getElem inside)
      have later := @ih (index + 1) (by omega) fun i expected v found wanted => by
        rw [Nat.add_assoc, Nat.add_comm 1] at wanted ⊢
        exact h (i + 1) expected v found wanted
      rw [Nat.add_zero] at first
      simp only [checkValues, List.getElem?_eq_getElem inside, first, later, bind, Except.bind]

/-- A statement with a checked value for every parameter binds to the statement with
these values in place. -/
theorem bound_inOrder {c : Compiled} {values : List Value} (h : values.length = c.signature.length)
    (passed : checkValues c.signature 0 values = .ok ()) :
    bound ⟨c, values.map some⟩ = (c.withValues values).mapError .patch := by
  have params : parameters ⟨c, values.map some⟩ = .ok (values.mapIdx Parameter.ofValue) := by
    rw [parameters, parametersFrom_map_some]
    simp only [Nat.zero_add]
  rw [Prepared.bound, params]
  simp only [Except.bind, Compiled.bind_eq, resolveParameters_inOrder h, passed, Except.map]

/-- The values of a statement pass the checks again when it is bound. -/
theorem Checked.checkValues {s : Prepared} {values : List Value} (h : s.Checked)
    (full : s.values = values.map some) :
    values.length = s.compiled.signature.length ∧
      Descriptor.checkValues s.compiled.signature 0 values = .ok () := by
  have places : values.length = s.compiled.signature.length := by simpa [full] using h.places
  refine ⟨places, checkValues_ok (by omega) fun i expected value found wanted => ?_⟩
  rw [Nat.zero_add] at wanted ⊢
  exact h.fits i expected value (by simp [full, found]) wanted

theorem Checked.bound {s : Prepared} {values : List Value} (h : s.Checked)
    (full : s.values = values.map some) :
    s.bound = (s.compiled.withValues values).mapError .patch := by
  obtain ⟨places, passed⟩ := h.checkValues full
  have same := bound_inOrder places passed
  rwa [← full] at same

theorem Checked.bind {s : Prepared} {values : List Value} (h : s.Checked)
    (full : s.values = values.map some) :
    s.compiled.bind (values.mapIdx Parameter.ofValue) = s.compiled.withValues values := by
  obtain ⟨places, passed⟩ := h.checkValues full
  rw [Compiled.bind_eq, resolveParameters_inOrder places, passed]
  rfl

theorem Checked.boundWrite {s : Prepared} {params : List Parameter} (h : s.Checked)
    (write : s.compiled.kind.isQuery = false) (full : s.parameters = .ok params) :
    ∃ w, s.boundWrite = .ok w := by
  obtain ⟨values, slots, _⟩ := parametersFrom_ok full
  have bound := h.bound slots
  unfold Compiled.withValues at bound
  cases kind : s.compiled.kind with
  | query => simp [kind, StatementKind.isQuery] at write
  | write =>
      simp only [Prepared.boundWrite, bound, kind, mapError_ok]
      exact ⟨_, rfl⟩

end Prepared

end FleetStore
