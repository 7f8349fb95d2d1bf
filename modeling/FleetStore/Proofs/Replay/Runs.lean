import FleetStore.Proofs.Replay.Steps

/-! # Runs of statements with and without a queue

Step by step a replay follows the run without a queue up to the first failure, which
comes at the same statement. Late flushes are only ever added to, so if none is
late at the end, none was late at any query.
-/

namespace FleetStore

open Descriptor

theorem Config.StatementEntry.values_length {s : Config.StatementEntry} {env : Environment}
    {signature : List ValueType} {values : List Value} (ok : s.values env signature = .ok values) :
    values.length = signature.length := by
  have each : ∀ (types : List ValueType) (params : List Json) (index : Nat) (values : List Value),
      params.length = types.length → s.valuesFrom env index types params = .ok values →
        values.length = types.length := by
    intro types
    induction types with
    | nil =>
        intro params index values _ ok
        cases params <;> simp_all [valuesFrom]
    | cons type types ih =>
        intro params index values same ok
        cases params with
        | nil => simp at same
        | cons param params =>
            unfold valuesFrom at ok
            split at ok
            · contradiction
            · cases later : s.valuesFrom env (index + 1) types params with
              | error e => simp [later, Except.map] at ok
              | ok more =>
                  simp only [later, Except.map, Except.ok.injEq] at ok
                  simp [← ok, ih params _ more (by simpa using same) later]
  unfold Config.StatementEntry.values at ok
  split at ok
  · contradiction
  · next same => exact each signature s.params 0 values (by simpa using same) ok

/-! ## Without a queue -/

namespace Unqueued

variable {c : Config} {env : Environment} {m m' : MemoryStore} {p : Progress}

/-- What is prepared for a registered category is about it, and the store stays ready. -/
theorem Ready.prepare (h : Ready c m) {e : Config.CategoryEntry} {category : Category}
    {descriptor : String} {statement : Prepared} (member : e ∈ c.categories)
    (declared : e.declare = .ok category)
    (ok : Store.prepare m category descriptor = .ok (statement, m')) :
    Ready c m' ∧ ∃ compiled, statement = .ofCompiled compiled ∧
      (m'.tables.get? compiled.category).isSome := by
  obtain ⟨entry, cache, got, rfl, rfl⟩ := MemoryStore.prepare_ok ok
  obtain ⟨sound, same⟩ := h.cached.getOrCompile got
  refine ⟨⟨sound, h.registered⟩, _, rfl, ?_⟩
  rw [same, Config.CategoryEntry.declare_name declared]
  exact h.registered e member

theorem Ready.after (h : Ready c p.store) (b : BoundStatement) : Ready c (p.after b).store := by
  cases b with
  | query q => exact h
  | write w =>
      refine ⟨h.cached, fun e member => ?_⟩
      show (((Change.write w).apply p.store.tables).get? e.name).isSome = true
      rw [Change.apply_isSome]
      exact h.registered e member

theorem Ready.runBound (h : Ready c p.store) {compiled : Compiled} {values : List Value} {p' : Progress}
    (places : values.length = compiled.signature.length)
    (registered : (p.store.tables.get? compiled.category).isSome)
    (ok : p.runBound (.ofCompiled compiled) values = .ok p') : Ready c p'.store := by
  cases passed : checkValues compiled.signature 0 values with
  | error e => simp [Progress.runBound_unfit places passed] at ok
  | ok =>
      cases legal : compiled.withValues values with
      | error e => simp [Progress.runBound_illegal places passed legal] at ok
      | ok b =>
          rw [Progress.runBound_legal places passed legal registered] at ok
          obtain rfl := Except.ok.inj ok
          exact h.after b

end Unqueued

namespace Replay

variable {c : Config} {env : Environment} {schedule : Schedule} {categories : Dict Category}
variable {proxied : Bool} {p p' : Progress} {u : Unqueued.Progress}

/-! ## Late flushes -/

theorem overdue_le_of_flush (ok : p.flush schedule = .ok p') : p.overdue ≤ p'.overdue := by
  unfold Progress.flush at ok
  split at ok
  · contradiction
  · obtain rfl := Except.ok.inj ok
    simp only
    split <;> omega

theorem overdue_of_print {rows : Cursor Record} (ok : p.print rows = .ok p') :
    p'.overdue = p.overdue := by
  unfold Progress.print at ok
  split at ok
  · contradiction
  · obtain rfl := Except.ok.inj ok
    rfl

theorem overdue_le_of_runStatement {s : Config.StatementEntry}
    (ok : runStatement env schedule categories p s = .ok p') : p.overdue ≤ p'.overdue := by
  unfold runStatement at ok
  split at ok
  · contradiction
  · obtain ⟨⟨statement, store⟩, _, ok⟩ := bind_eq_ok_iff.1 ok
    obtain ⟨values, _, ok⟩ := bind_eq_ok_iff.1 ok
    split at ok
    · obtain ⟨b, _, ok⟩ := bind_eq_ok_iff.1 ok
      cases b with
      | write w =>
          obtain ⟨store', _, ok⟩ := bind_eq_ok_iff.1 ok
          obtain rfl := Except.ok.inj ok
          exact Nat.le_refl _
      | query q =>
          obtain ⟨p₁, flushed, ok⟩ := bind_eq_ok_iff.1 ok
          obtain ⟨cursor, _, printed⟩ := bind_eq_ok_iff.1 ok
          have before := overdue_le_of_flush flushed
          rw [overdue_of_print printed]
          exact before
    · obtain ⟨statement', _, ok⟩ := bind_eq_ok_iff.1 ok
      split at ok
      · obtain ⟨p₁, flushed, ok⟩ := bind_eq_ok_iff.1 ok
        obtain ⟨cursor, _, printed⟩ := bind_eq_ok_iff.1 ok
        have before := overdue_le_of_flush flushed
        rw [overdue_of_print printed]
        exact before
      · obtain ⟨store', _, ok⟩ := bind_eq_ok_iff.1 ok
        obtain rfl := Except.ok.inj ok
        exact Nat.le_refl _

theorem overdue_le_of_runStatements (env : Environment) (schedule : Schedule)
    (categories : Dict Category) (p : Progress) (statements : List Config.StatementEntry) :
    p.overdue ≤ (runStatements env schedule categories p statements).1.overdue := by
  induction statements generalizing p with
  | nil => exact Nat.le_refl _
  | cons s rest ih =>
      unfold runStatements
      split
      · exact Nat.le_refl _
      · next ran => exact Nat.le_trans (overdue_le_of_runStatement ran) (ih _)

theorem overdue_take_le (env : Environment) (schedule : Schedule) (categories : Dict Category)
    (p : Progress) (statements : List Config.StatementEntry) (i : Nat) :
    (runStatements env schedule categories p (statements.take i)).1.overdue ≤
      (runStatements env schedule categories p statements).1.overdue := by
  induction statements generalizing p i with
  | nil => simp
  | cons s rest ih =>
      cases i with
      | zero => exact overdue_le_of_runStatements env schedule categories p (s :: rest)
      | succ i =>
          rw [List.take_succ_cons]
          unfold runStatements
          split
          · exact Nat.le_refl _
          · exact ih _ i

/-! ## Statement by statement -/

/-- The declared categories of a configuration, by name. -/
def Declares (c : Config) (categories : Dict Category) : Prop :=
  ∀ name, categories.get? name =
    match c.category? name with
    | some e => e.declare.toOption
    | none => none

theorem Follows.runStatement (h : Follows proxied p u) (declarable : Config.Declarable c.categories)
    (declares : Declares c categories) (ready : Unqueued.Ready c u.store) (env : Environment)
    (schedule : Schedule) (s : Config.StatementEntry) :
    Alike schedule proxied p.overdue (runStatement env schedule categories p s)
      (Unqueued.runStatement c env u s) ∧
    ∀ u', Unqueued.runStatement c env u s = .ok u' → Unqueued.Ready c u'.store := by
  have known := declares s.category
  unfold Replay.runStatement Unqueued.runStatement
  cases found : c.category? s.category with
  | none => simp [known, found, Alike, Failure.seen]
  | some e =>
      have member := List.mem_of_find?_eq_some found
      obtain ⟨category, declared⟩ := declarable.declared e member
      have prepared := h.prepare category s.descriptor
      simp only [known, found, declared, Except.toOption, mapError_ok, bind, Except.bind]
      cases prepare : Store.prepare u.store category s.descriptor with
      | error e =>
          simp only [prepare] at prepared
          simp [prepared, Alike, Failure.seen]
      | ok result =>
          obtain ⟨statement, m⟩ := result
          simp only [prepare] at prepared
          obtain ⟨store, prepared, follows⟩ := prepared
          obtain ⟨ready, compiled, rfl, registered⟩ := ready.prepare member declared prepare
          simp only [prepared, mapError_ok]
          cases given : s.values env (Prepared.ofCompiled compiled).compiled.signature with
          | error fault => simp [Alike, Failure.seen]
          | ok values =>
              have places := Config.StatementEntry.values_length given
              have mode : store.settings.proxied = proxied := follows.mode
              refine ⟨?_, fun u' ok => ready.runBound (p := { u with store := m }) places registered ok⟩
              cases proxied with
              | false =>
                  simp only [mode, Bool.false_eq_true, if_false]
                  exact follows.runDirectly schedule places registered
              | true =>
                  simp only [mode, if_true]
                  exact follows.runPatched schedule places registered

theorem Follows.runStatements (h : Follows proxied p u) (declarable : Config.Declarable c.categories)
    (declares : Declares c categories) (ready : Unqueued.Ready c u.store)
    (statements : List Config.StatementEntry)
    (inTime : (runStatements env schedule categories p statements).1.overdue = p.overdue) :
    Follows proxied (runStatements env schedule categories p statements).1
        (Unqueued.runStatements c env u statements).1 ∧
      (runStatements env schedule categories p statements).2 =
        (Unqueued.runStatements c env u statements).2.map (Failure.seen proxied) := by
  induction statements generalizing p u with
  | nil => exact ⟨h, rfl⟩
  | cons s rest ih =>
      obtain ⟨alike, ready'⟩ := h.runStatement declarable declares ready env schedule s
      unfold Replay.runStatements at inTime ⊢
      unfold Unqueued.runStatements
      cases alone : Unqueued.runStatement c env u s with
      | error failure =>
          simp only [alone, Alike] at alike
          simp only [alike]
          exact ⟨h, rfl⟩
      | ok u' =>
          simp only [alone, Alike] at alike
          obtain ⟨p', ran, onward⟩ := alike
          simp only [ran] at inTime ⊢
          have later := overdue_le_of_runStatements env schedule categories p' rest
          have before := onward.overdue
          have follows := onward.follows (by omega)
          exact ih follows (ready' u' alone) (by omega)

/-- With prompt workers no flush is late. -/
theorem Follows.overdue_prompt (h : Follows proxied p u)
    (declarable : Config.Declarable c.categories) (declares : Declares c categories)
    (ready : Unqueued.Ready c u.store) (env : Environment)
    (statements : List Config.StatementEntry) :
    (Replay.runStatements env .prompt categories p statements).1.overdue = p.overdue := by
  induction statements generalizing p u with
  | nil => rfl
  | cons s rest ih =>
      obtain ⟨alike, ready'⟩ := h.runStatement declarable declares ready env .prompt s
      unfold Replay.runStatements
      cases alone : Unqueued.runStatement c env u s with
      | error failure =>
          simp only [alone, Alike] at alike
          simp only [alike]
      | ok u' =>
          simp only [alone, Alike] at alike
          obtain ⟨p', ran, onward⟩ := alike
          have same := onward.prompt rfl
          simp only [ran]
          rw [ih (onward.follows same) (ready' u' alone), same]

end Replay

end FleetStore
