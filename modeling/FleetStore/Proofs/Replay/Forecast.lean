import FleetStore.Proofs.Replay.Agreement
import FleetStore.Proofs.Replay.Checked
import Mathlib.Data.Nat.Find

/-! # What a check tells about a replay

A replay fails at the first statement that fails its check or is a query with a parameter
for its limit that is not positive, and if there is none, it succeeds. When it fails,
it has printed the rows of the queries before. As with the run without a queue, names
with a NUL are the exception: a check does not see that no worker can have them.
-/

namespace FleetStore

/-- The lines that queries print when statements are run on tables one after another. -/
def printedBy (tables : Tables) : List BoundStatement → List String
  | [] => []
  | .write w :: rest => printedBy ((Change.write w).apply tables) rest
  | .query q :: rest =>
      ((tables.find? q).getD []).map (fun row => (Json.ofDict row).compact) ++ printedBy tables rest

namespace Unqueued

variable {c : Config} {env : Environment} {p : Progress}

theorem Progress.printedBy_after (p : Progress) (b : BoundStatement) (rest : List BoundStatement) :
    p.lines ++ printedBy p.store.tables (b :: rest) =
      (p.after b).lines ++ printedBy (p.after b).store.tables rest := by
  cases b with
  | write w => rfl
  | query q => exact (List.append_assoc _ _ _).symm

/-- Statements of which none is amiss are run, and their queries print their rows. -/
theorem Kept.runStatements (h : Kept c p.store) (declarable : Config.Declarable c.categories)
    {first : List Config.StatementEntry} (bounded : ∀ s ∈ first, ∀ param ∈ s.params, param.Bounded)
    (fine : ∀ s ∈ first, (c.bound? env s).isSome) (rest : List Config.StatementEntry) :
    ∃ p', Kept c p'.store ∧
      p'.lines = p.lines ++ printedBy p.store.tables (first.filterMap (c.bound? env)) ∧
      runStatements c env p (first ++ rest) = runStatements c env p' rest := by
  induction first generalizing p with
  | nil => exact ⟨p, h, (List.append_nil _).symm, rfl⟩
  | cons s more ih =>
      obtain ⟨b, bound⟩ := Option.isSome_iff_exists.1 (fine s List.mem_cons_self)
      have ran := h.runStatement declarable env (bounded s List.mem_cons_self)
      simp only [bound] at ran
      obtain ⟨cache, kept, ran⟩ := ran
      obtain ⟨p', kept', lines, same⟩ := ih
        (Kept.after (p := { p with store := { p.store with cache } }) kept b)
        (fun s member => bounded s (List.mem_cons_of_mem _ member))
        (fun s member => fine s (List.mem_cons_of_mem _ member))
      refine ⟨p', kept', ?_, ?_⟩
      · rw [List.filterMap_cons_some bound]
        exact lines.trans (Progress.printedBy_after _ b _).symm
      · rw [List.cons_append, Unqueued.runStatements, ran]
        exact same

theorem run_eq (env : Environment) {m : MemoryStore}
    (registered : registerAll .empty c.categories = .ok m) :
    run c env = ⟨(runStatements c env (.start m) c.statements).1,
      (runStatements c env (.start m) c.statements).2⟩ := by
  simp only [run, registered]

/-- A run fails at a statement that is amiss when none before it is, with the rows of the queries
before it printed. -/
theorem run_stuck (env : Environment) (valid : c.validate = .ok ()) (bounded : c.Bounded)
    {first rest : List Config.StatementEntry} {s : Config.StatementEntry}
    (all : c.statements = first ++ s :: rest) (fine : ∀ s ∈ first, (c.bound? env s).isSome)
    (amiss : c.bound? env s = none) :
    (run c env).progress.lines = printedBy c.blank (first.filterMap (c.bound? env)) ∧
      ∃ failure, (run c env).failure = some failure ∧
        ∀ compiled, c.checkStatement env s = .ok compiled →
          ∃ n ≤ 0, failure = .store (.execution (.patch (.invalidLimit n))) := by
  obtain ⟨m, registered, kept, tables⟩ := kept_of_validate valid
  have declarable := Config.declarable_of_validate valid
  obtain ⟨p, kept, lines, through⟩ := Kept.runStatements (p := .start m) kept declarable
    (fun s member => bounded s (all ▸ List.mem_append_left _ member)) fine (s :: rest)
  have ran := kept.runStatement declarable env
    (bounded s (all ▸ List.mem_append_right _ List.mem_cons_self))
  simp only [amiss] at ran
  obtain ⟨failure, failed, why⟩ := ran
  rw [run_eq env registered, all, through, runStatements, failed]
  exact ⟨lines.trans (by rw [← tables]; rfl), failure, rfl, why⟩

/-- A run succeeds exactly if no statement is amiss. -/
theorem run_succeeds_iff (valid : c.validate = .ok ()) (bounded : c.Bounded) :
    (run c env).failure = none ↔ ∀ s ∈ c.statements, (c.bound? env s).isSome := by
  cases found : c.statements.find? fun s => (c.bound? env s).isNone with
  | none =>
      have fine : ∀ s ∈ c.statements, (c.bound? env s).isSome := fun s member =>
        Option.ne_none_iff_isSome.1 fun missing =>
          List.find?_eq_none.1 found s member (Option.isNone_iff_eq_none.2 missing)
      obtain ⟨m, registered, kept, _⟩ := kept_of_validate valid
      obtain ⟨p, _, _, through⟩ := Kept.runStatements (p := .start m) kept
        (Config.declarable_of_validate valid) bounded fine []
      rw [List.append_nil] at through
      simp only [run_eq env registered, through, runStatements, true_iff]
      exact fine
  | some s =>
      obtain ⟨amiss, first, rest, all, fine⟩ := List.find?_eq_some_iff_append.1 found
      obtain ⟨_, failure, failed, _⟩ := run_stuck env valid bounded all
        (fun s member => by simpa using fine s member) (Option.isNone_iff_eq_none.1 amiss)
      have member : s ∈ c.statements := all ▸ List.mem_append_right _ List.mem_cons_self
      simp only [failed, reduceCtorEq, false_iff]
      exact fun fine => Option.ne_none_iff_isSome.2 (fine s member) (Option.isNone_iff_eq_none.1 amiss)

end Unqueued

/-! ## With a queue -/

theorem Config.Bounded.upTo {c : Config} (h : c.Bounded) (i : Nat) : (c.upTo i).Bounded :=
  fun s member => h s (List.mem_of_mem_take member)

namespace Replay

variable {c : Config} {env : Environment} {schedule : Schedule}

/-- A replay comes through the first statements exactly if none of them is amiss. -/
theorem run_upTo_succeeds_iff (valid : c.validate = .ok ()) (bounded : c.Bounded)
    (nameable : '\x00' ∉ c.storage.name.toList)
    (inTime : (run c env schedule).progress.overdue = 0) (i : Nat) :
    (run (c.upTo i) env schedule).failure = none ↔ ∀ j < i, ¬ c.Amiss env j := by
  have late := overdue_upTo_le valid nameable env schedule i
  obtain ⟨_, _, _, failure⟩ :=
    run_alike (Config.validate_upTo valid i) nameable (Nat.le_zero.1 (inTime ▸ late))
  rw [failure, Option.map_eq_none_iff, Config.not_amiss_iff,
    Unqueued.run_succeeds_iff (Config.validate_upTo valid i) (bounded.upTo i)]
  rfl

/-- What a check of a configuration tells about its replay. -/
structure Foretold (c : Config) (env : Environment) (schedule : Schedule) : Prop where
  /-- The replay fails at the first statement that is amiss. -/
  place : ∀ i, FailsAt (fun c => (run c env schedule).failure) c i ↔
    c.Amiss env i ∧ ∀ j < i, ¬ c.Amiss env j
  success : (run c env schedule).failure = none ↔ ∀ i, ¬ c.Amiss env i
  /-- It has printed the rows of the queries before that statement. -/
  lines : ∀ i, FailsAt (fun c => (run c env schedule).failure) c i →
    (run c env schedule).progress.lines =
      printedBy c.blank ((c.statements.take i).filterMap (c.bound? env))
  /-- If every check passes, only a limit can be wrong. -/
  limit : (∀ answer ∈ c.check env, answer.isOk = true) → ∀ failure,
    (run c env schedule).failure = some failure →
      ∃ n ≤ 0, failure = (Failure.store (.execution (.patch (.invalidLimit n)))).seen c.storage.proxied

theorem failsAt_iff_first_amiss (valid : c.validate = .ok ()) (bounded : c.Bounded)
    (nameable : '\x00' ∉ c.storage.name.toList)
    (inTime : (run c env schedule).progress.overdue = 0) (i : Nat) :
    FailsAt (fun c => (run c env schedule).failure) c i ↔
      c.Amiss env i ∧ ∀ j < i, ¬ c.Amiss env j := by
  have through := run_upTo_succeeds_iff valid bounded nameable inTime
  constructor
  · intro place
    have fine := (through i).1 place.before
    refine ⟨?_, fine⟩
    by_contra last
    refine place.there ((through (i + 1)).2 fun j before => ?_)
    rcases Nat.lt_succ_iff_lt_or_eq.1 before with earlier | rfl
    · exact fine j earlier
    · exact last
  · rintro ⟨amiss, fine⟩
    obtain ⟨s, found, _⟩ := Config.amiss_iff.1 amiss
    obtain ⟨inside, _⟩ := List.getElem?_eq_some_iff.1 found
    exact ⟨inside, (through i).2 fine, fun none => (through (i + 1)).1 none i (by omega) amiss⟩

theorem foretold_of_nameable (valid : c.validate = .ok ()) (bounded : c.Bounded)
    (nameable : '\x00' ∉ c.storage.name.toList)
    (inTime : (run c env schedule).progress.overdue = 0) : Foretold c env schedule := by
  obtain ⟨lines, _, _, failure⟩ := run_alike valid nameable inTime
  have place := failsAt_iff_first_amiss valid bounded nameable inTime
  have stuck {i : Nat} (amiss : c.Amiss env i) (fine : ∀ j < i, ¬ c.Amiss env j) :
      ∃ s, c.statements[i]? = some s ∧ (run c env schedule).progress.lines =
          printedBy c.blank ((c.statements.take i).filterMap (c.bound? env)) ∧
        ∃ failure, (Unqueued.run c env).failure = some failure ∧
          ∀ compiled, c.checkStatement env s = .ok compiled →
            ∃ n ≤ 0, failure = .store (.execution (.patch (.invalidLimit n))) := by
    obtain ⟨s, found, missing⟩ := Config.amiss_iff.1 amiss
    obtain ⟨inside, rfl⟩ := List.getElem?_eq_some_iff.1 found
    have all : c.statements = c.statements.take i ++ c.statements[i] :: c.statements.drop (i + 1) := by
      rw [List.getElem_cons_drop, List.take_append_drop]
    obtain ⟨printed, why⟩ := Unqueued.run_stuck env valid bounded all (Config.not_amiss_iff.1 fine) missing
    exact ⟨_, found, lines.trans printed, why⟩
  refine ⟨place, ?_, fun i fails => ?_, fun passed failure' failed => ?_⟩
  · rw [failure, Option.map_eq_none_iff, Unqueued.run_succeeds_iff valid bounded, Config.fine_iff]
  · obtain ⟨amiss, fine⟩ := (place i).1 fails
    obtain ⟨_, _, printed, _⟩ := stuck amiss fine
    exact printed
  · have start := (run_upTo_succeeds_iff valid bounded nameable inTime 0).2 (by simp)
    have somewhere : ∃ i, FailsAt (fun c => (run c env schedule).failure) c i :=
      exists_failsAt start (by simp [failed])
    obtain ⟨i, fails⟩ := somewhere
    obtain ⟨amiss, fine⟩ := (place i).1 fails
    obtain ⟨s, found, _, cause, caused, why⟩ := stuck amiss fine
    have answer : c.checkStatement env s ∈ c.check env :=
      List.mem_map_of_mem (List.mem_of_getElem? found)
    have ok := passed _ answer
    cases checked : c.checkStatement env s with
    | error fault => simp [checked, Except.isOk, Except.toBool] at ok
    | ok compiled =>
        obtain ⟨n, small, rfl⟩ := why compiled checked
        rw [failure, caused] at failed
        exact ⟨n, small, (Option.some.inj failed).symm⟩

/-- A check of a valid configuration with bounded parameters foretells every replay in which no
flush is late, exactly if there is no NUL in the name of the store. If there is one, the
replay fails for it and prints nothing. -/
theorem foretold_iff_nameable (c : Config) (env : Environment) (schedule : Schedule)
    (valid : c.validate = .ok ()) (bounded : c.Bounded)
    (inTime : (run c env schedule).progress.overdue = 0) :
    (Foretold c env schedule ↔ '\x00' ∉ c.storage.name.toList) ∧
    ('\x00' ∈ c.storage.name.toList → (run c env schedule).progress.lines = [] ∧
      (run c env schedule).failure = some (.worker ⟨c.storage.writerName⟩)) := by
  refine ⟨⟨fun foretold unnameable => ?_, fun nameable => ?_⟩, fun unnameable => ?_⟩
  · -- The replay fails, so some statement is amiss, but it does not get through the statements
    -- before the first such one.
    have fails : (run c env schedule).failure ≠ none := by
      rw [run_unnameable valid unnameable]
      exact nofun
    obtain ⟨i, amiss⟩ := not_forall_not.1 (mt foretold.success.2 fails)
    have least : ∃ i, c.Amiss env i ∧ ∀ j < i, ¬ c.Amiss env j := by
      classical
      exact ⟨Nat.find ⟨i, amiss⟩, Nat.find_spec ⟨i, amiss⟩, fun j => Nat.find_min ⟨i, amiss⟩⟩
    obtain ⟨i, first⟩ := least
    have before := ((foretold.place i).2 first).before
    rw [run_unnameable (Config.validate_upTo valid i) unnameable] at before
    contradiction
  · exact foretold_of_nameable valid bounded nameable inTime
  · rw [run_unnameable valid unnameable]
    exact ⟨rfl, rfl⟩

/-- A machine is added and queried, the last time with a limit. -/
def machines (settings : Settings) (limit : Int) : Config :=
  { storage := settings
    categories := [⟨"vm", [⟨"agentId", .scalar .string⟩], []⟩]
    statements := [
      ⟨"vm", "ADD vm SET 'agentId' = ?s", [.str "a1"]⟩, ⟨"vm", "QUERY-COUNT vm", []⟩,
      ⟨"vm", "QUERY vm WHERE 'agentId' = ?s LIMIT ?i", [.str "a1", .int limit]⟩] }

theorem machines_bounded (settings : Settings) {limit : Int} (fits : FitsSigned 63 limit) :
    (machines settings limit).Bounded := by
  intro s member param inside
  simp only [machines, List.mem_cons, List.not_mem_nil, or_false] at member
  rcases member with rfl | rfl | rfl
  · obtain rfl := List.mem_singleton.1 inside
    exact .str _
  · simp at inside
  · rcases List.mem_pair.1 inside with rfl | rfl
    · exact .str _
    · exact .int limit (.inl fits)

/-- Every statement passes its check, but the last one is given a limit of 0. The replay fails
there, after the count has been printed. -/
theorem limit_of_nothing_is_foretold :
    let c := machines Settings.standard 0
    let env : Environment := fun _ => none
    c.validate = .ok () ∧ c.Bounded ∧ (run c env .prompt).progress.overdue = 0 ∧
      '\x00' ∉ c.storage.name.toList ∧ Foretold c env .prompt ∧
      (c.check env).all Except.isOk = true ∧ (run c env .prompt).failure.isSome ∧
      (run c env .prompt).progress.lines = ["\x7b\"count\":1\x7d"] := by
  intro c env
  have valid : c.validate = .ok () := Config.validate_of_isOk (by decide +kernel)
  have bounded : c.Bounded := machines_bounded _ (by decide)
  have inTime := overdue_prompt c env
  have nameable : '\x00' ∉ c.storage.name.toList := by decide +kernel
  refine ⟨valid, bounded, inTime, nameable, ?_, by decide +kernel, by decide +kernel,
    by decide +kernel⟩
  exact (foretold_iff_nameable c env .prompt valid bounded inTime).1.2 nameable

/-- Under a name with a NUL every statement passes its check and every limit is positive, and the
replay fails all the same. -/
theorem failure_under_nul_is_not_foretold :
    let c := machines { Settings.standard with name := "vm\x00" } 1
    let env : Environment := fun _ => none
    c.validate = .ok () ∧ c.Bounded ∧ (run c env .prompt).progress.overdue = 0 ∧
      (c.check env).all Except.isOk = true ∧ (∀ i, ¬ c.Amiss env i) ∧
      (run c env .prompt).failure.isSome ∧ ¬ Foretold c env .prompt := by
  intro c env
  have valid : c.validate = .ok () := Config.validate_of_isOk (by decide +kernel)
  have fails : (run c env .prompt).failure.isSome := by decide +kernel
  have fine : ∀ i, ¬ c.Amiss env i := Config.fine_iff.1 (by decide +kernel)
  refine ⟨valid, machines_bounded _ (by decide), overdue_prompt c env, by decide +kernel, fine, fails,
    fun foretold => ?_⟩
  rw [foretold.success.2 fine] at fails
  contradiction

end Replay

end FleetStore
