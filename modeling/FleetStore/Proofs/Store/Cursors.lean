import FleetStore.Proofs.Except
import FleetStore.Store.Cursor

/-! # Rows one after another

A cursor answers the rows of a query in their order, each as it is decoded, and after the last of
them that there is none. Looking ahead changes none of these answers, and a row that cannot be read
changes no answer but its own. Using the cursor up answers what is left of the rows, whatever
was asked of it before.
-/

namespace FleetStore.Cursor

variable {α : Type} [Entity α]

/-! ## Requests and replies -/

/-- What can be asked of a cursor again and again. -/
inductive Request where
  | hasNext
  | next
deriving DecidableEq, Repr

inductive Reply (α : Type) where
  | more (found : Bool)
  | row (answer : RowAnswer α)

def ask (c : Cursor α) : Request → Reply α × Cursor α
  | .hasNext => (.more c.hasNext.1, c.hasNext.2)
  | .next => (.row c.next.1, c.next.2)

def after (c : Cursor α) (requests : List Request) : Cursor α :=
  requests.foldl (fun c r => (c.ask r).2) c

def replies (c : Cursor α) : List Request → List (Reply α)
  | [] => []
  | r :: rest => (c.ask r).1 :: (c.ask r).2.replies rest

/-- The value of a row or the reason why it cannot be read. -/
def read (r : Record) : RowAnswer α :=
  (Entity.decode r).mapError .row

/-- What a request for a row answers when `taken` rows were taken before. -/
def rowAt (rows : List Record) (taken : Nat) : RowAnswer α :=
  match rows[taken]? with
  | some r => read r
  | none => .error .noSuchElement

/-- What a request answers when `taken` rows were taken before. -/
def expected (rows : List Record) (taken : Nat) : Request → Reply α
  | .hasNext => .more (taken < rows.length)
  | .next => .row (rowAt rows taken)

theorem expected_drop (rows : List Record) (n taken : Nat) (r : Request) :
    (expected (rows.drop n) taken r : Reply α) = expected rows (n + taken) r := by
  cases r with
  | hasNext =>
      simp only [expected, List.length_drop, Reply.more.injEq, decide_eq_decide]
      omega
  | next => simp only [expected, rowAt, List.getElem?_drop]

/-! ## What is left -/

/-- The rows that a cursor has not given yet. It may have looked at the first of them, or have seen
that there are none. -/
inductive Remains : Cursor α → List Record → Prop where
  | unseen (rows : List Record) : Remains ⟨none, rows⟩ rows
  | seen (r : Record) (rows : List Record) : Remains ⟨some (some (read r)), rows⟩ (r :: rows)
  | ended : Remains ⟨some none, []⟩ []

namespace Remains

variable {c : Cursor α} {rows : List Record}

theorem hasNext (h : Remains c rows) :
    c.hasNext.1 = decide (0 < rows.length) ∧ Remains c.hasNext.2 rows := by
  cases h with
  | unseen =>
      cases rows with
      | nil => exact ⟨rfl, .ended⟩
      | cons r rest => exact ⟨by simp [Cursor.hasNext, peek, pull], .seen r rest⟩
  | seen r rest => exact ⟨by simp [Cursor.hasNext, peek], .seen r rest⟩
  | ended => exact ⟨rfl, .ended⟩

theorem step (h : Remains c rows) :
    c.step.1 = rows[0]?.map read ∧ Remains c.step.2 (rows.drop 1) := by
  cases h with
  | unseen =>
      cases rows with
      | nil => exact ⟨rfl, .unseen []⟩
      | cons r rest => exact ⟨rfl, .unseen rest⟩
  | seen r rest => exact ⟨rfl, .unseen rest⟩
  | ended => exact ⟨rfl, .unseen []⟩

theorem next (h : Remains c rows) :
    c.next.1 = rowAt rows 0 ∧ Remains c.next.2 (rows.drop 1) := by
  obtain ⟨answer, left⟩ := h.step
  refine ⟨?_, left⟩
  show c.step.1.getD (.error .noSuchElement) = rowAt rows 0
  rw [answer, rowAt]
  cases rows[0]? <;> rfl

theorem ask (h : Remains c rows) (r : Request) :
    (c.ask r).1 = expected rows 0 r ∧ Remains (c.ask r).2 (rows.drop ([r].count .next)) := by
  cases r with
  | hasNext => exact ⟨congrArg Reply.more h.hasNext.1, h.hasNext.2⟩
  | next => exact ⟨congrArg Reply.row h.next.1, h.next.2⟩

theorem after (h : Remains c rows) (requests : List Request) :
    Remains (c.after requests) (rows.drop (requests.count .next)) := by
  induction requests generalizing c rows with
  | nil => exact h
  | cons r rest ih =>
      have left := ih (h.ask r).2
      rw [List.drop_drop, ← List.count_append] at left
      exact left

theorem replies (h : Remains c rows) (requests : List Request) :
    c.replies requests =
      requests.mapIdx fun k r => expected rows ((requests.take k).count .next) r := by
  induction requests generalizing c rows with
  | nil => rfl
  | cons r rest ih =>
      obtain ⟨reply, left⟩ := h.ask r
      rw [Cursor.replies, reply, ih left, List.mapIdx_cons]
      congr 2
      funext k r'
      rw [expected_drop, ← List.count_append]
      rfl

theorem head (h : Remains c rows) :
    c.head = match rows[0]? with
      | some r => (read r).map some
      | none => .ok none := by
  rw [Cursor.head, h.step.1]
  cases rows[0]? <;> rfl

theorem collect (h : Remains c rows) : c.collect = rows.mapM read := by
  cases h with
  | unseen => rfl
  | seen r rest => rw [List.mapM_cons]; rfl
  | ended => rfl

end Remains

/-! ## Rows in their order -/

theorem expected_set {rows : List Record} {taken i : Nat} (other : taken ≠ i) (row : Record)
    (r : Request) : (expected (rows.set i row) taken r : Reply α) = expected rows taken r := by
  cases r with
  | hasNext => rw [expected, expected, List.length_set]
  | next => rw [expected, expected, rowAt, rowAt, List.getElem?_set_ne other.symm]

/-- Whatever is asked of a cursor and in whatever order, a request for a row answers the row that
comes after those taken before, as it is read, or that there is none, and looking ahead tells
whether there is one. After any requests, looking ahead once more changes nothing that is answered
later. Another record in the place of a row changes the answer for this row alone. A cursor that
is used up gives all rows that are left, or the first error among them, or just the first of
these rows if there is any. -/
theorem rows_are_answered_in_order (rows : List Record) (requests : List Request) :
    let c : Cursor α := (ofRecords rows).after requests
    let left := rows.drop (requests.count .next)
    ((ofRecords rows : Cursor α).replies requests =
        requests.mapIdx fun k r => expected rows ((requests.take k).count .next) r) ∧
      (∀ later, c.hasNext.2.replies later = c.replies later ∧
        (c.hasNext.2.after later).collect = (c.after later).collect ∧
        (c.hasNext.2.after later).head = (c.after later).head) ∧
      (∀ i row k, (requests.take k).count .next ≠ i →
        ((ofRecords (rows.set i row) : Cursor α).replies requests)[k]? =
          ((ofRecords rows : Cursor α).replies requests)[k]?) ∧
      (∀ xs, c.collect = .ok xs ↔ left.map read = xs.map .ok) ∧
      (∀ e, c.collect = .error e ↔ ∃ before r after, left = before ++ r :: after ∧
        (∀ b ∈ before, ∃ x : α, read b = .ok x) ∧ (read r : RowAnswer α) = .error e) ∧
      c.head = match left[0]? with
        | some r => (read r).map some
        | none => .ok none := by
  intro c left
  have start (rows : List Record) : Remains (ofRecords rows : Cursor α) rows := .unseen rows
  have here : Remains c left := (start rows).after requests
  refine ⟨(start rows).replies requests, fun later => ?_, fun i row k other => ?_, fun xs => ?_,
    fun e => ?_, here.head⟩
  · have ahead := here.hasNext.2
    refine ⟨(ahead.replies later).trans (here.replies later).symm, ?_, ?_⟩
    · rw [(ahead.after later).collect, (here.after later).collect]
    · rw [(ahead.after later).head, (here.after later).head]
  · rw [(start _).replies, (start _).replies, List.getElem?_mapIdx, List.getElem?_mapIdx]
    congr 1
    funext r
    exact expected_set other row r
  · rw [here.collect]
    exact mapM_eq_ok_iff
  · rw [here.collect]
    exact mapM_eq_error_iff

/-- The second count cannot be read. The third is answered all the same, as it would be after a
second that can. -/
theorem third_count_is_answered :
    let count (j : Json) : Record := .ofList [("count", j)]
    let rows := [count (.int 1), count (.str "many"), count (.int 3)]
    let requests : List Request := [.hasNext, .next, .hasNext, .next, .next]
    (requests.take 4).count .next ≠ 1 ∧
      ((ofRecords rows : Cursor AggregateCount).replies requests)[3]? =
        some (.row (.error (.row (.invalidType (.str "many"))))) ∧
      ((ofRecords rows : Cursor AggregateCount).replies requests)[4]? = some (.row (.ok ⟨3⟩)) ∧
      ((ofRecords (rows.set 1 (count (.int 2))) : Cursor AggregateCount).replies requests)[4]? =
        some (.row (.ok ⟨3⟩)) := by
  intro count rows requests
  have third : (requests.take 4).count .next ≠ 1 := by decide
  have found : ((ofRecords rows : Cursor AggregateCount).replies requests)[4]? =
      some (.row (.ok ⟨3⟩)) := rfl
  obtain ⟨-, -, kept, -⟩ := rows_are_answered_in_order (α := AggregateCount) rows requests
  exact ⟨third, rfl, found, (kept 1 (count (.int 2)) 4 third).trans found⟩

end FleetStore.Cursor
