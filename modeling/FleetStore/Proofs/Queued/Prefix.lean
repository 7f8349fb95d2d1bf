import FleetStore.Proofs.Queued.Site

/-! # The store behind a queue is always at a prefix of what was accepted

The tables behind the queue are at every moment those that come of the first of
the accepted changes, made one after another, and the files those that come of
the first of the accepted savings. What was accepted only grows at its end, so a
change that was issued after another had returned is never seen without it.
-/

namespace FleetStore

namespace Site

variable {settings : Settings} {start : MemoryStore} {w w' w'' : Site}

/-- An answer is that of the tables after the first of the accepted changes. -/
structure Explained (start : MemoryStore) (accepted : List (Nat × Change)) (a : Answer) : Prop where
  applied : a.applied ≤ accepted.length
  cursor : a.cursor =
    (a.question.rows (changed start.tables (accepted.take a.applied))).map .ofRecords

/-- The store behind the queues has everything from the tasks that are finished. -/
structure Faithful (start : MemoryStore) (w : Site) : Prop where
  writes : w.writes.Sound
  files : w.files.Sound
  checked : ∀ s ∈ w.statements, s.Checked
  tickets : ∀ e ∈ w.issued, e.1 < w.writes.calls
  known : ∀ task ∈ w.writes.tasks, task.Known w.issued
  marks : ∀ n, Task.mark n ∈ w.writes.tasks → w.issued.lookup n = none
  tables : w.delegate.tables =
    changed start.tables (w.writes.finished.filterMap (Task.change? w.issued))
  saved : w.delegate.files =
    (w.files.finished.filterMap Task.job?).foldl FileJob.saveTo start.files
  answers : ∀ a ∈ w.answers, a.applied ≤ w.applied ∧ Explained start w.accepted a
  ordered : w.answers.Pairwise fun a b => a.applied ≤ b.applied

theorem faithful_new (settings : Settings) (start : MemoryStore) :
    (new settings start).Faithful start where
  writes := Desk.sound_new _
  files := Desk.sound_new _
  checked := by simp [new]
  tickets := by simp [new]
  known := by simp [new, Desk.new, Desk.tasks]
  marks := by simp [new, Desk.new, Desk.tasks]
  tables := rfl
  saved := rfl
  answers := by simp [new]
  ordered := .nil

/-- Nothing is written down yet for the ticket that the next call draws. -/
theorem Faithful.fresh (h : w.Faithful start) : w.issued.lookup w.writes.calls = none := by
  rw [List.lookup_eq_none_iff]
  intro e member
  have below := h.tickets e member
  simp only [bne_iff_ne, ne_eq]
  omega

theorem Faithful.known_accepted (h : w.Faithful start) :
    ∀ task ∈ w.writes.accepted, task.Known w.issued :=
  fun task member => h.known task (List.mem_append_left _ member)

theorem Faithful.known_finished (h : w.Faithful start) :
    ∀ task ∈ w.writes.finished, task.Known w.issued :=
  fun task member => h.known_accepted task (h.writes.finished_accepted.subset member)

/-- The changes made are the first of those accepted. -/
theorem Faithful.take_applied (h : w.Faithful start) :
    w.accepted.take w.applied = w.writes.finished.filterMap (Task.change? w.issued) := by
  obtain ⟨rest, same⟩ := h.writes.finished_accepted.filterMap (Task.change? w.issued)
  rw [accepted, ← same, applied, List.take_left]

theorem Faithful.take_saved (h : w.Faithful start) :
    w.saves.take w.saved = w.files.finished.filterMap Task.job? := by
  obtain ⟨rest, same⟩ := h.files.finished_accepted.filterMap Task.job?
  rw [saves, ← same, Site.saved, List.take_left]

/-! ## Growth -/

/-- What was written down stays, and more may come after it. -/
structure Grows (w w' : Site) : Prop where
  issued : w.issued <+: w'.issued
  writes : w.writes.accepted <+: w'.writes.accepted ∧ w.writes.finished <+: w'.writes.finished ∧
    w.writes.calls ≤ w'.writes.calls
  files : w.files.accepted <+: w'.files.accepted ∧ w.files.finished <+: w'.files.finished ∧
    w.files.calls ≤ w'.files.calls

theorem Step.grows (step : Step w w') : w.Grows w' := by
  have same : ∀ {Job : Type} (k : Desk Job),
      k.accepted <+: k.accepted ∧ k.finished <+: k.finished ∧ k.calls ≤ k.calls :=
    fun k => ⟨List.prefix_refl _, List.prefix_refl _, Nat.le_refl _⟩
  have issues : ∀ j, w.Grows (w.issue j) := fun j => by
    refine ⟨?_, ⟨List.prefix_refl _, List.prefix_refl _, Nat.le_succ _⟩, same _⟩
    unfold issue
    split
    · exact List.prefix_append _ _
    · exact List.prefix_refl _
  cases step with
  | execute statement => exact issues _
  | apply b => exact issues _
  | purge agent => exact issues _
  | save => exact ⟨List.prefix_refl _, same _, List.prefix_refl _, List.prefix_refl _, Nat.le_succ _⟩
  | atWrites writes delegate step => exact ⟨List.prefix_refl _, step.grows, same _⟩
  | atFiles files delegate step => exact ⟨List.prefix_refl _, same _, step.grows⟩
  | prepare | copy | set | patch | askDirectly | askPatched | shutDown | giveUp =>
      exact ⟨List.prefix_refl _, same _, same _⟩

theorem Grows.refl (w : Site) : w.Grows w :=
  ⟨List.prefix_refl _, ⟨List.prefix_refl _, List.prefix_refl _, Nat.le_refl _⟩,
    List.prefix_refl _, List.prefix_refl _, Nat.le_refl _⟩

theorem Grows.trans (h : w.Grows w') (later : w'.Grows w'') : w.Grows w'' where
  issued := h.issued.trans later.issued
  writes := ⟨h.writes.1.trans later.writes.1, h.writes.2.1.trans later.writes.2.1,
    Nat.le_trans h.writes.2.2 later.writes.2.2⟩
  files := ⟨h.files.1.trans later.files.1, h.files.2.1.trans later.files.2.1,
    Nat.le_trans h.files.2.2 later.files.2.2⟩

theorem Leads.grows (h : w.Leads w') : w.Grows w' := by
  induction h with
  | here => exact .refl _
  | step _ next ih => exact ih.trans next.grows

/-- Growing adds to the accepted changes at their end, and never takes a change back. -/
theorem Grows.accepted (h : w.Grows w') (faithful : w.Faithful start) :
    w.accepted <+: w'.accepted ∧ w.applied ≤ w'.applied := by
  have accepted := h.writes.1.filterMap (Task.change? w'.issued)
  have finished := h.writes.2.1.filterMap (Task.change? w'.issued)
  rw [filterMap_change_grow faithful.known_accepted h.issued] at accepted
  rw [filterMap_change_grow faithful.known_finished h.issued] at finished
  exact ⟨accepted, finished.length_le⟩

theorem Grows.saves (h : w.Grows w') : w.saves <+: w'.saves ∧ w.saved ≤ w'.saved :=
  ⟨h.files.1.filterMap _, (h.files.2.1.filterMap _).length_le⟩

theorem Explained.grow {accepted more : List (Nat × Change)} {a : Answer}
    (h : Explained start accepted a) (longer : accepted <+: more) : Explained start more a := by
  obtain ⟨rest, rfl⟩ := longer
  have short := h.applied
  refine ⟨by rw [List.length_append]; omega, ?_⟩
  rw [List.take_append_of_le_length short]
  exact h.cursor

theorem Faithful.answers_grow (h : w.Faithful start) (grows : w.Grows w') :
    ∀ a ∈ w.answers, a.applied ≤ w'.applied ∧ Explained start w'.accepted a := by
  intro a member
  obtain ⟨soon, explained⟩ := h.answers a member
  obtain ⟨accepted, applied⟩ := grows.accepted h
  exact ⟨Nat.le_trans soon applied, explained.grow accepted⟩

/-! ## One step -/

/-- Preparing only adds to the cache of the store behind the queues, and what is prepared
has no values yet. -/
theorem prepare_kept {store store' : QueuedStore} {c : Category} {descriptor : String}
    {statement : Prepared} (ok : Store.prepare store c descriptor = .ok (statement, store')) :
    statement.Checked ∧ store'.delegate.tables = store.delegate.tables ∧
      store'.delegate.files = store.delegate.files := by
  cases prepared : store.delegate.prepare c descriptor with
  | error e => simp [Store.prepare, prepared, Except.map] at ok
  | ok found =>
      simp only [Store.prepare, prepared, Except.map, Except.ok.injEq, Prod.mk.injEq] at ok
      obtain ⟨rfl, rfl⟩ := ok
      obtain ⟨entry, cache, _, same, kept⟩ := MemoryStore.prepare_ok prepared
      rw [same, kept]
      exact ⟨Prepared.checked_ofCompiled _, rfl, rfl⟩

/-- Whoever goes in with a write job finds it written down as what it does. -/
theorem Faithful.issue (h : w.Faithful start) {j : WriteJob} {change : Change}
    (gate : w.writes.dispatcher.accepting = true) (bound : j.change? = some change) :
    (w.issue j).Faithful start := by
  have step : Desk.Step (fun _ => True) WriteJob.run w.writes w.delegate
    (w.writes.enter (.submit j)) w.delegate := .enter (.submit j) trivial gate
  have longer : w.issued <+: w.issued ++ [(w.writes.calls, change)] := List.prefix_append _ _
  have grows : w.Grows (w.issue j) := by
    refine ⟨?_, step.grows, List.prefix_refl _, List.prefix_refl _, Nat.le_refl _⟩
    simpa only [Site.issue, bound] using longer
  have fresh := h.fresh
  refine { h with
    writes := h.writes.step step
    tickets := ?_
    known := ?_
    marks := ?_
    tables := ?_
    answers := h.answers_grow grows }
  · simp only [Site.issue, bound]
    intro e member
    show e.1 < w.writes.calls + 1
    rcases List.mem_append.1 member with old | new
    · exact Nat.lt_succ_of_lt (h.tickets e old)
    · rw [List.mem_singleton.1 new]
      exact Nat.lt_succ_self _
  · simp only [Site.issue, bound, Desk.tasks_enter]
    intro task member
    rcases List.mem_append.1 member with old | new
    · exact (h.known task old).grow longer
    · rw [List.mem_singleton.1 new]
      exact ⟨change, bound, by simp [List.lookup_append, fresh]⟩
  · simp only [Site.issue, bound, Desk.tasks_enter]
    intro n member
    have old : Task.mark n ∈ w.writes.tasks := by simpa [Request.task] using member
    have other : (n == w.writes.calls) = false :=
      beq_false_of_ne (Nat.ne_of_lt (h.writes.tallied.ticket_lt old))
    simp [List.lookup_append, h.marks n old, List.lookup_cons, other]
  · simp only [Site.issue, bound]
    rw [h.tables]
    exact congrArg _ (filterMap_change_grow h.known_finished longer).symm

theorem Faithful.ask (h : w.Faithful start) {question : Question}
    {cursor : Except ExecutionError (Cursor Record)}
    (same : cursor = (question.rows w.delegate.tables).map .ofRecords) :
    (w.ask question cursor).Faithful start := by
  have now : w.delegate.tables = changed start.tables (w.accepted.take w.applied) := by
    rw [h.take_applied, h.tables]
  have inside : w.applied ≤ w.accepted.length :=
    (h.writes.finished_accepted.filterMap _).length_le
  refine { h with answers := fun a member => ?_, ordered := ?_ }
  · rcases List.mem_append.1 member with old | new
    · exact h.answers a old
    · rw [List.mem_singleton.1 new]
      rw [now] at same
      exact ⟨Nat.le_refl _, inside, same⟩
  · refine List.pairwise_append.2 ⟨h.ordered, List.pairwise_singleton _ _, fun a old b new => ?_⟩
    rw [List.mem_singleton.1 new]
    exact (h.answers a old).1

theorem Faithful.atWrites (h : w.Faithful start) {writes : Desk WriteJob} {delegate : MemoryStore}
    (step : Desk.Step (· = .flush) WriteJob.run w.writes w.delegate writes delegate) :
    Faithful start { w with writes, delegate } := by
  have sound := h.writes.step step
  have grows : w.Grows { w with writes, delegate } :=
    ⟨List.prefix_refl _, step.grows, List.prefix_refl _, List.prefix_refl _, Nat.le_refl _⟩
  have known : ∀ task ∈ writes.tasks, task.Known w.issued := by
    intro task member
    rcases step.tasks task member with old | ⟨request, rfl, rfl⟩
    · exact h.known task old
    · trivial
  obtain ⟨done, finished, state⟩ := step.state
  have doneKnown : ∀ task ∈ done, task.Known w.issued := fun task member => by
    have last : task ∈ writes.finished := finished ▸ List.mem_append_right _ member
    exact known task (List.mem_append_left _ (sound.finished_accepted.subset last))
  have worked := foldl_perform_writes doneKnown w.delegate
  rw [← state] at worked
  refine { h with
    writes := sound
    tickets := fun e member => Nat.lt_of_lt_of_le (h.tickets e member) step.calls_le
    known
    marks := fun n member => ?_
    tables := ?_
    saved := ?_
    answers := h.answers_grow grows }
  · rcases step.tasks _ member with old | ⟨request, rfl, new⟩
    · exact h.marks n old
    · obtain rfl : n = w.writes.calls := by simpa [Request.task] using new
      exact h.fresh
  · simp only [worked, finished, List.filterMap_append, changed_append, h.tables]
  · simp only [worked, h.saved]

theorem Faithful.atFiles (h : w.Faithful start) {files : Desk FileJob} {delegate : MemoryStore}
    (step : Desk.Step (· = .flush) FileJob.run w.files w.delegate files delegate) :
    Faithful start { w with files, delegate } := by
  obtain ⟨done, finished, state⟩ := step.state
  have worked := foldl_perform_files done w.delegate
  rw [← state] at worked
  refine { h with files := h.files.step step, tables := ?_, saved := ?_ }
  · simp only [worked, h.tables]
  · simp only [worked, finished, List.filterMap_append, List.foldl_append, h.saved]

theorem Faithful.step (h : w.Faithful start) (step : Step w w') : w'.Faithful start := by
  cases step with
  | prepare c descriptor statement store ok =>
      obtain ⟨checked, tables, files⟩ := prepare_kept ok
      refine { h with
        checked := fun s member => ?_
        tables := tables.trans h.tables
        saved := files.trans h.saved }
      rcases List.mem_append.1 member with old | new
      · exact h.checked s old
      · exact List.mem_singleton.1 new ▸ checked
  | copy statement known =>
      refine { h with checked := fun s member => ?_ }
      rcases List.mem_append.1 member with old | new
      · exact h.checked s old
      · exact List.mem_singleton.1 new ▸ h.checked statement known
  | set before statement after index value statement' known ok =>
      have all := h.checked
      refine { h with checked := ?_ }
      simp only [known, List.mem_append, List.mem_cons] at all ⊢
      rintro s (earlier | rfl | later)
      · exact all s (.inl earlier)
      · exact ((all statement (.inr (.inl rfl))).setParameter ok).1
      · exact all s (.inr (.inr later))
  | patch => exact { h with }
  | execute statement store known ok =>
      obtain ⟨write, ⟨params, full⟩, accepted⟩ := QueuedStore.execute_ok ok
      obtain ⟨b, bound⟩ := (h.checked statement known).boundWrite write full
      have same : (WriteJob.execute statement).change? = some (.write b) := by
        simp only [WriteJob.change?, bound]
      exact h.issue (QueuedStore.accept_gate accepted) same
  | apply b store known proxied ok =>
      have behind : w.store.settings.proxied = true := proxied
      rw [QueuedStore.applyWrite, if_pos behind] at ok
      exact h.issue (QueuedStore.accept_gate ok) rfl
  | purge agent store ok => exact h.issue (QueuedStore.accept_gate (QueuedStore.purge_accept ok)) rfl
  | save name source gate =>
      have step : Desk.Step (fun _ => True) FileJob.run w.files w.delegate
        (w.files.enter (.submit ⟨name, source⟩)) w.delegate := .enter _ trivial gate
      exact { h with files := h.files.step step }
  | askDirectly statement known unproxied =>
      refine h.ask ?_
      simp only [QueuedStore.executeQuery, Site.store, QueuedStore.settings_ofDesks, unproxied,
        Bool.false_eq_true, if_false, QueuedStore.delegate_ofDesks, MemoryStore.executeQuery,
        Question.rows]
      cases statement.boundQuery <;> rfl
  | askPatched q => exact h.ask rfl
  | atWrites writes delegate step => exact h.atWrites step
  | atFiles files delegate step => exact h.atFiles step
  | shutDown first => exact { h with }
  | giveUp => exact { h with }

theorem Leads.faithful (h : w.Leads w') (faithful : w.Faithful start) : w'.Faithful start := by
  induction h with
  | here => exact faithful
  | step _ next ih => exact ih.step next

/-! ## What came back is seen first -/

/-- A change whose call has returned is among the accepted ones. -/
theorem Faithful.returned_accepted (h : w.Faithful start) {a : Nat} {c : Change}
    (returned : a ∈ w.writes.returned) (issued : w.issued.lookup a = some c) :
    (a, c) ∈ w.accepted := by
  obtain ⟨task, accepted, rfl⟩ := List.mem_map.1 (h.writes.tallied.mem_returned returned)
  refine List.mem_filterMap.2 ⟨task, accepted, ?_⟩
  cases task with
  | mark n =>
      have nothing := h.marks n (List.mem_append_left _ accepted)
      exact absurd (issued.symm.trans nothing) (by simp)
  | job ticketed => exact congrArg (Option.map _) issued

theorem Faithful.accepted_lt (h : w.Faithful start) {b : Nat} {d : Change}
    (accepted : (b, d) ∈ w.accepted) : b < w.writes.calls := by
  obtain ⟨task, member, made⟩ := List.mem_filterMap.1 accepted
  have drawn := h.writes.tallied.ticket_lt (List.mem_append_left _ member)
  cases task with
  | mark => simp [Task.change?] at made
  | job ticketed =>
      cases found : w.issued.lookup ticketed.1 <;> simp_all [Task.change?, Task.ticket]

/-- Whoever sees a change sees before it every change whose call had returned when the
call of this one began. -/
theorem Faithful.seen_before (h : w.Faithful start) (grows : w.Grows w') {a b n : Nat}
    {c d : Change} (returned : a ∈ w.writes.returned) (issued : w.issued.lookup a = some c)
    (later : w.writes.calls ≤ b) (seen : (b, d) ∈ w'.accepted.take n) :
    ∃ before after, w'.accepted.take n = before ++ (b, d) :: after ∧ (a, c) ∈ before := by
  have accepted := h.returned_accepted returned issued
  obtain ⟨⟨rest, same⟩, _⟩ := grows.accepted h
  rw [← same, List.take_append] at seen ⊢
  rcases List.mem_append.1 seen with early | late
  · have soon := h.accepted_lt (List.mem_of_mem_take early)
    omega
  · obtain ⟨first, after, parts⟩ := List.append_of_mem late
    have long : w.accepted.length ≤ n := by
      refine Nat.le_of_not_lt fun short => ?_
      rw [Nat.sub_eq_zero_of_le (Nat.le_of_lt short)] at late
      simp at late
    refine ⟨w.accepted ++ first, after, ?_, List.mem_append_left _ accepted⟩
    rw [parts, List.take_of_length_le long, List.append_assoc]

/-- At every moment the tables behind the queue are what the first of the accepted changes
make of the tables at the start, in their order, and the files are what the first of the
accepted savings make of the files. How many these are never decreases, and neither
what was accepted nor what was written down is altered later. A job stands for the
change that was written down when its call was made. Every answer is that of the
tables after a number of accepted changes that grows from answer to answer, and
of two changes of which the first had returned when the second was called for,
nobody sees the second without the first before it. What the queued store does with a call
or a turn in one go is a run of the site. -/
theorem tables_are_a_prefix_of_the_accepted (reached : (new settings start).Leads w)
    (later : w.Leads w') :
    (w.delegate.tables = changed start.tables (w.accepted.take w.applied) ∧
      w.applied ≤ w.accepted.length ∧
      w.delegate.files = (w.saves.take w.saved).foldl FileJob.saveTo start.files ∧
      w.saved ≤ w.saves.length) ∧
    (w.applied ≤ w'.applied ∧ w.accepted <+: w'.accepted ∧ w.issued <+: w'.issued ∧
      w.saved ≤ w'.saved ∧ w.saves <+: w'.saves) ∧
    (∀ ticket j, .job (ticket, j) ∈ w.writes.accepted → ∃ change, j.change? = some change ∧
      w.issued.lookup ticket = some change ∧ (ticket, change) ∈ w.accepted) ∧
    ((∀ a ∈ w.answers, a.applied ≤ w.applied ∧ a.cursor =
        (a.question.rows (changed start.tables (w.accepted.take a.applied))).map .ofRecords) ∧
      w.answers.Pairwise fun a b => a.applied ≤ b.applied) ∧
    (∀ a b c d n, a ∈ w.writes.returned → w.issued.lookup a = some c → w.writes.calls ≤ b →
      (b, d) ∈ w'.accepted.take n →
      ∃ before after, w'.accepted.take n = before ++ (b, d) :: after ∧ (a, c) ∈ before) ∧
    w.Mirrors := by
  have faithful := reached.faithful (faithful_new settings start)
  have grows := later.grows
  obtain ⟨accepted, applied⟩ := grows.accepted faithful
  obtain ⟨saves, saved⟩ := grows.saves
  refine ⟨⟨?_, ?_, ?_, ?_⟩, ⟨applied, accepted, grows.issued, saved, saves⟩, ?_, ⟨?_, faithful.ordered⟩,
    fun a b c d n => faithful.seen_before grows, w.mirrors⟩
  · rw [faithful.take_applied, faithful.tables]
  · exact (faithful.writes.finished_accepted.filterMap _).length_le
  · rw [faithful.take_saved, faithful.saved]
  · exact (faithful.files.finished_accepted.filterMap _).length_le
  · intro ticket j member
    obtain ⟨change, same, found⟩ := faithful.known_accepted _ member
    refine ⟨change, same, found, List.mem_filterMap.2 ⟨_, member, ?_⟩⟩
    simp only [Task.change?, found, Option.map_some]
  · intro a member
    obtain ⟨soon, explained⟩ := faithful.answers a member
    exact ⟨soon, explained.cursor⟩

def colours : Category := ⟨"colours", [⟨"colour", .scalar .string⟩], []⟩

def addColour : Descriptor.Compiled :=
  { descriptor := "ADD colours SET 'colour' = ?s", category := "colours", kind := .write .add,
    signature := [.scalar .string], assignments := [(⟨"colour", .scalar .string⟩, .parameter 0)],
    condition := none, sort := [], limit := none }

/-- A store with the category registered and the write compiled. -/
def palette : MemoryStore :=
  { MemoryStore.empty with
    tables := Dict.empty.insert "colours" ⟨colours.keys, []⟩
    cache := ⟨[⟨0, .of colours addColour.descriptor, addColour⟩]⟩ }

theorem palette_prepare :
    Store.prepare (new .standard palette).store colours addColour.descriptor =
      .ok (.ofCompiled addColour, (new .standard palette).store) := by
  simp [Store.prepare, MemoryStore.prepare, Descriptor.Cache.getOrCompile, Descriptor.Cache.find?,
    palette, new, store, QueuedStore.ofDesks, Except.map]

/-- One statement is run twice, with its value bound anew in between. The first write has
returned before the second is called for, and only the first is made when a
client asks. -/
theorem rebound_write_is_seen_as_it_was : ∃ w w', (new .standard palette).Leads w ∧ w.Leads w' ∧
    w.writes.returned = [0] ∧ w'.accepted.map Prod.fst = [0, 1] ∧ w'.applied = 1 ∧
    w.accepted <+: w'.accepted ∧
    w'.delegate.tables = changed palette.tables (w'.accepted.take w'.applied) ∧
    ∃ a ∈ w'.answers, a.cursor =
      (a.question.rows (changed palette.tables (w'.accepted.take a.applied))).map .ofRecords := by
  let red : Prepared := ⟨addColour, [some (.string "red")]⟩
  let blue : Prepared := ⟨addColour, [some (.string "blue")]⟩
  have onward {w w' : Site} (_ : w.Leads w') : w'.Leads w' := .here
  have prepared : (new .standard palette).Leads _ :=
    .step .here (.prepare colours addColour.descriptor (.ofCompiled addColour) _ palette_prepare)
  have first := prepared.step (.set [] _ [] 0 (.string "red") red rfl rfl)
  have called := first.step (.execute red _ (List.mem_singleton_self _) rfl)
  have w := called.movesAtWrites [.advance 0, .advance 0, .advance 0]
  have rebound := (onward w).step (.set [] red [] 0 (.string "blue") blue rfl rfl)
  have again := rebound.step (.execute blue _ (List.mem_singleton_self _) rfl)
  have made := again.movesAtWrites [.advance 0, .advance 0, .turn, .turn]
  have w' := made.step (.askPatched ⟨"colours", .select, none, [], none⟩)
  obtain ⟨_, ⟨_, grown, _⟩, _⟩ := tables_are_a_prefix_of_the_accepted w w'
  obtain ⟨⟨tables, _⟩, _, _, ⟨answers, _⟩, _⟩ :=
    tables_are_a_prefix_of_the_accepted (w.trans w') .here
  refine ⟨_, _, w, w', ?_, ?_, ?_, grown, tables, ?_⟩
  · decide +kernel
  · decide +kernel
  · decide +kernel
  · exact ⟨_, List.mem_singleton_self _, (answers _ (List.mem_singleton_self _)).2⟩

end Site

end FleetStore
