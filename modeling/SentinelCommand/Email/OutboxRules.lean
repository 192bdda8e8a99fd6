import SentinelCommand.Email.Worker

/-
  What the statements of the worker do to one row of the
  outbox, and that the rows a tick holds in memory are the
  rows of the table.

  Main declarations:
    * `Email.find_update`, `Email.find_enqueue`
    * `Email.Held`
    * `Email.held_stepWorker`
-/

--------------------
-- Rows of the Outbox
--------------------

namespace SentinelCommand

namespace Email

theorem id_of_find
    {outbox : Outbox}
    {id : Nat}
    {row : OutboxRow}
    (hFind : outbox.find id = some row) :
    row.id = id := by
  have hSame := List.find?_some hFind
  exact eq_of_beq hSame

theorem mem_of_find
    {outbox : Outbox}
    {id : Nat}
    {row : OutboxRow}
    (hFind : outbox.find id = some row) :
    row ∈ outbox.rows :=
  List.mem_of_find?_eq_some hFind

/- The first row of an id is the only one. -/
theorem find_of_mem
    {outbox : Outbox}
    {row : OutboxRow}
    (hMem : row ∈ outbox.rows) :
    outbox.find row.id = some row := by
  cases hFind : outbox.find row.id with
  | none =>
      have hNone := List.find?_eq_none.mp hFind row hMem
      exact absurd (beq_self_eq_true row.id) hNone
  | some other =>
      have hSame :=
        List.inj_on_of_nodup_map outbox.unique
          (mem_of_find hFind) hMem (id_of_find hFind)
      rw [hSame]

theorem find_fresh (outbox : Outbox) :
    outbox.find outbox.nextId = none := by
  apply List.find?_eq_none.mpr
  intro row hRow hSame
  have hBelow := outbox.fresh row hRow
  have hId : row.id = outbox.nextId := eq_of_beq hSame
  omega

theorem find_update
    (outbox : Outbox)
    (keeps : OutboxRow → Bool)
    (set : OutboxRow → OutboxRow)
    (id : Nat) :
    (outbox.update keeps set).find id =
      (outbox.find id).map (updated keeps set) := by
  unfold Outbox.find Outbox.update
  dsimp only
  rw [List.find?_map]
  have hSame :
      ((fun row : OutboxRow => row.id == id) ∘
          updated keeps set) =
        (fun row => row.id == id) := by
    funext row
    simp only [Function.comp_apply, updated_id]
  rw [hSame]

theorem updated_of_keeps
    {keeps : OutboxRow → Bool}
    {set : OutboxRow → OutboxRow}
    {row : OutboxRow}
    (hKeeps : keeps row = true) :
    updated keeps set row = { set row with id := row.id } :=
  if_pos hKeeps

theorem updated_of_not
    {keeps : OutboxRow → Bool}
    {set : OutboxRow → OutboxRow}
    {row : OutboxRow}
    (hKeeps : keeps row = false) :
    updated keeps set row = row := by
  unfold updated
  rw [hKeeps]
  rfl

theorem find_enqueue
    (outbox : Outbox)
    (new : NewEmail)
    (now : Int)
    (id : Nat) :
    (outbox.enqueue new now).find id =
      if id = outbox.nextId then
        some (new.row outbox.nextId now)
      else
        outbox.find id := by
  unfold Outbox.find Outbox.enqueue
  dsimp only
  rw [List.find?_append]
  split
  · rename_i hNew
    have hNone :
        outbox.rows.find? (fun row => row.id == id) = none := by
      rw [hNew]
      exact find_fresh outbox
    rw [hNone, Option.none_or, List.find?_singleton]
    exact if_pos (beq_iff_eq.mpr hNew.symm)
  · rename_i hOld
    have hOther :
        [new.row outbox.nextId now].find?
            (fun row => row.id == id) = none := by
      apply List.find?_eq_none.mpr
      intro row hRow hSame
      rw [List.mem_singleton.mp hRow] at hSame
      exact hOld (eq_of_beq hSame).symm
    rw [hOther, Option.or_none]

/- Enqueuing leaves what is found. -/
theorem find_enqueue_of_some
    {outbox : Outbox}
    {id : Nat}
    {row : OutboxRow}
    (new : NewEmail)
    (now : Int)
    (hFind : outbox.find id = some row) :
    (outbox.enqueue new now).find id = some row := by
  rw [find_enqueue, if_neg, hFind]
  rintro rfl
  rw [find_fresh] at hFind
  contradiction

--------------------
-- Rows in Memory
--------------------

/- The rows a tick has yet to store an outcome of. -/
def Phase.todo : Phase → List OutboxRow
| .fetched batch => batch
| .draining todo => todo
| .mailing row rest => row :: rest
| .processed row rest _ _ => row :: rest
| .finalized _ rest _ _ => rest
| _ => []

/- The status these rows have in the table. -/
def Phase.heldStatus : Phase → Status
| .fetched _ => .pending
| _ => .sending

/- A row in memory, beside the stored one. -/
structure HeldRow
    (outbox : Outbox)
    (status : Status)
    (row : OutboxRow) : Prop where
  found :
    ∃ stored, outbox.find row.id = some stored ∧
      stored.attempts = row.attempts ∧ stored.status = status

/- No row is held twice, and each is as it was read. -/
structure Held (s : Worker) : Prop where
  distinct : (s.phase.todo.map OutboxRow.id).Nodup
  rows :
    ∀ row ∈ s.phase.todo,
      HeldRow s.outbox s.phase.heldStatus row

theorem held_of_nil
    {s : Worker}
    (hNone : s.phase.todo = []) :
    Held s := by
  constructor
  · rw [hNone]
    exact List.nodup_nil
  · intro row hRow
    rw [hNone] at hRow
    exact absurd hRow List.not_mem_nil

theorem mem_pendingBatch
    {config : WorkerConfig}
    {outbox : Outbox}
    {row : OutboxRow}
    (hMem : row ∈ pendingBatch config outbox) :
    row ∈ outbox.rows ∧ row.status = .pending := by
  have hSorted := List.mem_of_mem_take hMem
  rw [List.mem_insertionSort] at hSorted
  rcases List.mem_filter.mp hSorted with ⟨hRow, hPending⟩
  exact ⟨hRow, eq_of_beq hPending⟩

theorem nodup_pendingBatch
    (config : WorkerConfig)
    (outbox : Outbox) :
    ((pendingBatch config outbox).map OutboxRow.id).Nodup := by
  have hFiltered :
      ((outbox.rows.filter
        (fun row => row.status == .pending)).map
          OutboxRow.id).Nodup :=
    outbox.unique.sublist (List.filter_sublist.map _)
  have hSorted :=
    (List.perm_insertionSort
      (fun a b => queuedBefore a b = true)
      (outbox.rows.filter
        (fun row => row.status == .pending))).map OutboxRow.id
  have hAll := hSorted.nodup_iff.mpr hFiltered
  unfold pendingBatch
  rw [List.map_take]
  exact hAll.sublist (List.take_sublist _ _)

theorem held_fetchBatch
    (config : WorkerConfig)
    (s : Worker) :
    Held (fetchBatch config s) := by
  unfold fetchBatch
  dsimp only
  split
  · exact held_of_nil rfl
  · constructor
    · exact nodup_pendingBatch config s.outbox
    · intro row hRow
      rcases mem_pendingBatch hRow with ⟨hMem, hPending⟩
      exact ⟨row, find_of_mem hMem, rfl, hPending⟩

theorem contains_id
    {row : OutboxRow}
    {batch : List OutboxRow}
    (hRow : row ∈ batch) :
    (batch.map OutboxRow.id).contains row.id = true :=
  List.contains_iff_mem.mpr (List.mem_map_of_mem hRow)

theorem held_claimBatch
    {s : Worker}
    {batch : List OutboxRow}
    (hPhase : s.phase = .fetched batch)
    (hHeld : Held s) :
    Held (claimBatch s batch) := by
  have hTodo : s.phase.todo = batch := by
    rw [hPhase]
    rfl
  constructor
  · have hDistinct := hHeld.distinct
    rw [hTodo] at hDistinct
    exact hDistinct
  · intro row hRow
    have hOld := hHeld.rows row (by rw [hTodo]; exact hRow)
    rcases hOld.found with ⟨stored, hFind, hAttempts, _⟩
    have hKeeps :
        (batch.map OutboxRow.id).contains stored.id = true := by
      rw [id_of_find hFind]
      exact contains_id hRow
    refine ⟨{ toSending s.clock stored with id := stored.id },
      ?_, hAttempts, rfl⟩
    unfold claimBatch
    rw [find_update, hFind, Option.map_some,
      updated_of_keeps hKeeps]

/- A row keeps its place when nothing of it is touched. -/
theorem heldRow_of_find
    {outbox outbox' : Outbox}
    {status : Status}
    {row : OutboxRow}
    (hSame :
      ∀ stored, outbox.find row.id = some stored →
        outbox'.find row.id = some stored)
    (hRow : HeldRow outbox status row) :
    HeldRow outbox' status row := by
  rcases hRow.found with ⟨stored, hFind, hRest⟩
  exact ⟨stored, hSame stored hFind, hRest⟩

/- Storing one outcome leaves the other rows. -/
theorem find_storeRow_other
    {config : WorkerConfig}
    {s : Worker}
    {row : OutboxRow}
    {rest : List OutboxRow}
    {outcome : Processed}
    {id : Nat}
    {stored : OutboxRow}
    (hOther : id ≠ row.id)
    (hFind : s.outbox.find id = some stored) :
    (storeRow config s row rest outcome).outbox.find id =
      some stored := by
  have hKeeps : (stored.id == row.id) = false := by
    rw [id_of_find hFind]
    exact beq_false_of_ne hOther
  unfold storeRow finalizeRow
  dsimp only
  rw [find_update, hFind, Option.map_some]
  exact congrArg some (updated_of_not hKeeps)

theorem find_storeRow_same
    {config : WorkerConfig}
    {s : Worker}
    {row : OutboxRow}
    {rest : List OutboxRow}
    {outcome : Processed}
    {stored : OutboxRow}
    (hFind : s.outbox.find row.id = some stored) :
    (storeRow config s row rest outcome).outbox.find row.id =
      some
        { finalColumns config row outcome s.clock stored with
          id := stored.id } := by
  have hKeeps : (stored.id == row.id) = true := by
    rw [id_of_find hFind]
    exact beq_self_eq_true row.id
  unfold storeRow finalizeRow
  dsimp only
  rw [find_update, hFind, Option.map_some]
  exact congrArg some (updated_of_keeps hKeeps)

theorem held_storeRow
    {config : WorkerConfig}
    {s : Worker}
    {row : OutboxRow}
    {rest : List OutboxRow}
    {outcome : Processed}
    {mailed : Bool}
    (hPhase : s.phase = .processed row rest outcome mailed)
    (hHeld : Held s) :
    Held (storeRow config s row rest outcome) := by
  have hTodo : s.phase.todo = row :: rest := by
    rw [hPhase]
    rfl
  have hDistinct := hHeld.distinct
  rw [hTodo, List.map_cons, List.nodup_cons] at hDistinct
  constructor
  · exact hDistinct.2
  · intro other hOther
    have hId : other.id ≠ row.id := by
      intro hSame
      apply hDistinct.1
      rw [← hSame]
      exact List.mem_map_of_mem hOther
    have hOld :=
      hHeld.rows other
        (by rw [hTodo]; exact List.mem_cons_of_mem row hOther)
    rw [hPhase] at hOld
    exact heldRow_of_find
      (fun stored hFind => find_storeRow_other hId hFind) hOld

/- A step that keeps the table, and the rows still to do. -/
theorem held_of_same
    {s s' : Worker}
    (hHeld : Held s)
    (hOutbox : s'.outbox = s.outbox)
    (hTodo : s'.phase.todo = s.phase.todo)
    (hStatus : s'.phase.heldStatus = s.phase.heldStatus) :
    Held s' := by
  constructor
  · rw [hTodo]
    exact hHeld.distinct
  · rw [hTodo, hStatus, hOutbox]
    exact hHeld.rows

theorem held_beginRow
    {toLowercase : String → String}
    {queryOk : Bool}
    {s : Worker}
    {row : OutboxRow}
    {rest : List OutboxRow}
    (hPhase : s.phase = .draining (row :: rest))
    (hHeld : Held s) :
    Held (beginRow toLowercase queryOk s row rest) := by
  unfold beginRow
  split
  · exact held_of_same hHeld rfl (by rw [hPhase]; rfl)
      (by rw [hPhase]; rfl)
  · exact held_of_same hHeld rfl (by rw [hPhase]; rfl)
      (by rw [hPhase]; rfl)

theorem held_runOneTick
    {config : WorkerConfig}
    {toLowercase : String → String}
    {s : Worker}
    (answers : Answers)
    (hHeld : Held s) :
    Held (runOneTick config toLowercase answers s) := by
  unfold runOneTick
  cases hPhase : s.phase with
  | idle => exact held_of_nil rfl
  | reclaimed => exact held_fetchBatch config s
  | fetched batch => exact held_claimBatch hPhase hHeld
  | draining todo =>
      cases todo with
      | nil => exact held_of_nil rfl
      | cons row rest => exact held_beginRow hPhase hHeld
  | mailing row rest =>
      exact held_of_same hHeld rfl (by rw [hPhase]; rfl)
        (by rw [hPhase]; rfl)
  | processed row rest outcome mailed =>
      exact held_storeRow hPhase hHeld
  | finalized row rest outcome ended =>
      exact held_of_same hHeld rfl (by rw [hPhase]; rfl)
        (by rw [hPhase]; rfl)

theorem held_stepWorker
    {config : WorkerConfig}
    {toLowercase : String → String}
    (s : Worker)
    (event : WorkerEvent)
    (hHeld : Held s) :
    Held (stepWorker config toLowercase s event) := by
  cases event with
  | advance answers => exact held_runOneTick answers hHeld
  | cut => exact held_of_nil rfl
  | enqueue new =>
      refine ⟨hHeld.distinct, ?_⟩
      intro row hRow
      exact heldRow_of_find
        (fun stored hFind =>
          find_enqueue_of_some new s.clock hFind)
        (hHeld.rows row hRow)
  | suppress rows => exact ⟨hHeld.distinct, hHeld.rows⟩
  | pass span => exact ⟨hHeld.distinct, hHeld.rows⟩

--------------------
-- One Row over One Step
--------------------

/-
  What a step can do to one row: put it back, claim it for
  the batch, or store the outcome of the row being worked on.
-/
inductive RowStep
    (config : WorkerConfig)
    (s s' : Worker) :
    OutboxRow → OutboxRow → Prop where
  | same
      (row : OutboxRow)
      (hStored :
        s'.stored.count row.id = s.stored.count row.id) :
      RowStep config s s' row row
  | reclaim
      {row : OutboxRow}
      (hSending : row.status = .sending)
      (hPhase : s.phase = .idle)
      (hStored : s'.stored = s.stored) :
      RowStep config s s' row { row with status := .pending }
  | claim
      {row : OutboxRow}
      {batch : List OutboxRow}
      (hPending : row.status = .pending)
      (hPhase : s.phase = .fetched batch)
      (hBatch : row.id ∈ batch.map OutboxRow.id)
      (hStored : s'.stored = s.stored) :
      RowStep config s s' row (toSending s.clock row)
  | store
      {row held : OutboxRow}
      {rest : List OutboxRow}
      {outcome : Processed}
      {mailed : Bool}
      (hSending : row.status = .sending)
      (hPhase : s.phase = .processed held rest outcome mailed)
      (hId : row.id = held.id)
      (hAttempts : row.attempts = held.attempts)
      (hStored : s'.stored = s.stored ++ [row.id])
      (hAfter : s' = storeRow config s held rest outcome) :
      RowStep config s s' row
        { finalColumns config held outcome s.clock row with
          id := row.id }

theorem rowStep_beginTick
    {config : WorkerConfig}
    {s : Worker}
    {id : Nat}
    {row : OutboxRow}
    (hPhase : s.phase = .idle)
    (hFind : s.outbox.find id = some row) :
    ∃ row', (beginTick s).outbox.find id = some row' ∧
      RowStep config s (beginTick s) row row' := by
  have hFound :
      (beginTick s).outbox.find id =
        some
          (updated
            (stuck
              (s.clock - seconds sendingReclaimAgeSeconds))
            toPending row) := by
    unfold beginTick
    dsimp only
    rw [find_update, hFind, Option.map_some]
  refine ⟨_, hFound, ?_⟩
  by_cases hStuck :
      stuck (s.clock - seconds sendingReclaimAgeSeconds)
        row = true
  · have hSending : row.status = .sending := by
      unfold stuck at hStuck
      rw [Bool.and_eq_true] at hStuck
      exact eq_of_beq hStuck.1
    rw [updated_of_keeps hStuck]
    exact RowStep.reclaim hSending hPhase rfl
  · rw [updated_of_not (Bool.eq_false_iff.mpr hStuck)]
    exact RowStep.same row rfl

theorem rowStep_claimBatch
    {config : WorkerConfig}
    {s : Worker}
    {batch : List OutboxRow}
    {id : Nat}
    {row : OutboxRow}
    (hPhase : s.phase = .fetched batch)
    (hHeld : Held s)
    (hFind : s.outbox.find id = some row) :
    ∃ row', (claimBatch s batch).outbox.find id = some row' ∧
      RowStep config s (claimBatch s batch) row row' := by
  have hFound :
      (claimBatch s batch).outbox.find id =
        some
          (updated
            (fun row =>
              (batch.map OutboxRow.id).contains row.id)
            (toSending s.clock) row) := by
    unfold claimBatch
    dsimp only
    rw [find_update, hFind, Option.map_some]
  refine ⟨_, hFound, ?_⟩
  by_cases hBatch :
      (batch.map OutboxRow.id).contains row.id = true
  · have hMem : row.id ∈ batch.map OutboxRow.id :=
      List.contains_iff_mem.mp hBatch
    have hPending : row.status = .pending := by
      rcases List.mem_map.mp hMem with ⟨held, hIn, hSame⟩
      have hRow :=
        hHeld.rows held (by rw [hPhase]; exact hIn)
      rcases hRow.found with ⟨stored, hStored, _, hStatus⟩
      rw [hSame, id_of_find hFind, hFind] at hStored
      rw [Option.some.inj hStored, hStatus, hPhase]
      rfl
    rw [updated_of_keeps hBatch]
    exact RowStep.claim hPending hPhase hMem rfl
  · rw [updated_of_not (Bool.eq_false_iff.mpr hBatch)]
    exact RowStep.same row rfl

/- The row being worked on is in the table, and open. -/
theorem found_of_processed
    {s : Worker}
    {held : OutboxRow}
    {rest : List OutboxRow}
    {outcome : Processed}
    {mailed : Bool}
    (hPhase : s.phase = .processed held rest outcome mailed)
    (hHeld : Held s) :
    ∃ row, s.outbox.find held.id = some row ∧
      row.attempts = held.attempts ∧ row.status = .sending := by
  have hRow :=
    hHeld.rows held (by rw [hPhase]; exact List.mem_cons_self)
  rw [hPhase] at hRow
  exact hRow.found

theorem rowStep_storeRow
    {config : WorkerConfig}
    {s : Worker}
    {held : OutboxRow}
    {rest : List OutboxRow}
    {outcome : Processed}
    {mailed : Bool}
    {id : Nat}
    {row : OutboxRow}
    (hPhase : s.phase = .processed held rest outcome mailed)
    (hHeld : Held s)
    (hFind : s.outbox.find id = some row) :
    ∃ row',
      (storeRow config s held rest outcome).outbox.find id =
        some row' ∧
      RowStep config s (storeRow config s held rest outcome)
        row row' := by
  by_cases hSame : id = held.id
  · subst hSame
    rcases found_of_processed hPhase hHeld with
      ⟨stored, hStored, hAttempts, hStatus⟩
    rw [hFind] at hStored
    rw [← Option.some.inj hStored] at hAttempts hStatus
    have hId := id_of_find hFind
    have hCount :
        (storeRow config s held rest outcome).stored =
          s.stored ++ [row.id] := by
      rw [hId]
      rfl
    exact ⟨_, find_storeRow_same hFind,
      RowStep.store hStatus hPhase hId hAttempts hCount rfl⟩
  · have hOther : held.id ≠ row.id := by
      rw [id_of_find hFind]
      exact Ne.symm hSame
    have hCount :
        (storeRow config s held rest outcome).stored.count
            row.id =
          s.stored.count row.id := by
      simp only [storeRow, List.count_append]
      rw [List.count_singleton, if_neg (by simpa using hOther),
        Nat.add_zero]
    exact ⟨row, find_storeRow_other hSame hFind,
      RowStep.same row hCount⟩

/- A row stays in the table, and changes by one of these. -/
theorem rowStep_stepWorker
    {config : WorkerConfig}
    {toLowercase : String → String}
    {s : Worker}
    {id : Nat}
    {row : OutboxRow}
    (event : WorkerEvent)
    (hHeld : Held s)
    (hFind : s.outbox.find id = some row) :
    ∃ row',
      (stepWorker config toLowercase s event).outbox.find id =
        some row' ∧
      RowStep config s (stepWorker config toLowercase s event)
        row row' := by
  cases event with
  | cut => exact ⟨row, hFind, RowStep.same row rfl⟩
  | suppress rows => exact ⟨row, hFind, RowStep.same row rfl⟩
  | pass span => exact ⟨row, hFind, RowStep.same row rfl⟩
  | enqueue new =>
      exact ⟨row, find_enqueue_of_some new s.clock hFind,
        RowStep.same row rfl⟩
  | advance answers =>
      simp only [stepWorker]
      unfold runOneTick
      cases hPhase : s.phase with
      | idle => exact rowStep_beginTick hPhase hFind
      | reclaimed => exact ⟨row, hFind, RowStep.same row rfl⟩
      | fetched batch =>
          exact rowStep_claimBatch hPhase hHeld hFind
      | draining todo =>
          cases todo with
          | nil => exact ⟨row, hFind, RowStep.same row rfl⟩
          | cons held rest =>
              dsimp only
              unfold beginRow
              split
              · exact ⟨row, hFind, RowStep.same row rfl⟩
              · exact ⟨row, hFind, RowStep.same row rfl⟩
      | mailing held rest =>
          exact ⟨row, hFind, RowStep.same row rfl⟩
      | processed held rest outcome mailed =>
          exact rowStep_storeRow hPhase hHeld hFind
      | finalized held rest outcome ended =>
          exact ⟨row, hFind, RowStep.same row rfl⟩

/- A step enqueues a row, or at most updates some. -/
theorem outbox_stepWorker
    (config : WorkerConfig)
    (toLowercase : String → String)
    (s : Worker)
    (event : WorkerEvent) :
    (∃ new, event = .enqueue new) ∨
      (stepWorker config toLowercase s event).outbox =
          s.outbox ∨
        ∃ keeps set,
          (stepWorker config toLowercase s event).outbox =
            s.outbox.update keeps set := by
  cases event with
  | enqueue new => exact Or.inl ⟨new, rfl⟩
  | cut => exact Or.inr (Or.inl rfl)
  | suppress rows => exact Or.inr (Or.inl rfl)
  | pass span => exact Or.inr (Or.inl rfl)
  | advance answers =>
      right
      simp only [stepWorker]
      unfold runOneTick
      cases s.phase with
      | idle => exact Or.inr ⟨_, _, rfl⟩
      | fetched batch => exact Or.inr ⟨_, _, rfl⟩
      | processed row rest outcome mailed =>
          exact Or.inr ⟨_, _, rfl⟩
      | draining todo =>
          left
          cases todo with
          | nil => rfl
          | cons row rest =>
              dsimp only
              unfold beginRow
              split <;> rfl
      | _ => exact Or.inl rfl

/- A row that is there now was there, or was enqueued. -/
theorem find_some_before
    {config : WorkerConfig}
    {toLowercase : String → String}
    {s : Worker}
    {id : Nat}
    {row' : OutboxRow}
    (event : WorkerEvent)
    (hHeld : Held s)
    (hFind' :
      (stepWorker config toLowercase s event).outbox.find id =
        some row') :
    (∃ row, s.outbox.find id = some row ∧
      RowStep config s
        (stepWorker config toLowercase s event) row row') ∨
    s.outbox.find id = none ∧
      ∃ new,
        event = .enqueue new ∧ row' = new.row id s.clock := by
  cases hFind : s.outbox.find id with
  | some row =>
      rcases rowStep_stepWorker event hHeld hFind with
        ⟨row'', hFind'', hStep⟩
      rw [hFind''] at hFind'
      rw [Option.some.inj hFind'] at hStep
      exact Or.inl ⟨row, rfl, hStep⟩
  | none =>
      right
      refine ⟨rfl, ?_⟩
      rcases outbox_stepWorker config toLowercase s event with
        ⟨new, rfl⟩ | hSame | ⟨keeps, set, hUpdate⟩
      · simp only [stepWorker] at hFind'
        rw [find_enqueue, hFind] at hFind'
        split at hFind'
        · rename_i hNew
          refine ⟨new, rfl, ?_⟩
          rw [hNew]
          exact (Option.some.inj hFind').symm
        · contradiction
      · rw [hSame, hFind] at hFind'
        contradiction
      · rw [hUpdate, find_update, hFind] at hFind'
        contradiction

/- No row leaves the table. -/
theorem find_none_before
    {config : WorkerConfig}
    {toLowercase : String → String}
    {s : Worker}
    {id : Nat}
    (event : WorkerEvent)
    (hHeld : Held s)
    (hNone :
      (stepWorker config toLowercase s event).outbox.find id =
        none) :
    s.outbox.find id = none := by
  cases hFind : s.outbox.find id with
  | none => rfl
  | some row =>
      rcases rowStep_stepWorker event hHeld hFind with
        ⟨row', hFind', _⟩
      rw [hNone] at hFind'
      contradiction

/- A step leaves a row with a terminal status as it is. -/
theorem find_terminal
    {config : WorkerConfig}
    {toLowercase : String → String}
    {s : Worker}
    {id : Nat}
    {row : OutboxRow}
    (event : WorkerEvent)
    (hHeld : Held s)
    (hFind : s.outbox.find id = some row)
    (hTerminal : row.status.isTerminal = true) :
    (stepWorker config toLowercase s event).outbox.find id =
      some row := by
  rcases rowStep_stepWorker event hHeld hFind with
    ⟨row', hFind', hStep⟩
  cases hStep with
  | same => exact hFind'
  | reclaim hSending =>
      rw [hSending] at hTerminal
      contradiction
  | claim hPending =>
      rw [hPending] at hTerminal
      contradiction
  | store hSending =>
      rw [hSending] at hTerminal
      contradiction

end Email

end SentinelCommand
