import SentinelCommand.Sync.PushTable

/-
  Which interruptions of `push_table` the mirror survives.

  Within a cycle the page key only grows past pushed rows.
  A cycle that is cut short leaves the two settings rows
  behind, and the next one resumes from them: nothing is
  skipped as long as every row past the last pushed key is
  also past the saved pair. A new cursor saved with an old
  or absent id breaks that on a tie.

  Main declarations:
    * `Sync.KeepsPlace`
    * `Sync.sent_of_keepsPlace`
    * `Sync.tied_row_is_skipped`
-/

--------------------
-- Batches
--------------------

namespace SentinelCommand

namespace Sync

variable {ι : Type} [LinearOrder ι]
variable {table : Table ι} {state : State ι}
variable {cycle : Cycle ι}

/- A batch finds nothing, ends the cycle or goes on. -/
theorem batch_cases
    (table : Table ι)
    (hRunning : state.running = some cycle)
    (cursorSaved idSaved : Bool) :
    ((∀ row ∈ table.rows, row.past cycle.key = true →
      cycle.settled ≤ row.effective) ∧
      step table state (.batch cursorSaved idSaved) =
        { state with running := none }) ∨
    ∃ last, last ∈ page table cycle.key cycle.settled ∧
      step table state (.batch cursorSaved idSaved) =
        { saved := save state.saved last cursorSaved idSaved
          running :=
            if (page table cycle.key cycle.settled).length <
                batchSize then
              none
            else
              some { cycle with key := last.pageKey }
          sent :=
            state.sent ++
              page table cycle.key cycle.settled } := by
  cases hLast :
      (page table cycle.key cycle.settled).getLast? with
  | none =>
      refine Or.inl ⟨?_, ?_⟩
      · intro row hMem hPast
        have hNone :=
          (Paging.page_eq_nil_iff (by decide)).mp
            (List.getLast?_eq_none_iff.mp hLast) row hMem
        simp only [Bool.and_eq_false_iff,
          decide_eq_false_iff_not] at hNone
        rcases hNone with hBehind | hYoung
        · rw [hPast] at hBehind
          cases hBehind
        · omega
      · simp [step, batch, hRunning, hLast]
  | some last =>
      refine Or.inr ⟨last, List.mem_of_getLast? hLast, ?_⟩
      simp [step, batch, hRunning, hLast]

/- A short page holds every settled row past the key. -/
theorem mem_page_of_short
    {key : PageKey ι}
    {settled : Int}
    (hShort : (page table key settled).length < batchSize)
    {row : Row ι}
    (hMem : row ∈ table.rows)
    (hPast : row.past key = true)
    (hSettled : row.effective < settled) :
    row ∈ page table key settled :=
  Paging.mem_page_of_short hShort hMem
    (by simp [hPast, hSettled])

/- Rows past the old key but not past the new are pushed. -/
theorem mem_page_of_precedes
    {key : PageKey ι}
    {settled : Int}
    {row last : Row ι}
    (hLast : last ∈ page table key settled)
    (hMem : row ∈ table.rows)
    (hPast : row.past key = true)
    (hBehind : row.past last.pageKey = false) :
    row ∈ page table key settled := by
  have hPrecedes : row.precedes last := by
    by_contra hAfter
    rw [(past_pageKey_iff row last).mpr hAfter] at hBehind
    cases hBehind
  have hSettled : row.effective < settled := by
    have hYoung := (mem_page hLast).2.2
    rcases hPrecedes with hLess | ⟨hSame, _⟩
    · omega
    · omega
  exact
    Paging.mem_page_of_rel_last (precedes_antisymm table)
      hLast hMem (by simp [hPast, hSettled]) hPrecedes

/- The page key moves past a row in every batch. -/
theorem length_past_lt
    {key : PageKey ι}
    {settled : Int}
    {last : Row ι}
    (hLast : last ∈ page table key settled) :
    (table.rows.filter
        (fun row => row.past last.pageKey)).length <
      (table.rows.filter
        (fun row => row.past key)).length := by
  rcases mem_page hLast with ⟨hMem, hPast, _⟩
  refine
    Paging.length_filter_lt ?_ hMem hPast
      (not_past_pageKey_self last)
  intro row hAfter
  exact past_of_past_pageKey hPast hAfter

--------------------
-- Place
--------------------

/-
  A cycle that starts after a cut one resumes no later than
  it stopped: rows past the last pushed key are past the
  saved pair.
-/
def KeepsPlace
    (table : Table ι)
    (state : State ι) : Action → Prop
| .batch _ _ => True
| .start _ =>
    ∀ cycle, state.running = some cycle →
      ∀ row ∈ table.rows, row.past cycle.key = true →
        row.past state.saved = true

/-
  Between cycles all rows behind the saved pair are sent. In
  a cycle all rows behind the key in memory are sent, rows
  behind the saved pair are sent or of this cycle, and the
  saved cursor is not ahead of the key.
-/
structure InPlace
    (table : Table ι)
    (state : State ι) : Prop where
  idle :
    state.running = none →
      ∀ row ∈ table.rows, row.past state.saved = false →
        row ∈ state.sent
  reached :
    ∀ cycle, state.running = some cycle →
      ∀ row ∈ table.rows, row.past cycle.key = false →
        row ∈ state.sent
  resumes :
    ∀ cycle, state.running = some cycle →
      ∀ row ∈ table.rows, row.past state.saved = false →
        row ∈ state.sent ∨ row.effective < cycle.settled
  saved_le :
    ∀ cycle, state.running = some cycle →
      ∀ cursor, state.saved.cursor = some cursor →
        ∃ last, cycle.key.cursor = some last ∧ cursor ≤ last

/- With no cycle under way there is one thing to keep. -/
theorem inPlace_of_idle
    (hIdle : state.running = none)
    (hSent :
      ∀ row ∈ table.rows, row.past state.saved = false →
        row ∈ state.sent) :
    InPlace table state := by
  have hNoCycle
      {P : Prop}
      {cycle : Cycle ι}
      (hRunning : state.running = some cycle) : P := by
    rw [hIdle] at hRunning
    cases hRunning
  constructor
  · intro _
    exact hSent
  · intro cycle hRunning
    exact hNoCycle hRunning
  · intro cycle hRunning
    exact hNoCycle hRunning
  · intro cycle hRunning
    exact hNoCycle hRunning

theorem inPlace_fresh
    (table : Table ι) :
    InPlace table fresh := by
  apply inPlace_of_idle rfl
  intro row _ hBehind
  cases hBehind

theorem inPlace_start
    (hPlace : InPlace table state)
    {now : Int}
    (hKeeps : KeepsPlace table state (.start now)) :
    InPlace table (step table state (.start now)) := by
  have hSent :
      ∀ row ∈ table.rows, row.past state.saved = false →
        row ∈ state.sent := by
    intro row hMem hBehind
    cases hRunning : state.running with
    | none => exact hPlace.idle hRunning row hMem hBehind
    | some cycle =>
        apply hPlace.reached cycle hRunning row hMem
        by_contra hPast
        rw [Bool.not_eq_false] at hPast
        rw [hKeeps cycle hRunning row hMem hPast] at hBehind
        cases hBehind
  constructor
  · intro hRunning
    cases hRunning
  · intro cycle hRunning
    cases hRunning
    exact hSent
  · intro cycle hRunning row hMem hBehind
    exact Or.inl (hSent row hMem hBehind)
  · intro cycle hRunning cursor hCursor
    cases hRunning
    exact ⟨cursor, hCursor, Int.le_refl cursor⟩

/- Rows behind the saved pair of a batch are settled ones. -/
theorem settled_of_behind_save
    (hPlace : InPlace table state)
    {cycle : Cycle ι}
    (hRunning : state.running = some cycle)
    {last : Row ι}
    (hLast : last ∈ page table cycle.key cycle.settled)
    {cursorSaved idSaved : Bool}
    {row : Row ι}
    (hBehind :
      row.past (save state.saved last cursorSaved idSaved) =
        false) :
    row.effective < cycle.settled := by
  rcases mem_page hLast with ⟨_, hPast, hYoung⟩
  rcases le_cursor_of_not_past hBehind with
    ⟨cursor, hCursor, hLe⟩
  cases cursorSaved with
  | true =>
      have hSame : last.effective = cursor := by
        simpa [save] using hCursor
      omega
  | false =>
      rcases hPlace.saved_le cycle hRunning cursor hCursor with
        ⟨reached, hReached, hCursorLe⟩
      have hNext := cursor_le_of_past hPast hReached
      omega

/- A pushed batch leaves every row behind its key sent. -/
theorem sent_of_behind_pageKey
    (hPlace : InPlace table state)
    {cycle : Cycle ι}
    (hRunning : state.running = some cycle)
    {row last : Row ι}
    (hLast : last ∈ page table cycle.key cycle.settled)
    (hMem : row ∈ table.rows)
    (hBehind : row.past last.pageKey = false) :
    row ∈ state.sent ++
      page table cycle.key cycle.settled := by
  cases hPast : row.past cycle.key with
  | false =>
      exact List.mem_append_left _
        (hPlace.reached cycle hRunning row hMem hPast)
  | true =>
      exact List.mem_append_right _
        (mem_page_of_precedes hLast hMem hPast hBehind)

/- A short batch leaves every settled row sent. -/
theorem sent_of_short
    (hPlace : InPlace table state)
    {cycle : Cycle ι}
    (hRunning : state.running = some cycle)
    (hShort :
      (page table cycle.key cycle.settled).length <
        batchSize)
    {row : Row ι}
    (hMem : row ∈ table.rows)
    (hSettled : row.effective < cycle.settled) :
    row ∈ state.sent ++
      page table cycle.key cycle.settled := by
  cases hPast : row.past cycle.key with
  | false =>
      exact List.mem_append_left _
        (hPlace.reached cycle hRunning row hMem hPast)
  | true =>
      exact List.mem_append_right _
        (mem_page_of_short hShort hMem hPast hSettled)

/- A cycle that finds nothing leaves every settled row sent. -/
theorem sent_of_nothing_left
    (hPlace : InPlace table state)
    {cycle : Cycle ι}
    (hRunning : state.running = some cycle)
    (hNothing :
      ∀ row ∈ table.rows, row.past cycle.key = true →
        cycle.settled ≤ row.effective)
    {row : Row ι}
    (hMem : row ∈ table.rows)
    (hSettled : row.effective < cycle.settled) :
    row ∈ state.sent := by
  cases hPast : row.past cycle.key with
  | false => exact hPlace.reached cycle hRunning row hMem hPast
  | true =>
      have hYoung := hNothing row hMem hPast
      omega

/- The saved cursor does not get ahead of a page's end. -/
theorem saved_le_of_page
    (hPlace : InPlace table state)
    {cycle : Cycle ι}
    (hRunning : state.running = some cycle)
    {last : Row ι}
    (hLast : last ∈ page table cycle.key cycle.settled)
    {cursorSaved idSaved : Bool}
    {cursor : Int}
    (hCursor :
      (save state.saved last cursorSaved idSaved).cursor =
        some cursor) :
    cursor ≤ last.effective := by
  cases cursorSaved with
  | true =>
      have hSame : last.effective = cursor := by
        simpa [save] using hCursor
      omega
  | false =>
      rcases hPlace.saved_le cycle hRunning cursor hCursor with
        ⟨reached, hReached, hLe⟩
      have hNext :=
        cursor_le_of_past (mem_page hLast).2.1 hReached
      omega

theorem inPlace_batch
    (hPlace : InPlace table state)
    (cursorSaved idSaved : Bool) :
    InPlace table
      (step table state (.batch cursorSaved idSaved)) := by
  cases hRunning : state.running with
  | none =>
      have hSame :
          step table state (.batch cursorSaved idSaved) =
            state := by
        simp [step, batch, hRunning]
      rw [hSame]
      exact hPlace
  | some cycle =>
      rcases batch_cases table hRunning cursorSaved idSaved with
        ⟨hNothing, hStep⟩ | ⟨last, hLast, hStep⟩
      · rw [hStep]
        apply inPlace_of_idle rfl
        intro row hMem hBehind
        rcases hPlace.resumes cycle hRunning row hMem hBehind
          with hSent | hSettled
        · exact hSent
        · exact
            sent_of_nothing_left hPlace hRunning hNothing hMem
              hSettled
      · rw [hStep]
        have hBehind :
            ∀ row : Row ι,
              row.past
                  (save state.saved last cursorSaved
                    idSaved) = false →
                row.effective < cycle.settled :=
          fun row =>
            settled_of_behind_save hPlace hRunning hLast
        by_cases hShort :
            (page table cycle.key cycle.settled).length <
              batchSize
        · rw [if_pos hShort]
          apply inPlace_of_idle rfl
          intro row hMem hRow
          exact
            sent_of_short hPlace hRunning hShort hMem
              (hBehind row hRow)
        · rw [if_neg hShort]
          constructor
          · intro hNone
            cases hNone
          · intro other hOther row hMem hRow
            cases hOther
            exact
              sent_of_behind_pageKey hPlace hRunning hLast hMem
                hRow
          · intro other hOther row _ hRow
            cases hOther
            exact Or.inr (hBehind row hRow)
          · intro other hOther cursor hCursor
            cases hOther
            exact
              ⟨last.effective, rfl,
                saved_le_of_page hPlace hRunning hLast hCursor⟩

theorem inPlace_step
    (state : State ι)
    (action : Action)
    (hPlace : InPlace table state)
    (hKeeps : KeepsPlace table state action) :
    InPlace table (step table state action) := by
  cases action with
  | start now => exact inPlace_start hPlace hKeeps
  | batch cursorSaved idSaved =>
      exact inPlace_batch hPlace cursorSaved idSaved

--------------------
-- Uninterrupted Cycles
--------------------

variable {table : Table ι}

/- The loop body, once for each pair of write outcomes. -/
def batches (outcomes : List (Bool × Bool)) : List Action :=
  outcomes.map (fun saved => .batch saved.1 saved.2)

theorem exec_batches_of_idle
    {state : State ι}
    (hIdle : state.running = none)
    (outcomes : List (Bool × Bool)) :
    Run.exec (step table) state (batches outcomes) = state := by
  induction outcomes with
  | nil => rfl
  | cons saved rest ih =>
      have hSame :
          step table state (.batch saved.1 saved.2) =
            state := by
        simp [step, batch, hIdle]
      calc
        Run.exec (step table) state (batches (saved :: rest))
            = Run.exec (step table)
                (step table state (.batch saved.1 saved.2))
                (batches rest) := rfl
        _ = Run.exec (step table) state (batches rest) := by
            rw [hSame]
        _ = state := ih

/-
  A cycle left alone finishes: each full batch moves the key
  past a row, and once it ends every settled row is sent.
-/
theorem sent_of_exec_batches
    {state : State ι}
    (hPlace : InPlace table state)
    {cycle : Cycle ι}
    (hRunning : state.running = some cycle)
    (outcomes : List (Bool × Bool))
    (hLong :
      (table.rows.filter
        (fun row => row.past cycle.key)).length <
          outcomes.length) :
    (Run.exec (step table) state
        (batches outcomes)).running = none ∧
      ∀ row ∈ table.rows, row.effective < cycle.settled →
        row ∈ (Run.exec (step table) state
          (batches outcomes)).sent := by
  induction outcomes generalizing state cycle with
  | nil => exact absurd hLong (Nat.not_lt_zero _)
  | cons saved rest ih =>
      have hNext := inPlace_batch hPlace saved.1 saved.2
      have hTail :
          Run.exec (step table) state
              (batches (saved :: rest)) =
            Run.exec (step table)
              (step table state (.batch saved.1 saved.2))
              (batches rest) := rfl
      rw [hTail]
      rcases batch_cases table hRunning saved.1 saved.2 with
        ⟨hNothing, hStep⟩ | ⟨last, hLast, hStep⟩
      · rw [hStep, exec_batches_of_idle rfl]
        refine ⟨rfl, ?_⟩
        intro row hMem hSettled
        exact
          sent_of_nothing_left hPlace hRunning hNothing hMem
            hSettled
      · rw [hStep] at hNext ⊢
        by_cases hShort :
            (page table cycle.key cycle.settled).length <
              batchSize
        · rw [if_pos hShort, exec_batches_of_idle rfl]
          refine ⟨rfl, ?_⟩
          intro row hMem hSettled
          exact
            sent_of_short hPlace hRunning hShort hMem hSettled
        · rw [if_neg hShort] at hNext ⊢
          apply ih hNext rfl
          exact
            Nat.lt_of_lt_of_le (length_past_lt hLast)
              (Nat.le_of_lt_succ hLong)

/-
  When no cut cycle loses its place, the next cycle that is
  left alone finishes, and every row that was settled when
  it started has been sent.
-/
theorem sent_of_keepsPlace
    (table : Table ι)
    (past : List Action)
    (now : Int)
    (outcomes : List (Bool × Bool))
    (hKeeps :
      Run.Meets (step table) (KeepsPlace table) fresh
        (past ++ [.start now]))
    (hLong : table.rows.length < outcomes.length) :
    (Run.exec (step table) fresh
        (past ++ .start now :: batches outcomes)).running =
          none ∧
      ∀ row ∈ table.rows, row.effective < settledAt now →
        row ∈ (Run.exec (step table) fresh
          (past ++ .start now :: batches outcomes)).sent := by
  have hPlace :=
    Run.invariant_of_meets inPlace_step (inPlace_fresh table)
      hKeeps
  have hSplit :
      past ++ .start now :: batches outcomes =
        (past ++ [.start now]) ++ batches outcomes := by
    simp
  rw [hSplit, Run.exec_append]
  rw [Run.exec_append] at hPlace ⊢
  apply sent_of_exec_batches hPlace rfl
  exact Nat.lt_of_le_of_lt (List.length_filter_le _ _) hLong

/- One row, pushed by a first cycle whose writes both fail. -/
theorem sent_of_keepsPlace_single :
    (Run.exec
        (step (⟨[⟨7, some 0⟩], by decide⟩ : Table Nat)) fresh
        ([.start 0, .start (seconds 60), .batch false false] ++
          .start (seconds 90) ::
            batches [(true, true), (true, true)])).running =
          none ∧
      ∀ row ∈ [(⟨7, some 0⟩ : Row Nat)],
        row.effective < settledAt (seconds 90) →
          row ∈ (Run.exec
            (step (⟨[⟨7, some 0⟩], by decide⟩ : Table Nat))
            fresh
            ([.start 0, .start (seconds 60),
                .batch false false] ++
              .start (seconds 90) ::
                batches [(true, true), (true, true)])).sent :=
  sent_of_keepsPlace ⟨[⟨7, some 0⟩], by decide⟩
    [.start 0, .start (seconds 60), .batch false false]
    (seconds 90) [(true, true), (true, true)]
    (by
      refine ⟨?_, ?_, trivial, ?_, trivial⟩
      · intro cycle hRunning
        cases hRunning
      · intro cycle _ row _ _
        rfl
      · intro cycle hRunning
        cases hRunning)
    (by decide)

/- Rows stamped by one bulk update. -/
def tied (count : Nat) : Table Nat :=
  { rows :=
      (List.range count).map (fun id => ⟨id, some 0⟩)
    ids_nodup := by
      simpa [Function.comp_def] using List.nodup_range }

/-
  The first batch of 501 tied rows is pushed and its cursor
  saved, and the process dies before the id is. The NULL id
  lets no tied row past, so the last one is never sent.
-/
theorem tied_row_is_skipped :
    ¬ ∀ (table : Table Nat) (past : List Action) (now : Int)
        (outcomes : List (Bool × Bool)),
        table.rows.length < outcomes.length →
          ∀ row ∈ table.rows,
            row.effective < settledAt now →
              row ∈ (Run.exec (step table) fresh
                (past ++
                  .start now :: batches outcomes)).sent := by
  intro hClaim
  have hSent :=
    hClaim (tied 501) [.start (seconds 60), .batch true false]
      (seconds 90) (List.replicate 502 (true, true))
      (by decide +kernel) ⟨500, some 0⟩ (by decide +kernel)
      (by decide +kernel)
  revert hSent
  decide +kernel

end Sync

end SentinelCommand
