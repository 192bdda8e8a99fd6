import SentinelCommand.Sync.Writers

/-
  Why no version is missed.

  A version stamped before a run's threshold was committed
  before the run began, since its transaction took no longer
  than the rows are left to settle. So while the run pages,
  the versions below its threshold only become fewer, and
  each of them is past the page key, being pushed or sent.

  Main declarations:
    * `Covers`, `covers_step`
    * `KeepsUp`, `keepsUp_step`
    * `no_version_missed`
-/

--------------------
-- Committed Versions
--------------------

namespace SentinelCommand

namespace Sync

variable {ι δ : Type}
variable {v : Version ι δ}

/- What a transaction puts late is too young for any run. -/
theorem young_of_inTime
    {w : World ι δ}
    {connection : Nat}
    (hInTime : CommitsInTime w (.commit connection))
    (hPut : .put v ∈ w.writes connection) :
    settledAt w.clock ≤ v.row.effective := by
  have hStamp := of_decide_eq_true (hInTime _ hPut)
  rw [settledAt]
  omega

variable [LinearOrder ι]

/- A commit adds only what its transaction put. -/
theorem mem_commit
    {store : Store ι δ}
    {changes : List (Change ι δ)}
    (hIn : v ∈ (store.commit changes).versions) :
    v ∈ store.versions ∨ .put v ∈ changes := by
  induction changes generalizing store with
  | nil => exact Or.inl hIn
  | cons change changes ih =>
      rcases ih hIn with hOld | hPut
      · cases change with
        | put version =>
            rcases List.mem_append.mp hOld with hKept | hNew
            · exact Or.inl (List.mem_filter.mp hKept).1
            · rw [List.mem_singleton.mp hNew]
              exact Or.inr List.mem_cons_self
        | remove id => exact Or.inl (List.mem_filter.mp hOld).1
      · exact Or.inr (List.mem_cons_of_mem _ hPut)

/- How many versions a filter keeps, after a commit. -/
theorem length_commit_le
    {keep : Version ι δ → Bool}
    {changes : List (Change ι δ)}
    (hNone : ∀ v, .put v ∈ changes → keep v = false)
    (store : Store ι δ) :
    ((store.commit changes).versions.filter keep).length ≤
      (store.versions.filter keep).length := by
  induction changes generalizing store with
  | nil => exact Nat.le_refl _
  | cons change changes ih =>
      have hRest :=
        ih (fun v hPut => hNone v (List.mem_cons_of_mem _ hPut))
          (store.change change)
      refine Nat.le_trans hRest ?_
      cases change with
      | put version =>
          have hNew := hNone version List.mem_cons_self
          have hPut :
              ((store.put version).versions.filter keep) =
                (store.remove version.row.id).versions.filter
                  keep := by
            simp [Store.put, List.filter_append, hNew]
          rw [Store.change, hPut]
          exact
            (List.filter_sublist.filter keep).length_le
      | remove id =>
          exact
            (List.filter_sublist.filter keep).length_le

end Sync

--------------------
-- Pages of Versions
--------------------

namespace Sync

variable {ι δ : Type}
variable {w : World ι δ}
variable {cycle : Cycle ι}
variable {v last : Version ι δ}

theorem row_mem_table
    (hMem : v ∈ w.store.versions) :
    v.row ∈ w.store.table.rows :=
  List.mem_map_of_mem hMem

theorem short_of_confirm
    {cursorSaved idSaved : Bool}
    (hRunning :
      (w.confirm cycle last cursorSaved idSaved).running =
        none) :
    w.pushing.length < batchSize := by
  by_contra hFull
  simp [World.confirm, hFull] at hRunning

theorem confirm_running_some
    {cursorSaved idSaved : Bool}
    {next : Cycle ι}
    (hRunning :
      (w.confirm cycle last cursorSaved idSaved).running =
        some next) :
    batchSize ≤ w.pushing.length ∧
      next = { cycle with key := last.row.pageKey } := by
  by_cases hShort : w.pushing.length < batchSize
  · simp [World.confirm, hShort] at hRunning
  · simp only [World.confirm, hShort, if_false,
      Option.some.injEq] at hRunning
    exact ⟨Nat.le_of_not_lt hShort, hRunning.symm⟩

variable [LinearOrder ι]

theorem mem_world_page
    (hPage : v ∈ w.page cycle) :
    v ∈ w.store.versions ∧ v.row.past cycle.key = true ∧
      v.row.effective < cycle.settled := by
  rcases Paging.mem_of_mem_page hPage with ⟨hMem, hDue⟩
  simp only [Version.due, Bool.and_eq_true,
    decide_eq_true_eq] at hDue
  exact ⟨hMem, hDue⟩

/- A version is known by its row. -/
theorem mem_page_of_row
    (hMem : v ∈ w.store.versions)
    (hRow :
      v.row ∈ page w.store.table cycle.key cycle.settled) :
    v ∈ w.page cycle := by
  rw [← page_rows] at hRow
  rcases List.mem_map.mp hRow with ⟨other, hOther, hSame⟩
  have hIs : other = v :=
    List.inj_on_of_nodup_map w.store.ids_nodup
      (mem_world_page hOther).1 hMem (by rw [hSame])
  exact hIs ▸ hOther

theorem row_mem_page
    (hPage : v ∈ w.page cycle) :
    v.row ∈ page w.store.table cycle.key cycle.settled := by
  rw [← page_rows]
  exact List.mem_map_of_mem hPage

theorem page_eq_nil_of_select
    (hRunning : (w.select cycle).running = none) :
    w.page cycle = [] := by
  by_contra hSome
  simp [World.select, hSome] at hRunning

theorem select_running_some
    {next : Cycle ι}
    (hRunning : (w.select cycle).running = some next) :
    w.page cycle ≠ [] ∧ next = cycle := by
  cases hPage : w.page cycle with
  | nil => simp [World.select, hPage] at hRunning
  | cons first rest =>
      simp only [World.select, hPage, List.isEmpty_cons,
        Bool.false_eq_true, if_false,
        Option.some.injEq] at hRunning
      exact ⟨List.cons_ne_nil _ _, hRunning.symm⟩

/- The run waits, selects or hears that its push arrived. -/
theorem proceed_cases
    (w : World ι δ)
    (cursorSaved idSaved : Bool) :
    (w.running = none ∧
      w.proceed cursorSaved idSaved = w) ∨
    ∃ cycle, w.running = some cycle ∧
      ((w.pushing = [] ∧
        w.proceed cursorSaved idSaved = w.select cycle) ∨
      ∃ last, w.pushing.getLast? = some last ∧
        w.proceed cursorSaved idSaved =
          w.confirm cycle last cursorSaved idSaved) := by
  cases hRunning : w.running with
  | none => exact Or.inl ⟨rfl, by rw [World.proceed, hRunning]⟩
  | some cycle =>
      refine Or.inr ⟨cycle, rfl, ?_⟩
      cases hLast : w.pushing.getLast? with
      | none =>
          exact Or.inl
            ⟨List.getLast?_eq_none_iff.mp hLast,
              by simp only [World.proceed, hRunning, hLast]⟩
      | some last =>
          exact Or.inr
            ⟨last, rfl,
              by simp only [World.proceed, hRunning, hLast]⟩

/- What a full page leaves behind its end, it holds. -/
theorem mem_page_of_behind
    (hLast : last ∈ w.page cycle)
    (hMem : v ∈ w.store.versions)
    (hPast : v.row.past cycle.key = true)
    (hBehind : v.row.past last.row.pageKey = false) :
    v ∈ w.page cycle :=
  mem_page_of_row hMem
    (mem_page_of_precedes (row_mem_page hLast)
      (row_mem_table hMem) hPast hBehind)

/- A short page holds all that is due. -/
theorem mem_page_of_due
    (hShort : (w.page cycle).length < batchSize)
    (hMem : v ∈ w.store.versions)
    (hPast : v.row.past cycle.key = true)
    (hSettled : v.row.effective < cycle.settled) :
    v ∈ w.page cycle :=
  Paging.mem_page_of_short hShort hMem
    (by simp [Version.due, hPast, hSettled])

end Sync

--------------------
-- Covered Stamps
--------------------

namespace Sync

variable {ι δ : Type} [LinearOrder ι]
variable {w : World ι δ}
variable {settled : Int}

/-
  The versions stamped before a threshold are all committed,
  and sent, being pushed or still ahead of the run under
  way.
-/
structure Covers
    (settled : Int)
    (w : World ι δ) : Prop where
  old : settled ≤ settledAt w.clock
  idle :
    w.running = none →
      ∀ v ∈ w.store.versions, v.row.effective < settled →
        v ∈ w.sent
  running :
    ∀ cycle, w.running = some cycle →
      settled ≤ cycle.settled ∧
        ∀ v ∈ w.store.versions, v.row.effective < settled →
          v.row.past cycle.key = true ∨ v ∈ w.sent
  pushing :
    ∀ cycle last, w.running = some cycle →
      w.pushing.getLast? = some last →
        ∀ v ∈ w.store.versions, v.row.effective < settled →
          v.row.past cycle.key = true →
            (batchSize ≤ w.pushing.length ∧
              v.row.past last.row.pageKey = true) ∨
              v ∈ w.pushing

theorem covers_commit
    (hCovers : Covers settled w)
    {connection : Nat}
    (hInTime : CommitsInTime w (.commit connection)) :
    Covers settled (w.commit connection) := by
  have hBefore
      {v : Version ι δ}
      (hMem : v ∈ (w.commit connection).store.versions)
      (hStamp : v.row.effective < settled) :
      v ∈ w.store.versions := by
    rcases mem_commit hMem with hOld | hPut
    · exact hOld
    · have hYoung := young_of_inTime hInTime hPut
      have hLe := hCovers.old
      omega
  constructor
  · exact hCovers.old
  · intro hIdle v hMem hStamp
    exact hCovers.idle hIdle v (hBefore hMem hStamp) hStamp
  · intro cycle hRunning
    rcases hCovers.running cycle hRunning with ⟨hLe, hAll⟩
    exact
      ⟨hLe, fun v hMem hStamp =>
        hAll v (hBefore hMem hStamp) hStamp⟩
  · intro cycle last hRunning hLast v hMem hStamp
    exact hCovers.pushing cycle last hRunning hLast v
      (hBefore hMem hStamp) hStamp

theorem covers_start
    (hCovers : Covers settled w)
    (hQuiet : w.running = none → w.pushing = [])
    (cursorRead idRead : Bool) :
    Covers settled (w.start cursorRead idRead) := by
  cases hRunning : w.running with
  | some cycle =>
      rw [World.start, hRunning]
      exact hCovers
  | none =>
      rw [World.start, hRunning]
      refine ⟨hCovers.old, nofun, ?_, ?_⟩
      · rintro cycle ⟨⟩
        refine ⟨hCovers.old, ?_⟩
        intro v hMem hStamp
        exact Or.inr (hCovers.idle hRunning v hMem hStamp)
      · intro cycle last _ hLast
        simp [hQuiet hRunning] at hLast

theorem covers_select
    (hCovers : Covers settled w)
    {cycle : Cycle ι}
    (hRunning : w.running = some cycle) :
    Covers settled (w.select cycle) := by
  rcases hCovers.running cycle hRunning with ⟨hLe, hAll⟩
  constructor
  · exact hCovers.old
  · intro hIdle v hMem hStamp
    have hEmpty := page_eq_nil_of_select hIdle
    have hShort : (w.page cycle).length < batchSize := by
      simp [hEmpty, batchSize]
    rcases hAll v hMem hStamp with hPast | hSent
    · have hPage :=
        mem_page_of_due hShort hMem hPast (by omega)
      rw [hEmpty] at hPage
      cases hPage
    · exact hSent
  · intro next hNext
    rcases select_running_some hNext with ⟨_, rfl⟩
    exact ⟨hLe, hAll⟩
  · intro next last hNext hLast v hMem hStamp hPast
    rcases select_running_some hNext with ⟨_, rfl⟩
    by_cases hShort : (w.page next).length < batchSize
    · exact Or.inr
        (mem_page_of_due hShort hMem hPast (by omega))
    · cases hNew : v.row.past last.row.pageKey with
      | true => exact Or.inl ⟨Nat.le_of_not_lt hShort, rfl⟩
      | false =>
          exact Or.inr
            (mem_page_of_behind (List.mem_of_getLast? hLast)
              hMem hPast hNew)

theorem covers_confirm
    (hCovers : Covers settled w)
    {cycle : Cycle ι}
    (hRunning : w.running = some cycle)
    {last : Version ι δ}
    (hLast : w.pushing.getLast? = some last)
    (cursorSaved idSaved : Bool) :
    Covers settled
      (w.confirm cycle last cursorSaved idSaved) := by
  rcases hCovers.running cycle hRunning with ⟨hLe, hAll⟩
  have hNext
      {v : Version ι δ}
      (hMem : v ∈ w.store.versions)
      (hStamp : v.row.effective < settled) :
      (batchSize ≤ w.pushing.length ∧
        v.row.past last.row.pageKey = true) ∨
        v ∈ w.sent ++ w.pushing := by
    rcases hAll v hMem hStamp with hPast | hSent
    · rcases hCovers.pushing cycle last hRunning hLast v hMem
        hStamp hPast with hAhead | hIn
      · exact Or.inl hAhead
      · exact Or.inr (List.mem_append_right _ hIn)
    · exact Or.inr (List.mem_append_left _ hSent)
  constructor
  · exact hCovers.old
  · intro hIdle v hMem hStamp
    have hShort := short_of_confirm hIdle
    rcases hNext hMem hStamp with ⟨hFull, _⟩ | hSent
    · omega
    · exact hSent
  · intro next hRest
    rcases confirm_running_some hRest with ⟨_, rfl⟩
    refine ⟨hLe, ?_⟩
    intro v hMem hStamp
    rcases hNext hMem hStamp with ⟨_, hAhead⟩ | hSent
    · exact Or.inl hAhead
    · exact Or.inr hSent
  · intro next final _ hNothing
    cases hNothing

/- Whatever happens next, a covered threshold stays so. -/
theorem covers_step
    (hCovers : Covers settled w)
    (hQuiet : w.running = none → w.pushing = [])
    (event : WorldEvent ι δ)
    (hInTime : CommitsInTime w event) :
    Covers settled (w.step event) := by
  cases event with
  | tick elapsed =>
      refine
        ⟨?_, hCovers.idle, hCovers.running, hCovers.pushing⟩
      have hOld := hCovers.old
      simp only [World.step, settledAt] at hOld ⊢
      omega
  | put connection id data =>
      exact
        ⟨hCovers.old, hCovers.idle, hCovers.running,
          hCovers.pushing⟩
  | remove connection id =>
      exact
        ⟨hCovers.old, hCovers.idle, hCovers.running,
          hCovers.pushing⟩
  | commit connection => exact covers_commit hCovers hInTime
  | start cursorRead idRead =>
      exact covers_start hCovers hQuiet cursorRead idRead
  | proceed cursorSaved idSaved =>
      rw [World.step]
      rcases proceed_cases w cursorSaved idSaved with
        ⟨_, hSame⟩ | ⟨cycle, hRunning,
          ⟨_, hSelect⟩ | ⟨last, hLast, hConfirm⟩⟩
      · rw [hSame]
        exact hCovers
      · exact hSelect ▸ covers_select hCovers hRunning
      · exact hConfirm ▸
          covers_confirm hCovers hRunning hLast cursorSaved
            idSaved

end Sync

--------------------
-- Keeping Up
--------------------

namespace Sync

variable {ι δ : Type} [LinearOrder ι]
variable {w : World ι δ}

/-
  The threshold of the run under way is covered, and so is
  one past the saved cursor: what the next run skips.
-/
structure KeepsUp (w : World ι δ) : Prop where
  quiet : w.running = none → w.pushing = []
  ahead :
    ∀ cycle, w.running = some cycle → Covers cycle.settled w
  early :
    ∀ cycle, w.running = some cycle →
      ∀ v ∈ w.pushing, v.row.effective < cycle.settled
  saved :
    ∀ cursor, w.saved.cursor = some cursor →
      ∃ settled, cursor < settled ∧ Covers settled w

theorem keepsUp_install
    (store : Store ι δ)
    (clock : Int) :
    KeepsUp (World.install store clock) where
  quiet := fun _ => rfl
  ahead := nofun
  early := nofun
  saved := nofun

/- A saved cursor that is kept stays below a threshold. -/
theorem saved_of_covers
    {next : World ι δ}
    (hKeeps : KeepsUp w)
    (hCovers :
      ∀ settled, Covers settled w → Covers settled next)
    {cursor : Int}
    (hCursor : w.saved.cursor = some cursor) :
    ∃ settled, cursor < settled ∧ Covers settled next := by
  rcases hKeeps.saved cursor hCursor with
    ⟨settled, hLt, hBelow⟩
  exact ⟨settled, hLt, hCovers settled hBelow⟩

/- A step that leaves the run and its page key alone. -/
theorem keepsUp_of_covers
    {next : World ι δ}
    (hKeeps : KeepsUp w)
    (hCovers :
      ∀ settled, Covers settled w → Covers settled next)
    (hRunning : next.running = w.running)
    (hPushing : next.pushing = w.pushing)
    (hSaved : next.saved = w.saved) :
    KeepsUp next := by
  constructor
  · rw [hRunning, hPushing]
    exact hKeeps.quiet
  · intro cycle hCycle
    rw [hRunning] at hCycle
    exact hCovers _ (hKeeps.ahead cycle hCycle)
  · rw [hRunning, hPushing]
    exact hKeeps.early
  · intro cursor hCursor
    rw [hSaved] at hCursor
    exact saved_of_covers hKeeps hCovers hCursor

/- A new run skips only what its saved cursor covers. -/
theorem covers_new_run
    (hKeeps : KeepsUp w)
    (hIdle : w.running = none)
    (cursorRead idRead : Bool) :
    Covers (settledAt w.clock)
      (w.start cursorRead idRead) := by
  have hQuiet := hKeeps.quiet hIdle
  rw [World.start, hIdle]
  refine ⟨Int.le_refl _, nofun, ?_, ?_⟩
  · rintro cycle ⟨⟩
    refine ⟨Int.le_refl _, ?_⟩
    intro v hMem hStamp
    cases hPast : v.row.past
      { cursor := if cursorRead then w.saved.cursor else none
        cursorId :=
          if idRead then w.saved.cursorId else none } with
    | true => exact Or.inl rfl
    | false =>
        rcases le_cursor_of_not_past hPast with
          ⟨cursor, hCursor, hLe⟩
        have hSaved : w.saved.cursor = some cursor := by
          cases cursorRead with
          | true => exact hCursor
          | false => cases hCursor
        rcases hKeeps.saved cursor hSaved with
          ⟨settled, hLt, hCovers⟩
        exact Or.inr
          (hCovers.idle hIdle v hMem (by omega))
  · intro cycle last _ hLast
    simp [hQuiet] at hLast

theorem keepsUp_start
    (hKeeps : KeepsUp w)
    (cursorRead idRead : Bool) :
    KeepsUp (w.start cursorRead idRead) := by
  cases hRunning : w.running with
  | some cycle =>
      rw [World.start, hRunning]
      exact hKeeps
  | none =>
      have hNew :=
        covers_new_run hKeeps hRunning cursorRead idRead
      have hQuiet := hKeeps.quiet hRunning
      have hStay
          (settled : Int)
          (hCovers : Covers settled w) :
          Covers settled (w.start cursorRead idRead) :=
        covers_start hCovers hKeeps.quiet cursorRead idRead
      rw [World.start, hRunning] at hNew hStay ⊢
      constructor
      · exact nofun
      · rintro cycle ⟨⟩
        exact hNew
      · intro cycle _ v hPushing
        simp [hQuiet] at hPushing
      · exact fun _ => saved_of_covers hKeeps hStay

theorem keepsUp_select
    (hKeeps : KeepsUp w)
    {cycle : Cycle ι}
    (hRunning : w.running = some cycle) :
    KeepsUp (w.select cycle) := by
  constructor
  · exact page_eq_nil_of_select
  · intro next hNext
    rcases select_running_some hNext with ⟨_, rfl⟩
    exact
      covers_select (hKeeps.ahead next hRunning) hRunning
  · intro next hNext v hPushing
    rcases select_running_some hNext with ⟨_, rfl⟩
    exact (mem_world_page hPushing).2.2
  · exact fun _ =>
      saved_of_covers hKeeps
        (fun _ hCovers => covers_select hCovers hRunning)

theorem keepsUp_confirm
    (hKeeps : KeepsUp w)
    {cycle : Cycle ι}
    (hRunning : w.running = some cycle)
    {last : Version ι δ}
    (hLast : w.pushing.getLast? = some last)
    (cursorSaved idSaved : Bool) :
    KeepsUp (w.confirm cycle last cursorSaved idSaved) := by
  have hStay
      (settled : Int)
      (hCovers : Covers settled w) :
      Covers settled
        (w.confirm cycle last cursorSaved idSaved) :=
    covers_confirm hCovers hRunning hLast cursorSaved idSaved
  have hAhead := hKeeps.ahead cycle hRunning
  constructor
  · exact fun _ => rfl
  · intro next hNext
    rcases confirm_running_some hNext with ⟨_, rfl⟩
    exact hStay _ hAhead
  · exact nofun
  · intro cursor hCursor
    cases cursorSaved with
    | true =>
        cases hCursor
        exact
          ⟨cycle.settled,
            hKeeps.early cycle hRunning last
              (List.mem_of_getLast? hLast),
            hStay _ hAhead⟩
    | false => exact saved_of_covers hKeeps hStay hCursor

theorem keepsUp_step
    (w : World ι δ)
    (event : WorldEvent ι δ)
    (hKeeps : KeepsUp w)
    (hInTime : CommitsInTime w event) :
    KeepsUp (w.step event) := by
  have hCovers
      (settled : Int)
      (hBelow : Covers settled w) :
      Covers settled (w.step event) :=
    covers_step hBelow hKeeps.quiet event hInTime
  cases event with
  | tick elapsed =>
      exact keepsUp_of_covers hKeeps hCovers rfl rfl rfl
  | put connection id data =>
      exact keepsUp_of_covers hKeeps hCovers rfl rfl rfl
  | remove connection id =>
      exact keepsUp_of_covers hKeeps hCovers rfl rfl rfl
  | commit connection =>
      exact keepsUp_of_covers hKeeps hCovers rfl rfl rfl
  | start cursorRead idRead =>
      exact keepsUp_start hKeeps cursorRead idRead
  | proceed cursorSaved idSaved =>
      rw [World.step]
      rcases proceed_cases w cursorSaved idSaved with
        ⟨_, hSame⟩ | ⟨cycle, hRunning,
          ⟨_, hSelect⟩ | ⟨last, hLast, hConfirm⟩⟩
      · rw [hSame]
        exact hKeeps
      · exact hSelect ▸ keepsUp_select hKeeps hRunning
      · exact hConfirm ▸
          keepsUp_confirm hKeeps hRunning hLast cursorSaved
            idSaved

end Sync

--------------------
-- How long a run takes
--------------------

namespace Sync

variable {ι δ : Type} [LinearOrder ι]
variable {w : World ι δ}

/- How many committed versions a page key leaves due. -/
def World.dueCount
    (w : World ι δ)
    (cycle : Cycle ι) : Nat :=
  (w.store.versions.filter (Version.due cycle)).length

/- Two steps a page, and each page takes one version. -/
def World.stepsLeft (w : World ι δ) : Nat :=
  match w.running with
  | none => 0
  | some cycle =>
      match w.pushing.getLast? with
      | none => 2 * w.dueCount cycle
      | some last =>
          2 * w.dueCount
            { cycle with key := last.row.pageKey } + 1

theorem dueCount_commit_le
    {connection : Nat}
    (hInTime : CommitsInTime w (.commit connection))
    {cycle : Cycle ι}
    (hOld : cycle.settled ≤ settledAt w.clock) :
    (w.commit connection).dueCount cycle ≤
      w.dueCount cycle := by
  apply length_commit_le
  intro v hPut
  have hYoung := young_of_inTime hInTime hPut
  have hLate : ¬ v.row.effective < cycle.settled := by
    omega
  simp [Version.due, hLate]

theorem stepsLeft_commit_le
    (hKeeps : KeepsUp w)
    {connection : Nat}
    (hInTime : CommitsInTime w (.commit connection)) :
    (w.commit connection).stepsLeft ≤ w.stepsLeft := by
  cases hRunning : w.running with
  | none =>
      have hIdle : (w.commit connection).running = none :=
        hRunning
      simp only [World.stepsLeft, hIdle]
      exact Nat.zero_le _
  | some cycle =>
      have hOld := (hKeeps.ahead cycle hRunning).old
      have hSame :
          (w.commit connection).running = some cycle :=
        hRunning
      have hPage : (w.commit connection).pushing = w.pushing :=
        rfl
      simp only [World.stepsLeft, hRunning, hSame, hPage]
      cases w.pushing.getLast? with
      | none =>
          have hLe := dueCount_commit_le hInTime hOld
          simp only
          omega
      | some last =>
          have hLe :=
            @dueCount_commit_le ι δ _ w connection hInTime
              { cycle with key := last.row.pageKey } hOld
          simp only
          omega

/- A page leaves less due behind its end. -/
theorem dueCount_page_lt
    {cycle : Cycle ι}
    {last : Version ι δ}
    (hLast : last ∈ w.page cycle) :
    w.dueCount { cycle with key := last.row.pageKey } <
      w.dueCount cycle := by
  rcases mem_world_page hLast with ⟨hMem, hPast, hSettled⟩
  have hDue : last.due cycle = true := by
    simp [Version.due, hPast, hSettled]
  have hDone :
      last.due { cycle with key := last.row.pageKey } =
        false := by
    simp [Version.due, not_past_pageKey_self]
  refine Paging.length_filter_lt ?_ hMem hDue hDone
  intro v hAfter
  simp only [Version.due, Bool.and_eq_true,
    decide_eq_true_eq] at hAfter ⊢
  exact ⟨past_of_past_pageKey hPast hAfter.1, hAfter.2⟩

/- A step of a run that goes on costs one. -/
theorem stepsLeft_proceed_lt
    (hRunning : w.running ≠ none)
    (cursorSaved idSaved : Bool)
    (hNext : (w.proceed cursorSaved idSaved).running ≠ none) :
    (w.proceed cursorSaved idSaved).stepsLeft <
      w.stepsLeft := by
  rcases proceed_cases w cursorSaved idSaved with
    ⟨hIdle, _⟩ | ⟨cycle, hCycle,
      ⟨hReady, hStep⟩ | ⟨last, hLast, hStep⟩⟩
  · exact absurd hIdle hRunning
  · rw [hStep] at hNext ⊢
    rcases Option.ne_none_iff_exists'.mp hNext with
      ⟨next, hSome⟩
    rcases select_running_some hSome with ⟨hPage, rfl⟩
    have hEnd := List.getLast?_isSome.mpr hPage
    rcases Option.isSome_iff_exists.mp hEnd with ⟨last, hLast⟩
    have hLess :=
      dueCount_page_lt (List.mem_of_getLast? hLast)
    have hPushing :
        (w.select next).pushing.getLast? = some last := hLast
    have hBefore : w.stepsLeft = 2 * w.dueCount next := by
      simp only [World.stepsLeft, hCycle, hReady,
        List.getLast?_nil]
    have hAfter :
        (w.select next).stepsLeft =
          2 * w.dueCount
            { next with key := last.row.pageKey } + 1 := by
      simp only [World.stepsLeft, hSome, hPushing]
      rfl
    omega
  · rw [hStep] at hNext ⊢
    rcases Option.ne_none_iff_exists'.mp hNext with
      ⟨next, hSome⟩
    rcases confirm_running_some hSome with ⟨_, rfl⟩
    have hBefore :
        w.stepsLeft =
          2 * w.dueCount
            { cycle with key := last.row.pageKey } + 1 := by
      simp only [World.stepsLeft, hCycle, hLast]
    have hAfter :
        (w.confirm cycle last cursorSaved idSaved).stepsLeft =
          2 * w.dueCount
            { cycle with key := last.row.pageKey } := by
      simp only [World.stepsLeft, hSome]
      rfl
    omega

/- Nothing that happens gives a run more to do. -/
theorem stepsLeft_step
    (w : World ι δ)
    (event : WorldEvent ι δ)
    (hKeeps : KeepsUp w)
    (hInTime : CommitsInTime w event)
    (hRunning : w.running ≠ none)
    (hNext : (w.step event).running ≠ none) :
    (w.step event).stepsLeft +
        (if event.proceeds then 1 else 0) ≤
      w.stepsLeft := by
  cases event with
  | tick elapsed => exact Nat.le_refl _
  | put connection id data => exact Nat.le_refl _
  | remove connection id => exact Nat.le_refl _
  | commit connection =>
      exact stepsLeft_commit_le hKeeps hInTime
  | start cursorRead idRead =>
      rcases Option.ne_none_iff_exists'.mp hRunning with
        ⟨cycle, hCycle⟩
      have hSame : w.start cursorRead idRead = w := by
        rw [World.start, hCycle]
      rw [World.step, hSame]
      exact Nat.le_refl _
  | proceed cursorSaved idSaved =>
      exact
        stepsLeft_proceed_lt hRunning cursorSaved idSaved hNext

/- A run that is still under way has not used them up. -/
theorem countP_proceeds_le
    (hKeeps : KeepsUp w)
    {events : List (WorldEvent ι δ)}
    (hInTime : Run.Meets World.step CommitsInTime w events)
    (hRunning :
      ∀ upto, upto <+: events →
        (Run.exec World.step w upto).running ≠ none) :
    events.countP WorldEvent.proceeds ≤ w.stepsLeft :=
  Run.countP_le_of_variant World.stepsLeft
    WorldEvent.proceeds keepsUp_step stepsLeft_step hKeeps
    hInTime hRunning

theorem stepsLeft_start_le
    (hKeeps : KeepsUp w)
    (hIdle : w.running = none)
    (cursorRead idRead : Bool) :
    (w.start cursorRead idRead).stepsLeft ≤
      2 * w.store.versions.length := by
  have hQuiet := hKeeps.quiet hIdle
  simp only [World.start, hIdle, World.stepsLeft, hQuiet,
    List.getLast?_nil, World.dueCount]
  exact Nat.mul_le_mul_left 2 (List.length_filter_le _ _)

end Sync

--------------------
-- No Version Missed
--------------------

namespace Sync

variable {ι δ : Type} [LinearOrder ι]
variable {w : World ι δ}

/- Once no run is under way, what is covered was sent. -/
theorem sent_of_covers
    {settled : Int}
    (hKeeps : KeepsUp w)
    (hCovers : Covers settled w)
    {events : List (WorldEvent ι δ)}
    (hInTime : Run.Meets World.step CommitsInTime w events)
    (hEnd : (Run.exec World.step w events).running = none)
    {v : Version ι δ}
    (hMem :
      v ∈ (Run.exec World.step w events).store.versions)
    (hStamp : v.row.effective < settled) :
    v ∈ (Run.exec World.step w events).sent := by
  have hStep
      (w : World ι δ)
      (event : WorldEvent ι δ)
      (hInv : KeepsUp w ∧ Covers settled w)
      (hOk : CommitsInTime w event) :
      KeepsUp (w.step event) ∧
        Covers settled (w.step event) :=
    ⟨keepsUp_step w event hInv.1 hOk,
      covers_step hInv.2 hInv.1.quiet event hOk⟩
  have hBoth :=
    Run.invariant_of_meets hStep ⟨hKeeps, hCovers⟩ hInTime
  exact hBoth.2.idle hEnd v hMem hStamp

/-
  When every transaction commits in time, then whatever
  happens from the start of a run on: once no run is under
  way, each committed version stamped before the threshold
  of that run was sent; and a run that has taken twice as
  many steps as versions were committed when it started has
  ended.
-/
theorem no_version_missed
    (store : Store ι δ)
    (clock : Int)
    (past during : List (WorldEvent ι δ))
    (cursorRead idRead : Bool)
    (hIdle :
      (Run.exec World.step (World.install store clock)
        past).running = none)
    (hInTime :
      Run.Meets World.step CommitsInTime
        (World.install store clock)
        (past ++ .start cursorRead idRead :: during)) :
    ((Run.exec World.step (World.install store clock)
        (past ++ .start cursorRead idRead :: during)).running =
          none →
      ∀ v ∈ (Run.exec World.step (World.install store clock)
          (past ++ .start cursorRead idRead ::
            during)).store.versions,
        v.row.effective <
            settledAt
              (Run.exec World.step
                (World.install store clock) past).clock →
          v ∈ (Run.exec World.step (World.install store clock)
            (past ++ .start cursorRead idRead ::
              during)).sent) ∧
    (2 * (Run.exec World.step (World.install store clock)
        past).store.versions.length <
        during.countP WorldEvent.proceeds →
      ∃ upto, upto <+: during ∧
        (Run.exec World.step (World.install store clock)
          (past ++ .start cursorRead idRead ::
            upto)).running = none) := by
  rcases (Run.meets_append _ _ _ _ _).mp hInTime with
    ⟨hPast, _, hDuring⟩
  have hKeeps :=
    Run.invariant_of_meets keepsUp_step
      (keepsUp_install store clock) hPast
  simp only [Run.exec_append, Run.exec_cons]
  generalize
    Run.exec World.step (World.install store clock) past = w
      at hIdle hDuring hKeeps ⊢
  have hStarted := keepsUp_start hKeeps cursorRead idRead
  constructor
  · intro hEnd v hMem hStamp
    exact
      sent_of_covers hStarted
        (covers_new_run hKeeps hIdle cursorRead idRead)
        hDuring hEnd hMem hStamp
  · intro hLong
    by_contra hOn
    have hRunning
        (upto : List (WorldEvent ι δ))
        (hUpto : upto <+: during) :
        (Run.exec World.step (w.start cursorRead idRead)
          upto).running ≠ none :=
      fun hEnd => hOn ⟨upto, hUpto, hEnd⟩
    have hCount :=
      countP_proceeds_le hStarted hDuring hRunning
    have hLeft :=
      stepsLeft_start_le hKeeps hIdle cursorRead idRead
    omega

/-
  Two rows stamped together commit a second apart, and one
  is updated while a run pushes both.
-/
theorem no_version_missed_updated :
    ⟨⟨2, some 0⟩, "front door"⟩ ∈
      (Run.exec World.step
        (World.install (⟨[], by decide⟩ : Store Nat String) 0)
        ([.put 0 1 "back door", .put 1 2 "front door",
            .commit 1, .tick 1000000, .commit 0,
            .tick 11000000] ++
          .start true true ::
            [.proceed true true, .put 0 1 "garage",
              .commit 0, .proceed true true])).sent :=
  (no_version_missed (⟨[], by decide⟩ : Store Nat String) 0
      [.put 0 1 "back door", .put 1 2 "front door",
        .commit 1, .tick 1000000, .commit 0, .tick 11000000]
      [.proceed true true, .put 0 1 "garage", .commit 0,
        .proceed true true]
      true true (by decide) (by decide +kernel)).1
    (by decide +kernel) ⟨⟨2, some 0⟩, "front door"⟩
    (by decide +kernel) (by decide +kernel)

end Sync

end SentinelCommand
