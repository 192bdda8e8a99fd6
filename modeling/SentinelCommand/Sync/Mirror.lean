import SentinelCommand.Sync.Writers

/-
  Which deletions reach the mirror.

  With the page of a table that reconciles deletes goes the
  list of every id the table has, and the service drops what
  it holds under no such id. A run that finds no row due
  sends nothing, and so no ids either: what was deleted
  stays in the mirror until some row of the table changes.

  Key definitions include:
    * `Sync.receive`
    * `Sync.Mirror.proceed`

  Main declarations:
    * `Sync.deletions_reach_iff`
    * `Sync.deleted_row_stays`
-/

--------------------
-- The Service
--------------------

namespace SentinelCommand

namespace Sync

variable {ι δ : Type} [DecidableEq ι]

/- `SELECT CAST(id AS TEXT)` over the whole table. -/
def Store.ids (store : Store ι δ) : List ι :=
  store.versions.map (fun v => v.row.id)

/-
  A confirmed push at the service: its rows replace those
  under their ids, then every row whose id is not among the
  known ones is tombstoned.
-/
def receive
    (mirror rows : List (Version ι δ))
    (knownIds : Option (List ι)) : List (Version ι δ) :=
  let upserted :=
    mirror.filter
        (fun v => v.row.id ∉ rows.map (fun r => r.row.id)) ++
      rows
  match knownIds with
  | none => upserted
  | some ids => upserted.filter (fun v => v.row.id ∈ ids)

/-
  The install, the ids read for the page it is pushing and
  what the service holds.
-/
structure Mirror (ι δ : Type) where
  world : World ι δ
  knownIds : Option (List ι)
  rows : List (Version ι δ)

def Mirror.install
    {ι δ : Type}
    (store : Store ι δ)
    (clock : Int) : Mirror ι δ where
  world := World.install store clock
  knownIds := none
  rows := []

end Sync

--------------------
-- Runs
--------------------

namespace Sync

variable {ι δ : Type} [LinearOrder ι]

namespace Mirror

/- The page is selected, then the ids are, then it is sent. -/
def proceed
    (reconcileDeletes : Bool)
    (m : Mirror ι δ)
    (cursorSaved idSaved : Bool) : Mirror ι δ :=
  match m.world.running with
  | none => m
  | some cycle =>
      match m.world.pushing.getLast? with
      | none => { m with world := m.world.select cycle }
      | some last =>
          if reconcileDeletes && m.knownIds.isNone then
            { m with knownIds := some m.world.store.ids }
          else
            { world :=
                m.world.confirm cycle last cursorSaved idSaved
              knownIds := none
              rows :=
                receive m.rows m.world.pushing m.knownIds }

def step
    (reconcileDeletes : Bool)
    (m : Mirror ι δ) : WorldEvent ι δ → Mirror ι δ
| .proceed cursorSaved idSaved =>
    m.proceed reconcileDeletes cursorSaved idSaved
| event => { m with world := m.world.step event }

/- The mirror has no row that is absent from the table. -/
def NoAbsent (m : Mirror ι δ) : Prop :=
  ∀ v ∈ m.rows, v.row.id ∈ m.world.store.ids

instance (m : Mirror ι δ) : Decidable m.NoAbsent :=
  inferInstanceAs
    (Decidable (∀ v ∈ m.rows, v.row.id ∈ m.world.store.ids))

end Mirror

/- What a run that starts now has read. -/
def World.nextCycle
    (w : World ι δ)
    (cursorRead idRead : Bool) : Cycle ι where
  key :=
    { cursor := if cursorRead then w.saved.cursor else none
      cursorId := if idRead then w.saved.cursorId else none }
  settled := settledAt w.clock

/- Some row of the table is due for a run. -/
def Store.SomeDue
    (store : Store ι δ)
    (cycle : Cycle ι) : Prop :=
  ∃ v ∈ store.versions, v.due cycle = true

/- Nobody commits, and no other run starts. -/
def WorldEvent.leavesTable : WorldEvent ι δ → Bool
| .commit _ => false
| .start _ _ => false
| _ => true

end Sync

--------------------
-- Steps
--------------------

namespace Sync

variable {ι δ : Type}
variable {m : Mirror ι δ}

/- Between runs there is no page, and no ids without one. -/
structure Ready (m : Mirror ι δ) : Prop where
  page : m.world.running = none → m.world.pushing = []
  ids : m.world.pushing = [] → m.knownIds = none

theorem ready_install
    (store : Store ι δ)
    (clock : Int) :
    Ready (Mirror.install store clock) where
  page := fun _ => rfl
  ids := fun _ => rfl

variable [LinearOrder ι]

/- What a run under way does next. -/
inductive RunMove
    (reconcileDeletes : Bool)
    (m : Mirror ι δ)
    (cursorSaved idSaved : Bool) : Mirror ι δ → Prop where
  | idle
      (hIdle : m.world.running = none) :
      RunMove reconcileDeletes m cursorSaved idSaved m
  | select
      (cycle : Cycle ι)
      (hRunning : m.world.running = some cycle)
      (hReady : m.world.pushing = []) :
      RunMove reconcileDeletes m cursorSaved idSaved
        { m with world := m.world.select cycle }
  | readIds
      (hRunning : m.world.running ≠ none)
      (hPushing : m.world.pushing ≠ [])
      (hReconcile : reconcileDeletes = true)
      (hNone : m.knownIds = none) :
      RunMove reconcileDeletes m cursorSaved idSaved
        { m with knownIds := some m.world.store.ids }
  | confirm
      (cycle : Cycle ι)
      (last : Version ι δ)
      (hRunning : m.world.running = some cycle)
      (hLast : m.world.pushing.getLast? = some last)
      (hKnown :
        reconcileDeletes = true → m.knownIds ≠ none) :
      RunMove reconcileDeletes m cursorSaved idSaved
        { world :=
            m.world.confirm cycle last cursorSaved idSaved
          knownIds := none
          rows :=
            receive m.rows m.world.pushing m.knownIds }

theorem move_of_proceed
    (reconcileDeletes : Bool)
    (m : Mirror ι δ)
    (cursorSaved idSaved : Bool) :
    RunMove reconcileDeletes m cursorSaved idSaved
      (m.proceed reconcileDeletes cursorSaved idSaved) := by
  unfold Mirror.proceed
  split
  · rename_i hIdle
    exact .idle hIdle
  · rename_i cycle hRunning
    split
    · rename_i hLast
      exact
        .select cycle hRunning
          (List.getLast?_eq_none_iff.mp hLast)
    · rename_i last hLast
      have hPushing : m.world.pushing ≠ [] := by
        intro hNil
        rw [hNil] at hLast
        cases hLast
      split
      · rename_i hRead
        rw [Bool.and_eq_true, Option.isNone_iff_eq_none]
          at hRead
        exact
          .readIds (by rw [hRunning]; nofun) hPushing hRead.1
            hRead.2
      · rename_i hRead
        refine .confirm cycle last hRunning hLast ?_
        intro hReconcile hNone
        simp [hReconcile, hNone] at hRead

theorem ready_move
    {reconcileDeletes cursorSaved idSaved : Bool}
    {next : Mirror ι δ}
    (hMove :
      RunMove reconcileDeletes m cursorSaved idSaved next)
    (hReady : Ready m) :
    Ready next := by
  rcases hReady with ⟨hPage, hIds⟩
  cases hMove with
  | idle _ => exact ⟨hPage, hIds⟩
  | select cycle _ hNil =>
      refine ⟨?_, fun _ => hIds hNil⟩
      intro hEnd
      simp only [World.select] at hEnd ⊢
      cases hRows : m.world.page cycle with
      | nil => rfl
      | cons first rest => simp [hRows] at hEnd
  | readIds hRunning hPushing _ _ =>
      exact
        ⟨fun hIdle => absurd hIdle hRunning,
          fun hNil => absurd hNil hPushing⟩
  | confirm cycle last _ _ _ =>
      exact ⟨fun _ => rfl, fun _ => rfl⟩

theorem ready_step
    (reconcileDeletes : Bool)
    (m : Mirror ι δ)
    (event : WorldEvent ι δ)
    (hReady : Ready m) :
    Ready (m.step reconcileDeletes event) := by
  cases event with
  | tick elapsed => exact ⟨hReady.page, hReady.ids⟩
  | put connection id data =>
      exact ⟨hReady.page, hReady.ids⟩
  | remove connection id => exact ⟨hReady.page, hReady.ids⟩
  | commit connection => exact ⟨hReady.page, hReady.ids⟩
  | start cursorRead idRead =>
      simp only [Mirror.step, World.step, World.start]
      split
      · exact ⟨hReady.page, hReady.ids⟩
      · exact ⟨nofun, hReady.ids⟩
  | proceed cursorSaved idSaved =>
      exact
        ready_move
          (move_of_proceed reconcileDeletes m cursorSaved
            idSaved)
          hReady

end Sync

--------------------
-- A Run That Nobody Disturbs
--------------------

namespace Sync

variable {ι δ : Type} [LinearOrder ι]
variable {store : Store ι δ}
variable {rows : List (Version ι δ)}
variable {cycle : Cycle ι}
variable {m : Mirror ι δ}

/-
  A run that began over this table, when the mirror held
  these rows: it has sent nothing yet, has found nothing
  due, or has sent a page with all the ids.
-/
structure Pushed
    (store : Store ι δ)
    (rows : List (Version ι δ))
    (cycle : Cycle ι)
    (m : Mirror ι δ) : Prop where
  table : m.world.store = store
  known : ∀ ids, m.knownIds = some ids → ids = store.ids
  progress :
    (m.rows = rows ∧ m.world.running = some cycle ∧
      (m.world.pushing ≠ [] → store.SomeDue cycle)) ∨
    (m.rows = rows ∧ m.world.running = none ∧
      ¬ store.SomeDue cycle) ∨
    (m.NoAbsent ∧ store.SomeDue cycle)

theorem someDue_iff
    (w : World ι δ)
    (cycle : Cycle ι) :
    w.store.SomeDue cycle ↔ w.page cycle ≠ [] := by
  rw [World.page, ne_eq, Paging.page_eq_nil_iff (by decide),
    Store.SomeDue]
  simp

/- Nothing stays that is not among the ids. -/
theorem mem_of_mem_receive
    {mirror page : List (Version ι δ)}
    {ids : List ι}
    {v : Version ι δ}
    (hMem : v ∈ receive mirror page (some ids)) :
    v.row.id ∈ ids :=
  of_decide_eq_true (List.mem_filter.mp hMem).2

theorem pushed_move
    {cursorSaved idSaved : Bool}
    {next : Mirror ι δ}
    (hMove : RunMove true m cursorSaved idSaved next)
    (hPushed : Pushed store rows cycle m) :
    Pushed store rows cycle next := by
  rcases hPushed with ⟨rfl, hIds, hProgress⟩
  cases hMove with
  | idle _ => exact ⟨rfl, hIds, hProgress⟩
  | select current hRunning hNil =>
      refine ⟨rfl, hIds, ?_⟩
      rcases hProgress with
        ⟨hRows, hCycle, _⟩ | ⟨_, hIdle, _⟩ | hDone
      · have hSame : current = cycle :=
          Option.some.inj (hRunning.symm.trans hCycle)
        subst hSame
        by_cases hDue : m.world.store.SomeDue current
        · have hPage := (someDue_iff m.world current).mp hDue
          refine Or.inl ⟨hRows, ?_, fun _ => hDue⟩
          simp [World.select, hPage]
        · have hPage : m.world.page current = [] := by
            by_contra hSome
            exact hDue ((someDue_iff m.world current).mpr hSome)
          refine Or.inr (Or.inl ⟨hRows, ?_, hDue⟩)
          simp [World.select, hPage]
      · rw [hIdle] at hRunning
        cases hRunning
      · exact Or.inr (Or.inr hDone)
  | readIds hRunning hPushing _ _ =>
      refine ⟨rfl, ?_, hProgress⟩
      rintro ids ⟨⟩
      rfl
  | confirm current last hRunning hLast hKnown =>
      refine ⟨rfl, by simp, Or.inr (Or.inr ⟨?_, ?_⟩)⟩
      · rcases Option.ne_none_iff_exists'.mp (hKnown rfl) with
          ⟨ids, hSome⟩
        intro v hMem
        simp only [hSome] at hMem
        exact hIds ids hSome ▸ mem_of_mem_receive hMem
      · rcases hProgress with
          ⟨_, _, hDue⟩ | ⟨_, hIdle, _⟩ | hDone
        · apply hDue
          intro hNil
          rw [hNil] at hLast
          cases hLast
        · rw [hIdle] at hRunning
          cases hRunning
        · exact hDone.2

theorem pushed_step
    (m : Mirror ι δ)
    (event : WorldEvent ι δ)
    (hPushed : Pushed store rows cycle m)
    (hLeaves : event.leavesTable = true) :
    Pushed store rows cycle (m.step true event) := by
  cases event with
  | tick elapsed =>
      exact ⟨hPushed.table, hPushed.known, hPushed.progress⟩
  | put connection id data =>
      exact ⟨hPushed.table, hPushed.known, hPushed.progress⟩
  | remove connection id =>
      exact ⟨hPushed.table, hPushed.known, hPushed.progress⟩
  | commit connection => cases hLeaves
  | start cursorRead idRead => cases hLeaves
  | proceed cursorSaved idSaved =>
      exact
        pushed_move
          (move_of_proceed true m cursorSaved idSaved) hPushed

/- The run has read its page key, and nothing more. -/
theorem pushed_start
    (hReady : Ready m)
    (hIdle : m.world.running = none)
    (cursorRead idRead : Bool) :
    Pushed m.world.store m.rows
      (m.world.nextCycle cursorRead idRead)
      (m.step true (.start cursorRead idRead)) := by
  have hNil := hReady.page hIdle
  simp only [Mirror.step, World.step, World.start, hIdle]
  refine ⟨rfl, ?_, Or.inl ⟨rfl, rfl, ?_⟩⟩
  · intro ids hSome
    rw [hReady.ids hNil] at hSome
    cases hSome
  · exact fun hPushing => absurd hNil hPushing

/-
  After a run during which nobody commits, the mirror holds
  no row that is absent from the table exactly when some row
  was due as the run started, or it held none before.
-/
theorem deletions_reach_iff
    (store : Store ι δ)
    (clock : Int)
    (past during : List (WorldEvent ι δ))
    (cursorRead idRead : Bool)
    (before : Mirror ι δ)
    (hPast :
      Run.exec (Mirror.step true)
        (Mirror.install store clock) past = before)
    (hIdle : before.world.running = none)
    (hLeaves : ∀ event ∈ during, event.leavesTable = true)
    (hEnd :
      (Run.exec (Mirror.step true) before
        (.start cursorRead idRead ::
          during)).world.running = none) :
    (Run.exec (Mirror.step true) before
        (.start cursorRead idRead :: during)).NoAbsent ↔
      before.world.store.SomeDue
          (before.world.nextCycle cursorRead idRead) ∨
        before.NoAbsent := by
  have hReady : Ready before :=
    hPast ▸
      Run.invariant_exec (ready_step true) past
        (ready_install store clock)
  have hPushed :=
    Run.invariant_of_meets pushed_step
      (pushed_start hReady hIdle cursorRead idRead)
      (Run.meets_of_forall
        (fun event hIn _ => hLeaves event hIn) _)
  rw [Run.exec_cons] at hEnd ⊢
  generalize
    Run.exec (Mirror.step true)
      (before.step true (.start cursorRead idRead))
      during = final
      at hEnd hPushed ⊢
  rcases hPushed with ⟨hStore, _, hProgress⟩
  rcases hProgress with
    ⟨_, hRunning, _⟩ | ⟨hRows, _, hNone⟩ | ⟨hClean, hDue⟩
  · rw [hEnd] at hRunning
    cases hRunning
  · rw [Mirror.NoAbsent, hRows, hStore]
    exact (or_iff_right hNone).symm
  · exact ⟨fun _ => Or.inl hDue, fun _ => hClean⟩

/- One row is inserted, left to settle and pushed. -/
def insertedAndPushed : List (WorldEvent Nat Unit) :=
  [.put 0 1 (), .commit 0, .tick 11000000, .start true true,
    .proceed true true, .proceed true true, .proceed true true]

/- Then it is deleted, and the table left to settle. -/
def deleted : List (WorldEvent Nat Unit) :=
  [.remove 0 1, .commit 0, .tick 11000000]

def emptyStore : Store Nat Unit where
  versions := []
  ids_nodup := List.nodup_nil

/- Another row was inserted in the transaction: it is due. -/
theorem deletions_reach_replaced :
    (Run.exec (Mirror.step true)
      (Run.exec (Mirror.step true)
        (Mirror.install emptyStore 0)
        (insertedAndPushed ++ .put 0 2 () :: deleted))
      (.start true true ::
        [.proceed true true, .proceed true true,
          .proceed true true])).NoAbsent :=
  (deletions_reach_iff emptyStore 0
      (insertedAndPushed ++ .put 0 2 () :: deleted)
      [.proceed true true, .proceed true true,
        .proceed true true]
      true true _ rfl (by decide +kernel) (by decide)
      (by decide +kernel)).mpr
    (Or.inl
      ⟨⟨⟨2, some 11000000⟩, ()⟩, by decide +kernel,
        by decide +kernel⟩)

/-
  The last change of the table is a deletion, and the run
  comes after it has settled: it ends with the row still in
  the mirror.
-/
theorem deleted_row_stays :
    (Run.exec (Mirror.step true)
        (Mirror.install emptyStore 0)
        (insertedAndPushed ++ deleted ++
          [.start true true,
            .proceed true true])).world.running = none ∧
      ¬ (Run.exec (Mirror.step true)
          (Mirror.install emptyStore 0)
          (insertedAndPushed ++ deleted ++
            [.start true true,
              .proceed true true])).NoAbsent := by
  decide +kernel

end Sync

end SentinelCommand
