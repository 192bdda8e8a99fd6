import Mathlib.Data.List.Sort
import SentinelCommand.Clock
import SentinelCommand.Lib.Calls

/-
  What one user has seen of the bell: `mark_viewed`,
  `clear_all`, the badge and the inbox, beside notifications
  that arrive.

  Every request first fetches the user's row, which
  `get_or_init_state` creates when there is none. The two
  writers then read the clock and send an UPDATE with what it
  said, so that another request may write in between.

  Main declarations:
    * `ReadState.BellCall`, `ReadState.program`
    * `ReadState.read_state_kept`
    * `ReadState.late_write_moves_back`
-/

--------------------
-- Inbox and Badge
--------------------

namespace SentinelCommand

namespace ReadState

/- A row of `notifications`, as far as the queries read it. -/
structure Notification where
  id : Int
  orgId : String
  audience : String
  createdAt : Option Int
  deriving DecidableEq, Repr

/- A row of `user_notification_state`. -/
structure StateRow where
  lastViewedAt : Option Int
  clearedAt : Option Int
  deriving DecidableEq, Repr

/- `audience_sql`. -/
def visibleTo (isAdmin : Bool) (n : Notification) : Bool :=
  isAdmin || n.audience = "all"

/- `created_at > $1`, which NULL on either side fails. -/
def createdAfter (n : Notification) : Option Int → Bool
| none => false
| some instant => n.createdAt.any (fun created => instant < created)

/- What the badge counts. -/
def unread
    (orgId : String)
    (isAdmin : Bool)
    (row : StateRow)
    (table : List Notification) : List Notification :=
  table.filter
    (fun n =>
      n.orgId = orgId && createdAfter n row.lastViewedAt &&
        visibleTo isAdmin n)

/- The inbox leaves it out because of `cleared_at`. -/
def hidden (row : StateRow) (n : Notification) : Bool :=
  row.clearedAt.isSome && !createdAfter n row.clearedAt

/- The WHERE of both queries of `list_notifications`. -/
def inbox
    (orgId : String)
    (isAdmin : Bool)
    (row : StateRow)
    (since : Int)
    (table : List Notification) : List Notification :=
  table.filter
    (fun n =>
      n.orgId = orgId &&
        n.createdAt.any (fun created => since ≤ created) &&
        !hidden row n && visibleTo isAdmin n)

/- `ORDER BY created_at DESC NULLS FIRST`. -/
def newestFirst (m n : Notification) : Bool :=
  match m.createdAt, n.createdAt with
  | none, _ => true
  | some _, none => false
  | some created, some other => other ≤ created

/- The flag `unread` of an item. -/
def unreadFlag (row : StateRow) (n : Notification) : Bool :=
  match row.lastViewedAt with
  | none => true
  | some seen => createdAfter n (some seen)

/- A page of the inbox, each item with its flag. -/
def page
    (row : StateRow)
    (limit offset : Nat)
    (rows : List Notification) : List (Notification × Bool) :=
  (((rows.mergeSort newestFirst).drop offset).take limit).map
    (fun n => (n, unreadFlag row n))

--------------------
-- Calls
--------------------

inductive Request where
  | markViewed
  | clearAll
  | unreadCount (isAdmin : Bool)
  | listNotifications (isAdmin : Bool) (limit offset hours : Nat)
  deriving DecidableEq, Repr

/-
  The clock, the user's row and the table of notifications.
  Beside them the stamps of the UPDATEs that have run.
-/
structure Shared where
  now : Int
  row : Option StateRow
  notifications : List Notification
  stamps : List Int

/-
  How far a call has come. `updating` sets `cleared_at` too
  when it comes from `clear_all`.
-/
inductive BellCall where
  | selecting (request : Request)
  | inserting (request : Request) (now : Int)
  | rereading (request : Request)
  | found (request : Request) (row : StateRow)
  | updating (clears : Bool) (stamp : Int)
  | counting
      (isAdmin : Bool)
      (limit offset : Nat)
      (row : StateRow)
      (since : Int)
  | paging
      (isAdmin : Bool)
      (limit offset : Nat)
      (row : StateRow)
      (since : Int)
      (total : Nat)
  | stamped (clears : Bool) (stamp : Int)
  | counted (row : StateRow) (counted : List Notification)
  | listed
      (row : StateRow)
      (total : Nat)
      (items : List (Notification × Bool))
  | failed
  deriving DecidableEq, Repr

inductive Start where
  | request (what : Request)
  | notify (n : Notification)
  | tick (elapsed : Nat)

def begin (w : Shared) : Start → Shared × Option BellCall
| .request what => (w, some (.selecting what))
| .notify n =>
    ({ w with notifications := w.notifications ++ [n] }, none)
| .tick elapsed => ({ w with now := w.now + elapsed }, none)

/- `INSERT … ON CONFLICT DO NOTHING`. -/
def insertState (w : Shared) (now : Int) : Shared :=
  { w with
    row :=
      match w.row with
      | some row => some row
      | none =>
          some { lastViewedAt := some now, clearedAt := none } }

/- The UPDATE of `mark_viewed`, or that of `clear_all`. -/
def updateState
    (w : Shared)
    (clears : Bool)
    (stamp : Int) : Shared :=
  { w with
    row := w.row.map
      (fun row =>
        { lastViewedAt := some stamp
          clearedAt :=
            if clears then some stamp else row.clearedAt })
    stamps := stamp :: w.stamps }

/- The handler goes on with the row it was given. -/
def handle
    (orgId : String)
    (w : Shared)
    (row : StateRow) : Request → BellCall
| .markViewed => .updating false w.now
| .clearAll => .updating true w.now
| .unreadCount isAdmin =>
    .counted row (unread orgId isAdmin row w.notifications)
| .listNotifications isAdmin limit offset windowHours =>
    .counting isAdmin limit offset row
      (w.now - hours windowHours)

/- A call goes on, its statement having run. -/
def advance
    (orgId : String)
    (w : Shared) : BellCall → Shared × BellCall
| .selecting request =>
    match w.row with
    | some row => (w, .found request row)
    | none => (w, .inserting request w.now)
| .inserting request now => (insertState w now, .rereading request)
| .rereading request =>
    match w.row with
    | some row => (w, .found request row)
    | none => (w, .failed)
| .found request row => (w, handle orgId w row request)
| .updating clears stamp =>
    (updateState w clears stamp, .stamped clears stamp)
| .counting isAdmin limit offset row since =>
    (w,
      .paging isAdmin limit offset row since
        (inbox orgId isAdmin row since w.notifications).length)
| .paging isAdmin limit offset row since total =>
    (w,
      .listed row total
        (page row limit offset
          (inbox orgId isAdmin row since w.notifications)))
| .stamped clears stamp => (w, .stamped clears stamp)
| .counted row rows => (w, .counted row rows)
| .listed row total items => (w, .listed row total items)
| .failed => (w, .failed)

/- The response has been sent. -/
def finished : BellCall → Bool
| .stamped _ _ | .counted _ _ | .listed _ _ _ | .failed => true
| _ => false

/- `fails` is whether the statement came back with an error. -/
def resume
    (orgId : String)
    (w : Shared)
    (call : BellCall)
    (fails : Bool) : Shared × BellCall :=
  if fails && !finished call then
    (w, .failed)
  else
    advance orgId w call

def program
    (orgId : String) :
    Calls.Program Shared BellCall Start Bool where
  begin := begin
  resume := resume orgId

abbrev Config : Type :=
  Calls.Config Shared BellCall

abbrev Event : Type :=
  Calls.Event Start Bool

def step (orgId : String) : Config → Event → Config :=
  Calls.step (program orgId)

/- A user who has not been seen before. -/
def newUser (now : Int) (table : List Notification) : Config :=
  Calls.initial
    { now := now
      row := none
      notifications := table
      stamps := [] }

--------------------
-- Writes in the Order of the Clock
--------------------

variable {orgId : String}
variable {w w' : Shared}
variable {c : Config}

/-
  If the event runs an UPDATE, no UPDATE with a later stamp
  has run before it.
-/
def InOrder (c : Config) (e : Event) : Prop :=
  match Calls.resumed c e with
  | some (.updating _ stamp, false) =>
      ∀ earlier ∈ c.shared.stamps, earlier ≤ stamp
  | _ => True

/- `last_viewed_at` is set and not before `cleared_at`. -/
def Sound (row : StateRow) : Prop :=
  ∃ viewed, row.lastViewedAt = some viewed ∧
    ∀ cleared, row.clearedAt = some cleared →
      cleared ≤ viewed

/-
  What an event leaves of the read-state: `last_viewed_at`
  has not gone back, `cleared_at` is not after it, and no
  badge counts what the inbox hides by the same row.
-/
structure Kept
    (orgId : String)
    (c : Config)
    (e : Event) : Prop where
  viewed :
    ∀ row seen, c.shared.row = some row →
      row.lastViewedAt = some seen →
        ∃ row' seen', (step orgId c e).shared.row = some row' ∧
          row'.lastViewedAt = some seen' ∧ seen ≤ seen'
  cleared :
    ∀ row cleared, (step orgId c e).shared.row = some row →
      row.clearedAt = some cleared →
        ∃ seen, row.lastViewedAt = some seen ∧ cleared ≤ seen
  badge :
    ∀ row rows, .counted row rows ∈ (step orgId c e).calls →
      ∀ n ∈ rows, hidden row n = false

/- What is known of a call while the row is `w.row`. -/
def CallFits (w : Shared) : BellCall → Prop
| .inserting _ now => now ≤ w.now
| .found _ row => w.row ≠ none ∧ Sound row
| .updating _ stamp =>
    w.row ≠ none ∧ stamp ≤ w.now ∧
      ∀ row seen, w.row = some row →
        row.lastViewedAt = some seen →
          seen ∈ w.stamps ∨ seen ≤ stamp
| .counted row rows =>
    Sound row ∧ ∀ n ∈ rows, createdAfter n row.lastViewedAt
| _ => True

/- What is known of the row. -/
structure RowFits (w : Shared) : Prop where
  absent : w.row = none → w.stamps = []
  sound : ∀ row, w.row = some row → Sound row
  latest :
    ∀ row seen, w.row = some row →
      row.lastViewedAt = some seen →
        seen ≤ w.now ∧ ∀ stamp ∈ w.stamps, stamp ≤ seen

/-
  What the other calls see of a step: time has not gone back,
  and a row that has changed is new or has been stamped.
-/
structure Later (w w' : Shared) : Prop where
  clock : w.now ≤ w'.now
  stays : w.row ≠ none → w'.row ≠ none
  row :
    w.row = none ∨ (w'.row = w.row ∧ w'.stamps = w.stamps) ∨
      ∀ row seen, w'.row = some row →
        row.lastViewedAt = some seen → seen ∈ w'.stamps

/- What is newer than the last look is newer than the clear. -/
theorem hidden_of_createdAfter
    {row : StateRow}
    {n : Notification}
    (hSound : Sound row)
    (hAfter : createdAfter n row.lastViewedAt = true) :
    hidden row n = false := by
  rcases hSound with ⟨viewed, hViewed, hCleared⟩
  rw [hViewed] at hAfter
  cases hClear : row.clearedAt with
  | none => simp [hidden, hClear]
  | some cleared =>
      have hLe := hCleared cleared hClear
      cases hCreated : n.createdAt with
      | none => simp [createdAfter, hCreated] at hAfter
      | some created =>
          have hLt : viewed < created := by
            simpa [createdAfter, hCreated] using hAfter
          simp only [hidden, hClear, createdAfter, hCreated,
            Option.any_some, Option.isSome_some, Bool.true_and,
            Bool.not_eq_false', decide_eq_true_eq]
          omega

theorem callFits_later
    {call : BellCall}
    (hLater : Later w w')
    (hFits : CallFits w call) :
    CallFits w' call := by
  cases call with
  | inserting request now =>
      exact Int.le_trans hFits hLater.clock
  | found request row => exact ⟨hLater.stays hFits.1, hFits.2⟩
  | updating clears stamp =>
      rcases hFits with ⟨hThere, hNow, hSeen⟩
      refine
        ⟨hLater.stays hThere, Int.le_trans hNow hLater.clock,
          ?_⟩
      intro row seen hRow hViewed
      rcases hLater.row with hNone | ⟨hSame, hStamps⟩ | hNew
      · exact absurd hNone hThere
      · rw [hSame] at hRow
        rw [hStamps]
        exact hSeen row seen hRow hViewed
      · exact Or.inl (hNew row seen hRow hViewed)
  | counted row rows => exact hFits
  | selecting request => trivial
  | rereading request => trivial
  | counting isAdmin limit offset row since => trivial
  | paging isAdmin limit offset row since total => trivial
  | stamped clears stamp => trivial
  | listed row total items => trivial
  | failed => trivial

theorem later_refl (w : Shared) : Later w w where
  clock := Int.le_refl _
  stays := id
  row := Or.inr (Or.inl ⟨rfl, rfl⟩)

theorem later_begin
    (w : Shared)
    (what : Start) :
    Later w (begin w what).1 := by
  cases what with
  | request what => exact later_refl w
  | notify n =>
      exact ⟨Int.le_refl _, id, Or.inr (Or.inl ⟨rfl, rfl⟩)⟩
  | tick elapsed =>
      refine ⟨?_, id, Or.inr (Or.inl ⟨rfl, rfl⟩)⟩
      simp only [begin]
      omega

theorem later_insertState
    (w : Shared)
    (now : Int) :
    Later w (insertState w now) := by
  cases hRow : w.row with
  | none =>
      exact
        ⟨Int.le_refl _, by simp [insertState, hRow],
          Or.inl hRow⟩
  | some row =>
      refine
        ⟨Int.le_refl _, by simp [insertState, hRow],
          Or.inr (Or.inl ⟨?_, rfl⟩)⟩
      simp [insertState, hRow]

theorem later_updateState
    (w : Shared)
    (clears : Bool)
    (stamp : Int) :
    Later w (updateState w clears stamp) := by
  refine
    ⟨Int.le_refl _, by simp [updateState],
      Or.inr (Or.inr ?_)⟩
  intro row seen hRow hViewed
  simp only [updateState, Option.map_eq_some_iff] at hRow
  rcases hRow with ⟨before, -, rfl⟩
  cases hViewed
  exact List.mem_cons_self

theorem later_advance
    (w : Shared)
    (call : BellCall) :
    Later w (advance orgId w call).1 := by
  cases call with
  | selecting request =>
      simp only [advance]
      split
      · exact later_refl w
      · exact later_refl w
  | inserting request now => exact later_insertState w now
  | rereading request =>
      simp only [advance]
      split
      · exact later_refl w
      · exact later_refl w
  | updating clears stamp =>
      exact later_updateState w clears stamp
  | found request row => exact later_refl w
  | counting isAdmin limit offset row since =>
      exact later_refl w
  | paging isAdmin limit offset row since total =>
      exact later_refl w
  | stamped clears stamp => exact later_refl w
  | counted row rows => exact later_refl w
  | listed row total items => exact later_refl w
  | failed => exact later_refl w

/- An UPDATE that is not late, and the row it leaves. -/
structure OnTime (w : Shared) (stamp : Int) : Prop where
  now : stamp ≤ w.now
  stamps : ∀ earlier ∈ w.stamps, earlier ≤ stamp
  seen :
    ∀ row seen, w.row = some row →
      row.lastViewedAt = some seen → seen ≤ stamp

theorem onTime_of_inOrder
    {clears : Bool}
    {stamp : Int}
    (hFits : CallFits w (.updating clears stamp))
    (hOrder : ∀ earlier ∈ w.stamps, earlier ≤ stamp) :
    OnTime w stamp where
  now := hFits.2.1
  stamps := hOrder
  seen := by
    intro row seen hRow hViewed
    rcases hFits.2.2 row seen hRow hViewed with hIn | hLe
    · exact hOrder seen hIn
    · exact hLe

theorem rowFits_updateState
    {stamp : Int}
    (hRow : RowFits w)
    (hTime : OnTime w stamp)
    (hThere : w.row ≠ none)
    (clears : Bool) :
    RowFits (updateState w clears stamp) := by
  rcases Option.ne_none_iff_exists'.mp hThere with
    ⟨before, hBefore⟩
  constructor
  · intro hNone
    simp [updateState, hBefore] at hNone
  · intro row hNext
    simp only [updateState, hBefore, Option.map_some,
      Option.some.injEq] at hNext
    subst hNext
    refine ⟨stamp, rfl, fun cleared hCleared => ?_⟩
    cases clears with
    | true =>
        cases hCleared
        exact Int.le_refl _
    | false =>
        rcases hRow.sound before hBefore with
          ⟨viewed, hViewed, hLe⟩
        have hSeen := hTime.seen before viewed hBefore hViewed
        have hClear := hLe cleared hCleared
        omega
  · intro row seen hNext hViewed
    simp only [updateState, hBefore, Option.map_some,
      Option.some.injEq] at hNext
    subst hNext
    cases hViewed
    refine ⟨hTime.now, fun earlier hEarlier => ?_⟩
    rcases List.mem_cons.mp hEarlier with rfl | hOld
    · exact Int.le_refl _
    · exact hTime.stamps earlier hOld

theorem rowFits_insertState
    {now : Int}
    (hRow : RowFits w)
    (hNow : now ≤ w.now) :
    RowFits (insertState w now) := by
  cases hThere : w.row with
  | some before =>
      have hSame : insertState w now = w := by
        cases w
        simp only at hThere
        simp [insertState, hThere]
      rw [hSame]
      exact hRow
  | none =>
      have hStamps := hRow.absent hThere
      constructor
      · intro hNone
        simp [insertState, hThere] at hNone
      · intro row hNext
        simp only [insertState, hThere,
          Option.some.injEq] at hNext
        subst hNext
        exact ⟨now, rfl, by simp⟩
      · intro row seen hNext hViewed
        simp only [insertState, hThere,
          Option.some.injEq] at hNext
        subst hNext
        cases hViewed
        refine ⟨hNow, ?_⟩
        simp [insertState, hStamps]

theorem rowFits_begin
    (hRow : RowFits w)
    (what : Start) :
    RowFits (begin w what).1 := by
  cases what with
  | request what => exact hRow
  | notify n => exact ⟨hRow.absent, hRow.sound, hRow.latest⟩
  | tick elapsed =>
      refine ⟨hRow.absent, hRow.sound, ?_⟩
      intro row seen hNow hViewed
      rcases hRow.latest row seen hNow hViewed with
        ⟨hLe, hStamps⟩
      refine ⟨?_, hStamps⟩
      simp only [begin]
      omega

/- The call goes on without writing late. -/
theorem rowFits_advance
    {call : BellCall}
    (hRow : RowFits w)
    (hCall : CallFits w call)
    (hOrder :
      ∀ clears stamp, call = .updating clears stamp →
        ∀ earlier ∈ w.stamps, earlier ≤ stamp) :
    RowFits (advance orgId w call).1 := by
  cases call with
  | selecting request =>
      simp only [advance]
      split
      · exact hRow
      · exact hRow
  | inserting request now => exact rowFits_insertState hRow hCall
  | rereading request =>
      simp only [advance]
      split
      · exact hRow
      · exact hRow
  | updating clears stamp =>
      have hTime :=
        onTime_of_inOrder hCall (hOrder clears stamp rfl)
      exact rowFits_updateState hRow hTime hCall.1 clears
  | found request row => exact hRow
  | counting isAdmin limit offset row since => exact hRow
  | paging isAdmin limit offset row since total => exact hRow
  | stamped clears stamp => exact hRow
  | counted row rows => exact hRow
  | listed row total items => exact hRow
  | failed => exact hRow

theorem callFits_handle
    {row : StateRow}
    (hRow : RowFits w)
    (hThere : w.row ≠ none)
    (hSound : Sound row)
    (request : Request) :
    CallFits w (handle orgId w row request) := by
  have hStamp :
      ∀ row seen, w.row = some row →
        row.lastViewedAt = some seen →
          seen ∈ w.stamps ∨ seen ≤ w.now :=
    fun row seen hNow hViewed =>
      Or.inr (hRow.latest row seen hNow hViewed).1
  cases request with
  | markViewed => exact ⟨hThere, Int.le_refl _, hStamp⟩
  | clearAll => exact ⟨hThere, Int.le_refl _, hStamp⟩
  | unreadCount isAdmin =>
      refine ⟨hSound, fun n hIn => ?_⟩
      have hCounts := (List.mem_filter.mp hIn).2
      simp only [Bool.and_eq_true] at hCounts
      exact hCounts.1.2
  | listNotifications isAdmin limit offset windowHours => trivial

theorem callFits_advance
    {call : BellCall}
    (hRow : RowFits w)
    (hCall : CallFits w call) :
    CallFits (advance orgId w call).1
      (advance orgId w call).2 := by
  cases call with
  | selecting request =>
      simp only [advance]
      split
      · rename_i row hThere
        exact ⟨by simp [hThere], hRow.sound row hThere⟩
      · exact Int.le_refl _
  | inserting request now => trivial
  | rereading request =>
      simp only [advance]
      split
      · rename_i row hThere
        exact ⟨by simp [hThere], hRow.sound row hThere⟩
      · trivial
  | found request row =>
      exact callFits_handle hRow hCall.1 hCall.2 request
  | counted row rows => exact hCall
  | updating clears stamp => trivial
  | counting isAdmin limit offset row since => trivial
  | paging isAdmin limit offset row since total => trivial
  | stamped clears stamp => trivial
  | listed row total items => trivial
  | failed => trivial

/- What holds of the row and the calls along a run. -/
structure Fits (c : Config) : Prop where
  row : RowFits c.shared
  calls : ∀ call ∈ c.calls, CallFits c.shared call

theorem fits_begin
    (hFits : Fits c)
    (what : Start) :
    Fits (step orgId c (.start what)) where
  row := rowFits_begin hFits.row what
  calls := by
    intro call hCall
    rcases List.mem_append.mp hCall with hOld | hNew
    · exact
        callFits_later (later_begin c.shared what)
          (hFits.calls call hOld)
    · cases what with
      | request what =>
          rw [List.mem_singleton.mp hNew]
          trivial
      | notify n => exact absurd hNew List.not_mem_nil
      | tick elapsed => exact absurd hNew List.not_mem_nil

/- An event that is not a late UPDATE. -/
theorem fits_step
    (c : Config)
    (e : Event)
    (hFits : Fits c)
    (hOrder : InOrder c e) :
    Fits (step orgId c e) := by
  cases e with
  | start what => exact fits_begin hFits what
  | resume id fails =>
      simp only [step, Calls.step]
      cases hCall : c.calls[id]? with
      | none => exact hFits
      | some call =>
          have hThis :=
            hFits.calls call (List.mem_of_getElem? hCall)
          simp only [program, resume]
          split
          · exact
              ⟨hFits.row,
                Calls.forall_resumed hFits.calls trivial⟩
          · rename_i hRuns
            have hLate :
                ∀ clears stamp, call = .updating clears stamp →
                  ∀ earlier ∈ c.shared.stamps,
                    earlier ≤ stamp := by
              rintro clears stamp rfl
              have hOk : fails = false := by
                simpa [finished] using hRuns
              simpa [InOrder, Calls.resumed, hCall, hOk] using
                hOrder
            constructor
            · exact rowFits_advance hFits.row hThis hLate
            · apply Calls.forall_resumed
              · intro other hOther
                exact
                  callFits_later (later_advance c.shared call)
                    (hFits.calls other hOther)
              · exact callFits_advance hFits.row hThis

/- `last_viewed_at` goes on from where it was. -/
theorem viewed_advance
    {call : BellCall}
    {row : StateRow}
    {seen : Int}
    (hCall : CallFits w call)
    (hOrder :
      ∀ clears stamp, call = .updating clears stamp →
        ∀ earlier ∈ w.stamps, earlier ≤ stamp)
    (hRow : w.row = some row)
    (hViewed : row.lastViewedAt = some seen) :
    ∃ row' seen',
      (advance orgId w call).1.row = some row' ∧
        row'.lastViewedAt = some seen' ∧ seen ≤ seen' := by
  have hSame :
      ∃ row' seen', w.row = some row' ∧
        row'.lastViewedAt = some seen' ∧ seen ≤ seen' :=
    ⟨row, seen, hRow, hViewed, Int.le_refl _⟩
  cases call with
  | selecting request =>
      simp only [advance, hRow]
      exact ⟨row, seen, rfl, hViewed, Int.le_refl _⟩
  | inserting request now =>
      refine ⟨row, seen, ?_, hViewed, Int.le_refl _⟩
      simp [advance, insertState, hRow]
  | rereading request =>
      simp only [advance, hRow]
      exact ⟨row, seen, rfl, hViewed, Int.le_refl _⟩
  | updating clears stamp =>
      have hTime :=
        onTime_of_inOrder hCall (hOrder clears stamp rfl)
      refine
        ⟨{ lastViewedAt := some stamp
           clearedAt :=
             if clears then some stamp else row.clearedAt },
          stamp, ?_, rfl, hTime.seen row seen hRow hViewed⟩
      simp [advance, updateState, hRow]
  | found request row => exact hSame
  | counting isAdmin limit offset row since => exact hSame
  | paging isAdmin limit offset row since total => exact hSame
  | stamped clears stamp => exact hSame
  | counted row rows => exact hSame
  | listed row total items => exact hSame
  | failed => exact hSame

theorem viewed_step
    {e : Event}
    {row : StateRow}
    {seen : Int}
    (hFits : Fits c)
    (hOrder : InOrder c e)
    (hRow : c.shared.row = some row)
    (hViewed : row.lastViewedAt = some seen) :
    ∃ row' seen',
      (step orgId c e).shared.row = some row' ∧
        row'.lastViewedAt = some seen' ∧ seen ≤ seen' := by
  have hSame :
      ∃ row' seen', c.shared.row = some row' ∧
        row'.lastViewedAt = some seen' ∧ seen ≤ seen' :=
    ⟨row, seen, hRow, hViewed, Int.le_refl _⟩
  cases e with
  | start what =>
      cases what with
      | request what => exact hSame
      | notify n => exact hSame
      | tick elapsed => exact hSame
  | resume id fails =>
      simp only [step, Calls.step]
      cases hCall : c.calls[id]? with
      | none => exact hSame
      | some call =>
          simp only [program, resume]
          split
          · exact hSame
          · rename_i hRuns
            apply
              viewed_advance
                (hFits.calls call (List.mem_of_getElem? hCall))
                ?_ hRow hViewed
            rintro clears stamp rfl
            have hOk : fails = false := by
              simpa [finished] using hRuns
            simpa [InOrder, Calls.resumed, hCall, hOk] using
              hOrder

theorem kept_of_inOrder
    {e : Event}
    (hFits : Fits c)
    (hOrder : InOrder c e) :
    Kept orgId c e where
  viewed _ _ hRow hViewed :=
    viewed_step hFits hOrder hRow hViewed
  cleared row cleared hRow hCleared := by
    have hNext : Fits (step orgId c e) :=
      fits_step c e hFits hOrder
    rcases hNext.row.sound row hRow with ⟨viewed, hViewed, hLe⟩
    exact ⟨viewed, hViewed, hLe cleared hCleared⟩
  badge row rows hCall n hIn := by
    have hNext : Fits (step orgId c e) :=
      fits_step c e hFits hOrder
    rcases hNext.calls _ hCall with ⟨hSound, hAfter⟩
    exact hidden_of_createdAfter hSound (hAfter n hIn)

/- A late UPDATE moves `last_viewed_at` back. -/
theorem inOrder_of_kept
    {e : Event}
    (hFits : Fits c)
    (hKept : Kept orgId c e) :
    InOrder c e := by
  unfold InOrder
  split
  · rename_i clears stamp hResumed
    intro earlier hEarlier
    cases e with
    | start what => cases hResumed
    | resume id fails =>
        rcases Option.map_eq_some_iff.mp hResumed with
          ⟨call, hCall, hSame⟩
        cases hSame
        have hThis :=
          hFits.calls _ (List.mem_of_getElem? hCall)
        rcases Option.ne_none_iff_exists'.mp hThis.1 with
          ⟨row, hRow⟩
        rcases hFits.row.sound row hRow with
          ⟨viewed, hViewed, -⟩
        have hPast :=
          (hFits.row.latest row viewed hRow hViewed).2 earlier
            hEarlier
        rcases hKept.viewed row viewed hRow hViewed with
          ⟨row', seen, hNext, hSeen, hLe⟩
        have hStamp : seen = stamp := by
          simp only [step, Calls.step, hCall, program, resume,
            Bool.false_and, Bool.false_eq_true, if_false,
            advance, updateState, hRow, Option.map_some,
            Option.some.injEq] at hNext
          subst hNext
          exact (Option.some.inj hSeen).symm
        omega
  · trivial

theorem fits_newUser
    (now : Int)
    (table : List Notification) :
    Fits (newUser now table) := by
  constructor
  · constructor
    · intro _
      rfl
    · intro row hRow
      cases hRow
    · intro row seen hRow
      cases hRow
  · intro call hCall
    exact absurd hCall List.not_mem_nil

/-
  The read-state is kept by every step of a run exactly when
  its UPDATEs run in the order of their stamps.
-/
theorem read_state_kept
    (orgId : String)
    (now : Int)
    (table : List Notification)
    (events : List Event) :
    (∀ past e, past ++ [e] <+: events →
        Kept orgId
          (Run.exec (step orgId) (newUser now table) past)
          e) ↔
      Run.Meets (step orgId) InOrder (newUser now table)
        events := by
  rw [← Run.meets_iff_forall_prefix]
  apply Run.meets_iff_of_invariant fits_step ?_ events
    (fits_newUser now table)
  intro c e hFits
  exact ⟨inOrder_of_kept hFits, kept_of_inOrder hFits⟩

/-
  Mark all read, with its clock read, then a notification,
  then clear all from another tab. The first UPDATE is late,
  and the badge is asked for.
-/
def lateMark (n : Notification) : List Event :=
  [.start (.request .markViewed), .resume 0 false,
    .resume 0 false, .resume 0 false, .resume 0 false,
    .start (.tick 1), .start (.notify n),
    .start (.request .clearAll), .resume 1 false,
    .resume 1 false, .resume 1 false, .resume 0 false,
    .start (.request (.unreadCount true)), .resume 2 false,
    .resume 2 false]

def cameraOffline : Notification where
  id := 1
  orgId := "org"
  audience := "all"
  createdAt := some 1

/- The badge counts what the inbox has cleared. -/
theorem late_write_moves_back :
    ¬ ∀ (orgId : String)
        (now : Int)
        (table : List Notification)
        (events : List Event)
        (past : List Event)
        (e : Event),
      past ++ [e] <+: events →
        Kept orgId
          (Run.exec (step orgId) (newUser now table) past)
          e := by
  intro hAll
  have hKept :=
    hAll "org" 0 [] (lateMark cameraOffline)
      ((lateMark cameraOffline).take 14) (.resume 2 false)
      (List.prefix_refl _)
  have hCounted :
      .counted
          { lastViewedAt := some 0, clearedAt := some 1 }
          [cameraOffline] ∈
        (step "org"
          (Run.exec (step "org") (newUser 0 [])
            ((lateMark cameraOffline).take 14))
          (.resume 2 false)).calls := by
    decide
  have hShown :=
    hKept.badge _ _ hCounted cameraOffline
      (List.mem_singleton_self _)
  exact absurd hShown (by decide)

end ReadState

end SentinelCommand
