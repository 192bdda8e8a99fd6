import SentinelCommand.Webhooks.Clerk

/-
  What a Clerk event calls for.

  Every branch of `dispatch` writes some settings of one
  organization with errors swallowed, and then ends with
  statements whose errors are propagated. The table of
  branches says which, and the handler performs exactly what
  its row says.

  Main declarations:
    * `Clerk.branchFor`
    * `Clerk.dispatch_eq`
    * `Clerk.branchFor_keysDistinct`
-/

--------------------
-- Branch Table
--------------------

namespace SentinelCommand

namespace Clerk

open Faults

/- How a branch ends. -/
inductive Tail where
  | done
  | caps
  | eraseOrg
  | eraseUser
  deriving DecidableEq, Repr

/- The settings a branch writes, and how it ends. -/
structure Branch where
  orgId : String
  writes : List (String × String)
  tail : Tail
  deriving DecidableEq, Repr

/- A branch that writes nothing. -/
def Branch.idle : Branch :=
  { orgId := "", writes := [], tail := .done }

def subscriptionBranch
    (env : Env)
    (data : Fields)
    (settings : Settings) : Branch :=
  match payerOrg data with
  | none => .idle
  | some orgId =>
      let items :=
        ((data.lookup "items").bind Json.asArray).getD []
      let slug := activePlanSlug env items
      let clearPastDue :=
        if settings.get orgId "payment_past_due" "false" ==
            "true" then
          []
        else
          [("payment_past_due", "false"),
            ("payment_past_due_at", "")]
      let clearPending :=
        if hasActiveItem items then
          [("plan_cancel_pending", "")]
        else
          []
      { orgId := orgId
        writes :=
          ("org_plan", slug) ::
            (if paidInWebhook slug then
              clearPastDue ++ clearPending
            else
              [])
        tail := .caps }

def itemActiveBranch (data : Fields) : Branch :=
  let slug :=
    ((data.lookup "plan").bind Json.asObject).bind
      (fun plan => (plan.lookup "slug").bind Json.asStr)
  match payerOrg data, slug with
  | some orgId, some slug =>
      if slug = "free_org" ∨ slug = "pro" ∨ slug = "pro_plus"
      then
        { orgId := orgId
          writes :=
            [("org_plan", slug), ("plan_cancel_pending", "")] ++
              (if paidInWebhook slug then
                [("payment_past_due", "false"),
                  ("payment_past_due_at", "")]
              else
                [])
          tail := .caps }
      else
        .idle
  | _, _ => .idle

def pastDueBranch
    (env : Env)
    (data : Fields)
    (settings : Settings) : Except String Branch :=
  match payerOrg data with
  | none => .ok .idle
  | some orgId =>
      if settings.get orgId "payment_past_due" "false" == "true"
      then
        .ok
          { orgId := orgId
            writes := [("payment_past_due", "true")]
            tail := .done }
      else
        match env.pastDueStamp data with
        | .error message => .error message
        | .ok stamp =>
            .ok
              { orgId := orgId
                writes :=
                  [("payment_past_due", "true"),
                    ("payment_past_due_at", stamp)]
                tail := .done }

def paymentAttemptBranch (data : Fields) : Branch :=
  match payerOrg data with
  | none => .idle
  | some orgId =>
      if
        ((data.lookup "status").bind Json.asStr).getD "" =
          "paid"
      then
        { orgId := orgId
          writes :=
            [("payment_past_due", "false"),
              ("payment_past_due_at", "")]
          tail := .caps }
      else
        .idle

def itemCanceledBranch (data : Fields) : Branch :=
  match payerOrg data with
  | none => .idle
  | some orgId =>
      { orgId := orgId
        writes := [("plan_cancel_pending", "true")]
        tail := .done }

def itemEndedBranch
    (env : Env)
    (data : Fields) : Branch :=
  match payerOrg data with
  | none => .idle
  | some orgId =>
      { orgId := orgId
        writes :=
          [("org_plan", env.liveAfterEnd.getD "free_org"),
            ("plan_cancel_pending", ""),
            ("payment_past_due", "false")]
        tail := .caps }

/- A deletion of the object the payload names. -/
def deletionBranch (data : Fields) (tail : Tail) : Branch :=
  let id := ((data.lookup "id").bind Json.asStr).getD ""
  if id = "" then
    .idle
  else
    { orgId := id, writes := [], tail := tail }

/- The row of an event that reads its payload. -/
def onData
    (data : Option Fields)
    (branch : Fields → Except String Branch) :
    Except String Branch :=
  match data with
  | none => .error "webhook data is not an object"
  | some fields => branch fields

/- What an event calls for, or why it is refused. -/
def branchFor
    (env : Env)
    (eventType : String)
    (data : Option Fields)
    (settings : Settings) : Except String Branch :=
  if
    eventType = "subscription.created" ∨
      eventType = "subscription.updated" ∨
      eventType = "subscription.active"
  then
    onData data (fun fields =>
      .ok (subscriptionBranch env fields settings))
  else if eventType = "subscriptionItem.active" then
    onData data (fun fields => .ok (itemActiveBranch fields))
  else if
    eventType = "subscription.pastDue" ∨
      eventType = "subscriptionItem.pastDue"
  then
    onData data (fun fields => pastDueBranch env fields settings)
  else if eventType = "paymentAttempt.updated" then
    onData data (fun fields => .ok (paymentAttemptBranch fields))
  else if eventType = "subscriptionItem.canceled" then
    onData data (fun fields => .ok (itemCanceledBranch fields))
  else if eventType = "subscriptionItem.ended" then
    onData data (fun fields => .ok (itemEndedBranch env fields))
  else if notifies eventType then
    onData data (fun _ => .ok .idle)
  else if eventType = "organization.deleted" then
    onData data (fun fields => .ok (deletionBranch fields .eraseOrg))
  else if eventType = "user.deleted" then
    onData data (fun fields => .ok (deletionBranch fields .eraseUser))
  else
    .ok .idle

/- The settings effects of a branch. -/
def Branch.calls (branch : Branch) : List Effect :=
  branch.writes.map (fun write =>
    .setting branch.orgId write.1 write.2)

/- All effects of a branch, the cap included. -/
def Branch.effects (branch : Branch) : List Effect :=
  branch.calls ++
    (if branch.tail = .caps then
      [.caps branch.orgId]
    else
      [])

/- The propagated end of a branch. -/
def Branch.finish
    (env : Env)
    (branch : Branch) : Handler Unit :=
  match branch.tail with
  | .done => pure ()
  | .caps => reenforce env branch.orgId
  | .eraseOrg =>
      must (deleteOrgData branch.orgId) databaseError
  | .eraseUser => must id databaseError

/- A branch: its settings writes, then its end. -/
def Branch.perform
    (env : Env)
    (branch : Branch) : Handler Unit :=
  fun o w =>
    branch.finish env o (w.attemptedAll store o branch.calls)

--------------------
-- Branches Perform Their Rows
--------------------

variable {env : Env} {data : Fields} {o : Outcomes}
variable {w : World Db Effect}

/- Writing one setting leaves the others as they were. -/
theorem get_attempted_of_ne
    (o : Outcomes)
    (w : World Db Effect)
    (orgId value default : String)
    {key other : String}
    (hKey : other ≠ key) :
    (w.attempted store o
        (.setting orgId key value)).db.settings.get orgId other
          default =
      w.db.settings.get orgId other default := by
  unfold World.attempted
  split
  · rfl
  · split
    · simp [store, Settings.get, Settings.set, hKey]
    · rfl

theorem idle_run :
    Branch.idle.perform env o w = (.ok (), w) := by
  rfl

theorem subscriptionChanged_run :
    subscriptionChanged env data o w =
      (subscriptionBranch env data w.db.settings).perform env
        o w := by
  cases hOrg : payerOrg data with
  | none =>
      simp only [subscriptionChanged, subscriptionBranch, hOrg,
        idle_run]
      rfl
  | some orgId =>
      have hRead :=
        get_attempted_of_ne o w orgId
          (activePlanSlug env
            (((data.lookup "items").bind Json.asArray).getD []))
          "false"
          (by decide : "payment_past_due" ≠ "org_plan")
      cases hPaid :
          paidInWebhook
            (activePlanSlug env
              (((data.lookup "items").bind
                Json.asArray).getD [])) with
      | false =>
          simp [subscriptionChanged, subscriptionBranch, hOrg,
            hPaid, Branch.perform, Branch.finish, Branch.calls,
            World.attemptedAll, bind_run, setSetting,
            attempt_run]
      | true =>
          cases hDue :
              (w.db.settings.get orgId "payment_past_due"
                "false" == "true") <;>
            cases hActive :
                hasActiveItem
                  (((data.lookup "items").bind
                    Json.asArray).getD []) <;>
              simp [subscriptionChanged, subscriptionBranch,
                hOrg, hPaid, hRead, hDue, hActive,
                Branch.perform, Branch.finish, Branch.calls,
                World.attemptedAll, bind_run, read_run,
                setSetting, settingIsTrue, attempt_run]

theorem itemActive_run :
    itemActive env data o w =
      (itemActiveBranch data).perform env o w := by
  unfold itemActive itemActiveBranch
  cases hOrg : payerOrg data with
  | none => rfl
  | some orgId =>
      cases hSlug :
          ((data.lookup "plan").bind Json.asObject).bind
            (fun plan =>
              (plan.lookup "slug").bind Json.asStr) with
      | none => rfl
      | some slug =>
          by_cases hKnown :
              slug = "free_org" ∨ slug = "pro" ∨
                slug = "pro_plus"
          · cases hPaid : paidInWebhook slug <;>
              simp [hKnown, hPaid, Branch.perform,
                Branch.finish, Branch.calls,
                World.attemptedAll, bind_run, setSetting,
                attempt_run]
          · simp only [if_neg hKnown]
            rfl

theorem pastDue_run :
    pastDue env data o w =
      match pastDueBranch env data w.db.settings with
      | .error message => (.error message, w)
      | .ok branch => branch.perform env o w := by
  cases hOrg : payerOrg data with
  | none =>
      simp only [pastDue, pastDueBranch, hOrg, idle_run]
      rfl
  | some orgId =>
      cases hDue :
          (w.db.settings.get orgId "payment_past_due" "false"
            == "true") with
      | true =>
          simp [pastDue, pastDueBranch, hOrg, hDue,
            Branch.perform, Branch.finish, Branch.calls,
            World.attemptedAll, bind_run, read_run, setSetting,
            settingIsTrue, attempt_run, pure_run]
      | false =>
          cases hStamp : env.pastDueStamp data with
          | error message =>
              simp [pastDue, pastDueBranch, hOrg, hDue, hStamp,
                bind_run, read_run, settingIsTrue, refuse_run]
          | ok stamp =>
              simp [pastDue, pastDueBranch, hOrg, hDue, hStamp,
                Branch.perform, Branch.finish, Branch.calls,
                World.attemptedAll, bind_run, read_run,
                setSetting, settingIsTrue, attempt_run,
                pure_run]

theorem paymentAttempt_run :
    paymentAttempt env data o w =
      (paymentAttemptBranch data).perform env o w := by
  cases hOrg : payerOrg data with
  | none =>
      simp only [paymentAttempt, paymentAttemptBranch, hOrg]
      rfl
  | some orgId =>
      by_cases hPaid :
          ((data.lookup "status").bind Json.asStr).getD "" =
            "paid"
      · simp [paymentAttempt, paymentAttemptBranch, hOrg, hPaid,
          Branch.perform, Branch.finish, Branch.calls,
          World.attemptedAll, bind_run, setSetting, attempt_run]
      · simp only [paymentAttempt, paymentAttemptBranch, hOrg,
          if_neg hPaid]
        rfl

theorem itemCanceled_run :
    itemCanceled data o w =
      (itemCanceledBranch data).perform env o w := by
  cases hOrg : payerOrg data with
  | none =>
      simp only [itemCanceled, itemCanceledBranch, hOrg]
      rfl
  | some orgId =>
      simp [itemCanceled, itemCanceledBranch, hOrg,
        Branch.perform, Branch.finish, Branch.calls,
        World.attemptedAll, setSetting, attempt_run, pure_run]

theorem itemEnded_run :
    itemEnded env data o w =
      (itemEndedBranch env data).perform env o w := by
  cases hOrg : payerOrg data with
  | none =>
      simp only [itemEnded, itemEndedBranch, hOrg]
      rfl
  | some orgId =>
      simp [itemEnded, itemEndedBranch, hOrg, Branch.perform,
        Branch.finish, Branch.calls, World.attemptedAll,
        bind_run, setSetting, attempt_run]

theorem organizationDeleted_run :
    organizationDeleted data o w =
      (deletionBranch data .eraseOrg).perform env o w := by
  unfold organizationDeleted deletionBranch
  by_cases hNone :
      ((data.lookup "id").bind Json.asStr).getD "" = ""
  · simp only [if_pos hNone]
    rfl
  · simp only [if_neg hNone]
    rfl

theorem userDeleted_run :
    userDeleted data o w =
      (deletionBranch data .eraseUser).perform env o w := by
  unfold userDeleted deletionBranch
  by_cases hNone :
      ((data.lookup "id").bind Json.asStr).getD "" = ""
  · simp only [if_pos hNone]
    rfl
  · simp only [if_neg hNone]
    rfl

/- A world after a row: refused, or performed. -/
def rowRun
    (env : Env)
    (row : Except String Branch) : Handler Unit :=
  fun o w =>
    match row with
    | .error message => (.error message, w)
    | .ok branch => branch.perform env o w

theorem withData_run
    (data : Option Fields)
    {run : Fields → Handler Unit}
    {branch : Fields → Except String Branch}
    (hRun :
      ∀ fields, run fields o w = rowRun env (branch fields) o w) :
    withData data run o w =
      rowRun env (onData data branch) o w := by
  cases data with
  | none => rfl
  | some fields => exact hRun fields

/- One test of the dispatch, and the rows on both sides. -/
theorem ite_run
    {p : Prop}
    [Decidable p]
    {taken other : Handler Unit}
    {takenRow otherRow : Except String Branch}
    (hTaken : taken o w = rowRun env takenRow o w)
    (hOther : other o w = rowRun env otherRow o w) :
    (if p then taken else other) o w =
      rowRun env (if p then takenRow else otherRow) o w := by
  by_cases hTest : p
  · rw [if_pos hTest, if_pos hTest, hTaken]
  · rw [if_neg hTest, if_neg hTest, hOther]

/- Dispatch performs the row of the event, or refuses it. -/
theorem dispatch_eq
    (env : Env)
    (eventType : String)
    (data : Option Fields)
    (o : Outcomes)
    (w : World Db Effect) :
    dispatch env eventType data o w =
      rowRun env (branchFor env eventType data w.db.settings)
        o w := by
  unfold dispatch branchFor
  refine ite_run ?subscription (ite_run ?active (ite_run ?pastDue
    (ite_run ?attempt (ite_run ?canceled (ite_run ?ended
      (ite_run ?notified (ite_run ?organization
        (ite_run ?user ?unknown))))))))
  case subscription =>
    exact withData_run data (fun _ => subscriptionChanged_run)
  case active => exact withData_run data (fun _ => itemActive_run)
  case pastDue => exact withData_run data (fun _ => pastDue_run)
  case attempt =>
    exact withData_run data (fun _ => paymentAttempt_run)
  case canceled =>
    exact withData_run data (fun _ => itemCanceled_run)
  case ended => exact withData_run data (fun _ => itemEnded_run)
  case notified => exact withData_run data (fun _ => rfl)
  case organization =>
    exact withData_run data (fun _ => organizationDeleted_run)
  case user => exact withData_run data (fun _ => userDeleted_run)
  case unknown => rfl

--------------------
-- Distinct Keys
--------------------

variable {env : Env}

/- The keys a branch writes are distinct. -/
def Branch.KeysDistinct (branch : Branch) : Prop :=
  (branch.writes.map Prod.fst).Nodup

theorem idle_keysDistinct :
    Branch.idle.KeysDistinct := by
  exact List.nodup_nil

theorem subscriptionBranch_keysDistinct
    (data : Fields)
    (settings : Settings) :
    (subscriptionBranch env data settings).KeysDistinct := by
  unfold subscriptionBranch
  split
  · exact idle_keysDistinct
  · simp only [Branch.KeysDistinct]
    split
    · split <;> split <;> simp
    · simp

theorem itemActiveBranch_keysDistinct
    (data : Fields) :
    (itemActiveBranch data).KeysDistinct := by
  unfold itemActiveBranch
  dsimp only
  split
  · split
    · simp only [Branch.KeysDistinct]
      split <;> simp
    · exact idle_keysDistinct
  · exact idle_keysDistinct

theorem pastDueBranch_keysDistinct
    {data : Fields}
    {settings : Settings}
    {branch : Branch}
    (hRow : pastDueBranch env data settings = .ok branch) :
    branch.KeysDistinct := by
  unfold pastDueBranch at hRow
  split at hRow
  · cases hRow
    exact idle_keysDistinct
  · split at hRow
    · cases hRow
      simp [Branch.KeysDistinct]
    · split at hRow
      · cases hRow
      · cases hRow
        simp [Branch.KeysDistinct]

theorem paymentAttemptBranch_keysDistinct
    (data : Fields) :
    (paymentAttemptBranch data).KeysDistinct := by
  unfold paymentAttemptBranch
  split
  · exact idle_keysDistinct
  · split
    · simp [Branch.KeysDistinct]
    · exact idle_keysDistinct

theorem itemCanceledBranch_keysDistinct
    (data : Fields) :
    (itemCanceledBranch data).KeysDistinct := by
  unfold itemCanceledBranch
  split
  · exact idle_keysDistinct
  · simp [Branch.KeysDistinct]

theorem itemEndedBranch_keysDistinct
    (data : Fields) :
    (itemEndedBranch env data).KeysDistinct := by
  unfold itemEndedBranch
  split
  · exact idle_keysDistinct
  · simp [Branch.KeysDistinct]

theorem deletionBranch_keysDistinct
    (data : Fields)
    (tail : Tail) :
    (deletionBranch data tail).KeysDistinct := by
  unfold deletionBranch
  dsimp only
  split
  · exact idle_keysDistinct
  · exact List.nodup_nil

theorem onData_keysDistinct
    {data : Option Fields}
    {row : Fields → Except String Branch}
    {branch : Branch}
    (hRow : onData data row = .ok branch)
    (hDistinct :
      ∀ fields, row fields = .ok branch →
        branch.KeysDistinct) :
    branch.KeysDistinct := by
  cases data with
  | none => cases hRow
  | some fields => exact hDistinct fields hRow

theorem ite_keysDistinct
    {p : Prop}
    [Decidable p]
    {taken other : Except String Branch}
    {branch : Branch}
    (hTaken : taken = .ok branch → branch.KeysDistinct)
    (hOther : other = .ok branch → branch.KeysDistinct) :
    (if p then taken else other) = .ok branch →
      branch.KeysDistinct := by
  by_cases hTest : p
  · rw [if_pos hTest]
    exact hTaken
  · rw [if_neg hTest]
    exact hOther

theorem ok_keysDistinct
    {row branch : Branch}
    (hRow : row.KeysDistinct)
    (hSame : (.ok row : Except String Branch) = .ok branch) :
    branch.KeysDistinct := by
  cases hSame
  exact hRow

/- No branch writes one key twice. -/
theorem branchFor_keysDistinct
    {eventType : String}
    {data : Option Fields}
    {settings : Settings}
    {branch : Branch}
    (hRow : branchFor env eventType data settings = .ok branch) :
    branch.KeysDistinct := by
  revert hRow
  unfold branchFor
  refine ite_keysDistinct ?subscription (ite_keysDistinct ?active
    (ite_keysDistinct ?pastDue (ite_keysDistinct ?attempt
      (ite_keysDistinct ?canceled (ite_keysDistinct ?ended
        (ite_keysDistinct ?notified
          (ite_keysDistinct ?organization
            (ite_keysDistinct ?user ?unknown))))))))
  case subscription =>
    intro hRow
    exact
      onData_keysDistinct hRow (fun _ =>
        ok_keysDistinct (subscriptionBranch_keysDistinct _ _))
  case active =>
    intro hRow
    exact
      onData_keysDistinct hRow (fun _ =>
        ok_keysDistinct (itemActiveBranch_keysDistinct _))
  case pastDue =>
    intro hRow
    exact
      onData_keysDistinct hRow (fun _ =>
        pastDueBranch_keysDistinct)
  case attempt =>
    intro hRow
    exact
      onData_keysDistinct hRow (fun _ =>
        ok_keysDistinct (paymentAttemptBranch_keysDistinct _))
  case canceled =>
    intro hRow
    exact
      onData_keysDistinct hRow (fun _ =>
        ok_keysDistinct (itemCanceledBranch_keysDistinct _))
  case ended =>
    intro hRow
    exact
      onData_keysDistinct hRow (fun _ =>
        ok_keysDistinct (itemEndedBranch_keysDistinct _))
  case notified =>
    intro hRow
    exact
      onData_keysDistinct hRow (fun _ =>
        ok_keysDistinct idle_keysDistinct)
  case organization =>
    intro hRow
    exact
      onData_keysDistinct hRow (fun _ =>
        ok_keysDistinct (deletionBranch_keysDistinct _ _))
  case user =>
    intro hRow
    exact
      onData_keysDistinct hRow (fun _ =>
        ok_keysDistinct (deletionBranch_keysDistinct _ _))
  case unknown => exact ok_keysDistinct idle_keysDistinct

end Clerk

end SentinelCommand
