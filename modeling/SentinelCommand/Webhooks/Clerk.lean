import SentinelCommand.Json
import SentinelCommand.Lib.Faults
import SentinelCommand.Plans.Entitlement

/-
  The Clerk webhook: `dispatch` of `clerk_webhook.rs` and
  the delivery handler around it.

  The model starts from a verified, parsed delivery. It
  keeps the tables the plan branches write: `settings`, the
  camera flags and `processed_webhooks`. The seat-limit
  PATCH, the notifications and the erasure of a removed
  member are best-effort calls that write none of them.
  Clerk's answers, the clock and the date and float parsers
  are parameters.

  Key definitions include:
    * `Clerk.activePlanSlug`
    * `Clerk.enforceCameraCap`
    * `Clerk.dispatch`
-/

--------------------
-- Tables
--------------------

namespace SentinelCommand

namespace Clerk

open Faults

/- A `cameras` row. -/
structure Camera where
  cameraId : String
  orgId : String
  disabledByPlan : Option Bool
  deriving DecidableEq, Repr

/- Cameras are in `created_at ASC NULLS LAST, id ASC` order. -/
structure Db where
  settings : Settings
  cameras : List Camera
  processed : List (String × String)

/- What an event can bring about. -/
inductive Effect where
  | setting (orgId key value : String)
  | caps (orgId : String)
  deriving DecidableEq, Repr

/- Clerk's answers, the clock and the parsers. -/
structure Env where
  localAuth : Bool
  now : Int
  itemPeriodEndUtc : Fields → Option Int
  pastDueStamp : Fields → Except String String
  parsePastDueAt : String → Option Int
  liveAfterEnd : Option String
  throttled : Bool
  live : Option String

/- `settings::set` writes nothing when the value is there. -/
def store : Store Db Effect where
  holds
  | .setting orgId key value, db =>
      db.settings orgId key = some value
  | .caps _, _ => false
  apply
  | .setting orgId key value, db =>
      { db with settings := db.settings.set orgId key value }
  | .caps _, db => db

/- A handler over these tables. -/
abbrev Handler (α : Type) : Type :=
  Faults.Handler Db Effect α

def setSetting (orgId key value : String) : Handler Unit :=
  attempt store (.setting orgId key value)

def settingIsTrue (orgId key : String) : Handler Bool :=
  read (fun db => db.settings.get orgId key "false" == "true")

/- `data["payer"]["organization_id"]`. -/
def payerOrg (data : Fields) : Option String := do
  let payer ← data.lookup "payer"
  let fields ← payer.asObject
  let orgId ← (← fields.lookup "organization_id").asStr
  if orgId = "" then none else some orgId

/- The plan slug of an item, absent when it is empty. -/
def itemSlug (item : Fields) : Option String := do
  let plan ← (← item.lookup "plan").asObject
  let slug ← (← plan.lookup "slug").asStr
  if slug = "" then none else some slug

def itemStatus (item : Fields) : String :=
  ((item.lookup "status").bind Json.asStr).getD ""

/- The scan of `active_plan_slug` over the items. -/
def activePlanSlugFrom
    (env : Env) :
    List Json → Option String → String
| [], entitledCanceled => entitledCanceled.getD "free_org"
| item :: rest, entitledCanceled =>
    match item.asObject with
    | none => activePlanSlugFrom env rest entitledCanceled
    | some fields =>
        match itemSlug fields with
        | none => activePlanSlugFrom env rest entitledCanceled
        | some slug =>
            if itemStatus fields = "active" then
              slug
            else if
              itemStatus fields = "canceled" ∧
                entitledCanceled = none ∧
                (env.itemPeriodEndUtc fields).any
                  (fun periodEnd => env.now < periodEnd)
            then
              activePlanSlugFrom env rest (some slug)
            else
              activePlanSlugFrom env rest entitledCanceled

def activePlanSlug (env : Env) (items : List Json) : String :=
  activePlanSlugFrom env items none

/- An item that is active, not just paid through. -/
def hasActiveItem (items : List Json) : Bool :=
  items.any (fun item =>
    match item.asObject with
    | none => false
    | some fields =>
        (fields.lookup "status").bind Json.asStr =
            some "active" ∧
          (itemSlug fields).isSome)

/- `PAID_PLAN_SLUGS_WEBHOOK`, which has no `self_host`. -/
def paidInWebhook (slug : String) : Bool :=
  slug = "pro" ∨ slug = "pro_plus"

--------------------
-- Camera Cap
--------------------

/-
  `resolve_org_plan`. The write-back of a live answer is its
  own affair: its error is swallowed and it is no effect of
  the event.
-/
def writeBack (orgId slug : String) : Handler Unit :=
  swallow (fun db =>
    { db with settings := db.settings.set orgId "org_plan" slug })

def resolveOrgPlan
    (env : Env)
    (orgId : String) : Handler String :=
  if env.localAuth then
    pure "self_host"
  else do
    let cached ← read (fun db => db.settings.get orgId "org_plan" "")
    if Plans.isPaid cached then
      pure cached
    else if env.throttled then
      pure (Plans.nonEmptyOrFree cached)
    else
      match env.live with
      | none => pure (Plans.nonEmptyOrFree cached)
      | some live => do
          if live ≠ cached then
            writeBack orgId live
          pure live

/- `effective_plan_for_caps` with the cache bypassed. -/
def effectivePlanForCaps
    (env : Env)
    (orgId : String) : Handler String := do
  let nominal ← resolveOrgPlan env orgId
  if env.localAuth then
    pure nominal
  else do
    let pastDue ←
      read (fun db =>
        db.settings.get orgId "payment_past_due" "false")
    let pastDueAt ←
      read (fun db =>
        db.settings.get orgId "payment_past_due_at" "")
    pure
      (Plans.planForCaps env.parsePastDueAt env.now nominal
        pastDue pastDueAt)

/- The flags that change when a cap applies. -/
def flipTo
    (cap : Nat)
    (orgId : String)
    (cameras : List Camera) : List (String × Bool) :=
  let rows := cameras.filter (fun c => c.orgId = orgId)
  let keepIds := (rows.take cap).map Camera.cameraId
  rows.filterMap (fun c =>
    let shouldDisable := !keepIds.contains c.cameraId
    if c.disabledByPlan.getD false ≠ shouldDisable then
      some (c.cameraId, shouldDisable)
    else
      none)

/- `UPDATE cameras SET disabled_by_plan`. -/
def setFlag
    (orgId : String)
    (flip : String × Bool)
    (db : Db) : Db :=
  { db with
    cameras :=
      db.cameras.map (fun c =>
        if c.cameraId = flip.1 ∧ c.orgId = orgId then
          { c with disabledByPlan := some flip.2 }
        else
          c) }

/- The flips of an org under a plan, one statement each. -/
def capWrites
    (orgId plan : String)
    (db : Db) : List (Db → Db) :=
  (flipTo (Plans.getPlanLimits plan).maxCameras orgId
    db.cameras).map (setFlag orgId)

def databaseError : String := "database error"

def enforceCameraCap
    (env : Env)
    (orgId : String) : Handler Unit := do
  let plan ← effectivePlanForCaps env orgId
  let writes ← read (capWrites orgId plan)
  mustAll databaseError writes

def reenforce
    (env : Env)
    (orgId : String) : Handler Unit := do
  enforceCameraCap env orgId
  note (.caps orgId)

--------------------
-- Branches
--------------------

/- A subscription was created, updated or activated. -/
def subscriptionChanged
    (env : Env)
    (data : Fields) : Handler Unit :=
  match payerOrg data with
  | none => pure ()
  | some orgId => do
      let items :=
        ((data.lookup "items").bind Json.asArray).getD []
      let planSlug := activePlanSlug env items
      setSetting orgId "org_plan" planSlug
      if paidInWebhook planSlug then
        let pastDue ← settingIsTrue orgId "payment_past_due"
        if !pastDue then
          setSetting orgId "payment_past_due" "false"
          setSetting orgId "payment_past_due_at" ""
        if hasActiveItem items then
          setSetting orgId "plan_cancel_pending" ""
      reenforce env orgId

/- An item became active. -/
def itemActive
    (env : Env)
    (data : Fields) : Handler Unit :=
  let slug :=
    ((data.lookup "plan").bind Json.asObject).bind
      (fun plan => (plan.lookup "slug").bind Json.asStr)
  match payerOrg data, slug with
  | some orgId, some slug =>
      if slug = "free_org" ∨ slug = "pro" ∨ slug = "pro_plus"
      then do
        setSetting orgId "org_plan" slug
        setSetting orgId "plan_cancel_pending" ""
        if paidInWebhook slug then
          setSetting orgId "payment_past_due" "false"
          setSetting orgId "payment_past_due_at" ""
        reenforce env orgId
      else
        pure ()
  | _, _ => pure ()

/- A payment failed; the stamp is computed before a write. -/
def pastDue
    (env : Env)
    (data : Fields) : Handler Unit :=
  match payerOrg data with
  | none => pure ()
  | some orgId => do
      let already ← settingIsTrue orgId "payment_past_due"
      if already then
        setSetting orgId "payment_past_due" "true"
      else
        match env.pastDueStamp data with
        | .error message => refuse message
        | .ok stamp => do
            setSetting orgId "payment_past_due" "true"
            setSetting orgId "payment_past_due_at" stamp

/- A payment attempt changed its status. -/
def paymentAttempt
    (env : Env)
    (data : Fields) : Handler Unit :=
  let status :=
    ((data.lookup "status").bind Json.asStr).getD ""
  match payerOrg data with
  | none => pure ()
  | some orgId =>
      if status = "paid" then do
        setSetting orgId "payment_past_due" "false"
        setSetting orgId "payment_past_due_at" ""
        reenforce env orgId
      else
        pure ()

/- A cancellation was scheduled. -/
def itemCanceled (data : Fields) : Handler Unit :=
  match payerOrg data with
  | none => pure ()
  | some orgId =>
      setSetting orgId "plan_cancel_pending" "true"

/- A subscription item's period ended. -/
def itemEnded
    (env : Env)
    (data : Fields) : Handler Unit :=
  match payerOrg data with
  | none => pure ()
  | some orgId => do
      let liveSlug := env.liveAfterEnd.getD "free_org"
      setSetting orgId "org_plan" liveSlug
      setSetting orgId "plan_cancel_pending" ""
      setSetting orgId "payment_past_due" "false"
      reenforce env orgId

/- The rows of an erased organization are gone. -/
def deleteOrgData (orgId : String) (db : Db) : Db :=
  { db with
    settings :=
      fun org key =>
        if org = orgId then none else db.settings org key
    cameras := db.cameras.filter (fun c => c.orgId ≠ orgId) }

/- `erase_org`: one transaction. -/
def organizationDeleted (data : Fields) : Handler Unit :=
  let orgId := ((data.lookup "id").bind Json.asStr).getD ""
  if orgId = "" then
    pure ()
  else
    must (deleteOrgData orgId) databaseError

/- `erase_user_data`: one transaction on other tables. -/
def userDeleted (data : Fields) : Handler Unit :=
  let userId := ((data.lookup "id").bind Json.asStr).getD ""
  if userId = "" then
    pure ()
  else
    must id databaseError

--------------------
-- Deliveries
--------------------

/- The events that only notify. -/
def notifies (eventType : String) : Bool :=
  eventType = "subscriptionItem.freeTrialEnding" ∨
    eventType = "organizationMembership.created" ∨
    eventType = "organizationMembership.updated" ∨
    eventType = "organizationMembership.deleted" ∨
    eventType = "organization.created"

/- A branch on an object payload. -/
def withData
    (data : Option Fields)
    (run : Fields → Handler Unit) : Handler Unit :=
  match data with
  | none => refuse "webhook data is not an object"
  | some fields => run fields

/- The event branches. -/
def dispatch
    (env : Env)
    (eventType : String)
    (data : Option Fields) : Handler Unit :=
  if
    eventType = "subscription.created" ∨
      eventType = "subscription.updated" ∨
      eventType = "subscription.active"
  then
    withData data (subscriptionChanged env)
  else if eventType = "subscriptionItem.active" then
    withData data (itemActive env)
  else if
    eventType = "subscription.pastDue" ∨
      eventType = "subscriptionItem.pastDue"
  then
    withData data (pastDue env)
  else if eventType = "paymentAttempt.updated" then
    withData data (paymentAttempt env)
  else if eventType = "subscriptionItem.canceled" then
    withData data itemCanceled
  else if eventType = "subscriptionItem.ended" then
    withData data (itemEnded env)
  else if notifies eventType then
    withData data (fun _ => pure ())
  else if eventType = "organization.deleted" then
    withData data organizationDeleted
  else if eventType = "user.deleted" then
    withData data userDeleted
  else
    pure ()

/- The dedup row of a delivery. -/
def insertProcessed
    (msgId eventType : String)
    (db : Db) : Db :=
  { db with processed := (msgId, eventType) :: db.processed }

/- Mark a delivery done, unless it has no id. -/
def recordProcessed
    (msgId eventType : String) : Handler Unit :=
  if msgId = "" then
    pure ()
  else
    must (insertProcessed msgId eventType) databaseError

/- Whether a delivery id is in `processed_webhooks`. -/
def Db.seen (db : Db) (msgId : String) : Bool :=
  db.processed.any (fun row => row.1 = msgId)

def eventType (event : Fields) : String :=
  ((event.lookup "type").bind Json.asStr).getD ""

/- Only an absent `data` takes the default. -/
def eventData (event : Fields) : Option Fields :=
  ((event.lookup "data").getD (.object [])).asObject

/- One delivery; the dedup row is written last. -/
def clerkWebhook
    (env : Env)
    (msgId : String)
    (event : Fields) : Handler Unit := do
  let duplicate ←
    read (fun db => msgId != "" && db.seen msgId)
  if duplicate then
    pure ()
  else do
    dispatch env (eventType event) (eventData event)
    recordProcessed msgId (eventType event)

end Clerk

end SentinelCommand
