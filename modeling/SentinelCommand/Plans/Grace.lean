import SentinelCommand.Plans.PlanThreads

/-
  The grace period of an organization that is past due: the
  billing webhooks that write its flag and its anchor, one
  settings statement at a time, and the calls that answer the
  plan its caps are enforced against.

  The state notes every time an organization enters past due
  and every plan that is answered. All writes succeed; reads
  may fail, and what a live lookup answers is given with the
  call.

  Key definitions include:
    * `Plans.Grace.GraceState`
    * `Plans.Grace.setSetting`
    * `Plans.Grace.effectivePlanForCaps`
-/

--------------------
-- State
--------------------

namespace SentinelCommand

namespace Plans

namespace Grace

open Interleaving

/-
  A spell of being past due: the organization, and since when
  by Clerk's account.
-/
structure Spell where
  orgId : String
  since : Int
  deriving DecidableEq, Repr

/-
  A cached plan, with the nominal plan it was computed from.
  Where the anchor was past its grace, `overdue` is how many
  spells had begun when it was read.
-/
structure CachedPlan where
  slug : String
  nominal : String
  expiry : Int
  overdue : Option Nat
  deriving DecidableEq, Repr

/- A plan that was answered, and the spells there were. -/
structure GraceAnswer where
  orgId : String
  slug : String
  nominal : String
  clock : Int
  entered : Option Int
  deriving DecidableEq, Repr

structure GraceState where
  table : SettingsTable
  clock : Int
  effective : AList (fun _ : String => CachedPlan)
  spells : List Spell
  answers : List GraceAnswer

/-
  The steps that can go wrong: the flag that is raised, the
  anchor that is written, and a plan that is answered, out of
  the cache or computed.
-/
inductive GraceLabel where
  | free
  | enter (orgId : String) (since : Option Int)
  | anchor (orgId stamp : String)
  | hit (orgId : String) (began : Int)
  | answer (orgId : String) (overdue : Option Nat)
  deriving DecidableEq, Repr

abbrev GraceProgram : Type :=
  Thread GraceState GraceLabel

def spellsOf
    (spells : List Spell)
    (orgId : String) : List Spell :=
  spells.filter (fun spell => spell.orgId == orgId)

/- Since when, after the first `seen` of its spells. -/
def enteredAt
    (spells : List Spell)
    (orgId : String)
    (seen : Nat) : Option Int :=
  (((spellsOf spells orgId).take seen).getLast?).map Spell.since

/- When the organization last entered past due. -/
def entered
    (spells : List Spell)
    (orgId : String) : Option Int :=
  enteredAt spells orgId (spellsOf spells orgId).length

def pastDueFlag
    (table : SettingsTable)
    (orgId : String) : String :=
  table.get orgId "payment_past_due" "false"

/- The instant of an anchor, if it has one. -/
def instantOf
    (ctx : PlanContext)
    (text : String) : Option Int :=
  if text = "" then none else ctx.parsePastDueAt text

def anchorOf
    (ctx : PlanContext)
    (table : SettingsTable)
    (orgId : String) : Option Int :=
  instantOf ctx (table.get orgId "payment_past_due_at" "")

/- Whether the grace that began at an anchor has passed. -/
def graceOver
    (ctx : PlanContext)
    (now : Int)
    (pastDueAt : String) : Bool :=
  (instantOf ctx pastDueAt).any
    (fun since => hours (24 * paymentGraceDays) < now - since)

/- The reads of a call that succeed, and its live answer. -/
structure Call where
  reads : String → Bool
  live : Option String

/- What the table held when the process started. -/
def GraceState.start
    (ctx : PlanContext)
    (table : SettingsTable)
    (clock : Int) : GraceState where
  table := table
  clock := clock
  effective := ∅
  spells :=
    (table.rows.map SettingsRow.orgId).filterMap
      (fun orgId =>
        (anchorOf ctx table orgId).map (fun since =>
          { orgId := orgId, since := since }))
  answers := []

end Grace

end Plans

--------------------
-- Settings
--------------------

namespace Plans

namespace Grace

open Interleaving

/- A read that fails reads an empty text. -/
def readSetting
    (reads : Bool)
    (orgId key default : String)
    (next : String → GraceProgram) : GraceProgram :=
  atomic .free
    (fun s =>
      (s, if reads then s.table.get orgId key default else ""))
    next

def readClock (next : Int → GraceProgram) : GraceProgram :=
  atomic .free (fun s => (s, s.clock)) next

/- The flag goes up, and a spell of the organization begins. -/
def newSpell
    (before after : SettingsTable)
    (orgId : String)
    (since : Int) : List Spell :=
  if
    pastDueFlag before orgId ≠ "true" ∧
      pastDueFlag after orgId = "true"
  then
    [{ orgId := orgId, since := since }]
  else
    []

/-
  The second statement of a set. A past-due event gives the
  instant its spell began at, or it begins now.
-/
def GraceState.written
    (s : GraceState)
    (existing : Option SettingsRow)
    (orgId key value : String)
    (since : Option Int) : GraceState :=
  let table := s.table.write existing orgId key value
  { s with
    table := table
    spells :=
      s.spells ++
        newSpell s.table table orgId (since.getD s.clock) }

/-
  `settings::set`: a select, and a write unless the value is
  there.
-/
def setSetting
    (label : GraceLabel)
    (since : Option Int)
    (orgId key value : String)
    (next : GraceProgram) : GraceProgram :=
  atomic .free (fun s => (s, s.table.select orgId key))
    (fun existing =>
      if holdsValue existing value then
        next
      else
        atomic label
          (fun s =>
            (s.written existing orgId key value since, ()))
          (fun _ => next))

/- A set of anything but a raised flag or an anchor. -/
def setPlain
    (orgId key value : String)
    (next : GraceProgram) : GraceProgram :=
  setSetting .free none orgId key value next

def invalidateEffectivePlanCache
    (orgId : String)
    (next : GraceProgram) : GraceProgram :=
  atomic .free
    (fun s =>
      ({ s with effective := s.effective.erase orgId }, ()))
    (fun _ => next)

end Grace

end Plans

--------------------
-- Lookups
--------------------

namespace Plans

namespace Grace

open Interleaving

/-
  What a live lookup answers is given, and nothing where it
  is throttled or fails.
-/
def resolveOrgPlan
    (ctx : PlanContext)
    (call : Call)
    (orgId : String)
    (next : String → GraceProgram) : GraceProgram :=
  if ctx.localAuth then
    next "self_host"
  else
    readSetting (call.reads "org_plan") orgId "org_plan" ""
      (fun cached =>
        if isPaid cached then
          next cached
        else
          match call.live with
          | none => next (nonEmptyOrFree cached)
          | some live =>
              if live ≠ cached then
                setPlain orgId "org_plan" live (next live)
              else
                next live)

def noted
    (s : GraceState)
    (orgId slug nominal : String) : GraceAnswer where
  orgId := orgId
  slug := slug
  nominal := nominal
  clock := s.clock
  entered := entered s.spells orgId

/- The unexpired entry of an organization. -/
def found
    (s : GraceState)
    (orgId : String)
    (began : Int) : Option CachedPlan :=
  (s.effective.lookup orgId).filter
    (fun cached => began < cached.expiry)

/- The time is read before the lock is taken. -/
def lookUpEffective
    (orgId : String)
    (next : Option CachedPlan → GraceProgram) : GraceProgram :=
  readClock (fun began =>
    atomic (.hit orgId began)
      (fun s =>
        ({ s with
            answers :=
              s.answers ++
                (found s orgId began).toList.map
                  (fun cached =>
                    noted s orgId cached.slug
                      cached.nominal) },
          found s orgId began))
      next)

/- `cache_effective`, whose answer is the call's. -/
def insertEffective
    (s : GraceState)
    (orgId slug nominal : String)
    (overdue : Option Nat) : GraceState :=
  let inserted :=
    s.effective.insert orgId
      { slug := slug
        nominal := nominal
        expiry := s.clock + effectiveTtl
        overdue := overdue }
  { s with
    effective :=
      if effectiveMaxEntries < inserted.keys.length then
        retain (fun cached => s.clock < cached.expiry) inserted
      else
        inserted
    answers := s.answers ++ [noted s orgId slug nominal] }

def cacheEffective
    (orgId slug nominal : String)
    (overdue : Option Nat)
    (next : GraceProgram) : GraceProgram :=
  atomic (.answer orgId overdue)
    (fun s =>
      (insertEffective s orgId slug nominal overdue, ()))
    (fun _ => next)

/- The anchor, and how many spells had begun by then. -/
def readAnchor
    (reads : Bool)
    (orgId : String)
    (next : String → Nat → GraceProgram) : GraceProgram :=
  atomic .free
    (fun s =>
      (s,
        (if reads then
          s.table.get orgId "payment_past_due_at" ""
        else
          "",
          (spellsOf s.spells orgId).length)))
    (fun result => next result.1 result.2)

/- From the nominal plan on. -/
def tighten
    (ctx : PlanContext)
    (call : Call)
    (orgId nominal : String)
    (next : GraceProgram) : GraceProgram :=
  if ctx.localAuth then
    cacheEffective orgId nominal nominal none next
  else
    readSetting (call.reads "payment_past_due") orgId
      "payment_past_due" "false"
      (fun pastDue =>
        if pastDue ≠ "true" then
          cacheEffective orgId nominal nominal none next
        else
          readAnchor (call.reads "payment_past_due_at") orgId
            (fun pastDueAt seen =>
              readClock (fun now =>
                cacheEffective orgId
                  (planForCaps ctx.parsePastDueAt now nominal
                    pastDue pastDueAt)
                  nominal
                  (if graceOver ctx now pastDueAt then
                    some seen
                  else
                    none)
                  next)))

def effectivePlanForCaps
    (ctx : PlanContext)
    (call : Call)
    (orgId : String)
    (useCache : Bool)
    (next : GraceProgram) : GraceProgram :=
  let compute :=
    resolveOrgPlan ctx call orgId (fun nominal =>
      tighten ctx call orgId nominal next)
  if useCache then
    lookUpEffective orgId (fun
      | some _ => next
      | none => compute)
  else
    compute

/- The plan is read with the cache bypassed. -/
def enforceCameraCap
    (ctx : PlanContext)
    (call : Call)
    (orgId : String)
    (next : GraceProgram) : GraceProgram :=
  effectivePlanForCaps ctx call orgId false next

/- The sweep of a heartbeat, where the flag is up. -/
def nodeHeartbeat
    (ctx : PlanContext)
    (call : Call)
    (orgId : String) : GraceProgram :=
  readSetting (call.reads "payment_past_due") orgId
    "payment_past_due" "false"
    (fun pastDue =>
      if pastDue = "true" then
        enforceCameraCap ctx call orgId .done
      else
        .done)

end Grace

end Plans

--------------------
-- Webhooks
--------------------

namespace Plans

namespace Grace

open Interleaving

/- The two past-due settings, cleared one by one. -/
def clearPastDue
    (orgId : String)
    (next : GraceProgram) : GraceProgram :=
  setPlain orgId "payment_past_due" "false"
    (setPlain orgId "payment_past_due_at" "" next)

def settle
    (ctx : PlanContext)
    (call : Call)
    (orgId : String) : GraceProgram :=
  invalidateEffectivePlanCache orgId
    (enforceCameraCap ctx call orgId .done)

/- A flag that is held is not cleared by a snapshot. -/
def subscriptionChanged
    (ctx : PlanContext)
    (env : Clerk.Env)
    (call : Call)
    (data : Fields) : GraceProgram :=
  match Clerk.payerOrg data with
  | none => .done
  | some orgId =>
      let items :=
        ((data.lookup "items").bind Json.asArray).getD []
      let planSlug := Clerk.activePlanSlug env items
      let last :=
        if Clerk.hasActiveItem items then
          setPlain orgId "plan_cancel_pending" ""
            (settle ctx call orgId)
        else
          settle ctx call orgId
      setPlain orgId "org_plan" planSlug
        (if Clerk.paidInWebhook planSlug then
          readSetting (call.reads "payment_past_due") orgId
            "payment_past_due" "false"
            (fun held =>
              if held = "true" then last
              else clearPastDue orgId last)
        else
          settle ctx call orgId)

def itemActive
    (ctx : PlanContext)
    (call : Call)
    (data : Fields) : GraceProgram :=
  let slug :=
    ((data.lookup "plan").bind Json.asObject).bind
      (fun plan => (plan.lookup "slug").bind Json.asStr)
  match Clerk.payerOrg data, slug with
  | some orgId, some slug =>
      if slug = "free_org" ∨ slug = "pro" ∨ slug = "pro_plus"
      then
        setPlain orgId "org_plan" slug
          (setPlain orgId "plan_cancel_pending" ""
            (if Clerk.paidInWebhook slug then
              clearPastDue orgId (settle ctx call orgId)
            else
              settle ctx call orgId))
      else
        .done
  | _, _ => .done

/- When the spell of an event began, by its own account. -/
def eventSince
    (ctx : PlanContext)
    (env : Clerk.Env)
    (data : Fields) : Option Int :=
  match env.pastDueStamp data with
  | .error _ => none
  | .ok stamp => ctx.parsePastDueAt stamp

def raiseFlag
    (orgId : String)
    (since : Option Int)
    (next : GraceProgram) : GraceProgram :=
  setSetting (.enter orgId since) since orgId
    "payment_past_due" "true" next

def writeAnchor
    (orgId stamp : String)
    (next : GraceProgram) : GraceProgram :=
  setSetting (.anchor orgId stamp) none orgId
    "payment_past_due_at" stamp next

/- The anchor is stamped only when entering past due. -/
def pastDue
    (ctx : PlanContext)
    (env : Clerk.Env)
    (call : Call)
    (data : Fields) : GraceProgram :=
  match Clerk.payerOrg data with
  | none => .done
  | some orgId =>
      let since := eventSince ctx env data
      readSetting (call.reads "payment_past_due") orgId
        "payment_past_due" "false"
        (fun already =>
          if already = "true" then
            raiseFlag orgId since
              (invalidateEffectivePlanCache orgId .done)
          else
            match env.pastDueStamp data with
            | .error _ => .done
            | .ok stamp =>
                raiseFlag orgId since
                  (invalidateEffectivePlanCache orgId
                    (writeAnchor orgId stamp .done)))

def paymentAttempt
    (ctx : PlanContext)
    (call : Call)
    (data : Fields) : GraceProgram :=
  let status :=
    ((data.lookup "status").bind Json.asStr).getD ""
  match Clerk.payerOrg data with
  | none => .done
  | some orgId =>
      if status = "paid" then
        clearPastDue orgId (settle ctx call orgId)
      else
        .done

def itemCanceled (data : Fields) : GraceProgram :=
  match Clerk.payerOrg data with
  | none => .done
  | some orgId =>
      setPlain orgId "plan_cancel_pending" "true" .done

/- The flag is cleared here, and the anchor is not. -/
def itemEnded
    (ctx : PlanContext)
    (env : Clerk.Env)
    (call : Call)
    (data : Fields) : GraceProgram :=
  match Clerk.payerOrg data with
  | none => .done
  | some orgId =>
      setPlain orgId "org_plan" (afterEnd env.liveAfterEnd)
        (setPlain orgId "plan_cancel_pending" ""
          (setPlain orgId "payment_past_due" "false"
            (settle ctx call orgId)))

def dispatchBilling
    (ctx : PlanContext)
    (env : Clerk.Env)
    (call : Call)
    (eventType : String)
    (data : Fields) : GraceProgram :=
  if
    eventType = "subscription.created" ∨
      eventType = "subscription.updated" ∨
      eventType = "subscription.active"
  then
    subscriptionChanged ctx env call data
  else if eventType = "subscriptionItem.active" then
    itemActive ctx call data
  else if
    eventType = "subscription.pastDue" ∨
      eventType = "subscriptionItem.pastDue"
  then
    pastDue ctx env call data
  else if eventType = "paymentAttempt.updated" then
    paymentAttempt ctx call data
  else if eventType = "subscriptionItem.canceled" then
    itemCanceled data
  else if eventType = "subscriptionItem.ended" then
    itemEnded ctx env call data
  else
    .done

inductive GraceTask where
  | effectivePlan
      (call : Call)
      (orgId : String)
      (useCache : Bool)
  | enforce (call : Call) (orgId : String)
  | heartbeat (call : Call) (orgId : String)
  | webhook
      (env : Clerk.Env)
      (call : Call)
      (eventType : String)
      (data : Fields)
  | wait (span : Nat)

def startGrace
    (ctx : PlanContext) :
    GraceTask → Nat → GraceProgram
| .effectivePlan call orgId useCache, _ =>
    effectivePlanForCaps ctx call orgId useCache .done
| .enforce call orgId, _ =>
    enforceCameraCap ctx call orgId .done
| .heartbeat call orgId, _ => nodeHeartbeat ctx call orgId
| .webhook env call eventType data, _ =>
    dispatchBilling ctx env call eventType data
| .wait span, _ =>
    atomic .free
      (fun s => ({ s with clock := s.clock + span }, ()))
      (fun _ => .done)

/- What was answered along a run of events. -/
def graceAfter
    (ctx : PlanContext)
    (table : SettingsTable)
    (clock : Int)
    (events : List (Event GraceTask)) : GraceState :=
  (Run.exec (step (startGrace ctx))
    (initial (GraceState.start ctx table clock))
    events).shared

end Grace

end Plans

end SentinelCommand
