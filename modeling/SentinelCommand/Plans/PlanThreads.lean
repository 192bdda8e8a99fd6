import Mathlib.Data.List.AList
import SentinelCommand.Lib.Interleaving
import SentinelCommand.Plans.SettingsTable
import SentinelCommand.Webhooks.Clerk

/-
  Plan lookups, the plan reconciler and the billing webhooks
  as threads over the settings and the two caches of
  `plans.rs`.

  Beside what the program holds, the state notes what Clerk
  would answer, which writes have been dealt with, what the
  cached plans were computed from, and which slugs are about
  to be written. One clock serves both of the program's, and
  the seat limit and the camera flags, which no plan depends
  on, are left out.

  Key definitions include:
    * `Plans.PlanState`
    * `Plans.setSetting`
    * `Plans.resolveOrgPlan`, `Plans.effectivePlanForCaps`
-/

--------------------
-- State
--------------------

namespace SentinelCommand

namespace Plans

open Interleaving

/- A committed write of a plan or past-due setting. -/
structure PlanWrite where
  orgId : String
  commit : Nat
  deriving DecidableEq, Repr

/-
  What a plan was computed from: the commits there were when
  its first setting was read, if any was read, and the
  computation's own write-back.
-/
structure Source where
  readFrom : Option Nat
  own : Option Nat
  deriving DecidableEq, Repr

/- Nothing was read before the write, or it is its own. -/
def Source.Sees (source : Source) (w : PlanWrite) : Prop :=
  source.own = some w.commit ∨
    source.readFrom.all (fun n => w.commit ≤ n) = true

instance (source : Source) (w : PlanWrite) :
    Decidable (source.Sees w) := by
  unfold Source.Sees
  infer_instance

/- A cached effective plan. -/
structure Cached where
  slug : String
  expiry : Int
  source : Source
  deriving DecidableEq, Repr

/-
  A write no invalidation of its handler follows any more,
  and when that came to be.
-/
structure Settled where
  write : PlanWrite
  since : Int
  deriving DecidableEq, Repr

/- A cache hit, with the writes returned when it began. -/
structure Hit where
  before : List PlanWrite
  orgId : String
  slug : String
  source : Source
  deriving DecidableEq, Repr

/- A slug the thread `id` is about to write. -/
structure Pending where
  id : Nat
  orgId : String
  slug : String
  deriving DecidableEq, Repr

/-
  The settings, what Clerk would answer, the caches, and the
  notes. `confirmed` are the organizations whose present
  entitlement a webhook has written.
-/
structure PlanState where
  table : SettingsTable
  entitlement : String → String
  clock : Int
  lastResolveAt : AList (fun _ : String => Int)
  lastPruneAt : Option Int
  effective : AList (fun _ : String => Cached)
  commits : Nat
  settled : List Settled
  returned : List PlanWrite
  hits : List Hit
  pending : List Pending
  confirmed : List String

/- A process that has just started. -/
def PlanState.initial
    (table : SettingsTable)
    (entitlement : String → String)
    (clock : Int) : PlanState where
  table := table
  entitlement := entitlement
  clock := clock
  lastResolveAt := ∅
  lastPruneAt := none
  effective := ∅
  commits := 0
  settled := []
  returned := []
  hits := []
  pending := []
  confirmed := []

/-
  The steps that can go wrong: a write that no invalidation
  follows, an answer that is cached, a webhook that takes up
  a slug, and the two statements that write its slug.
-/
inductive PlanLabel where
  | quiet
  | bare (orgId : String)
  | cache (orgId : String) (source : Source)
  | take (orgId slug : String)
  | check (id : Nat) (orgId slug : String)
  | report
      (id : Nat)
      (orgId slug : String)
      (existing : Option SettingsRow)
  deriving DecidableEq, Repr

abbrev PlanProgram : Type :=
  Thread PlanState PlanLabel

/- `AUTH_PROVIDER` and the stamp parser. -/
structure PlanContext where
  localAuth : Bool
  parsePastDueAt : String → Option Int

/-
  Which statements of a call succeed, by key, and whether
  Clerk answers it.
-/
structure Outcomes where
  reads : String → Bool
  stores : String → Bool
  answers : Bool

def Outcomes.good : Outcomes where
  reads _ := true
  stores _ := true
  answers := true

--------------------
-- Settings
--------------------

/-
  How a write is used: an unrelated setting, a write an
  invalidation follows, one that none follows, the plan of a
  webhook, and the write-back of a live answer.
-/
inductive WriteKind where
  | aside
  | covered
  | bare
  | report
  | writeBack
  deriving DecidableEq, Repr

/- A read that fails reads an empty text. -/
def readSetting
    (reads : Bool)
    (orgId key default : String)
    (next : String → Nat → PlanProgram) : PlanProgram :=
  atomic .quiet
    (fun s =>
      (s,
        (if reads then s.table.get orgId key default else "",
          s.commits)))
    (fun result => next result.1 result.2)

def PlanState.hold
    (s : PlanState)
    (id : Nat)
    (orgId : String)
    (slug : Option String) : PlanState :=
  match slug with
  | none => s
  | some slug =>
      { s with
        pending :=
          s.pending ++
            [{ id := id, orgId := orgId, slug := slug }] }

def PlanState.letGo (s : PlanState) (id : Nat) : PlanState :=
  { s with pending := s.pending.filter (·.id ≠ id) }

def PlanState.confirm
    (s : PlanState)
    (orgId slug : String) : PlanState :=
  if slug = s.entitlement orgId then
    { s with confirmed := orgId :: s.confirmed }
  else
    s

/- The notes at the end of a set that went well. -/
def PlanState.stored
    (s : PlanState)
    (kind : WriteKind)
    (id : Nat)
    (orgId value : String) : PlanState :=
  match kind with
  | .report => (s.letGo id).confirm orgId value
  | .writeBack => s.letGo id
  | _ => s

/- The notes at the end of a set that failed. -/
def PlanState.lost
    (s : PlanState)
    (kind : WriteKind)
    (id : Nat) : PlanState :=
  match kind with
  | .report | .writeBack => s.letGo id
  | _ => s

/- One more commit, which a bare write is done with. -/
def PlanState.committed
    (s : PlanState)
    (kind : WriteKind)
    (orgId : String) : PlanState :=
  match kind with
  | .aside => s
  | .covered | .report => { s with commits := s.commits + 1 }
  | .bare | .writeBack =>
      { s with
        commits := s.commits + 1
        settled :=
          s.settled ++
            [{ write :=
                { orgId := orgId, commit := s.commits + 1 }
               since := s.clock }] }

def WriteKind.writes
    (kind : WriteKind)
    (orgId : String)
    (commit : Nat) : List PlanWrite :=
  match kind with
  | .aside => []
  | _ => [{ orgId := orgId, commit := commit }]

def WriteKind.selectLabel
    (kind : WriteKind)
    (id : Nat)
    (orgId value : String) : PlanLabel :=
  match kind with
  | .report => .check id orgId value
  | _ => .quiet

def WriteKind.writeLabel
    (kind : WriteKind)
    (id : Nat)
    (orgId value : String)
    (existing : Option SettingsRow) : PlanLabel :=
  match kind with
  | .aside | .covered => .quiet
  | .bare | .writeBack => .bare orgId
  | .report => .report id orgId value existing

def holdsValue
    (existing : Option SettingsRow)
    (value : String) : Bool :=
  existing.bind SettingsRow.value == some value

/-
  `settings::set`, whose error is logged and dropped. A value
  that is already there is not written again.
-/
def setSetting
    (id : Nat)
    (kind : WriteKind)
    (stores : Bool)
    (orgId key value : String)
    (next : List PlanWrite → PlanProgram) : PlanProgram :=
  if stores then
    atomic (kind.selectLabel id orgId value)
      (fun s =>
        let existing := s.table.select orgId key
        (if holdsValue existing value then
          s.stored kind id orgId value
        else
          s, existing))
      (fun existing =>
        if holdsValue existing value then
          next []
        else
          atomic (kind.writeLabel id orgId value existing)
            (fun s =>
              (({ s with
                    table :=
                      s.table.write existing orgId key value
                  }.committed kind orgId).stored kind id orgId
                  value,
                kind.writes orgId (s.commits + 1)))
            next)
  else
    atomic .quiet (fun s => (s.lost kind id, ()))
      (fun _ => next [])

--------------------
-- Caches
--------------------

/- `RESOLVE_THROTTLE`, `EFFECTIVE_TTL` and the prune interval. -/
def resolveThrottle : Int := seconds 60

def effectiveTtl : Int := seconds 30

def resolvePruneInterval : Int := seconds 600

/- `HashMap::retain`. -/
def retain
    {V : Type}
    (keep : V → Bool)
    (table : AList (fun _ : String => V)) :
    AList (fun _ : String => V) where
  entries := table.entries.filter (fun entry => keep entry.2)
  nodupKeys :=
    List.NodupKeys.sublist List.filter_sublist
      table.nodupKeys

theorem lookup_of_retain
    {V : Type}
    {keep : V → Bool}
    {key : String}
    {table : AList (fun _ : String => V)}
    {value : V}
    (hLookup : (retain keep table).lookup key = some value) :
    table.lookup key = some value := by
  rw [← Option.mem_def, AList.mem_lookup_iff] at hLookup
  rw [← Option.mem_def, AList.mem_lookup_iff]
  exact List.mem_of_mem_filter hLookup

/- `Instant::now()`, and `Utc::now()`. -/
def readClock (next : Int → PlanProgram) : PlanProgram :=
  atomic .quiet (fun s => (s, s.clock)) next

def pruneResolveCache
    (s : PlanState)
    (now : Int) : PlanState :=
  if
    s.lastPruneAt.any
      (fun last => now - last < resolvePruneInterval)
  then
    s
  else
    { s with
      lastPruneAt := some now
      lastResolveAt :=
        retain (fun stamp => now - stamp < resolveThrottle)
          s.lastResolveAt }

/- Whether a live lookup has to wait; one that may is noted. -/
def throttle
    (s : PlanState)
    (orgId : String)
    (now : Int) : PlanState × Bool :=
  let pruned := pruneResolveCache s now
  if
    (pruned.lastResolveAt.lookup orgId).any
      (fun stamp => now - stamp < resolveThrottle)
  then
    (pruned, true)
  else
    ({ pruned with
        lastResolveAt :=
          pruned.lastResolveAt.insert orgId now },
      false)

def noteHit
    (before : List PlanWrite)
    (orgId : String) : Option Cached → List Hit
| none => []
| some cached =>
    [{ before := before, orgId := orgId
       slug := cached.slug, source := cached.source }]

/- The time is read before the lock is taken. -/
def lookUpEffective
    (orgId : String)
    (next : Option Cached → PlanProgram) : PlanProgram :=
  atomic .quiet (fun s => (s, (s.clock, s.returned)))
    (fun began =>
      atomic .quiet
        (fun s =>
          let found :=
            (s.effective.lookup orgId).filter
              (fun cached => began.1 < cached.expiry)
          ({ s with
              hits :=
                s.hits ++ noteHit began.2 orgId found },
            found))
        next)

def effectiveMaxEntries : Nat :=
  10000

/- Insert, and drop the expired once the map is large. -/
def insertEffective
    (s : PlanState)
    (orgId slug : String)
    (source : Source) : PlanState :=
  let inserted :=
    s.effective.insert orgId
      { slug := slug
        expiry := s.clock + effectiveTtl
        source := source }
  { s with
    effective :=
      if effectiveMaxEntries < inserted.keys.length then
        retain (fun cached => s.clock < cached.expiry) inserted
      else
        inserted }

def cacheEffective
    (orgId slug : String)
    (source : Source)
    (next : String → PlanProgram) : PlanProgram :=
  atomic (.cache orgId source)
    (fun s => (insertEffective s orgId slug source, slug))
    next

/- The invalidation that follows the given writes. -/
def invalidateEffectivePlanCache
    (orgId : String)
    (writes : List PlanWrite)
    (next : PlanProgram) : PlanProgram :=
  atomic .quiet
    (fun s =>
      ({ s with
          effective := s.effective.erase orgId
          settled :=
            s.settled ++
              writes.map
                (fun w => { write := w, since := s.clock }) },
        ()))
    (fun _ => next)

/- The handler of the given writes returns. -/
def returns
    (writes : List PlanWrite)
    (next : PlanProgram) : PlanProgram :=
  atomic .quiet
    (fun s =>
      ({ s with returned := s.returned ++ writes }, ()))
    (fun _ => next)

--------------------
-- Lookups
--------------------

/-
  `fetch_live_plan_slug`: one instant at which Clerk answers,
  if it does. `about` is the slug the caller will write.
-/
def fetchLivePlanSlug
    (id : Nat)
    (label : PlanLabel)
    (answers : Bool)
    (orgId : String)
    (about : Option String → Option String)
    (next : Option String → PlanProgram) : PlanProgram :=
  atomic label
    (fun s =>
      let live :=
        if answers then some (s.entitlement orgId) else none
      (s.hold id orgId (about live), live))
    next

/- A live answer other than the slug that was read. -/
def otherThan
    (cached : String)
    (live : Option String) : Option String :=
  live.filter (· ≠ cached)

def resolveOrgPlan
    (ctx : PlanContext)
    (id : Nat)
    (o : Outcomes)
    (orgId : String)
    (next : String → Source → PlanProgram) : PlanProgram :=
  if ctx.localAuth then
    next "self_host" { readFrom := none, own := none }
  else
    readSetting (o.reads "org_plan") orgId "org_plan" ""
      (fun cached readFrom =>
        let source : Source :=
          { readFrom := some readFrom, own := none }
        if isPaid cached then
          next cached source
        else
          readClock (fun now =>
            atomic .quiet (fun s => throttle s orgId now)
              (fun throttled =>
                if throttled then
                  next (nonEmptyOrFree cached) source
                else
                  fetchLivePlanSlug id .quiet o.answers orgId
                    (otherThan cached)
                    (fun live =>
                      match live with
                      | none =>
                          next (nonEmptyOrFree cached) source
                      | some live =>
                          if live ≠ cached then
                            setSetting id .writeBack
                              (o.stores "org_plan") orgId
                              "org_plan" live
                              (fun writes =>
                                returns writes
                                  (next live
                                    { readFrom :=
                                        some readFrom
                                      own :=
                                        writes.head?.map
                                          PlanWrite.commit }))
                          else
                            next live source))))

def effectivePlanForCaps
    (ctx : PlanContext)
    (id : Nat)
    (o : Outcomes)
    (orgId : String)
    (useCache : Bool)
    (next : String → PlanProgram) : PlanProgram :=
  let compute :=
    resolveOrgPlan ctx id o orgId (fun nominal source =>
      if ctx.localAuth then
        cacheEffective orgId nominal source next
      else
        readSetting (o.reads "payment_past_due") orgId
          "payment_past_due" "false"
          (fun pastDue _ =>
            if pastDue ≠ "true" then
              cacheEffective orgId nominal source next
            else
              readSetting (o.reads "payment_past_due_at") orgId
                "payment_past_due_at" ""
                (fun pastDueAt _ =>
                  readClock (fun now =>
                    cacheEffective orgId
                      (planForCaps ctx.parsePastDueAt now
                        nominal pastDue pastDueAt)
                      source next))))
  if useCache then
    lookUpEffective orgId
      (fun found =>
        match found with
        | some cached => next cached.slug
        | none => compute)
  else
    compute

/- What a lookup does once the nominal plan is known. -/
def capsFromNominal
    (ctx : PlanContext)
    (o : Outcomes)
    (orgId : String)
    (next : String → PlanProgram)
    (nominal : String)
    (source : Source) : PlanProgram :=
  if ctx.localAuth then
    cacheEffective orgId nominal source next
  else
    readSetting (o.reads "payment_past_due") orgId
      "payment_past_due" "false"
      (fun pastDue _ =>
        if pastDue ≠ "true" then
          cacheEffective orgId nominal source next
        else
          readSetting (o.reads "payment_past_due_at") orgId
            "payment_past_due_at" ""
            (fun pastDueAt _ =>
              readClock (fun now =>
                cacheEffective orgId
                  (planForCaps ctx.parsePastDueAt now nominal
                    pastDue pastDueAt)
                  source next)))

theorem effectivePlanForCaps_eq
    (ctx : PlanContext)
    (id : Nat)
    (o : Outcomes)
    (orgId : String)
    (useCache : Bool)
    (next : String → PlanProgram) :
    effectivePlanForCaps ctx id o orgId useCache next =
      if useCache then
        lookUpEffective orgId
          (fun found =>
            match found with
            | some cached => next cached.slug
            | none =>
                resolveOrgPlan ctx id o orgId
                  (capsFromNominal ctx o orgId next))
      else
        resolveOrgPlan ctx id o orgId
          (capsFromNominal ctx o orgId next) := by
  rfl

/- The plan is read with the cache bypassed. -/
def enforceCameraCap
    (ctx : PlanContext)
    (id : Nat)
    (o : Outcomes)
    (orgId : String)
    (next : PlanProgram) : PlanProgram :=
  effectivePlanForCaps ctx id o orgId false (fun _ => next)

/- The turn of one organization; it drops before it writes. -/
def reconcileOrg
    (ctx : PlanContext)
    (id : Nat)
    (o cap : Outcomes)
    (orgId cached : String)
    (next : PlanProgram) : PlanProgram :=
  fetchLivePlanSlug id .quiet o.answers orgId
    (otherThan cached)
    (fun live =>
      match otherThan cached live with
      | none => next
      | some live =>
          invalidateEffectivePlanCache orgId []
            (setSetting id .writeBack (o.stores "org_plan")
              orgId "org_plan" live
              (fun writes =>
                enforceCameraCap ctx id cap orgId
                  (returns writes next))))

def reconcileAll
    (ctx : PlanContext)
    (id : Nat)
    (outcomes : Nat → Outcomes × Outcomes) :
    Nat → List (String × String) → PlanProgram
| _, [] => .done
| turn, (orgId, cached) :: rest =>
    reconcileOrg ctx id (outcomes turn).1 (outcomes turn).2
      orgId cached
      (reconcileAll ctx id outcomes (turn + 1) rest)

/- The stored plans that are paid. -/
def paidPlans
    (table : SettingsTable) : List (String × String) :=
  table.rows.filterMap (fun row =>
    if row.key = "org_plan" then
      (row.value.filter isPaid).map (fun slug => (row.orgId, slug))
    else
      none)

def reconcileOrgPlans
    (ctx : PlanContext)
    (id : Nat)
    (outcomes : Nat → Outcomes × Outcomes) : PlanProgram :=
  atomic .quiet (fun s => (s, paidPlans s.table))
    (reconcileAll ctx id outcomes 0)

--------------------
-- Webhooks
--------------------

/- A webhook takes up the slug it was delivered with. -/
def takeUp
    (id : Nat)
    (orgId slug : String)
    (next : PlanProgram) : PlanProgram :=
  atomic (.take orgId slug)
    (fun s => (s.hold id orgId (some slug), ()))
    (fun _ => next)

/- The two past-due settings, cleared one by one. -/
def clearPastDue
    (id : Nat)
    (o : Outcomes)
    (orgId : String)
    (next : List PlanWrite → PlanProgram) : PlanProgram :=
  setSetting id .covered (o.stores "payment_past_due") orgId
    "payment_past_due" "false"
    (fun flag =>
      setSetting id .covered (o.stores "payment_past_due_at")
        orgId "payment_past_due_at" ""
        (fun anchor => next (flag ++ anchor)))

def setCancelPending
    (id : Nat)
    (o : Outcomes)
    (orgId value : String)
    (next : PlanProgram) : PlanProgram :=
  setSetting id .aside (o.stores "plan_cancel_pending") orgId
    "plan_cancel_pending" value (fun _ => next)

/- The end of the branches that change an entitlement. -/
def settle
    (ctx : PlanContext)
    (id : Nat)
    (cap : Outcomes)
    (orgId : String)
    (writes : List PlanWrite) : PlanProgram :=
  invalidateEffectivePlanCache orgId writes
    (enforceCameraCap ctx id cap orgId (returns writes .done))

/- A flag that is held is not cleared by a snapshot. -/
def clearIfNotHeld
    (id : Nat)
    (o : Outcomes)
    (orgId : String)
    (next : List PlanWrite → PlanProgram) : PlanProgram :=
  readSetting (o.reads "payment_past_due") orgId
    "payment_past_due" "false"
    (fun held _ =>
      if held = "true" then next []
      else clearPastDue id o orgId next)

def subscriptionChanged
    (ctx : PlanContext)
    (env : Clerk.Env)
    (id : Nat)
    (o cap : Outcomes)
    (data : Fields) : PlanProgram :=
  match Clerk.payerOrg data with
  | none => .done
  | some orgId =>
      let items :=
        ((data.lookup "items").bind Json.asArray).getD []
      let planSlug := Clerk.activePlanSlug env items
      takeUp id orgId planSlug
        (setSetting id .report (o.stores "org_plan") orgId
          "org_plan" planSlug
          (fun plan =>
            if Clerk.paidInWebhook planSlug then
              clearIfNotHeld id o orgId
                (fun cleared =>
                  if Clerk.hasActiveItem items then
                    setCancelPending id o orgId ""
                      (settle ctx id cap orgId
                        (plan ++ cleared))
                  else
                    settle ctx id cap orgId (plan ++ cleared))
            else
              settle ctx id cap orgId plan))

def itemActive
    (ctx : PlanContext)
    (id : Nat)
    (o cap : Outcomes)
    (data : Fields) : PlanProgram :=
  let slug :=
    ((data.lookup "plan").bind Json.asObject).bind
      (fun plan => (plan.lookup "slug").bind Json.asStr)
  match Clerk.payerOrg data, slug with
  | some orgId, some slug =>
      if slug = "free_org" ∨ slug = "pro" ∨ slug = "pro_plus"
      then
        takeUp id orgId slug
          (setSetting id .report (o.stores "org_plan") orgId
            "org_plan" slug
            (fun plan =>
              setCancelPending id o orgId ""
                (if Clerk.paidInWebhook slug then
                  clearPastDue id o orgId
                    (fun cleared =>
                      settle ctx id cap orgId
                        (plan ++ cleared))
                else
                  settle ctx id cap orgId plan)))
      else
        .done
  | _, _ => .done

/- The anchor is written after the invalidation. -/
def pastDue
    (env : Clerk.Env)
    (id : Nat)
    (o : Outcomes)
    (data : Fields) : PlanProgram :=
  match Clerk.payerOrg data with
  | none => .done
  | some orgId =>
      readSetting (o.reads "payment_past_due") orgId
        "payment_past_due" "false"
        (fun already _ =>
          match
            (if already = "true" then .ok none
            else (env.pastDueStamp data).map some :
              Except String (Option String))
          with
          | .error _ => .done
          | .ok stamp =>
              setSetting id .covered
                (o.stores "payment_past_due") orgId
                "payment_past_due" "true"
                (fun flag =>
                  invalidateEffectivePlanCache orgId flag
                    (match stamp with
                    | none => returns flag .done
                    | some stamp =>
                        setSetting id .bare
                          (o.stores "payment_past_due_at")
                          orgId "payment_past_due_at" stamp
                          (fun anchor =>
                            returns (flag ++ anchor) .done))))

def paymentAttempt
    (ctx : PlanContext)
    (id : Nat)
    (o cap : Outcomes)
    (data : Fields) : PlanProgram :=
  let status :=
    ((data.lookup "status").bind Json.asStr).getD ""
  match Clerk.payerOrg data with
  | none => .done
  | some orgId =>
      if status = "paid" then
        clearPastDue id o orgId
          (fun cleared => settle ctx id cap orgId cleared)
      else
        .done

def itemCanceled
    (id : Nat)
    (o : Outcomes)
    (data : Fields) : PlanProgram :=
  match Clerk.payerOrg data with
  | none => .done
  | some orgId => setCancelPending id o orgId "true" .done

/- What an ended item leaves: free, if Clerk is silent. -/
def afterEnd (live : Option String) : String :=
  live.getD "free_org"

def itemEnded
    (ctx : PlanContext)
    (id : Nat)
    (o cap : Outcomes)
    (data : Fields) : PlanProgram :=
  match Clerk.payerOrg data with
  | none => .done
  | some orgId =>
      fetchLivePlanSlug id
        (if o.answers then .quiet else .take orgId "free_org")
        o.answers orgId (fun live => some (afterEnd live))
        (fun live =>
          setSetting id .report (o.stores "org_plan") orgId
            "org_plan" (afterEnd live)
            (fun plan =>
              setCancelPending id o orgId ""
                (setSetting id .covered
                  (o.stores "payment_past_due") orgId
                  "payment_past_due" "false"
                  (fun flag =>
                    settle ctx id cap orgId (plan ++ flag)))))

/- The branches of `dispatch` that write plan settings. -/
def dispatchBilling
    (ctx : PlanContext)
    (env : Clerk.Env)
    (id : Nat)
    (o cap : Outcomes)
    (eventType : String)
    (data : Option Fields) : PlanProgram :=
  match data with
  | none => .done
  | some data =>
      if
        eventType = "subscription.created" ∨
          eventType = "subscription.updated" ∨
          eventType = "subscription.active"
      then
        subscriptionChanged ctx env id o cap data
      else if eventType = "subscriptionItem.active" then
        itemActive ctx id o cap data
      else if
        eventType = "subscription.pastDue" ∨
          eventType = "subscriptionItem.pastDue"
      then
        pastDue env id o data
      else if eventType = "paymentAttempt.updated" then
        paymentAttempt ctx id o cap data
      else if eventType = "subscriptionItem.canceled" then
        itemCanceled id o data
      else if eventType = "subscriptionItem.ended" then
        itemEnded ctx id o cap data
      else
        .done

/-
  `erase_org`, for `organization.deleted` and for account
  deletion. It deletes the settings and drops no plan.
-/
def eraseOrg
    (stores : Bool)
    (orgId : String) : PlanProgram :=
  if stores then
    atomic (.bare orgId)
      (fun s =>
        ({ s with table := s.table.deleteOrg orgId }.committed
            .bare orgId,
          WriteKind.bare.writes orgId (s.commits + 1)))
      (fun writes => returns writes .done)
  else
    .done

/-
  Lookups, the reconciler and webhooks; Clerk's side, where
  an entitlement changes; and time.
-/
inductive PlanTask where
  | effectivePlan
      (orgId : String)
      (useCache : Bool)
      (o : Outcomes)
  | resolve (orgId : String) (o : Outcomes)
  | reconcile (outcomes : Nat → Outcomes × Outcomes)
  | webhook
      (env : Clerk.Env)
      (eventType : String)
      (data : Option Fields)
      (o cap : Outcomes)
  | entitle (orgId slug : String)
  | wait (time : Nat)

/- A new entitlement has not been written by a webhook. -/
def entitle (orgId slug : String) : PlanProgram :=
  atomic .quiet
    (fun s =>
      ({ s with
          entitlement :=
            Function.update s.entitlement orgId slug
          confirmed := s.confirmed.filter (· ≠ orgId) },
        ()))
    (fun _ => .done)

def startPlan
    (ctx : PlanContext)
    (task : PlanTask)
    (id : Nat) : PlanProgram :=
  match task with
  | .effectivePlan orgId useCache o =>
      effectivePlanForCaps ctx id o orgId useCache
        (fun _ => .done)
  | .resolve orgId o =>
      resolveOrgPlan ctx id o orgId (fun _ _ => .done)
  | .reconcile outcomes => reconcileOrgPlans ctx id outcomes
  | .webhook env eventType data o cap =>
      dispatchBilling ctx env id o cap eventType data
  | .entitle orgId slug => entitle orgId slug
  | .wait time =>
      atomic .quiet
        (fun s => ({ s with clock := s.clock + time }, ()))
        (fun _ => .done)

end Plans

end SentinelCommand
