import SentinelCommand.Plans.PlanThreads

/-
  Calls of `resolve_org_plan` with what Clerk answers each of
  them, as threads that note what they do: what was read, the
  lookup that was started and its answer, what was stored and
  what was returned.

  The throttle map is the one of the plan threads; its time
  is read before its lock is taken, and any other call may
  come in between.

  Key definitions include:
    * `Plans.Live.Note`, `Plans.Live.LookupState`
    * `Plans.Live.fetchLivePlanSlug`
    * `Plans.Live.resolveOrgPlan`
-/

--------------------
-- State
--------------------

namespace SentinelCommand

namespace Plans

namespace Live

open Interleaving

/-
  What the call `id` did. A lookup starts when the throttle
  lets it through, at the time `startedAt`; it took the time
  it is stamped with, `readAt`, before that.
-/
inductive Note where
  | read (id : Nat) (orgId cached : String)
  | start (id : Nat) (orgId : String) (readAt startedAt : Int)
  | answer (id : Nat) (orgId slug : String)
  | store (id : Nat) (orgId slug : String)
  | returned (id : Nat) (orgId slug : String)
  deriving DecidableEq, Repr

def Note.id : Note → Nat
| .read id _ _ => id
| .start id _ _ _ => id
| .answer id _ _ => id
| .store id _ _ => id
| .returned id _ _ => id

structure LookupState where
  plans : PlanState
  log : List Note

abbrev LookupThread : Type :=
  Thread LookupState Unit

def LookupState.note
    (s : LookupState)
    (note : Note) : LookupState :=
  { s with log := s.log ++ [note] }

/- The plan that is stored. -/
def planOf (s : LookupState) (orgId : String) : String :=
  s.plans.table.get orgId "org_plan" ""

/- What a call did, in order. -/
def notesOf (id : Nat) (s : LookupState) : List Note :=
  s.log.filter (·.id = id)

/- `AUTH_PROVIDER`, and `item_period_end_utc`. -/
structure Context where
  localAuth : Bool
  itemPeriodEndUtc : Fields → Option Int

end Live

end Plans

--------------------
-- Calls
--------------------

namespace Plans

namespace Live

open Interleaving

/- The first active item, else the first one paid through. -/
def entitledSlug
    (ctx : Context)
    (now : Int) :
    List Json → Option String → String
| [], entitledCanceled => entitledCanceled.getD "free_org"
| item :: rest, entitledCanceled =>
    match item.asObject with
    | none => entitledSlug ctx now rest entitledCanceled
    | some fields =>
        match Clerk.itemSlug fields with
        | none => entitledSlug ctx now rest entitledCanceled
        | some slug =>
            if Clerk.itemStatus fields = "active" then
              slug
            else if
              Clerk.itemStatus fields = "canceled" ∧
                entitledCanceled = none ∧
                (ctx.itemPeriodEndUtc fields).any
                  (fun periodEnd => now < periodEnd)
            then
              entitledSlug ctx now rest (some slug)
            else
              entitledSlug ctx now rest entitledCanceled

/- The items of a subscription, none where there is no list. -/
def subscriptionItems (subscription : Json) : List Json :=
  ((subscription.asObject.bind
    (·.lookup "subscription_items")).bind Json.asArray).getD []

/-
  The response is what Clerk sent, decoded. It is absent when
  the request failed, was answered with an error, or had a
  body that is no JSON.
-/
def fetchLivePlanSlug
    (ctx : Context)
    (now : Int)
    (response : Option Json) : Option String :=
  response.map
    (fun subscription =>
      entitledSlug ctx now (subscriptionItems subscription)
        none)

variable (ctx : Context)
variable (id : Nat)
variable (orgId : String)

def finish (slug : String) : LookupThread :=
  atomic ()
    (fun s => (s.note (.returned id orgId slug), ()))
    (fun _ => .done)

/- The write that follows the select, if one is needed. -/
def storePlan
    (live : String)
    (existing : Option SettingsRow)
    (next : LookupThread) : LookupThread :=
  if holdsValue existing live then
    next
  else
    atomic ()
      (fun s =>
        ({ plans :=
             { s.plans with
               table :=
                 s.plans.table.write existing orgId "org_plan"
                   live }
           log := s.log ++ [.store id orgId live] },
          ()))
      (fun _ => next)

/- `settings::set`, which may fail and is then only logged. -/
def setPlan
    (stores : Bool)
    (live : String)
    (next : LookupThread) : LookupThread :=
  if stores then
    atomic ()
      (fun s => (s, s.plans.table.select orgId "org_plan"))
      (fun existing => storePlan id orgId live existing next)
  else
    next

/- Once the throttle has let the call through. -/
def lookUp
    (cached : String)
    (response : Option Json)
    (stores : Bool) : LookupThread :=
  atomic ()
    (fun s =>
      match fetchLivePlanSlug ctx s.plans.clock response with
      | none => (s, none)
      | some live =>
          (s.note (.answer id orgId live), some live))
    (fun answer =>
      match answer with
      | none => finish id orgId (nonEmptyOrFree cached)
      | some live =>
          if live ≠ cached then
            setPlan id orgId stores live
              (finish id orgId live)
          else
            finish id orgId live)

/- The throttle, with the lookup that it lets through. -/
def throttleCall
    (readAt : Int)
    (s : LookupState) : LookupState × Bool :=
  match throttle s.plans orgId readAt with
  | (plans, true) => ({ s with plans := plans }, true)
  | (plans, false) =>
      ({ plans := plans
         log :=
           s.log ++ [.start id orgId readAt s.plans.clock] },
        false)

def resolveOrgPlan
    (response : Option Json)
    (stores : Bool) : LookupThread :=
  if ctx.localAuth then
    finish id orgId "self_host"
  else
    atomic ()
      (fun s =>
        (s.note (.read id orgId (planOf s orgId)),
          planOf s orgId))
      (fun cached =>
        if isPaid cached then
          finish id orgId cached
        else
          atomic () (fun s => (s, s.plans.clock))
            (fun readAt =>
              atomic () (throttleCall id orgId readAt)
                (fun throttled =>
                  if throttled then
                    finish id orgId (nonEmptyOrFree cached)
                  else
                    lookUp ctx id orgId cached response
                      stores)))

end Live

end Plans

--------------------
-- What a Call Leaves
--------------------

namespace Plans

namespace Live

/-
  The notes of a call that has returned: on a hosted install
  a paid plan that was read, a throttled call, a lookup that
  failed, or an answer, with or without a write of it.
-/
inductive Finished
    (ctx : Context)
    (id : Nat)
    (orgId : String) : List Note → Prop
  | selfHost
      (hLocal : ctx.localAuth = true) :
      Finished ctx id orgId [.returned id orgId "self_host"]
  | paid
      {cached : String}
      (hHosted : ctx.localAuth ≠ true)
      (hPaid : isPaid cached = true) :
      Finished ctx id orgId
        [.read id orgId cached, .returned id orgId cached]
  | throttled
      {cached : String}
      (hHosted : ctx.localAuth ≠ true)
      (hUnpaid : isPaid cached ≠ true) :
      Finished ctx id orgId
        [.read id orgId cached,
          .returned id orgId (nonEmptyOrFree cached)]
  | failed
      {cached : String}
      {readAt startedAt : Int}
      (hHosted : ctx.localAuth ≠ true)
      (hUnpaid : isPaid cached ≠ true) :
      Finished ctx id orgId
        [.read id orgId cached,
          .start id orgId readAt startedAt,
          .returned id orgId (nonEmptyOrFree cached)]
  | answered
      {cached live : String}
      {readAt startedAt : Int}
      (hHosted : ctx.localAuth ≠ true)
      (hUnpaid : isPaid cached ≠ true) :
      Finished ctx id orgId
        [.read id orgId cached,
          .start id orgId readAt startedAt,
          .answer id orgId live, .returned id orgId live]
  | stored
      {cached live : String}
      {readAt startedAt : Int}
      (hHosted : ctx.localAuth ≠ true)
      (hUnpaid : isPaid cached ≠ true) :
      Finished ctx id orgId
        [.read id orgId cached,
          .start id orgId readAt startedAt,
          .answer id orgId live, .store id orgId live,
          .returned id orgId live]

/- A lookup that was started, as it was noted. -/
structure Start where
  orgId : String
  readAt : Int
  startedAt : Int
  deriving DecidableEq, Repr

def Note.asStart : Note → Option Start
| .start _ orgId readAt startedAt =>
    some
      { orgId := orgId
        readAt := readAt
        startedAt := startedAt }
| _ => none

def starts (s : LookupState) : List Start :=
  s.log.filterMap Note.asStart

/- Clerk returned the slug to a call for the organization. -/
def Answered
    (s : LookupState)
    (orgId slug : String) : Prop :=
  ∃ id, .answer id orgId slug ∈ s.log

end Live

end Plans

end SentinelCommand
