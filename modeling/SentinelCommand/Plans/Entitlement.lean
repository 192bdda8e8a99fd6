import SentinelCommand.Clock
import SentinelCommand.Settings

/-
  Plan slugs, their limits, and the plan caps are enforced
  against: the pure part of `plans.rs`.

  Key definitions include:
    * `Plans.getPlanLimits`
    * `Plans.nonEmptyOrFree`
    * `Plans.planForCaps`
-/

--------------------
-- Limits
--------------------

namespace SentinelCommand

namespace Plans

def paymentGraceDays : Int := 7

/- A cached slug that needs no live lookup. -/
def isPaid (slug : String) : Bool :=
  slug = "pro" ∨ slug = "pro_plus" ∨ slug = "self_host"

structure PlanLimits where
  maxCameras : Nat
  maxNodes : Nat
  maxSeats : Nat
  maxViewerHoursPerMonth : Nat
  maxSseSubscribers : Nat
  logRetentionDays : Nat
  deriving DecidableEq, Repr

def getPlanLimits (plan : String) : PlanLimits :=
  if plan = "pro" then
    ⟨25, 10, 10, 300, 30, 90⟩
  else if plan = "pro_plus" then
    ⟨200, 999, 20, 1500, 100, 365⟩
  else if plan = "self_host" then
    ⟨999, 999, 1, 999999, 50, 365⟩
  else
    ⟨5, 2, 2, 30, 10, 30⟩

def nonEmptyOrFree (cached : String) : String :=
  if cached = "" then "free_org" else cached

/-
  `effective_plan_for_caps` once the nominal plan is known:
  an org past due beyond its grace is on the free tier. The
  parser of the stored stamp is `parse_past_due_at`.
-/
def planForCaps
    (parsePastDueAt : String → Option Int)
    (now : Int)
    (nominal pastDue pastDueAt : String) : String :=
  if pastDue = "true" then
    if pastDueAt = "" then
      nominal
    else
      match parsePastDueAt pastDueAt with
      | none => nominal
      | some since =>
          if hours (24 * paymentGraceDays) < now - since then
            "free_org"
          else
            nominal
  else
    nominal

end Plans

end SentinelCommand
