import SentinelCommand.Webhooks.ClerkEffects
import SentinelCommand.Webhooks.Resend

/-
  The dedup marks of both webhooks, and a delivery that is
  marked although its plan was never stored.

  Main declarations:
    * `Webhooks.marked_iff_stored`
    * `Webhooks.lost_plan_is_marked`
-/

--------------------
-- Both Webhooks
--------------------

namespace SentinelCommand

namespace Webhooks

open Faults

/-
  A delivery that is not marked: without an id, seen before,
  refused, or with a propagated statement that fails.
-/
def ClerkUnmarked
    (env : Clerk.Env)
    (msgId : String)
    (event : Fields)
    (db : Clerk.Db)
    (o : Outcomes) : Prop :=
  msgId = "" ∨ db.seen msgId = true ∨
    ∀ branch,
      Clerk.branchFor env (Clerk.eventType event)
          (Clerk.eventData event) db.settings = .ok branch →
        Clerk.StatementFails env branch db o

/-
  The same, where the dedup insert is the only statement
  that decides.
-/
def ResendUnmarked
    (env : Resend.Env)
    (msgId : String)
    (event : Fields)
    (db : Resend.Db)
    (o : Outcomes) : Prop :=
  msgId = "" ∨ db.seen msgId = true ∨
    Resend.storedType env event = none ∨
    ∀ row, Resend.rowFor env event = .ok row →
      o.swallowed row.statements = false

/-
  At both webhooks, a marked delivery has its effects stored
  exactly when it is not marked or no write it calls for is
  swallowed and lost.
-/
theorem marked_iff_stored
    (clerk : Clerk.Env)
    (resend : Resend.Env)
    (msgId : String)
    (event : Fields)
    (clerkDb : Clerk.Db)
    (resendDb : Resend.Db)
    (o : Outcomes) :
    (Clerk.MarkedOnlyIfStored clerk msgId event clerkDb o ↔
      ClerkUnmarked clerk msgId event clerkDb o ∨
        ∀ branch,
          Clerk.branchFor clerk (Clerk.eventType event)
              (Clerk.eventData event) clerkDb.settings =
            .ok branch →
            Clerk.SettingsHold branch clerkDb o) ∧
      (Resend.MarkedOnlyIfStored resend msgId event resendDb
          o ↔
        ResendUnmarked resend msgId event resendDb o ∨
          ∀ row, Resend.rowFor resend event = .ok row →
            Resend.AddressesHold row resendDb o) := by
  constructor
  · rw [Clerk.markedOnlyIfStored_iff]
    unfold ClerkUnmarked
    cases Clerk.branchFor clerk (Clerk.eventType event)
      (Clerk.eventData event) clerkDb.settings with
    | error message => simp
    | ok branch => simp [or_assoc]
  · rw [Resend.markedOnlyIfStored_iff]
    unfold ResendUnmarked
    cases Resend.rowFor resend event with
    | error message => simp
    | ok row => simp [or_assoc]

def quietEnv : Clerk.Env :=
  { localAuth := false
    now := 0
    itemPeriodEndUtc := fun _ => none
    pastDueStamp := fun _ => .ok ""
    parsePastDueAt := fun _ => none
    liveAfterEnd := none
    throttled := true
    live := none }

def newOrg : Clerk.Db :=
  { settings := fun _ _ => none, cameras := [],
    processed := [] }

/- An org's subscription moves to an active Pro item. -/
def upgrade : Fields :=
  [("type", .string "subscription.updated"),
    ("data",
      .object
        [("payer",
            .object [("organization_id", .string "org_a")]),
          ("items",
            .array
              [.object
                [("plan", .object [("slug", .string "pro")]),
                  ("status", .string "active")]])])]

/- Only the first settings write fails. -/
def firstWriteFails : Outcomes :=
  { swallowed := fun i => i != 0
    propagated := fun _ => true }

/-
  The write of `org_plan` fails and is logged, and the
  delivery is marked: the retry is skipped as a duplicate.
-/
theorem lost_plan_is_marked :
    ¬ ((∀ (env : Clerk.Env) (msgId : String) (event : Fields)
          (db : Clerk.Db) (o : Outcomes),
        Clerk.MarkedOnlyIfStored env msgId event db o) ∧
      ∀ (env : Resend.Env) (msgId : String) (event : Fields)
        (db : Resend.Db) (o : Outcomes),
        Resend.MarkedOnlyIfStored env msgId event db o) := by
  rintro ⟨hClaim, _⟩
  have hStored :=
    hClaim quietEnv "msg_1" upgrade newOrg firstWriteFails
      (by decide) (by decide)
      (.setting "org_a" "org_plan" "pro") (by decide)
  revert hStored
  decide

end Webhooks

end SentinelCommand
