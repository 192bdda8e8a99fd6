import Mathlib.Data.List.Nodup
import SentinelCommand.Webhooks.ClerkBranches

/-
  When a Clerk delivery marked as processed has had its
  effects stored.

  Main declarations:
    * `Clerk.calledFor`
    * `Clerk.MarkedOnlyIfStored`
    * `Clerk.markedOnlyIfStored_iff`
-/

--------------------
-- Ends
--------------------

namespace SentinelCommand

namespace Clerk

open Faults

variable {env : Env} {o : Outcomes} {w : World Db Effect}

/- `resolve_org_plan` as a function of the settings. -/
def nominalPlan
    (env : Env)
    (settings : Settings)
    (orgId : String) : String :=
  if env.localAuth then
    "self_host"
  else
    let cached := settings.get orgId "org_plan" ""
    if Plans.isPaid cached then
      cached
    else if env.throttled then
      Plans.nonEmptyOrFree cached
    else
      env.live.getD (Plans.nonEmptyOrFree cached)

/- The plan an org's cap is enforced against. -/
def capPlan
    (env : Env)
    (settings : Settings)
    (orgId : String) : String :=
  if env.localAuth then
    nominalPlan env settings orgId
  else
    Plans.planForCaps env.parsePastDueAt env.now
      (nominalPlan env settings orgId)
      (settings.get orgId "payment_past_due" "false")
      (settings.get orgId "payment_past_due_at" "")

/- Nothing but a plan setting and a counter has moved. -/
structure Undisturbed
    (orgId : String)
    (w later : World Db Effect) : Prop where
  settings :
    ∀ key default, key ≠ "org_plan" →
      later.db.settings.get orgId key default =
        w.db.settings.get orgId key default
  cameras : later.db.cameras = w.db.cameras
  processed : later.db.processed = w.db.processed
  propagates : later.propagates = w.propagates
  stored : later.stored = w.stored

theorem undisturbed_refl
    (orgId : String)
    (w : World Db Effect) :
    Undisturbed orgId w w := by
  constructor <;> intros <;> rfl

theorem writeBack_run
    (o : Outcomes)
    (w : World Db Effect)
    (orgId slug : String) :
    ∃ later, writeBack orgId slug o w = (.ok (), later) ∧
      Undisturbed orgId w later := by
  refine ⟨_, rfl, ?_⟩
  cases hOk : o.swallowed w.swallows with
  | false => constructor <;> simp
  | true =>
      constructor
      · intro key default hKey
        simp [Settings.get, Settings.set, hKey]
      · rfl
      · rfl
      · rfl
      · rfl

theorem resolveOrgPlan_run
    (env : Env)
    (o : Outcomes)
    (w : World Db Effect)
    (orgId : String) :
    ∃ later,
      resolveOrgPlan env orgId o w =
          (.ok (nominalPlan env w.db.settings orgId), later) ∧
        Undisturbed orgId w later := by
  have hSame := undisturbed_refl orgId w
  cases hLocal : env.localAuth with
  | true =>
      exact
        ⟨w,
          by simp [resolveOrgPlan, nominalPlan, hLocal, pure_run],
          hSame⟩
  | false =>
      cases hPaid :
          Plans.isPaid
            (w.db.settings.get orgId "org_plan" "") with
      | true =>
          exact
            ⟨w,
              by
                simp [resolveOrgPlan, nominalPlan, hLocal,
                  hPaid, bind_run, read_run, pure_run],
              hSame⟩
      | false =>
          cases hThrottled : env.throttled with
          | true =>
              exact
                ⟨w,
                  by
                    simp [resolveOrgPlan, nominalPlan, hLocal,
                      hPaid, hThrottled, bind_run, read_run,
                      pure_run],
                  hSame⟩
          | false =>
              cases hLive : env.live with
              | none =>
                  exact
                    ⟨w,
                      by
                        simp [resolveOrgPlan, nominalPlan,
                          hLocal, hPaid, hThrottled, hLive,
                          bind_run, read_run, pure_run],
                      hSame⟩
              | some live =>
                  by_cases hCached :
                      live =
                        w.db.settings.get orgId "org_plan" ""
                  · exact
                      ⟨w,
                        by
                          simp [resolveOrgPlan, nominalPlan,
                            hLocal, hThrottled, hLive,
                            ← hCached, bind_run, read_run,
                            pure_run],
                        hSame⟩
                  · rcases writeBack_run o w orgId live with
                      ⟨later, hRun, hLater⟩
                    exact
                      ⟨later,
                        by
                          simp [resolveOrgPlan, nominalPlan,
                            hLocal, hPaid, hThrottled, hLive,
                            hCached, hRun, bind_run, read_run,
                            pure_run],
                        hLater⟩

theorem effectivePlanForCaps_run
    (env : Env)
    (o : Outcomes)
    (w : World Db Effect)
    (orgId : String) :
    ∃ later,
      effectivePlanForCaps env orgId o w =
          (.ok (capPlan env w.db.settings orgId), later) ∧
        Undisturbed orgId w later := by
  rcases resolveOrgPlan_run env o w orgId with
    ⟨later, hRun, hLater⟩
  refine ⟨later, ?_, hLater⟩
  have hDue :=
    hLater.settings "payment_past_due" "false" (by decide)
  have hDueAt :=
    hLater.settings "payment_past_due_at" "" (by decide)
  cases hLocal : env.localAuth with
  | true =>
      simp [effectivePlanForCaps, capPlan, hLocal, hRun,
        bind_run, pure_run]
  | false =>
      simp [effectivePlanForCaps, capPlan, hLocal, hRun, hDue,
        hDueAt, bind_run, read_run, pure_run]

/- How many propagated statements a branch ends with. -/
def Branch.statements
    (env : Env)
    (branch : Branch)
    (settings : Settings)
    (cameras : List Camera) : Nat :=
  match branch.tail with
  | .done => 0
  | .caps =>
      let plan := capPlan env settings branch.orgId
      (flipTo (Plans.getPlanLimits plan).maxCameras branch.orgId
        cameras).length
  | .eraseOrg => 1
  | .eraseUser => 1

/- A branch end: all its statements run, or it fails. -/
inductive Ends
    (env : Env)
    (branch : Branch)
    (o : Outcomes)
    (w : World Db Effect) : Prop where
  | well
      (later : World Db Effect)
      (hRun : branch.finish env o w = (.ok (), later))
      (hAll :
        ∀ i, i <
            branch.statements env w.db.settings w.db.cameras →
          o.propagated (w.propagates + i) = true)
      (hPropagates :
        later.propagates =
          w.propagates +
            branch.statements env w.db.settings w.db.cameras)
      (hStored :
        later.stored =
          w.stored ++
            (if branch.tail = .caps then
              [.caps branch.orgId]
            else
              []))
      (hProcessed : later.db.processed = w.db.processed)
  | failed
      (message : String)
      (later : World Db Effect)
      (hRun : branch.finish env o w = (.error message, later))
      (hSome :
        ∃ i, i <
            branch.statements env w.db.settings w.db.cameras ∧
          o.propagated (w.propagates + i) = false)
      (hProcessed : later.db.processed = w.db.processed)

theorem capWrites_frame
    (orgId plan : String)
    (db : Db)
    (apply : Db → Db)
    (hMem : apply ∈ capWrites orgId plan db)
    (other : Db) :
    (apply other).processed = other.processed := by
  rcases List.mem_map.mp hMem with ⟨flip, _, rfl⟩
  rfl

theorem caps_ends
    (branch : Branch)
    (hTail : branch.tail = .caps) :
    Ends env branch o w := by
  rcases effectivePlanForCaps_run env o w branch.orgId with
    ⟨later, hRun, hLater⟩
  let plan := capPlan env w.db.settings branch.orgId
  let writes := capWrites branch.orgId plan later.db
  have hCount :
      writes.length =
        branch.statements env w.db.settings w.db.cameras := by
    simp [writes, plan, capWrites, Branch.statements, hTail,
      hLater.cameras]
  have hFrame :=
    mustAll_frame Db.processed databaseError writes
      (capWrites_frame branch.orgId plan later.db) o later
  rcases mustAll_eq databaseError writes o later with
    ⟨hAll, hEq⟩ | ⟨hSome, final, hEq, _⟩
  · rw [hEq] at hFrame
    rw [hCount, hLater.propagates] at hAll
    refine
      .well
        { later.applied writes with
          stored := later.stored ++ [.caps branch.orgId] }
        ?_ hAll ?_ ?_ ?_
    · simp [Branch.finish, hTail, reenforce, enforceCameraCap,
        bind_run, hRun, read_run, writes, plan, hEq, note,
        World.applied]
    · simp [World.applied, hCount, hLater.propagates]
    · simp [hTail, hLater.stored]
    · exact hFrame.trans hLater.processed
  · rw [hEq] at hFrame
    rw [hCount, hLater.propagates] at hSome
    refine .failed databaseError final ?_ hSome ?_
    · simp [Branch.finish, hTail, reenforce, enforceCameraCap,
        bind_run, hRun, read_run, writes, plan, hEq]
    · exact hFrame.trans hLater.processed

/- An erasure is one statement. -/
theorem must_ends
    (branch : Branch)
    (apply : Db → Db)
    (hFrame : ∀ db, (apply db).processed = db.processed)
    (hCaps : branch.tail ≠ .caps)
    (hFinish : branch.finish env = must apply databaseError)
    (hCount :
      branch.statements env w.db.settings w.db.cameras = 1) :
    Ends env branch o w := by
  cases hOk : o.propagated w.propagates with
  | true =>
      refine
        .well
          { w with
            db := apply w.db
            propagates := w.propagates + 1 }
          ?_ ?_ ?_ ?_ (hFrame w.db)
      · simp [hFinish, must, hOk]
      · intro i hi
        rw [hCount] at hi
        have hZero : i = 0 := by omega
        subst hZero
        exact hOk
      · rw [hCount]
      · simp [hCaps]
  | false =>
      refine
        .failed databaseError
          { w with propagates := w.propagates + 1 } ?_ ?_ rfl
      · simp [hFinish, must, hOk]
      · exact ⟨0, by omega, hOk⟩

theorem finish_ends
    (env : Env)
    (branch : Branch)
    (o : Outcomes)
    (w : World Db Effect) :
    Ends env branch o w := by
  cases hTail : branch.tail with
  | done =>
      refine .well w ?_ ?_ ?_ ?_ rfl
      · simp [Branch.finish, hTail, pure_run]
      · intro i hi
        simp [Branch.statements, hTail] at hi
      · simp [Branch.statements, hTail]
      · simp [hTail]
  | caps => exact caps_ends branch hTail
  | eraseOrg =>
      apply
        must_ends branch (deleteOrgData branch.orgId)
          (fun _ => rfl)
      · simp [hTail]
      · simp [Branch.finish, hTail]
      · simp [Branch.statements, hTail]
  | eraseUser =>
      apply must_ends branch id (fun _ => rfl)
      · simp [hTail]
      · simp [Branch.finish, hTail]
      · simp [Branch.statements, hTail]

--------------------
-- Marked Deliveries
--------------------

variable {env : Env} {o : Outcomes}

/- Writes of distinct keys do not contend. -/
theorem agrees_calls
    {branch : Branch}
    (hKeys : branch.KeysDistinct) :
    store.Agrees branch.calls := by
  intro e hMem other hOther db
  rcases List.mem_map.mp hMem with ⟨write, hWrite, rfl⟩
  rcases List.mem_map.mp hOther with ⟨next, hNext, rfl⟩
  by_cases hKey : write.1 = next.1
  · have hSame : write = next :=
      List.inj_on_of_nodup_map hKeys hWrite hNext hKey
    subst hSame
    simp [store]
  · have hApart : write ≠ next :=
      fun hSame => hKey (congrArg Prod.fst hSame)
    simp [store, Settings.set, hKey]

/- All effects an event calls for. -/
def calledFor
    (env : Env)
    (event : Fields)
    (settings : Settings) : List Effect :=
  match
    branchFor env (eventType event) (eventData event) settings
  with
  | .error _ => []
  | .ok branch => branch.effects

/-
  A delivery that gets its dedup row has had every effect it
  calls for stored.
-/
def MarkedOnlyIfStored
    (env : Env)
    (msgId : String)
    (event : Fields)
    (db : Db)
    (o : Outcomes) : Prop :=
  db.seen msgId = false →
    (clerkWebhook env msgId event o (.start db)).2.db.seen
        msgId = true →
      ∀ e ∈ calledFor env event db.settings,
        e ∈ (clerkWebhook env msgId event o
          (.start db)).2.stored

/- Each setting is there already or one write of it runs. -/
def SettingsHold
    (branch : Branch)
    (db : Db)
    (o : Outcomes) : Prop :=
  ∀ e ∈ branch.calls,
    store.holds e db = true ∨
      ∃ i, branch.calls[i]? = some e ∧ o.swallowed i = true

/- The settings a branch leaves for its end to read. -/
def settingsAfter
    (branch : Branch)
    (db : Db)
    (o : Outcomes) : Settings :=
  ((World.start db).attemptedAll store o
    branch.calls).db.settings

/- A propagated statement or the dedup insert fails. -/
def StatementFails
    (env : Env)
    (branch : Branch)
    (db : Db)
    (o : Outcomes) : Prop :=
  ∃ i,
    i ≤ branch.statements env (settingsAfter branch db o)
        db.cameras ∧
      o.propagated i = false

theorem rowRun_processed
    (env : Env)
    (o : Outcomes)
    (row : Except String Branch)
    (w : World Db Effect) :
    (rowRun env row o w).2.db.processed = w.db.processed := by
  cases row with
  | error message => rfl
  | ok branch =>
      have hWrites :=
        attemptedAll_frame store Db.processed
          (by
            intro e db
            cases e <;> rfl)
          o w branch.calls
      cases finish_ends env branch o
          (w.attemptedAll store o branch.calls) with
      | well later hRun _ _ _ hProcessed =>
          simp only [rowRun, Branch.perform, hRun]
          exact hProcessed.trans hWrites
      | failed message later hRun _ hProcessed =>
          simp only [rowRun, Branch.perform, hRun]
          exact hProcessed.trans hWrites

/- The effects of a branch whose writes have all been tried. -/
theorem mem_stored_calls
    (o : Outcomes)
    {branch : Branch}
    (hKeys : branch.KeysDistinct)
    (db : Db) :
    (∀ e ∈ branch.calls,
      e ∈ ((World.start db).attemptedAll store o
        branch.calls).stored) ↔
      SettingsHold branch db o := by
  have hStored :=
    mem_stored_attemptedAll (agrees_calls hKeys) o branch.calls
      (List.Subset.refl _) (World.start db)
  simp only [World.start, Nat.zero_add, List.not_mem_nil,
    false_or] at hStored
  unfold SettingsHold
  constructor
  · intro hAll e hMem
    rcases (hStored e).mp (hAll e hMem) with ⟨_, hHolds⟩ | hRan
    · exact Or.inl hHolds
    · exact Or.inr hRan
  · intro hAll e hMem
    apply (hStored e).mpr
    rcases hAll e hMem with hHolds | hRan
    · exact Or.inl ⟨hMem, hHolds⟩
    · exact Or.inr hRan

/- A dedup row that was not there is there now. -/
theorem seen_insertProcessed
    (msgId eventType : String)
    (db : Db) :
    (insertProcessed msgId eventType db).seen msgId = true := by
  simp [Db.seen, insertProcessed]

theorem seen_congr
    {db later : Db}
    (hProcessed : later.processed = db.processed)
    (msgId : String) :
    later.seen msgId = db.seen msgId := by
  simp [Db.seen, hProcessed]

/- A fresh delivery with an id: its row, then its mark. -/
theorem clerkWebhook_run
    (env : Env)
    (o : Outcomes)
    {msgId : String}
    (hId : msgId ≠ "")
    {db : Db}
    (hFresh : db.seen msgId = false)
    (event : Fields) :
    clerkWebhook env msgId event o (.start db) =
      (rowRun env
          (branchFor env (eventType event) (eventData event)
            db.settings) >>=
        fun _ =>
          must (insertProcessed msgId (eventType event))
            databaseError) o (.start db) := by
  have hNew : (msgId != "" && db.seen msgId) = false := by
    simp [hFresh]
  have hStart : (World.start db : World Db Effect).db = db :=
    rfl
  simp only [clerkWebhook, bind_run, read_run, hStart, hNew,
    Bool.false_eq_true, if_false, dispatch_eq,
    recordProcessed, if_neg hId]

/- A delivery without an id is never marked. -/
theorem clerkWebhook_without_id
    (db : Db)
    (event : Fields) :
    (clerkWebhook env "" event o (.start db)).2.db.processed =
      db.processed := by
  have hProcessed :=
    rowRun_processed env o
      (branchFor env (eventType event) (eventData event)
        db.settings) (.start db)
  have hRun :
      clerkWebhook env "" event o (.start db) =
        (rowRun env
            (branchFor env (eventType event) (eventData event)
              db.settings) >>=
          fun _ => pure ()) o (.start db) := by
    have hStart : (World.start db : World Db Effect).db = db :=
      rfl
    simp only [clerkWebhook, bind_run, read_run, hStart,
      bne_self_eq_false, Bool.false_and, Bool.false_eq_true,
      if_false, dispatch_eq, recordProcessed, if_true]
  rw [hRun, bind_run]
  rcases hRow :
      rowRun env
        (branchFor env (eventType event) (eventData event)
          db.settings) o (.start db) with
    ⟨_ | _, later⟩
  · rw [hRow] at hProcessed
    exact hProcessed
  · rw [hRow] at hProcessed
    exact hProcessed

/- How the end of a branch comes out in a fresh world. -/
theorem finish_started
    (env : Env)
    (branch : Branch)
    (o : Outcomes)
    (db : Db) :
    let before :=
      (World.start db).attemptedAll store o branch.calls
    let count :=
      branch.statements env (settingsAfter branch db o)
        db.cameras
    (∃ message later,
      branch.finish env o before = (.error message, later) ∧
        (∃ i, i < count ∧ o.propagated i = false) ∧
        later.db.processed = db.processed) ∨
    (∃ later,
      branch.finish env o before = (.ok (), later) ∧
        (∀ i, i < count → o.propagated i = true) ∧
        later.propagates = count ∧
        later.stored =
          before.stored ++
            (if branch.tail = .caps then
              [.caps branch.orgId]
            else
              []) ∧
        later.db.processed = db.processed) := by
  intro before count
  have hProcessed : before.db.processed = db.processed :=
    attemptedAll_frame store Db.processed
      (by
        intro e db
        cases e <;> rfl)
      o (.start db) branch.calls
  have hCameras : before.db.cameras = db.cameras :=
    attemptedAll_frame store Db.cameras
      (by
        intro e db
        cases e <;> rfl)
      o (.start db) branch.calls
  have hPropagates : before.propagates = 0 :=
    attemptedAll_propagates store o (.start db) branch.calls
  have hCount :
      branch.statements env before.db.settings
          before.db.cameras =
        count := by
    rw [hCameras]
    rfl
  cases finish_ends env branch o before with
  | failed message later hEnd hSome hKept =>
      rw [hPropagates, hCount] at hSome
      simp only [Nat.zero_add] at hSome
      exact
        Or.inl
          ⟨message, later, hEnd, hSome, hKept.trans hProcessed⟩
  | well later hEnd hAll hLater hStored hKept =>
      rw [hPropagates, hCount] at hAll hLater
      simp only [Nat.zero_add] at hAll hLater
      exact
        Or.inr
          ⟨later, hEnd, hAll, hLater, hStored,
            hKept.trans hProcessed⟩

/- What is left of a fresh delivery after its row. -/
theorem marked_iff
    {msgId : String}
    (hId : msgId ≠ "")
    {db : Db}
    (hFresh : db.seen msgId = false)
    {event : Fields}
    {branch : Branch}
    (hRow :
      branchFor env (eventType event) (eventData event)
        db.settings = .ok branch) :
    (StatementFails env branch db o ∧
      (clerkWebhook env msgId event o
        (.start db)).2.db.seen msgId = false) ∨
    (¬ StatementFails env branch db o ∧
      (clerkWebhook env msgId event o
        (.start db)).2.db.seen msgId = true ∧
      (clerkWebhook env msgId event o (.start db)).2.stored =
        ((World.start db).attemptedAll store o
            branch.calls).stored ++
          (if branch.tail = .caps then
            [.caps branch.orgId]
          else
            [])) := by
  have hRun := clerkWebhook_run env o hId hFresh event
  rw [hRow, bind_run] at hRun
  rcases finish_started env branch o db
    with ⟨message, later, hEnd, ⟨i, hi, hFails⟩, hSame⟩ |
      ⟨later, hEnd, hAll, hLater, hStored, hSame⟩
  · left
    refine ⟨⟨i, Nat.le_of_lt hi, hFails⟩, ?_⟩
    have hBranch :
        rowRun env (.ok branch) o (.start db) =
          (.error message, later) := hEnd
    rw [hRun, hBranch]
    exact (seen_congr hSame msgId).trans hFresh
  · have hBranch :
        rowRun env (.ok branch) o (.start db) =
          (.ok (), later) := hEnd
    rw [hRun, hBranch]
    cases hMark : o.propagated later.propagates with
    | false =>
        left
        refine
          ⟨⟨later.propagates, Nat.le_of_eq hLater, hMark⟩, ?_⟩
        simp only [must, hMark, Bool.false_eq_true, if_false]
        exact (seen_congr hSame msgId).trans hFresh
    | true =>
        right
        refine ⟨?_, ?_, ?_⟩
        · rintro ⟨i, hi, hFails⟩
          have hOk : o.propagated i = true := by
            rcases Nat.lt_or_eq_of_le hi with hLess | hLast
            · exact hAll i hLess
            · rw [hLast, ← hLater]
              exact hMark
          rw [hOk] at hFails
          cases hFails
        · simp only [must, hMark, if_true]
          exact seen_insertProcessed msgId _ _
        · simp only [must, hMark, if_true]
          exact hStored

/- The cap is noted for every branch that ends with it. -/
theorem stored_effects_iff
    (branch : Branch)
    (stored : List Effect) :
    (∀ e ∈ branch.effects,
      e ∈ stored ++
        (if branch.tail = .caps then
          [.caps branch.orgId]
        else
          [])) ↔
      ∀ e ∈ branch.calls, e ∈ stored := by
  constructor
  · intro hAll e hMem
    rcases
      List.mem_append.mp
        (hAll e (List.mem_append_left _ hMem)) with
      hStored | hCaps
    · exact hStored
    · rcases List.mem_map.mp hMem with ⟨write, _, rfl⟩
      split at hCaps
      · cases List.mem_singleton.mp hCaps
      · cases hCaps
  · intro hAll e hMem
    rcases List.mem_append.mp hMem with hCall | hCaps
    · exact List.mem_append_left _ (hAll e hCall)
    · exact List.mem_append_right _ hCaps

/-
  A marked delivery has had its effects stored exactly when
  it is not marked at all (it has no id, was seen before, is
  refused, or a propagated statement fails) or none of its
  swallowed settings writes was lost.
-/
theorem markedOnlyIfStored_iff
    (env : Env)
    (msgId : String)
    (event : Fields)
    (db : Db)
    (o : Outcomes) :
    MarkedOnlyIfStored env msgId event db o ↔
      msgId = "" ∨ db.seen msgId = true ∨
        ∀ branch,
          branchFor env (eventType event) (eventData event)
              db.settings = .ok branch →
            StatementFails env branch db o ∨
              SettingsHold branch db o := by
  unfold MarkedOnlyIfStored calledFor
  by_cases hId : msgId = ""
  · subst hId
    constructor
    · intro _
      exact Or.inl rfl
    · intro _ hFresh hSeen
      rw [seen_congr (clerkWebhook_without_id db event),
        hFresh] at hSeen
      cases hSeen
  · cases hFresh : db.seen msgId with
    | true => simp
    | false =>
        cases hRow :
            branchFor env (eventType event) (eventData event)
              db.settings with
        | error message => simp
        | ok branch =>
            have hCalls :=
              mem_stored_calls o (branchFor_keysDistinct hRow)
                db
            simp only [hId, Bool.false_eq_true, false_or,
              Except.ok.injEq, forall_eq', true_imp_iff]
            rcases marked_iff hId hFresh hRow with
              ⟨hFails, hUnseen⟩ | ⟨hRan, hSeen, hStored⟩
            · constructor
              · intro _
                exact Or.inl hFails
              · intro _ hSeen
                rw [hUnseen] at hSeen
                cases hSeen
            · rw [hStored, ← hCalls]
              rw [stored_effects_iff]
              constructor
              · intro hAll
                exact Or.inr (hAll hSeen)
              · rintro (hFails | hAll) _
                · exact absurd hFails hRan
                · exact hAll

end Clerk

end SentinelCommand
