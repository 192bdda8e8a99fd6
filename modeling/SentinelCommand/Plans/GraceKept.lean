import SentinelCommand.Plans.GraceRules

/-
  The grace of an organization that is past due is kept where
  no flag goes up beside an older anchor: no plan is
  tightened to the free tier until the grace period has
  passed since the organization last entered past due. An
  item that ended leaves such an anchor.

  Main declarations:
    * `Plans.Grace.valid_effectivePlanForCaps`
    * `Plans.Grace.grace_honoured`
    * `Plans.Grace.grace_broken`
-/

--------------------
-- Lookups
--------------------

namespace SentinelCommand

namespace Plans

namespace Grace

open Interleaving

variable {ctx : PlanContext}
variable {id : Nat}
variable {s : GraceState}
variable {orgId : String}

theorem found_eq_some
    {began : Int}
    {cached : CachedPlan}
    (hFound : found s orgId began = some cached) :
    s.effective.lookup orgId = some cached := by
  unfold found at hFound
  exact (Option.filter_eq_some_iff.mp hFound).1

/- A hit is honoured when no spell began since. -/
theorem graceInv_hit
    {began : Int}
    (hInv : GraceInv ctx s)
    (hOk : graced ctx (.hit orgId began) s) :
    GraceInv ctx
      { s with
        answers :=
          s.answers ++
            (found s orgId began).toList.map
              (fun cached =>
                noted s orgId cached.slug cached.nominal) } where
  anchored := hInv.anchored
  cached := by
    intro org cached hLookup
    apply tightened_of_guar ?_ (hInv.cached org cached hLookup)
    exact graceGuar_of_same (Int.le_refl _) rfl rfl
  answers := by
    intro answer hAnswer
    rcases List.mem_append.mp hAnswer with hOld | hNew
    · exact hInv.answers answer hOld
    · rcases List.mem_map.mp hNew with ⟨cached, hMem, rfl⟩
      have hFound : found s orgId began = some cached :=
        Option.mem_toList.mp hMem
      exact
        honoured_of_tightened
          (hInv.cached orgId cached (found_eq_some hFound))
          (hOk cached hFound)

theorem valid_lookUpEffective
    {next : Option CachedPlan → GraceProgram}
    (hNext :
      ∀ after cached, GraceValid ctx id after (next cached)) :
    GraceValid ctx id s (lookUpEffective orgId next) := by
  unfold lookUpEffective readClock
  apply valid_atomic
  intro began _ hBegan _
  refine
    ⟨hBegan, graceGuar_of_same (Int.le_refl _) rfl rfl, ?_⟩
  apply valid_atomic
  intro now _ hInv hOk
  refine
    ⟨?_, graceGuar_of_same (Int.le_refl _) rfl rfl, hNext _ _⟩
  exact graceInv_hit hInv hOk

/- What an insert leaves: the new plan, and old ones. -/
theorem lookup_insertEffective
    {slug nominal org : String}
    {overdue : Option Nat}
    {cached : CachedPlan}
    (hLookup :
      (insertEffective s orgId slug nominal
        overdue).effective.lookup org = some cached) :
    (org = orgId ∧ cached.slug = slug ∧
        cached.nominal = nominal ∧
          cached.overdue = overdue) ∨
      s.effective.lookup org = some cached := by
  have hInserted :
      (s.effective.insert orgId
        { slug := slug
          nominal := nominal
          expiry := s.clock + effectiveTtl
          overdue := overdue }).lookup org = some cached := by
    unfold insertEffective at hLookup
    dsimp only at hLookup
    split at hLookup
    · exact lookup_of_retain hLookup
    · exact hLookup
  by_cases hSame : org = orgId
  · subst hSame
    rw [AList.lookup_insert, Option.some.injEq] at hInserted
    subst hInserted
    exact Or.inl ⟨rfl, rfl, rfl, rfl⟩
  · rw [AList.lookup_insert_ne hSame] at hInserted
    exact Or.inr hInserted

theorem graceInv_insertEffective
    {slug nominal : String}
    {overdue : Option Nat}
    (hInv : GraceInv ctx s)
    (hTight : Tightened s orgId slug nominal overdue)
    (hOk : graced ctx (.answer orgId overdue) s) :
    GraceInv ctx
      (insertEffective s orgId slug nominal overdue) where
  anchored := hInv.anchored
  cached := by
    intro org cached hLookup
    have hGuar :
        GraceGuar s
          (insertEffective s orgId slug nominal overdue) :=
      graceGuar_of_same (Int.le_refl _) rfl rfl
    apply tightened_of_guar hGuar
    rcases lookup_insertEffective hLookup with
      ⟨rfl, hSlug, hNominal, hOverdue⟩ | hOld
    · rw [hSlug, hNominal, hOverdue]
      exact hTight
    · exact hInv.cached org cached hOld
  answers := by
    intro answer hAnswer
    rcases List.mem_append.mp hAnswer with hOld | hNew
    · exact hInv.answers answer hOld
    · rw [List.mem_singleton.mp hNew]
      exact honoured_of_tightened hTight hOk

theorem valid_cacheEffective
    {slug nominal : String}
    {overdue : Option Nat}
    {next : GraceProgram}
    (hTight : Tightened s orgId slug nominal overdue)
    (hNext : ∀ after, GraceValid ctx id after next) :
    GraceValid ctx id s
      (cacheEffective orgId slug nominal overdue next) := by
  unfold cacheEffective
  apply valid_atomic
  intro now hRely hInv hOk
  refine
    ⟨?_, graceGuar_of_same (Int.le_refl _) rfl rfl, hNext _⟩
  exact
    graceInv_insertEffective hInv
      (tightened_of_rely hRely hTight) hOk

/- A nominal plan is not tightened. -/
theorem tightened_nominal
    (nominal : String)
    (overdue : Option Nat) :
    Tightened s orgId nominal nominal overdue := by
  intro hOther
  exact absurd rfl hOther

/- The anchor that was read is not before the last spell. -/
def AnchorRead
    (ctx : PlanContext)
    (s : GraceState)
    (orgId text : String)
    (seen : Nat) : Prop :=
  ∀ anchor ∈ instantOf ctx text,
    seen ≤ (spellsOf s.spells orgId).length ∧
      ∃ since, enteredAt s.spells orgId seen = some since ∧
        since ≤ anchor

theorem anchorRead_of_rely
    {s' : GraceState}
    {text : String}
    {seen : Nat}
    (hRely : Rely graceGuar id s s')
    (hRead : AnchorRead ctx s orgId text seen) :
    AnchorRead ctx s' orgId text seen := by
  apply rely_stable
    (P := fun now => AnchorRead ctx now orgId text seen)
    ?_ hRely hRead
  intro _ before after _ hGuar hBefore anchor hInstant
  rcases hBefore anchor hInstant with ⟨hSeen, since, hSince⟩
  refine
    ⟨Nat.le_trans hSeen
      (length_spellsOf_le hGuar.spells orgId), since, ?_⟩
  rw [enteredAt_of_longer hGuar.spells hSeen]
  exact hSince

theorem valid_readAnchor
    {reads : Bool}
    {next : String → Nat → GraceProgram}
    (hNext :
      ∀ after text seen,
        AnchorRead ctx after orgId text seen →
          GraceValid ctx id after (next text seen)) :
    GraceValid ctx id s (readAnchor reads orgId next) := by
  unfold readAnchor
  apply valid_atomic
  intro now _ hInv _
  refine
    ⟨hInv, graceGuar_of_same (Int.le_refl _) rfl rfl, ?_⟩
  apply hNext
  intro anchor hInstant
  refine ⟨Nat.le_refl _, ?_⟩
  cases reads with
  | false => cases hInstant
  | true => exact hInv.anchored orgId anchor hInstant

/- A tightened plan comes of an anchor past its grace. -/
theorem graceOver_of_planForCaps
    {now : Int}
    {nominal pastDue pastDueAt : String}
    (hTight :
      planForCaps ctx.parsePastDueAt now nominal pastDue
        pastDueAt ≠ nominal) :
    graceOver ctx now pastDueAt = true := by
  unfold graceOver instantOf
  unfold planForCaps at hTight
  split at hTight
  · split at hTight
    · exact absurd rfl hTight
    · rename_i hText
      rw [if_neg hText]
      cases hParse : ctx.parsePastDueAt pastDueAt with
      | none =>
          rw [hParse] at hTight
          exact absurd rfl hTight
      | some since =>
          rw [hParse] at hTight
          dsimp only at hTight
          split at hTight
          · rename_i hAge
            exact decide_eq_true hAge
          · exact absurd rfl hTight
  · exact absurd rfl hTight

/- The grace passed since the last spell the reader saw. -/
theorem outgraced_of_graceOver
    {pastDueAt : String}
    {seen : Nat}
    (hRead : AnchorRead ctx s orgId pastDueAt seen)
    (hOver : graceOver ctx s.clock pastDueAt = true) :
    Outgraced s orgId seen := by
  unfold graceOver at hOver
  cases hInstant : instantOf ctx pastDueAt with
  | none =>
      rw [hInstant] at hOver
      cases hOver
  | some anchor =>
      rw [hInstant] at hOver
      have hLong := of_decide_eq_true hOver
      rcases hRead anchor hInstant with
        ⟨hSeen, since, hSince, hBefore⟩
      exact ⟨hSeen, since, hSince, by omega⟩

theorem tightened_planForCaps
    {nominal pastDue pastDueAt : String}
    {seen : Nat}
    (hRead : AnchorRead ctx s orgId pastDueAt seen) :
    Tightened s orgId
      (planForCaps ctx.parsePastDueAt s.clock nominal pastDue
        pastDueAt)
      nominal
      (if graceOver ctx s.clock pastDueAt then
        some seen
      else
        none) := by
  intro hOther
  have hOver := graceOver_of_planForCaps hOther
  rw [if_pos hOver]
  exact ⟨seen, rfl, outgraced_of_graceOver hRead hOver⟩

theorem valid_tighten
    {call : Call}
    {nominal : String}
    {next : GraceProgram}
    (hNext : ∀ after, GraceValid ctx id after next) :
    GraceValid ctx id s
      (tighten ctx call orgId nominal next) := by
  unfold tighten
  split
  · exact
      valid_cacheEffective (tightened_nominal nominal none)
        hNext
  · apply valid_readSetting
    intro flagged pastDue
    split
    · exact
        valid_cacheEffective (tightened_nominal nominal none)
          hNext
    · apply valid_readAnchor
      intro read pastDueAt seen hRead
      unfold readClock
      apply valid_atomic
      intro now hRely hInv _
      refine
        ⟨hInv, graceGuar_of_same (Int.le_refl _) rfl rfl, ?_⟩
      exact
        valid_cacheEffective
          (tightened_planForCaps
            (anchorRead_of_rely hRely hRead))
          hNext

theorem valid_resolveOrgPlan
    {call : Call}
    {next : String → GraceProgram}
    (hNext :
      ∀ after slug, GraceValid ctx id after (next slug)) :
    GraceValid ctx id s
      (resolveOrgPlan ctx call orgId next) := by
  unfold resolveOrgPlan
  split
  · exact hNext s _
  · apply valid_readSetting
    intro after cached
    split
    · exact hNext after _
    · cases call.live with
      | none => exact hNext after _
      | some live =>
          dsimp only
          split
          · apply valid_setPlain
            · intro hKey
              exact absurd hKey (by decide)
            · intro hKey
              exact absurd hKey (by decide)
            · intro written
              exact hNext written _
          · exact hNext after _

theorem valid_effectivePlanForCaps
    {call : Call}
    {useCache : Bool}
    {next : GraceProgram}
    (hNext : ∀ after, GraceValid ctx id after next) :
    GraceValid ctx id s
      (effectivePlanForCaps ctx call orgId useCache next) := by
  have hCompute
      (before : GraceState) :
      GraceValid ctx id before
        (resolveOrgPlan ctx call orgId (fun nominal =>
          tighten ctx call orgId nominal next)) := by
    apply valid_resolveOrgPlan
    intro after nominal
    exact valid_tighten hNext
  unfold effectivePlanForCaps
  dsimp only
  split
  · apply valid_lookUpEffective
    intro after cached
    cases cached with
    | none => exact hCompute after
    | some _ => exact hNext after
  · exact hCompute s

theorem valid_enforceCameraCap
    {call : Call}
    {next : GraceProgram}
    (hNext : ∀ after, GraceValid ctx id after next) :
    GraceValid ctx id s
      (enforceCameraCap ctx call orgId next) := by
  unfold enforceCameraCap
  exact valid_effectivePlanForCaps hNext

theorem valid_done
    (after : GraceState) :
    GraceValid ctx id after .done :=
  Valid.done after

theorem valid_nodeHeartbeat
    (call : Call) :
    GraceValid ctx id s (nodeHeartbeat ctx call orgId) := by
  unfold nodeHeartbeat
  apply valid_readSetting
  intro after pastDue
  split
  · exact valid_enforceCameraCap valid_done
  · exact valid_done after

end Grace

end Plans

--------------------
-- Webhooks
--------------------

namespace Plans

namespace Grace

open Interleaving

variable {ctx : PlanContext}
variable {id : Nat}
variable {s : GraceState}
variable {orgId : String}

/- A setting that is neither the flag nor the anchor. -/
theorem valid_setAside
    {key value : String}
    {next : GraceProgram}
    (hFlag : key ≠ "payment_past_due")
    (hAnchor : key ≠ "payment_past_due_at")
    (hNext : ∀ after, GraceValid ctx id after next) :
    GraceValid ctx id s (setPlain orgId key value next) :=
  valid_setPlain (fun h => absurd h hFlag)
    (fun h => absurd h hAnchor) hNext

theorem valid_lowerFlag
    {next : GraceProgram}
    (hNext : ∀ after, GraceValid ctx id after next) :
    GraceValid ctx id s
      (setPlain orgId "payment_past_due" "false" next) := by
  apply valid_setPlain ?_ ?_ hNext
  · intro _
    decide
  · intro hKey
    exact absurd hKey (by decide)

theorem valid_clearPastDue
    {next : GraceProgram}
    (hNext : ∀ after, GraceValid ctx id after next) :
    GraceValid ctx id s (clearPastDue orgId next) := by
  unfold clearPastDue
  apply valid_lowerFlag
  intro lowered
  apply valid_setPlain ?_ ?_ hNext
  · intro hKey
    exact absurd hKey (by decide)
  · intro _
    rfl

theorem valid_settle
    (call : Call) :
    GraceValid ctx id s (settle ctx call orgId) := by
  unfold settle
  apply valid_invalidate
  intro after
  exact valid_enforceCameraCap valid_done

theorem valid_subscriptionChanged
    (env : Clerk.Env)
    (call : Call)
    (data : Fields) :
    GraceValid ctx id s
      (subscriptionChanged ctx env call data) := by
  unfold subscriptionChanged
  cases Clerk.payerOrg data with
  | none => exact valid_done s
  | some orgId =>
      dsimp only
      have hLast
          (before : GraceState) :
          GraceValid ctx id before
            (if
              Clerk.hasActiveItem
                (((data.lookup "items").bind
                  Json.asArray).getD [])
            then
              setPlain orgId "plan_cancel_pending" ""
                (settle ctx call orgId)
            else
              settle ctx call orgId) := by
        split
        · apply valid_setAside (by decide) (by decide)
          intro after
          exact valid_settle call
        · exact valid_settle call
      apply valid_setAside (by decide) (by decide)
      intro planned
      split
      · apply valid_readSetting
        intro after held
        split
        · exact hLast after
        · exact valid_clearPastDue hLast
      · exact valid_settle call

theorem valid_itemActive
    (call : Call)
    (data : Fields) :
    GraceValid ctx id s (itemActive ctx call data) := by
  unfold itemActive
  dsimp only
  split
  · split
    · apply valid_setAside (by decide) (by decide)
      intro planned
      apply valid_setAside (by decide) (by decide)
      intro pending
      split
      · apply valid_clearPastDue
        intro cleared
        exact valid_settle call
      · exact valid_settle call
    · exact valid_done s
  · exact valid_done s

theorem valid_pastDue
    (env : Clerk.Env)
    (call : Call)
    (data : Fields) :
    GraceValid ctx id s (pastDue ctx env call data) := by
  unfold pastDue
  cases Clerk.payerOrg data with
  | none => exact valid_done s
  | some orgId =>
      dsimp only
      apply valid_readSetting
      intro read already
      split
      · apply valid_raiseFlag
        intro raised
        exact valid_invalidate valid_done
      · cases env.pastDueStamp data with
        | error _ => exact valid_done read
        | ok stamp =>
            dsimp only
            apply valid_raiseFlag
            intro raised
            apply valid_invalidate
            intro after
            exact valid_writeAnchor valid_done

theorem valid_paymentAttempt
    (call : Call)
    (data : Fields) :
    GraceValid ctx id s (paymentAttempt ctx call data) := by
  unfold paymentAttempt
  dsimp only
  split
  · exact valid_done s
  · split
    · apply valid_clearPastDue
      intro cleared
      exact valid_settle call
    · exact valid_done s

theorem valid_itemCanceled
    (data : Fields) :
    GraceValid ctx id s (itemCanceled data) := by
  unfold itemCanceled
  split
  · exact valid_done s
  · exact
      valid_setAside (by decide) (by decide) valid_done

theorem valid_itemEnded
    (env : Clerk.Env)
    (call : Call)
    (data : Fields) :
    GraceValid ctx id s (itemEnded ctx env call data) := by
  unfold itemEnded
  split
  · exact valid_done s
  · apply valid_setAside (by decide) (by decide)
    intro planned
    apply valid_setAside (by decide) (by decide)
    intro pending
    apply valid_lowerFlag
    intro lowered
    exact valid_settle call

theorem valid_dispatchBilling
    (env : Clerk.Env)
    (call : Call)
    (eventType : String)
    (data : Fields) :
    GraceValid ctx id s
      (dispatchBilling ctx env call eventType data) := by
  unfold dispatchBilling
  split
  · exact valid_subscriptionChanged env call data
  · split
    · exact valid_itemActive call data
    · split
      · exact valid_pastDue env call data
      · split
        · exact valid_paymentAttempt call data
        · split
          · exact valid_itemCanceled data
          · split
            · exact valid_itemEnded env call data
            · exact valid_done s

end Grace

end Plans

--------------------
-- Runs
--------------------

namespace Plans

namespace Grace

open Interleaving

variable {ctx : PlanContext}

theorem valid_startGrace
    (task : GraceTask)
    (id : Nat)
    (s : GraceState)
    (_ : GraceInv ctx s) :
    GraceValid ctx id s (startGrace ctx task id) := by
  cases task with
  | effectivePlan call orgId useCache =>
      exact valid_effectivePlanForCaps valid_done
  | enforce call orgId =>
      exact valid_enforceCameraCap valid_done
  | heartbeat call orgId => exact valid_nodeHeartbeat call
  | webhook env call eventType data =>
      exact valid_dispatchBilling env call eventType data
  | wait span =>
      unfold startGrace
      apply valid_atomic
      intro now _ hInv _
      have hGuar :
          GraceGuar now
            { now with clock := now.clock + span } :=
        graceGuar_of_same (by dsimp only; omega) rfl rfl
      refine ⟨?_, hGuar, valid_done _⟩
      exact
        graceInv_of_guar hInv hGuar hInv.anchored
          (fun _ _ hLookup => hLookup) rfl

/- The spells of a start are the stored anchors. -/
theorem entered_start
    {table : SettingsTable}
    {orgId : String}
    {anchor : Int}
    (clock : Int)
    (hAnchor : anchorOf ctx table orgId = some anchor) :
    entered (GraceState.start ctx table clock).spells orgId =
      some anchor := by
  have hOrg : orgId ∈ table.rows.map SettingsRow.orgId := by
    cases hSelect : table.select orgId "payment_past_due_at"
      with
    | none =>
        unfold anchorOf SettingsTable.get at hAnchor
        rw [hSelect] at hAnchor
        cases hAnchor
    | some row =>
        rcases of_select hSelect with ⟨hRow, hOrg, _⟩
        exact hOrg ▸ List.mem_map_of_mem hRow
  have hMem :
      { orgId := orgId, since := anchor } ∈
        spellsOf (GraceState.start ctx table clock).spells
          orgId := by
    apply List.mem_filter.mpr
    refine ⟨List.mem_filterMap.mpr ⟨orgId, hOrg, ?_⟩, ?_⟩
    · rw [hAnchor]
      rfl
    · exact beq_self_eq_true orgId
  unfold entered enteredAt
  rw [List.take_length]
  cases hLast :
      (spellsOf (GraceState.start ctx table clock).spells
        orgId).getLast? with
  | none =>
      rw [List.getLast?_eq_none_iff.mp hLast] at hMem
      cases hMem
  | some spell =>
      rcases List.mem_filter.mp
        (List.mem_of_getLast? hLast) with ⟨hSpell, hIs⟩
      rcases List.mem_filterMap.mp hSpell with
        ⟨org, _, hStored⟩
      rcases Option.map_eq_some_iff.mp hStored with
        ⟨stored, hFound, rfl⟩
      have hSame : org = orgId := eq_of_beq hIs
      rw [hSame, hAnchor] at hFound
      rw [Option.some.inj hFound]
      rfl

theorem graceInv_start
    (table : SettingsTable)
    (clock : Int) :
    GraceInv ctx (GraceState.start ctx table clock) where
  anchored := by
    intro orgId anchor hAnchor
    exact
      ⟨anchor, entered_start clock hAnchor, Int.le_refl _⟩
  cached := by
    intro orgId cached hLookup
    cases hLookup
  answers := by
    intro answer hAnswer
    cases hAnswer

/-
  Where no flag goes up beside an older anchor, no anchor is
  written under a later spell, and no spell begins under a
  call, every answer honours the grace.
-/
theorem grace_honoured
    (ctx : PlanContext)
    (table : SettingsTable)
    (clock : Int)
    (events : List (Event GraceTask))
    (hMeets :
      Run.Meets (step (startGrace ctx))
        (EventOk (graced ctx))
        (initial (GraceState.start ctx table clock)) events) :
    ∀ answer ∈ (graceAfter ctx table clock events).answers,
      Honoured answer := by
  have hFinal :
      GraceInv ctx (graceAfter ctx table clock events) :=
    sound valid_startGrace (graceInv_start table clock) hMeets
  exact hFinal.answers

def newYear : Int :=
  seconds 1767225600

/- The stamps of two days, as they are stored. -/
def calendar : PlanContext where
  localAuth := false
  parsePastDueAt text :=
    if text = "2026-01-01T00:00:00+00:00" then
      some newYear
    else if text = "2026-01-21T00:00:00+00:00" then
      some (newYear + hours (24 * 20))
    else
      none

/- One organization on a paid plan. -/
def paying : SettingsTable where
  rows :=
    [{ id := 1, orgId := "acme", key := "org_plan"
       value := some "pro" }]
  nextId := 2
  unique := by decide
  fresh := by decide

def allReads : Call where
  reads _ := true
  live := none

/- A delivery of an event that is dated by its stamp. -/
def delivered
    (eventType stamp : String)
    (more : Fields) : GraceTask :=
  .webhook
    { localAuth := false
      now := newYear
      itemPeriodEndUtc := fun _ => none
      pastDueStamp := fun _ => .ok stamp
      parsePastDueAt := calendar.parsePastDueAt
      liveAfterEnd := some "pro"
      throttled := false
      live := some "pro" }
    allReads eventType
    (("payer",
        .object [("organization_id", .string "acme")]) ::
      more)

def daysPass (days : Nat) : GraceTask :=
  .wait (hours (24 * days)).toNat

def asked : GraceTask :=
  .effectivePlan allReads "acme" true

/- Past due for eight days, and then asked. -/
def lapsed : List (Event GraceTask) :=
  List.flatten
    [[.spawn
        (delivered "subscription.pastDue"
          "2026-01-01T00:00:00+00:00" [])],
      List.replicate 6 (.run 0),
      [.spawn (daysPass 8), .run 1, .spawn asked],
      List.replicate 7 (.run 2)]

theorem grace_honoured_lapsed :
    ((graceAfter calendar paying newYear
        lapsed).answers.map GraceAnswer.slug =
      ["free_org"]) ∧
      ∀ answer ∈
          (graceAfter calendar paying newYear lapsed).answers,
        Honoured answer :=
  ⟨by decide +kernel,
    grace_honoured calendar paying newYear lapsed
      (by decide +kernel)⟩

/-
  An item ends on the fifth day, beside one that stays paid.
  Past due again on day twenty, the plan is asked for before
  the new anchor is written.
-/
def dueAgain : List (Event GraceTask) :=
  List.flatten
    [[.spawn
        (delivered "subscription.pastDue"
          "2026-01-01T00:00:00+00:00" [])],
      List.replicate 6 (.run 0),
      [.spawn (daysPass 5), .run 1,
        .spawn (delivered "subscriptionItem.ended" "" [])],
      List.replicate 9 (.run 2),
      [.spawn (daysPass 15), .run 3,
        .spawn
          (delivered "subscription.pastDue"
            "2026-01-21T00:00:00+00:00" [])],
      List.replicate 3 (.run 4),
      [.spawn asked], List.replicate 7 (.run 5),
      List.replicate 3 (.run 4)]

/- Every call is over, and the grace was not honoured. -/
theorem grace_broken :
    (Run.exec (step (startGrace calendar))
        (initial
          (GraceState.start calendar paying newYear))
        dueAgain).threads.all Thread.isDone = true ∧
      (graceAfter calendar paying newYear
        dueAgain).answers.map
          (fun answer =>
            (answer.slug, answer.nominal, answer.clock,
              answer.entered)) =
        [("pro", "pro", newYear + hours (24 * 5),
            some newYear),
          ("free_org", "pro", newYear + hours (24 * 20),
            some (newYear + hours (24 * 20)))] ∧
      ¬ ∀ answer ∈
          (graceAfter calendar paying newYear
            dueAgain).answers,
        Honoured answer := by
  decide +kernel

end Grace

end Plans

end SentinelCommand
