import SentinelCommand.Plans.CacheRules

/-
  When no cache hit yields a plan from before a write.

  The cache of effective plans has no generation: whoever
  computed a plan caches it, whatever was invalidated since,
  and some writes are followed by no invalidation. So hits
  are fresh as long as no plan is cached that was read
  before a write that has been dealt with, and no write that
  nothing follows is made while a plan is cached.

  Key definitions include:
    * `Plans.CacheTask`
    * `Plans.HitsFresh`

  Main declarations:
    * `Plans.hits_fresh`
    * `Plans.stale_plan_is_hit`
-/

--------------------
-- Lookups and the reconciler
--------------------

namespace SentinelCommand

namespace Plans

open Interleaving

variable {id : Nat} {s : PlanState} {orgId : String}
variable {ctx : PlanContext}

theorem cacheSame_throttle
    (s : PlanState)
    (orgId : String)
    (now : Int) :
    CacheSame s (throttle s orgId now).1 := by
  have hPruned : CacheSame s (pruneResolveCache s now) := by
    unfold pruneResolveCache
    split <;> exact ⟨rfl, rfl, rfl, rfl, rfl⟩
  unfold throttle
  dsimp only
  split
  · exact hPruned
  · exact
      ⟨hPruned.effective, hPruned.settled, hPruned.clock,
        hPruned.returned, hPruned.hits⟩

theorem valid_cacheRead
    {α : Type}
    {f : PlanState → α}
    {next : α → PlanProgram}
    (hNext :
      ∀ after result, CacheLater s after → CacheInv after →
        CacheValid id after (next result)) :
    CacheValid id s
      (atomic .quiet (fun s => (s, f s)) next) :=
  valid_cacheSame cacheSame_refl hNext

theorem valid_cacheFetch
    {label : PlanLabel}
    {answers : Bool}
    {about : Option String → Option String}
    {next : Option String → PlanProgram}
    (hNext :
      ∀ after live, CacheLater s after → CacheInv after →
        CacheValid id after (next live)) :
    CacheValid id s
      (fetchLivePlanSlug id label answers orgId about next) :=
  valid_cacheSame
    (fun now => cacheSame_hold now id orgId _) hNext

theorem valid_cacheResolve
    {o : Outcomes}
    {next : String → Source → PlanProgram}
    (hStart : CacheInv s)
    (hNext :
      ∀ after slug source, CacheLater s after →
        CacheInv after → CacheValid id after (next slug source)) :
    CacheValid id s (resolveOrgPlan ctx id o orgId next) := by
  unfold resolveOrgPlan
  split
  · exact hNext s _ _ (cacheLater_refl s) hStart
  · refine valid_cacheRead ?_
    intro read cached hRead hReadInv
    dsimp only
    split
    · exact hNext read _ _ hRead hReadInv
    · refine valid_cacheRead ?_
      intro timed now hTimed _
      have hToTimed := cacheLater_trans hRead hTimed
      refine valid_cacheSame
        (fun s => cacheSame_throttle s orgId now) ?_
      intro noted throttled hNoted hNotedInv
      have hToNoted := cacheLater_trans hToTimed hNoted
      cases throttled with
      | true => exact hNext noted _ _ hToNoted hNotedInv
      | false =>
          rw [if_neg Bool.false_ne_true]
          refine valid_cacheFetch ?_
          intro asked live hAsked hAskedInv
          have hToAsked := cacheLater_trans hToNoted hAsked
          cases live with
          | none => exact hNext asked _ _ hToAsked hAskedInv
          | some live =>
              dsimp only
              split
              · refine valid_cacheSet ?_
                intro after writes hAfter _ _ hDealt
                refine valid_returns (hDealt rfl) ?_
                intro last hLast hInv
                exact
                  hNext last _ _
                    (cacheLater_trans hToAsked
                      (cacheLater_trans hAfter hLast)) hInv
              · exact hNext asked _ _ hToAsked hAskedInv

theorem valid_cacheFromNominal
    {o : Outcomes}
    {nominal : String}
    {source : Source}
    {next : String → PlanProgram}
    (hNext :
      ∀ after slug, CacheLater s after → CacheInv after →
        CacheValid id after (next slug)) :
    CacheValid id s
      (capsFromNominal ctx o orgId next nominal source) := by
  have hCache
      (now : PlanState)
      (slug : String)
      (hNow : CacheLater s now) :
      CacheValid id now
        (cacheEffective orgId slug source next) := by
    refine valid_cacheEffective ?_
    intro after hAfter hInv
    exact hNext after slug (cacheLater_trans hNow hAfter) hInv
  unfold capsFromNominal
  split
  · exact hCache s nominal (cacheLater_refl s)
  · refine valid_cacheRead ?_
    intro flagged pastDue hFlagged _
    dsimp only
    split
    · exact hCache flagged nominal hFlagged
    · refine valid_cacheRead ?_
      intro stamped pastDueAt hStamped _
      refine valid_cacheRead ?_
      intro timed now hTimed _
      exact
        hCache timed _
          (cacheLater_trans hFlagged
            (cacheLater_trans hStamped hTimed))

theorem valid_cacheEffectivePlan
    {o : Outcomes}
    {useCache : Bool}
    {next : String → PlanProgram}
    (hStart : CacheInv s)
    (hNext :
      ∀ after slug, CacheLater s after → CacheInv after →
        CacheValid id after (next slug)) :
    CacheValid id s
      (effectivePlanForCaps ctx id o orgId useCache next) := by
  have hCompute
      (began : PlanState)
      (hBegan : CacheLater s began)
      (hBeganInv : CacheInv began) :
      CacheValid id began
        (resolveOrgPlan ctx id o orgId
          (capsFromNominal ctx o orgId next)) := by
    refine valid_cacheResolve hBeganInv ?_
    intro resolved nominal source hResolved _
    refine valid_cacheFromNominal ?_
    intro after slug hAfter hInv
    exact
      hNext after slug
        (cacheLater_trans hBegan
          (cacheLater_trans hResolved hAfter)) hInv
  rw [effectivePlanForCaps_eq]
  split
  · refine valid_lookUpEffective ?_
    intro after found hAfter hInv
    cases found with
    | none => exact hCompute after hAfter hInv
    | some cached => exact hNext after _ hAfter hInv
  · exact hCompute s (cacheLater_refl s) hStart

theorem valid_cacheEnforce
    {o : Outcomes}
    {next : PlanProgram}
    (hStart : CacheInv s)
    (hNext :
      ∀ after, CacheLater s after → CacheInv after →
        CacheValid id after next) :
    CacheValid id s (enforceCameraCap ctx id o orgId next) :=
  valid_cacheEffectivePlan hStart
    (fun after _ hLater hInv => hNext after hLater hInv)

theorem valid_cacheReconcileOrg
    {o cap : Outcomes}
    {cached : String}
    {next : PlanProgram}
    (hNext :
      ∀ after, CacheInv after → CacheValid id after next) :
    CacheValid id s
      (reconcileOrg ctx id o cap orgId cached next) := by
  refine valid_cacheFetch ?_
  intro asked live _ hAskedInv
  cases otherThan cached live with
  | none => exact hNext asked hAskedInv
  | some live =>
      refine valid_invalidate (fun _ hMem => by simp at hMem) ?_
      intro dropped _ _ _
      refine valid_cacheSet ?_
      intro stored writes _ hStoredInv _ hDealt
      refine valid_cacheEnforce hStoredInv ?_
      intro capped hCapped _
      refine valid_returns
        (dealt_later (hDealt rfl) hCapped) ?_
      intro after _ hInv
      exact hNext after hInv

theorem valid_cacheReconcileAll
    {outcomes : Nat → Outcomes × Outcomes}
    {turn : Nat}
    {plans : List (String × String)} :
    CacheValid id s
      (reconcileAll ctx id outcomes turn plans) := by
  induction plans generalizing s turn with
  | nil => exact Valid.done s
  | cons plan rest ih =>
      exact valid_cacheReconcileOrg (fun _ _ => ih)

theorem valid_cacheReconcile
    {outcomes : Nat → Outcomes × Outcomes} :
    CacheValid id s (reconcileOrgPlans ctx id outcomes) :=
  valid_cacheRead (fun _ _ _ _ => valid_cacheReconcileAll)

--------------------
-- Webhooks
--------------------

variable {env : Clerk.Env}
variable {o cap : Outcomes}

theorem valid_cacheTakeUp
    {slug : String}
    {next : PlanProgram}
    (hNext :
      ∀ after, CacheInv after → CacheValid id after next) :
    CacheValid id s (takeUp id orgId slug next) :=
  valid_cacheSame
    (fun now => cacheSame_hold now id orgId (some slug))
    (fun after _ _ hInv => hNext after hInv)

theorem valid_cacheClearPastDue
    {next : List PlanWrite → PlanProgram}
    (hNext :
      ∀ after writes, CacheInv after → OfOrg orgId writes →
        CacheValid id after (next writes)) :
    CacheValid id s (clearPastDue id o orgId next) := by
  refine valid_cacheSet ?_
  intro _ flag _ _ hFlag _
  refine valid_cacheSet ?_
  intro after anchor _ hInv hAnchor _
  exact hNext after _ hInv (ofOrg_append hFlag hAnchor)

theorem valid_cacheCancelPending
    {value : String}
    {next : PlanProgram}
    (hNext :
      ∀ after, CacheInv after → CacheValid id after next) :
    CacheValid id s
      (setCancelPending id o orgId value next) := by
  refine valid_cacheSet ?_
  intro after _ _ hInv _ _
  exact hNext after hInv

/- The invalidation covers all the writes before it. -/
theorem valid_cacheSettle
    {writes : List PlanWrite}
    (hWrites : OfOrg orgId writes) :
    CacheValid id s (settle ctx id cap orgId writes) := by
  refine valid_invalidate hWrites ?_
  intro dropped _ hDroppedInv hDealt
  refine valid_cacheEnforce hDroppedInv ?_
  intro capped hCapped _
  refine valid_returns (dealt_later hDealt hCapped) ?_
  intro after _ _
  exact Valid.done after

theorem valid_cacheClearIfNotHeld
    {next : List PlanWrite → PlanProgram}
    (hNext :
      ∀ after writes, CacheInv after → OfOrg orgId writes →
        CacheValid id after (next writes)) :
    CacheValid id s (clearIfNotHeld id o orgId next) := by
  unfold clearIfNotHeld
  refine valid_cacheRead ?_
  intro after held _ hInv
  dsimp only
  split
  · exact hNext after [] hInv (fun _ hMem => by simp at hMem)
  · exact valid_cacheClearPastDue hNext

theorem valid_cacheSubscriptionChanged
    {data : Fields} :
    CacheValid id s
      (subscriptionChanged ctx env id o cap data) := by
  unfold subscriptionChanged
  split
  · exact Valid.done s
  · dsimp only
    refine valid_cacheTakeUp ?_
    intro _ _
    refine valid_cacheSet ?_
    intro _ plan _ _ hPlan _
    split
    · refine valid_cacheClearIfNotHeld ?_
      intro _ cleared _ hCleared
      have hBoth := ofOrg_append hPlan hCleared
      split
      · exact
          valid_cacheCancelPending
            (fun _ _ => valid_cacheSettle hBoth)
      · exact valid_cacheSettle hBoth
    · exact valid_cacheSettle hPlan

theorem valid_cacheItemActive
    {data : Fields} :
    CacheValid id s (itemActive ctx id o cap data) := by
  unfold itemActive
  dsimp only
  split
  · split
    · refine valid_cacheTakeUp ?_
      intro _ _
      refine valid_cacheSet ?_
      intro _ plan _ _ hPlan _
      refine valid_cacheCancelPending ?_
      intro _ _
      split
      · refine valid_cacheClearPastDue ?_
        intro _ cleared _ hCleared
        exact valid_cacheSettle (ofOrg_append hPlan hCleared)
      · exact valid_cacheSettle hPlan
    · exact Valid.done s
  · exact Valid.done s

theorem valid_cachePastDue
    {data : Fields} :
    CacheValid id s (pastDue env id o data) := by
  unfold pastDue
  split
  · exact Valid.done s
  · refine valid_cacheRead ?_
    intro read already _ _
    dsimp only
    split
    · exact Valid.done read
    · refine valid_cacheSet ?_
      intro _ flag _ _ hFlag _
      refine valid_invalidate hFlag ?_
      intro dropped _ _ hDealt
      split
      · exact
          valid_returns hDealt (fun after _ _ => Valid.done after)
      · refine valid_cacheSet ?_
        intro after anchor hAfter _ _ hAnchor
        exact
          valid_returns
            (dealt_append (dealt_later hDealt hAfter)
              (hAnchor rfl))
            (fun last _ _ => Valid.done last)

theorem valid_cachePaymentAttempt
    {data : Fields} :
    CacheValid id s (paymentAttempt ctx id o cap data) := by
  unfold paymentAttempt
  dsimp only
  split
  · exact Valid.done s
  · split
    · exact
        valid_cacheClearPastDue
          (fun _ _ _ hCleared => valid_cacheSettle hCleared)
    · exact Valid.done s

theorem valid_cacheItemCanceled
    {data : Fields} :
    CacheValid id s (itemCanceled id o data) := by
  unfold itemCanceled
  split
  · exact Valid.done s
  · exact
      valid_cacheCancelPending (fun after _ => Valid.done after)

theorem valid_cacheItemEnded
    {data : Fields} :
    CacheValid id s (itemEnded ctx id o cap data) := by
  unfold itemEnded
  split
  · exact Valid.done s
  · refine valid_cacheFetch ?_
    intro _ live _ _
    refine valid_cacheSet ?_
    intro _ plan _ _ hPlan _
    refine valid_cacheCancelPending ?_
    intro _ _
    refine valid_cacheSet ?_
    intro _ flag _ _ hFlag _
    exact valid_cacheSettle (ofOrg_append hPlan hFlag)

theorem valid_cacheDispatch
    {eventType : String}
    {data : Option Fields} :
    CacheValid id s
      (dispatchBilling ctx env id o cap eventType data) := by
  unfold dispatchBilling
  split
  · exact Valid.done s
  · split
    · exact valid_cacheSubscriptionChanged
    · split
      · exact valid_cacheItemActive
      · split
        · exact valid_cachePastDue
        · split
          · exact valid_cachePaymentAttempt
          · split
            · exact valid_cacheItemCanceled
            · split
              · exact valid_cacheItemEnded
              · exact Valid.done s

theorem valid_cacheErase
    {stores : Bool} :
    CacheValid id s (eraseOrg stores orgId) := by
  unfold eraseOrg
  split
  · refine valid_cacheStep ?_ ?_
    · intro now _ hInv hOk
      have hDeleted :
          CacheInv
            { now with table := now.table.deleteOrg orgId } :=
        cacheInv_same hInv ⟨rfl, rfl, rfl, rfl, rfl⟩
      have hCommitted :
          CacheInv
            ({ now with
                table := now.table.deleteOrg orgId
              }.committed .bare orgId) :=
        cacheInv_committed hDeleted (fun _ => hOk)
      exact
        ⟨hCommitted,
          ⟨List.subset_append_left _ _, Int.le_refl _⟩⟩
    · intro now _ _ _ _
      have hDealt :
          Dealt
            ({ now with
                table := now.table.deleteOrg orgId
              }.committed .bare orgId)
            (WriteKind.bare.writes orgId (now.commits + 1)) :=
        dealt_committed
          { now with table := now.table.deleteOrg orgId }
          orgId rfl
      exact
        valid_returns hDealt
          (fun after _ _ => Valid.done after)
  · exact Valid.done s

--------------------
-- Every interleaving
--------------------

/- Plan tasks, and the erasure of an organization. -/
inductive CacheTask where
  | plan (task : PlanTask)
  | eraseOrg (orgId : String) (stores : Bool)

def startCache
    (ctx : PlanContext)
    (task : CacheTask)
    (id : Nat) : PlanProgram :=
  match task with
  | .plan task => startPlan ctx task id
  | .eraseOrg orgId stores => eraseOrg stores orgId

theorem valid_startPlan
    (ctx : PlanContext)
    (task : PlanTask)
    (id : Nat)
    (s : PlanState)
    (hInv : CacheInv s) :
    CacheValid id s (startPlan ctx task id) := by
  cases task with
  | effectivePlan orgId useCache o =>
      exact
        valid_cacheEffectivePlan hInv
          (fun after _ _ _ => Valid.done after)
  | resolve orgId o =>
      exact
        valid_cacheResolve hInv
          (fun after _ _ _ _ => Valid.done after)
  | reconcile outcomes => exact valid_cacheReconcile
  | webhook env eventType data o cap =>
      exact valid_cacheDispatch
  | entitle orgId slug =>
      exact
        valid_cacheSame (fun _ => ⟨rfl, rfl, rfl, rfl, rfl⟩)
          (fun after _ _ _ => Valid.done after)
  | wait time =>
      unfold startPlan
      refine valid_cacheStep ?_ ?_
      · intro now _ hInv _
        have hClock : now.clock ≤ now.clock + time := by omega
        exact
          ⟨⟨hInv.cached,
              fun v hMem =>
                Int.le_trans (hInv.past v hMem) hClock,
              hInv.returned, hInv.hits⟩,
            ⟨List.Subset.refl _, hClock⟩⟩
      · intro now _ _ _ _
        exact Valid.done _

theorem valid_startCache
    (ctx : PlanContext)
    (task : CacheTask)
    (id : Nat)
    (s : PlanState)
    (hInv : CacheInv s) :
    CacheValid id s (startCache ctx task id) := by
  cases task with
  | plan task => exact valid_startPlan ctx task id s hInv
  | eraseOrg orgId stores => exact valid_cacheErase

theorem cacheInv_initial
    (table : SettingsTable)
    (entitlement : String → String)
    (clock : Int) :
    CacheInv (PlanState.initial table entitlement clock) where
  cached orgId cached hLookup := by
    simp [PlanState.initial] at hLookup
  past v hMem := by simp [PlanState.initial] at hMem
  returned w hMem := by simp [PlanState.initial] at hMem
  hits h hMem := by simp [PlanState.initial] at hMem

/- A run of tasks from empty caches. -/
def cacheRun
    (ctx : PlanContext)
    (start : PlanState)
    (events : List (Event CacheTask)) :
    Config PlanState PlanLabel :=
  Run.exec (step (startCache ctx)) (initial start) events

/-
  No hit yields a plan that was computed from settings read
  before a write that had been returned when it was asked.
-/
def HitsFresh (s : PlanState) : Prop :=
  ∀ h ∈ s.hits, ∀ w ∈ h.before, w.orgId = h.orgId →
    h.source.Sees w

instance (s : PlanState) : Decidable (HitsFresh s) := by
  unfold HitsFresh
  infer_instance

/-
  Hits are fresh in every run in which a plan is only cached
  if it has seen what was dealt with, and a write that no
  invalidation follows finds no live plan.
-/
theorem hits_fresh
    (ctx : PlanContext)
    (table : SettingsTable)
    (entitlement : String → String)
    (clock : Int)
    (events : List (Event CacheTask))
    (hMeets :
      Run.Meets (step (startCache ctx)) (EventOk cacheOk)
        (initial (PlanState.initial table entitlement clock))
        events) :
    HitsFresh
      (cacheRun ctx
        (PlanState.initial table entitlement clock)
        events).shared := by
  have hFinal :
      CacheInv
        (cacheRun ctx
          (PlanState.initial table entitlement clock)
          events).shared :=
    sound (valid_startCache ctx)
      (cacheInv_initial table entitlement clock) hMeets
  exact hFinal.hits

/- One organization on a paid plan. -/
def proTable : SettingsTable where
  rows :=
    [{ id := 1, orgId := "org_1", key := "org_plan"
       value := some "pro" }]
  nextId := 2
  unique := by decide
  fresh := by decide

def cloud : PlanContext where
  localAuth := false
  parsePastDueAt _ := none

/- A delivery whose payload has no date to read. -/
def noDates : Clerk.Env where
  localAuth := false
  now := 0
  itemPeriodEndUtc _ := none
  pastDueStamp _ := .ok "2026-01-01T00:00:00"
  parsePastDueAt _ := none
  liveAfterEnd := none
  throttled := false
  live := none

def payer (orgId : String) : String × Json :=
  ("payer", .object [("organization_id", .string orgId)])

/- The subscription has no item left: the plan is free. -/
def subscriptionEmptied : CacheTask :=
  .plan
    (.webhook noDates "subscription.updated"
      (some [payer "org_1", ("items", .array [])])
      .good .good)

def askEffective : CacheTask :=
  .plan (.effectivePlan "org_1" true .good)

def onceFree : PlanState :=
  PlanState.initial proTable (fun _ => "free_org") 0

/- A webhook, and then a lookup that hits. -/
def askedAfter : List (Event CacheTask) :=
  .spawn subscriptionEmptied :: List.replicate 11 (.run 0) ++
    .spawn askEffective :: List.replicate 2 (.run 1)

theorem hits_fresh_askedAfter :
    (cacheRun cloud onceFree askedAfter).shared.hits.map
        Hit.slug = ["free_org"] ∧
      HitsFresh (cacheRun cloud onceFree askedAfter).shared :=
  ⟨by decide, hits_fresh cloud _ _ _ askedAfter (by decide)⟩

/-
  A lookup reads the paid plan, the webhook writes the free
  one and returns, and then the lookup caches what it read.
-/
def cachedAcross : List (Event CacheTask) :=
  .spawn askEffective :: List.replicate 4 (.run 0) ++
    .spawn subscriptionEmptied :: List.replicate 11 (.run 1) ++
    .run 0 :: .spawn askEffective :: List.replicate 2 (.run 2)

/- The hit yields the plan the organization has left. -/
theorem stale_plan_is_hit :
    (cacheRun cloud onceFree cachedAcross).shared.table.get
        "org_1" "org_plan" "" = "free_org" ∧
      (cacheRun cloud onceFree cachedAcross).shared.hits.map
          Hit.slug = ["pro"] ∧
      ¬ HitsFresh
          (cacheRun cloud onceFree cachedAcross).shared := by
  decide

end Plans

end SentinelCommand
