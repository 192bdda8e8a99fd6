import SentinelCommand.Plans.KeptRules

/-
  When a webhook's plan is not overwritten.

  Lookups and webhooks write back what they learned earlier,
  whatever was stored since. So the stored plan stays the
  entitlement a webhook has written as long as, when it
  writes, nobody is about to write another slug for its
  organization, and no webhook takes up an older slug later.

  Key definitions include:
    * `Plans.planRun`
    * `Plans.PlanKept`

  Main declarations:
    * `Plans.plan_kept`
    * `Plans.older_plan_is_restored`
-/

--------------------
-- Lookups and the reconciler
--------------------

namespace SentinelCommand

namespace Plans

open Interleaving

variable {id : Nat} {s : PlanState} {orgId : String}
variable {ctx : PlanContext} {o cap : Outcomes}

/- The rule for a write that is no plan. -/
theorem valid_keptSetOther
    {kind : WriteKind}
    {stores : Bool}
    {key value : String}
    {next : List PlanWrite → PlanProgram}
    (hKind : kind ≠ .report)
    (hKey : key ≠ "org_plan")
    (hNext :
      ∀ after writes, KeptInv after →
        KeptValid id after (next writes)) :
    KeptValid id s
      (setSetting id kind stores orgId key value next) :=
  valid_keptSet (fun hReport => absurd hReport hKind)
    (fun _ _ _ hPlan => absurd hPlan hKey) hNext

/- The rule for a write of the slug the thread holds. -/
theorem valid_keptSetPlan
    {kind : WriteKind}
    {stores : Bool}
    {value : String}
    {next : List PlanWrite → PlanProgram}
    (hHolding : Holding s id orgId value)
    (hNext :
      ∀ after writes, KeptInv after →
        KeptValid id after (next writes)) :
    KeptValid id s
      (setSetting id kind stores orgId "org_plan" value
        next) :=
  valid_keptSet (fun _ => rfl)
    (fun _ hLater hInv _ hConfirmed =>
      slug_of_holding hInv (holding_later hHolding hLater)
        hConfirmed)
    hNext

theorem valid_keptRead
    {α : Type}
    {f : PlanState → α}
    {next : α → PlanProgram}
    (hNext :
      ∀ after result, KeptLater id s after → KeptInv after →
        KeptValid id after (next result)) :
    KeptValid id s
      (atomic .quiet (fun s => (s, f s)) next) :=
  valid_keptSame keptSame_refl hNext

/- A slug that may be confirmed is the entitlement. -/
theorem keptInv_hold
    {slug : Option String}
    (hInv : KeptInv s)
    (hSlug :
      ∀ held, slug = some held → orgId ∈ s.confirmed →
        held = s.entitlement orgId) :
    KeptInv (s.hold id orgId slug) := by
  cases slug with
  | none => exact hInv
  | some held =>
      refine ⟨hInv.kept, ?_⟩
      intro p hMem hConfirmed
      rcases List.mem_append.mp hMem with hOld | hNew
      · exact hInv.pending p hOld hConfirmed
      · rw [List.mem_singleton.mp hNew] at hConfirmed ⊢
        exact hSlug held rfl hConfirmed

theorem keptGuar_hold
    (slug : Option String) :
    KeptGuar id s (s.hold id orgId slug) := by
  cases slug with
  | none => exact keptGuar_same (keptSame_refl s)
  | some held =>
      exact
        ⟨(keptLater_refl id s).rows,
          fun _ hMem _ => List.mem_append_left _ hMem⟩

theorem holding_hold
    {slug : Option String}
    {held : String}
    (hSlug : slug = some held) :
    Holding (s.hold id orgId slug) id orgId held := by
  rw [hSlug]
  exact
    List.mem_append_right _ (List.mem_singleton.mpr rfl)

/- The answer is the entitlement of the same instant. -/
theorem valid_keptFetch
    {label : PlanLabel}
    {answers : Bool}
    {about : Option String → Option String}
    {next : Option String → PlanProgram}
    (hAbout :
      ∀ now, keptOk label now →
        ∀ held,
          about
              (if answers then some (now.entitlement orgId)
              else none) =
            some held →
          orgId ∈ now.confirmed →
            held = now.entitlement orgId)
    (hNext :
      ∀ after live, KeptInv after →
        (∀ held, about live = some held →
          Holding after id orgId held) →
        KeptValid id after (next live)) :
    KeptValid id s
      (fetchLivePlanSlug id label answers orgId about next) := by
  refine valid_keptStep ?_
  intro now _ hInv hOk
  have hAfter :
      KeptInv
        (now.hold id orgId
          (about
            (if answers then some (now.entitlement orgId)
            else none))) :=
    keptInv_hold hInv (hAbout now hOk)
  exact
    ⟨hAfter, keptGuar_hold _,
      hNext _ _ hAfter (fun _ hHeld => holding_hold hHeld)⟩

theorem otherThan_eq_some
    {cached slug : String}
    {live : Option String}
    (hOther : otherThan cached live = some slug) :
    live = some slug ∧ slug ≠ cached := by
  rcases Option.filter_eq_some_iff.mp hOther with
    ⟨hLive, hDiffer⟩
  exact ⟨hLive, of_decide_eq_true hDiffer⟩

theorem valid_keptLiveAnswer
    {answers : Bool}
    {cached : String}
    {next : Option String → PlanProgram}
    (hNext :
      ∀ after live, KeptInv after →
        (∀ held, otherThan cached live = some held →
          Holding after id orgId held) →
        KeptValid id after (next live)) :
    KeptValid id s
      (fetchLivePlanSlug id .quiet answers orgId
        (otherThan cached) next) := by
  refine valid_keptFetch ?_ hNext
  intro now _ held hHeld _
  have hLive := (otherThan_eq_some hHeld).1
  cases answers with
  | false => simp at hLive
  | true => simpa using hLive.symm

theorem keptSame_throttle
    (s : PlanState)
    (orgId : String)
    (now : Int) :
    KeptSame s (throttle s orgId now).1 := by
  have hPruned : KeptSame s (pruneResolveCache s now) := by
    unfold pruneResolveCache
    split <;> exact ⟨rfl, rfl, rfl, rfl⟩
  unfold throttle
  dsimp only
  split
  · exact hPruned
  · exact
      ⟨hPruned.table, hPruned.entitlement, hPruned.pending,
        hPruned.confirmed⟩

theorem valid_keptResolve
    {next : String → Source → PlanProgram}
    (hStart : KeptInv s)
    (hNext :
      ∀ after slug source, KeptInv after →
        KeptValid id after (next slug source)) :
    KeptValid id s (resolveOrgPlan ctx id o orgId next) := by
  unfold resolveOrgPlan
  split
  · exact hNext s _ _ hStart
  · refine valid_keptRead ?_
    intro read cached _ hReadInv
    dsimp only
    split
    · exact hNext read _ _ hReadInv
    · refine valid_keptRead ?_
      intro _ now _ _
      refine valid_keptSame
        (fun s => keptSame_throttle s orgId now) ?_
      intro noted throttled _ hNotedInv
      cases throttled with
      | true => exact hNext noted _ _ hNotedInv
      | false =>
          rw [if_neg Bool.false_ne_true]
          refine valid_keptLiveAnswer ?_
          intro asked live hAskedInv hHolding
          cases live with
          | none => exact hNext asked _ _ hAskedInv
          | some live =>
              dsimp only
              split
              · rename_i hDiffer
                have hOther :
                    otherThan cached.1 (some live) =
                      some live := by
                  simpa [otherThan] using hDiffer
                refine valid_keptSetPlan
                  (hHolding live hOther) ?_
                intro after writes _
                refine valid_keptSame
                  (fun _ => ⟨rfl, rfl, rfl, rfl⟩) ?_
                intro last _ _ hInv
                exact hNext last _ _ hInv
              · exact hNext asked _ _ hAskedInv

theorem valid_keptCache
    {slug : String}
    {source : Source}
    {next : String → PlanProgram}
    (hNext :
      ∀ after, KeptInv after →
        KeptValid id after (next slug)) :
    KeptValid id s
      (cacheEffective orgId slug source next) := by
  refine valid_keptStep ?_
  intro now _ hInv _
  have hSame :
      KeptSame now (insertEffective now orgId slug source) :=
    ⟨rfl, rfl, rfl, rfl⟩
  have hAfter := keptInv_same hInv hSame
  exact ⟨hAfter, keptGuar_same hSame, hNext _ hAfter⟩

theorem valid_keptFromNominal
    {nominal : String}
    {source : Source}
    {next : String → PlanProgram}
    (hNext :
      ∀ after slug, KeptInv after →
        KeptValid id after (next slug)) :
    KeptValid id s
      (capsFromNominal ctx o orgId next nominal source) := by
  have hCache
      (now : PlanState)
      (slug : String) :
      KeptValid id now
        (cacheEffective orgId slug source next) :=
    valid_keptCache (fun after hInv => hNext after slug hInv)
  unfold capsFromNominal
  split
  · exact hCache s nominal
  · refine valid_keptRead ?_
    intro flagged pastDue _ _
    dsimp only
    split
    · exact hCache flagged nominal
    · refine valid_keptRead ?_
      intro _ pastDueAt _ _
      refine valid_keptRead ?_
      intro timed now _ _
      exact hCache timed _

theorem valid_keptEffectivePlan
    {useCache : Bool}
    {next : String → PlanProgram}
    (hStart : KeptInv s)
    (hNext :
      ∀ after slug, KeptInv after →
        KeptValid id after (next slug)) :
    KeptValid id s
      (effectivePlanForCaps ctx id o orgId useCache next) := by
  have hCompute
      (began : PlanState)
      (hBeganInv : KeptInv began) :
      KeptValid id began
        (resolveOrgPlan ctx id o orgId
          (capsFromNominal ctx o orgId next)) := by
    refine valid_keptResolve hBeganInv ?_
    intro resolved nominal source _
    exact valid_keptFromNominal hNext
  rw [effectivePlanForCaps_eq]
  split
  · refine valid_keptRead ?_
    intro _ began _ _
    refine valid_keptSame (fun _ => ⟨rfl, rfl, rfl, rfl⟩) ?_
    intro after found _ hInv
    cases found with
    | none => exact hCompute after hInv
    | some cached => exact hNext after _ hInv
  · exact hCompute s hStart

theorem valid_keptEnforce
    {next : PlanProgram}
    (hStart : KeptInv s)
    (hNext :
      ∀ after, KeptInv after → KeptValid id after next) :
    KeptValid id s (enforceCameraCap ctx id o orgId next) :=
  valid_keptEffectivePlan hStart
    (fun after _ hInv => hNext after hInv)

theorem valid_keptReturns
    {writes : List PlanWrite}
    {next : PlanProgram}
    (hNext :
      ∀ after, KeptInv after → KeptValid id after next) :
    KeptValid id s (returns writes next) :=
  valid_keptSame (fun _ => ⟨rfl, rfl, rfl, rfl⟩)
    (fun after _ _ hInv => hNext after hInv)

theorem valid_keptInvalidate
    {writes : List PlanWrite}
    {next : PlanProgram}
    (hNext :
      ∀ after, KeptLater id s after → KeptInv after →
        KeptValid id after next) :
    KeptValid id s
      (invalidateEffectivePlanCache orgId writes next) :=
  valid_keptSame (fun _ => ⟨rfl, rfl, rfl, rfl⟩)
    (fun after _ hLater hInv => hNext after hLater hInv)

theorem valid_keptReconcileOrg
    {cached : String}
    {next : PlanProgram}
    (hNext :
      ∀ after, KeptInv after → KeptValid id after next) :
    KeptValid id s
      (reconcileOrg ctx id o cap orgId cached next) := by
  refine valid_keptLiveAnswer ?_
  intro asked live hAskedInv hHolding
  cases hOther : otherThan cached live with
  | none => exact hNext asked hAskedInv
  | some slug =>
      refine valid_keptInvalidate ?_
      intro dropped hDropped _
      refine valid_keptSetPlan
        (holding_later (hHolding slug hOther) hDropped) ?_
      intro stored writes hStoredInv
      refine valid_keptEnforce hStoredInv ?_
      intro _ _
      exact valid_keptReturns hNext

theorem valid_keptReconcileAll
    {outcomes : Nat → Outcomes × Outcomes}
    {turn : Nat}
    {plans : List (String × String)} :
    KeptValid id s (reconcileAll ctx id outcomes turn plans) := by
  induction plans generalizing s turn with
  | nil => exact Valid.done s
  | cons plan rest ih =>
      exact valid_keptReconcileOrg (fun _ _ => ih)

theorem valid_keptReconcile
    {outcomes : Nat → Outcomes × Outcomes} :
    KeptValid id s (reconcileOrgPlans ctx id outcomes) :=
  valid_keptRead (fun _ _ _ _ => valid_keptReconcileAll)

--------------------
-- Webhooks
--------------------

variable {ctx : PlanContext}
variable {env : Clerk.Env}
variable {o cap : Outcomes}

theorem valid_keptTakeUp
    {slug : String}
    {next : PlanProgram}
    (hNext :
      ∀ after, Holding after id orgId slug →
        KeptValid id after next) :
    KeptValid id s (takeUp id orgId slug next) := by
  refine valid_keptStep ?_
  intro now _ hInv hOk
  have hAfter :
      KeptInv (now.hold id orgId (some slug)) := by
    refine keptInv_hold hInv ?_
    intro held hHeld hConfirmed
    rw [← Option.some.inj hHeld]
    exact hOk hConfirmed
  exact
    ⟨hAfter, keptGuar_hold (some slug),
      hNext _ (holding_hold rfl)⟩

theorem valid_keptClearPastDue
    {next : List PlanWrite → PlanProgram}
    (hNext :
      ∀ after writes, KeptInv after →
        KeptValid id after (next writes)) :
    KeptValid id s (clearPastDue id o orgId next) := by
  refine valid_keptSetOther (by decide) (by decide) ?_
  intro _ flag _
  refine valid_keptSetOther (by decide) (by decide) ?_
  intro after anchor hInv
  exact hNext after _ hInv

theorem valid_keptCancelPending
    {value : String}
    {next : PlanProgram}
    (hNext :
      ∀ after, KeptInv after → KeptValid id after next) :
    KeptValid id s
      (setCancelPending id o orgId value next) := by
  refine valid_keptSetOther (by decide) (by decide) ?_
  intro after _ hInv
  exact hNext after hInv

theorem valid_keptSettle
    {writes : List PlanWrite} :
    KeptValid id s (settle ctx id cap orgId writes) := by
  refine valid_keptInvalidate ?_
  intro _ _ hDroppedInv
  refine valid_keptEnforce hDroppedInv ?_
  intro _ _
  exact valid_keptReturns (fun after _ => Valid.done after)

theorem valid_keptClearIfNotHeld
    {next : List PlanWrite → PlanProgram}
    (hNext :
      ∀ after writes, KeptInv after →
        KeptValid id after (next writes)) :
    KeptValid id s (clearIfNotHeld id o orgId next) := by
  unfold clearIfNotHeld
  refine valid_keptRead ?_
  intro after held _ hInv
  dsimp only
  split
  · exact hNext after [] hInv
  · exact valid_keptClearPastDue hNext

theorem valid_keptSubscriptionChanged
    {data : Fields} :
    KeptValid id s
      (subscriptionChanged ctx env id o cap data) := by
  unfold subscriptionChanged
  split
  · exact Valid.done s
  · dsimp only
    refine valid_keptTakeUp ?_
    intro _ hHolding
    refine valid_keptSetPlan hHolding ?_
    intro _ plan _
    split
    · refine valid_keptClearIfNotHeld ?_
      intro _ cleared _
      split
      · exact
          valid_keptCancelPending
            (fun _ _ => valid_keptSettle)
      · exact valid_keptSettle
    · exact valid_keptSettle

theorem valid_keptItemActive
    {data : Fields} :
    KeptValid id s (itemActive ctx id o cap data) := by
  unfold itemActive
  dsimp only
  split
  · split
    · refine valid_keptTakeUp ?_
      intro _ hHolding
      refine valid_keptSetPlan hHolding ?_
      intro _ plan _
      refine valid_keptCancelPending ?_
      intro _ _
      split
      · exact
          valid_keptClearPastDue (fun _ _ _ => valid_keptSettle)
      · exact valid_keptSettle
    · exact Valid.done s
  · exact Valid.done s

theorem valid_keptPastDue
    {data : Fields} :
    KeptValid id s (pastDue env id o data) := by
  unfold pastDue
  split
  · exact Valid.done s
  · refine valid_keptRead ?_
    intro read already _ _
    dsimp only
    split
    · exact Valid.done read
    · refine valid_keptSetOther (by decide) (by decide) ?_
      intro _ flag _
      refine valid_keptInvalidate ?_
      intro _ _ _
      split
      · exact valid_keptReturns (fun after _ => Valid.done after)
      · refine valid_keptSetOther (by decide) (by decide) ?_
        intro _ _ _
        exact valid_keptReturns (fun after _ => Valid.done after)

theorem valid_keptPaymentAttempt
    {data : Fields} :
    KeptValid id s (paymentAttempt ctx id o cap data) := by
  unfold paymentAttempt
  dsimp only
  split
  · exact Valid.done s
  · split
    · exact
        valid_keptClearPastDue (fun _ _ _ => valid_keptSettle)
    · exact Valid.done s

theorem valid_keptItemCanceled
    {data : Fields} :
    KeptValid id s (itemCanceled id o data) := by
  unfold itemCanceled
  split
  · exact Valid.done s
  · exact
      valid_keptCancelPending (fun after _ => Valid.done after)

/- A silent Clerk is read as the free plan. -/
theorem valid_keptItemEnded
    {data : Fields} :
    KeptValid id s (itemEnded ctx id o cap data) := by
  unfold itemEnded
  split
  · exact Valid.done s
  · refine valid_keptFetch ?_ ?_
    · intro now hOk held hHeld hConfirmed
      cases hAnswers : o.answers with
      | false =>
          rw [hAnswers] at hOk hHeld
          have hFree : held = "free_org" :=
            (Option.some.inj hHeld).symm
          rw [hFree]
          exact hOk hConfirmed
      | true =>
          rw [hAnswers] at hHeld
          exact (Option.some.inj hHeld).symm
    · intro _ live _ hHolding
      refine valid_keptSetPlan (hHolding _ rfl) ?_
      intro _ plan _
      refine valid_keptCancelPending ?_
      intro _ _
      refine valid_keptSetOther (by decide) (by decide) ?_
      intro _ _ _
      exact valid_keptSettle

theorem valid_keptDispatch
    {eventType : String}
    {data : Option Fields} :
    KeptValid id s
      (dispatchBilling ctx env id o cap eventType data) := by
  unfold dispatchBilling
  split
  · exact Valid.done s
  · split
    · exact valid_keptSubscriptionChanged
    · split
      · exact valid_keptItemActive
      · split
        · exact valid_keptPastDue
        · split
          · exact valid_keptPaymentAttempt
          · split
            · exact valid_keptItemCanceled
            · split
              · exact valid_keptItemEnded
              · exact Valid.done s

--------------------
-- Every interleaving
--------------------

/- A changed entitlement is no longer confirmed. -/
theorem keptInv_entitle
    {s : PlanState}
    (hInv : KeptInv s)
    (orgId slug : String) :
    KeptInv
      { s with
        entitlement :=
          Function.update s.entitlement orgId slug
        confirmed := s.confirmed.filter (· ≠ orgId) } where
  kept org hMem := by
    rcases List.mem_filter.mp hMem with ⟨hOld, hOther⟩
    dsimp only
    rw [Function.update_of_ne (of_decide_eq_true hOther)]
    exact hInv.kept org hOld
  pending p hMem hConfirmed := by
    rcases List.mem_filter.mp hConfirmed with ⟨hOld, hOther⟩
    dsimp only
    rw [Function.update_of_ne (of_decide_eq_true hOther)]
    exact hInv.pending p hMem hOld

theorem valid_keptStart
    (ctx : PlanContext)
    (task : PlanTask)
    (id : Nat)
    (s : PlanState)
    (hInv : KeptInv s) :
    KeptValid id s (startPlan ctx task id) := by
  cases task with
  | effectivePlan orgId useCache o =>
      exact
        valid_keptEffectivePlan hInv
          (fun after _ _ => Valid.done after)
  | resolve orgId o =>
      exact
        valid_keptResolve hInv
          (fun after _ _ _ => Valid.done after)
  | reconcile outcomes => exact valid_keptReconcile
  | webhook env eventType data o cap =>
      exact valid_keptDispatch
  | entitle orgId slug =>
      unfold startPlan entitle
      refine valid_keptStep ?_
      intro now _ hNow _
      exact
        ⟨keptInv_entitle hNow orgId slug,
          ⟨(keptLater_refl id now).rows,
            fun _ hMem _ => hMem⟩,
          Valid.done _⟩
  | wait time =>
      exact
        valid_keptSame (fun _ => ⟨rfl, rfl, rfl, rfl⟩)
          (fun after _ _ _ => Valid.done after)

theorem keptInv_initial
    (table : SettingsTable)
    (entitlement : String → String)
    (clock : Int) :
    KeptInv (PlanState.initial table entitlement clock) where
  kept orgId hMem := by simp [PlanState.initial] at hMem
  pending p hMem := by simp [PlanState.initial] at hMem

/- A run of plan tasks from empty caches. -/
def planRun
    (ctx : PlanContext)
    (start : PlanState)
    (events : List (Event PlanTask)) :
    Config PlanState PlanLabel :=
  Run.exec (step (startPlan ctx)) (initial start) events

/-
  The stored plan is the present entitlement, for every
  organization for which a webhook has written it.
-/
def PlanKept (s : PlanState) : Prop :=
  ∀ orgId ∈ s.confirmed,
    s.table.get orgId "org_plan" "" = s.entitlement orgId

instance (s : PlanState) : Decidable (PlanKept s) := by
  unfold PlanKept
  infer_instance

/-
  The stored plan is the entitlement a webhook has written,
  in every run in which a webhook that writes the present
  entitlement finds nobody about to write another slug, and
  no other slug is taken up afterwards.
-/
theorem plan_kept
    (ctx : PlanContext)
    (table : SettingsTable)
    (entitlement : String → String)
    (clock : Int)
    (events : List (Event PlanTask))
    (hMeets :
      Run.Meets (step (startPlan ctx)) (EventOk keptOk)
        (initial (PlanState.initial table entitlement clock))
        events) :
    PlanKept
      (planRun ctx
        (PlanState.initial table entitlement clock)
        events).shared := by
  have hFinal :
      KeptInv
        (planRun ctx
          (PlanState.initial table entitlement clock)
          events).shared :=
    sound (valid_keptStart ctx)
      (keptInv_initial table entitlement clock) hMeets
  intro orgId hConfirmed
  exact get_of_settings (hFinal.kept orgId hConfirmed)

/- A database that has just been made. -/
def noSettings : SettingsTable where
  rows := []
  nextId := 1
  unique := List.nodup_nil
  fresh := SettingsTable.fresh_nil

def startsFree : PlanState :=
  PlanState.initial noSettings (fun _ => "free_org") 0

def hosted : PlanContext where
  localAuth := false
  parsePastDueAt _ := none

/- The subscription has one item, an active paid plan. -/
def upgraded : PlanTask :=
  .webhook
    { localAuth := false
      now := 0
      itemPeriodEndUtc := fun _ => none
      pastDueStamp := fun _ => .ok ""
      parsePastDueAt := fun _ => none
      liveAfterEnd := none
      throttled := false
      live := none }
    "subscription.updated"
    (some
      [("payer",
          .object [("organization_id", .string "org_1")]),
        ("items",
          .array
            [.object
              [("status", .string "active"),
                ("plan",
                  .object [("slug", .string "pro")])]])])
    .good .good

/- The webhook comes after the change, and then a lookup. -/
def resolvedAfter : List (Event PlanTask) :=
  [.spawn (.entitle "org_1" "pro"), .run 0, .spawn upgraded] ++
    List.replicate 15 (.run 1) ++
    .spawn (.resolve "org_1" .good) :: List.replicate 2 (.run 2)

theorem plan_kept_resolvedAfter :
    "org_1" ∈
        (planRun hosted startsFree
          resolvedAfter).shared.confirmed ∧
      PlanKept
        (planRun hosted startsFree resolvedAfter).shared :=
  ⟨by decide,
    plan_kept hosted _ _ _ resolvedAfter (by decide)⟩

/-
  A lookup learns of the free plan, the entitlement changes
  and its webhook writes it, and then the lookup writes back.
-/
def resolvedAcross : List (Event PlanTask) :=
  .spawn (.resolve "org_1" .good) :: List.replicate 4 (.run 0) ++
    [.spawn (.entitle "org_1" "pro"), .run 1,
      .spawn upgraded] ++
    List.replicate 15 (.run 2) ++ List.replicate 3 (.run 0)

/- All calls are over, and the old plan is stored again. -/
theorem older_plan_is_restored :
    (planRun hosted startsFree resolvedAcross).threads.all
        Thread.isDone = true ∧
      (planRun hosted startsFree
          resolvedAcross).shared.confirmed = ["org_1"] ∧
      (planRun hosted startsFree
          resolvedAcross).shared.entitlement "org_1" = "pro" ∧
      (planRun hosted startsFree
          resolvedAcross).shared.table.get "org_1" "org_plan"
          "" = "free_org" ∧
      ¬ PlanKept
          (planRun hosted startsFree
            resolvedAcross).shared := by
  decide

end Plans

end SentinelCommand
