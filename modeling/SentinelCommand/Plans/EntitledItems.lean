import SentinelCommand.Plans.LiveLookups

/-
  The two readings of a list of subscription items:
  `active_plan_slug` of the Clerk webhook, which looks at
  objects only, and the loop of `fetch_live_plan_slug`, which
  reads any value through `Value::get`.

  Both are compared with the entitlement rule: the first
  active item, else the first canceled one that is paid
  through.

  Key definitions include:
    * `Plans.Items.itemPeriodEndUtc`
    * `Plans.Items.fetchLivePlanSlug`

  Correctness is proven by:
    * `Plans.Items.activePlanSlug_eq_live`
-/

--------------------
-- Items
--------------------

namespace SentinelCommand

namespace Plans

namespace Items

/-
  The instants that the parsers read: RFC 3339 text, and a
  number of seconds, or of milliseconds above `1e12`.
-/
structure Instants where
  parseFromRfc3339 : String → Option Int
  fromNumber : Json → Option Int

/- `item_period_end_utc`. -/
def itemPeriodEndUtc
    (instants : Instants)
    (item : Json) : Option Int :=
  match item.get "period_end" <|> item.get "periodEnd" with
  | some (.string text) => instants.parseFromRfc3339 text
  | some (.integer value) => instants.fromNumber (.integer value)
  | some (.float spelling) =>
      instants.fromNumber (.float spelling)
  | _ => none

/- The loop of `fetch_live_plan_slug`. -/
def liveSlugFrom
    (instants : Instants)
    (now : Int) :
    List Json → Option String → String
| [], entitledCanceled => entitledCanceled.getD "free_org"
| item :: rest, entitledCanceled =>
    let status := (item.get "status").bind Json.asStr
    let slug :=
      ((item.get "plan").bind (·.get "slug")).bind Json.asStr
    match slug.filter (· ≠ "") with
    | none => liveSlugFrom instants now rest entitledCanceled
    | some slug =>
        if status = some "active" then
          slug
        else if
          status = some "canceled" ∧ entitledCanceled = none
        then
          match itemPeriodEndUtc instants item with
          | none =>
              liveSlugFrom instants now rest entitledCanceled
          | some periodEnd =>
              if periodEnd > now then
                liveSlugFrom instants now rest (some slug)
              else
                liveSlugFrom instants now rest entitledCanceled
        else
          liveSlugFrom instants now rest entitledCanceled

/-
  `fetch_live_plan_slug` of the decoded body; the lookup that
  failed has none.
-/
def fetchLivePlanSlug
    (instants : Instants)
    (now : Int)
    (response : Option Json) : Option String := do
  let sub ← response
  let items :=
    match sub.get "subscription_items" with
    | some (.array items) => items
    | _ => []
  some (liveSlugFrom instants now items none)

/- The webhook's clock and parsers, the live lookup's own. -/
def Instants.env
    (instants : Instants)
    (env : Clerk.Env)
    (now : Int) : Clerk.Env :=
  { env with
    now
    itemPeriodEndUtc :=
      fun fields => itemPeriodEndUtc instants (.object fields) }

@[simp]
theorem Instants.env_now
    (instants : Instants)
    (env : Clerk.Env)
    (now : Int) :
    (instants.env env now).now = now := by
  rfl

@[simp]
theorem Instants.env_itemPeriodEndUtc
    (instants : Instants)
    (env : Clerk.Env)
    (now : Int)
    (fields : Fields) :
    (instants.env env now).itemPeriodEndUtc fields =
      itemPeriodEndUtc instants (.object fields) := by
  rfl

end Items

end Plans

--------------------
-- The Entitlement Rule
--------------------

namespace Plans

namespace Items

def statusOf (item : Json) : Option String :=
  (item.get "status").bind Json.asStr

/- The plan slug that an item carries, if not empty. -/
def slugOf (item : Json) : Option String :=
  (((item.get "plan").bind (·.get "slug")).bind
    Json.asStr).filter (· ≠ "")

/- The slug of an active item. -/
def activeSlug (item : Json) : Option String :=
  if statusOf item = some "active" then slugOf item else none

/- The slug of a canceled item whose period is not over. -/
def paidThroughSlug
    (instants : Instants)
    (now : Int)
    (item : Json) : Option String :=
  if
    statusOf item = some "canceled" ∧
      (itemPeriodEndUtc instants item).any (now < ·)
  then
    slugOf item
  else
    none

/- The entitlement that a list of items stands for. -/
def entitlement
    (instants : Instants)
    (now : Int)
    (items : List Json) : String :=
  ((items.findSome? activeSlug).or
    (items.findSome? (paidThroughSlug instants now))).getD
      "free_org"

end Items

end Plans

--------------------
-- One Item
--------------------

namespace Plans

namespace Items

variable (instants : Instants)
variable (now : Int)

/-
  Both loops return at an active item, and hold the first
  slug that is paid through.
-/
def scan : List Json → Option String → String
| [], held => held.getD "free_org"
| item :: rest, held =>
    match activeSlug item with
    | some slug => slug
    | none =>
        scan rest (held.or (paidThroughSlug instants now item))

/- The webhook reads the slug of an object as the rule does. -/
theorem slugOf_object (fields : Fields) :
    slugOf (.object fields) = Clerk.itemSlug fields := by
  unfold slugOf Clerk.itemSlug
  rw [Json.get_object]
  cases fields.lookup "plan" with
  | none =>
      rfl
  | some plan =>
      cases hObject : plan.asObject with
      | none =>
          simp [hObject, Json.get_of_asObject_none hObject]
      | some planFields =>
          rw [Json.eq_object_of_asObject hObject]
          cases hSlug : planFields.lookup "slug" with
          | none =>
              simp [Json.asObject, hSlug]
          | some slug =>
              cases hText : slug.asStr with
              | none =>
                  simp [Json.asObject, hSlug, hText]
              | some text =>
                  by_cases hEmpty : text = "" <;>
                    simp [Json.asObject, hSlug, hText, hEmpty]

/- An absent status is the empty one, so neither of the two. -/
theorem itemStatus_eq_iff
    (fields : Fields)
    {status : String}
    (hStatus : status ≠ "") :
    Clerk.itemStatus fields = status ↔
      statusOf (.object fields) = some status := by
  unfold Clerk.itemStatus statusOf
  rw [Json.get_object]
  cases (fields.lookup "status").bind Json.asStr with
  | none =>
      simp [Ne.symm hStatus]
  | some text =>
      simp

/- A slug is read from an object only. -/
theorem slugOf_of_asObject_none
    {item : Json}
    (hItem : item.asObject = none) :
    slugOf item = none := by
  simp [slugOf, Json.get_of_asObject_none hItem]

theorem activeSlug_of_slugOf_none
    {item : Json}
    (hSlug : slugOf item = none) :
    activeSlug item = none := by
  simp [activeSlug, hSlug]

theorem paidThroughSlug_of_slugOf_none
    {item : Json}
    (hSlug : slugOf item = none) :
    paidThroughSlug instants now item = none := by
  simp [paidThroughSlug, hSlug]

/- An item without a slug is passed over. -/
theorem scan_of_slugOf_none
    {item : Json}
    (hSlug : slugOf item = none)
    (rest : List Json)
    (held : Option String) :
    scan instants now (item :: rest) held =
      scan instants now rest held := by
  simp [scan, activeSlug_of_slugOf_none hSlug,
    paidThroughSlug_of_slugOf_none instants now hSlug]

end Items

end Plans

--------------------
-- The Two Loops
--------------------

namespace Plans

namespace Items

variable (instants : Instants)
variable (now : Int)

theorem scan_eq
    (items : List Json)
    (held : Option String) :
    scan instants now items held =
      ((items.findSome? activeSlug).or
        (held.or (items.findSome?
          (paidThroughSlug instants now)))).getD "free_org" := by
  induction items generalizing held with
  | nil =>
      simp [scan]
  | cons item rest ih =>
      unfold scan
      rw [List.findSome?_cons, List.findSome?_cons]
      cases activeSlug item with
      | some slug =>
          simp
      | none =>
          cases hPaid : paidThroughSlug instants now item with
          | some slug =>
              simp only [ih]
              cases held <;> simp
          | none =>
              simp [ih]

theorem liveSlugFrom_eq_scan
    (items : List Json)
    (held : Option String) :
    liveSlugFrom instants now items held =
      scan instants now items held := by
  induction items generalizing held with
  | nil =>
      rfl
  | cons item rest ih =>
      cases hSlug : slugOf item with
      | none =>
          rw [scan_of_slugOf_none instants now hSlug]
          unfold slugOf at hSlug
          unfold liveSlugFrom
          simp only [hSlug]
          exact ih held
      | some slug =>
          have hRead := hSlug
          unfold slugOf at hRead
          unfold liveSlugFrom scan activeSlug
          simp only [hRead]
          change
            (if statusOf item = some "active" then _ else _) = _
          by_cases hActive : statusOf item = some "active"
          · simp [hActive, hSlug]
          · rw [if_neg hActive, if_neg hActive]
            change
              (if statusOf item = some "canceled" ∧ _ then _
                else _) = _
            by_cases hCanceled : statusOf item = some "canceled"
            · cases held with
              | some slug =>
                  simp [ih]
              | none =>
                  cases hEnd : itemPeriodEndUtc instants item with
                  | none =>
                      simp [hCanceled, hEnd, ih,
                        paidThroughSlug]
                  | some periodEnd =>
                      by_cases hLater : now < periodEnd <;>
                        simp [hCanceled, hEnd, hLater, ih,
                          paidThroughSlug, hSlug]
            · simp [hCanceled, paidThroughSlug, ih]

theorem activePlanSlugFrom_eq_scan
    (env : Clerk.Env)
    (items : List Json)
    (held : Option String) :
    Clerk.activePlanSlugFrom (instants.env env now) items held =
      scan instants now items held := by
  induction items generalizing held with
  | nil =>
      rfl
  | cons item rest ih =>
      unfold Clerk.activePlanSlugFrom
      cases hObject : item.asObject with
      | none =>
          rw [scan_of_slugOf_none instants now
            (slugOf_of_asObject_none hObject)]
          exact ih held
      | some fields =>
          have hItem := Json.eq_object_of_asObject hObject
          subst hItem
          simp only [← slugOf_object fields]
          cases hSlug : slugOf (.object fields) with
          | none =>
              rw [scan_of_slugOf_none instants now hSlug]
              exact ih held
          | some slug =>
              have hActive :=
                itemStatus_eq_iff fields
                  (show "active" ≠ "" by decide)
              have hCanceled :=
                itemStatus_eq_iff fields
                  (show "canceled" ≠ "" by decide)
              simp only [hActive, hCanceled, scan, activeSlug,
                paidThroughSlug, hSlug, ih, Instants.env_now,
                Instants.env_itemPeriodEndUtc]
              by_cases hIsActive :
                statusOf (.object fields) = some "active"
              · simp [hIsActive]
              · rw [if_neg hIsActive, if_neg hIsActive]
                cases held with
                | some slug =>
                    simp
                | none =>
                    simp only [true_and]
                    by_cases hPaid :
                      statusOf (.object fields) =
                          some "canceled" ∧
                        (itemPeriodEndUtc instants
                          (.object fields)).any (now < ·)
                    · rw [if_pos hPaid, if_pos hPaid]
                      rfl
                    · rw [if_neg hPaid, if_neg hPaid]
                      rfl

/- The lookup of the plan threads, with these parsers. -/
def Instants.context
    (instants : Instants)
    (localAuth : Bool) : Live.Context where
  localAuth
  itemPeriodEndUtc :=
    fun fields => itemPeriodEndUtc instants (.object fields)

theorem entitledSlug_eq
    (env : Clerk.Env)
    (localAuth : Bool)
    (items : List Json)
    (held : Option String) :
    Live.entitledSlug (instants.context localAuth) now items
        held =
      Clerk.activePlanSlugFrom (instants.env env now) items
        held := by
  induction items generalizing held with
  | nil =>
      rfl
  | cons item rest ih =>
      unfold Live.entitledSlug Clerk.activePlanSlugFrom
      simp only [ih, Instants.env_now,
        Instants.env_itemPeriodEndUtc]
      rfl

theorem subscriptionItems_eq (body : Json) :
    Live.subscriptionItems body =
      match body.get "subscription_items" with
      | some (.array items) => items
      | _ => [] := by
  change ((body.get "subscription_items").bind
    Json.asArray).getD [] = _
  cases body.get "subscription_items" with
  | none =>
      rfl
  | some value =>
      cases value <;> rfl

/- The plan threads answer what this loop does. -/
theorem fetchLivePlanSlug_eq_threads
    (env : Clerk.Env)
    (localAuth : Bool)
    (response : Option Json) :
    Live.fetchLivePlanSlug (instants.context localAuth) now
        response =
      fetchLivePlanSlug instants now response := by
  cases response with
  | none =>
      rfl
  | some body =>
      change some (Live.entitledSlug _ now _ none) = some _
      rw [entitledSlug_eq instants now env,
        activePlanSlugFrom_eq_scan, subscriptionItems_eq,
        liveSlugFrom_eq_scan]

/-
  For every list of items the webhook's slug, the live
  lookup's and the entitlement rule's are one.
-/
theorem activePlanSlug_eq_live
    (env : Clerk.Env)
    (items : List Json)
    (body : Json)
    (hItems :
      body.get "subscription_items" = some (.array items)) :
    fetchLivePlanSlug instants now (some body) =
        some (Clerk.activePlanSlug (instants.env env now) items) ∧
      Clerk.activePlanSlug (instants.env env now) items =
        entitlement instants now items := by
  have hScan :
      scan instants now items none =
        entitlement instants now items := by
    rw [scan_eq]
    simp [entitlement]
  have hWebhook :
      Clerk.activePlanSlug (instants.env env now) items =
        scan instants now items none :=
    activePlanSlugFrom_eq_scan instants now env items none
  constructor
  · simp [fetchLivePlanSlug, hItems, liveSlugFrom_eq_scan,
      hWebhook]
  · rw [hWebhook, hScan]

/- A paid-through item, after one that is no object. -/
theorem activePlanSlug_eq_live_canceled :
    let instants : Instants :=
      { parseFromRfc3339 := fun _ => none
        fromNumber := fun value =>
          match value with
          | .integer seconds => some seconds
          | _ => none }
    let env : Clerk.Env :=
      { localAuth := false
        now := 0
        itemPeriodEndUtc := fun _ => none
        pastDueStamp := fun _ => .ok ""
        parsePastDueAt := fun _ => none
        liveAfterEnd := none
        throttled := false
        live := none }
    let items : List Json :=
      [ .string "active",
        .object
          [ ("plan", .object [("slug", .string "pro")]),
            ("status", .string "canceled"),
            ("period_end", .integer 1800000000) ],
        .object
          [ ("plan", .object [("slug", .string "")]),
            ("status", .string "active") ] ]
    let body : Json :=
      .object [("subscription_items", .array items)]
    fetchLivePlanSlug instants 1700000000 (some body) =
        some "pro" ∧
      Clerk.activePlanSlug (instants.env env 1700000000)
          items = "pro" := by
  intro instants env items body
  have hSame :=
    activePlanSlug_eq_live instants 1700000000 env items body
      rfl
  have hPro :
      entitlement instants 1700000000 items = "pro" := by
    decide
  exact ⟨by rw [hSame.1, hSame.2, hPro], hSame.2.trans hPro⟩

end Items

end Plans

end SentinelCommand
