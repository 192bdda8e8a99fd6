import SentinelCommand.Sse.FanOut

/-
  What the streams of a broadcaster deliver.

  A stream delivers, in order and without a gap, a prefix of
  the events its subscriber may see. It ends only after all
  events up to the moment the broadcaster let go of it, which
  is when it was a full queue behind or everything was
  cleared.

  Main declarations:
    * `shownTo`, `LetGo`, `FeedFollows`
    * `largestCap`, `concerns`
    * `live_feed`
-/

--------------------
-- Statements
--------------------

namespace SentinelCommand

namespace Sse

/- The events for an org that a subscriber of it may see. -/
def shownTo
    (orgId : String)
    (isAdmin : Bool)
    (events : List Event) : List String :=
  events.filterMap
    (fun event =>
      match event with
      | .notify org audience payload =>
          if org = orgId ∧ maySee isAdmin audience then
            some payload
          else
            none
      | _ => none)

/-
  After the run the event takes the stream off the
  broadcaster: everything is cleared, or the stream has yet
  to receive a whole queue of the events it was shown.
-/
def LetGo
    (orgId : String)
    (n : Nat)
    (isAdmin : Bool)
    (run : List Event)
    (shown : List String)
    (event : Event) : Prop :=
  event = .clear ∨
    ∃ audience payload subscription,
      event = .notify orgId audience payload ∧
        maySee isAdmin audience = true ∧
        ((final run).subscriptions orgId)[n]? =
          some subscription ∧
        shown.length =
          subscription.received.length + queueDepth

/- The `n`-th stream of an org, subscribed to after `past`. -/
structure FeedFollows
    (orgId : String)
    (n : Nat)
    (past : List Event)
    (subscribed : Event)
    (rest : List Event)
    (subscription : Subscription) : Prop where
  received :
    subscription.received <+:
      shownTo orgId subscription.isAdmin rest
  waiting :
    isLive (final (past ++ subscribed :: rest)) orgId
        subscription.id = true →
      subscription.received ++
          ((final (past ++ subscribed :: rest)).channels
            subscription.id).queue =
        shownTo orgId subscription.isAdmin rest
  ended :
    subscription.ended = true →
      ∃ before event after,
        rest = before ++ event :: after ∧
          subscription.received =
            shownTo orgId subscription.isAdmin before ∧
          LetGo orgId n subscription.isAdmin
            (past ++ subscribed :: before)
            (shownTo orgId subscription.isAdmin before) event
  freed :
    subscription.dropped = true →
      isLive (final (past ++ subscribed :: rest)) orgId
        subscription.id = false

def capFor (orgId : String) : Event → Option Nat
| .subscribe org _ cap => if org = orgId then some cap else none
| _ => none

def largestCap (orgId : String) (events : List Event) : Nat :=
  (events.filterMap (capFor orgId)).foldr max 0

/- Is the event an operation on the org, or on all? -/
def concerns (orgId : String) : Event → Bool
| .subscribe org _ _ => org == orgId
| .notify org _ _ => org == orgId
| .recv org _ => org == orgId
| .drop org _ => org == orgId
| .clear => true

--------------------
-- Events and Turns
--------------------

variable {orgId : String}
variable {isAdmin : Bool}
variable {n : Nat}

/- Where an element of a filtered list came from. -/
theorem split_of_filterMap
    {α β : Type}
    {f : α → Option β}
    {l : List α}
    {before after : List β}
    {b : β}
    (hSplit : l.filterMap f = before ++ b :: after) :
    ∃ first a second, l = first ++ a :: second ∧
      first.filterMap f = before ∧ f a = some b ∧
      second.filterMap f = after := by
  rcases List.filterMap_eq_append_iff.mp hSplit with
    ⟨first, tail, rfl, hFirst, hTail⟩
  rcases List.filterMap_eq_cons_iff.mp hTail with
    ⟨skipped, a, second, rfl, hSkipped, hA, hSecond⟩
  refine
    ⟨first ++ skipped, a, second, by rw [List.append_assoc],
      ?_, hA, hSecond⟩
  rw [List.filterMap_append, hFirst,
    List.filterMap_eq_nil_iff.mpr hSkipped, List.append_nil]

/- What an event does to the `n`-th stream of an org. -/
def turnIn
    (orgId : String)
    (isAdmin : Bool)
    (n : Nat)
    (event : Event) : Option (Fanout.Turn String) :=
  (opOf orgId event).bind (Fanout.turnOf rules isAdmin n)

def turnsIn
    (orgId : String)
    (isAdmin : Bool)
    (n : Nat)
    (events : List Event) : List (Fanout.Turn String) :=
  events.filterMap (turnIn orgId isAdmin n)

theorem turnsOf_opsOf (events : List Event) :
    Fanout.turnsOf rules isAdmin n (opsOf orgId events) =
      turnsIn orgId isAdmin n events :=
  List.filterMap_filterMap

/- The offers among the turns are the events shown. -/
theorem shown_turnsIn (events : List Event) :
    Fanout.shown (turnsIn orgId isAdmin n events) =
      shownTo orgId isAdmin events := by
  rw [Fanout.shown, turnsIn, List.filterMap_filterMap, shownTo]
  congr 1
  funext event
  cases event with
  | notify org audience payload =>
      by_cases hOrg : org = orgId <;>
        cases hSee : maySee isAdmin audience <;>
        simp [turnIn, opOf, Fanout.turnOf, rules, hOrg, hSee]
  | subscribe org isAdmin cap =>
      by_cases hOrg : org = orgId <;>
        simp [turnIn, opOf, Fanout.turnOf, hOrg]
  | recv org k =>
      by_cases hOrg : org = orgId <;>
        by_cases hPlace : k = n <;>
        simp [turnIn, opOf, Fanout.turnOf, hOrg, hPlace]
  | drop org k =>
      by_cases hOrg : org = orgId <;>
        by_cases hPlace : k = n <;>
        simp [turnIn, opOf, Fanout.turnOf, hOrg, hPlace]
  | clear => rfl

/- Only a `notify` of the org offers. -/
theorem notify_of_offer
    {event : Event}
    {message : String}
    (hTurn :
      turnIn orgId isAdmin n event = some (.offer message)) :
    ∃ audience, event = .notify orgId audience message ∧
      maySee isAdmin audience = true := by
  rcases Option.bind_eq_some_iff.mp hTurn with ⟨op, hOp, hIs⟩
  rcases eq_eventOf hOp with rfl
  cases op with
  | publish audience payload =>
      rw [Fanout.turnOf, Option.ite_none_right_eq_some] at hIs
      rcases hIs with ⟨hSee, hOffer⟩
      rcases Option.some.inj hOffer with ⟨⟩
      exact ⟨audience, rfl, hSee⟩
  | join isAdmin cap => simp [Fanout.turnOf] at hIs
  | take k => simp [Fanout.turnOf] at hIs
  | leave k => simp [Fanout.turnOf] at hIs
  | clear => simp [Fanout.turnOf] at hIs

/- Only `clear` lets a stream go at once. -/
theorem clear_of_letGo
    {event : Event}
    (hTurn : turnIn orgId isAdmin n event = some .letGo) :
    event = .clear := by
  rcases Option.bind_eq_some_iff.mp hTurn with ⟨op, hOp, hIs⟩
  rcases eq_eventOf hOp with rfl
  cases op with
  | clear => rfl
  | publish audience payload => simp [Fanout.turnOf] at hIs
  | join isAdmin cap => simp [Fanout.turnOf] at hIs
  | take k => simp [Fanout.turnOf] at hIs
  | leave k => simp [Fanout.turnOf] at hIs

--------------------
-- One Stream
--------------------

variable {n cap : Nat}
variable {past : List Event}
variable {subscription : Subscription}

theorem length_groupOf (orgId : String) (s : State) :
    (groupOf orgId s).length =
      (s.subscriptions orgId).length :=
  List.length_map ..

/- The subscription a place in the group stands for. -/
theorem member_at
    {s : State}
    {x : Fanout.Member Bool String}
    (hMember : (groupOf orgId s)[n]? = some x) :
    ∃ subscription,
      (s.subscriptions orgId)[n]? = some subscription ∧
        x = memberOf s orgId subscription := by
  rw [groupOf, List.getElem?_map] at hMember
  rcases Option.map_eq_some_iff.mp hMember with
    ⟨subscription, hAt, hIs⟩
  exact ⟨subscription, hAt, hIs.symm⟩

/-
  An accepted subscription, after whatever comes next: it
  has taken the turns these events gave it.
-/
theorem stream_after
    (isAdmin : Bool)
    (hRoom :
      ((final past).inner.subscribers orgId).length < cap)
    (hPlace : ((final past).subscriptions orgId).length = n)
    (rest : List Event) :
    (groupOf orgId
        (final
          (past ++ .subscribe orgId isAdmin cap :: rest)))[n]? =
      some
        (Run.exec (Fanout.Member.turn queueDepth)
          (Fanout.fresh isAdmin)
          (turnsIn orgId isAdmin n rest)) := by
  have hOps :
      opsOf orgId
          (past ++ .subscribe orgId isAdmin cap :: rest) =
        opsOf orgId past ++
          .join isAdmin cap :: opsOf orgId rest := by
    simp [opsOf, opOf]
  have hBelow :
      Fanout.liveCount
          (Run.exec (Fanout.step rules) []
            (opsOf orgId past)) < cap := by
    rw [← exec_refines,
      liveCount_groupOf (broadcasterOk_final past)]
    exact hRoom
  have hLength :
      (Run.exec (Fanout.step rules) []
          (opsOf orgId past)).length = n := by
    rw [← exec_refines, length_groupOf, hPlace]
  have hJoined :=
    Fanout.joined_member isAdmin hBelow
      (opsOf orgId rest)
  rw [hLength, turnsOf_opsOf] at hJoined
  rw [exec_refines, hOps]
  exact hJoined

/- Why a stream that is at its end was let go. -/
theorem letGo_of_released
    (hRoom :
      ((final past).inner.subscribers orgId).length < cap)
    (hPlace : ((final past).subscriptions orgId).length = n)
    {before : List Event}
    {event : Event}
    {turn : Fanout.Turn String}
    (hTurn : turnIn orgId isAdmin n event = some turn)
    (hUp :
      Fanout.KeepsUp queueDepth
        (turnsIn orgId isAdmin n before)
        (Run.exec (Fanout.Member.turn queueDepth)
          (Fanout.fresh isAdmin)
          (turnsIn orgId isAdmin n before)))
    (hReleases :
      Fanout.Releases queueDepth
        (Run.exec (Fanout.Member.turn queueDepth)
          (Fanout.fresh isAdmin)
          (turnsIn orgId isAdmin n before)) turn)
    (hStayed : turn ≠ .leave) :
    LetGo orgId n isAdmin
      (past ++ .subscribe orgId isAdmin cap :: before)
      (shownTo orgId isAdmin before) event := by
  cases turn with
  | offer message =>
      right
      rcases notify_of_offer hTurn with ⟨audience, hEvent, hSee⟩
      rcases member_at (stream_after isAdmin hRoom hPlace before) with
        ⟨then', hAt, hIs⟩
      refine ⟨audience, message, then', hEvent, hSee, hAt, ?_⟩
      have hFull : (memberOf _ orgId then').queue.length =
          queueDepth := hIs ▸ hReleases
      have hAll := hUp.all
      rw [hIs, shown_turnsIn] at hAll
      rw [← hAll, List.length_append, hFull]
      rfl
  | take => exact hReleases.elim
  | letGo => exact Or.inl (clear_of_letGo hTurn)
  | leave => exact absurd rfl hStayed

theorem feedFollows
    (hRoom :
      ((final past).inner.subscribers orgId).length < cap)
    (hPlace : ((final past).subscriptions orgId).length = n)
    {rest : List Event}
    (hAt :
      ((final
          (past ++
            .subscribe orgId isAdmin cap ::
              rest)).subscriptions orgId)[n]? =
        some subscription) :
    subscription.isAdmin = isAdmin ∧
      FeedFollows orgId n past (.subscribe orgId isAdmin cap)
        rest subscription := by
  rcases member_at
    (stream_after isAdmin hRoom hPlace rest) with
    ⟨found, hFound, hIs⟩
  rcases Option.some.inj (hAt.symm.trans hFound) with rfl
  have hAdmin : subscription.isAdmin = isAdmin := by
    have hRole :=
      Fanout.role_exec queueDepth (Fanout.fresh isAdmin)
        (turnsIn orgId isAdmin n rest)
    rw [hIs] at hRole
    exact hRole
  refine ⟨hAdmin, ?_⟩
  have hFollows :=
    Fanout.follows_exec queueDepth isAdmin
      (turnsIn orgId isAdmin n rest)
  rw [hIs] at hFollows
  rcases hFollows with
    hUp | ⟨beforeTurns, turn, afterTurns, hRel⟩
  · have hAll := hUp.all
    rw [shown_turnsIn] at hAll
    constructor
    · rw [hAdmin, ← hAll]
      exact List.prefix_append _ _
    · intro _
      rw [hAdmin, ← hAll]
      rfl
    · intro hEnded
      exact absurd (hUp.notEnded.symm.trans hEnded)
        Bool.false_ne_true
    · intro hDropped
      exact absurd (hUp.notLeft.symm.trans hDropped)
        Bool.false_ne_true
  · rcases split_of_filterMap hRel.split with
      ⟨before, event, after, rfl, rfl, hTurn, rfl⟩
    have hSound := hRel.sound
    rw [← turnsIn, shown_turnsIn] at hSound
    constructor
    · rw [hAdmin]
      refine (List.prefix_append _ _).trans
        (hSound.trans ?_)
      rw [shownTo, shownTo, List.filterMap_append]
      exact List.prefix_append _ _
    · intro hLive
      exact absurd (hRel.live.symm.trans hLive)
        Bool.false_ne_true
    · intro hEnded
      refine ⟨before, event, after, rfl, ?_, ?_⟩
      · have hReceived := hRel.ended hEnded
        rw [← turnsIn, shown_turnsIn] at hReceived
        rw [hAdmin]
        exact hReceived
      · rw [hAdmin]
        apply letGo_of_released hRoom hPlace hTurn hRel.keptUp
          hRel.releases
        intro hLeave
        exact absurd
          ((hRel.leaves hLeave).2.symm.trans hEnded)
          Bool.false_ne_true
    · intro _
      exact hRel.live

/- Every subscription was accepted at some point of the run. -/
theorem subscribed_at
    {events : List Event}
    (hAt :
      ((final events).subscriptions orgId)[n]? =
        some subscription) :
    ∃ past isAdmin cap rest,
      events = past ++ .subscribe orgId isAdmin cap :: rest ∧
        ((final past).subscriptions orgId).length = n ∧
        ((final past).inner.subscribers orgId).length <
          cap := by
  have hMember :
      (Run.exec (Fanout.step rules) []
        (opsOf orgId events))[n]? =
        some (memberOf (final events) orgId subscription) := by
    rw [← exec_refines, groupOf, List.getElem?_map, hAt]
    rfl
  rcases Fanout.member_joined _ hMember with
    ⟨before, isAdmin, cap, after, hSplit, hRoom, hLength⟩
  rcases split_of_filterMap hSplit with
    ⟨past, event, rest, rfl, rfl, hEvent, -⟩
  rcases eq_eventOf hEvent with rfl
  refine ⟨past, isAdmin, cap, rest, rfl, ?_, ?_⟩
  · rw [← length_groupOf, exec_refines]
    exact hLength
  · rw [← liveCount_groupOf (broadcasterOk_final past),
      exec_refines]
    exact hRoom

--------------------
-- The Live Feed
--------------------

theorem le_largest
    {caps : List Nat}
    {cap : Nat}
    (hIn : cap ∈ caps) :
    cap ≤ caps.foldr max 0 := by
  induction caps with
  | nil => exact absurd hIn List.not_mem_nil
  | cons head caps ih =>
      rcases List.mem_cons.mp hIn with rfl | hRest
      · exact Nat.le_max_left _ _
      · exact Nat.le_trans (ih hRest) (Nat.le_max_right _ _)

/- Only the caps passed for the org bound its subscribers. -/
theorem live_le_largestCap
    (orgId : String)
    (events : List Event) :
    ((final events).inner.subscribers orgId).length ≤
      largestCap orgId events := by
  rw [← liveCount_groupOf (broadcasterOk_final events),
    exec_refines]
  refine Fanout.liveCount_le ?_ (Nat.zero_le _)
  intro op hOp cap hCap
  rcases List.mem_filterMap.mp hOp with ⟨event, hEvent, hIs⟩
  rcases eq_eventOf hIs with rfl
  apply le_largest
  apply List.mem_filterMap.mpr
  refine ⟨_, hEvent, ?_⟩
  cases op with
  | join isAdmin limit =>
      rcases Option.some.inj hCap with rfl
      simp [capFor, eventOf]
  | publish audience payload => contradiction
  | take k => contradiction
  | leave k => contradiction
  | clear => contradiction

/- The slot of a dropped subscription is free. -/
theorem slot_freed
    {s : State}
    {subscription : Subscription}
    (hOk : BroadcasterOk s)
    (hAt : (s.subscriptions orgId)[n]? = some subscription) :
    ((step s (.drop orgId n)).inner.subscribers orgId).length +
        (if isLive s orgId subscription.id then 1 else 0) =
      (s.inner.subscribers orgId).length := by
  have hAfter := broadcasterOk_step s (.drop orgId n) hOk
  rw [← liveCount_groupOf hOk, ← liveCount_groupOf hAfter,
    step_refines hOk]
  simp only [opOf, if_true, Option.toList_some, Run.exec_cons,
    Run.exec_nil, Fanout.step]
  apply Fanout.liveCount_leave
    (x := memberOf s orgId subscription)
  rw [groupOf, List.getElem?_map, hAt]
  rfl

/- The operations on an org are those that concern it. -/
theorem opsOf_concerns
    (orgId : String)
    (events : List Event) :
    opsOf orgId (events.filter (concerns orgId)) =
      opsOf orgId events := by
  rw [opsOf, opsOf, List.filterMap_filter]
  congr 1
  funext event
  cases event with
  | subscribe org isAdmin cap =>
      by_cases hOrg : org = orgId <;> simp [concerns, opOf, hOrg]
  | notify org audience payload =>
      by_cases hOrg : org = orgId <;> simp [concerns, opOf, hOrg]
  | recv org k =>
      by_cases hOrg : org = orgId <;> simp [concerns, opOf, hOrg]
  | drop org k =>
      by_cases hOrg : org = orgId <;> simp [concerns, opOf, hOrg]
  | clear => rfl

/-
  After any run, for any org: each of its streams follows the
  events shown to it since it subscribed, its live streams
  are within the largest cap, a drop frees one place, and its
  streams are what they would be had only the operations on
  this org been run.
-/
theorem live_feed
    (events : List Event)
    (orgId : String) :
    (∀ (n : Nat) (subscription : Subscription),
      ((final events).subscriptions orgId)[n]? =
          some subscription →
        ∃ past cap rest,
          events =
              past ++
                .subscribe orgId subscription.isAdmin cap ::
                  rest ∧
            ((final past).subscriptions orgId).length = n ∧
            ((final past).inner.subscribers orgId).length <
              cap ∧
            FeedFollows orgId n past
              (.subscribe orgId subscription.isAdmin cap) rest
              subscription) ∧
      ((final events).inner.subscribers orgId).length ≤
        largestCap orgId events ∧
      (∀ (n : Nat) (subscription : Subscription),
        ((final events).subscriptions orgId)[n]? =
            some subscription →
          ((step (final events)
                (.drop orgId n)).inner.subscribers
              orgId).length +
              (if isLive (final events) orgId subscription.id
                then 1 else 0) =
            ((final events).inner.subscribers orgId).length) ∧
      groupOf orgId (final events) =
        groupOf orgId
          (final (events.filter (concerns orgId))) := by
  refine ⟨?_, live_le_largestCap orgId events, ?_, ?_⟩
  · intro n subscription hAt
    rcases subscribed_at hAt with
      ⟨past, isAdmin, cap, rest, rfl, hPlace, hRoom⟩
    rcases feedFollows hRoom hPlace hAt with ⟨rfl, hFeed⟩
    exact ⟨past, cap, rest, rfl, hPlace, hRoom, hFeed⟩
  · intro n subscription hAt
    exact slot_freed (broadcasterOk_final events) hAt
  · rw [exec_refines, exec_refines, opsOf_concerns]

/- A viewer misses what only admins may see. -/
example :
    ((final
        [.subscribe "org_a" false 2,
          .subscribe "org_a" true 2,
          .notify "org_a" "admin" "secret",
          .notify "org_a" "all" "public",
          .recv "org_a" 0,
          .recv "org_a" 1]).subscriptions "org_a").map
        Subscription.received =
      [["public"], ["secret"]] := by
  rfl

end Sse

end SentinelCommand
