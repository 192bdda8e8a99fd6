import SentinelCommand.Lib.Fanout
import SentinelCommand.Sse.BroadcasterRules

/-
  A broadcaster is one group for each org.

  What an org's subscribers have and receive is that of a
  group with bounded queues under the org's own operations.
  So it does not depend on other orgs, and what is known of
  such groups holds of every stream.

  Main declarations:
    * `groupOf`, `opOf`
    * `groupOf_elsewhere`
    * `step_refines`, `exec_refines`
-/

--------------------
-- The Group of an Org
--------------------

namespace SentinelCommand

namespace Sse

def rules : Fanout.Rules Bool String where
  depth := queueDepth
  sees := maySee

def memberOf
    (s : State)
    (orgId : String)
    (subscription : Subscription) :
    Fanout.Member Bool String where
  role := subscription.isAdmin
  queue := (s.channels subscription.id).queue
  received := subscription.received
  live := isLive s orgId subscription.id
  ended := subscription.ended
  left := subscription.dropped

def groupOf
    (orgId : String)
    (s : State) : Fanout.Group Bool String :=
  (s.subscriptions orgId).map (memberOf s orgId)

/- What an event does to an org's group. -/
def opOf
    (orgId : String) :
    Event → Option (Fanout.Op Bool String String)
| .subscribe org isAdmin cap =>
    if org = orgId then some (.join isAdmin cap) else none
| .notify org audience payload =>
    if org = orgId then some (.publish audience payload) else
      none
| .recv org n => if org = orgId then some (.take n) else none
| .drop org n => if org = orgId then some (.leave n) else none
| .clear => some .clear

/- The event that does it. -/
def eventOf
    (orgId : String) :
    Fanout.Op Bool String String → Event
| .join isAdmin cap => .subscribe orgId isAdmin cap
| .publish audience payload => .notify orgId audience payload
| .take n => .recv orgId n
| .leave n => .drop orgId n
| .clear => .clear

theorem eq_eventOf
    {orgId : String}
    {event : Event}
    {op : Fanout.Op Bool String String}
    (hOp : opOf orgId event = some op) :
    event = eventOf orgId op := by
  cases event with
  | clear =>
      rcases Option.some.inj hOp with rfl
      rfl
  | _ =>
      simp only [opOf, Option.ite_none_right_eq_some,
        Option.some.injEq] at hOp
      rcases hOp with ⟨rfl, rfl⟩
      rfl

variable {s s' : State}
variable {orgId org : String}
variable {n : Nat}
variable {subscription : Subscription}

theorem memberOf_eq
    (hQueue :
      (s'.channels subscription.id).queue =
        (s.channels subscription.id).queue)
    (hLive :
      isLive s' orgId subscription.id =
        isLive s orgId subscription.id) :
    memberOf s' orgId subscription =
      memberOf s orgId subscription := by
  rw [memberOf, memberOf, hQueue, hLive]

theorem groupOf_eq
    (hSame :
      s'.subscriptions orgId = s.subscriptions orgId)
    (hMembers :
      ∀ subscription ∈ s.subscriptions orgId,
        memberOf s' orgId subscription =
          memberOf s orgId subscription) :
    groupOf orgId s' = groupOf orgId s := by
  rw [groupOf, groupOf, hSame]
  exact List.map_congr_left hMembers

/- A stream that goes on changes its own place only. -/
theorem groupOf_set
    (hOk : BroadcasterOk s)
    (hAt : (s.subscriptions orgId)[n]? = some subscription)
    (next : Subscription)
    (hSet :
      s'.subscriptions orgId =
        (s.subscriptions orgId).set n next)
    (hOthers :
      ∀ other ∈ s.subscriptions orgId,
        other.id ≠ subscription.id →
          memberOf s' orgId other = memberOf s orgId other)
    {f :
      Fanout.Member Bool String → Fanout.Member Bool String}
    (hNext :
      memberOf s' orgId next =
        f (memberOf s orgId subscription)) :
    groupOf orgId s' = (groupOf orgId s).modify n f := by
  apply List.ext_getElem?
  intro m
  rw [groupOf, groupOf, hSet, List.getElem?_map]
  by_cases hPlace : n = m
  · subst hPlace
    rw [List.getElem?_modify_eq,
      List.getElem?_set_self (List.getElem?_eq_some_iff.mp hAt).1,
      List.getElem?_map, hAt, Option.map_some, hNext]
    rfl
  · rw [List.getElem?_modify_ne f _ hPlace,
      List.getElem?_set_ne hPlace, List.getElem?_map]
    cases hOther : (s.subscriptions orgId)[m]? with
    | none => rfl
    | some other =>
        have hNe : other.id ≠ subscription.id := by
          intro hId
          exact hPlace (place_of_id hOk hOther hAt hId).symm
        rw [Option.map_some, Option.map_some,
          hOthers other (List.mem_of_getElem? hOther) hNe]

--------------------
-- Each Operation
--------------------

variable {s : State}

/- The live members are the registered subscribers. -/
theorem liveCount_groupOf
    (hOk : BroadcasterOk s)
    (orgId : String) :
    Fanout.liveCount (groupOf orgId s) =
      (s.inner.subscribers orgId).length := by
  have hPerm :
      List.Perm
        (((s.subscriptions orgId).filter
          (fun subscription =>
            isLive s orgId subscription.id)).map
          Subscription.id)
        ((s.inner.subscribers orgId).map Subscriber.id) := by
    refine (List.perm_ext_iff_of_nodup ?_
      (hOk.nodup orgId)).mpr ?_
    · exact (hOk.distinct orgId).sublist
        (List.filter_sublist.map _)
    · intro id
      constructor
      · intro hIn
        rcases List.mem_map.mp hIn with
          ⟨subscription, hFiltered, rfl⟩
        rcases List.mem_filter.mp hFiltered with ⟨hOld, hLive⟩
        exact List.mem_map.mpr
          ⟨_, (subscriber_of_live hOk hOld hLive).1, rfl⟩
      · intro hIn
        rcases List.mem_map.mp hIn with ⟨subscriber, hOld, rfl⟩
        rcases hOk.known orgId subscriber hOld with
          ⟨known, hKnown, hId, -⟩
        refine List.mem_map.mpr ⟨known, ?_, hId⟩
        refine List.mem_filter.mpr ⟨hKnown, ?_⟩
        rw [hId]
        exact isLive_of_mem hOld
  have hLength := hPerm.length_eq
  rw [List.length_map, List.length_map] at hLength
  rw [Fanout.liveCount, groupOf, List.countP_map,
    List.countP_eq_length_filter, ← hLength]
  rfl

theorem subscribe_refines
    (hOk : BroadcasterOk s)
    (isAdmin : Bool)
    (cap : Nat) :
    groupOf org (subscribe s org isAdmin cap) =
      Fanout.step rules (groupOf org s)
        (.join isAdmin cap) := by
  rw [Fanout.step, liveCount_groupOf hOk]
  by_cases hFull : (s.inner.subscribers org).length ≥ cap
  · rw [subscribe, if_pos hFull, if_neg (Nat.not_lt.mpr hFull)]
  · rw [subscribe, if_neg hFull, if_pos (Nat.lt_of_not_le hFull)]
    simp only [groupOf, Function.update_self, List.map_append,
      List.map_cons, List.map_nil]
    congr 1
    · apply List.map_congr_left
      intro other hOther
      have hNe : other.id ≠ s.inner.nextId + 1 :=
        ne_fresh_id hOk (List.mem_map_of_mem hOther)
      apply memberOf_eq
      · dsimp only
        rw [Function.update_of_ne hNe]
      · simp [isLive, Ne.symm hNe]
    · simp [memberOf, Fanout.fresh, isLive, Channel.new]

/- Whom the event is offered to. -/
theorem offered_eq
    (hOk : BroadcasterOk s)
    (hIn : subscription ∈ s.subscriptions orgId)
    (audience : String) :
    offered audience (s.inner.subscribers orgId)
        subscription.id =
      (isLive s orgId subscription.id &&
        maySee subscription.isAdmin audience) := by
  rw [Bool.eq_iff_iff, Bool.and_eq_true]
  constructor
  · intro hOffered
    rcases List.any_eq_true.mp hOffered with
      ⟨subscriber, hOld, hBoth⟩
    rw [Bool.and_eq_true, beq_iff_eq] at hBoth
    rcases hBoth with ⟨hId, hSee⟩
    rcases subscriber_eq hOk hOld hIn hId with ⟨rfl, -⟩
    exact ⟨isLive_of_mem hOld, hSee⟩
  · rintro ⟨hLive, hSee⟩
    have hOld := (subscriber_of_live hOk hIn hLive).1
    exact List.any_eq_true.mpr ⟨_, hOld, by simp [hSee]⟩

/- Who is still registered after the event. -/
theorem isLive_notify
    (hOk : BroadcasterOk s)
    (hIn : subscription ∈ s.subscriptions org)
    (audience payload : String) :
    isLive (notify s org audience payload) org
        subscription.id =
      (isLive s org subscription.id &&
        !(maySee subscription.isAdmin audience &&
          ((s.channels subscription.id).trySend payload).1 ==
            .full)) := by
  have hStays
      {subscriber : Subscriber}
      (hOld : subscriber ∈ s.inner.subscribers org) :
      subscriber ∈
          (fanOut audience payload (s.inner.subscribers org)
            s.channels).1 ↔
        ¬ (maySee subscriber.isAdmin audience = true ∧
          ((s.channels subscriber.id).trySend payload).1 =
            .full) :=
    mem_fanOut (hOk.nodup org) s.channels hOld
  rw [Bool.eq_iff_iff, Bool.and_eq_true, Bool.not_eq_true',
    ← Bool.not_eq_true, Bool.and_eq_true, beq_iff_eq]
  constructor
  · intro hAfter
    simp only [isLive, notify, Function.update_self] at hAfter
    rcases List.any_eq_true.mp hAfter with
      ⟨subscriber, hKept, hId⟩
    have hOld := (fanOut_sublist _ _).mem hKept
    rcases subscriber_eq hOk hOld hIn (beq_iff_eq.mp hId) with
      ⟨rfl, -⟩
    exact ⟨isLive_of_mem hOld, (hStays hOld).mp hKept⟩
  · rintro ⟨hLive, hNot⟩
    have hOld := (subscriber_of_live hOk hIn hLive).1
    simp only [isLive, notify, Function.update_self]
    exact List.any_eq_true.mpr
      ⟨_, (hStays hOld).mpr hNot, beq_self_eq_true _⟩

/- What the event does to one subscriber of its org. -/
theorem member_notify
    (hOk : BroadcasterOk s)
    (hIn : subscription ∈ s.subscriptions org)
    (audience payload : String) :
    memberOf (notify s org audience payload) org subscription =
      if maySee subscription.isAdmin audience then
        (memberOf s org subscription).offer queueDepth payload
      else
        memberOf s org subscription := by
  have hChannel :
      (notify s org audience payload).channels
          subscription.id =
        if isLive s org subscription.id &&
            maySee subscription.isAdmin audience then
          ((s.channels subscription.id).trySend payload).2
        else
          s.channels subscription.id := by
    rw [← offered_eq hOk hIn]
    exact fanOut_channel (hOk.nodup org) s.channels _
  have hAfter := isLive_notify hOk hIn audience payload
  cases hSee : maySee subscription.isAdmin audience with
  | false =>
      rw [hSee] at hChannel hAfter
      simp only [Bool.and_false, Bool.false_and,
        Bool.false_eq_true, if_false] at hChannel hAfter
      rw [if_neg Bool.false_ne_true]
      exact memberOf_eq (by rw [hChannel]) (by simpa using hAfter)
  | true =>
      rw [hSee] at hChannel hAfter
      rw [if_pos rfl]
      cases hLive : isLive s org subscription.id with
      | false =>
          rw [hLive] at hChannel hAfter
          rw [Fanout.offer_of_released hLive]
          exact memberOf_eq
            (by rw [hChannel]; rfl)
            (by rw [hAfter, hLive]; rfl)
      | true =>
          rw [hLive] at hChannel hAfter
          have hOpen :
              (s.channels subscription.id).closed = false := by
            rw [hOk.closed org subscription hIn]
            exact (subscriber_of_live hOk hIn hLive).2
          by_cases hRoom :
              (s.channels subscription.id).queue.length <
                queueDepth
          · rw [trySend_room hOpen hRoom] at hChannel hAfter
            rw [Fanout.offer_of_room hLive hRoom, memberOf,
              hChannel, hAfter]
            simp [memberOf, hLive]
          · rw [trySend_full hOpen hRoom] at hChannel hAfter
            rw [Fanout.offer_of_full hLive hRoom, memberOf,
              hChannel, hAfter]
            simp [memberOf]

theorem notify_refines
    (hOk : BroadcasterOk s)
    (audience payload : String) :
    groupOf org (notify s org audience payload) =
      Fanout.step rules (groupOf org s)
        (.publish audience payload) := by
  rw [Fanout.step, groupOf, groupOf, List.map_map]
  apply List.map_congr_left
  intro subscription hIn
  exact member_notify hOk hIn audience payload

/- A channel whose queue alone is replaced. -/
theorem memberOf_taken
    {next : Subscription}
    {channel : Channel}
    (hId : next.id = subscription.id) :
    memberOf
        { s.setSubscription org n next with
          channels :=
            Function.update s.channels subscription.id
              channel }
        org next =
      { role := next.isAdmin
        queue := channel.queue
        received := next.received
        live := isLive s org subscription.id
        ended := next.ended
        left := next.dropped } := by
  rw [memberOf, hId]
  simp only [Function.update_self]
  rfl

theorem recv_refines
    (hOk : BroadcasterOk s)
    (hAt : (s.subscriptions org)[n]? = some subscription) :
    groupOf org (recv s org n subscription) =
      (groupOf org s).modify n Fanout.Member.take := by
  have hIdle
      (hSame :
        (memberOf s org subscription).take =
          memberOf s org subscription) :
      groupOf org s =
        (groupOf org s).modify n Fanout.Member.take := by
    refine groupOf_set hOk hAt subscription ?_
      (fun _ _ _ => rfl) hSame.symm
    rcases List.getElem?_eq_some_iff.mp hAt with ⟨hLt, rfl⟩
    exact (List.set_getElem_self hLt).symm
  cases hDropped : subscription.dropped with
  | true =>
      rw [recv_dropped hDropped]
      exact hIdle (Fanout.take_of_left hDropped)
  | false =>
      cases hQueue : (s.channels subscription.id).queue with
      | nil =>
          rw [recv_empty hDropped hQueue]
          have hTake :=
            Fanout.take_nil (x := memberOf s org subscription)
              hDropped hQueue
          cases hLive : isLive s org subscription.id with
          | true => exact hIdle (hTake.trans (if_pos hLive))
          | false =>
              rw [if_neg Bool.false_ne_true]
              have hSet :
                  (s.setSubscription org n
                      { subscription with
                        ended := true }).subscriptions org =
                    (s.subscriptions org).set n
                      { subscription with ended := true } :=
                Function.update_self ..
              refine groupOf_set hOk hAt _ hSet
                (fun _ _ _ => rfl) ?_
              have hNot :
                  ¬ (memberOf s org subscription).live = true :=
                fun hIs =>
                  Bool.false_ne_true (hLive.symm.trans hIs)
              rw [hTake, if_neg hNot]
              rfl
      | cons payload rest =>
          rw [recv_next hDropped hQueue]
          refine groupOf_set hOk hAt
            { subscription with
              received := subscription.received ++ [payload] }
            (Function.update_self ..) ?_ ?_
          · intro other _ hNe
            apply memberOf_eq
            · dsimp only
              rw [Function.update_of_ne hNe]
            · rfl
          · rw [Fanout.take_cons
              (x := memberOf s org subscription) hDropped hQueue]
            exact memberOf_taken rfl

theorem drop_refines
    (hOk : BroadcasterOk s)
    (hAt : (s.subscriptions org)[n]? = some subscription) :
    groupOf org (drop s org n subscription) =
      (groupOf org s).modify n Fanout.Member.leave := by
  refine groupOf_set hOk hAt
    { subscription with dropped := true }
    (Function.update_self ..) ?_ ?_
  · intro other _ hNe
    apply memberOf_eq
    · simp only [drop]
      rw [Function.update_of_ne hNe]
    · simp only [isLive, drop, unsubscribe,
        Function.update_self, List.any_filter]
      apply List.any_congr rfl
      intro subscriber
      by_cases hIs : subscriber.id = other.id <;>
        simp [hIs, hNe]
  · simp [memberOf, drop, unsubscribe, isLive, Channel.close,
      Fanout.Member.leave]

theorem clear_refines (s : State) :
    groupOf orgId (clear s) =
      Fanout.step rules (groupOf orgId s) .clear := by
  rw [Fanout.step, groupOf, groupOf, List.map_map]
  apply List.map_congr_left
  intro subscription _
  rfl

--------------------
-- Other Orgs
--------------------

variable {subscription other : Subscription}

theorem id_ne_of_org_ne
    (hOk : BroadcasterOk s)
    (hIn : subscription ∈ s.subscriptions orgId)
    (hOther : other ∈ s.subscriptions org)
    (hNe : org ≠ orgId) :
    subscription.id ≠ other.id := by
  intro hId
  apply hNe
  apply hOk.apart org orgId other.id
    (List.mem_map_of_mem hOther)
  rw [← hId]
  exact List.mem_map_of_mem hIn

theorem groupOf_subscribe_ne
    (hOk : BroadcasterOk s)
    (hNe : orgId ≠ org)
    (isAdmin : Bool)
    (cap : Nat) :
    groupOf orgId (subscribe s org isAdmin cap) =
      groupOf orgId s := by
  simp only [subscribe]
  split
  · rfl
  · apply groupOf_eq
    · exact Function.update_of_ne hNe ..
    · intro subscription hIn
      have hFresh :=
        ne_fresh_id hOk (List.mem_map_of_mem hIn)
      apply memberOf_eq
      · dsimp only
        rw [Function.update_of_ne hFresh]
      · simp only [isLive, Function.update_of_ne hNe]

theorem groupOf_notify_ne
    (hOk : BroadcasterOk s)
    (hNe : orgId ≠ org)
    (audience payload : String) :
    groupOf orgId (notify s org audience payload) =
      groupOf orgId s := by
  refine groupOf_eq (by rfl) ?_
  intro subscription hIn
  apply memberOf_eq
  · simp only [notify]
    rw [fanOut_channel (hOk.nodup org), if_neg]
    rw [Bool.not_eq_true, offered, List.any_eq_false]
    intro subscriber hOld hBoth
    rw [Bool.and_eq_true, beq_iff_eq] at hBoth
    rcases hOk.known org subscriber hOld with
      ⟨known, hKnown, hId, -⟩
    exact id_ne_of_org_ne hOk hIn hKnown hNe.symm
      (hBoth.1.symm.trans hId.symm)
  · simp only [isLive, notify, Function.update_of_ne hNe]

theorem groupOf_recv_ne
    (hOk : BroadcasterOk s)
    (hNe : orgId ≠ org)
    (hAt : (s.subscriptions org)[n]? = some subscription) :
    groupOf orgId (recv s org n subscription) =
      groupOf orgId s := by
  cases hDropped : subscription.dropped with
  | true => rw [recv_dropped hDropped]
  | false =>
      cases hQueue : (s.channels subscription.id).queue with
      | nil =>
          rw [recv_empty hDropped hQueue]
          split
          · rfl
          · exact groupOf_eq (Function.update_of_ne hNe ..)
              (fun _ _ => rfl)
      | cons payload rest =>
          rw [recv_next hDropped hQueue]
          apply groupOf_eq
          · exact Function.update_of_ne hNe ..
          · intro other hIn
            apply memberOf_eq
            · dsimp only
              rw [Function.update_of_ne
                (id_ne_of_org_ne hOk hIn
                  (List.mem_of_getElem? hAt) hNe.symm)]
            · rfl

theorem groupOf_drop_ne
    (hOk : BroadcasterOk s)
    (hNe : orgId ≠ org)
    (hAt : (s.subscriptions org)[n]? = some subscription) :
    groupOf orgId (drop s org n subscription) =
      groupOf orgId s := by
  apply groupOf_eq
  · exact Function.update_of_ne hNe ..
  · intro other hIn
    apply memberOf_eq
    · simp only [drop]
      rw [Function.update_of_ne
        (id_ne_of_org_ne hOk hIn (List.mem_of_getElem? hAt)
          hNe.symm)]
    · simp only [isLive, drop, unsubscribe,
        Function.update_of_ne hNe]

/- An event at one org leaves the group of another alone. -/
theorem groupOf_elsewhere
    (hOk : BroadcasterOk s)
    (event : Event)
    (hNone : opOf orgId event = none) :
    groupOf orgId (step s event) = groupOf orgId s := by
  have hNe
      {org : String}
      {op : Fanout.Op Bool String String}
      (hOp : (if org = orgId then some op else none) = none) :
      orgId ≠ org := by
    rintro rfl
    simp at hOp
  cases event with
  | subscribe org isAdmin cap =>
      exact groupOf_subscribe_ne hOk (hNe hNone) isAdmin cap
  | notify org audience payload =>
      exact groupOf_notify_ne hOk (hNe hNone) audience payload
  | recv org n =>
      simp only [step]
      split
      · rfl
      · rename_i subscription hAt
        exact groupOf_recv_ne hOk (hNe hNone) hAt
  | drop org n =>
      simp only [step]
      split
      · rfl
      · rename_i subscription hAt
        exact groupOf_drop_ne hOk (hNe hNone) hAt
  | clear => simp [opOf] at hNone

def final (events : List Event) : State :=
  Run.exec step initial events

def opsOf
    (orgId : String)
    (events : List Event) :
    List (Fanout.Op Bool String String) :=
  events.filterMap (opOf orgId)

theorem modify_nobody
    {s : State}
    {orgId : String}
    {n : Nat}
    (hAt : (s.subscriptions orgId)[n]? = none)
    {f :
      Fanout.Member Bool String → Fanout.Member Bool String} :
    (groupOf orgId s).modify n f = groupOf orgId s := by
  apply List.modify_eq_self
  rw [groupOf, List.length_map]
  exact List.getElem?_eq_none_iff.mp hAt

/- One event is one operation on the org's group, or none. -/
theorem step_refines
    {s : State}
    (hOk : BroadcasterOk s)
    (orgId : String)
    (event : Event) :
    groupOf orgId (step s event) =
      Run.exec (Fanout.step rules) (groupOf orgId s)
        (opOf orgId event).toList := by
  cases hOp : opOf orgId event with
  | none => exact groupOf_elsewhere hOk event hOp
  | some op =>
      rw [Option.toList_some, Run.exec_cons, Run.exec_nil]
      rcases eq_eventOf hOp with rfl
      cases op with
      | join isAdmin cap =>
          exact subscribe_refines hOk isAdmin cap
      | publish audience payload =>
          exact notify_refines hOk audience payload
      | take n =>
          rw [Fanout.step, eventOf, step]
          cases hAt : (s.subscriptions orgId)[n]? with
          | none => rw [modify_nobody hAt]
          | some subscription => exact recv_refines hOk hAt
      | leave n =>
          rw [Fanout.step, eventOf, step]
          cases hAt : (s.subscriptions orgId)[n]? with
          | none => rw [modify_nobody hAt]
          | some subscription => exact drop_refines hOk hAt
      | clear => exact clear_refines s

theorem broadcasterOk_final (events : List Event) :
    BroadcasterOk (final events) :=
  Run.invariant_exec broadcasterOk_step events
    broadcasterOk_initial

/- By induction on the run, from its end. -/
theorem exec_refines
    (orgId : String)
    (events : List Event) :
    groupOf orgId (final events) =
      Run.exec (Fanout.step rules) [] (opsOf orgId events) := by
  induction events using List.reverseRecOn with
  | nil => rfl
  | append_singleton events event ih =>
      have hNext :
          final (events ++ [event]) =
            step (final events) event :=
        Run.exec_append step initial events [event]
      rw [hNext, step_refines (broadcasterOk_final events), ih,
        ← Run.exec_append, opsOf, opsOf, List.filterMap_append]
      cases hOp : opOf orgId event <;> simp [hOp]

end Sse

end SentinelCommand
