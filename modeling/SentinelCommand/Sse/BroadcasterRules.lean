import SentinelCommand.Sse.Broadcaster

/-
  What the operations of a broadcaster keep.

  Ids are never shared, also not between orgs, every
  registered subscriber belongs to one subscription that was
  not dropped, and a channel is closed exactly when its
  subscription was dropped.

  Main declarations:
    * `fanOut_channel`, `mem_fanOut`
    * `BroadcasterOk`
    * `broadcasterOk_step`
-/

--------------------
-- The Fan-out
--------------------

namespace SentinelCommand

namespace Sse

theorem trySend_closed
    (channel : Channel)
    (payload : String) :
    (channel.trySend payload).2.closed = channel.closed := by
  unfold Channel.trySend
  split
  · rfl
  · split <;> rfl

theorem trySend_room
    {channel : Channel}
    (hOpen : channel.closed = false)
    (hRoom : channel.queue.length < queueDepth)
    (payload : String) :
    channel.trySend payload =
      (.ok, { channel with
        queue := channel.queue ++ [payload] }) := by
  rw [Channel.trySend, hOpen, if_neg Bool.false_ne_true,
    if_pos hRoom]

theorem trySend_full
    {channel : Channel}
    (hOpen : channel.closed = false)
    (hFull : ¬ channel.queue.length < queueDepth)
    (payload : String) :
    channel.trySend payload = (.full, channel) := by
  rw [Channel.trySend, hOpen, if_neg Bool.false_ne_true,
    if_neg hFull]

variable {audience payload : String}

/- Is some subscriber under this id offered the event? -/
def offered
    (audience : String)
    (subscribers : List Subscriber)
    (id : Nat) : Bool :=
  subscribers.any
    (fun subscriber =>
      subscriber.id == id &&
        maySee subscriber.isAdmin audience)

theorem fanOut_sees
    {subscriber : Subscriber}
    (rest : List Subscriber)
    (channels : Nat → Channel)
    (hSee : maySee subscriber.isAdmin audience = true) :
    (fanOut audience payload (subscriber :: rest) channels).2 =
      (fanOut audience payload rest
        (Function.update channels subscriber.id
          ((channels subscriber.id).trySend payload).2)).2 := by
  rw [fanOut, if_pos hSee]
  dsimp only
  split <;> rfl

/-
  With ids that differ, each channel is sent to at most once.
-/
theorem fanOut_channel
    {subscribers : List Subscriber}
    (hNodup : (subscribers.map Subscriber.id).Nodup)
    (channels : Nat → Channel)
    (id : Nat) :
    (fanOut audience payload subscribers channels).2 id =
      if offered audience subscribers id then
        ((channels id).trySend payload).2
      else
        channels id := by
  induction subscribers generalizing channels with
  | nil => rfl
  | cons subscriber rest ih =>
      rw [List.map_cons, List.nodup_cons] at hNodup
      rcases hNodup with ⟨hFresh, hRest⟩
      have hElsewhere
          (hIs : subscriber.id = id) :
          offered audience rest id = false := by
        rw [offered, List.any_eq_false]
        intro other hOther hBoth
        rw [Bool.and_eq_true, beq_iff_eq] at hBoth
        exact hFresh
          (List.mem_map.mpr
            ⟨other, hOther, hBoth.1.trans hIs.symm⟩)
      rw [offered, List.any_cons, ← offered]
      cases hSee : maySee subscriber.isAdmin audience with
      | false =>
          rw [fanOut, hSee, if_neg Bool.false_ne_true,
            ih hRest, Bool.and_false, Bool.false_or]
      | true =>
          rw [fanOut_sees rest channels hSee, ih hRest,
            Bool.and_true]
          by_cases hIs : subscriber.id = id
          · rw [hElsewhere hIs, if_neg Bool.false_ne_true, hIs,
              Function.update_self, beq_self_eq_true,
              Bool.true_or, if_pos rfl]
          · rw [Function.update_of_ne (Ne.symm hIs),
              beq_false_of_ne hIs, Bool.false_or]

theorem fanOut_sublist
    (subscribers : List Subscriber)
    (channels : Nat → Channel) :
    (fanOut audience payload subscribers channels).1.Sublist
      subscribers := by
  induction subscribers generalizing channels with
  | nil => exact List.Sublist.refl _
  | cons subscriber rest ih =>
      rw [fanOut]
      split
      · dsimp only
        split
        · exact (ih _).cons subscriber
        · exact (ih _).cons_cons subscriber
      · exact (ih _).cons_cons subscriber

/- Only who is offered the event on a full queue goes. -/
theorem mem_fanOut
    {subscribers : List Subscriber}
    (hNodup : (subscribers.map Subscriber.id).Nodup)
    (channels : Nat → Channel)
    {subscriber : Subscriber}
    (hMember : subscriber ∈ subscribers) :
    subscriber ∈
        (fanOut audience payload subscribers channels).1 ↔
      ¬ (maySee subscriber.isAdmin audience = true ∧
        ((channels subscriber.id).trySend payload).1 =
          .full) := by
  induction subscribers generalizing channels with
  | nil => exact absurd hMember List.not_mem_nil
  | cons head rest ih =>
      rw [List.map_cons, List.nodup_cons] at hNodup
      rcases hNodup with ⟨hFresh, hRest⟩
      have hGone
          (now : Nat → Channel) :
          head ∉ (fanOut audience payload rest now).1 := by
        intro hIn
        exact hFresh
          (List.mem_map_of_mem ((fanOut_sublist _ _).mem hIn))
      rw [fanOut]
      rcases List.mem_cons.mp hMember with rfl | hIn
      · cases hSee : maySee subscriber.isAdmin audience with
        | false => simp
        | true =>
            by_cases hFull :
                ((channels subscriber.id).trySend payload).1 =
                  .full
            · simp [hFull, hGone]
            · simp [hFull]
      · have hOther : subscriber.id ≠ head.id := by
          intro hIs
          exact hFresh
            (List.mem_map.mpr ⟨subscriber, hIn, hIs⟩)
        have hNe : subscriber ≠ head := by
          rintro rfl
          exact hOther rfl
        cases hSee : maySee head.isAdmin audience with
        | false => simp [hNe, ih hRest channels hIn]
        | true =>
            have hRec := ih hRest
              (Function.update channels head.id
                ((channels head.id).trySend payload).2) hIn
            rw [Function.update_of_ne hOther] at hRec
            by_cases hFull :
                ((channels head.id).trySend payload).1 = .full
            · simp [hFull, hRec]
            · simp [hFull, hRec, hNe]

variable {s : State}
variable {orgId : String}
variable {n : Nat}
variable {subscription : Subscription}

theorem recv_dropped
    (hDropped : subscription.dropped = true) :
    recv s orgId n subscription = s := by
  rw [recv, if_pos hDropped]

theorem recv_next
    {payload : String}
    {rest : List String}
    (hDropped : subscription.dropped = false)
    (hQueue :
      (s.channels subscription.id).queue = payload :: rest) :
    recv s orgId n subscription =
      { s.setSubscription orgId n
          { subscription with
            received := subscription.received ++ [payload] }
        with
        channels :=
          Function.update s.channels subscription.id
            { s.channels subscription.id with
              queue := rest } } := by
  rw [recv, hDropped, if_neg Bool.false_ne_true, hQueue]

theorem recv_empty
    (hDropped : subscription.dropped = false)
    (hQueue : (s.channels subscription.id).queue = []) :
    recv s orgId n subscription =
      if isLive s orgId subscription.id then s else
        s.setSubscription orgId n
          { subscription with ended := true } := by
  rw [recv, hDropped, if_neg Bool.false_ne_true, hQueue]

--------------------
-- The Invariant
--------------------

def idsOf (s : State) (orgId : String) : List Nat :=
  (s.subscriptions orgId).map Subscription.id

structure BroadcasterOk (s : State) : Prop where
  issued :
    ∀ orgId, ∀ id ∈ idsOf s orgId, id ≤ s.inner.nextId
  distinct : ∀ orgId, (idsOf s orgId).Nodup
  apart :
    ∀ orgId other id, id ∈ idsOf s orgId →
      id ∈ idsOf s other → orgId = other
  nodup :
    ∀ orgId,
      ((s.inner.subscribers orgId).map Subscriber.id).Nodup
  known :
    ∀ orgId, ∀ subscriber ∈ s.inner.subscribers orgId,
      ∃ subscription ∈ s.subscriptions orgId,
        subscription.id = subscriber.id ∧
          subscription.isAdmin = subscriber.isAdmin ∧
          subscription.dropped = false
  closed :
    ∀ orgId, ∀ subscription ∈ s.subscriptions orgId,
      (s.channels subscription.id).closed =
        subscription.dropped

variable {s s' : State}
variable {n m : Nat}
variable {subscription other o : Subscription}

theorem broadcasterOk_initial : BroadcasterOk initial where
  issued := by simp [idsOf, initial]
  distinct := by simp [idsOf, initial]
  apart := by simp [idsOf, initial]
  nodup := by simp [initial]
  known := by simp [initial]
  closed := by simp [initial]

theorem id_mem
    (hAt : (s.subscriptions orgId)[n]? = some subscription) :
    subscription.id ∈ idsOf s orgId :=
  List.mem_map_of_mem (List.mem_of_getElem? hAt)

/- An id names one place. -/
theorem place_of_id
    (hOk : BroadcasterOk s)
    (hFirst : (s.subscriptions orgId)[n]? = some subscription)
    (hSecond : (s.subscriptions orgId)[m]? = some other)
    (hId : subscription.id = other.id) :
    n = m := by
  have hLt : n < (idsOf s orgId).length := by
    rw [idsOf, List.length_map]
    exact (List.getElem?_eq_some_iff.mp hFirst).1
  apply (List.getElem?_inj hLt (hOk.distinct orgId)).mp
  rw [idsOf, List.getElem?_map, List.getElem?_map, hFirst,
    hSecond, Option.map_some, Option.map_some, hId]

theorem eq_of_id
    (hOk : BroadcasterOk s)
    (hFirst : subscription ∈ s.subscriptions orgId)
    (hSecond : other ∈ s.subscriptions orgId)
    (hId : subscription.id = other.id) :
    subscription = other := by
  rcases List.getElem?_of_mem hFirst with ⟨n, hN⟩
  rcases List.getElem?_of_mem hSecond with ⟨m, hM⟩
  have hSame := place_of_id hOk hN hM hId
  rw [hSame] at hN
  exact Option.some.inj (hN.symm.trans hM)

/- A registered id stands for its subscription. -/
theorem subscriber_eq
    (hOk : BroadcasterOk s)
    {subscriber : Subscriber}
    (hIn : subscriber ∈ s.inner.subscribers orgId)
    (hMember : subscription ∈ s.subscriptions orgId)
    (hId : subscriber.id = subscription.id) :
    subscriber = ⟨subscription.id, subscription.isAdmin⟩ ∧
      subscription.dropped = false := by
  rcases hOk.known orgId subscriber hIn with
    ⟨known, hKnown, hKnownId, hAdmin, hDropped⟩
  rcases eq_of_id hOk hKnown hMember (hKnownId.trans hId)
    with rfl
  refine ⟨?_, hDropped⟩
  rw [hKnownId, hAdmin]

/- The registered subscriber of a live subscription. -/
theorem subscriber_of_live
    (hOk : BroadcasterOk s)
    (hMember : subscription ∈ s.subscriptions orgId)
    (hLive : isLive s orgId subscription.id = true) :
    (⟨subscription.id, subscription.isAdmin⟩ : Subscriber) ∈
        s.inner.subscribers orgId ∧
      subscription.dropped = false := by
  rcases List.any_eq_true.mp hLive with
    ⟨subscriber, hIn, hId⟩
  rcases subscriber_eq hOk hIn hMember (beq_iff_eq.mp hId)
    with ⟨hIs, hDropped⟩
  exact ⟨hIs ▸ hIn, hDropped⟩

theorem isLive_of_mem
    {subscriber : Subscriber}
    (hIn : subscriber ∈ s.inner.subscribers orgId) :
    isLive s orgId subscriber.id = true :=
  List.any_eq_true.mpr ⟨subscriber, hIn, beq_self_eq_true _⟩

/- The same ids, drawn from the same counter. -/
theorem broadcasterOk_of_ids
    (hOk : BroadcasterOk s)
    (hNext : s'.inner.nextId = s.inner.nextId)
    (hIds : ∀ orgId, idsOf s' orgId = idsOf s orgId)
    (hNodup :
      ∀ orgId,
        ((s'.inner.subscribers orgId).map
          Subscriber.id).Nodup)
    (hKnown :
      ∀ orgId, ∀ subscriber ∈ s'.inner.subscribers orgId,
        ∃ subscription ∈ s'.subscriptions orgId,
          subscription.id = subscriber.id ∧
            subscription.isAdmin = subscriber.isAdmin ∧
            subscription.dropped = false)
    (hClosed :
      ∀ orgId, ∀ subscription ∈ s'.subscriptions orgId,
        (s'.channels subscription.id).closed =
          subscription.dropped) :
    BroadcasterOk s' where
  issued := by
    intro orgId id hId
    rw [hIds] at hId
    rw [hNext]
    exact hOk.issued orgId id hId
  distinct := by
    intro orgId
    rw [hIds]
    exact hOk.distinct orgId
  apart := by
    intro orgId other id hId hOther
    rw [hIds] at hId hOther
    exact hOk.apart orgId other id hId hOther
  nodup := hNodup
  known := hKnown
  closed := hClosed

/- Replacing a subscription by one with the same id. -/
theorem idsOf_set
    (hAt : (s.subscriptions orgId)[n]? = some subscription)
    (hId : o.id = subscription.id)
    (any : String) :
    idsOf (s.setSubscription orgId n o) any =
      idsOf s any := by
  simp only [idsOf, State.setSubscription]
  by_cases hIs : any = orgId
  · subst hIs
    rcases List.getElem?_eq_some_iff.mp hAt with ⟨hLt, hGet⟩
    rw [Function.update_self, List.map_set, hId, ← hGet]
    apply List.ext_getElem?
    intro k
    rw [List.getElem?_set, List.getElem?_map]
    split
    · rename_i hK
      subst hK
      simp [hLt]
    · rfl
  · rw [Function.update_of_ne hIs]

/- Whose place it is not keeps its subscription. -/
theorem mem_of_set
    (hOk : BroadcasterOk s)
    (hAt : (s.subscriptions orgId)[n]? = some subscription)
    {any : String}
    {found : Subscription}
    (hIn :
      found ∈
        (s.setSubscription orgId n other).subscriptions any) :
    (any = orgId ∧ found = other) ∨
      found ∈ s.subscriptions any ∧
        found.id ≠ subscription.id := by
  simp only [State.setSubscription] at hIn
  by_cases hIs : any = orgId
  · subst hIs
    rw [Function.update_self] at hIn
    rcases List.getElem?_of_mem hIn with ⟨k, hK⟩
    rw [List.getElem?_set] at hK
    split at hK
    · split at hK
      · exact Or.inl ⟨rfl, (Option.some.inj hK).symm⟩
      · contradiction
    · rename_i hNe
      refine Or.inr ⟨List.mem_of_getElem? hK, ?_⟩
      intro hId
      exact hNe (place_of_id hOk hK hAt hId).symm
  · rw [Function.update_of_ne hIs] at hIn
    refine Or.inr ⟨hIn, ?_⟩
    intro hId
    have hFound : found.id ∈ idsOf s any :=
      List.mem_map_of_mem hIn
    rw [hId] at hFound
    exact hIs (hOk.apart _ _ _ hFound (id_mem hAt))

/- Every subscription is kept or is the one replaced. -/
theorem mem_setSubscription
    (hAt : (s.subscriptions orgId)[n]? = some subscription)
    {any : String}
    {found : Subscription}
    (hIn : found ∈ s.subscriptions any) :
    (found = subscription ∧
        o ∈
          (s.setSubscription orgId n o).subscriptions any) ∨
      found ∈
        (s.setSubscription orgId n o).subscriptions any := by
  simp only [State.setSubscription]
  by_cases hIs : any = orgId
  · subst hIs
    rw [Function.update_self]
    rcases List.getElem?_of_mem hIn with ⟨k, hK⟩
    by_cases hPlace : n = k
    · subst hPlace
      left
      refine ⟨Option.some.inj (hK.symm.trans hAt), ?_⟩
      exact List.mem_set (List.getElem?_eq_some_iff.mp hAt).1 _
    · right
      apply List.mem_of_getElem? (i := k)
      rw [List.getElem?_set_ne hPlace, hK]
  · right
    rwa [Function.update_of_ne hIs]

--------------------
-- Every Operation Keeps It
--------------------

theorem ne_fresh_id
    (hOk : BroadcasterOk s)
    {any : String}
    {id : Nat}
    (hIn : id ∈ idsOf s any) :
    id ≠ s.inner.nextId + 1 := by
  have hIssued := hOk.issued any id hIn
  omega

/- Of ids that differ from the new one, none comes twice. -/
theorem nodup_joined
    {Entry : Type}
    {id : Entry → Nat}
    {table : String → List Entry}
    {new : Entry}
    {any : String}
    (hNodup : ((table any).map id).Nodup)
    (hNew : id new ∉ (table any).map id) :
    ((Function.update table orgId (table orgId ++ [new])
      any).map id).Nodup := by
  by_cases hIs : any = orgId
  · subst hIs
    rw [Function.update_self, List.map_append]
    refine List.nodup_append.mpr
      ⟨hNodup, List.pairwise_singleton _ _, ?_⟩
    intro old hOld last hLast
    rw [List.mem_singleton.mp hLast]
    rintro rfl
    exact hNew hOld
  · rwa [Function.update_of_ne hIs]

/- The fresh id, or one that was there before. -/
theorem mem_ids_joined
    {new : Subscription}
    {any : String}
    {id : Nat}
    (hIn :
      id ∈
        (Function.update s.subscriptions orgId
          (s.subscriptions orgId ++ [new]) any).map
          Subscription.id) :
    (any = orgId ∧ id = new.id) ∨ id ∈ idsOf s any := by
  by_cases hIs : any = orgId
  · subst hIs
    rw [Function.update_self, List.map_append] at hIn
    rcases List.mem_append.mp hIn with hOld | hNew
    · exact Or.inr hOld
    · exact Or.inl ⟨rfl, List.mem_singleton.mp hNew⟩
  · rw [Function.update_of_ne hIs] at hIn
    exact Or.inr hIn

/- Whom the broadcaster holds, it knows the stream of. -/
theorem mem_idsOf_of_known
    (hOk : BroadcasterOk s)
    {any : String}
    {id : Nat}
    (hIn : id ∈ (s.inner.subscribers any).map Subscriber.id) :
    id ∈ idsOf s any := by
  rcases List.mem_map.mp hIn with ⟨subscriber, hHeld, rfl⟩
  rcases hOk.known any subscriber hHeld with
    ⟨known, hKnown, hId, -⟩
  rw [← hId]
  exact List.mem_map_of_mem hKnown

theorem broadcasterOk_subscribe
    (hOk : BroadcasterOk s)
    (orgId : String)
    (isAdmin : Bool)
    (cap : Nat) :
    BroadcasterOk (subscribe s orgId isAdmin cap) := by
  simp only [subscribe]
  split
  · exact hOk
  constructor
  · intro any id hIn
    rcases mem_ids_joined hIn with ⟨-, hNew⟩ | hOld
    · exact Nat.le_of_eq hNew
    · exact Nat.le_succ_of_le (hOk.issued any id hOld)
  · intro any
    exact nodup_joined (hOk.distinct any)
      (fun hOld => ne_fresh_id hOk hOld rfl)
  · intro first second id hFirst hSecond
    rcases mem_ids_joined hFirst with ⟨hAt, hNew⟩ | hOld
    · rcases mem_ids_joined hSecond with ⟨hAt', -⟩ | hOld'
      · rw [hAt, hAt']
      · exact absurd hNew (ne_fresh_id hOk hOld')
    · rcases mem_ids_joined hSecond with ⟨-, hNew'⟩ | hOld'
      · exact absurd hNew' (ne_fresh_id hOk hOld)
      · exact hOk.apart first second id hOld hOld'
  · intro any
    exact nodup_joined (hOk.nodup any)
      (fun hOld =>
        ne_fresh_id hOk (mem_idsOf_of_known hOk hOld) rfl)
  · intro any subscriber hIn
    dsimp only at hIn ⊢
    by_cases hIs : any = orgId
    · subst hIs
      rw [Function.update_self] at hIn ⊢
      rcases List.mem_append.mp hIn with hOld | hNew
      · rcases hOk.known any subscriber hOld with
          ⟨known, hKnown, hRest⟩
        exact ⟨known, List.mem_append_left _ hKnown, hRest⟩
      · rw [List.mem_singleton.mp hNew]
        exact
          ⟨_, List.mem_append_right _ (List.mem_singleton_self _),
            rfl, rfl, rfl⟩
    · rw [Function.update_of_ne hIs] at hIn ⊢
      exact hOk.known any subscriber hIn
  · intro any found hIn
    dsimp only at hIn ⊢
    have hOld
        (hIn : found ∈ s.subscriptions any) :
        (Function.update s.channels (s.inner.nextId + 1)
            Channel.new found.id).closed =
          found.dropped := by
      rw [Function.update_of_ne
        (ne_fresh_id hOk (List.mem_map_of_mem hIn))]
      exact hOk.closed any found hIn
    by_cases hIs : any = orgId
    · subst hIs
      rw [Function.update_self] at hIn
      rcases List.mem_append.mp hIn with hBefore | hNew
      · exact hOld hBefore
      · rw [List.mem_singleton.mp hNew, Function.update_self]
        rfl
    · rw [Function.update_of_ne hIs] at hIn
      exact hOld hIn

theorem broadcasterOk_notify
    (hOk : BroadcasterOk s)
    (orgId audience payload : String) :
    BroadcasterOk (notify s orgId audience payload) := by
  have hKept
      {any : String}
      {subscriber : Subscriber}
      (hIn :
        subscriber ∈
          (notify s orgId audience payload).inner.subscribers
            any) :
      subscriber ∈ s.inner.subscribers any := by
    simp only [notify] at hIn
    by_cases hIs : any = orgId
    · subst hIs
      rw [Function.update_self] at hIn
      exact (fanOut_sublist _ _).mem hIn
    · rwa [Function.update_of_ne hIs] at hIn
  refine broadcasterOk_of_ids hOk rfl (fun _ => rfl) ?_ ?_ ?_
  · intro any
    simp only [notify]
    by_cases hIs : any = orgId
    · subst hIs
      rw [Function.update_self]
      exact (hOk.nodup any).sublist
        ((fanOut_sublist _ _).map _)
    · rw [Function.update_of_ne hIs]
      exact hOk.nodup any
  · intro any subscriber hIn
    exact hOk.known any subscriber (hKept hIn)
  · intro any found hIn
    simp only [notify]
    rw [fanOut_channel (hOk.nodup orgId)]
    split
    · rw [trySend_closed]
      exact hOk.closed any found hIn
    · exact hOk.closed any found hIn

/- A stream that goes on is the same subscription. -/
theorem broadcasterOk_advance
    (hOk : BroadcasterOk s)
    (hAt : (s.subscriptions orgId)[n]? = some subscription)
    (next : Subscription)
    (hId : next.id = subscription.id)
    (hAdmin : next.isAdmin = subscription.isAdmin)
    (hDropped : next.dropped = subscription.dropped)
    (channels : Nat → Channel)
    (hChannels :
      ∀ id, (channels id).closed = (s.channels id).closed) :
    BroadcasterOk
      { s.setSubscription orgId n next with
        channels := channels } := by
  refine broadcasterOk_of_ids hOk rfl (idsOf_set hAt hId)
    hOk.nodup ?_ ?_
  · intro any subscriber hIn
    rcases hOk.known any subscriber hIn with
      ⟨known, hKnown, hKnownId, hKnownAdmin, hLive⟩
    rcases mem_setSubscription (o := next) hAt hKnown with
      ⟨rfl, hNew⟩ | hSame
    · exact
        ⟨next, hNew, hId.trans hKnownId,
          hAdmin.trans hKnownAdmin, hDropped.trans hLive⟩
    · exact
        ⟨known, hSame, hKnownId, hKnownAdmin, hLive⟩
  · intro any found hIn
    dsimp only
    rw [hChannels]
    rcases mem_of_set hOk hAt hIn with ⟨rfl, rfl⟩ | ⟨hOld, -⟩
    · rw [hId, hDropped]
      exact hOk.closed any subscription
        (List.mem_of_getElem? hAt)
    · exact hOk.closed any found hOld

theorem broadcasterOk_recv
    (hOk : BroadcasterOk s)
    (hAt : (s.subscriptions orgId)[n]? = some subscription) :
    BroadcasterOk (recv s orgId n subscription) := by
  cases hDropped : subscription.dropped with
  | true =>
      rw [recv_dropped hDropped]
      exact hOk
  | false =>
      cases hQueue : (s.channels subscription.id).queue with
      | nil =>
          rw [recv_empty hDropped hQueue]
          split
          · exact hOk
          · exact broadcasterOk_advance hOk hAt
              { subscription with ended := true } rfl rfl rfl
              s.channels (fun _ => rfl)
      | cons payload rest =>
          rw [recv_next hDropped hQueue]
          refine broadcasterOk_advance hOk hAt
            { subscription with
              received := subscription.received ++ [payload] }
            rfl rfl rfl
            (Function.update s.channels subscription.id
              { s.channels subscription.id with
                queue := rest }) ?_
          intro id
          rw [Function.update_apply]
          split
          · rename_i hId
            rw [hId]
          · rfl

theorem broadcasterOk_drop
    (hOk : BroadcasterOk s)
    (hAt : (s.subscriptions orgId)[n]? = some subscription) :
    BroadcasterOk (drop s orgId n subscription) := by
  have hKept
      {any : String}
      {subscriber : Subscriber}
      (hIn :
        subscriber ∈
          (drop s orgId n subscription).inner.subscribers any) :
      subscriber ∈ s.inner.subscribers any ∧
        (any = orgId → subscriber.id ≠ subscription.id) := by
    simp only [drop, unsubscribe] at hIn
    by_cases hIs : any = orgId
    · subst hIs
      rw [Function.update_self] at hIn
      rcases List.mem_filter.mp hIn with ⟨hOld, hNe⟩
      exact ⟨hOld, fun _ => bne_iff_ne.mp hNe⟩
    · rw [Function.update_of_ne hIs] at hIn
      exact ⟨hIn, fun hEq => absurd hEq hIs⟩
  refine broadcasterOk_of_ids hOk rfl
    (idsOf_set (o := { subscription with dropped := true })
      hAt rfl) ?_ ?_ ?_
  · intro any
    simp only [drop, unsubscribe]
    by_cases hIs : any = orgId
    · subst hIs
      rw [Function.update_self]
      exact (hOk.nodup any).sublist (List.filter_sublist.map _)
    · rw [Function.update_of_ne hIs]
      exact hOk.nodup any
  · intro any subscriber hIn
    rcases hKept hIn with ⟨hOld, hNe⟩
    rcases hOk.known any subscriber hOld with
      ⟨known, hKnown, hId, hRest⟩
    rcases mem_setSubscription
      (o := { subscription with dropped := true })
      hAt hKnown with ⟨rfl, -⟩ | hSame
    · have hOrg : any = orgId :=
        hOk.apart any orgId _ (List.mem_map_of_mem hKnown)
          (id_mem hAt)
      exact absurd hId.symm (hNe hOrg)
    · exact ⟨known, hSame, hId, hRest⟩
  · intro any found hIn
    simp only [drop]
    rcases mem_of_set hOk hAt hIn with ⟨rfl, rfl⟩ | ⟨hOld, hNe⟩
    · rw [Function.update_self]
      rfl
    · rw [Function.update_of_ne hNe]
      exact hOk.closed any found hOld

theorem broadcasterOk_clear
    (hOk : BroadcasterOk s) :
    BroadcasterOk (clear s) := by
  refine broadcasterOk_of_ids hOk rfl (fun _ => rfl) ?_ ?_
    hOk.closed
  · intro any
    exact List.nodup_nil
  · intro any subscriber hIn
    exact absurd hIn List.not_mem_nil

theorem broadcasterOk_step
    (s : State)
    (event : Event)
    (hOk : BroadcasterOk s) :
    BroadcasterOk (step s event) := by
  cases event with
  | subscribe orgId isAdmin cap =>
      exact broadcasterOk_subscribe hOk orgId isAdmin cap
  | notify orgId audience payload =>
      exact broadcasterOk_notify hOk orgId audience payload
  | recv orgId n =>
      simp only [step]
      split
      · exact hOk
      · rename_i hAt
        exact broadcasterOk_recv hOk hAt
  | drop orgId n =>
      simp only [step]
      split
      · exact hOk
      · rename_i hAt
        exact broadcasterOk_drop hOk hAt
  | clear => exact broadcasterOk_clear hOk

end Sse

end SentinelCommand
