import SentinelCommand.Lib.Run
import SentinelCommand.Ws.ConnectionManager
import SentinelCommand.Ws.NodeLimiter

/-
  The receive loops of `serve_node`: each registers its
  socket, passes its messages through `MESSAGE_LIMITER`, and
  when it ends gives up its registration and then forgets the
  stamps of its node.

  The registry is guarded by the connection's id, the stamps
  are not. A loop whose socket was replaced can still take
  messages, and can end at any later time.

  Key definitions include:
    * `Ws.Sockets`, `Ws.Move`, `Ws.serveStep`
    * `Ws.WithinBudget`, `Ws.ForgetsNobody`

  Correctness is proven by:
    * `Ws.counted_serveStep`
    * `Ws.withinBudget_of_forgetsNobody`
-/

--------------------
-- Receive Loops
--------------------

namespace SentinelCommand

namespace Ws

/- `MAX_MSGS_PER_MINUTE`. -/
def maxMsgsPerMinute : Nat := 180

/- A message that the limiter let through. -/
structure Accepted where
  connectionId : Nat
  at_ : Nat
  deriving DecidableEq, Repr

/-
  The loops that serve a socket, those that have given up
  their registration, and what was accepted so far.
-/
structure Sockets where
  manager : ManagerInner
  limiter : LimiterInner
  serving : List Registration
  leaving : List Registration
  accepted : List Accepted
  clock : Nat

def Sockets.initial : Sockets where
  manager := ManagerInner.default
  limiter := LimiterInner.default
  serving := []
  leaving := []
  accepted := []
  clock := 0

/- What a socket or its loop does next. -/
inductive Move where
  | connect (nodeId : String)
  | message (connectionId : Nat)
  | disconnect (connectionId : Nat)
  | forget (connectionId : Nat)
  deriving DecidableEq, Repr

def registrationOf
    (loops : List Registration)
    (connectionId : Nat) : Option Registration :=
  loops.find? (fun loop => loop.id = connectionId)

def without
    (loops : List Registration)
    (connectionId : Nat) : List Registration :=
  loops.filter (fun loop => loop.id ≠ connectionId)

/- A message of the loop `loop`, at the clock of `s`. -/
def receive (s : Sockets) (loop : Registration) : Sockets :=
  let arrival : Arrival :=
    { nodeId := loop.nodeId, now := s.clock }
  let result := allow maxMsgsPerMinute s.limiter arrival
  { s with
    limiter := result.1
    accepted :=
      if result.2 then
        s.accepted ++
          [{ connectionId := loop.id, at_ := s.clock }]
      else
        s.accepted }

/-
  One move, some time after the one before. A loop that ends
  first calls `MANAGER.disconnect` and then
  `MESSAGE_LIMITER.forget`; others may move in between. A
  move of a loop that is not there does nothing.
-/
def moveNow (s : Sockets) : Move → Sockets
| .connect nodeId =>
    let registered := connect s.manager nodeId
    { s with
      manager := registered.1
      serving := s.serving ++ [registered.2] }
| .message connectionId =>
    match registrationOf s.serving connectionId with
    | none => s
    | some loop => receive s loop
| .disconnect connectionId =>
    match registrationOf s.serving connectionId with
    | none => s
    | some loop =>
        { s with
          manager :=
            Ws.disconnect s.manager loop.nodeId loop.id
          serving := without s.serving connectionId
          leaving := s.leaving ++ [loop] }
| .forget connectionId =>
    match registrationOf s.leaving connectionId with
    | none => s
    | some loop =>
        { s with
          limiter := Ws.forget s.limiter loop.nodeId
          leaving := without s.leaving connectionId }

def Sockets.elapse (s : Sockets) (elapsed : Nat) : Sockets :=
  { s with clock := s.clock + elapsed }

def serveStep (s : Sockets) (event : Nat × Move) : Sockets :=
  moveNow (s.elapse event.1) event.2

/- The instants of what one connection was let through. -/
def stampsOf
    (connectionId : Nat)
    (accepted : List Accepted) : List Nat :=
  (accepted.filter
    (fun message => message.connectionId = connectionId)).map
      Accepted.at_

/- No connection has more in any minute than the maximum. -/
def WithinBudget (accepted : List Accepted) : Prop :=
  ∀ connectionId start,
    ((stampsOf connectionId accepted).countP
      (fun at_ => start ≤ at_ ∧ at_ < start + window)) ≤
      maxMsgsPerMinute

/-
  A loop that forgets its node takes no stamp that counts
  for another loop: no other loop that still serves the node
  has a message accepted less than a minute ago.
-/
def ForgetsNobody (s : Sockets) (event : Nat × Move) : Prop :=
  ∀ connectionId loop,
    event.2 = .forget connectionId →
      registrationOf s.leaving connectionId = some loop →
        ∀ other ∈ s.serving, other.nodeId = loop.nodeId →
          ∀ at_ ∈ stampsOf other.id s.accepted,
            window ≤ durationSince (s.clock + event.1) at_

--------------------
-- One Arrival
--------------------

open Window

/- The stamps of every node are in order and not to come. -/
def InPast (inner : LimiterInner) (now : Nat) : Prop :=
  ∀ nodeId,
    (held inner.windows nodeId).Pairwise (· ≤ ·) ∧
      ∀ stamp ∈ held inner.windows nodeId, stamp ≤ now

/- The stamps of a node that are less than a minute old. -/
def freshStamps
    (inner : LimiterInner)
    (now : Nat)
    (nodeId : String) : List Nat :=
  lastMinute.fresh now (held inner.windows nodeId)

/- The sweep takes no fresh stamp. -/
theorem sweep_stands_for_itself
    {inner : LimiterInner}
    {now : Nat}
    (hPast : InPast inner now) :
    TableStands lastMinute now (sweep inner now).windows
      (held inner.windows) :=
  sweep_windows_stand
    (fun nodeId => ⟨(hPast nodeId).1, rfl⟩)

theorem sweep_inPast
    {inner : LimiterInner}
    {now : Nat}
    (hPast : InPast inner now) :
    InPast (sweep inner now) now := by
  intro nodeId
  unfold sweep
  split
  · exact hPast nodeId
  · have hHeld :=
      held_retain
        (fun _ stamps =>
          stamps.getLast?.any (durationSince now · < window))
        inner.windows nodeId
    rcases hHeld with hSame | ⟨hNone, _⟩
    · simp only [hSame]
      exact hPast nodeId
    · simp only [hNone]
      exact ⟨List.Pairwise.nil, List.forall_mem_nil _⟩

/- The swept table with new stamps for one node. -/
def place
    (inner : LimiterInner)
    (now : Nat)
    (nodeId : String)
    (stamps : List Nat) : LimiterInner :=
  { sweep inner now with
    windows := (sweep inner now).windows.insert nodeId stamps }

theorem freshStamps_place
    {inner : LimiterInner}
    {now : Nat}
    (hPast : InPast inner now)
    (nodeId : String)
    (stamps : List Nat)
    (other : String) :
    freshStamps (place inner now nodeId stamps) now other =
      if other = nodeId then
        lastMinute.fresh now stamps
      else
        freshStamps inner now other := by
  unfold freshStamps place
  split
  · rename_i hSame
    rw [hSame, held_insert]
  · rename_i hOther
    rw [held_insert_ne _ hOther]
    exact (sweep_stands_for_itself hPast other).fresh_eq

theorem place_inPast
    {inner : LimiterInner}
    {now : Nat}
    (hPast : InPast inner now)
    (nodeId : String)
    {stamps : List Nat}
    (hSorted : stamps.Pairwise (· ≤ ·))
    (hStamps : ∀ stamp ∈ stamps, stamp ≤ now) :
    InPast (place inner now nodeId stamps) now := by
  intro other
  unfold place
  by_cases hSame : other = nodeId
  · subst hSame
    simp only [held_insert]
    exact ⟨hSorted, hStamps⟩
  · simp only [held_insert_ne _ hSame]
    exact sweep_inPast hPast other

theorem freshStamps_past
    {inner : LimiterInner}
    {now : Nat}
    (hPast : InPast inner now)
    (nodeId : String) :
    ∀ stamp ∈ freshStamps inner now nodeId, stamp ≤ now :=
  fun stamp hStamp =>
    (hPast nodeId).2 stamp (List.mem_of_mem_filter hStamp)

theorem freshStamps_sorted
    {inner : LimiterInner}
    {now : Nat}
    (hPast : InPast inner now)
    (nodeId : String) :
    (freshStamps inner now nodeId).Pairwise (· ≤ ·) :=
  (hPast nodeId).1.filter _

theorem fresh_freshStamps
    (inner : LimiterInner)
    (now : Nat)
    (nodeId : String) :
    lastMinute.fresh now (freshStamps inner now nodeId) =
      freshStamps inner now nodeId :=
  lastMinute.fresh_fresh le_rfl _

/- What `allow` does, by the fresh stamps of the node. -/
theorem allow_cases
    (max : Nat)
    {inner : LimiterInner}
    {arrival : Arrival}
    (hPast : InPast inner arrival.now) :
    let stamps := freshStamps inner arrival.now arrival.nodeId
    (stamps.length < max ∧
        allow max inner arrival =
          (place inner arrival.now arrival.nodeId
            (stamps ++ [arrival.now]), true)) ∨
      (max ≤ stamps.length ∧
        allow max inner arrival =
          (place inner arrival.now arrival.nodeId stamps,
            false)) := by
  intro stamps
  have hKept :
      (held (sweep inner arrival.now).windows
        arrival.nodeId).dropWhile
          (durationSince arrival.now · ≥ window) = stamps :=
    (sweep_stands_for_itself hPast arrival.nodeId).trim_eq
  unfold allow allowSwept
  dsimp only
  rw [hKept]
  split
  · rename_i hFull
    exact Or.inr ⟨hFull, rfl⟩
  · rename_i hRoom
    exact Or.inl ⟨Nat.not_le.mp hRoom, rfl⟩

/-
  An arrival is let through while the fresh stamps of its
  node are fewer than the maximum; then it is one of them.
-/
theorem allow_spec
    (max : Nat)
    {inner : LimiterInner}
    {arrival : Arrival}
    (hPast : InPast inner arrival.now) :
    ((allow max inner arrival).2 = true →
        (freshStamps inner arrival.now
          arrival.nodeId).length < max) ∧
      (∀ nodeId,
        freshStamps (allow max inner arrival).1 arrival.now
            nodeId =
          if
            nodeId = arrival.nodeId ∧
              (allow max inner arrival).2 = true
          then
            freshStamps inner arrival.now nodeId ++
              [arrival.now]
          else
            freshStamps inner arrival.now nodeId) ∧
      InPast (allow max inner arrival).1 arrival.now := by
  have hSorted := freshStamps_sorted hPast arrival.nodeId
  have hBefore := freshStamps_past hPast arrival.nodeId
  rcases allow_cases max hPast with
    ⟨hRoom, hAllowed⟩ | ⟨hFull, hRefused⟩
  · rw [hAllowed]
    refine ⟨fun _ => hRoom, ?_, ?_⟩
    · intro nodeId
      rw [freshStamps_place hPast, lastMinute.fresh_append,
        fresh_freshStamps, lastMinute.fresh_self]
      by_cases hNode : nodeId = arrival.nodeId
      · simp [hNode]
      · simp [hNode]
    · apply place_inPast hPast
      · apply List.pairwise_append.mpr
        refine ⟨hSorted, List.pairwise_singleton _ _, ?_⟩
        intro stamp hStamp last hLast
        rw [List.mem_singleton.mp hLast]
        exact hBefore stamp hStamp
      · intro stamp hStamp
        rcases List.mem_append.mp hStamp with hOld | hNew
        · exact hBefore stamp hOld
        · exact le_of_eq (List.mem_singleton.mp hNew)
  · rw [hRefused]
    refine ⟨fun hAllowed => (nomatch hAllowed), ?_,
      place_inPast hPast _ hSorted hBefore⟩
    intro nodeId
    rw [freshStamps_place hPast, fresh_freshStamps]
    by_cases hNode : nodeId = arrival.nodeId
    · simp [hNode]
    · simp [hNode]

/-
  What a serving connection was let through in the last
  minute is among the fresh stamps of its node.
-/
structure Counted (s : Sockets) : Prop where
  inPast : InPast s.limiter s.clock
  known : ∀ loop ∈ s.serving, loop.id ≤ s.manager.nextId
  distinct : (s.serving.map Registration.id).Nodup
  accepted_known :
    ∀ message ∈ s.accepted,
      message.connectionId ≤ s.manager.nextId ∧
        message.at_ ≤ s.clock
  counted :
    ∀ loop ∈ s.serving,
      (lastMinute.fresh s.clock
        (stampsOf loop.id s.accepted)).Sublist
          (freshStamps s.limiter s.clock loop.nodeId)
  within : WithinBudget s.accepted

theorem counted_initial : Counted .initial where
  inPast := by
    intro nodeId
    exact ⟨List.Pairwise.nil, List.forall_mem_nil _⟩
  known := List.forall_mem_nil _
  distinct := List.nodup_nil
  accepted_known := List.forall_mem_nil _
  counted := List.forall_mem_nil _
  within := by
    intro connectionId start
    exact Nat.zero_le _

/- Time passes; what was fresh before only gets less. -/
theorem counted_elapse
    {s : Sockets}
    (hCounted : Counted s)
    (elapsed : Nat) :
    Counted (s.elapse elapsed) where
  inPast := fun nodeId =>
    ⟨(hCounted.inPast nodeId).1,
      fun stamp hStamp =>
        le_trans ((hCounted.inPast nodeId).2 stamp hStamp)
          (Nat.le_add_right _ _)⟩
  known := hCounted.known
  distinct := hCounted.distinct
  accepted_known := fun message hMessage =>
    ⟨(hCounted.accepted_known message hMessage).1,
      le_trans (hCounted.accepted_known message hMessage).2
        (Nat.le_add_right _ _)⟩
  counted := by
    intro loop hLoop
    have hLater : s.clock ≤ (s.elapse elapsed).clock :=
      Nat.le_add_right _ _
    exact
      lastMinute.fresh_sublist_of_later hLater
        (hCounted.counted loop hLoop)
  within := hCounted.within

--------------------
-- Moves
--------------------

theorem mem_of_registrationOf
    {loops : List Registration}
    {connectionId : Nat}
    {loop : Registration}
    (hLoop : registrationOf loops connectionId = some loop) :
    loop ∈ loops ∧ loop.id = connectionId := by
  exact
    ⟨List.mem_of_find?_eq_some hLoop,
      by simpa using List.find?_some hLoop⟩

@[simp]
theorem stampsOf_append_singleton
    (connectionId : Nat)
    (accepted : List Accepted)
    (message : Accepted) :
    stampsOf connectionId (accepted ++ [message]) =
      if message.connectionId = connectionId then
        stampsOf connectionId accepted ++ [message.at_]
      else
        stampsOf connectionId accepted := by
  unfold stampsOf
  split <;> rename_i hOwn <;> simp [List.filter_append, hOwn]

theorem stampsOf_eq_nil
    {connectionId : Nat}
    {accepted : List Accepted}
    (hOther :
      ∀ message ∈ accepted,
        message.connectionId ≠ connectionId) :
    stampsOf connectionId accepted = [] := by
  unfold stampsOf
  rw [List.map_eq_nil_iff, List.filter_eq_nil_iff]
  intro message hMessage
  simpa using hOther message hMessage

/- A new connection has had no message. -/
theorem counted_connect
    {s : Sockets}
    (hCounted : Counted s)
    (nodeId : String) :
    Counted (moveNow s (.connect nodeId)) := by
  have hNext :
      (connect s.manager nodeId).1.nextId =
        s.manager.nextId + 1 := by
    unfold connect
    split <;> rfl
  have hId :
      (connect s.manager nodeId).2 =
        { nodeId := nodeId, id := s.manager.nextId + 1 } := by
    rfl
  constructor
  · exact hCounted.inPast
  · intro loop hLoop
    change _ ≤ (connect s.manager nodeId).1.nextId
    rw [hNext]
    rcases List.mem_append.mp hLoop with hOld | hNew
    · exact Nat.le_succ_of_le (hCounted.known loop hOld)
    · rw [List.mem_singleton.mp hNew, hId]
  · change
      ((s.serving ++ [(connect s.manager nodeId).2]).map
        Registration.id).Nodup
    rw [List.map_append, hId]
    apply hCounted.distinct.append (List.nodup_singleton _)
    intro id hMem hNew
    obtain ⟨loop, hLoop, rfl⟩ := List.mem_map.mp hMem
    have hKnown := hCounted.known loop hLoop
    have hSame := List.mem_singleton.mp hNew
    dsimp only at hSame
    omega
  · intro message hMessage
    have hKnown := hCounted.accepted_known message hMessage
    change _ ≤ (connect s.manager nodeId).1.nextId ∧ _
    rw [hNext]
    exact ⟨Nat.le_succ_of_le hKnown.1, hKnown.2⟩
  · intro loop hLoop
    rcases List.mem_append.mp hLoop with hOld | hNew
    · exact hCounted.counted loop hOld
    · have hNone :
          stampsOf loop.id s.accepted = [] := by
        apply stampsOf_eq_nil
        intro message hMessage hSame
        have hKnown :=
          (hCounted.accepted_known message hMessage).1
        rw [hSame, List.mem_singleton.mp hNew, hId] at hKnown
        dsimp only at hKnown
        omega
      change
        (lastMinute.fresh s.clock
          (stampsOf loop.id s.accepted)).Sublist _
      rw [hNone]
      exact List.nil_sublist _
  · exact hCounted.within

/- A loop that leaves has no budget to keep. -/
theorem counted_disconnect
    {s : Sockets}
    (hCounted : Counted s)
    (connectionId : Nat) :
    Counted (moveNow s (.disconnect connectionId)) := by
  unfold moveNow
  dsimp only
  cases hLoop : registrationOf s.serving connectionId with
  | none =>
      exact hCounted
  | some loop =>
      have hNext :
          (Ws.disconnect s.manager loop.nodeId
            loop.id).nextId = s.manager.nextId := by
        unfold Ws.disconnect
        split <;> rfl
      constructor
      · exact hCounted.inPast
      · intro other hOther
        change _ ≤ (Ws.disconnect _ _ _).nextId
        rw [hNext]
        exact
          hCounted.known other (List.mem_of_mem_filter hOther)
      · exact
          hCounted.distinct.sublist
            (List.filter_sublist.map Registration.id)
      · intro message hMessage
        change _ ≤ (Ws.disconnect _ _ _).nextId ∧ _
        rw [hNext]
        exact hCounted.accepted_known message hMessage
      · intro other hOther
        exact
          hCounted.counted other
            (List.mem_of_mem_filter hOther)
      · exact hCounted.within

/- The stamps that go count for no serving connection. -/
theorem counted_forget
    {s : Sockets}
    (hCounted : Counted s)
    (connectionId : Nat)
    (hNobody : ForgetsNobody s (0, .forget connectionId)) :
    Counted (moveNow s (.forget connectionId)) := by
  unfold moveNow
  dsimp only
  cases hLoop : registrationOf s.leaving connectionId with
  | none =>
      exact hCounted
  | some loop =>
      constructor
      · intro nodeId
        change
          (held (s.limiter.windows.erase loop.nodeId)
              nodeId).Pairwise (· ≤ ·) ∧
            ∀ stamp ∈
              held (s.limiter.windows.erase loop.nodeId) nodeId,
              stamp ≤ s.clock
        by_cases hSame : nodeId = loop.nodeId
        · rw [hSame, held_erase]
          exact ⟨List.Pairwise.nil, List.forall_mem_nil _⟩
        · rw [held_erase_ne _ hSame]
          exact hCounted.inPast nodeId
      · exact hCounted.known
      · exact hCounted.distinct
      · exact hCounted.accepted_known
      · intro other hOther
        have hBefore := hCounted.counted other hOther
        change
          (lastMinute.fresh s.clock
            (stampsOf other.id s.accepted)).Sublist
            (lastMinute.fresh s.clock
              (held (s.limiter.windows.erase loop.nodeId)
                other.nodeId))
        by_cases hSame : other.nodeId = loop.nodeId
        · have hOld :
              lastMinute.fresh s.clock
                (stampsOf other.id s.accepted) = [] := by
            apply List.filter_eq_nil_iff.mpr
            intro stamp hStamp
            have hMinute :=
              hNobody connectionId loop rfl hLoop other hOther
                hSame stamp hStamp
            have hNotFresh :=
              (not_congr
                (old_eq_false_iff s.clock stamp)).mpr
                (Nat.not_lt.mpr hMinute)
            simpa using hNotFresh
          rw [hOld]
          exact List.nil_sublist _
        · rw [held_erase_ne _ hSame]
          exact hBefore
      · exact hCounted.within

/- One more message of a connection with room for it. -/
theorem withinBudget_append
    {accepted : List Accepted}
    (hWithin : WithinBudget accepted)
    {message : Accepted}
    (hRoom :
      (lastMinute.fresh message.at_
        (stampsOf message.connectionId accepted)).length <
          maxMsgsPerMinute) :
    WithinBudget (accepted ++ [message]) := by
  intro connectionId start
  have hBefore := hWithin connectionId start
  rw [stampsOf_append_singleton]
  split
  · rename_i hOwn
    subst hOwn
    rw [List.countP_append]
    by_cases hInside :
      start ≤ message.at_ ∧ message.at_ < start + window
    · have hFresh :
          (stampsOf message.connectionId accepted).countP
              (fun at_ =>
                start ≤ at_ ∧ at_ < start + window) ≤
            (lastMinute.fresh message.at_
              (stampsOf message.connectionId
                accepted)).length := by
        unfold Cutoff.fresh
        rw [← List.countP_eq_length_filter]
        apply List.countP_mono_left
        intro stamp _ hStamp
        have hRecent :
            durationSince message.at_ stamp < window := by
          rw [decide_eq_true_eq] at hStamp
          unfold durationSince
          omega
        rw [(old_eq_false_iff _ _).mpr hRecent]
        rfl
      have hOne := List.countP_le_length
        (p := fun at_ : Nat =>
          decide (start ≤ at_ ∧ at_ < start + window))
        (l := [message.at_])
      rw [List.length_singleton] at hOne
      omega
    · have hNone :
          [message.at_].countP
            (fun at_ => start ≤ at_ ∧ at_ < start + window) =
              0 := by
        simpa using hInside
      omega
  · exact hBefore

/- Of two loops with one id there is only one. -/
theorem eq_of_id_eq
    {s : Sockets}
    (hCounted : Counted s)
    {loop other : Registration}
    (hLoop : loop ∈ s.serving)
    (hOther : other ∈ s.serving)
    (hSame : loop.id = other.id) :
    loop = other :=
  List.inj_on_of_nodup_map hCounted.distinct hLoop hOther hSame

/- A refused message leaves every count as it is. -/
theorem counted_refused
    {s : Sockets}
    (hCounted : Counted s)
    {limiter : LimiterInner}
    (hPast : InPast limiter s.clock)
    (hFresh :
      ∀ nodeId,
        freshStamps limiter s.clock nodeId =
          freshStamps s.limiter s.clock nodeId) :
    Counted { s with limiter := limiter } where
  inPast := hPast
  known := hCounted.known
  distinct := hCounted.distinct
  accepted_known := hCounted.accepted_known
  counted := by
    intro other hOther
    change List.Sublist _ (freshStamps limiter s.clock _)
    rw [hFresh]
    exact hCounted.counted other hOther
  within := hCounted.within

/- An accepted one is counted for its loop and its node. -/
theorem counted_accepted
    {s : Sockets}
    (hCounted : Counted s)
    {loop : Registration}
    (hLoop : loop ∈ s.serving)
    {limiter : LimiterInner}
    (hPast : InPast limiter s.clock)
    (hRoom :
      (freshStamps s.limiter s.clock loop.nodeId).length <
        maxMsgsPerMinute)
    (hFresh :
      ∀ nodeId,
        freshStamps limiter s.clock nodeId =
          if nodeId = loop.nodeId then
            freshStamps s.limiter s.clock nodeId ++ [s.clock]
          else
            freshStamps s.limiter s.clock nodeId) :
    Counted
      { s with
        limiter := limiter
        accepted :=
          s.accepted ++
            [{ connectionId := loop.id, at_ := s.clock }] } where
  inPast := hPast
  known := hCounted.known
  distinct := hCounted.distinct
  accepted_known := by
    intro message hMessage
    rcases List.mem_append.mp hMessage with hOld | hNew
    · exact hCounted.accepted_known message hOld
    · rw [List.mem_singleton.mp hNew]
      exact ⟨hCounted.known loop hLoop, le_rfl⟩
  counted := by
    intro other hOther
    have hBefore := hCounted.counted other hOther
    change
      (lastMinute.fresh s.clock
        (stampsOf other.id
          (s.accepted ++
            [{ connectionId := loop.id,
               at_ := s.clock }]))).Sublist
        (freshStamps limiter s.clock other.nodeId)
    rw [stampsOf_append_singleton, hFresh]
    by_cases hSame : loop.id = other.id
    · have hLoops := eq_of_id_eq hCounted hLoop hOther hSame
      subst hLoops
      rw [if_pos rfl, if_pos rfl, lastMinute.fresh_append,
        lastMinute.fresh_self]
      exact hBefore.append_right _
    · rw [if_neg hSame]
      split
      · exact hBefore.trans (List.sublist_append_left _ _)
      · exact hBefore
  within := by
    apply withinBudget_append hCounted.within
    exact
      lt_of_le_of_lt (hCounted.counted loop hLoop).length_le
        hRoom

theorem counted_receive
    {s : Sockets}
    (hCounted : Counted s)
    {loop : Registration}
    (hLoop : loop ∈ s.serving) :
    Counted (receive s loop) := by
  let arrival : Arrival :=
    { nodeId := loop.nodeId, now := s.clock }
  have hInPast : InPast s.limiter arrival.now :=
    hCounted.inPast
  obtain ⟨hRoom, hFresh, hPast⟩ :=
    allow_spec maxMsgsPerMinute hInPast
  unfold receive
  dsimp only
  cases hAllowed :
    (allow maxMsgsPerMinute s.limiter arrival).2 with
  | false =>
      rw [hAllowed] at hFresh
      rw [if_neg (by simp)]
      apply counted_refused hCounted hPast
      intro nodeId
      simpa using hFresh nodeId
  | true =>
      rw [hAllowed] at hFresh
      rw [if_pos rfl]
      apply
        counted_accepted hCounted hLoop hPast
          (hRoom hAllowed)
      intro nodeId
      simpa using hFresh nodeId

/- Every step that forgets nobody keeps the counts. -/
theorem counted_serveStep
    (s : Sockets)
    (event : Nat × Move)
    (hCounted : Counted s)
    (hNobody : ForgetsNobody s event) :
    Counted (serveStep s event) := by
  obtain ⟨elapsed, move⟩ := event
  have hLater := counted_elapse hCounted elapsed
  unfold serveStep
  cases move with
  | connect nodeId =>
      exact counted_connect hLater nodeId
  | message connectionId =>
      unfold moveNow
      dsimp only
      cases hLoop :
        registrationOf (s.elapse elapsed).serving
          connectionId with
      | none =>
          exact hLater
      | some loop =>
          exact
            counted_receive hLater
              (mem_of_registrationOf hLoop).1
  | disconnect connectionId =>
      exact counted_disconnect hLater connectionId
  | forget connectionId =>
      apply counted_forget hLater connectionId
      intro other loop hSame hLoop
      exact hNobody other loop hSame hLoop

/-
  In any run in which no loop, when it forgets its node,
  takes stamps of the last minute from another connection of
  it, every connection stays within its budget.
-/
theorem withinBudget_of_forgetsNobody
    (events : List (Nat × Move))
    (hMeets :
      Run.Meets serveStep ForgetsNobody .initial events) :
    ∀ past, past <+: events →
      WithinBudget
        (Run.exec serveStep .initial past).accepted := by
  intro past hPrefix
  exact
    (Run.invariant_of_prefix counted_serveStep
      counted_initial hMeets hPrefix).within

/- A step that forgets no node forgets nobody. -/
theorem forgetsNobody_of_ne
    {s : Sockets}
    {event : Nat × Move}
    (hMove : ∀ connectionId, event.2 ≠ .forget connectionId) :
    ForgetsNobody s event :=
  fun connectionId _ hForget =>
    absurd hForget (hMove connectionId)

/- An old loop that ends before the new one has a message. -/
theorem withinBudget_of_earlyExit :
    WithinBudget
      (Run.exec serveStep .initial
        [ (0, .connect "node"), (0, .message 1),
          (5, .connect "node"), (0, .disconnect 1),
          (0, .forget 1), (0, .message 2) ]).accepted := by
  apply withinBudget_of_forgetsNobody _ _ _
    (List.prefix_refl _)
  refine
    ⟨forgetsNobody_of_ne (by simp),
      forgetsNobody_of_ne (by simp),
      forgetsNobody_of_ne (by simp),
      forgetsNobody_of_ne (by simp), ?_,
      forgetsNobody_of_ne (by simp), trivial⟩
  intro connectionId loop hForget hLoop other hOther _ at_ hStamp
  have hSecond : other = { nodeId := "node", id := 2 } :=
    List.mem_singleton.mp hOther
  rw [hSecond] at hStamp
  exact absurd hStamp List.not_mem_nil

--------------------
-- A Late Exit
--------------------

/- A message of a loop whose node has room is accepted. -/
theorem serveStep_message_of_room
    {s : Sockets}
    {connectionId : Nat}
    {loop : Registration}
    (hLoop :
      registrationOf s.serving connectionId = some loop)
    (hPast : InPast s.limiter s.clock)
    (hRoom :
      (freshStamps s.limiter s.clock loop.nodeId).length <
        maxMsgsPerMinute) :
    ∃ limiter,
      serveStep s (0, .message connectionId) =
          { s with
            limiter := limiter
            accepted :=
              s.accepted ++
                [{ connectionId, at_ := s.clock }] } ∧
        InPast limiter s.clock ∧
        (freshStamps limiter s.clock loop.nodeId).length =
          (freshStamps s.limiter s.clock
            loop.nodeId).length + 1 := by
  let arrival : Arrival :=
    { nodeId := loop.nodeId, now := s.clock }
  have hInPast : InPast s.limiter arrival.now := hPast
  have hId := (mem_of_registrationOf hLoop).2
  have hAllowed :
      (allow maxMsgsPerMinute s.limiter arrival).2 = true := by
    rcases allow_cases maxMsgsPerMinute hInPast with
      ⟨_, hAllow⟩ | ⟨hFull, _⟩
    · rw [hAllow]
    · exact absurd hRoom (Nat.not_lt.mpr hFull)
  obtain ⟨_, hFresh, hAfter⟩ :=
    allow_spec maxMsgsPerMinute hInPast
  refine
    ⟨(allow maxMsgsPerMinute s.limiter arrival).1, ?_,
      hAfter, ?_⟩
  · change
      (match registrationOf s.serving connectionId with
        | none => s
        | some loop => receive s loop) = _
    rw [hLoop]
    dsimp only
    unfold receive
    dsimp only
    rw [if_pos hAllowed, hId]
  · have hOne := hFresh loop.nodeId
    rw [if_pos ⟨rfl, hAllowed⟩] at hOne
    change
      (freshStamps _ arrival.now loop.nodeId).length = _
    rw [hOne, List.length_append]
    rfl

/- So a node with room for `count` messages has them all. -/
theorem exec_messages
    {connectionId : Nat}
    {loop : Registration}
    (count : Nat)
    {s : Sockets}
    (hLoop :
      registrationOf s.serving connectionId = some loop)
    (hPast : InPast s.limiter s.clock)
    (hRoom :
      (freshStamps s.limiter s.clock loop.nodeId).length +
        count ≤ maxMsgsPerMinute) :
    ∃ limiter,
      Run.exec serveStep s
          (List.replicate count (0, .message connectionId)) =
        { s with
          limiter := limiter
          accepted :=
            s.accepted ++
              List.replicate count
                { connectionId, at_ := s.clock } } ∧
        InPast limiter s.clock := by
  induction count generalizing s with
  | zero =>
      exact ⟨s.limiter, by simp [Run.exec], hPast⟩
  | succ count ih =>
      obtain ⟨limiter, hStep, hAfter, hLength⟩ :=
        serveStep_message_of_room hLoop hPast (by omega)
      rw [List.replicate_succ, Run.exec_cons, hStep]
      obtain ⟨last, hRest, hLast⟩ :=
        ih
          (s :=
            { s with
              limiter := limiter
              accepted :=
                s.accepted ++
                  [{ connectionId, at_ := s.clock }] })
          hLoop hAfter (by simp only [hLength]; omega)
      refine ⟨last, ?_, hLast⟩
      rw [hRest]
      simp [List.replicate_succ]

/- A node that reconnects, then its old loop ends. -/
def lateExit : List (Nat × Move) :=
  [(0, .connect "node"), (0, .connect "node")] ++
    List.replicate 180 (0, .message 2) ++
    [(0, .disconnect 1), (0, .forget 1)] ++
    List.replicate 180 (0, .message 2)

theorem forget_inPast
    {inner : LimiterInner}
    {now : Nat}
    (hPast : InPast inner now)
    (nodeId : String) :
    InPast (forget inner nodeId) now := by
  intro other
  unfold forget
  dsimp only
  by_cases hSame : other = nodeId
  · rw [hSame, held_erase]
    exact ⟨List.Pairwise.nil, List.forall_mem_nil _⟩
  · rw [held_erase_ne _ hSame]
    exact hPast other

theorem freshStamps_forget
    (inner : LimiterInner)
    (now : Nat)
    (nodeId : String) :
    freshStamps (forget inner nodeId) now nodeId = [] := by
  unfold freshStamps forget
  rw [held_erase]
  rfl

/- The new connection has its budget twice in one minute. -/
theorem accepted_lateExit :
    (Run.exec serveStep .initial lateExit).accepted =
      List.replicate 360 { connectionId := 2, at_ := 0 } := by
  let twice :=
    Run.exec serveStep .initial
      [(0, .connect "node"), (0, .connect "node")]
  have hTwice : InPast twice.limiter twice.clock := by
    intro nodeId
    exact ⟨List.Pairwise.nil, List.forall_mem_nil _⟩
  have hServing :
      registrationOf twice.serving 2 =
        some { nodeId := "node", id := 2 } := by
    decide
  obtain ⟨limiter, hFirst, hFull⟩ :=
    exec_messages 180 hServing hTwice (by decide)
  let exited :=
    Run.exec serveStep
      { twice with
        limiter := limiter
        accepted :=
          List.replicate 180 { connectionId := 2, at_ := 0 } }
      [(0, .disconnect 1), (0, .forget 1)]
  have hForgotten : exited.limiter = forget limiter "node" := by
    rfl
  have hExited : InPast exited.limiter exited.clock := by
    rw [hForgotten]
    exact forget_inPast hFull "node"
  have hStillServing :
      registrationOf exited.serving 2 =
        some { nodeId := "node", id := 2 } := by
    rfl
  have hRoom :
      (freshStamps exited.limiter exited.clock
        "node").length + 180 ≤ maxMsgsPerMinute := by
    rw [hForgotten, freshStamps_forget]
    decide
  obtain ⟨last, hSecond, _⟩ :=
    exec_messages 180 hStillServing hExited hRoom
  unfold lateExit
  rw [Run.exec_append, Run.exec_append, Run.exec_append,
    hFirst]
  change
    (Run.exec serveStep exited
      (List.replicate 180 (0, .message 2))).accepted = _
  rw [hSecond]
  change
    List.replicate 180 _ ++ List.replicate 180 _ =
      List.replicate 360 _
  exact List.replicate_append_replicate

/- That many messages of one instant are in one minute. -/
theorem countP_stampsOf_replicate
    (count connectionId at_ : Nat) :
    (stampsOf connectionId
      (List.replicate count { connectionId, at_ })).countP
        (fun stamp => at_ ≤ stamp ∧ stamp < at_ + window) =
      count := by
  simp [stampsOf, List.countP_replicate, window]

theorem not_withinBudget_lateExit :
    ¬WithinBudget
      (Run.exec serveStep .initial lateExit).accepted := by
  intro hWithin
  have hTwice := hWithin 2 0
  rw [accepted_lateExit, countP_stampsOf_replicate] at hTwice
  exact absurd hTwice (by decide)

end Ws

end SentinelCommand
