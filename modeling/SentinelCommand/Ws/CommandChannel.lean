import SentinelCommand.Ws.ChannelRules

/-
  The command channel over whole runs.

  A run is a list of the manager's operations, taken in any
  order by any nodes and callers. Whatever the order, the
  registry reports the nodes by the time their uninterrupted
  registration began, the id of a replaced socket is dead,
  and a command has at most one answer, from its own node,
  and none at all once its socket is gone.

  Main declarations:
    * `RegisteredSince`, `Receives`, `AnsweredAt`
    * `OrderFollows`, `AnsweredOnce`, `FailsOnceLost`
    * `command_channel`
-/

--------------------
-- Runs
--------------------

namespace SentinelCommand

namespace Ws

def final (events : List Event) : State :=
  Run.exec step initial events

def stateAt (events : List Event) (i : Nat) : State :=
  Run.stateAt step initial events i

def Connected (nodeId : String) (s : State) : Prop :=
  isConnected s.inner nodeId = true

/-
  The event at `i` is the `connect` with which the node's
  current registration began: it has been a key since.
-/
def RegisteredSince
    (events : List Event)
    (nodeId : String)
    (i : Nat) : Prop :=
  events[i]? = some (.connect nodeId) ∧
    Run.HeldSince step initial events (Connected nodeId) i

structure OrderFollows (events : List Event) : Prop where
  keys :
    ∀ nodeId, nodeId ∈ connectedNodes (final events).inner ↔
      isConnected (final events).inner nodeId = true
  nodup : (connectedNodes (final events).inner).Nodup
  began :
    ∀ nodeId ∈ connectedNodes (final events).inner,
      ∃! i, RegisteredSince events nodeId i
  ordered :
    (connectedNodes (final events).inner).Pairwise
      (fun first second =>
        ∀ i j, RegisteredSince events first i →
          RegisteredSince events second j → i < j)

/- The handle the `connect` at `i` returned. -/
def registrationAt
    (events : List Event)
    (i : Nat)
    (nodeId : String) : Registration :=
  (connect (stateAt events i).inner nodeId).2

/- What the one-shot channel of a call holds. -/
def channel (k : Nat) (s : State) : Option Json :=
  (s.calls[k]?).bind Call.answer

def outcomeOf (k : Nat) (s : State) : Option Outcome :=
  (s.calls[k]?).bind Call.outcome

/- The event at `i` puts a value in the channel. -/
def Receives
    (events : List Event)
    (k i : Nat)
    (value : Json) : Prop :=
  channel k (stateAt events i) ≠ some value ∧
    channel k (stateAt events (i + 1)) = some value

/-
  The event at `i` is a `command_result` with the call's id,
  from the call's node, and the call is pending then.
-/
structure AnsweredAt
    (events : List Event)
    (k : Nat)
    (call : Call)
    (i : Nat)
    (value : Json) : Prop where
  result :
    events[i]? =
      some
        (.resolveCommand call.correlationId call.nodeId value)
  pending :
    (stateAt events i).inner.pending call.correlationId =
      some { nodeId := call.nodeId, answer := k }

structure AnsweredOnce
    (events : List Event)
    (k : Nat)
    (call : Call) : Prop where
  sources :
    ∀ i value, Receives events k i value →
      AnsweredAt events k call i value
  once :
    ∀ i j value other, Receives events k i value →
      Receives events k j other → i = j
  outcome :
    ∀ value, call.outcome = some (.ok value) →
      ∃ i, Receives events k i value
  settled :
    ∀ i outcome, outcomeOf k (stateAt events i) = some outcome →
      call.outcome = some outcome

/- The event at `i` ends the socket the call went to. -/
def LosesSocket
    (events : List Event)
    (call : Call)
    (i : Nat) : Prop :=
  ∃ id, call.connectionId = some id ∧
    owns (stateAt events i).inner call.nodeId id = true ∧
    owns (stateAt events (i + 1)).inner call.nodeId id = false

/-
  Without its socket a command gets no answer from anywhere.
  If it has an outcome it is an error, if it waits it fails
  when it is next looked at, and if it fails to send that
  touches no newer socket.
-/
structure FailsOnceLost
    (events : List Event)
    (k : Nat)
    (call : Call) : Prop where
  unanswered : ∀ i value, ¬ Receives events k i value
  error :
    ∀ outcome, call.outcome = some outcome →
      ∃ error, outcome = .error error ∧
        error.node = call.nodeId
  fails :
    call.stage = .waiting →
      (step (final events) (.turn k .received)).calls[k]? =
        some
          { call with
            stage :=
              .leaving
                (.error
                  (.disconnected call.nodeId call.command)) }
  guarded :
    (step (final events) (.turn k .sendFailed)).inner =
      (final events).inner

--------------------
-- States along a Run
--------------------

variable {events : List Event}
variable {k i j : Nat}
variable {call : Call}

theorem final_eq : final events = stateAt events events.length :=
  Run.stateAt_length.symm

theorem channelOk_stateAt
    (events : List Event)
    (i : Nat) :
    ChannelOk (stateAt events i) :=
  Run.invariant_stateAt channelOk_step channelOk_initial i

theorem channelOk_final (events : List Event) :
    ChannelOk (final events) :=
  Run.invariant_exec channelOk_step events channelOk_initial

/- Later in a run, a call is the same one further on. -/
theorem call_later
    (hLe : i ≤ j)
    (hCall : (stateAt events i).calls[k]? = some call) :
    ∃ answer stage,
      (stateAt events j).calls[k]? =
        some { call with answer := answer, stage := stage } := by
  refine
    Run.stays
      (P := fun s => ∃ answer stage,
        s.calls[k]? =
          some { call with answer := answer, stage := stage })
      channelOk_step ?_ channelOk_initial hLe
      ⟨call.answer, call.stage, hCall⟩
  rintro s event - ⟨answer, stage, hNow⟩
  rcases step_call event hNow with ⟨answer', stage', hNext, -⟩
  exact ⟨answer', stage', hNext⟩

/- What a channel holds it keeps. -/
theorem channel_later
    {value : Json}
    (hLe : i ≤ j)
    (hHolds : channel k (stateAt events i) = some value) :
    channel k (stateAt events j) = some value := by
  refine
    Run.stays
      (P := fun s => channel k s = some value)
      channelOk_step ?_ channelOk_initial hLe hHolds
  intro s event hOk hNow
  rcases Option.bind_eq_some_iff.mp hNow with
    ⟨call, hCall, hAnswer⟩
  rcases step_call event hCall with
    ⟨answer, stage, hNext, hKept | ⟨_, -, hAnswers⟩, -⟩
  · rw [channel, hNext, Option.bind_some]
    exact hKept.trans hAnswer
  · rw [unanswered_of_answers hOk hAnswers hCall] at hAnswer
    contradiction

theorem outcome_later
    {outcome : Outcome}
    (hLe : i ≤ j)
    (hSettled : outcomeOf k (stateAt events i) = some outcome) :
    outcomeOf k (stateAt events j) = some outcome := by
  refine
    Run.stays
      (P := fun s => outcomeOf k s = some outcome)
      channelOk_step ?_ channelOk_initial hLe hSettled
  intro s event hOk hNow
  rcases Option.bind_eq_some_iff.mp hNow with
    ⟨call, hCall, hOutcome⟩
  rcases step_call event hCall with
    ⟨answer, stage, hNext, -, hSame | ⟨hNone, -⟩⟩
  · rw [outcomeOf, hNext, Option.bind_some]
    exact hSame.trans hOutcome
  · rw [Call.outcome, hNone] at hOutcome
    contradiction

/- An id that owns nothing any more never owns again. -/
theorem lost_later
    {nodeId : String}
    {id : Nat}
    (hLe : i ≤ j)
    (hIssued : id ≤ (stateAt events i).inner.nextId)
    (hLost :
      owns (stateAt events i).inner nodeId id = false) :
    owns (stateAt events j).inner nodeId id = false := by
  suffices hBoth :
      id ≤ (stateAt events j).inner.nextId ∧
        owns (stateAt events j).inner nodeId id = false from
    hBoth.2
  refine
    Run.stays
      (P := fun s =>
        id ≤ s.inner.nextId ∧ owns s.inner nodeId id = false)
      channelOk_step ?_ channelOk_initial hLe
      ⟨hIssued, hLost⟩
  rintro s event - ⟨hLeId, hNot⟩
  refine ⟨Nat.le_trans hLeId (nextId_step s event), ?_⟩
  by_contra hOwns
  rw [Bool.not_eq_false] at hOwns
  rw [owns_step hLeId hOwns] at hNot
  contradiction

--------------------
-- The Order
--------------------

variable {s : State}
variable {event : Event}
variable {nodeId : String}

/- Only its own `connect` registers a node. -/
theorem connect_of_connected
    (hBefore : ¬ Connected nodeId s)
    (hNow : Connected nodeId (step s event)) :
    event = .connect nodeId := by
  unfold Connected isConnected at hBefore hNow
  rcases step_registry s event with
    ⟨other, hEvent, hInner⟩ | ⟨other, id, hInner⟩ |
      ⟨hConnections, -, -⟩
  · rw [hInner, connections_connect,
      Function.update_apply] at hNow
    split at hNow
    · rename_i hIs
      rw [hEvent, hIs]
    · exact absurd hNow hBefore
  · rw [hInner, connections_disconnect] at hNow
    split at hNow
    · rw [Function.update_apply] at hNow
      split at hNow
      · contradiction
      · exact absurd hNow hBefore
    · exact absurd hNow hBefore
  · rw [hConnections] at hNow
    exact absurd hNow hBefore

/-
  The order keeps its nodes in place, and at most one node
  joins it, at the end.
-/
theorem step_order
    (s : State)
    (event : Event) :
    (step s event).inner.order.Sublist s.inner.order ∨
      ∃ nodeId, ¬ Connected nodeId s ∧
        (step s event).inner.order =
          s.inner.order ++ [nodeId] := by
  rcases step_registry s event with
    ⟨other, -, hInner⟩ | ⟨other, id, hInner⟩ |
      ⟨-, hOrder, -⟩
  · rw [hInner, order_connect]
    cases hConnected : isConnected s.inner other with
    | true => exact Or.inl (List.Sublist.refl _)
    | false =>
        refine Or.inr ⟨other, ?_, rfl⟩
        rw [Connected, hConnected]
        exact Bool.false_ne_true
  · left
    rw [hInner, order_disconnect]
    split
    · exact List.filter_sublist
    · exact List.Sublist.refl _
  · exact Or.inl (hOrder ▸ List.Sublist.refl _)

theorem not_connected_initial (nodeId : String) :
    ¬ Connected nodeId initial := by
  simp [Connected, initial, isConnected,
    ManagerInner.default]

theorem connected_of_mem
    (hMember : nodeId ∈ (final events).inner.order) :
    Connected nodeId (final events) :=
  ((channelOk_final events).registry.keys nodeId).mp hMember

/- By induction on the run, from its end. -/
theorem order_began (events : List Event) :
    (final events).inner.order.Pairwise
      (fun first second =>
        Run.BeganBefore step initial events
          (Connected first) (Connected second)) := by
  induction events using List.reverseRecOn with
  | nil => exact List.Pairwise.nil
  | append_singleton events event ih =>
      have hNext :
          final (events ++ [event]) =
            step (final events) event :=
        Run.exec_append step initial events [event]
      have hKept
          {first second : String}
          (hFirst :
            first ∈ (final (events ++ [event])).inner.order)
          (hSecond :
            second ∈ (final (events ++ [event])).inner.order)
          (hBefore :
            Run.BeganBefore step initial events
              (Connected first) (Connected second)) :
          Run.BeganBefore step initial (events ++ [event])
            (Connected first) (Connected second) :=
        Run.beganBefore_kept hBefore
          (connected_of_mem hFirst) (connected_of_mem hSecond)
      rcases step_order (final events) event with
        hShrinks | ⟨nodeId, hFresh, hGrows⟩
      · rw [← hNext] at hShrinks
        exact (ih.sublist hShrinks).imp_of_mem hKept
      · rw [← hNext] at hGrows
        have hMember
            {other : String}
            (hOther : other ∈ (final events).inner.order) :
            other ∈ (final (events ++ [event])).inner.order := by
          rw [hGrows]
          exact List.mem_append_left _ hOther
        have hLast :
            nodeId ∈ (final (events ++ [event])).inner.order := by
          rw [hGrows]
          exact List.mem_append_right _ List.mem_cons_self
        rw [hGrows]
        refine List.pairwise_append.mpr
          ⟨?_, List.pairwise_singleton _ _, ?_⟩
        · exact ih.imp_of_mem
            (fun hFirst hSecond =>
              hKept (hMember hFirst) (hMember hSecond))
        · intro first hFirst second hSecond
          rcases List.mem_singleton.mp hSecond with rfl
          exact Run.beganBefore_last
            (not_connected_initial first)
            (connected_of_mem hFirst)
            (connected_of_mem (hMember hFirst))
            hFresh (connected_of_mem hLast)

/- What held since an event began with a `connect`. -/
theorem registeredSince_of_held
    {i : Nat}
    (hSince :
      Run.HeldSince step initial events
        (Connected nodeId) i) :
    RegisteredSince events nodeId i := by
  refine ⟨?_, hSince⟩
  have hAction := List.getElem?_eq_getElem hSince.inside
  have hNow := hSince.since (i + 1) (Nat.lt_succ_self i)
    hSince.inside
  rw [Run.stateAt_succ hAction] at hNow
  rw [hAction, connect_of_connected hSince.before hNow]

theorem orderFollows (events : List Event) :
    OrderFollows events where
  keys := (channelOk_final events).registry.keys
  nodup := (channelOk_final events).registry.nodup
  began := by
    intro nodeId hMember
    rcases Run.existsUnique_heldSince
      (not_connected_initial nodeId)
      (connected_of_mem hMember) with ⟨i, hSince, hOnly⟩
    exact
      ⟨i, registeredSince_of_held hSince,
        fun j hOther => hOnly j hOther.2⟩
  ordered := by
    refine (order_began events).imp ?_
    intro first second hBefore i j hFirst hSecond
    exact Run.lt_of_beganBefore hBefore hFirst.2 hSecond.2

variable {i j : Nat}

theorem stateAt_connect
    (hConnect : events[i]? = some (.connect nodeId)) :
    (stateAt events (i + 1)).inner =
      (connect (stateAt events i).inner nodeId).1 := by
  rw [stateAt, Run.stateAt_succ hConnect]
  rfl

theorem issued_later
    (hLe : i ≤ j) :
    (stateAt events i).inner.nextId ≤
      (stateAt events j).inner.nextId :=
  Run.stays
    (P := fun s =>
      (stateAt events i).inner.nextId ≤ s.inner.nextId)
    channelOk_step
    (fun s event _ hLe =>
      Nat.le_trans hLe (nextId_step s event))
    channelOk_initial hLe (Nat.le_refl _)

/- The second `connect` of a node retires the first. -/
theorem retired_of_connects
    (hFirst : events[i]? = some (.connect nodeId))
    (hSecond : events[j]? = some (.connect nodeId))
    (hLt : i < j) :
    owns (final events).inner nodeId
      (registrationAt events i nodeId).id = false := by
  have hInside := (List.getElem?_eq_some_iff.mp hSecond).1
  have hId :
      (registrationAt events i nodeId).id =
        (stateAt events (i + 1)).inner.nextId := by
    rw [stateAt_connect hFirst, nextId_connect]
    rfl
  have hIssued :
      (registrationAt events i nodeId).id ≤
        (stateAt events j).inner.nextId := by
    rw [hId]
    exact issued_later hLt
  have hLost :
      owns (stateAt events (j + 1)).inner nodeId
        (registrationAt events i nodeId).id = false := by
    rw [stateAt_connect hSecond, owns, connections_connect,
      Function.update_self, Option.any_some,
      beq_eq_false_iff_ne]
    exact Nat.ne_of_gt (Nat.lt_succ_of_le hIssued)
  rw [final_eq]
  refine lost_later hInside ?_ hLost
  exact Nat.le_trans hIssued (issued_later (Nat.le_succ j))

theorem disconnect_retired
    (hFirst : events[i]? = some (.connect nodeId))
    (hSecond : events[j]? = some (.connect nodeId))
    (hLt : i < j) :
    step (final events)
        (.disconnect nodeId
          (registrationAt events i nodeId).id) =
      final events := by
  rw [step, disconnect_of_not_owns
    (retired_of_connects hFirst hSecond hLt)]

--------------------
-- Answers
--------------------

variable {value : Json}

theorem call_at_end
    (hCall : (final events).calls[k]? = some call) :
    (stateAt events events.length).calls[k]? = some call := by
  rwa [← final_eq]

/-
  A call seen during the run is the one seen at its end, up
  to its channel and how far it came.
-/
theorem same_command
    {before : Call}
    (hCall : (final events).calls[k]? = some call)
    (hBefore : (stateAt events i).calls[k]? = some before) :
    before.correlationId = call.correlationId ∧
      before.nodeId = call.nodeId ∧
      before.connectionId = call.connectionId := by
  by_cases hLe : i ≤ events.length
  · rcases call_later hLe hBefore with ⟨answer, stage, hNow⟩
    rw [call_at_end hCall] at hNow
    rcases Option.some.inj hNow with rfl
    exact ⟨rfl, rfl, rfl⟩
  · rw [stateAt,
      Run.stateAt_of_length_le (Nat.le_of_not_le hLe)]
      at hBefore
    rcases Option.some.inj (hCall.symm.trans hBefore) with rfl
    exact ⟨rfl, rfl, rfl⟩

/- Where a value came from. -/
theorem answers_of_receives
    (hReceives : Receives events k i value) :
    ∃ event, events[i]? = some event ∧
      Answers (stateAt events i) event k value := by
  rcases hReceives with ⟨hBefore, hAfter⟩
  cases hEvent : events[i]? with
  | none =>
      rw [stateAt, Run.stateAt_succ_of_none hEvent] at hAfter
      exact absurd hAfter hBefore
  | some event =>
      refine ⟨event, rfl, ?_⟩
      rw [stateAt, Run.stateAt_succ hEvent] at hAfter
      rcases Option.bind_eq_some_iff.mp hAfter with
        ⟨after, hCall, hValue⟩
      rcases step_call_inv hCall with
        ⟨before, hOld⟩ | ⟨-, -, hNone, -⟩
      · rcases step_call event hOld with
          ⟨answer, stage, hNext, hAnswer, -⟩
        rw [hNext] at hCall
        rcases Option.some.inj hCall with rfl
        rcases hAnswer with hKept | ⟨other, hOther, hAnswers⟩
        · refine absurd ?_ hBefore
          rw [channel, stateAt, hOld, Option.bind_some]
          exact hKept.symm.trans hValue
        · rcases Option.some.inj (hOther.symm.trans hValue)
            with rfl
          exact hAnswers
      · rw [hNone] at hValue
        contradiction

theorem answeredAt_of_receives
    (hCall : (final events).calls[k]? = some call)
    (hReceives : Receives events k i value) :
    AnsweredAt events k call i value := by
  rcases answers_of_receives hReceives with
    ⟨event, hEvent, correlationId, nodeId, rfl, hPending⟩
  rcases (channelOk_stateAt events i).pending _ _ hPending with
    ⟨before, hBefore, hAwaits⟩
  rcases same_command hCall hBefore with ⟨hId, hNode, -⟩
  have hIdOf : correlationId = call.correlationId :=
    hAwaits.keyed.symm.trans hId
  have hNodeOf : nodeId = call.nodeId :=
    hAwaits.addressed.symm.trans hNode
  constructor
  · rw [hEvent, hIdOf, hNodeOf]
  · rw [← hIdOf, hPending, hNodeOf]

theorem receives_once
    {other : Json}
    (hFirst : Receives events k i value)
    (hSecond : Receives events k j other) :
    j ≤ i := by
  by_contra hLt
  rw [Nat.not_le] at hLt
  have hHeld := channel_later hLt hFirst.2
  have hNow :=
    channel_later (Nat.le_succ j) hHeld
  rw [hSecond.2] at hNow
  exact hSecond.1 (hHeld.trans hNow.symm)

/- What a channel holds it received. -/
theorem exists_receives
    (hHolds : channel k (stateAt events j) = some value) :
    ∃ i, i < j ∧ Receives events k i value := by
  rcases Run.exists_change
    (fun s => channel k s = some value)
    (by simp [channel, initial]) hHolds with
    ⟨i, hLt, hBefore, hAfter⟩
  exact ⟨i, hLt, hBefore, hAfter⟩

theorem channel_final
    (hCall : (final events).calls[k]? = some call) :
    channel k (stateAt events events.length) = call.answer := by
  rw [channel, call_at_end hCall, Option.bind_some]

theorem answeredOnce
    (hCall : (final events).calls[k]? = some call) :
    AnsweredOnce events k call where
  sources := by
    intro i value hReceives
    exact answeredAt_of_receives hCall hReceives
  once := by
    intro i j value other hFirst hSecond
    exact Nat.le_antisymm
      (receives_once hSecond hFirst)
      (receives_once hFirst hSecond)
  outcome := by
    intro value hOutcome
    have hTold :=
      ((channelOk_final events).calls k call hCall).told
        value hOutcome
    rw [← channel_final hCall] at hTold
    rcases exists_receives hTold with ⟨i, -, hReceives⟩
    exact ⟨i, hReceives⟩
  settled := by
    intro i outcome hSettled
    have hLater := outcome_later (Nat.le_max_left i
      events.length) hSettled
    rw [outcomeOf, stateAt,
      Run.stateAt_of_length_le (Nat.le_max_right _ _),
      ← final, hCall, Option.bind_some] at hLater
    exact hLater

--------------------
-- Lost Sockets
--------------------

/- An answer does not touch the registry. -/
theorem owns_of_answers
    {s : State}
    {event : Event}
    (hAnswers : Answers s event k value)
    (nodeId : String)
    (id : Nat) :
    owns (step s event).inner nodeId id =
      owns s.inner nodeId id := by
  rcases hAnswers with ⟨correlationId, other, rfl, hPending⟩
  simp only [step, resolveCommand, hPending, if_true]
  rfl

/- A pending call still owns the socket it was sent to. -/
theorem owns_of_pending
    {correlationId nodeId : String}
    {id : Nat}
    (hCall : (final events).calls[k]? = some call)
    (hId : call.connectionId = some id)
    (hPending :
      (stateAt events i).inner.pending correlationId =
        some { nodeId := nodeId, answer := k }) :
    owns (stateAt events i).inner call.nodeId id = true := by
  rcases (channelOk_stateAt events i).pending _ _ hPending with
    ⟨before, hBefore, hAwaits⟩
  rcases same_command hCall hBefore with ⟨-, hNode, hSame⟩
  rcases hAwaits.owned with ⟨other, hOther, hOwns⟩
  rw [hOther, hId] at hSame
  rcases Option.some.inj hSame with rfl
  rw [← hNode, hAwaits.addressed]
  exact hOwns

theorem lt_length_of_loses
    (hLoses : LosesSocket events call i) :
    i < events.length := by
  rcases hLoses with ⟨id, -, hOwns, hLost⟩
  by_contra hLong
  rw [stateAt,
    Run.stateAt_succ_of_none
      (List.getElem?_eq_none (Nat.le_of_not_lt hLong))]
    at hLost
  rw [stateAt, hLost] at hOwns
  contradiction

theorem lost_after
    {id : Nat}
    (hOwns :
      owns (stateAt events i).inner call.nodeId id = true)
    (hLost :
      owns (stateAt events (i + 1)).inner call.nodeId id =
        false)
    (hLt : i < j) :
    owns (stateAt events j).inner call.nodeId id = false := by
  have hIssued :=
    (channelOk_stateAt events i).registry.ids _ id hOwns
  exact lost_later hLt
    (Nat.le_trans hIssued (issued_later (Nat.le_succ i))) hLost

/-
  Before the loss the channel was empty, the loss is not an
  answer, and after it the call is not pending.
-/
theorem not_receives_of_loses
    (hCall : (final events).calls[k]? = some call)
    (hLoses : LosesSocket events call i)
    (hEmpty : channel k (stateAt events i) = none)
    (j : Nat)
    (value : Json) :
    ¬ Receives events k j value := by
  intro hReceives
  rcases hLoses with ⟨id, hId, hOwns, hLost⟩
  rcases answers_of_receives hReceives with
    ⟨event, hEvent, hAnswers⟩
  rcases Nat.lt_trichotomy j i with hLt | rfl | hLt
  · have hHeld := channel_later hLt hReceives.2
    rw [hEmpty] at hHeld
    contradiction
  · have hStep :
        stateAt events (j + 1) = step (stateAt events j) event :=
      Run.stateAt_succ hEvent
    rw [hStep, owns_of_answers hAnswers, hOwns] at hLost
    contradiction
  · rcases hAnswers with ⟨correlationId, nodeId, -, hPending⟩
    have hStill := owns_of_pending hCall hId hPending
    rw [lost_after hOwns hLost hLt] at hStill
    contradiction

theorem failsOnceLost
    (hCall : (final events).calls[k]? = some call)
    (hLoses : LosesSocket events call i)
    (hEmpty : channel k (stateAt events i) = none) :
    FailsOnceLost events k call := by
  have hNever := not_receives_of_loses hCall hLoses hEmpty
  have hInside := lt_length_of_loses hLoses
  have hNoAnswer : call.answer = none := by
    cases hAnswer : call.answer with
    | none => rfl
    | some value =>
        rw [← channel_final hCall] at hAnswer
        rcases exists_receives hAnswer with ⟨j, -, hReceives⟩
        exact absurd hReceives (hNever j value)
  rcases hLoses with ⟨id, hId, hOwns, hLost⟩
  have hGone :
      owns (final events).inner call.nodeId id = false := by
    rw [final_eq]
    exact lost_after hOwns hLost hInside
  constructor
  · exact hNever
  · intro outcome hOutcome
    have hCallOk := (channelOk_final events).calls k call hCall
    cases outcome with
    | ok value =>
        rw [hCallOk.told value hOutcome] at hNoAnswer
        contradiction
    | error error =>
        exact ⟨error, rfl, hCallOk.named error hOutcome⟩
  · intro hWaiting
    have hDropped :
        senderHeld (final events).inner k call = false := by
      rw [senderHeld]
      cases hPending :
          (final events).inner.pending call.correlationId with
      | none => rfl
      | some pending =>
          rw [Option.any_some, beq_eq_false_iff_ne]
          rintro rfl
          rw [final_eq] at hPending hGone
          rw [owns_of_pending hCall hId hPending] at hGone
          contradiction
    simp only [step, hCall, takeTurn, received, hWaiting,
      hNoAnswer, hDropped, Bool.false_eq_true, if_false,
      State.setStage]
    rw [List.getElem?_set_self
      (List.getElem?_eq_some_iff.mp hCall).1]
  · simp only [step, hCall, takeTurn, sendFailed]
    split
    · rename_i other hStage hOther
      rw [hId] at hOther
      rcases Option.some.inj hOther with rfl
      exact disconnect_of_not_owns hGone
    · rfl

/-
  After any run: the order follows the registrations, a
  socket's id is dead once the node connected again, what is
  pending belongs to a connected node, and every command is
  answered at most once, by its node, and fails once its
  socket went before an answer came.
-/
theorem command_channel (events : List Event) :
    OrderFollows events ∧
      (∀ nodeId i j,
        events[i]? = some (.connect nodeId) →
          events[j]? = some (.connect nodeId) → i < j →
            step (final events)
                (.disconnect nodeId
                  (registrationAt events i nodeId).id) =
              final events) ∧
      (∀ correlationId pending,
        (final events).inner.pending correlationId =
            some pending →
          isConnected (final events).inner pending.nodeId =
            true) ∧
      (∀ (k : Nat) (call : Call),
        (final events).calls[k]? = some call →
          AnsweredOnce events k call ∧
            ∀ i, LosesSocket events call i →
              channel k (stateAt events i) = none →
                FailsOnceLost events k call) := by
  refine ⟨orderFollows events, ?_, ?_, ?_⟩
  · intro nodeId i j hFirst hSecond hLt
    exact disconnect_retired hFirst hSecond hLt
  · intro correlationId pending hPending
    exact (channelOk_final events).connected hPending
  · intro k call hCall
    refine ⟨answeredOnce hCall, ?_⟩
    intro i hLoses hEmpty
    exact failsOnceLost hCall hLoses hEmpty

/- A reconnect while the command waits. -/
example :
    (final
      [.connect "node-1",
        .sendCommand "c1" "node-1" "take_snapshot" .null,
        .turn 0 .sent,
        .connect "node-1",
        .resolveCommand "c1" "node-1" .null,
        .turn 0 .received]).calls.map Call.outcome =
      [some
        (.error (.disconnected "node-1" "take_snapshot"))] := by
  rfl

end Ws

end SentinelCommand
