import SentinelCommand.Ws.ConnectionManager

/-
  What one step of the command channel keeps.

  The registry lists its keys once, an entry of the pending
  map belongs to a call whose socket is still the registered
  one, and an outcome is an error that names the call's node
  or what the call's channel was sent.

  Main declarations:
    * `step_inner`, `step_registry`, `step_call`
    * `RegistryOk`, `ChannelOk`
    * `channelOk_step`
-/

--------------------
-- The Manager's Operations
--------------------

namespace SentinelCommand

namespace Ws

variable {inner : ManagerInner}
variable {nodeId correlationId : String}
variable {pending : Pending}
variable {id : Nat}

theorem owns_iff :
    owns inner nodeId id = true ↔
      inner.connections nodeId = some { id := id } := by
  unfold owns
  cases hConnection : inner.connections nodeId with
  | none => simp
  | some connection =>
      rcases connection with ⟨other⟩
      simp

theorem isConnected_of_owns
    (hOwns : owns inner nodeId id = true) :
    isConnected inner nodeId = true := by
  rw [isConnected, owns_iff.mp hOwns]
  rfl

/- A socket that owns nothing changes nothing. -/
theorem disconnect_of_not_owns
    (hNot : owns inner nodeId id = false) :
    disconnect inner nodeId id = inner := by
  rw [disconnect, hNot]
  rfl

theorem pending_cancel :
    (cancelPending inner nodeId).pending correlationId =
        some pending ↔
      inner.pending correlationId = some pending ∧
        pending.nodeId ≠ nodeId := by
  simp [cancelPending, Option.filter_eq_some_iff]

@[simp] theorem connections_connect :
    (connect inner nodeId).1.connections =
      Function.update inner.connections nodeId
        (some { id := inner.nextId + 1 }) := by
  unfold connect
  cases hConnected : isConnected inner nodeId <;> rfl

@[simp] theorem nextId_connect :
    (connect inner nodeId).1.nextId = inner.nextId + 1 := by
  unfold connect
  cases hConnected : isConnected inner nodeId <;> rfl

theorem order_connect :
    (connect inner nodeId).1.order =
      if isConnected inner nodeId then inner.order else
        inner.order ++ [nodeId] := by
  unfold connect
  cases hConnected : isConnected inner nodeId <;> rfl

/- The waiting commands of other nodes, or none at all. -/
theorem pending_connect
    (hPending :
      (connect inner nodeId).1.pending correlationId =
        some pending) :
    inner.pending correlationId = some pending ∧
      (pending.nodeId = nodeId →
        isConnected inner nodeId = false) := by
  unfold connect at hPending
  cases hConnected : isConnected inner nodeId with
  | true =>
      simp only [hConnected, if_true] at hPending
      rcases pending_cancel.mp hPending with ⟨hOld, hNe⟩
      exact ⟨hOld, fun hEq => absurd hEq hNe⟩
  | false =>
      simp only [hConnected, Bool.false_eq_true, if_false]
        at hPending
      exact ⟨hPending, fun _ => rfl⟩

theorem connections_disconnect :
    (disconnect inner nodeId id).connections =
      if owns inner nodeId id then
        Function.update inner.connections nodeId none
      else
        inner.connections := by
  unfold disconnect
  cases hOwns : owns inner nodeId id <;> rfl

theorem order_disconnect :
    (disconnect inner nodeId id).order =
      if owns inner nodeId id then
        inner.order.filter (fun existing => existing != nodeId)
      else
        inner.order := by
  unfold disconnect
  cases hOwns : owns inner nodeId id <;> rfl

@[simp] theorem nextId_disconnect :
    (disconnect inner nodeId id).nextId = inner.nextId := by
  unfold disconnect
  cases hOwns : owns inner nodeId id <;> rfl

/- What still waits kept its node's connection. -/
theorem pending_disconnect
    (hPending :
      (disconnect inner nodeId id).pending correlationId =
        some pending) :
    inner.pending correlationId = some pending ∧
      (disconnect inner nodeId id).connections
          pending.nodeId =
        inner.connections pending.nodeId := by
  cases hOwns : owns inner nodeId id with
  | false =>
      rw [disconnect_of_not_owns hOwns] at hPending ⊢
      exact ⟨hPending, rfl⟩
  | true =>
      rw [disconnect, hOwns, if_pos rfl] at hPending
      rcases pending_cancel.mp hPending with ⟨hOld, hNe⟩
      rw [connections_disconnect, hOwns, if_pos rfl,
        Function.update_of_ne hNe]
      exact ⟨hOld, rfl⟩

theorem pending_forget
    {forgotten : String} :
    (forgetPending inner forgotten).pending correlationId =
        some pending ↔
      correlationId ≠ forgotten ∧
        inner.pending correlationId = some pending := by
  simp only [forgetPending, Function.update_apply]
  split <;> simp_all

--------------------
-- The Registry
--------------------

/-
  The order lists the keys, each once, and ids come from the
  counter.
-/
structure RegistryOk (inner : ManagerInner) : Prop where
  keys :
    ∀ nodeId, nodeId ∈ inner.order ↔
      isConnected inner nodeId = true
  nodup : inner.order.Nodup
  ids :
    ∀ nodeId id, owns inner nodeId id = true →
      id ≤ inner.nextId

variable {inner inner' : ManagerInner}

theorem registryOk_default :
    RegistryOk ManagerInner.default where
  keys := by
    intro nodeId
    simp [ManagerInner.default, isConnected]
  nodup := List.nodup_nil
  ids := by
    intro nodeId id hOwns
    simp [ManagerInner.default, owns] at hOwns

/- Another operation on the pending map only. -/
theorem registryOk_same
    (hOk : RegistryOk inner)
    (hConnections : inner'.connections = inner.connections)
    (hOrder : inner'.order = inner.order)
    (hNext : inner'.nextId = inner.nextId) :
    RegistryOk inner' where
  keys := by
    intro nodeId
    rw [hOrder, hOk.keys, isConnected, isConnected,
      hConnections]
  nodup := by
    rw [hOrder]
    exact hOk.nodup
  ids := by
    intro nodeId id hOwns
    rw [owns, hConnections] at hOwns
    rw [hNext]
    exact hOk.ids nodeId id hOwns

theorem registryOk_connect
    (hOk : RegistryOk inner)
    (nodeId : String) :
    RegistryOk (connect inner nodeId).1 where
  keys := by
    intro other
    have hOther := hOk.keys other
    rw [order_connect,
      isConnected.eq_1 (connect inner nodeId).1,
      connections_connect]
    by_cases hIs : other = nodeId
    · subst hIs
      rw [Function.update_self]
      cases hConnected : isConnected inner other with
      | true => simpa using hOther.mpr hConnected
      | false => simp
    · rw [Function.update_of_ne hIs]
      cases hConnected : isConnected inner nodeId <;>
        simpa [isConnected, hIs] using hOther
  nodup := by
    rw [order_connect]
    cases hConnected : isConnected inner nodeId with
    | true => exact hOk.nodup
    | false =>
        have hFresh : nodeId ∉ inner.order := by
          rw [hOk.keys, hConnected]
          exact Bool.false_ne_true
        exact List.nodup_append.mpr
          ⟨hOk.nodup, List.pairwise_singleton _ nodeId, by
            intro other hOther last hLast
            rw [List.mem_singleton.mp hLast]
            exact fun hIs => hFresh (hIs ▸ hOther)⟩
  ids := by
    intro other id hOwns
    rw [owns_iff, connections_connect] at hOwns
    rw [nextId_connect]
    by_cases hIs : other = nodeId
    · rw [hIs, Function.update_self] at hOwns
      simp only [Option.some.injEq, Connection.mk.injEq]
        at hOwns
      omega
    · rw [Function.update_of_ne hIs] at hOwns
      have hLe := hOk.ids other id (owns_iff.mpr hOwns)
      omega

theorem registryOk_disconnect
    (hOk : RegistryOk inner)
    (nodeId : String)
    (id : Nat) :
    RegistryOk (disconnect inner nodeId id) := by
  cases hOwns : owns inner nodeId id with
  | false => rwa [disconnect_of_not_owns hOwns]
  | true =>
      constructor
      · intro other
        have hOther := hOk.keys other
        rw [order_disconnect, isConnected,
          connections_disconnect, hOwns, if_pos rfl,
          if_pos rfl]
        by_cases hIs : other = nodeId
        · simp [hIs]
        · simpa [Function.update_of_ne hIs, hIs, isConnected]
            using hOther
      · rw [order_disconnect, hOwns, if_pos rfl]
        exact hOk.nodup.filter _
      · intro other otherId hOther
        rw [nextId_disconnect]
        rw [owns_iff, connections_disconnect, hOwns,
          if_pos rfl] at hOther
        by_cases hIs : other = nodeId
        · rw [hIs, Function.update_self] at hOther
          contradiction
        · rw [Function.update_of_ne hIs] at hOther
          exact hOk.ids other otherId (owns_iff.mpr hOther)

--------------------
-- What a Step Does
--------------------

/-
  A call's outcome stays, or it gets one: what its channel
  was sent, or an error that names its node.
-/
def StageStep (call : Call) (stage : Stage) : Prop :=
  stage.outcome = call.stage.outcome ∨
    call.stage.outcome = none ∧
      ((∃ value, stage.outcome = some (.ok value) ∧
          call.answer = some value) ∨
        (∃ error, stage.outcome = some (.error error) ∧
          error.node = call.nodeId))

/- The step sends a value on the one-shot channel of `k`. -/
def Answers
    (s : State)
    (event : Event)
    (k : Nat)
    (value : Json) : Prop :=
  ∃ correlationId nodeId,
    event = .resolveCommand correlationId nodeId value ∧
      s.inner.pending correlationId =
        some { nodeId := nodeId, answer := k }

theorem stageStep_refl (call : Call) :
    StageStep call call.stage :=
  Or.inl rfl

theorem stageStep_error
    {call : Call}
    {stage : Stage}
    {error : CommandError}
    (hBefore : call.stage.outcome = none)
    (hStage : stage.outcome = some (.error error))
    (hNode : error.node = call.nodeId) :
    StageStep call stage :=
  Or.inr ⟨hBefore, Or.inr ⟨error, hStage, hNode⟩⟩

variable {s : State}
variable {k : Nat}
variable {call : Call}

/- The manager's part of a turn. -/
theorem turn_inner
    (s : State)
    (k : Nat)
    (call : Call)
    (turn : Turn) :
    (∃ id, (takeTurn s k call turn).inner =
        disconnect s.inner call.nodeId id) ∨
      (takeTurn s k call turn).inner =
        forgetPending s.inner call.correlationId ∨
      (takeTurn s k call turn).inner = s.inner := by
  cases turn <;>
    simp only [takeTurn, sent, sendFailed, expired, received,
      leave, dropped]
  case sent => split <;> exact Or.inr (Or.inr rfl)
  case sendFailed =>
      split
      · exact Or.inl ⟨_, rfl⟩
      · exact Or.inr (Or.inr rfl)
  case expired => split <;> exact Or.inr (Or.inr rfl)
  case received =>
      split
      · exact Or.inr (Or.inr rfl)
      · split <;> exact Or.inr (Or.inr rfl)
      · exact Or.inr (Or.inr rfl)
  case leave =>
      split
      · exact Or.inr (Or.inl rfl)
      · exact Or.inr (Or.inr rfl)
  case dropped =>
      split
      · exact Or.inr (Or.inl rfl)
      · exact Or.inr (Or.inl rfl)
      · exact Or.inr (Or.inr rfl)

/- The call's part of a turn. -/
theorem turn_calls
    (hCall : s.calls[k]? = some call)
    (turn : Turn) :
    ∃ stage, StageStep call stage ∧
      (takeTurn s k call turn).calls =
        s.calls.set k { call with stage := stage } := by
  have hSame :
      s.calls = s.calls.set k { call with stage := call.stage } := by
    rcases List.getElem?_eq_some_iff.mp hCall with ⟨hLt, rfl⟩
    exact (List.set_getElem_self hLt).symm
  have hIdle : ∃ stage, StageStep call stage ∧
      s.calls = s.calls.set k { call with stage := stage } :=
    ⟨call.stage, stageStep_refl call, hSame⟩
  cases turn <;>
    simp only [takeTurn, sent, sendFailed, expired, received,
      leave, dropped]
  case sent =>
      split
      · rename_i hStage _
        exact ⟨.waiting, Or.inl (by rw [hStage]; rfl), rfl⟩
      · exact hIdle
  case sendFailed =>
      split
      · rename_i hStage _
        exact
          ⟨_, stageStep_error (by rw [hStage]; rfl) rfl rfl,
            rfl⟩
      · exact hIdle
  case expired =>
      split
      · rename_i hStage
        exact
          ⟨_, stageStep_error (by rw [hStage]; rfl) rfl rfl,
            rfl⟩
      · rename_i hStage
        exact
          ⟨_, stageStep_error (by rw [hStage]; rfl) rfl rfl,
            rfl⟩
      · exact hIdle
  case received =>
      split
      · rename_i value hStage hAnswer
        exact
          ⟨_, Or.inr
            ⟨by rw [hStage]; rfl,
              Or.inl ⟨value, rfl, hAnswer⟩⟩, rfl⟩
      · rename_i hStage _
        split
        · exact hIdle
        · exact
            ⟨_, stageStep_error (by rw [hStage]; rfl) rfl rfl,
              rfl⟩
      · exact hIdle
  case leave =>
      split
      · rename_i outcome hStage
        exact
          ⟨.returned outcome, Or.inl (by rw [hStage]; rfl),
            rfl⟩
      · exact hIdle
  case dropped =>
      split
      · rename_i hStage
        exact ⟨.dropped, Or.inl (by rw [hStage]; rfl), rfl⟩
      · rename_i hStage
        exact ⟨.dropped, Or.inl (by rw [hStage]; rfl), rfl⟩
      · exact hIdle

/- The manager's part of a step. -/
theorem step_inner
    (s : State)
    (event : Event) :
    (∃ nodeId, event = .connect nodeId ∧
        (step s event).inner = (connect s.inner nodeId).1) ∨
      (∃ nodeId id,
        (step s event).inner = disconnect s.inner nodeId id) ∨
      (∃ correlationId,
        (step s event).inner =
          forgetPending s.inner correlationId) ∨
      (∃ correlationId nodeId command payload id,
        event =
            .sendCommand correlationId nodeId command payload ∧
          owns s.inner nodeId id = true ∧
          (step s event).inner =
            { s.inner with
              pending :=
                Function.update s.inner.pending correlationId
                  (some
                    { nodeId := nodeId
                      answer := s.calls.length }) }) ∨
      (step s event).inner = s.inner := by
  cases event with
  | connect nodeId => exact Or.inl ⟨nodeId, rfl, rfl⟩
  | disconnect nodeId id => exact Or.inr (Or.inl ⟨nodeId, id, rfl⟩)
  | sendCommand correlationId nodeId command payload =>
      cases hConnection : s.inner.connections nodeId with
      | none =>
          rw [step, sendCommand, hConnection]
          exact Or.inr (Or.inr (Or.inr (Or.inr rfl)))
      | some connection =>
          simp only [step, sendCommand, hConnection]
          exact Or.inr (Or.inr (Or.inr (Or.inl
            ⟨correlationId, nodeId, command, payload,
              connection.id, rfl, owns_iff.mpr hConnection,
              rfl⟩)))
  | turn k turn =>
      cases hCall : s.calls[k]? with
      | none =>
          have hSame : step s (.turn k turn) = s := by
            simp only [step, hCall]
          rw [hSame]
          exact Or.inr (Or.inr (Or.inr (Or.inr rfl)))
      | some call =>
          simp only [step, hCall]
          rcases turn_inner s k call turn with
            ⟨id, hInner⟩ | hInner | hInner
          · exact Or.inr (Or.inl ⟨_, id, hInner⟩)
          · exact Or.inr (Or.inr (Or.inl ⟨_, hInner⟩))
          · exact Or.inr (Or.inr (Or.inr (Or.inr hInner)))
  | resolveCommand correlationId nodeId result =>
      simp only [step, resolveCommand]
      split
      · exact Or.inr (Or.inr (Or.inr (Or.inr rfl)))
      · split
        · exact Or.inr (Or.inr (Or.inl ⟨correlationId, rfl⟩))
        · exact Or.inr (Or.inr (Or.inr (Or.inr rfl)))

/- Commands and their turns leave the registry alone. -/
theorem step_registry
    (s : State)
    (event : Event) :
    (∃ nodeId, event = .connect nodeId ∧
        (step s event).inner = (connect s.inner nodeId).1) ∨
      (∃ nodeId id,
        (step s event).inner = disconnect s.inner nodeId id) ∨
      ((step s event).inner.connections =
          s.inner.connections ∧
        (step s event).inner.order = s.inner.order ∧
        (step s event).inner.nextId = s.inner.nextId) := by
  rcases step_inner s event with
    hConnect | hDisconnect | ⟨_, hInner⟩ |
      ⟨_, _, _, _, _, -, -, hInner⟩ | hInner
  · exact Or.inl hConnect
  · exact Or.inr (Or.inl hDisconnect)
  · rw [hInner]
    exact Or.inr (Or.inr ⟨rfl, rfl, rfl⟩)
  · rw [hInner]
    exact Or.inr (Or.inr ⟨rfl, rfl, rfl⟩)
  · rw [hInner]
    exact Or.inr (Or.inr ⟨rfl, rfl, rfl⟩)

/-
  A call goes on, with what its channel was sent by the step
  and what became of it.
-/
theorem step_call
    (event : Event)
    (hCall : s.calls[k]? = some call) :
    ∃ answer stage,
      (step s event).calls[k]? =
          some { call with answer := answer, stage := stage } ∧
        (answer = call.answer ∨
          ∃ value, answer = some value ∧
            Answers s event k value) ∧
        StageStep call stage := by
  have hIdle :
      ∃ answer stage,
        s.calls[k]? =
            some
              { call with answer := answer, stage := stage } ∧
          (answer = call.answer ∨
            ∃ value, answer = some value ∧
              Answers s event k value) ∧
          StageStep call stage :=
    ⟨call.answer, call.stage, hCall, Or.inl rfl,
      stageStep_refl call⟩
  cases event with
  | connect nodeId => exact hIdle
  | disconnect nodeId id => exact hIdle
  | sendCommand correlationId nodeId command payload =>
      have hOld
          (fresh : Call) :
          (s.calls ++ [fresh])[k]? = some call := by
        rw [List.getElem?_append_left
          (List.getElem?_eq_some_iff.mp hCall).1, hCall]
      refine
        ⟨call.answer, call.stage, ?_, Or.inl rfl,
          stageStep_refl call⟩
      simp only [step, sendCommand]
      split <;> exact hOld _
  | turn other turn =>
      cases hOther : s.calls[other]? with
      | none =>
          simp only [step, hOther]
          exact hIdle
      | some otherCall =>
          rcases turn_calls hOther turn with
            ⟨stage, hStage, hCalls⟩
          simp only [step, hOther]
          rw [hCalls]
          by_cases hIs : other = k
          · subst hIs
            rw [hCall] at hOther
            rcases Option.some.inj hOther with rfl
            refine
              ⟨call.answer, stage, ?_, Or.inl rfl, hStage⟩
            rw [List.getElem?_set_self
              (List.getElem?_eq_some_iff.mp hCall).1]
          · rw [List.getElem?_set_ne hIs]
            exact hIdle
  | resolveCommand correlationId nodeId result =>
      simp only [step, resolveCommand]
      split
      · exact hIdle
      · rename_i pending hPending
        split
        · rename_i hNode
          simp only [List.getElem?_modify, hCall]
          by_cases hIs : pending.answer = k
          · refine
              ⟨some result, call.stage, by simp [hIs],
                Or.inr ⟨result, rfl, correlationId, nodeId,
                  rfl, ?_⟩,
                stageStep_refl call⟩
            rw [hPending, ← hIs, ← hNode]
          · exact
              ⟨call.answer, call.stage, by simp [hIs],
                Or.inl rfl, stageStep_refl call⟩
        · exact hIdle

/- A call that was not there before was just started. -/
theorem step_call_inv
    {event : Event}
    (hCall : (step s event).calls[k]? = some call) :
    (∃ before, s.calls[k]? = some before) ∨
      k = s.calls.length ∧
        (∃ correlationId nodeId command payload,
          event =
            .sendCommand correlationId nodeId command payload ∧
          call.nodeId = nodeId) ∧
        call.answer = none ∧
        (∀ id, call.connectionId = some id →
          owns s.inner call.nodeId id = true) ∧
        (∀ outcome, call.outcome = some outcome →
          outcome = .error (.notConnected call.nodeId)) := by
  by_cases hOld : k < s.calls.length
  · exact Or.inl ⟨_, List.getElem?_eq_getElem hOld⟩
  · right
    have hLength
        (hSame :
          (step s event).calls.length = s.calls.length) :
        False := by
      have hLt := (List.getElem?_eq_some_iff.mp hCall).1
      omega
    have hLast
        (fresh : Call)
        (hFresh : (s.calls ++ [fresh])[k]? = some call) :
        k = s.calls.length ∧ call = fresh := by
      rw [List.getElem?_append_right (Nat.le_of_not_lt hOld),
        List.getElem?_singleton] at hFresh
      split at hFresh
      · refine ⟨by omega, (Option.some.inj hFresh).symm⟩
      · contradiction
    cases event with
    | connect nodeId => exact (hLength rfl).elim
    | disconnect nodeId id => exact (hLength rfl).elim
    | turn other turn =>
        refine (hLength ?_).elim
        cases hOther : s.calls[other]? with
        | none => simp only [step, hOther]
        | some otherCall =>
            rcases turn_calls hOther turn with ⟨_, -, hCalls⟩
            simp only [step, hOther, hCalls, List.length_set]
    | resolveCommand correlationId nodeId result =>
        refine (hLength ?_).elim
        simp only [step, resolveCommand]
        split
        · rfl
        · split
          · exact List.length_modify ..
          · rfl
    | sendCommand correlationId nodeId command payload =>
        cases hConnection : s.inner.connections nodeId with
        | none =>
            simp only [step, sendCommand, hConnection] at hCall
            rcases hLast _ hCall with ⟨hK, rfl⟩
            refine
              ⟨hK, ⟨_, _, _, _, rfl, rfl⟩, rfl, nofun, ?_⟩
            intro outcome hOutcome
            exact (Option.some.inj hOutcome).symm
        | some connection =>
            simp only [step, sendCommand, hConnection] at hCall
            rcases hLast _ hCall with ⟨hK, rfl⟩
            refine
              ⟨hK, ⟨_, _, _, _, rfl, rfl⟩, rfl, ?_, nofun⟩
            rintro id ⟨⟩
            exact owns_iff.mpr hConnection

--------------------
-- The Invariant
--------------------

/- The call an entry of the pending map stands for. -/
structure Awaits
    (inner : ManagerInner)
    (correlationId nodeId : String)
    (call : Call) : Prop where
  keyed : call.correlationId = correlationId
  addressed : call.nodeId = nodeId
  owned :
    ∃ id, call.connectionId = some id ∧
      owns inner nodeId id = true
  unanswered : call.answer = none

structure CallOk
    (inner : ManagerInner)
    (call : Call) : Prop where
  told :
    ∀ value, call.outcome = some (.ok value) →
      call.answer = some value
  named :
    ∀ error, call.outcome = some (.error error) →
      error.node = call.nodeId
  issued :
    ∀ id, call.connectionId = some id → id ≤ inner.nextId

structure ChannelOk (s : State) : Prop where
  registry : RegistryOk s.inner
  pending :
    ∀ correlationId pending,
      s.inner.pending correlationId = some pending →
        ∃ call, s.calls[pending.answer]? = some call ∧
          Awaits s.inner correlationId pending.nodeId call
  calls :
    ∀ (k : Nat) (call : Call),
      s.calls[k]? = some call → CallOk s.inner call

theorem channelOk_initial : ChannelOk initial where
  registry := registryOk_default
  pending := by
    intro correlationId pending hPending
    simp [initial, ManagerInner.default] at hPending
  calls := by
    intro k call hCall
    simp [initial] at hCall

variable {event : Event}

theorem ChannelOk.connected
    (hOk : ChannelOk s)
    {correlationId : String}
    {pending : Pending}
    (hPending :
      s.inner.pending correlationId = some pending) :
    isConnected s.inner pending.nodeId = true := by
  rcases hOk.pending correlationId pending hPending with
    ⟨_, -, hAwaits⟩
  rcases hAwaits.owned with ⟨id, -, hOwns⟩
  exact isConnected_of_owns hOwns

theorem registryOk_step
    (hOk : RegistryOk s.inner)
    (event : Event) :
    RegistryOk (step s event).inner := by
  rcases step_registry s event with
    ⟨nodeId, -, hInner⟩ | ⟨nodeId, id, hInner⟩ |
      ⟨hConnections, hOrder, hNext⟩
  · rw [hInner]
    exact registryOk_connect hOk nodeId
  · rw [hInner]
    exact registryOk_disconnect hOk nodeId id
  · exact registryOk_same hOk hConnections hOrder hNext

/- Ids only grow. -/
theorem nextId_step
    (s : State)
    (event : Event) :
    s.inner.nextId ≤ (step s event).inner.nextId := by
  rcases step_registry s event with
    ⟨nodeId, -, hInner⟩ | ⟨nodeId, id, hInner⟩ |
      ⟨-, -, hNext⟩
  · rw [hInner, nextId_connect]
    exact Nat.le_succ _
  · exact Nat.le_of_eq (by rw [hInner, nextId_disconnect])
  · exact Nat.le_of_eq hNext.symm

/- An id that is issued and owns nothing is never used again. -/
theorem owns_step
    {nodeId : String}
    {id : Nat}
    (hIssued : id ≤ s.inner.nextId)
    (hOwns : owns (step s event).inner nodeId id = true) :
    owns s.inner nodeId id = true := by
  rw [owns_iff] at hOwns ⊢
  rcases step_registry s event with
    ⟨other, -, hInner⟩ | ⟨other, otherId, hInner⟩ |
      ⟨hConnections, -, -⟩
  · rw [hInner, connections_connect,
      Function.update_apply] at hOwns
    split at hOwns
    · simp only [Option.some.injEq, Connection.mk.injEq]
        at hOwns
      omega
    · exact hOwns
  · rw [hInner, connections_disconnect] at hOwns
    split at hOwns
    · rw [Function.update_apply] at hOwns
      split at hOwns
      · contradiction
      · exact hOwns
    · exact hOwns
  · rwa [hConnections] at hOwns

/-
  A waiting command was waiting before, on the same
  connection of its node, or was just registered.
-/
theorem step_pending
    (hOk : ChannelOk s)
    {correlationId : String}
    {pending : Pending}
    (hPending :
      (step s event).inner.pending correlationId =
        some pending) :
    (s.inner.pending correlationId = some pending ∧
        (step s event).inner.connections pending.nodeId =
          s.inner.connections pending.nodeId) ∨
      pending.answer = s.calls.length ∧
        ∃ command payload id,
          event =
              .sendCommand correlationId pending.nodeId command
                payload ∧
            owns s.inner pending.nodeId id = true := by
  rcases step_inner s event with
    ⟨other, -, hInner⟩ | ⟨other, otherId, hInner⟩ |
      ⟨_, hInner⟩ |
      ⟨_, _, command, payload, id, hEvent, hOwns, hInner⟩ |
      hInner
  · left
    rw [hInner] at hPending ⊢
    rcases pending_connect hPending with ⟨hOld, hFresh⟩
    refine ⟨hOld, ?_⟩
    rw [connections_connect, Function.update_of_ne]
    intro hIs
    have hConnected := hOk.connected hOld
    rw [hIs, hFresh hIs] at hConnected
    contradiction
  · left
    rw [hInner] at hPending ⊢
    exact pending_disconnect hPending
  · left
    rw [hInner] at hPending ⊢
    exact ⟨(pending_forget.mp hPending).2, rfl⟩
  · rw [hInner] at hPending ⊢
    simp only [Function.update_apply] at hPending
    split at hPending
    · rename_i hIs
      right
      rw [← Option.some.inj hPending, hIs]
      exact ⟨rfl, command, payload, id, hEvent, hOwns⟩
    · exact Or.inl ⟨hPending, rfl⟩
  · rw [hInner] at hPending ⊢
    exact Or.inl ⟨hPending, rfl⟩

/- A command that is answered had no answer yet. -/
theorem unanswered_of_answers
    (hOk : ChannelOk s)
    {value : Json}
    (hAnswers : Answers s event k value)
    (hCall : s.calls[k]? = some call) :
    call.answer = none := by
  rcases hAnswers with ⟨correlationId, nodeId, -, hPending⟩
  rcases hOk.pending _ _ hPending with ⟨other, hOther, hAwaits⟩
  rw [hCall] at hOther
  rcases Option.some.inj hOther with rfl
  exact hAwaits.unanswered

/- An answered command waits no more. -/
theorem not_pending_of_answers
    (hOk : ChannelOk s)
    {value : Json}
    (hAnswers : Answers s event k value)
    (hCall : s.calls[k]? = some call) :
    (step s event).inner.pending call.correlationId = none := by
  rcases hAnswers with ⟨correlationId, nodeId, rfl, hPending⟩
  rcases hOk.pending _ _ hPending with ⟨other, hOther, hAwaits⟩
  rw [hCall] at hOther
  rcases Option.some.inj hOther with rfl
  rw [hAwaits.keyed]
  simp only [step, resolveCommand, hPending, if_true]
  exact Function.update_self ..

theorem pending_step
    (hOk : ChannelOk s)
    (event : Event)
    {correlationId : String}
    {pending : Pending}
    (hPending :
      (step s event).inner.pending correlationId =
        some pending) :
    ∃ call, (step s event).calls[pending.answer]? = some call ∧
      Awaits (step s event).inner correlationId pending.nodeId
        call := by
  rcases step_pending hOk hPending with
    ⟨hOld, hSame⟩ | ⟨hLast, command, payload, id, rfl, hOwns⟩
  · rcases hOk.pending _ _ hOld with ⟨call, hCall, hAwaits⟩
    rcases step_call event hCall with
      ⟨answer, stage, hNext, hAnswer, -⟩
    refine ⟨_, hNext, hAwaits.keyed, hAwaits.addressed, ?_, ?_⟩
    · rcases hAwaits.owned with ⟨id, hId, hOwns⟩
      refine ⟨id, hId, ?_⟩
      rw [owns, hSame]
      exact hOwns
    · rcases hAnswer with hKept | ⟨value, -, hAnswers⟩
      · exact hKept.trans hAwaits.unanswered
      · have hGone :=
          not_pending_of_answers hOk hAnswers hCall
        rw [hAwaits.keyed, hPending] at hGone
        contradiction
  · have hConnection := owns_iff.mp hOwns
    simp only [step, sendCommand, hConnection, hLast,
      List.getElem?_concat_length, Option.some.injEq]
    refine ⟨_, rfl, rfl, rfl, ⟨id, rfl, ?_⟩, rfl⟩
    exact owns_iff.mpr hConnection

theorem callOk_step
    (hOk : ChannelOk s)
    (event : Event)
    (hCall : (step s event).calls[k]? = some call) :
    CallOk (step s event).inner call := by
  rcases step_call_inv hCall with
    ⟨before, hBefore⟩ | ⟨-, -, -, hOwned, hOutcome⟩
  · have hCallOk := hOk.calls k before hBefore
    rcases step_call event hBefore with
      ⟨answer, stage, hNext, hAnswer, hStage⟩
    rw [hNext] at hCall
    rcases Option.some.inj hCall with rfl
    have hKept
        (value : Json)
        (hTold : before.answer = some value) :
        answer = some value := by
      rcases hAnswer with hSame | ⟨_, -, hAnswers⟩
      · exact hSame.trans hTold
      · rw [unanswered_of_answers hOk hAnswers hBefore]
          at hTold
        contradiction
    constructor
    · intro value hValue
      apply hKept
      rcases hStage with
        hSame | ⟨-, ⟨other, hNew, hTold⟩ | ⟨_, hNew, -⟩⟩
      · exact hCallOk.told value (hSame.symm.trans hValue)
      · rw [Call.outcome, hNew] at hValue
        simp only [Option.some.injEq, Except.ok.injEq] at hValue
        rw [hTold, hValue]
      · rw [Call.outcome, hNew] at hValue
        simp at hValue
    · intro error hError
      rcases hStage with
        hSame | ⟨-, ⟨_, hNew, -⟩ | ⟨other, hNew, hNode⟩⟩
      · exact hCallOk.named error (hSame.symm.trans hError)
      · rw [Call.outcome, hNew] at hError
        simp at hError
      · rw [Call.outcome, hNew] at hError
        simp only [Option.some.injEq, Except.error.injEq]
          at hError
        rw [← hError]
        exact hNode
    · intro id hId
      exact Nat.le_trans (hCallOk.issued id hId)
        (nextId_step s event)
  · constructor
    · intro value hValue
      exact nomatch hOutcome _ hValue
    · intro error hError
      rcases Except.error.inj (hOutcome _ hError) with rfl
      rfl
    · intro id hId
      have hIssued := hOk.registry.ids _ id (hOwned id hId)
      exact Nat.le_trans hIssued (nextId_step s event)

theorem channelOk_step
    (s : State)
    (event : Event)
    (hOk : ChannelOk s) :
    ChannelOk (step s event) where
  registry := registryOk_step hOk.registry event
  pending := by
    intro correlationId pending hPending
    exact pending_step hOk event hPending
  calls := by
    intro k call hCall
    exact callOk_step hOk event hCall

end Ws

end SentinelCommand
