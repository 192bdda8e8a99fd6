import SentinelCommand.Agent.Delivery

/-
  What becomes of an agent's completion at Command Center,
  when the `/complete` request is alone at its row.

  Main declarations:
    * `Sentinel.Recorded`, `Sentinel.Accepted`
    * `Sentinel.completion_recorded_iff`
    * `Sentinel.nul_completion_refused`
-/

--------------------
-- Requests on Their Own
--------------------

namespace SentinelCommand

namespace Sentinel

open Interleaving
open Agent (Completion Shaped readBody severities)

/- The row that a completion leaves. -/
structure Recorded
    (c : Completion)
    (row : SentinelRunRow) : Prop where
  outcome : terminal c.outcome = some row.outcome
  severity :
    row.severity =
      if c.outcome = "incident" then c.severity else none
  incidentId : row.incidentId = c.incidentId
  toolCallCount : row.toolCallCount = c.toolCallCount
  summary : row.summary = Privacy.truncate c.summary 8000

/-
  The answer is the row as it is stored, and a run that was
  open has the completion.
-/
structure Accepted
    (c : Completion)
    (request : Nat)
    (row : SentinelRunRow)
    (s last : RunState) : Prop where
  answer :
    ∃ after,
      last =
          ({ s with row := some after } : RunState).answer
            request (.ok ⟨after, true, none⟩) ∧
        (row.outcome.isTerminal = false → Recorded c after)

variable {α : Type}

@[simp]
theorem alone_finish_iff
    (request : Nat)
    (answer : RunState → Except ApiError RunAnswer)
    (s last : RunState) :
    Alone s (finish request answer) last ↔
      last = s.answer request (answer s) := by
  unfold finish
  rw [alone_atomic_iff, alone_done_iff]

@[simp]
theorem alone_get_iff
    (f : RunState → α)
    (next : α → RunThread)
    (s last : RunState) :
    Alone s (get f next) last ↔ Alone s (next (f s)) last := by
  unfold get
  rw [alone_atomic_iff]

@[simp]
theorem alone_readClock_iff
    (next : Int → RunThread)
    (s last : RunState) :
    Alone s (readClock next) last ↔
      Alone s (next s.clock) last := by
  unfold readClock
  rw [alone_get_iff]

theorem row_of_visible
    {agent : AgentPrincipal}
    {s : RunState}
    {row : SentinelRunRow}
    (hVisible : agentVisibleRun agent s = .ok row) :
    s.row = some row := by
  unfold agentVisibleRun at hVisible
  split at hVisible
  · cases hVisible
  · rename_i stored hRow
    split at hVisible
    · cases hVisible
    · rw [hRow, Except.ok.inj hVisible]

/- A refused body is answered, and the row is left alone. -/
theorem alone_refused_iff
    {numbers : Numbers}
    {body : Json}
    {err : ApiError}
    (hRefused : readComplete numbers body = .error err)
    (agent : AgentPrincipal)
    (owned : Int → Bool)
    (request : Nat)
    (s last : RunState) :
    Alone s (completeRequest numbers agent body owned request)
        last ↔
      last = s.answer request (.error err) := by
  unfold completeRequest
  rw [hRefused]
  exact alone_finish_iff request _ s last

--------------------
-- The Handler's Checks
--------------------

/- The outcome is known, and an incident has a severity. -/
theorem check_readBody
    (numbers : Numbers)
    {c : Completion}
    (hShaped : Shaped c) :
    ∃ outcome,
      terminal c.outcome = some outcome ∧
        (outcome = .incident ↔ c.outcome = "incident") ∧
        (readBody numbers c).check = .ok outcome := by
  have hNamed :
      ∀ severity ∈ severities,
        severityNamed (some severity) = true := by
    decide
  unfold CompleteBody.check readBody
  rcases hShaped.outcome
    with ⟨hWord, ⟨severity, hMem, hSome⟩, -⟩ |
      ⟨hWord | hWord, -, -⟩
  · refine ⟨.incident, ?_⟩
    rw [hWord, hSome]
    simp [terminal, hNamed severity hMem]
  · refine ⟨.noAction, ?_⟩
    rw [hWord]
    exact ⟨rfl, by decide, rfl⟩
  · refine ⟨.error, ?_⟩
    rw [hWord]
    exact ⟨rfl, by decide, rfl⟩

/- The ownership query finds the incident. -/
theorem checkIncident_eq
    {c : Completion}
    {outcome : Outcome}
    {owned : Int → Bool}
    (hShaped : Shaped c)
    (hWord : outcome = .incident ↔ c.outcome = "incident")
    (hOwned :
      ∀ id, c.incidentId = some id →
        -2147483648 ≤ id ∧ id ≤ 2147483647 ∧
          owned id = true) :
    checkIncident owned outcome c.incidentId =
      .ok c.incidentId := by
  unfold checkIncident
  rcases hShaped.outcome
    with ⟨hIncident, -, hSome⟩ | ⟨hOther, -, hNone⟩
  · obtain ⟨id, hId⟩ := Option.isSome_iff_exists.mp hSome
    obtain ⟨hLow, hHigh, hMine⟩ := hOwned id hId
    have hInt4 : int4 id = .ok id := by
      unfold int4
      rw [if_pos ⟨hLow, hHigh⟩]
    rw [hWord.mpr hIncident, hId]
    simp only [beq_self_eq_true, if_true, hInt4, hMine]
  · have hNot : (outcome == .incident) = false := by
      rw [beq_eq_false_iff_ne]
      intro hEq
      rw [hWord.mp hEq] at hOther
      revert hOther
      decide
    rw [hNot, hNone]
    rfl

theorem toolCallBind_eq
    {count : Nat}
    (hCount : count ≤ 2147483647) :
    toolCallBind (count : Int) = .ok (count : Int) := by
  unfold toolCallBind
  rw [if_pos (by omega), Int.max_eq_right (by omega)]

/- What is stored of a body as it was read. -/
theorem recorded_completeRow
    (numbers : Numbers)
    {c : Completion}
    {outcome : Outcome}
    (hTerminal : terminal c.outcome = some outcome)
    (hWord : outcome = .incident ↔ c.outcome = "incident")
    (now : Int)
    (row : SentinelRunRow) :
    Recorded c
      (completeRow (readBody numbers c) outcome c.incidentId
        c.toolCallCount now row) where
  outcome := hTerminal
  severity := by
    unfold completeRow readBody
    simp only [beq_iff_eq, hWord]
  incidentId := rfl
  toolCallCount := rfl
  summary := by
    unfold completeRow readBody truncateChars Privacy.truncate
    dsimp only
    rw [String.toList_ofList, List.take_take, Nat.min_self]

/- The check before the write is the one the write makes. -/
theorem closed_eq_not_mayComplete
    (row : SentinelRunRow)
    (outcome : Outcome) :
    (row.outcome.isTerminal &&
        !upgrading row.outcome outcome) =
      !mayComplete outcome row := by
  unfold mayComplete
  rw [Bool.not_or, Bool.not_not]

variable {body : CompleteBody}
variable {outcome : Outcome}
variable {owned : Int → Bool}
variable {row : SentinelRunRow}

/- A run that is closed answers what is stored. -/
theorem alone_closed_iff
    (hClosed : mayComplete outcome row = false)
    (request : Nat)
    (s last : RunState) :
    Alone s (storeCompletion body outcome owned request row)
        last ↔
      last = s.answer request (.ok ⟨row, true, none⟩) := by
  unfold storeCompletion
  rw [closed_eq_not_mayComplete, hClosed, Bool.not_false,
    if_pos rfl, alone_finish_iff]

/- An open one, or one to upgrade, is written and answered. -/
theorem alone_open_iff
    {incidentId : Option Int}
    {count : Int}
    {s : RunState}
    (hOpen : mayComplete outcome row = true)
    (hIncident :
      checkIncident owned outcome body.incidentId =
        .ok incidentId)
    (hCount : toolCallBind body.toolCallCount = .ok count)
    (hRow : s.row = some row)
    (request : Nat)
    (last : RunState) :
    let after :=
      completeRow body outcome incidentId count s.clock row
    Alone s (storeCompletion body outcome owned request row)
        last ↔
      last =
        ({ s with row := some after } : RunState).answer request
          (.ok ⟨after, true, none⟩) := by
  intro after
  have hUpdate :
      updateWhere (mayComplete outcome)
          (completeRow body outcome incidentId count s.clock)
          s =
        ({ s with row := some after }, 1) := by
    unfold updateWhere
    rw [hRow]
    dsimp only
    rw [if_pos hOpen]
  unfold storeCompletion
  rw [closed_eq_not_mayComplete, hOpen, Bool.not_true,
    if_neg Bool.false_ne_true, hIncident]
  dsimp only
  rw [alone_readClock_iff, hCount]
  dsimp only
  rw [alone_atomic_iff, hUpdate, alone_finish_iff]
  rfl

/- Every check on the way to the row lets it through. -/
theorem accepted_storeCompletion
    (numbers : Numbers)
    {c : Completion}
    {s : RunState}
    (hShaped : Shaped c)
    (hTerminal : terminal c.outcome = some outcome)
    (hWord : outcome = .incident ↔ c.outcome = "incident")
    (hCount : c.toolCallCount ≤ 2147483647)
    (hOwned :
      ∀ id, c.incidentId = some id →
        -2147483648 ≤ id ∧ id ≤ 2147483647 ∧
          owned id = true)
    (hRow : s.row = some row)
    (request : Nat) :
    ∃ last,
      Alone s
          (storeCompletion (readBody numbers c) outcome owned
            request row)
          last ∧
        Accepted c request row s last := by
  cases hMay : mayComplete outcome row with
  | false =>
      refine ⟨_, (alone_closed_iff hMay request s _).mpr rfl, ?_⟩
      refine ⟨row, ?_, ?_⟩
      · rw [← hRow]
      · intro hOpen
        unfold mayComplete at hMay
        rw [hOpen] at hMay
        cases hMay
  | true =>
      have hIncident :
          checkIncident owned outcome
              (readBody numbers c).incidentId =
            .ok c.incidentId :=
        checkIncident_eq hShaped hWord hOwned
      have hBind :
          toolCallBind (readBody numbers c).toolCallCount =
            .ok (c.toolCallCount : Int) :=
        toolCallBind_eq hCount
      refine
        ⟨_,
          (alone_open_iff hMay hIncident hBind hRow request
            _).mpr rfl,
          ?_⟩
      refine ⟨_, rfl, ?_⟩
      intro _
      exact
        recorded_completeRow numbers hTerminal hWord s.clock row

--------------------
-- Completions of the Agent
--------------------

open Agent (Call Completion Deliverable Produced Script Shaped
  completeBody readBody read_completeBody_iff runAgent
  shaped_of_produced)

variable {fromStr : String → Option Json}

/- A body that is read goes through every further check. -/
theorem accepted_completeRequest
    {numbers : Numbers}
    {agent : AgentPrincipal}
    {owned : Int → Bool}
    {c : Completion}
    {s : RunState}
    {row : SentinelRunRow}
    (hShaped : Shaped c)
    (hRead :
      readComplete numbers (completeBody c) =
        .ok (readBody numbers c))
    (hVisible : agentVisibleRun agent s = .ok row)
    (hCount : c.toolCallCount ≤ 2147483647)
    (hOwned :
      ∀ id, c.incidentId = some id →
        -2147483648 ≤ id ∧ id ≤ 2147483647 ∧
          owned id = true)
    (request : Nat) :
    ∃ last,
      Alone s
          (completeRequest numbers agent (completeBody c) owned
            request)
          last ∧
        Accepted c request row s last := by
  obtain ⟨outcome, hTerminal, hWord, hCheck⟩ :=
    check_readBody numbers hShaped
  obtain ⟨last, hAlone, hAccepted⟩ :=
    accepted_storeCompletion numbers hShaped hTerminal hWord
      hCount hOwned (row_of_visible hVisible) request
  refine ⟨last, ?_, hAccepted⟩
  unfold completeRequest
  rw [hRead]
  dsimp only
  unfold postRunComplete
  rw [hCheck]
  dsimp only
  rw [alone_get_iff, hVisible]
  exact hAlone

/- One answer is not both an error and a row. -/
theorem not_accepted_error
    {c : Completion}
    {request : Nat}
    {row : SentinelRunRow}
    {s : RunState}
    {err : ApiError} :
    ¬ Accepted c request row s
        (s.answer request (.error err)) := by
  rintro ⟨after, hLast, -⟩
  have hAnswers := congrArg RunState.answers hLast
  have hOne := List.append_cancel_left hAnswers
  have hPair := (List.cons.inj hOne).1
  cases hPair

/-
  A completion is recorded when it can be decoded, and only
  then: no other check of the handler fails.
-/
theorem completion_recorded_iff
    {c : Completion}
    (hProduced : Produced fromStr c)
    (numbers : Numbers)
    {agent : AgentPrincipal}
    {owned : Int → Bool}
    {s : RunState}
    {row : SentinelRunRow}
    (hVisible : agentVisibleRun agent s = .ok row)
    (hCount : c.toolCallCount ≤ 2147483647)
    (hOwned :
      ∀ id, c.incidentId = some id →
        -2147483648 ≤ id ∧ id ≤ 2147483647 ∧
          owned id = true)
    (request : Nat) :
    (∃ last,
      Alone s
          (completeRequest numbers agent (completeBody c) owned
            request)
          last ∧
        Accepted c request row s last) ↔
      Deliverable numbers.floatText c := by
  have hShaped := shaped_of_produced hProduced
  have hRead (body : CompleteBody) :=
    read_completeBody_iff numbers hShaped hCount
      (fun id hId =>
        ⟨(hOwned id hId).1, (hOwned id hId).2.1⟩) body
  constructor
  · rintro ⟨last, hAlone, hAccepted⟩
    cases hBody : readComplete numbers (completeBody c) with
    | error err =>
        rw [(alone_refused_iff hBody agent owned request s
          last).mp hAlone] at hAccepted
        exact absurd hAccepted not_accepted_error
    | ok body => exact ((hRead body).mp hBody).1
  · intro hDeliverable
    exact
      accepted_completeRequest hShaped
        ((hRead _).mpr ⟨hDeliverable, rfl⟩) hVisible hCount
        hOwned request

/- There is no float in these bodies, nor a number in quotes. -/
def plainNumbers : Numbers where
  floatText := id
  wholeFloat _ := none
  strAsInt _ := .error .parsing

def orgAgent : AgentPrincipal where
  orgId := some "org"
  isScoped := true

/- A run that was claimed, and is open. -/
def claimedRun : SentinelRunRow where
  id := "run"
  orgId := "org"
  triggeredAt := 0
  triggerType := "manual"
  cameraId := none
  toolCallCount := 0
  outcome := .running
  severity := none
  incidentId := none
  startedAt := some 0
  completedAt := none
  manualPrompt := none
  summary := ""
  toolTrace := none
  updatedAt := 0

def claimedState : RunState where
  row := some claimedRun
  clock := 5
  answers := []
  sweeps := []
  winner := some 0

def shownIncident : String := "\x7b\"id\": 7\x7d"

def readsIncident (text : String) : Option Json :=
  if text = shownIncident then
    some (.object [("id", .integer 7)])
  else
    none

def createCall : Call where
  name := "create_incident"
  arguments := .object [("severity", .string "high")]
  id := "call"

/- The model files an incident, and then answers. -/
def filing : Script where
  systemPrompt := "Watch."
  initialMessage := "Look."
  chat iteration _ :=
    if iteration = 0 then
      .ok ⟨[.toolCall createCall]⟩
    else
      .ok ⟨[.text "Filed."]⟩
  call _ _ _ := ⟨shownIncident, []⟩
  timeoutText := "60"

/- Its incident is recorded. -/
theorem completion_recorded_iff_filing :
    ∃ last,
      Alone claimedState
          (completeRequest plainNumbers orgAgent
            (completeBody
              (runAgent readsIncident filing 2).completion)
            (fun id => id == 7) 0)
          last ∧
        Accepted (runAgent readsIncident filing 2).completion 0
          claimedRun claimedState last := by
  refine
    (completion_recorded_iff (Produced.run filing 2) plainNumbers
      rfl (by decide) ?_ 0).mpr
      ⟨by decide, by decide, by decide⟩
  intro id hId
  cases hId
  decide

/- The model answers with a NUL. -/
def nulAnswer : Script where
  systemPrompt := "Watch."
  initialMessage := "Look."
  chat _ _ := .ok ⟨[.text (String.ofList [Char.ofNat 0])]⟩
  call _ _ _ := ⟨"", []⟩
  timeoutText := "60"

theorem read_nulAnswer :
    readComplete plainNumbers
        (completeBody
          (runAgent readsIncident nulAnswer 1).completion) =
      .error
        ⟨422,
          "Text must not contain a NUL (\\u0000) character " ++
            "(summary)"⟩ := by
  rfl

/- Its completion is refused, and the run stays open. -/
theorem nul_completion_refused :
    ¬ ∀ (fromStr : String → Option Json) (c : Completion)
        (numbers : Numbers) (agent : AgentPrincipal)
        (owned : Int → Bool) (request : Nat) (s : RunState)
        (row : SentinelRunRow),
      Produced fromStr c →
      agentVisibleRun agent s = .ok row →
      c.toolCallCount ≤ 2147483647 →
      (∀ id, c.incidentId = some id →
        -2147483648 ≤ id ∧ id ≤ 2147483647 ∧
          owned id = true) →
      ∃ last,
        Alone s
            (completeRequest numbers agent (completeBody c)
              owned request)
            last ∧
          Accepted c request row s last := by
  intro hAll
  obtain ⟨last, hAlone, hAccepted⟩ :=
    hAll readsIncident
      (runAgent readsIncident nulAnswer 1).completion
      plainNumbers orgAgent (fun _ => false) 0 claimedState
      claimedRun (Produced.run nulAnswer 1) rfl (by decide)
      nofun
  rw [alone_refused_iff read_nulAnswer] at hAlone
  rw [hAlone] at hAccepted
  exact not_accepted_error hAccepted

end Sentinel

end SentinelCommand
