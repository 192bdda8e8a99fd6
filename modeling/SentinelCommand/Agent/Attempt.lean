import SentinelCommand.Agent.Conversation
import SentinelCommand.Lib.Run

/-
  One run of the agent, from the claim to the last `/complete`:
  `process_one_run`, with the conversation inside, under the
  wall clock of `run_with_timeout`.

  The conversation knows the incident it has filed. The wall
  clock cuts it off from outside, and so does a `/complete`
  that fails three times: both report a bare error.

  Main declarations:
    * `Agent.Attempt`, `Agent.attemptStep`
    * `Agent.run_reports_its_incident`
    * `Agent.clock_drops_the_incident`
-/

--------------------
-- Stages
--------------------

namespace SentinelCommand

namespace Agent

/-
  The iterations of the loop, and the seconds of the model's
  and the run's clock as they are spelled.
-/
structure RunLimits where
  maxIterations : Nat
  llmTimeout : String
  runTimeout : String

/- A Completion is the run's own, or says why it failed. -/
inductive Purpose where
  | result
  | failure (reason : String)
  deriving DecidableEq, Repr

/- What the run waits for. -/
inductive Stage where
  | starting
  | connecting
  | asking (iteration : Nat)
  | calling
      (iteration : Nat)
      (call : ToolCall)
      (rest : List ToolCall)
  | disconnecting (result : Completion)
  | posting
      (purpose : Purpose)
      (completion : Completion)
      (attempt : Nat)
  | pausing
      (purpose : Purpose)
      (completion : Completion)
      (attempt : Nat)
  | over (error : Option String)

/-
  The stage and what the loop has kept. Beside them the tool
  results so far, and the Completions sent.
-/
structure Attempt where
  stage : Stage
  convo : Convo
  returns : List ToolReturn
  posts : List Completion

/- What a run waits for comes back, or its clock runs out. -/
inductive Reply where
  | start (answer : Except String (Option Json))
  | connect (failure : Option String)
  | turn (text : String) (calls : List ToolCall)
  | llmTimeout
  | llmFailed (reason : String)
  | tool (text : String)
  | disconnected
  | completed (failure : Option String)
  | slept
  | clock

variable (fromStr : String → Option Json)
variable (limits : RunLimits)

/- `POST /complete`. -/
def post
    (purpose : Purpose)
    (completion : Completion)
    (attempt : Nat)
    (a : Attempt) : Attempt :=
  { a with
    stage := .posting purpose completion attempt
    posts := a.posts ++ [completion] }

/- The run has failed, and Command Center is told. -/
def giveUp (reason : String) (a : Attempt) : Attempt :=
  post (.failure reason) (.error reason) 1 a

def harnessFailure (reason : String) (a : Attempt) : Attempt :=
  giveUp ("Agent harness failure: " ++ reason) a

/- The next iteration, or the end of the budget. -/
def nextTurn (iteration : Nat) (a : Attempt) : Attempt :=
  if iteration < limits.maxIterations then
    { a with stage := .asking iteration }
  else
    { a with
      stage := .disconnecting
        (truncatedResult a.convo
          ("Reached max iterations (" ++
            toString limits.maxIterations ++
            ") without a terminal answer. " ++
            "Investigation may be incomplete.")) }

def onStart
    (answer : Except String (Option Json))
    (a : Attempt) : Attempt :=
  match answer with
  | .error reason => harnessFailure reason a
  | .ok none => { a with stage := .over none }
  | .ok (some started) =>
      match field started "claimed" with
      | some (.bool false) => { a with stage := .over none }
      | _ => { a with stage := .connecting }

def onConnect
    (failure : Option String)
    (a : Attempt) : Attempt :=
  match failure with
  | some reason => harnessFailure reason a
  | none => nextTurn limits 0 a

def onTurn
    (iteration : Nat)
    (text : String)
    (calls : List ToolCall)
    (a : Attempt) : Attempt :=
  match calls with
  | [] =>
      { a with stage := .disconnecting (answered a.convo text) }
  | call :: rest =>
      { a with stage := .calling iteration call rest }

/- The model's clock ran out, or it failed. -/
def onCutoff (summary : String) (a : Attempt) : Attempt :=
  { a with
    stage := .disconnecting (truncatedResult a.convo summary) }

def onTool
    (iteration : Nat)
    (call : ToolCall)
    (rest : List ToolCall)
    (text : String)
    (a : Attempt) : Attempt :=
  let ret := { call := call, text := text }
  let a' :=
    { a with
      convo := absorb fromStr a.convo ret
      returns := a.returns ++ [ret] }
  match rest with
  | [] => nextTurn limits (iteration + 1) a'
  | next :: rest =>
      { a' with stage := .calling iteration next rest }

/- Three attempts; then the result is lost, or the failure is. -/
def onCompleted
    (purpose : Purpose)
    (completion : Completion)
    (attempt : Nat)
    (failure : Option String)
    (a : Attempt) : Attempt :=
  match purpose, failure with
  | .result, none => { a with stage := .over none }
  | .failure reason, none =>
      { a with stage := .over (some reason) }
  | .result, some err =>
      if attempt < 3 then
        { a with stage := .pausing .result completion attempt }
      else
        harnessFailure err a
  | .failure reason, some _ =>
      if attempt < 3 then
        { a with
          stage := .pausing (.failure reason) completion attempt }
      else
        { a with stage := .over (some reason) }

/- The wall clock covers the run, but not its report. -/
def clocked : Stage → Bool
| .posting (.failure _) _ _ => false
| .pausing (.failure _) _ _ => false
| .over _ => false
| _ => true

/- The reply ends the run without its result. -/
def cuts (stage : Stage) : Reply → Bool
| .clock => clocked stage
| .completed (some _) =>
    match stage with
    | .posting .result _ attempt => decide (3 ≤ attempt)
    | _ => false
| _ => false

def attemptStep (a : Attempt) : Reply → Attempt
| .start answer =>
    match a.stage with
    | .starting => onStart answer a
    | _ => a
| .connect failure =>
    match a.stage with
    | .connecting => onConnect limits failure a
    | _ => a
| .turn text calls =>
    match a.stage with
    | .asking iteration => onTurn iteration text calls a
    | _ => a
| .llmTimeout =>
    match a.stage with
    | .asking iteration =>
        onCutoff
          ("LLM call timed out after " ++ limits.llmTimeout ++
            "s at iteration " ++ toString iteration ++
            ". Investigation incomplete.")
          a
    | _ => a
| .llmFailed reason =>
    match a.stage with
    | .asking _ => onCutoff ("LLM call failed: " ++ reason) a
    | _ => a
| .tool text =>
    match a.stage with
    | .calling iteration call rest =>
        onTool fromStr limits iteration call rest text a
    | _ => a
| .disconnected =>
    match a.stage with
    | .disconnecting result => post .result result 1 a
    | _ => a
| .completed failure =>
    match a.stage with
    | .posting purpose completion attempt =>
        onCompleted purpose completion attempt failure a
    | _ => a
| .slept =>
    match a.stage with
    | .pausing purpose completion attempt =>
        post purpose completion (attempt + 1) a
    | _ => a
| .clock =>
    if clocked a.stage then
      giveUp
        ("Agent hit the " ++ limits.runTimeout ++
          "s wall-clock timeout — investigation incomplete.")
        a
    else
      a

/- A pending run that has been picked. -/
def picked : Attempt where
  stage := .starting
  convo := Convo.new
  returns := []
  posts := []

--------------------
-- Moves
--------------------

/- What a reply does to a run, by the stage it comes in. -/
inductive AttemptMove
    (fromStr : String → Option Json)
    (limits : RunLimits)
    (a : Attempt) : Reply → Attempt → Prop where
  | ignored
      (reply : Reply)
      (hLate : cuts a.stage reply = false) :
      AttemptMove fromStr limits a reply a
  | started
      (hStage : a.stage = .starting)
      (answer : Except String (Option Json)) :
      AttemptMove fromStr limits a (.start answer)
        (onStart answer a)
  | connected
      (hStage : a.stage = .connecting)
      (failure : Option String) :
      AttemptMove fromStr limits a (.connect failure)
        (onConnect limits failure a)
  | turned
      (iteration : Nat)
      (hStage : a.stage = .asking iteration)
      (text : String)
      (calls : List ToolCall) :
      AttemptMove fromStr limits a (.turn text calls)
        (onTurn iteration text calls a)
  | cutoff
      (iteration : Nat)
      (hStage : a.stage = .asking iteration)
      (reply : Reply)
      (hModel : cuts a.stage reply = false)
      (summary : String) :
      AttemptMove fromStr limits a reply (onCutoff summary a)
  | returned
      (iteration : Nat)
      (call : ToolCall)
      (rest : List ToolCall)
      (hStage : a.stage = .calling iteration call rest)
      (text : String) :
      AttemptMove fromStr limits a (.tool text)
        (onTool fromStr limits iteration call rest text a)
  | disconnected
      (result : Completion)
      (hStage : a.stage = .disconnecting result) :
      AttemptMove fromStr limits a .disconnected
        (post .result result 1 a)
  | completed
      (purpose : Purpose)
      (completion : Completion)
      (attempt : Nat)
      (hStage : a.stage = .posting purpose completion attempt)
      (failure : Option String) :
      AttemptMove fromStr limits a (.completed failure)
        (onCompleted purpose completion attempt failure a)
  | slept
      (purpose : Purpose)
      (completion : Completion)
      (attempt : Nat)
      (hStage : a.stage = .pausing purpose completion attempt) :
      AttemptMove fromStr limits a .slept
        (post purpose completion (attempt + 1) a)
  | clock
      (hClocked : clocked a.stage = true)
      (reason : String) :
      AttemptMove fromStr limits a .clock (giveUp reason a)

theorem attemptMove_step
    (fromStr : String → Option Json)
    (limits : RunLimits)
    (a : Attempt)
    (reply : Reply) :
    AttemptMove fromStr limits a reply
      (attemptStep fromStr limits a reply) := by
  cases reply with
  | start answer =>
      simp only [attemptStep]
      split
      · exact .started ‹_› answer
      · exact .ignored _ rfl
  | connect failure =>
      simp only [attemptStep]
      split
      · exact .connected ‹_› failure
      · exact .ignored _ rfl
  | turn text calls =>
      simp only [attemptStep]
      split
      · exact .turned _ ‹_› text calls
      · exact .ignored _ rfl
  | llmTimeout =>
      simp only [attemptStep]
      split
      · exact .cutoff _ ‹_› _ rfl _
      · exact .ignored _ rfl
  | llmFailed reason =>
      simp only [attemptStep]
      split
      · exact .cutoff _ ‹_› _ rfl _
      · exact .ignored _ rfl
  | tool text =>
      simp only [attemptStep]
      split
      · exact .returned _ _ _ ‹_› text
      · exact .ignored _ rfl
  | disconnected =>
      simp only [attemptStep]
      split
      · exact .disconnected _ ‹_›
      · exact .ignored _ rfl
  | completed failure =>
      simp only [attemptStep]
      split
      · exact .completed _ _ _ ‹_› failure
      · rename_i hOther
        refine .ignored _ ?_
        cases failure with
        | none => rfl
        | some err =>
            simp only [cuts]
            split
            · exact absurd ‹_› (hOther _ _ _)
            · rfl
  | slept =>
      simp only [attemptStep]
      split
      · exact .slept _ _ _ ‹_›
      · exact .ignored _ rfl
  | clock =>
      simp only [attemptStep]
      split
      · exact .clock ‹_› _
      · exact .ignored _ (Bool.eq_false_iff.mpr ‹_›)

--------------------
-- What a Stage Says
--------------------

variable {fromStr : String → Option Json}
variable {limits : RunLimits}
variable {a : Attempt}
variable {reply : Reply}

/- The result says what the conversation has come to. -/
structure Concludes
    (convo : Convo)
    (result : Completion) : Prop where
  incidentId : result.incidentId = convo.incidentId
  outcome :
    ∀ id, convo.incidentId = some id →
      result.outcome = "incident"
  severity :
    ∀ id, convo.incidentId = some id →
      result.severity = some (convo.severity.getD "low")

/- The run's result has been sent, and nothing else. -/
structure SentResult (a : Attempt) (result : Completion) : Prop where
  sent : a.posts ≠ []
  only : ∀ post ∈ a.posts, post = result
  concludes : Concludes a.convo result

/- A bare error has been sent. -/
def SentError (a : Attempt) : Prop :=
  ∃ reason, Completion.error reason ∈ a.posts

/- What is known of a run at each stage. -/
def StageOk (a : Attempt) : Stage → Prop
| .starting | .connecting => a.posts = [] ∧ a.returns = []
| .asking _ | .calling _ _ _ => a.posts = []
| .disconnecting result => a.posts = [] ∧ Concludes a.convo result
| .posting .result result _ => SentResult a result
| .pausing .result result _ => SentResult a result
| .posting (.failure _) _ _ => SentError a
| .pausing (.failure _) _ _ => SentError a
| .over none =>
    (a.posts = [] ∧ a.returns = []) ∨ ∃ result, SentResult a result
| .over (some _) => SentError a

structure AttemptOk
    (fromStr : String → Option Json)
    (a : Attempt) : Prop where
  convo : a.convo = converse fromStr a.returns
  stage : StageOk a a.stage

theorem concludes_answered
    (convo : Convo)
    (text : String) :
    Concludes convo (answered convo text) where
  incidentId := rfl
  outcome id hId := by simp [answered, hId]
  severity id hId := by simp [answered, hId]

theorem concludes_truncated
    (convo : Convo)
    (summary : String) :
    Concludes convo (truncatedResult convo summary) := by
  unfold truncatedResult
  cases hId : convo.incidentId with
  | none =>
      refine ⟨hId.symm, ?_, ?_⟩
      · intro id hSome
        rw [hId] at hSome
        cases hSome
      · intro id hSome
        rw [hId] at hSome
        cases hSome
  | some id => exact ⟨hId.symm, fun _ _ => rfl, fun _ _ => rfl⟩

theorem sentError_giveUp
    (reason : String)
    (a : Attempt) :
    SentError (giveUp reason a) :=
  ⟨reason, List.mem_append_right _ (List.mem_singleton_self _)⟩

theorem attemptOk_giveUp
    (hConvo : a.convo = converse fromStr a.returns)
    (reason : String) :
    AttemptOk fromStr (giveUp reason a) :=
  ⟨hConvo, sentError_giveUp reason a⟩

theorem attemptOk_nextTurn
    (hConvo : a.convo = converse fromStr a.returns)
    (hPosts : a.posts = [])
    (iteration : Nat) :
    AttemptOk fromStr (nextTurn limits iteration a) := by
  unfold nextTurn
  split
  · exact ⟨hConvo, hPosts⟩
  · exact ⟨hConvo, hPosts, concludes_truncated _ _⟩

theorem attemptOk_onStart
    (hOk : AttemptOk fromStr a)
    (hStage : a.stage = .starting)
    (answer : Except String (Option Json)) :
    AttemptOk fromStr (onStart answer a) := by
  have hNone := hOk.stage
  rw [hStage] at hNone
  unfold onStart
  split
  · exact attemptOk_giveUp hOk.convo _
  · exact ⟨hOk.convo, Or.inl hNone⟩
  · split
    · exact ⟨hOk.convo, Or.inl hNone⟩
    · exact ⟨hOk.convo, hNone⟩

theorem attemptOk_onConnect
    (hOk : AttemptOk fromStr a)
    (hStage : a.stage = .connecting)
    (failure : Option String) :
    AttemptOk fromStr (onConnect limits failure a) := by
  have hNone := hOk.stage
  rw [hStage] at hNone
  unfold onConnect
  split
  · exact attemptOk_giveUp hOk.convo _
  · exact attemptOk_nextTurn hOk.convo hNone.1 0

theorem attemptOk_onTool
    (hOk : AttemptOk fromStr a)
    {iteration : Nat}
    {call : ToolCall}
    {rest : List ToolCall}
    (hStage : a.stage = .calling iteration call rest)
    (text : String) :
    AttemptOk fromStr
      (onTool fromStr limits iteration call rest text a) := by
  have hPosts := hOk.stage
  rw [hStage] at hPosts
  have hConvo :
      absorb fromStr a.convo { call := call, text := text } =
        converse fromStr
          (a.returns ++ [{ call := call, text := text }]) := by
    rw [converse_snoc, hOk.convo]
  unfold onTool
  split
  · refine attemptOk_nextTurn ?_ ?_ _
    · exact hConvo
    · exact hPosts
  · exact ⟨hConvo, hPosts⟩

theorem attemptOk_onCompleted
    (hOk : AttemptOk fromStr a)
    {purpose : Purpose}
    {completion : Completion}
    {attempt : Nat}
    (hStage : a.stage = .posting purpose completion attempt)
    (failure : Option String) :
    AttemptOk fromStr
      (onCompleted purpose completion attempt failure a) := by
  have hSent := hOk.stage
  rw [hStage] at hSent
  unfold onCompleted
  split
  · exact
      ⟨hOk.convo, Or.inr ⟨completion, hSent.sent, hSent.only,
        hSent.concludes⟩⟩
  · exact ⟨hOk.convo, hSent⟩
  · split
    · exact
        ⟨hOk.convo, hSent.sent, hSent.only, hSent.concludes⟩
    · exact attemptOk_giveUp hOk.convo _
  · split
    · exact ⟨hOk.convo, hSent⟩
    · exact ⟨hOk.convo, hSent⟩

/- A Completion is sent once more. -/
theorem attemptOk_again
    (hOk : AttemptOk fromStr a)
    {purpose : Purpose}
    {completion : Completion}
    {attempt : Nat}
    (hStage : a.stage = .pausing purpose completion attempt) :
    AttemptOk fromStr
      (post purpose completion (attempt + 1) a) := by
  have hSent := hOk.stage
  rw [hStage] at hSent
  refine ⟨hOk.convo, ?_⟩
  cases purpose with
  | result =>
      refine ⟨by simp [post], ?_, hSent.concludes⟩
      intro sent hIn
      rcases List.mem_append.mp hIn with hOld | hNew
      · exact hSent.only sent hOld
      · exact List.mem_singleton.mp hNew
  | failure reason =>
      rcases hSent with ⟨why, hIn⟩
      exact ⟨why, List.mem_append_left _ hIn⟩

theorem attemptOk_step
    (a : Attempt)
    (reply : Reply)
    (hOk : AttemptOk fromStr a) :
    AttemptOk fromStr (attemptStep fromStr limits a reply) := by
  have hMove := attemptMove_step fromStr limits a reply
  have hStageOk := hOk.stage
  generalize attemptStep fromStr limits a reply = next at hMove ⊢
  cases hMove with
  | ignored => exact hOk
  | started hStage answer =>
      exact attemptOk_onStart hOk hStage answer
  | connected hStage failure =>
      exact attemptOk_onConnect hOk hStage failure
  | turned iteration hStage text calls =>
      rw [hStage] at hStageOk
      cases calls with
      | nil =>
          exact ⟨hOk.convo, hStageOk, concludes_answered _ _⟩
      | cons call rest => exact ⟨hOk.convo, hStageOk⟩
  | cutoff iteration hStage reply hModel summary =>
      rw [hStage] at hStageOk
      exact ⟨hOk.convo, hStageOk, concludes_truncated _ _⟩
  | returned iteration call rest hStage text =>
      exact attemptOk_onTool hOk hStage text
  | disconnected result hStage =>
      rw [hStage] at hStageOk
      refine ⟨hOk.convo, by simp [post], ?_, hStageOk.2⟩
      simp [post, hStageOk.1]
  | completed purpose completion attempt hStage failure =>
      exact attemptOk_onCompleted hOk hStage failure
  | slept purpose completion attempt hStage =>
      exact attemptOk_again hOk hStage
  | clock hClocked reason => exact attemptOk_giveUp hOk.convo _

theorem attemptOk_picked : AttemptOk fromStr picked :=
  ⟨rfl, rfl, rfl⟩

--------------------
-- The Incident of a Run
--------------------

variable {returns : List ToolReturn}

/- The integer under a key of the object that the text is. -/
def integerAt
    (fromStr : String → Option Json)
    (key text : String) : Option Int :=
  match (parseObject fromStr text).bind (·.lookup key) with
  | some (.integer n) => some n
  | _ => none

/- The incident a write came back with. -/
def filedId
    (fromStr : String → Option Json)
    (ret : ToolReturn) : Option Int :=
  if incidentIdBearingTools.contains ret.call.name then
    integerAt fromStr "id" ret.text
  else
    none

/- The incident a write or a piece of evidence is about. -/
def shownId
    (fromStr : String → Option Json)
    (ret : ToolReturn) : Option Int :=
  if incidentIdBearingTools.contains ret.call.name then
    integerAt fromStr "id" ret.text
  else if evidenceTools.contains ret.call.name then
    integerAt fromStr "incident_id" ret.text
  else
    none

/- Some write of the run came back with an incident. -/
def Filed
    (fromStr : String → Option Json)
    (returns : List ToolReturn) : Prop :=
  ∃ ret ∈ returns, filedId fromStr ret ≠ none

/- The number is an `i64`. -/
def Fits (n : Int) : Prop :=
  -9223372036854775808 ≤ n ∧ n ≤ 9223372036854775807

/-
  If the run filed an incident, every Completion sent for it
  says `incident`, with the incident it last worked on.
-/
def Reported
    (fromStr : String → Option Json)
    (a : Attempt) : Prop :=
  Filed fromStr a.returns →
    ∀ id, lastNamed (shownId fromStr) a.returns = some id →
      a.posts ≠ [] ∧
        ∀ post ∈ a.posts,
          post.outcome = "incident" ∧ post.incidentId = some id

/-
  Once an incident is filed, the wall clock does not run out
  before a `/complete` is accepted, and the third attempt
  does not fail.
-/
def Spared
    (fromStr : String → Option Json)
    (a : Attempt)
    (reply : Reply) : Prop :=
  Filed fromStr a.returns → cuts a.stage reply = false

/- If the run filed an incident, the last id fits its field. -/
def IdFits
    (fromStr : String → Option Json)
    (returns : List ToolReturn) : Prop :=
  Filed fromStr returns →
    ∀ id, lastNamed (shownId fromStr) returns = some id →
      Fits id

theorem asI64_eq_some_iff
    {value : Json}
    {n : Int} :
    asI64 value = some n ↔ value = .integer n ∧ Fits n := by
  unfold asI64 Fits
  cases value with
  | integer m =>
      simp only [Json.integer.injEq]
      constructor
      · intro hSome
        split at hSome
        · cases hSome
          exact ⟨rfl, ‹_›⟩
        · cases hSome
      · rintro ⟨rfl, hFits⟩
        exact if_pos hFits
  | null => simp
  | bool b => simp
  | float spelling => simp
  | string text => simp
  | array items => simp
  | object fields => simp

theorem integerAt_eq_some_iff
    {key text : String}
    {n : Int} :
    integerAt fromStr key text = some n ↔
      (parseObject fromStr text).bind (·.lookup key) =
        some (.integer n) := by
  unfold integerAt
  constructor
  · intro hSome
    split at hSome
    · cases hSome
      assumption
    · cases hSome
  · intro hSome
    rw [hSome]

/- The loop takes an id that fits, and passes over the rest. -/
theorem namedId_eq_some_iff
    (hEmpty : fromStr "" = none)
    {ret : ToolReturn}
    {n : Int} :
    namedId fromStr ret = some n ↔
      shownId fromStr ret = some n ∧ Fits n := by
  unfold namedId shownId
  split
  · rw [integerAt_eq_some_iff, parseIdFromToolJson]
    by_cases hText : ret.text = ""
    · rw [if_pos hText, hText, parseObject, hEmpty]
      simp
    · rw [if_neg hText, Option.bind_eq_some_iff]
      simp only [asI64_eq_some_iff]
      constructor
      · rintro ⟨value, hValue, rfl, hFits⟩
        exact ⟨hValue, hFits⟩
      · rintro ⟨hValue, hFits⟩
        exact ⟨_, hValue, rfl, hFits⟩
  · split
    · rw [integerAt_eq_some_iff, Option.bind_eq_some_iff]
      simp only [asI64_eq_some_iff]
      constructor
      · rintro ⟨value, hValue, rfl, hFits⟩
        exact ⟨hValue, hFits⟩
      · rintro ⟨hValue, hFits⟩
        exact ⟨_, hValue, rfl, hFits⟩
    · simp

/- The last id is kept exactly when it fits. -/
theorem lastNamed_namedId_iff
    (hEmpty : fromStr "" = none)
    {id : Int}
    (hLast : lastNamed (shownId fromStr) returns = some id) :
    lastNamed (namedId fromStr) returns = some id ↔ Fits id := by
  constructor
  · intro hNamed
    rcases exists_of_lastNamed hNamed with
      ⟨before, ret, after, -, hRet, -⟩
    exact ((namedId_eq_some_iff hEmpty).mp hRet).2
  · intro hFits
    rcases exists_of_lastNamed hLast with
      ⟨before, ret, after, rfl, hRet, hAfter⟩
    apply lastNamed_of_split
    · exact (namedId_eq_some_iff hEmpty).mpr ⟨hRet, hFits⟩
    · intro other hOther
      apply Option.eq_none_iff_forall_ne_some.mpr
      intro n hNamed
      have hShown := ((namedId_eq_some_iff hEmpty).mp hNamed).1
      rw [hAfter other hOther] at hShown
      cases hShown

theorem exists_lastNamed_of_filed
    (hFiled : Filed fromStr returns) :
    ∃ id, lastNamed (shownId fromStr) returns = some id := by
  rcases hFiled with ⟨ret, hRet, hId⟩
  apply Option.ne_none_iff_exists'.mp
  intro hNone
  have hThis := lastNamed_eq_none_iff.mp hNone ret hRet
  unfold filedId at hId
  unfold shownId at hThis
  split at hId
  · rename_i hBears
    rw [if_pos hBears] at hThis
    exact hId hThis
  · exact hId rfl

--------------------
-- Runs That Are Not Cut Off
--------------------

/- The run has given up, and reports that. -/
def failing : Stage → Bool
| .posting (.failure _) _ _ => true
| .pausing (.failure _) _ _ => true
| .over (some _) => true
| _ => false

theorem returns_nextTurn
    (iteration : Nat)
    (a : Attempt) :
    (nextTurn limits iteration a).returns = a.returns := by
  unfold nextTurn
  split
  · rfl
  · rfl

theorem failing_nextTurn
    (iteration : Nat)
    (a : Attempt) :
    failing (nextTurn limits iteration a).stage = false := by
  unfold nextTurn
  split
  · rfl
  · rfl

theorem returns_onTool
    (iteration : Nat)
    (call : ToolCall)
    (rest : List ToolCall)
    (text : String)
    (a : Attempt) :
    (onTool fromStr limits iteration call rest text a).returns =
      a.returns ++ [{ call := call, text := text }] := by
  unfold onTool
  cases rest with
  | nil => exact returns_nextTurn _ _
  | cons next rest => rfl

theorem failing_onTool
    (iteration : Nat)
    (call : ToolCall)
    (rest : List ToolCall)
    (text : String)
    (a : Attempt) :
    failing
      (onTool fromStr limits iteration call rest text a).stage =
        false := by
  unfold onTool
  cases rest with
  | nil => exact failing_nextTurn _ _
  | cons next rest => rfl

theorem returns_onCompleted
    (purpose : Purpose)
    (completion : Completion)
    (attempt : Nat)
    (failure : Option String)
    (a : Attempt) :
    (onCompleted purpose completion attempt failure a).returns =
      a.returns := by
  unfold onCompleted
  split
  · rfl
  · rfl
  · split
    · rfl
    · rfl
  · split
    · rfl
    · rfl

theorem failing_onCompleted
    (purpose : Purpose)
    (completion : Completion)
    (attempt : Nat)
    (failure : Option String)
    (a : Attempt) :
    failing
      (onCompleted purpose completion attempt failure a).stage =
        (failing (.posting purpose completion attempt) ||
          cuts (.posting purpose completion attempt)
            (.completed failure)) := by
  unfold onCompleted
  split
  · rfl
  · rfl
  · split
    · rename_i hMore
      simp [failing, cuts, hMore]
    · rename_i hLast
      have hThird : 3 ≤ attempt := Nat.le_of_not_lt hLast
      simp [failing, cuts, harnessFailure, giveUp, post, hThird]
  · split
    · rfl
    · rfl

theorem returns_onStart
    (answer : Except String (Option Json))
    (a : Attempt) :
    (onStart answer a).returns = a.returns := by
  unfold onStart
  split
  · rfl
  · rfl
  · split
    · rfl
    · rfl

theorem returns_onConnect
    (failure : Option String)
    (a : Attempt) :
    (onConnect limits failure a).returns = a.returns := by
  unfold onConnect
  split
  · rfl
  · exact returns_nextTurn _ _

/- A tool result is added while the loop runs, and never else. -/
theorem returns_step
    (fromStr : String → Option Json)
    (limits : RunLimits)
    (a : Attempt)
    (reply : Reply) :
    (attemptStep fromStr limits a reply).returns = a.returns ∨
      ∃ iteration call rest text,
        a.stage = .calling iteration call rest ∧
          reply = .tool text ∧
            attemptStep fromStr limits a reply =
              onTool fromStr limits iteration call rest text
                a := by
  have hMove := attemptMove_step fromStr limits a reply
  generalize attemptStep fromStr limits a reply = next at hMove ⊢
  cases hMove with
  | returned iteration call rest hStage text =>
      exact
        Or.inr ⟨iteration, call, rest, text, hStage, rfl, rfl⟩
  | started hStage answer =>
      exact Or.inl (returns_onStart answer a)
  | connected hStage failure =>
      exact Or.inl (returns_onConnect failure a)
  | completed purpose completion attempt hStage failure =>
      exact Or.inl (returns_onCompleted _ _ _ failure a)
  | turned iteration hStage text calls =>
      cases calls with
      | nil => exact Or.inl rfl
      | cons call rest => exact Or.inl rfl
  | ignored => exact Or.inl rfl
  | cutoff => exact Or.inl rfl
  | disconnected => exact Or.inl rfl
  | slept => exact Or.inl rfl
  | clock => exact Or.inl rfl

/- Past the first tool result, only a cut makes the run fail. -/
theorem failing_step
    (hOk : AttemptOk fromStr a)
    (hReturns : a.returns ≠ [])
    (reply : Reply) :
    failing (attemptStep fromStr limits a reply).stage =
      (failing a.stage || cuts a.stage reply) := by
  have hMove := attemptMove_step fromStr limits a reply
  have hStageOk := hOk.stage
  generalize attemptStep fromStr limits a reply = next at hMove ⊢
  cases hMove with
  | ignored reply hLate => rw [hLate, Bool.or_false]
  | started hStage answer =>
      rw [hStage] at hStageOk
      exact absurd hStageOk.2 hReturns
  | connected hStage failure =>
      rw [hStage] at hStageOk
      exact absurd hStageOk.2 hReturns
  | turned iteration hStage text calls =>
      rw [hStage]
      cases calls with
      | nil => rfl
      | cons call rest => rfl
  | cutoff iteration hStage reply hModel summary =>
      rw [hModel, hStage]
      rfl
  | returned iteration call rest hStage text =>
      rw [hStage]
      exact failing_onTool _ _ _ _ _
  | disconnected result hStage =>
      rw [hStage]
      rfl
  | completed purpose completion attempt hStage failure =>
      rw [hStage]
      exact failing_onCompleted _ _ _ failure a
  | slept purpose completion attempt hStage =>
      rw [hStage]
      cases purpose with
      | result => rfl
      | failure reason => rfl
  | clock hClocked reason =>
      rw [cuts, hClocked, Bool.or_true]
      rfl

theorem filed_append
    (hFiled : Filed fromStr returns)
    (later : List ToolReturn) :
    Filed fromStr (returns ++ later) := by
  rcases hFiled with ⟨ret, hRet, hId⟩
  exact ⟨ret, List.mem_append_left _ hRet, hId⟩

theorem returns_ne_nil_of_filed
    (hFiled : Filed fromStr returns) :
    returns ≠ [] := by
  rcases hFiled with ⟨ret, hRet, -⟩
  exact List.ne_nil_of_mem hRet

/- A run that filed its incident has not given up. -/
def Kept
    (fromStr : String → Option Json)
    (a : Attempt) : Prop :=
  Filed fromStr a.returns → failing a.stage = false

theorem kept_step
    (a : Attempt)
    (reply : Reply)
    (hOk : AttemptOk fromStr a) :
    Kept fromStr (attemptStep fromStr limits a reply) ↔
      Kept fromStr a ∧ Spared fromStr a reply := by
  unfold Kept Spared
  have hReturns := returns_step fromStr limits a reply
  by_cases hFiled : Filed fromStr a.returns
  · have hNext :
        Filed fromStr
          (attemptStep fromStr limits a reply).returns := by
      rcases hReturns with
        hSame | ⟨iteration, call, rest, text, -, -, hTool⟩
      · rw [hSame]
        exact hFiled
      · rw [hTool, returns_onTool]
        exact filed_append hFiled _
    have hFailing :
        failing (attemptStep fromStr limits a reply).stage =
          (failing a.stage || cuts a.stage reply) :=
      failing_step hOk (returns_ne_nil_of_filed hFiled) reply
    simp [hFiled, hNext, hFailing]
  · have hNext :
        Filed fromStr
            (attemptStep fromStr limits a reply).returns →
          failing (attemptStep fromStr limits a reply).stage =
            false := by
      intro hLater
      rcases hReturns with
        hSame | ⟨iteration, call, rest, text, -, -, hTool⟩
      · rw [hSame] at hLater
        exact absurd hLater hFiled
      · rw [hTool]
        exact failing_onTool _ _ _ _ _
    simp only [hFiled, false_implies, and_true, iff_true]
    exact hNext

/- The run has not given up exactly when nothing cut it off. -/
theorem kept_iff_meets
    (fromStr : String → Option Json)
    (limits : RunLimits)
    (replies : List Reply) :
    Kept fromStr
        (Run.exec (attemptStep fromStr limits) picked
          replies) ↔
      Run.Meets (attemptStep fromStr limits) (Spared fromStr)
        picked replies := by
  have hAlways :
      Run.Meets (attemptStep fromStr limits)
        (fun _ _ => True) picked replies :=
    Run.meets_of_forall (fun _ _ _ => trivial) picked
  have hKept :=
    Run.good_exec_iff_meets (Kept fromStr)
      (fun a reply hOk _ => attemptOk_step a reply hOk)
      (fun a reply hOk _ => kept_step a reply hOk)
      attemptOk_picked hAlways
  rw [hKept]
  exact and_iff_right (fun _ => rfl)

/- What a run that is over has sent. -/
theorem reported_iff_kept
    (hEmpty : fromStr "" = none)
    (hOk : AttemptOk fromStr a)
    {error : Option String}
    (hOver : a.stage = .over error) :
    Reported fromStr a ↔
      Kept fromStr a ∧ IdFits fromStr a.returns := by
  have hStage := hOk.stage
  rw [hOver] at hStage
  constructor
  · intro hReported
    constructor
    · intro hFiled
      rcases exists_lastNamed_of_filed hFiled with ⟨id, hLast⟩
      cases error with
      | none => rw [hOver]; rfl
      | some reason =>
          rcases hStage with ⟨why, hSent⟩
          have hBad := ((hReported hFiled id hLast).2 _ hSent).2
          cases hBad
    · intro hFiled id hLast
      rcases hReported hFiled id hLast with ⟨hSome, hAll⟩
      cases error with
      | some reason =>
          rcases hStage with ⟨why, hSent⟩
          cases (hAll _ hSent).2
      | none =>
          rcases hStage with hNone | ⟨result, hResult⟩
          · exact absurd hNone.1 hSome
          · rcases List.exists_mem_of_ne_nil _ hSome with
              ⟨sent, hSent⟩
            have hId := (hAll sent hSent).2
            rw [hResult.only sent hSent,
              hResult.concludes.incidentId, hOk.convo,
              incidentId_converse] at hId
            exact (lastNamed_namedId_iff hEmpty hLast).mp hId
  · rintro ⟨hKept, hFits⟩ hFiled id hLast
    cases error with
    | some reason =>
        have hBad := hKept hFiled
        rw [hOver] at hBad
        cases hBad
    | none =>
        have hId : a.convo.incidentId = some id := by
          rw [hOk.convo, incidentId_converse]
          exact
            (lastNamed_namedId_iff hEmpty hLast).mpr
              (hFits hFiled id hLast)
        rcases hStage with hNone | ⟨result, hResult⟩
        · exact absurd hNone.2 (returns_ne_nil_of_filed hFiled)
        · refine ⟨hResult.sent, ?_⟩
          intro sent hSent
          rw [hResult.only sent hSent]
          exact
            ⟨hResult.concludes.outcome id hId,
              hResult.concludes.incidentId.trans hId⟩

/-
  A run that is over has reported the incident it filed
  exactly when nothing cut it off after the filing, and the
  incident's id fits its field.
-/
theorem run_reports_its_incident
    (fromStr : String → Option Json)
    (hEmpty : fromStr "" = none)
    (limits : RunLimits)
    (replies : List Reply)
    {error : Option String}
    (hOver :
      (Run.exec (attemptStep fromStr limits) picked
        replies).stage = .over error) :
    Reported fromStr
        (Run.exec (attemptStep fromStr limits) picked
          replies) ↔
      Run.Meets (attemptStep fromStr limits) (Spared fromStr)
          picked replies ∧
        IdFits fromStr
          (Run.exec (attemptStep fromStr limits) picked
            replies).returns := by
  have hOk :
      AttemptOk fromStr
        (Run.exec (attemptStep fromStr limits) picked
          replies) :=
    Run.invariant_exec attemptOk_step replies attemptOk_picked
  rw [reported_iff_kept hEmpty hOk hOver, kept_iff_meets]

/- A `/start` that was granted. -/
def granted : Reply :=
  .start (.ok (some (.object [("claimed", .bool true)])))

def createCall : ToolCall where
  name := "create_incident"
  arguments := .object [("severity", .string "high")]

/- The tool's answer, and an answer that is no JSON. -/
def readsReport (text : String) : Option Json :=
  if text = "\x7b\"id\": 9\x7d" then
    some (.object [("id", .integer 9)])
  else
    none

def tenTurns : RunLimits where
  maxIterations := 10
  llmTimeout := "120"
  runTimeout := "300"

/- The run files its incident. -/
def filing : List Reply :=
  [granted, .connect none, .turn "" [createCall],
    .tool "\x7b\"id\": 9\x7d"]

/- The model's clock runs out after the filing. -/
def modelTimedOut : List Reply :=
  filing ++ [.llmTimeout, .disconnected, .completed none]

/- The incident is reported. -/
theorem run_reports_its_incident_modelTimedOut :
    Reported readsReport
      (Run.exec (attemptStep readsReport tenTurns) picked
        modelTimedOut) := by
  have hNamed :
      lastNamed (shownId readsReport)
          (Run.exec (attemptStep readsReport tenTurns) picked
            modelTimedOut).returns =
        some 9 := by
    rfl
  apply
    (run_reports_its_incident readsReport rfl tenTurns
      modelTimedOut rfl).mpr
  constructor
  · simp [modelTimedOut, filing, granted, Spared, cuts]
  · intro _ id hLast
    rw [hNamed] at hLast
    cases hLast
    exact ⟨by decide, by decide⟩

/- The run's clock runs out: the report is a bare error. -/
theorem clock_drops_the_incident :
    ¬ ∀ (fromStr : String → Option Json)
        (limits : RunLimits)
        (replies : List Reply)
        (error : Option String),
      (Run.exec (attemptStep fromStr limits) picked
          replies).stage = .over error →
        Reported fromStr
          (Run.exec (attemptStep fromStr limits) picked
            replies) := by
  intro hAll
  have hReported :=
    hAll readsReport tenTurns
      (filing ++ [.clock, .completed none]) _ rfl
  have hFiled :
      Filed readsReport
        [{ call := createCall, text := "\x7b\"id\": 9\x7d" }] :=
    ⟨_, List.mem_singleton_self _, by decide⟩
  have hSent := (hReported hFiled 9 rfl).2 _ List.mem_cons_self
  cases hSent.2

end Agent

end SentinelCommand
