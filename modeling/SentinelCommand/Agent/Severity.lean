import SentinelCommand.Agent.Attempt

/-
  The severity a run reports for its incident, beside the one
  that the tools have stored.

  The incident id comes from results alone, so a refused call
  leaves it in place. The severity is also taken from the
  arguments, before the result is read.

  Main declarations:
    * `Agent.Scene`, `Agent.BehavesAsServer`
    * `Agent.reports_own_severity`
    * `Agent.refused_update_is_reported`
-/

--------------------
-- The Store behind the Tools
--------------------

namespace SentinelCommand

namespace Agent

/- A run, and the severity of each incident in the store. -/
structure Scene where
  attempt : Attempt
  stored : Int → Option String

/- A reply to the run, and what is stored when it comes. -/
structure Delivery where
  reply : Reply
  stored : Int → Option String

def sceneStep
    (fromStr : String → Option Json)
    (limits : RunLimits)
    (s : Scene)
    (e : Delivery) : Scene where
  attempt := attemptStep fromStr limits s.attempt e.reply
  stored := e.stored

/- The call has returned the stored incident. -/
structure Returned
    (fromStr : String → Option Json)
    (text : String)
    (stored stored' : Int → Option String)
    (id : Int)
    (severity : String) : Prop where
  text :
    ∃ fields, parseObject fromStr text = some fields ∧
      fields.lookup "id" = some (.integer id) ∧
        fields.lookup "severity" = some (.string severity)
  valid : severity ∈ severities
  written : stored' id = some severity
  others : ∀ other, other ≠ id → stored' other = stored other

/- The call has returned an error, and changed nothing. -/
structure Refused
    (fromStr : String → Option Json)
    (text : String)
    (stored stored' : Int → Option String) : Prop where
  text :
    ∀ fields, parseObject fromStr text = some fields →
      fields.lookup "id" = none ∧
        fields.lookup "severity" = none
  unchanged : stored' = stored

/-
  A write returns the incident or an error. Only `create` and
  `update` write a severity.
-/
structure ToolLaw
    (fromStr : String → Option Json)
    (ret : ToolReturn)
    (stored stored' : Int → Option String) : Prop where
  write :
    incidentIdBearingTools.contains ret.call.name = true →
      (∃ id severity,
        Returned fromStr ret.text stored stored' id severity) ∨
        Refused fromStr ret.text stored stored'
  other :
    ret.call.name ≠ "create_incident" →
      ret.call.name ≠ "update_incident" → stored' = stored

/- The store changes with the tool calls of the run only. -/
def BehavesAsServer
    (fromStr : String → Option Json)
    (s : Scene)
    (e : Delivery) : Prop :=
  match s.attempt.stage, e.reply with
  | .calling _ call _, .tool text =>
      ToolLaw fromStr { call := call, text := text } s.stored
        e.stored
  | _, _ => e.stored = s.stored

/- The severity that a write's result shows of the incident. -/
def shownSeverity
    (fromStr : String → Option Json)
    (id : Int)
    (ret : ToolReturn) : Option String :=
  if filedId fromStr ret = some id then
    storedSeverity fromStr ret
  else
    none

/-
  What was named after the last result that showed the
  incident, by the arguments of a call or by the result of a
  write to another, is the severity that result showed.
-/
def Undisturbed
    (fromStr : String → Option Json)
    (id : Int)
    (returns : List ToolReturn) : Prop :=
  ∀ before ret after severity,
    returns = before ++ ret :: after →
      shownSeverity fromStr id ret = some severity →
        (∀ later ∈ after,
          shownSeverity fromStr id later = none) →
          ∀ named,
            lastNamed (namedSeverity fromStr) after =
              some named → named = severity

--------------------
-- What Is Stored
--------------------

variable {fromStr : String → Option Json}
variable {limits : RunLimits}
variable {ret : ToolReturn}
variable {stored stored' : Int → Option String}
variable {id : Int}

theorem severityIn_of_lookup
    {fields : Fields}
    {severity : String}
    (hLookup :
      fields.lookup "severity" = some (.string severity))
    (hValid : severity ∈ severities) :
    severityIn fields = some severity := by
  unfold severityIn
  rw [hLookup]
  exact if_pos (List.contains_iff_mem.mpr hValid)

theorem storedSeverity_of_not_bearing
    (hNot :
      incidentIdBearingTools.contains ret.call.name ≠ true) :
    storedSeverity fromStr ret = none := by
  exact if_neg hNot

theorem storedSeverity_returned
    (hBears :
      incidentIdBearingTools.contains ret.call.name = true)
    {severity : String}
    (hReturned :
      Returned fromStr ret.text stored stored' id severity) :
    storedSeverity fromStr ret = some severity := by
  rcases hReturned.text with ⟨fields, hParse, -, hSeverity⟩
  unfold storedSeverity
  rw [if_pos hBears, hParse]
  exact severityIn_of_lookup hSeverity hReturned.valid

theorem filedId_returned
    (hBears :
      incidentIdBearingTools.contains ret.call.name = true)
    {severity : String}
    (hReturned :
      Returned fromStr ret.text stored stored' id severity) :
    filedId fromStr ret = some id := by
  rcases hReturned.text with ⟨fields, hParse, hId, -⟩
  unfold filedId
  rw [if_pos hBears, integerAt_eq_some_iff, hParse]
  exact hId

theorem storedSeverity_refused
    (hRefused : Refused fromStr ret.text stored stored') :
    storedSeverity fromStr ret = none := by
  unfold storedSeverity
  split
  · cases hParse : parseObject fromStr ret.text with
    | none => rfl
    | some fields =>
        have hNone := (hRefused.text fields hParse).2
        simp [severityIn, hNone]
  · rfl

/- A tool result shows what the call has changed. -/
theorem stored_toolLaw
    (hLaw : ToolLaw fromStr ret stored stored')
    (id : Int) :
    stored' id =
      (shownSeverity fromStr id ret).or (stored id) := by
  unfold shownSeverity
  by_cases hBears :
      incidentIdBearingTools.contains ret.call.name = true
  · rcases hLaw.write hBears with
      ⟨about, severity, hReturned⟩ | hRefused
    · rw [filedId_returned hBears hReturned,
        storedSeverity_returned hBears hReturned]
      by_cases hSame : about = id
      · subst hSame
        rw [if_pos rfl]
        exact hReturned.written
      · rw [if_neg (by simpa using hSame), Option.none_or]
        exact hReturned.others id (Ne.symm hSame)
    · rw [storedSeverity_refused hRefused, ite_self,
        Option.none_or, hRefused.unchanged]
  · have hNotCreate : ret.call.name ≠ "create_incident" := by
      intro hName
      rw [hName] at hBears
      exact hBears rfl
    have hNotUpdate : ret.call.name ≠ "update_incident" := by
      intro hName
      rw [hName] at hBears
      exact hBears rfl
    rw [storedSeverity_of_not_bearing hBears, ite_self,
      Option.none_or, hLaw.other hNotCreate hNotUpdate]

/- The store holds what was shown last, or what it held before. -/
def StoreOk
    (fromStr : String → Option Json)
    (stored : Int → Option String)
    (s : Scene) : Prop :=
  AttemptOk fromStr s.attempt ∧
    ∀ id, s.stored id =
      (lastNamed (shownSeverity fromStr id)
        s.attempt.returns).or (stored id)

theorem storeOk_step
    (s : Scene)
    (e : Delivery)
    (hOk : StoreOk fromStr stored s)
    (hServes : BehavesAsServer fromStr s e) :
    StoreOk fromStr stored (sceneStep fromStr limits s e) := by
  refine ⟨attemptOk_step _ _ hOk.1, ?_⟩
  intro id
  unfold BehavesAsServer at hServes
  split at hServes
  · rename_i iteration call rest text hStage hReply
    have hStep :
        attemptStep fromStr limits s.attempt e.reply =
          onTool fromStr limits iteration call rest text
            s.attempt := by
      simp [attemptStep, hStage, hReply]
    simp only [sceneStep]
    rw [hStep, returns_onTool, lastNamed_snoc, Option.or_assoc,
      ← hOk.2 id]
    exact stored_toolLaw hServes id
  · rename_i hOther
    rcases returns_step fromStr limits s.attempt e.reply with
      hSame | ⟨iteration, call, rest, text, hStage, hReply, -⟩
    · simp only [sceneStep]
      rw [hSame, hServes]
      exact hOk.2 id
    · exact absurd hReply (hOther _ _ _ _ hStage)

/- Whatever a run of such tools has shown, the store holds. -/
theorem stored_exec
    {deliveries : List Delivery}
    (hServed :
      Run.Meets (sceneStep fromStr limits)
        (BehavesAsServer fromStr)
        { attempt := picked, stored := stored } deliveries) :
    StoreOk fromStr stored
      (Run.exec (sceneStep fromStr limits)
        { attempt := picked, stored := stored } deliveries) :=
  Run.invariant_of_meets storeOk_step
    ⟨attemptOk_picked, fun _ => rfl⟩ hServed

--------------------
-- What Is Reported
--------------------

variable {returns : List ToolReturn}
variable {stored : Int → Option String}
variable {severity : String}

theorem namedSeverity_of_shown
    {ret : ToolReturn}
    (hShown : shownSeverity fromStr id ret = some severity) :
    namedSeverity fromStr ret = some severity := by
  unfold shownSeverity at hShown
  split at hShown
  · unfold namedSeverity
    rw [hShown, Option.some_or]
  · cases hShown

/- What the loop names last, from the last result shown on. -/
theorem lastNamed_namedSeverity
    {before after : List ToolReturn}
    {ret : ToolReturn}
    (hShown : shownSeverity fromStr id ret = some severity) :
    lastNamed (namedSeverity fromStr)
        (before ++ ret :: after) =
      some
        ((lastNamed (namedSeverity fromStr) after).getD
          severity) := by
  rw [List.append_cons, lastNamed_append, lastNamed_snoc,
    namedSeverity_of_shown hShown, Option.some_or]
  cases lastNamed (namedSeverity fromStr) after with
  | none => rfl
  | some named => rfl

/-
  The severity that the loop ends with is the one shown for
  the incident exactly when nothing was named since.
-/
theorem named_eq_shown_iff
    (hShown :
      lastNamed (shownSeverity fromStr id) returns =
        some severity) :
    lastNamed (namedSeverity fromStr) returns =
        some severity ↔
      Undisturbed fromStr id returns := by
  constructor
  · intro hNamed before ret after severity' hReturns hRet hAfter
      named hLast
    have hLatest :
        lastNamed (shownSeverity fromStr id)
          (before ++ ret :: after) = some severity' :=
      lastNamed_of_split hRet hAfter
    rw [hReturns, hLatest] at hShown
    rw [hReturns, lastNamed_namedSeverity hRet, hLast,
      Option.getD_some] at hNamed
    exact Option.some.inj (hNamed.trans hShown.symm)
  · intro hUndisturbed
    rcases exists_of_lastNamed hShown with
      ⟨before, ret, after, hReturns, hRet, hAfter⟩
    rw [hReturns, lastNamed_namedSeverity hRet]
    cases hLast : lastNamed (namedSeverity fromStr) after with
    | none => rfl
    | some named =>
        have hSame :=
          hUndisturbed before ret after severity hReturns hRet
            hAfter named hLast
        rw [hSame]
        rfl

/-
  When every call that named a severity showed the incident,
  nothing was named since.
-/
theorem undisturbed_of_shown
    (hAll :
      ∀ ret ∈ returns, namedSeverity fromStr ret ≠ none →
        shownSeverity fromStr id ret ≠ none) :
    Undisturbed fromStr id returns := by
  intro before ret after severity hReturns hRet hAfter named
    hLast
  rcases exists_of_lastNamed hLast with
    ⟨first, later, rest, hSplit, hNamed, -⟩
  have hLater : later ∈ after := by
    rw [hSplit]
    exact List.mem_append_right _ List.mem_cons_self
  have hIn : later ∈ returns := by
    rw [hReturns]
    exact
      List.mem_append_right _ (List.mem_cons_of_mem _ hLater)
  have hNone : namedSeverity fromStr later ≠ none := by
    rw [hNamed]
    exact Option.some_ne_none named
  exact absurd (hAfter later hLater) (hAll later hIn hNone)

/- What a run that ends with an incident has to say of it. -/
theorem severity_eq_stored_iff
    {s : Scene}
    (hOk : StoreOk fromStr stored s)
    {result : Completion}
    (hEnded : s.attempt.stage = .disconnecting result)
    (hId : result.incidentId = some id)
    (hShown :
      ∃ ret ∈ s.attempt.returns,
        shownSeverity fromStr id ret ≠ none) :
    result.severity = s.stored id ↔
      Undisturbed fromStr id s.attempt.returns := by
  have hStage := hOk.1.stage
  rw [hEnded] at hStage
  have hConvo : s.attempt.convo.incidentId = some id := by
    rw [← hStage.2.incidentId]
    exact hId
  have hSome :
      lastNamed (shownSeverity fromStr id)
        s.attempt.returns ≠ none := by
    intro hNone
    rcases hShown with ⟨ret, hRet, hShows⟩
    exact hShows (lastNamed_eq_none_iff.mp hNone ret hRet)
  rcases Option.ne_none_iff_exists'.mp hSome with
    ⟨severity, hLast⟩
  rw [hStage.2.severity id hConvo, hOk.2 id, hLast,
    Option.some_or, hOk.1.convo, severity_converse,
    ← named_eq_shown_iff hLast]
  rcases exists_of_lastNamed hLast with
    ⟨before, ret, after, hReturns, hRet, -⟩
  rw [hReturns, lastNamed_namedSeverity hRet, Option.getD_some]

/-
  A run that ends with an incident reports the severity that
  is stored of it exactly when no other severity was named
  after the last result that showed it.
-/
theorem reports_own_severity
    (fromStr : String → Option Json)
    (limits : RunLimits)
    (stored : Int → Option String)
    (deliveries : List Delivery)
    (hServed :
      Run.Meets (sceneStep fromStr limits)
        (BehavesAsServer fromStr)
        { attempt := picked, stored := stored } deliveries)
    {result : Completion}
    (hEnded :
      (Run.exec (sceneStep fromStr limits)
        { attempt := picked, stored := stored }
        deliveries).attempt.stage = .disconnecting result)
    {id : Int}
    (hId : result.incidentId = some id)
    (hShown :
      ∃ ret ∈
          (Run.exec (sceneStep fromStr limits)
            { attempt := picked, stored := stored }
            deliveries).attempt.returns,
        shownSeverity fromStr id ret ≠ none) :
    result.severity =
        (Run.exec (sceneStep fromStr limits)
          { attempt := picked, stored := stored }
          deliveries).stored id ↔
      Undisturbed fromStr id
        (Run.exec (sceneStep fromStr limits)
          { attempt := picked, stored := stored }
          deliveries).attempt.returns := by
  have hOk := stored_exec hServed
  exact severity_eq_stored_iff hOk hEnded hId hShown

/- The incident as the tools return it. -/
def shownAs (severity : String) : String :=
  "\x7b\"id\":1,\"severity\":\"" ++ severity ++ "\"\x7d"

/- Takes these texts for what they say, and others for none. -/
def readsShown (text : String) : Option Json :=
  (severities.find? (fun severity => text = shownAs severity)).map
    (fun severity =>
      .object
        [("id", .integer 1), ("severity", .string severity)])

def storedAs (severity : String) (id : Int) : Option String :=
  if id = 1 then some severity else none

def emptyStore : Int → Option String :=
  fun _ => none

def createLow : ToolCall where
  name := "create_incident"
  arguments := .object [("severity", .string "low")]

/- The run files its incident, as low. -/
def filedLow : List Delivery :=
  [{ reply := granted, stored := emptyStore },
    { reply := .connect none, stored := emptyStore },
    { reply := .turn "" [createLow], stored := emptyStore },
    { reply := .tool (shownAs "low"), stored := storedAs "low" }]

def raiseHigh : ToolCall where
  name := "update_incident"
  arguments :=
    .object
      [("incident_id", .integer 1), ("severity", .string "high")]

/- Then it raises the severity. -/
def escalated : List Delivery :=
  filedLow ++
    [{ reply := .turn "" [raiseHigh], stored := storedAs "low" },
      { reply := .tool (shownAs "high"),
        stored := storedAs "high" },
      { reply := .turn "Filed." [], stored := storedAs "high" }]

def closeCritical : ToolCall where
  name := "update_incident"
  arguments :=
    .object
      [("incident_id", .integer 1), ("status", .string "closed"),
        ("severity", .string "critical")]

def closedRefused : String :=
  "Invalid status 'closed'. Must be one of: " ++
    "open, acknowledged, resolved, dismissed"

/- Then it asks for a status there is not. -/
def misspelt : List Delivery :=
  filedLow ++
    [{ reply := .turn "" [closeCritical],
        stored := storedAs "low" },
      { reply := .tool closedRefused, stored := storedAs "low" },
      { reply := .turn "Filed." [], stored := storedAs "low" }]

/- The incident is filed by such tools. -/
theorem toolLaw_filedLow :
    ToolLaw readsShown
      { call := createLow, text := shownAs "low" } emptyStore
      (storedAs "low") where
  write _ := by
    refine Or.inl ⟨1, "low", ?_⟩
    refine ⟨⟨_, rfl, rfl, rfl⟩, by decide, rfl, ?_⟩
    intro other hOther
    exact if_neg hOther
  other hNot := absurd rfl hNot

theorem toolLaw_raiseHigh :
    ToolLaw readsShown
      { call := raiseHigh, text := shownAs "high" }
      (storedAs "low") (storedAs "high") where
  write _ := by
    refine Or.inl ⟨1, "high", ?_⟩
    refine ⟨⟨_, rfl, rfl, rfl⟩, by decide, rfl, ?_⟩
    intro other hOther
    rw [storedAs, storedAs, if_neg hOther, if_neg hOther]
  other _ hNot := absurd rfl hNot

theorem toolLaw_closeCritical :
    ToolLaw readsShown
      { call := closeCritical, text := closedRefused }
      (storedAs "low") (storedAs "low") where
  write _ := by
    refine Or.inr ⟨?_, rfl⟩
    intro fields hFields
    cases hFields
  other _ _ := rfl

/- The severity raised is the one reported. -/
theorem reports_own_severity_escalated :
    (answered
      (Run.exec (sceneStep readsShown tenTurns)
        { attempt := picked, stored := emptyStore }
        escalated).attempt.convo "Filed.").severity =
      storedAs "high" 1 := by
  refine
    (reports_own_severity readsShown tenTurns emptyStore
      escalated ?_ rfl rfl ?_).mpr ?_
  · exact
      ⟨rfl, rfl, rfl, toolLaw_filedLow, rfl, toolLaw_raiseHigh,
        rfl, trivial⟩
  · exact ⟨_, List.mem_cons_self, by decide⟩
  · apply undisturbed_of_shown
    decide

/- A refused update is reported, and the incident stays low. -/
theorem refused_update_is_reported :
    ¬ ∀ (fromStr : String → Option Json)
        (limits : RunLimits)
        (stored : Int → Option String)
        (deliveries : List Delivery)
        (result : Completion)
        (id : Int),
      Run.Meets (sceneStep fromStr limits)
          (BehavesAsServer fromStr)
          { attempt := picked, stored := stored }
          deliveries →
        (Run.exec (sceneStep fromStr limits)
          { attempt := picked, stored := stored }
          deliveries).attempt.stage = .disconnecting result →
          result.incidentId = some id →
            (∃ ret ∈
                (Run.exec (sceneStep fromStr limits)
                  { attempt := picked, stored := stored }
                  deliveries).attempt.returns,
              shownSeverity fromStr id ret ≠ none) →
              result.severity =
                (Run.exec (sceneStep fromStr limits)
                  { attempt := picked, stored := stored }
                  deliveries).stored id := by
  intro hAll
  have hServed :
      Run.Meets (sceneStep readsShown tenTurns)
        (BehavesAsServer readsShown)
        { attempt := picked, stored := emptyStore } misspelt :=
    ⟨rfl, rfl, rfl, toolLaw_filedLow, rfl,
      toolLaw_closeCritical, rfl, trivial⟩
  have hSame :=
    hAll readsShown tenTurns emptyStore misspelt _ 1 hServed rfl
      rfl ⟨_, List.mem_cons_self, by decide⟩
  have hCritical : some "critical" = some "low" := hSame
  exact absurd hCritical (by decide)

end Agent

end SentinelCommand
