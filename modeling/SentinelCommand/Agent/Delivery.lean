import SentinelCommand.Agent.History
import SentinelCommand.Sentinel.CompleteRequest

/-
  The agent's `/complete` body against what Command Center
  reads of one.

  A completion of the agent has the shape that the handler
  asks for, whatever the model said. Two limits the encoder
  does not know of: a body with a NUL character is refused,
  and so is one that takes more than the body limit.

  Main declarations:
    * `Agent.completeBody`
    * `Agent.Produced`, `Agent.Shaped`
    * `Agent.Deliverable`
-/

--------------------
-- Bodies
--------------------

namespace SentinelCommand

namespace Agent

/- `severity` and `incident_id` are omitted, not null. -/
def completeFields (c : Completion) : Fields :=
  [("outcome", .string c.outcome),
    ("summary", .string (Privacy.truncate c.summary 8000)),
    ("tool_call_count", .integer c.toolCallCount),
    ("tool_trace", .array c.toolTrace)] ++
    ((c.severity.map
        (fun severity =>
          ("severity", Json.string severity))).toList ++
      (c.incidentId.map
        (fun id => ("incident_id", Json.integer id))).toList)

def completeBody (c : Completion) : Json :=
  .object (completeFields c)

/- The completions there are: of a run, or a bare error. -/
inductive Produced
    (fromStr : String → Option Json) : Completion → Prop
  | run (script : Script) (maxIterations : Nat) :
      Produced fromStr
        (runAgent fromStr script maxIterations).completion
  | error (summary : String) :
      Produced fromStr (Completion.error summary)

/- The bytes a field takes with its key and colon. -/
def fieldBytes (key : String) (bytes : Nat) : Nat :=
  Json.quotedSize key + 1 + bytes

/- The bytes of a completion as a JSON object. -/
def Completion.wireBytes
    (floatText : String → String)
    (c : Completion) : Nat :=
  Json.enclosedSize
    ([fieldBytes "outcome" (Json.quotedSize c.outcome),
        fieldBytes "summary"
          (Json.quotedSize (Privacy.truncate c.summary 8000)),
        fieldBytes "tool_call_count"
          (toString (c.toolCallCount : Int)).utf8ByteSize,
        fieldBytes "tool_trace"
          (Json.enclosedSize
            (Json.wireSizes floatText c.toolTrace))] ++
      ((c.severity.map
          (fun severity =>
            fieldBytes "severity"
              (Json.quotedSize severity))).toList ++
        (c.incidentId.map
          (fun id =>
            fieldBytes "incident_id"
              (toString id).utf8ByteSize)).toList))

/- No NUL in what is sent of the texts, and not too much. -/
structure Deliverable
    (floatText : String → String)
    (c : Completion) : Prop where
  summary :
    Json.textCarriesNul (Privacy.truncate c.summary 8000) =
      false
  trace : Json.anyCarriesNul c.toolTrace = false
  small : c.wireBytes floatText ≤ Sentinel.maxBodyBytes

--------------------
-- Nesting
--------------------

theorem length_intercalate_cons
    (text : String)
    (rest : List String) :
    text.length ≤ (", ".intercalate (text :: rest)).length ∧
      (", ".intercalate rest).length ≤
        (", ".intercalate (text :: rest)).length := by
  cases rest with
  | nil =>
      rw [String.intercalate_singleton, String.intercalate_nil]
      exact ⟨le_rfl, Nat.zero_le _⟩
  | cons next others =>
      rw [String.intercalate_cons_cons, String.length_append,
        String.length_append]
      omega

mutual

/- A bracket on either side for each level. -/
theorem two_mul_depth_le :
    (value : Json) →
      2 * value.depth ≤ (pythonJsonValue value).length
| .null => Nat.zero_le _
| .bool _ => Nat.zero_le _
| .integer _ => Nat.zero_le _
| .float _ => Nat.zero_le _
| .string _ => Nat.zero_le _
| .array items => by
    have hItems := two_mul_depthOfItems_le items
    unfold Json.depth pythonJsonValue
    rw [String.length_append, String.length_append]
    change 2 * (_ + 1) ≤ 1 + _ + 1
    omega
| .object fields => by
    have hFields := two_mul_depthOfFields_le fields
    unfold Json.depth pythonJsonValue
    rw [String.length_append, String.length_append]
    change 2 * (_ + 1) ≤ 1 + _ + 1
    omega

theorem two_mul_depthOfItems_le :
    (items : List Json) →
      2 * Json.depthOfItems items ≤
        (", ".intercalate (pythonJsonItems items)).length
| [] => Nat.zero_le _
| item :: rest => by
    have hItem := two_mul_depth_le item
    have hRest := two_mul_depthOfItems_le rest
    have hBoth :=
      length_intercalate_cons (pythonJsonValue item)
        (pythonJsonItems rest)
    unfold Json.depthOfItems pythonJsonItems
    omega

theorem two_mul_depthOfFields_le :
    (fields : List (String × Json)) →
      2 * Json.depthOfFields fields ≤
        (", ".intercalate (pythonJsonFields fields)).length
| [] => Nat.zero_le _
| (key, value) :: rest => by
    have hValue := two_mul_depth_le value
    have hRest := two_mul_depthOfFields_le rest
    have hBoth :=
      length_intercalate_cons
        (pythonJsonString key ++ ": " ++ pythonJsonValue value)
        (pythonJsonFields rest)
    rw [String.length_append, String.length_append] at hBoth
    unfold Json.depthOfFields pythonJsonFields
    omega

end

/- A long container is cut, so a kept one is shallow. -/
theorem depth_sanitizeArg_le (value : Json) :
    (sanitizeArg value).depth ≤ 100 := by
  have hDepth := two_mul_depth_le value
  cases value with
  | string text =>
      unfold sanitizeArg
      dsimp only
      split <;> exact Nat.zero_le _
  | array items =>
      unfold sanitizeArg
      dsimp only
      split
      · exact Nat.zero_le _
      · omega
  | object fields =>
      unfold sanitizeArg
      dsimp only
      split
      · exact Nat.zero_le _
      · omega
  | _ => exact Nat.zero_le _

theorem depth_sanitizeArgs_le (args : Fields) :
    (sanitizeArgs args).depth ≤ 101 := by
  have hFields :
      Json.depthOfFields
          (args.map (fun arg => (arg.1, sanitizeArg arg.2))) ≤
        100 := by
    induction args with
    | nil => exact Nat.zero_le _
    | cons arg rest ih =>
        have hArg := depth_sanitizeArg_le arg.2
        rw [List.map_cons]
        unfold Json.depthOfFields
        omega
  unfold sanitizeArgs Json.depth
  omega

/- An entry of the trace: an object, and not a deep one. -/
structure Traced (entry : Json) : Prop where
  isObject : ∃ fields, entry = .object fields
  shallow : entry.depth ≤ 102

theorem traced_traceEntry
    (fromStr : String → Option Json)
    (ret : ToolReturn) :
    Traced (traceEntry fromStr ret) where
  isObject := ⟨_, rfl⟩
  shallow := by
    have hArgs :=
      depth_sanitizeArgs_le (toolCallArguments fromStr ret.call)
    unfold traceEntry
    simp only [Json.depth, Json.depthOfFields]
    omega

theorem depthOfItems_le
    {items : List Json}
    (hTraced : ∀ entry ∈ items, Traced entry) :
    Json.depthOfItems items ≤ 102 := by
  induction items with
  | nil => exact Nat.zero_le _
  | cons entry rest ih =>
      have hEntry := (hTraced entry List.mem_cons_self).shallow
      have hRest :=
        ih (fun other hOther =>
          hTraced other (List.mem_cons_of_mem entry hOther))
      unfold Json.depthOfItems
      omega

--------------------
-- The Shape of a Completion
--------------------

variable {fromStr : String → Option Json}

/-
  An incident has its severity and its id, and nothing else
  has one.
-/
structure Shaped (c : Completion) : Prop where
  outcome :
    (c.outcome = "incident" ∧
        (∃ severity ∈ severities,
          c.severity = some severity) ∧
        c.incidentId.isSome = true) ∨
      ((c.outcome = "no_action" ∨ c.outcome = "error") ∧
        c.severity = none ∧ c.incidentId = none)
  trace : ∀ entry ∈ c.toolTrace, Traced entry

/- The outcomes that the agent reports. -/
def outcomes : List String :=
  ["incident", "no_action", "error"]

theorem mem_outcomes
    {c : Completion}
    (hShaped : Shaped c) :
    c.outcome ∈ outcomes := by
  rcases hShaped.outcome with ⟨hWord, -⟩ | ⟨hWord | hWord, -⟩ <;>
  · rw [hWord]
    decide

theorem mem_of_severityIn
    {fields : Fields}
    {severity : String}
    (hIn : severityIn fields = some severity) :
    severity ∈ severities := by
  unfold severityIn at hIn
  split at hIn
  · split at hIn
    · rename_i hContains
      rw [← Option.some.inj hIn]
      exact List.contains_iff_mem.mp hContains
    · cases hIn
  · cases hIn

theorem mem_of_namedSeverity
    {ret : ToolReturn}
    {severity : String}
    (hNamed : namedSeverity fromStr ret = some severity) :
    severity ∈ severities := by
  unfold namedSeverity at hNamed
  rcases Option.or_eq_some_iff.mp hNamed
    with hStored | ⟨-, hAsked⟩
  · unfold storedSeverity at hStored
    split at hStored
    · rcases Option.bind_eq_some_iff.mp hStored
        with ⟨fields, -, hFields⟩
      exact mem_of_severityIn hFields
    · cases hStored
  · unfold askedSeverity at hAsked
    split at hAsked
    · exact mem_of_severityIn hAsked
    · cases hAsked

/- What the loop keeps is one of the four severities. -/
theorem mem_severity_converse
    {returns : List ToolReturn}
    {severity : String}
    (hKept :
      (converse fromStr returns).severity = some severity) :
    severity ∈ severities := by
  rw [severity_converse] at hKept
  rcases exists_of_lastNamed hKept
    with ⟨_, ret, _, _, hNamed, -⟩
  exact mem_of_namedSeverity hNamed

/- With `low` where none was named. -/
theorem mem_severity_getD
    (fromStr : String → Option Json)
    (returns : List ToolReturn) :
    (converse fromStr returns).severity.getD "low" ∈
      severities := by
  cases hKept : (converse fromStr returns).severity with
  | none => exact List.mem_cons_self
  | some severity => exact mem_severity_converse hKept

theorem shaped_of_ended
    {returns : List ToolReturn}
    {c : Completion}
    (hEnded : Ended (converse fromStr returns) c) :
    Shaped c := by
  have hTrace :
      ∀ entry ∈ (converse fromStr returns).toolTrace,
        Traced entry := by
    rw [toolTrace_converse]
    intro entry hEntry
    rcases List.mem_map.mp hEntry with ⟨ret, -, rfl⟩
    exact traced_traceEntry fromStr ret
  have hSeverity := mem_severity_getD fromStr returns
  cases hEnded with
  | answered text =>
      refine ⟨?_, hTrace⟩
      unfold answered
      dsimp only
      cases (converse fromStr returns).incidentId with
      | none => exact Or.inr ⟨Or.inl rfl, rfl, rfl⟩
      | some id => exact Or.inl ⟨rfl, ⟨_, hSeverity, rfl⟩, rfl⟩
  | truncated summary =>
      unfold truncatedResult
      cases (converse fromStr returns).incidentId with
      | none =>
          exact ⟨Or.inr ⟨Or.inr rfl, rfl, rfl⟩, hTrace⟩
      | some id =>
          exact ⟨Or.inl ⟨rfl, ⟨_, hSeverity, rfl⟩, rfl⟩, hTrace⟩

/- Whatever the model said, and however the run ended. -/
theorem shaped_of_produced
    {c : Completion}
    (hProduced : Produced fromStr c) :
    Shaped c := by
  cases hProduced with
  | run script maxIterations =>
      obtain ⟨rounds, hRounds⟩ :=
        carried_runAgent fromStr script maxIterations
      exact shaped_of_ended hRounds.ended
  | error summary =>
      exact ⟨Or.inr ⟨Or.inr rfl, rfl, rfl⟩, nofun⟩

--------------------
-- Decoding the Body
--------------------

open Sentinel

theorem fieldSizes_append
    (floatText : String → String)
    (fields others : Fields) :
    Json.fieldSizes floatText (fields ++ others) =
      Json.fieldSizes floatText fields ++
        Json.fieldSizes floatText others := by
  induction fields with
  | nil => rfl
  | cons field rest ih =>
      exact congrArg (List.cons _) ih

theorem wireSize_completeBody
    (floatText : String → String)
    (c : Completion) :
    (completeBody c).wireSize floatText =
      c.wireBytes floatText := by
  unfold completeBody Json.wireSize completeFields
    Completion.wireBytes
  rw [fieldSizes_append, fieldSizes_append]
  cases c.severity <;> cases c.incidentId <;> rfl

theorem depthOfFields_append
    (fields others : Fields) :
    Json.depthOfFields (fields ++ others) =
      max (Json.depthOfFields fields)
        (Json.depthOfFields others) := by
  induction fields with
  | nil => exact (Nat.zero_max _).symm
  | cons field rest ih =>
      exact
        (congrArg (max field.2.depth) ih).trans
          (Nat.max_assoc _ _ _).symm

theorem depth_completeBody_lt
    {c : Completion}
    (hShaped : Shaped c) :
    (completeBody c).depth < recursionLimit := by
  have hTrace := depthOfItems_le hShaped.trace
  have hRest (severity : Option String) (id : Option Int) :
      Json.depthOfFields
          ((severity.map
              (fun severity =>
                ("severity", Json.string severity))).toList ++
            (id.map
              (fun id =>
                ("incident_id", Json.integer id))).toList) =
        0 := by
    cases severity <;> cases id <;> rfl
  unfold completeBody Json.depth completeFields recursionLimit
  rw [depthOfFields_append, hRest]
  simp only [Json.depthOfFields, Json.depth]
  omega

mutual

theorem nulLocation_eq_none_iff :
    (loc : List Json) → (value : Json) →
      (value.nulLocation loc = none ↔
        value.carriesNul = false)
| _, .null => iff_of_true rfl rfl
| _, .bool _ => iff_of_true rfl rfl
| _, .integer _ => iff_of_true rfl rfl
| _, .float _ => iff_of_true rfl rfl
| _, .string text => by
    unfold Json.nulLocation Json.carriesNul
    cases Json.textCarriesNul text <;> simp
| loc, .array items => by
    unfold Json.nulLocation Json.carriesNul
    exact nulInItems_eq_none_iff loc 0 items
| loc, .object fields => by
    unfold Json.nulLocation Json.carriesNul
    exact nulInFields_eq_none_iff loc fields

theorem nulInItems_eq_none_iff :
    (loc : List Json) → (i : Int) → (items : List Json) →
      (Json.nulInItems loc i items = none ↔
        Json.anyCarriesNul items = false)
| _, _, [] => iff_of_true rfl rfl
| loc, i, item :: rest => by
    unfold Json.nulInItems Json.anyCarriesNul
    rw [Option.or_eq_none_iff, Bool.or_eq_false_iff,
      nulLocation_eq_none_iff _ item,
      nulInItems_eq_none_iff loc _ rest]

theorem nulInFields_eq_none_iff :
    (loc : List Json) → (fields : List (String × Json)) →
      (Json.nulInFields loc fields = none ↔
        Json.anyFieldCarriesNul fields = false)
| _, [] => iff_of_true rfl rfl
| loc, (key, value) :: rest => by
    unfold Json.nulInFields Json.anyFieldCarriesNul
    rw [Option.or_eq_none_iff, Bool.or_eq_false_iff,
      Bool.or_eq_false_iff, nulInFields_eq_none_iff loc rest]
    cases Json.textCarriesNul key with
    | true => simp
    | false =>
        simp [nulLocation_eq_none_iff (loc ++ [.string key]) value]

end

/- The words of a completion have no NUL of their own. -/
theorem carriesNul_completeBody_eq_false_iff
    {c : Completion}
    (hShaped : Shaped c) :
    (completeBody c).carriesNul = false ↔
      Json.textCarriesNul (Privacy.truncate c.summary 8000) =
          false ∧
        Json.anyCarriesNul c.toolTrace = false := by
  have hOutcomes :
      ∀ outcome ∈ outcomes,
        Json.textCarriesNul outcome = false := by
    decide
  have hSeverities :
      ∀ severity ∈ severities,
        Json.textCarriesNul severity = false := by
    decide
  have hKeys :
      ∀ key ∈ ["outcome", "summary", "tool_call_count",
          "tool_trace", "severity", "incident_id"],
        Json.textCarriesNul key = false := by
    decide
  simp only [List.forall_mem_cons, List.not_mem_nil,
    IsEmpty.forall_iff, implies_true, and_true] at hKeys
  obtain ⟨hOutcome, hSummary, hCount, hTrace, hSeverity, hId⟩ :=
    hKeys
  have hWord := hOutcomes c.outcome (mem_outcomes hShaped)
  unfold completeBody Json.carriesNul completeFields
  rcases hShaped.outcome
    with ⟨-, ⟨severity, hMem, hSome⟩, hIncident⟩ |
      ⟨-, hNone, hIncident⟩
  · obtain ⟨id, hIncident⟩ :=
      Option.isSome_iff_exists.mp hIncident
    simp [hSome, hIncident, Json.anyFieldCarriesNul,
      Json.carriesNul, hOutcome, hSummary, hCount, hTrace,
      hSeverity, hId, hWord, hSeverities severity hMem]
  · simp [hNone, hIncident, Json.anyFieldCarriesNul,
      Json.carriesNul, hOutcome, hSummary, hCount, hTrace,
      hWord]

theorem decode_completeBody
    {floatText : String → String}
    {c : Completion}
    (hShaped : Shaped c)
    (hDeliverable : Deliverable floatText c) :
    decodeJsonBody floatText (completeBody c) =
      .ok (completeBody c) := by
  have hSmall :
      ¬ maxBodyBytes < (completeBody c).wireSize floatText := by
    rw [wireSize_completeBody]
    exact Nat.not_lt.mpr hDeliverable.small
  have hShallow : ¬ recursionLimit ≤ (completeBody c).depth :=
    Nat.not_le.mpr (depth_completeBody_lt hShaped)
  have hNul :
      (completeBody c).nulLocation [.string "body"] = none :=
    (nulLocation_eq_none_iff _ _).mpr
      ((carriesNul_completeBody_eq_false_iff hShaped).mpr
        ⟨hDeliverable.summary, hDeliverable.trace⟩)
  unfold decodeJsonBody
  rw [if_neg hSmall, if_neg hShallow, hNul]

theorem deliverable_of_decode
    {floatText : String → String}
    {c : Completion}
    {decoded : Json}
    (hShaped : Shaped c)
    (hDecode :
      decodeJsonBody floatText (completeBody c) =
        .ok decoded) :
    Deliverable floatText c := by
  unfold decodeJsonBody at hDecode
  split at hDecode
  · cases hDecode
  · rename_i hSmall
    split at hDecode
    · cases hDecode
    · split at hDecode
      · cases hDecode
      · rename_i hNul
        obtain ⟨hSummary, hTrace⟩ :=
          (carriesNul_completeBody_eq_false_iff hShaped).mp
            ((nulLocation_eq_none_iff _ _).mp hNul)
        rw [wireSize_completeBody] at hSmall
        exact ⟨hSummary, hTrace, Nat.not_lt.mp hSmall⟩

--------------------
-- The Fields Read
--------------------

/- What the handler has of a completion. -/
def readBody (numbers : Numbers) (c : Completion) :
    CompleteBody where
  outcome := c.outcome
  severity := c.severity
  incidentId := c.incidentId
  summary := Privacy.truncate c.summary 8000
  toolCallCount := c.toolCallCount
  toolTrace := some (serialiseToolTrace numbers c.toolTrace)

theorem limited_eq_nil
    (name : String)
    {text : String}
    {limit : Nat}
    (hShort : text.toList.length ≤ limit) :
    limited name text limit = [] := by
  unfold limited
  rw [if_neg (Nat.not_lt.mpr hShort)]

theorem requiredString_outcome
    {c : Completion}
    (hShaped : Shaped c) :
    requiredString (completeFields c) "outcome" usizeMax =
      (c.outcome, []) := by
  have hShort :
      ∀ outcome ∈ outcomes,
        outcome.toList.length ≤ usizeMax := by
    decide
  calc requiredString (completeFields c) "outcome" usizeMax
    _ = (c.outcome, limited "outcome" c.outcome usizeMax) := rfl
    _ = (c.outcome, []) := by
      rw [limited_eq_nil "outcome"
        (hShort c.outcome (mem_outcomes hShaped))]

theorem optionalString_severity
    {c : Completion}
    (hShaped : Shaped c) :
    optionalString (completeFields c) "severity" usizeMax =
      (c.severity, []) := by
  have hShort :
      ∀ severity ∈ severities,
        severity.toList.length ≤ usizeMax := by
    decide
  unfold completeFields optionalString
  rcases hShaped.outcome
    with ⟨-, ⟨severity, hMem, hSome⟩, -⟩ | ⟨-, hNone, hId⟩
  · rw [hSome]
    calc (some severity, limited "severity" severity usizeMax)
      _ = (some severity, []) := by
        rw [limited_eq_nil "severity" (hShort severity hMem)]
  · rw [hNone, hId]
    rfl

/- An id that a column of Postgres holds is not clamped. -/
theorem optionalInt_incidentId
    (numbers : Numbers)
    {c : Completion}
    (hShaped : Shaped c)
    (hId :
      ∀ id, c.incidentId = some id →
        -2147483648 ≤ id ∧ id ≤ 2147483647) :
    optionalInt numbers (completeFields c) "incident_id" =
      (c.incidentId, []) := by
  unfold completeFields optionalInt
  rcases hShaped.outcome
    with ⟨-, ⟨severity, -, hSome⟩, hIncident⟩ | ⟨-, hNone, hNoId⟩
  · obtain ⟨id, hIncident⟩ :=
      Option.isSome_iff_exists.mp hIncident
    obtain ⟨hLow, hHigh⟩ := hId id hIncident
    have hClamp : max i64Min (min i64Max id) = id := by
      unfold i64Min i64Max
      omega
    rw [hSome, hIncident]
    calc (some (max i64Min (min i64Max id)), [])
      _ = (some id, []) := by rw [hClamp]
  · rw [hNone, hNoId]
    rfl

theorem stringWithDefault_summary (c : Completion) :
    stringWithDefault (completeFields c) "summary" 8000 =
      (Privacy.truncate c.summary 8000, []) := by
  have hShort :
      (Privacy.truncate c.summary 8000).toList.length ≤ 8000 := by
    unfold Privacy.truncate
    rw [String.toList_ofList]
    exact List.length_take_le _ _
  calc stringWithDefault (completeFields c) "summary" 8000
    _ = (Privacy.truncate c.summary 8000,
          limited "summary" (Privacy.truncate c.summary 8000)
            8000) := rfl
    _ = (Privacy.truncate c.summary 8000, []) := by
      rw [limited_eq_nil "summary" hShort]

theorem intWithDefault_toolCallCount
    (numbers : Numbers)
    {c : Completion}
    (hCount : c.toolCallCount ≤ 2147483647) :
    intWithDefault numbers (completeFields c)
        "tool_call_count" 0 =
      ((c.toolCallCount : Int), []) := by
  have hClamp :
      max i64Min (min i64Max (c.toolCallCount : Int)) =
        c.toolCallCount := by
    unfold i64Min i64Max
    omega
  calc intWithDefault numbers (completeFields c)
        "tool_call_count" 0
    _ = (max i64Min (min i64Max (c.toolCallCount : Int)), []) :=
      rfl
    _ = ((c.toolCallCount : Int), []) := by rw [hClamp]

theorem notObjects_eq_nil
    (name : String)
    (i : Nat)
    {items : List Json}
    (hTraced : ∀ entry ∈ items, Traced entry) :
    notObjects name i items = [] := by
  induction items generalizing i with
  | nil => rfl
  | cons entry rest ih =>
      obtain ⟨fields, rfl⟩ :=
        (hTraced entry List.mem_cons_self).isObject
      exact
        ih (i + 1)
          (fun other hOther =>
            hTraced other (List.mem_cons_of_mem _ hOther))

theorem optionalListOfObjects_toolTrace
    {c : Completion}
    (hShaped : Shaped c) :
    optionalListOfObjects (completeFields c) "tool_trace" =
      (some c.toolTrace, []) := by
  have hNone := notObjects_eq_nil "tool_trace" 0 hShaped.trace
  calc optionalListOfObjects (completeFields c) "tool_trace"
    _ = (if (notObjects "tool_trace" 0 c.toolTrace).isEmpty then
            some c.toolTrace
          else
            none,
          notObjects "tool_trace" 0 c.toolTrace) := rfl
    _ = (some c.toolTrace, []) := by
      rw [hNone]
      rfl

/- No field is refused, and each one is read as it is. -/
theorem parse_completeFields
    (numbers : Numbers)
    {c : Completion}
    (hShaped : Shaped c)
    (hCount : c.toolCallCount ≤ 2147483647)
    (hId :
      ∀ id, c.incidentId = some id →
        -2147483648 ≤ id ∧ id ≤ 2147483647) :
    parseComplete numbers (completeFields c) =
      .ok (readBody numbers c) := by
  unfold parseComplete
  rw [requiredString_outcome hShaped,
    optionalString_severity hShaped,
    optionalInt_incidentId numbers hShaped hId,
    stringWithDefault_summary,
    intWithDefault_toolCallCount numbers hCount,
    optionalListOfObjects_toolTrace hShaped]
  rfl

/- The body is read where it can be decoded. -/
theorem read_completeBody_iff
    (numbers : Numbers)
    {c : Completion}
    (hShaped : Shaped c)
    (hCount : c.toolCallCount ≤ 2147483647)
    (hId :
      ∀ id, c.incidentId = some id →
        -2147483648 ≤ id ∧ id ≤ 2147483647)
    (body : CompleteBody) :
    readComplete numbers (completeBody c) = .ok body ↔
      Deliverable numbers.floatText c ∧
        body = readBody numbers c := by
  have hParse := parse_completeFields numbers hShaped hCount hId
  unfold readComplete
  constructor
  · intro hRead
    cases hDecode :
        decodeJsonBody numbers.floatText (completeBody c) with
    | error err =>
        rw [hDecode] at hRead
        cases hRead
    | ok decoded =>
        have hDeliverable :=
          deliverable_of_decode hShaped hDecode
        rw [decode_completeBody hShaped hDeliverable] at hRead
        have hFields :
            parseComplete numbers (completeFields c) = .ok body :=
          hRead
        rw [hParse] at hFields
        exact ⟨hDeliverable, (Except.ok.inj hFields).symm⟩
  · rintro ⟨hDeliverable, rfl⟩
    rw [decode_completeBody hShaped hDeliverable]
    exact hParse

end Agent

end SentinelCommand
