import Mathlib.Data.List.Induction
import SentinelCommand.Agent.Drain
import SentinelCommand.Privacy.Tables

/-
  The conversation of one run, as far as its Completion goes:
  what `run_agent` keeps of each tool result, and what it
  reports when it ends.

  The reader of JSON is a parameter: `fromStr` is
  `serde_json::from_str`.

  Main declarations:
    * `Agent.Convo`, `Agent.absorb`
    * `Agent.answered`, `Agent.truncatedResult`
    * `Agent.converse`
-/

--------------------
-- Arguments in the Trace
--------------------

namespace SentinelCommand

namespace Agent

/- One character of `python_json_string`. -/
def pythonJsonChar (c : Char) : List Char :=
  if c = Json.quotationMark then
    [Json.backslash, c]
  else if c = Json.backslash then
    [Json.backslash, c]
  else if c.toNat = 10 then
    [Json.backslash, 'n']
  else if c.toNat = 13 then
    [Json.backslash, 'r']
  else if c.toNat = 9 then
    [Json.backslash, 't']
  else if c.toNat = 8 then
    [Json.backslash, 'b']
  else if c.toNat = 12 then
    [Json.backslash, 'f']
  else if 32 ≤ c.toNat ∧ c.toNat ≤ 126 then
    [c]
  else if 65535 < c.toNat then
    let v := c.toNat - 65536
    escape (55296 + v / 1024) ++ escape (56320 + v % 1024)
  else
    escape c.toNat
where
  escape (n : Nat) : List Char :=
    Json.backslash :: 'u' ::
      (Json.hexByte (n / 256) ++ Json.hexByte (n % 256))

def pythonJsonString (s : String) : String :=
  String.ofList
    (Json.quotationMark :: s.toList.flatMap pythonJsonChar ++
      [Json.quotationMark])

mutual

/- `python_json_value`. -/
def pythonJsonValue : Json → String
| .null => "null"
| .bool true => "true"
| .bool false => "false"
| .integer value => toString value
| .float spelling => spelling
| .string text => pythonJsonString text
| .array items =>
    "[" ++ ", ".intercalate (pythonJsonItems items) ++ "]"
| .object fields =>
    "\x7b" ++ ", ".intercalate (pythonJsonFields fields) ++
      "\x7d"

def pythonJsonItems : List Json → List String
| [] => []
| item :: rest => pythonJsonValue item :: pythonJsonItems rest

def pythonJsonFields : List (String × Json) → List String
| [] => []
| (key, value) :: rest =>
    (pythonJsonString key ++ ": " ++ pythonJsonValue value) ::
      pythonJsonFields rest

end

/- A value small enough for the trace. -/
def sanitizeArg : Json → Json
| .string s =>
    if 200 < s.toList.length then
      .string (Privacy.truncate s 200 ++ "…")
    else
      .string s
| .object fields =>
    if 200 < (pythonJsonValue (.object fields)).length then
      .string "<truncated>"
    else
      .object fields
| .array items =>
    if 200 < (pythonJsonValue (.array items)).length then
      .string "<truncated>"
    else
      .array items
| other => other

def sanitizeArgs (args : Fields) : Json :=
  .object (args.map (fun arg => (arg.1, sanitizeArg arg.2)))

--------------------
-- Tool Results
--------------------

structure ToolCall where
  name : String
  arguments : Json

/- A call of the run, with the text it came back with. -/
structure ToolReturn where
  call : ToolCall
  text : String

structure Completion where
  outcome : String
  summary : String
  toolCallCount : Nat
  toolTrace : List Json
  severity : Option String
  incidentId : Option Int

def Completion.error (summary : String) : Completion where
  outcome := "error"
  summary := summary
  toolCallCount := 0
  toolTrace := []
  severity := none
  incidentId := none

/- `INCIDENT_ID_BEARING_TOOLS`. -/
def incidentIdBearingTools : List String :=
  ["create_incident", "update_incident", "finalize_incident"]

def evidenceTools : List String :=
  ["attach_snapshot", "attach_clip", "add_observation"]

def severities : List String :=
  ["low", "medium", "high", "critical"]

/- What the loop keeps from one tool result to the next. -/
structure Convo where
  incidentId : Option Int
  severity : Option String
  incidentSummary : Option String
  toolTrace : List Json

def Convo.new : Convo where
  incidentId := none
  severity := none
  incidentSummary := none
  toolTrace := []

variable (fromStr : String → Option Json)

/- Arguments that are no object are read as none. -/
def toolCallArguments (call : ToolCall) : Fields :=
  match call.arguments with
  | .object fields => fields
  | .string raw => ((fromStr raw).bind Json.asObject).getD []
  | _ => []

/- A text that is a JSON object. -/
def parseObject (text : String) : Option Fields :=
  (fromStr text).bind Json.asObject

/- `Value::as_i64`. -/
def asI64 : Json → Option Int
| .integer n =>
    if -9223372036854775808 ≤ n ∧ n ≤ 9223372036854775807 then
      some n
    else
      none
| _ => none

def parseIdFromToolJson (text : String) : Option Int :=
  if text = "" then
    none
  else
    ((parseObject fromStr text).bind (·.lookup "id")).bind asI64

/- A severity there is, under the key of that name. -/
def severityIn (fields : Fields) : Option String :=
  match fields.lookup "severity" with
  | some (.string severity) =>
      if severities.contains severity then some severity
      else none
  | _ => none

/- A summary that is not blank. -/
def summaryIn (fields : Fields) : Option String :=
  match fields.lookup "summary" with
  | some (.string text) =>
      if Privacy.trimText text = "" then none
      else some (Privacy.trimText text)
  | _ => none

/- Short in the trace, full to the model. -/
def traceEntry (ret : ToolReturn) : Json :=
  .object
    [("tool", .string ret.call.name),
      ("args", sanitizeArgs (toolCallArguments fromStr ret.call)),
      ("result", .string (Privacy.truncate ret.text 800))]

/- The severity the arguments of a write ask for. -/
def noteAsked (ret : ToolReturn) (convo : Convo) : Convo :=
  if
    ret.call.name = "create_incident" ∨
      ret.call.name = "update_incident"
  then
    { convo with
      severity :=
        (severityIn (toolCallArguments fromStr ret.call)).or
          convo.severity }
  else
    convo

/- The incident as stored. -/
def noteIncident (ret : ToolReturn) (convo : Convo) : Convo :=
  { convo with
    incidentId :=
      (parseIdFromToolJson fromStr ret.text).or
        convo.incidentId
    severity :=
      ((parseObject fromStr ret.text).bind severityIn).or
        convo.severity
    incidentSummary :=
      ((parseObject fromStr ret.text).bind summaryIn).or
        convo.incidentSummary }

/- A piece of evidence, naming its incident. -/
def noteEvidence (ret : ToolReturn) (convo : Convo) : Convo :=
  { convo with
    incidentId :=
      (((parseObject fromStr ret.text).bind
        (·.lookup "incident_id")).bind asI64).or
          convo.incidentId }

/- What the loop does with one tool result. -/
def absorb (convo : Convo) (ret : ToolReturn) : Convo :=
  let traced :=
    { convo with
      toolTrace := convo.toolTrace ++ [traceEntry fromStr ret] }
  let asked := noteAsked fromStr ret traced
  if incidentIdBearingTools.contains ret.call.name then
    noteIncident fromStr ret asked
  else if evidenceTools.contains ret.call.name then
    noteEvidence fromStr ret asked
  else
    asked

/- What the loop knows after these tool results. -/
def converse (returns : List ToolReturn) : Convo :=
  returns.foldl (absorb fromStr) Convo.new

/- The model answered without calling a tool. -/
def answered (convo : Convo) (text : String) : Completion :=
  let trimmed := Privacy.trimText text
  let summary :=
    match decide (trimmed = ""), convo.incidentId,
        convo.incidentSummary with
    | true, some id, some about =>
        "Incident #" ++ toString id ++ " filed. " ++ about
    | _, _, _ => trimmed
  { outcome :=
      if convo.incidentId.isSome then "incident"
      else "no_action"
    severity :=
      if convo.incidentId.isSome then
        some (convo.severity.getD "low")
      else
        none
    incidentId := convo.incidentId
    summary :=
      if summary = "" then "(agent returned no summary)"
      else summary
    toolCallCount := convo.toolTrace.length
    toolTrace := convo.toolTrace }

/- A call of `finalize_incident` is in the trace. -/
def finalized (toolTrace : List Json) : Bool :=
  toolTrace.any
    (fun entry =>
      ((field entry "tool").bind Json.asStr) =
        some "finalize_incident")

/- The result for a run cut short. -/
def truncatedResult
    (convo : Convo)
    (summary : String) : Completion :=
  match convo.incidentId with
  | some id =>
      { outcome := "incident"
        severity := some (convo.severity.getD "low")
        incidentId := some id
        summary :=
          match finalized convo.toolTrace,
              convo.incidentSummary with
          | true, some text =>
              "Incident #" ++ toString id ++ " finalized. " ++
                text ++
                "\n\n(The agent stopped at its step limit " ++
                "before writing a closing note.)"
          | _, _ =>
              summary ++
                " An incident was filed before the cutoff."
        toolCallCount := convo.toolTrace.length
        toolTrace := convo.toolTrace }
  | none =>
      { outcome := "error"
        severity := none
        incidentId := none
        summary := summary
        toolCallCount := convo.toolTrace.length
        toolTrace := convo.toolTrace }

end Agent

--------------------
-- What the Loop Keeps
--------------------

namespace Agent

/- The last value that an item of the list names. -/
def lastNamed
    {α β : Type}
    (names : α → Option β)
    (items : List α) : Option β :=
  items.reverse.findSome? names

section LastNamed

variable {α β : Type}
variable {names : α → Option β}

@[simp] theorem lastNamed_nil :
    lastNamed names [] = none := by
  rfl

@[simp] theorem lastNamed_snoc
    (items : List α)
    (item : α) :
    lastNamed names (items ++ [item]) =
      (names item).or (lastNamed names items) := by
  unfold lastNamed
  rw [List.reverse_append, List.reverse_singleton,
    List.singleton_append, List.findSome?_cons]
  cases names item <;> rfl

theorem lastNamed_append
    (items later : List α) :
    lastNamed names (items ++ later) =
      (lastNamed names later).or (lastNamed names items) := by
  unfold lastNamed
  rw [List.reverse_append, List.findSome?_append]

theorem lastNamed_eq_none_iff
    {items : List α} :
    lastNamed names items = none ↔
      ∀ item ∈ items, names item = none := by
  simp [lastNamed, List.findSome?_eq_none_iff]

/- The item that names it, and none after it names another. -/
theorem exists_of_lastNamed
    {items : List α}
    {value : β}
    (hLast : lastNamed names items = some value) :
    ∃ before item after, items = before ++ item :: after ∧
      names item = some value ∧
        ∀ other ∈ after, names other = none := by
  induction items using List.reverseRecOn with
  | nil => cases hLast
  | append_singleton items item ih =>
      rw [lastNamed_snoc] at hLast
      cases hNames : names item with
      | some named =>
          rw [hNames, Option.some_or] at hLast
          rw [hLast] at hNames
          exact ⟨items, item, [], rfl, hNames, by simp⟩
      | none =>
          rw [hNames, Option.none_or] at hLast
          rcases ih hLast with
            ⟨before, found, after, rfl, hFound, hAfter⟩
          refine
            ⟨before, found, after ++ [item], by simp, hFound,
              ?_⟩
          intro other hOther
          rcases List.mem_append.mp hOther with hIn | hIs
          · exact hAfter other hIn
          · rw [List.mem_singleton.mp hIs]
            exact hNames

theorem lastNamed_of_split
    {before after : List α}
    {item : α}
    {value : β}
    (hNames : names item = some value)
    (hAfter : ∀ other ∈ after, names other = none) :
    lastNamed names (before ++ item :: after) = some value := by
  rw [List.append_cons, lastNamed_append, lastNamed_snoc,
    lastNamed_eq_none_iff.mpr hAfter, hNames]
  rfl

end LastNamed

variable {fromStr : String → Option Json}

/- The incident id that the loop takes from a tool result. -/
def namedId
    (fromStr : String → Option Json)
    (ret : ToolReturn) : Option Int :=
  if incidentIdBearingTools.contains ret.call.name then
    parseIdFromToolJson fromStr ret.text
  else if evidenceTools.contains ret.call.name then
    ((parseObject fromStr ret.text).bind
      (·.lookup "incident_id")).bind asI64
  else
    none

/- The severity of the incident in a write's result. -/
def storedSeverity
    (fromStr : String → Option Json)
    (ret : ToolReturn) : Option String :=
  if incidentIdBearingTools.contains ret.call.name then
    (parseObject fromStr ret.text).bind severityIn
  else
    none

/- The severity a write was asked for. -/
def askedSeverity
    (fromStr : String → Option Json)
    (ret : ToolReturn) : Option String :=
  if
    ret.call.name = "create_incident" ∨
      ret.call.name = "update_incident"
  then
    severityIn (toolCallArguments fromStr ret.call)
  else
    none

/- The severity a call names: the stored one, or that asked for. -/
def namedSeverity
    (fromStr : String → Option Json)
    (ret : ToolReturn) : Option String :=
  (storedSeverity fromStr ret).or (askedSeverity fromStr ret)

@[simp] theorem converse_nil :
    converse fromStr [] = Convo.new := by
  rfl

@[simp] theorem converse_snoc
    (returns : List ToolReturn)
    (ret : ToolReturn) :
    converse fromStr (returns ++ [ret]) =
      absorb fromStr (converse fromStr returns) ret := by
  simp [converse, List.foldl_append]

theorem incidentId_noteAsked
    (ret : ToolReturn)
    (convo : Convo) :
    (noteAsked fromStr ret convo).incidentId =
      convo.incidentId := by
  unfold noteAsked
  split
  · rfl
  · rfl

theorem severity_noteAsked
    (ret : ToolReturn)
    (convo : Convo) :
    (noteAsked fromStr ret convo).severity =
      (askedSeverity fromStr ret).or convo.severity := by
  unfold noteAsked askedSeverity
  split
  · rfl
  · rfl

theorem incidentId_absorb
    (convo : Convo)
    (ret : ToolReturn) :
    (absorb fromStr convo ret).incidentId =
      (namedId fromStr ret).or convo.incidentId := by
  unfold absorb namedId
  dsimp only
  split
  · simp only [noteIncident, incidentId_noteAsked]
  · split
    · simp only [noteEvidence, incidentId_noteAsked]
    · simp only [incidentId_noteAsked, Option.none_or]

theorem severity_absorb
    (convo : Convo)
    (ret : ToolReturn) :
    (absorb fromStr convo ret).severity =
      (namedSeverity fromStr ret).or convo.severity := by
  unfold absorb namedSeverity storedSeverity
  dsimp only
  split
  · simp only [noteIncident, severity_noteAsked,
      Option.or_assoc]
  · split
    · simp only [noteEvidence, severity_noteAsked,
        Option.none_or]
    · simp only [severity_noteAsked, Option.none_or]

/- The incident id is the last that a result named. -/
theorem incidentId_converse
    (returns : List ToolReturn) :
    (converse fromStr returns).incidentId =
      lastNamed (namedId fromStr) returns := by
  induction returns using List.reverseRecOn with
  | nil => rfl
  | append_singleton returns ret ih =>
      rw [converse_snoc, incidentId_absorb, ih, lastNamed_snoc]

/- The severity is the last that a call named. -/
theorem severity_converse
    (returns : List ToolReturn) :
    (converse fromStr returns).severity =
      lastNamed (namedSeverity fromStr) returns := by
  induction returns using List.reverseRecOn with
  | nil => rfl
  | append_singleton returns ret ih =>
      rw [converse_snoc, severity_absorb, ih, lastNamed_snoc]

end Agent

end SentinelCommand
