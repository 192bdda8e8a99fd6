import Mathlib.Data.Finset.Basic
import Mathlib.Data.Fintype.Basic

/-
  Tool scoping of the MCP surface: `mcp/scope.rs`.

  The tools are the ones the server serves; a name that is
  none of theirs is the name of no tool.

  Key definitions include:
    * `Mcp.Tool`
    * `Mcp.agentAllowedTools`
    * `Mcp.computeAllowedTools`
-/

--------------------
-- Tools
--------------------

namespace SentinelCommand

namespace Mcp

inductive Tool where
  | listCameras
  | getCamera
  | getStreamUrl
  | viewCamera
  | watchCamera
  | listCameraGroups
  | listNodes
  | getNode
  | getCameraRecordingPolicy
  | getStreamLogs
  | getStreamStats
  | getSystemStatus
  | listIncidents
  | getIncident
  | getIncidentSnapshot
  | getIncidentClip
  | createIncident
  | addObservation
  | attachSnapshot
  | attachClip
  | updateIncident
  | finalizeIncident
  | setCameraRecordingPolicy
  deriving DecidableEq, Repr

def Tool.name : Tool → String
| .listCameras => "list_cameras"
| .getCamera => "get_camera"
| .getStreamUrl => "get_stream_url"
| .viewCamera => "view_camera"
| .watchCamera => "watch_camera"
| .listCameraGroups => "list_camera_groups"
| .listNodes => "list_nodes"
| .getNode => "get_node"
| .getCameraRecordingPolicy => "get_camera_recording_policy"
| .getStreamLogs => "get_stream_logs"
| .getStreamStats => "get_stream_stats"
| .getSystemStatus => "get_system_status"
| .listIncidents => "list_incidents"
| .getIncident => "get_incident"
| .getIncidentSnapshot => "get_incident_snapshot"
| .getIncidentClip => "get_incident_clip"
| .createIncident => "create_incident"
| .addObservation => "add_observation"
| .attachSnapshot => "attach_snapshot"
| .attachClip => "attach_clip"
| .updateIncident => "update_incident"
| .finalizeIncident => "finalize_incident"
| .setCameraRecordingPolicy => "set_camera_recording_policy"

def mcpReadTools : List Tool :=
  [ .listCameras, .getCamera, .getStreamUrl, .viewCamera,
    .watchCamera, .listCameraGroups, .listNodes, .getNode,
    .getCameraRecordingPolicy, .getStreamLogs,
    .getStreamStats, .getSystemStatus, .listIncidents,
    .getIncident, .getIncidentSnapshot, .getIncidentClip ]

def mcpWriteTools : List Tool :=
  [ .createIncident, .addObservation, .attachSnapshot,
    .attachClip, .updateIncident, .finalizeIncident,
    .setCameraRecordingPolicy ]

def agentWriteTools : List Tool :=
  [ .createIncident, .addObservation, .attachSnapshot,
    .attachClip, .updateIncident, .finalizeIncident ]

def allTools : Finset Tool :=
  (mcpReadTools ++ mcpWriteTools).toFinset

def readTools : Finset Tool :=
  mcpReadTools.toFinset

/- The tool of a name, if the server serves one. -/
def Tool.named (name : String) : Option Tool :=
  (mcpReadTools ++ mcpWriteTools).find?
    (fun tool => tool.name = name)

@[simp] theorem mem_allTools
    (tool : Tool) :
    tool ∈ allTools := by
  cases tool <;> decide

instance : Fintype Tool where
  elems := allTools
  complete := mem_allTools

@[simp] theorem name_inj
    {tool other : Tool} :
    tool.name = other.name ↔ tool = other := by
  constructor
  · revert tool other
    decide
  · rintro rfl
    rfl

theorem named_eq_some_iff
    (name : String)
    (tool : Tool) :
    Tool.named name = some tool ↔ tool.name = name := by
  constructor
  · intro hNamed
    simpa using List.find?_some hNamed
  · rintro rfl
    revert tool
    decide

--------------------
-- Allowed Sets
--------------------

/- Reads and agent writes, cut to what the server serves. -/
def computeAgentAllowedTools
    {α : Type}
    [DecidableEq α]
    (all reads agentWrites : Finset α) : Finset α :=
  (reads ∪ agentWrites).filter (fun tool => tool ∈ all)

def agentAllowedTools : Finset Tool :=
  computeAgentAllowedTools allTools readTools
    agentWriteTools.toFinset

/-
  `to_lowercase`, compared only with ASCII words that have
  no letter a non-ASCII character lowers to.
-/
def lower (text : String) : List Char :=
  text.toList.map Char.toLower

/-
  The set of a scope row. An unknown mode is full access, a
  NULL mode is `all`, and `custom` keeps the known names.
-/
def computeAllowedTools
    (scopeMode : Option String)
    (scopeTools : Option (List String)) : Finset Tool :=
  let mode := lower (scopeMode.getD "all")
  if mode = "readonly".toList then
    readTools
  else if mode = "custom".toList then
    match scopeTools.filter (fun tools => !tools.isEmpty) with
    | none => ∅
    | some tools => (tools.filterMap Tool.named).toFinset
  else
    allTools

/- The agent reaches everything but the recording switch. -/
theorem mem_agentAllowedTools
    (tool : Tool) :
    tool ∈ agentAllowedTools ↔
      tool ≠ .setCameraRecordingPolicy := by
  revert tool
  decide

/- A custom scope names every tool it lets through. -/
theorem mem_computeAllowedTools_custom
    {scopeMode : Option String}
    (hMode : lower (scopeMode.getD "all") = "custom".toList)
    (tools : List String)
    (tool : Tool) :
    tool ∈ computeAllowedTools scopeMode (some tools) ↔
      tool.name ∈ tools := by
  have hCustom : "custom".toList ≠ "readonly".toList := by
    decide
  unfold computeAllowedTools
  rw [hMode, if_neg hCustom, if_pos rfl]
  cases tools with
  | nil => simp [Option.filter]
  | cons first rest =>
      have hSome :
          (some (first :: rest)).filter
            (fun tools => !tools.isEmpty) =
              some (first :: rest) := rfl
      rw [hSome]
      simp only [List.mem_toFinset, List.mem_filterMap,
        named_eq_some_iff]
      constructor
      · rintro ⟨name, hMem, rfl⟩
        exact hMem
      · intro hMem
        exact ⟨tool.name, hMem, rfl⟩

/- Calls a minute and calls a day; no entry is no access. -/
def rateLimits (plan : String) : Option (Nat × Nat) :=
  if plan = "pro" then
    some (30, 5000)
  else if plan = "pro_plus" ∨ plan = "self_host" then
    some (120, 30000)
  else
    none

end Mcp

end SentinelCommand
