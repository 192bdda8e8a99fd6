import SentinelCommand.Audit.PythonJson
import SentinelCommand.Lib.Run
import SentinelCommand.Mcp.Auth
import SentinelCommand.Sentinel.CompleteRequest

/-
  The life of an API key: `api/keys.rs` mints and revokes it,
  an erasure deletes it with its org, and the two surfaces
  that share `mcp_api_keys` look it up by its hash.

  Each request is one step. The limiters, the audit rows and
  the notifications are left out, as are the columns that no
  lookup reads.

  Key definitions include:
    * `Mcp.readMcpKey`, `Mcp.readIntegrationKey`
    * `Mcp.KeyStore`, `Mcp.keyStep`

  Correctness is proven by:
    * `Mcp.live_exec_iff`, `Mcp.active_exec_iff`
    * `Mcp.reach_exec_iff`
-/

--------------------
-- Requests
--------------------

namespace SentinelCommand

namespace Mcp

open Sentinel

/- What an accepted body asks for. -/
structure KeyRequest where
  name : String
  scopeMode : String
  scopeTools : List String
  deriving DecidableEq, Repr

/- Absent is the fallback, and null is not absent. -/
def nameField (fallback : String) (body : Fields) : Reading String :=
  match body.lookup "name" with
  | none => (fallback, [])
  | some (.string text) => (text, limited "name" text 100)
  | some other => ("", [stringType "name" other])

def scopeModes : List String :=
  ["all", "readonly", "custom"]

def modeError (input : Json) : BodyError :=
  fieldError "literal_error" "scope_mode"
    "Input should be 'all', 'readonly' or 'custom'" input
    (some
      (.object
        [("expected", .string "'all', 'readonly' or 'custom'")]))

def modeField (body : Fields) : Reading String :=
  match body.lookup "scope_mode" with
  | none => ("all", [])
  | some (.string mode) =>
      if mode ∈ scopeModes then
        (mode, [])
      else
        ("all", [modeError (.string mode)])
  | some other => ("all", [modeError other])

/- An item of `scope_tools` that is no text. -/
def itemError (i : Nat) (input : Json) : BodyError where
  kind := "string_type"
  loc := [.string "body", .string "scope_tools", .integer i]
  msg := "Input should be a valid string"
  input := input
  ctx := none

def itemErrors : Nat → List Json → List BodyError
| _, [] => []
| i, .string _ :: rest => itemErrors (i + 1) rest
| i, other :: rest => itemError i other :: itemErrors (i + 1) rest

def toolsField
    (body : Fields) : Reading (Option (List String)) :=
  match body.lookup "scope_tools" with
  | none | some .null => (none, [])
  | some (.array items) =>
      match itemErrors 0 items with
      | [] => (some (items.filterMap Json.asStr), [])
      | errors => (none, errors)
  | some other => (none, [listType "scope_tools" other])

def trimmed (name : String) : String :=
  String.ofList (Text.trim name.toList)

/- Each name once, in the order of the request. -/
def picked (tools : List String) : List String :=
  ((tools.map trimmed).filter (fun name => name ≠ "")).eraseDups

/- Any other field is refused, whatever it holds. -/
def extraErrors (body : Fields) : List BodyError :=
  (body.filter (fun field =>
      field.1 ∉ ["name", "scope_mode", "scope_tools"])).map
    (fun field =>
      fieldError "extra_forbidden" field.1
        "Extra inputs are not permitted" field.2 none)

/- The list of a `custom` scope. -/
def customTools
    (tools : List String) : Except ApiError (List String) :=
  if picked tools = [] then
    .error
      ⟨400,
        "scope_tools must be a non-empty list when " ++
          "scope_mode='custom'."⟩
  else
    match (picked tools).filter
        (fun name => Tool.named name = none) with
    | [] => .ok (picked tools)
    | unknown =>
        .error
          ⟨400,
            "Unknown tool names: " ++
              ", ".intercalate unknown ++ "."⟩

/- The body of `create_mcp_key`. -/
def readMcpKey (body : Json) : Except ApiError KeyRequest :=
  match modelShape body with
  | .error refusal => .error refusal
  | .ok fields =>
      let name := nameField "Default" fields
      let mode := modeField fields
      let tools := toolsField fields
      match validationError
          (name.2 ++ mode.2 ++ tools.2 ++
            extraErrors fields) with
      | .error refusal => .error refusal
      | .ok _ =>
          if mode.1 = "custom" then
            (customTools (tools.1.getD [])).map
              (fun tools => ⟨name.1, mode.1, tools⟩)
          else
            .ok ⟨name.1, mode.1, []⟩

/- The body of `create_integration_key`. -/
def readIntegrationKey
    (body : Json) : Except ApiError KeyRequest :=
  match modelShape body with
  | .error refusal => .error refusal
  | .ok fields =>
      let name := nameField "Home Assistant" fields
      (validationError name.2).map
        (fun _ => ⟨name.1, "all", []⟩)

/- The two surfaces whose keys share the table. -/
inductive Surface where
  | mcp
  | integration
  deriving DecidableEq, Repr

def Surface.kind : Surface → String
| .mcp => "mcp"
| .integration => "integration"

def Surface.read : Surface → Json → Except ApiError KeyRequest
| .mcp => readMcpKey
| .integration => readIntegrationKey

theorem kind_inj
    {surface other : Surface}
    (hKind : surface.kind = other.kind) :
    surface = other := by
  revert hKind
  cases surface <;> cases other <;> decide

/- An empty list is stored as NULL. -/
def storedTools (tools : List String) : Option String :=
  if tools = [] then
    none
  else
    some (Agent.pythonJsonValue (.array (tools.map .string)))

def newKey
    (surface : Surface)
    (orgId keyHash : String)
    (request : KeyRequest) : McpKey where
  orgId := orgId
  name := request.name
  keyHash := keyHash
  scopeMode := some request.scopeMode
  scopeTools := storedTools request.scopeTools
  revoked := false
  kind := surface.kind

--------------------
-- The Table
--------------------

structure KeyRow where
  id : Nat
  key : McpKey
  deriving DecidableEq, Repr

/- `mcp_api_keys` and the sequence its ids come from. -/
structure KeyStore where
  rows : List KeyRow
  nextId : Nat
  unique : (rows.map (fun row => row.key.keyHash)).Nodup
  ids : (rows.map KeyRow.id).Nodup
  below : ∀ row ∈ rows, row.id < nextId

def KeyStore.empty : KeyStore where
  rows := []
  nextId := 1
  unique := List.nodup_nil
  ids := List.nodup_nil
  below := by simp

/- The INSERT, refused when it breaks the unique index. -/
def KeyStore.insert
    (s : KeyStore)
    (key : McpKey) : Option KeyStore :=
  if hTaken :
      key.keyHash ∈ s.rows.map (fun row => row.key.keyHash)
  then
    none
  else
    some
      { rows := ⟨s.nextId, key⟩ :: s.rows
        nextId := s.nextId + 1
        unique := List.nodup_cons.mpr ⟨hTaken, s.unique⟩
        ids := by
          refine List.nodup_cons.mpr ⟨?_, s.ids⟩
          intro hIn
          rcases List.mem_map.mp hIn with ⟨row, hRow, hId⟩
          exact Nat.lt_irrefl _ (hId ▸ s.below row hRow)
        below := by
          intro row hRow
          rcases List.mem_cons.mp hRow with rfl | hOld
          · exact Nat.lt_succ_self _
          · exact Nat.lt_succ_of_lt (s.below row hOld) }

def revokeRow
    (orgId : String)
    (keyId : Nat)
    (row : KeyRow) : KeyRow :=
  if row.id = keyId ∧ row.key.orgId = orgId then
    { row with key := { row.key with revoked := true } }
  else
    row

@[simp] theorem id_revokeRow
    (orgId : String)
    (keyId : Nat)
    (row : KeyRow) :
    (revokeRow orgId keyId row).id = row.id := by
  unfold revokeRow
  split <;> rfl

@[simp] theorem keyHash_revokeRow
    (orgId : String)
    (keyId : Nat)
    (row : KeyRow) :
    (revokeRow orgId keyId row).key.keyHash =
      row.key.keyHash := by
  unfold revokeRow
  split <;> rfl

/- `revoke`, which another kind's id does not reach. -/
def KeyStore.revoke
    (s : KeyStore)
    (orgId : String)
    (surface : Surface)
    (keyId : Nat) : Except ApiError KeyStore :=
  if ∃ row ∈ s.rows, row.id = keyId ∧ row.key.orgId = orgId ∧
      row.key.kind = surface.kind then
    .ok
      { rows := s.rows.map (revokeRow orgId keyId)
        nextId := s.nextId
        unique := by
          rw [List.map_map]
          simpa [Function.comp_def] using s.unique
        ids := by
          rw [List.map_map]
          simpa [Function.comp_def] using s.ids
        below := by
          intro row hRow
          rcases List.mem_map.mp hRow with ⟨old, hOld, rfl⟩
          rw [id_revokeRow]
          exact s.below old hOld }
  else
    .error ⟨404, "Key not found"⟩

/- The DELETE of an erasure. -/
def KeyStore.erase
    (s : KeyStore)
    (orgId : String) : KeyStore where
  rows := s.rows.filter (fun row => row.key.orgId ≠ orgId)
  nextId := s.nextId
  unique := s.unique.sublist (List.filter_sublist.map _)
  ids := s.ids.sublist (List.filter_sublist.map _)
  below := by
    intro row hRow
    exact s.below row (List.mem_filter.mp hRow).1

/- The create route of a surface, with the key's hash. -/
def KeyStore.create
    (s : KeyStore)
    (surface : Surface)
    (orgId : String)
    (body : Json)
    (keyHash : String) : Except ApiError KeyStore :=
  match surface.read body with
  | .error refusal => .error refusal
  | .ok request =>
      match s.insert (newKey surface orgId keyHash request) with
      | none => .error ⟨500, "Internal Server Error"⟩
      | some next => .ok next

inductive KeyEvent where
  | create
      (surface : Surface)
      (orgId : String)
      (body : Json)
      (keyHash : String)
  | revoke (orgId : String) (surface : Surface) (keyId : Nat)
  | erase (orgId : String)

/- A refused request leaves the table as it is. -/
def keyStep (s : KeyStore) : KeyEvent → KeyStore
| .create surface orgId body keyHash =>
    (s.create surface orgId body keyHash).toOption.getD s
| .revoke orgId surface keyId =>
    (s.revoke orgId surface keyId).toOption.getD s
| .erase orgId => s.erase orgId

/- `WHERE key_hash = $1 AND revoked = false AND kind = …`. -/
def KeyStore.active
    (s : KeyStore)
    (surface : Surface)
    (keyHash : String) : Option KeyRow :=
  s.rows.find? (fun row =>
    row.key.keyHash = keyHash ∧ row.key.revoked = false ∧
      row.key.kind = surface.kind)

/- The tables of the org's agent keys and of these. -/
def KeyStore.tables
    (s : KeyStore)
    (agents : KeyTables) : KeyTables :=
  { agents with
    mcpKeys := s.rows.map KeyRow.key
    mcp_unique := by
      rw [List.map_map]
      exact s.unique }

--------------------
-- Live Rows
--------------------

variable {s : KeyStore}
variable {row : KeyRow}

def Live (s : KeyStore) (row : KeyRow) : Prop :=
  row ∈ s.rows ∧ row.key.revoked = false

/- The request is accepted, and this is the row it adds. -/
def Mints (s : KeyStore) (row : KeyRow) : KeyEvent → Prop
| .create surface orgId body keyHash =>
    ∃ request next,
      surface.read body = .ok request ∧
        s.insert (newKey surface orgId keyHash request) =
          some next ∧
          row = ⟨s.nextId, newKey surface orgId keyHash request⟩
| _ => False

/- A revocation on its own surface and an erasure end a key. -/
def Ends (row : KeyRow) : KeyEvent → Prop
| .create _ _ _ _ => False
| .revoke orgId surface keyId =>
    row.id = keyId ∧ row.key.orgId = orgId ∧
      row.key.kind = surface.kind
| .erase orgId => row.key.orgId = orgId

theorem rows_insert
    {key : McpKey}
    {next : KeyStore}
    (hInsert : s.insert key = some next) :
    next.rows = ⟨s.nextId, key⟩ :: s.rows := by
  unfold KeyStore.insert at hInsert
  split at hInsert
  · cases hInsert
  · cases hInsert
    rfl

theorem live_create
    (surface : Surface)
    (orgId : String)
    (body : Json)
    (keyHash : String) :
    Live (keyStep s (.create surface orgId body keyHash)) row ↔
      Mints s row (.create surface orgId body keyHash) ∨
        Live s row := by
  unfold Mints
  simp only [keyStep, KeyStore.create]
  cases hRead : surface.read body with
  | error refusal => simp [Except.toOption]
  | ok request =>
      cases hInsert :
          s.insert (newKey surface orgId keyHash request) with
      | none => simp [Except.toOption, hInsert]
      | some next =>
          simp only [Except.toOption, hInsert, Option.getD_some,
            Live, rows_insert hInsert, List.mem_cons]
          constructor
          · rintro ⟨rfl | hOld, hActive⟩
            · exact Or.inl ⟨request, next, rfl, hInsert, rfl⟩
            · exact Or.inr ⟨hOld, hActive⟩
          · rintro (⟨_, _, hOk, -, rfl⟩ | ⟨hOld, hActive⟩)
            · cases hOk
              exact ⟨Or.inl rfl, rfl⟩
            · exact ⟨Or.inr hOld, hActive⟩

/- What a revocation leaves live it has not touched. -/
theorem live_revokeRow
    {orgId : String}
    {keyId : Nat}
    {rows : List KeyRow} :
    (row ∈ rows.map (revokeRow orgId keyId) ∧
        row.key.revoked = false) ↔
      (row ∈ rows ∧ row.key.revoked = false) ∧
        ¬ (row.id = keyId ∧ row.key.orgId = orgId) := by
  constructor
  · rintro ⟨hIn, hActive⟩
    rcases List.mem_map.mp hIn with ⟨old, hOld, rfl⟩
    unfold revokeRow at hActive ⊢
    split at hActive
    · cases hActive
    · rename_i hOther
      rw [if_neg hOther]
      exact ⟨⟨hOld, hActive⟩, hOther⟩
  · rintro ⟨⟨hIn, hActive⟩, hOther⟩
    exact
      ⟨List.mem_map.mpr ⟨row, hIn, if_neg hOther⟩, hActive⟩

theorem live_revoke
    (orgId : String)
    (surface : Surface)
    (keyId : Nat) :
    Live (keyStep s (.revoke orgId surface keyId)) row ↔
      Live s row ∧ ¬ Ends row (.revoke orgId surface keyId) := by
  simp only [keyStep, KeyStore.revoke, Ends]
  split
  · rename_i hSome
    rcases hSome with ⟨hit, hHit, hId, hOrg, hKind⟩
    simp only [Except.toOption, Option.getD_some, Live]
    rw [live_revokeRow]
    constructor
    · rintro ⟨hLive, hOther⟩
      exact ⟨hLive, fun hEnds => hOther ⟨hEnds.1, hEnds.2.1⟩⟩
    · rintro ⟨hLive, hKept⟩
      refine ⟨hLive, fun hSame => hKept ?_⟩
      -- An id is of one row, so the kind is the one asked for.
      have hRow : row = hit :=
        List.inj_on_of_nodup_map s.ids hLive.1 hHit
          (hSame.1.trans hId.symm)
      rw [hRow]
      exact ⟨hId, hOrg, hKind⟩
  · rename_i hNone
    simp only [Except.toOption, Option.getD_none]
    constructor
    · intro hLive
      exact ⟨hLive, fun hEnds => hNone ⟨row, hLive.1, hEnds⟩⟩
    · exact fun h => h.1

theorem live_step_iff
    (s : KeyStore)
    (row : KeyRow)
    (event : KeyEvent) :
    Live (keyStep s event) row ↔
      Mints s row event ∨ (Live s row ∧ ¬ Ends row event) := by
  cases event with
  | create surface orgId body keyHash =>
      rw [live_create]
      simp only [Ends, not_false_eq_true, and_true]
  | revoke orgId surface keyId =>
      rw [live_revoke]
      simp only [Mints, false_or]
  | erase orgId =>
      simp only [keyStep, KeyStore.erase, Live, Mints, Ends,
        List.mem_filter, decide_eq_true_eq, false_or]
      exact and_right_comm

/- A row is live when it was minted and nothing ended it. -/
theorem live_exec_iff
    (events : List KeyEvent)
    (row : KeyRow) :
    Live (Run.exec keyStep KeyStore.empty events) row ↔
      ∃ before event after,
        events = before ++ event :: after ∧
          Mints (Run.exec keyStep KeyStore.empty before) row
            event ∧
            ∀ later ∈ after, ¬ Ends row later := by
  have hInit : ¬ Live KeyStore.empty row := by
    intro hLive
    cases hLive.1
  exact
    Run.holds_exec_iff (P := fun s => Live s row)
      (fun s event => live_step_iff s row event) hInit events

/- The index is unique, so the lookup finds the one row. -/
theorem active_eq_some_iff
    {surface : Surface}
    {keyHash : String} :
    s.active surface keyHash = some row ↔
      Live s row ∧ row.key.keyHash = keyHash ∧
        row.key.kind = surface.kind := by
  constructor
  · intro hFound
    have hRow := List.find?_some hFound
    simp only [decide_eq_true_eq] at hRow
    exact
      ⟨⟨List.mem_of_find?_eq_some hFound, hRow.2.1⟩, hRow.1,
        hRow.2.2⟩
  · rintro ⟨⟨hIn, hActive⟩, hHash, hKind⟩
    cases hFound : s.active surface keyHash with
    | none =>
        have hNone := List.find?_eq_none.mp hFound row hIn
        simp [hHash, hActive, hKind] at hNone
    | some other =>
        have hOther := List.find?_some hFound
        simp only [decide_eq_true_eq] at hOther
        have hSame : other = row :=
          List.inj_on_of_nodup_map s.unique
            (List.mem_of_find?_eq_some hFound) hIn
            (hOther.1.trans hHash.symm)
        rw [hSame]

/-
  At any point of any run a surface serves the keys that were
  minted on it and that neither it nor an erasure has ended.
-/
theorem active_exec_iff
    (events : List KeyEvent)
    (surface : Surface)
    (keyHash : String)
    (row : KeyRow) :
    (Run.exec keyStep KeyStore.empty events).active surface
        keyHash = some row ↔
      ∃ before orgId body after,
        events =
            before ++
              .create surface orgId body keyHash :: after ∧
          Mints (Run.exec keyStep KeyStore.empty before) row
            (.create surface orgId body keyHash) ∧
            ∀ later ∈ after, ¬ Ends row later := by
  rw [active_eq_some_iff, live_exec_iff]
  constructor
  · rintro ⟨⟨before, event, after, rfl, hMints, hKept⟩, hHash,
      hKind⟩
    cases event with
    | create other orgId body hash =>
        rcases hMints with ⟨request, next, hRead, hNext, rfl⟩
        cases kind_inj hKind
        cases hHash
        exact
          ⟨before, orgId, body, after, rfl,
            ⟨request, next, hRead, hNext, rfl⟩, hKept⟩
    | revoke orgId other keyId => exact hMints.elim
    | erase orgId => exact hMints.elim
  · rintro ⟨before, orgId, body, after, rfl, hMints, hKept⟩
    refine ⟨⟨before, _, after, rfl, hMints, hKept⟩, ?_⟩
    rcases hMints with ⟨request, next, -, -, rfl⟩
    exact ⟨rfl, rfl⟩

--------------------
-- Scopes
--------------------

/- The texts in a body's list of tools. -/
def namedTools (fields : Fields) : List String :=
  match fields.lookup "scope_tools" with
  | some (.array items) => items.filterMap Json.asStr
  | _ => []

def askedMode (fields : Fields) : Option String :=
  (fields.lookup "scope_mode").bind Json.asStr

/- What a body asks for, by its two scope fields. -/
def asked (fields : Fields) : Finset Tool :=
  if askedMode fields = some "readonly" then
    readTools
  else if askedMode fields = some "custom" then
    allTools.filter (fun tool =>
      tool.name ∈ (namedTools fields).map trimmed)
  else
    allTools

theorem mem_picked_iff
    {name : String}
    {tools : List String} :
    name ∈ picked tools ↔
      name ∈ tools.map trimmed ∧ name ≠ "" := by
  rw [picked, List.mem_eraseDups, List.mem_filter,
    decide_eq_true_eq]

/- Without an error the mode is the one that was asked for. -/
theorem modeField_of_fine
    {fields : Fields}
    (hFine : (modeField fields).2 = []) :
    (modeField fields).1 ∈ scopeModes ∧
      (askedMode fields).getD "all" = (modeField fields).1 := by
  unfold modeField askedMode at *
  split at hFine
  · rename_i hNone
    rw [hNone]
    exact ⟨by decide, rfl⟩
  · rename_i mode hMode
    rw [hMode]
    split at hFine
    · rename_i hKnown
      exact ⟨by rwa [if_pos hKnown], by rw [if_pos hKnown]; rfl⟩
    · cases hFine
  · cases hFine

theorem toolsField_of_fine
    {fields : Fields}
    (hFine : (toolsField fields).2 = []) :
    (toolsField fields).1.getD [] = namedTools fields := by
  unfold toolsField namedTools at *
  split at hFine
  · rename_i hNone
    rw [hNone]
    rfl
  · rename_i hNull
    rw [hNull]
    rfl
  · rename_i items hItems
    rw [hItems]
    cases hErrors : itemErrors 0 items with
    | nil => rfl
    | cons error rest => simp [hErrors] at hFine
  · cases hFine

theorem customTools_eq_ok
    {named tools : List String}
    (hOk : customTools named = .ok tools) :
    tools = picked named := by
  unfold customTools at hOk
  split at hOk
  · cases hOk
  · split at hOk
    · cases hOk
      rfl
    · cases hOk

theorem eq_nil_of_validationError
    {errors : List BodyError}
    {done : Unit}
    (hValid : validationError errors = .ok done) :
    errors = [] := by
  cases errors with
  | nil => rfl
  | cons first rest => cases hValid

theorem all_scope :
    computeAllowedTools (some "all") (some []) = allTools := by
  decide

theorem readonly_scope :
    computeAllowedTools (some "readonly") (some []) =
      readTools := by
  decide

theorem asked_of_mode
    {fields : Fields}
    {mode : String}
    (hAsked : (askedMode fields).getD "all" = mode) :
    asked fields =
      if mode = "readonly" then
        readTools
      else if mode = "custom" then
        allTools.filter (fun tool =>
          tool.name ∈ (namedTools fields).map trimmed)
      else
        allTools := by
  unfold asked
  cases hMode : askedMode fields with
  | none =>
      rw [hMode] at hAsked
      subst hAsked
      simp
  | some given =>
      rw [hMode] at hAsked
      subst hAsked
      simp

/- A custom scope is the tools that the body names. -/
theorem custom_scope
    {named : List String} :
    computeAllowedTools (some "custom") (some (picked named)) =
      allTools.filter (fun tool =>
        tool.name ∈ named.map trimmed) := by
  have hMode :
      lower ((some "custom").getD "all") = "custom".toList := by
    decide
  ext tool
  rw [mem_computeAllowedTools_custom hMode, mem_picked_iff,
    Finset.mem_filter]
  have hName : tool.name ≠ "" := by
    cases tool <;> decide
  simp only [hName, mem_allTools, ne_eq, not_false_eq_true,
    and_true, true_and]

/- An accepted body is stored with the scope it asks for. -/
theorem scope_of_accepted
    {fields : Fields}
    {request : KeyRequest}
    (hRead : readMcpKey (.object fields) = .ok request) :
    computeAllowedTools (some request.scopeMode)
        (some request.scopeTools) =
      asked fields := by
  simp only [readMcpKey, modelShape] at hRead
  split at hRead
  · cases hRead
  · rename_i hValid
    have hFine := eq_nil_of_validationError hValid
    simp only [List.append_eq_nil_iff] at hFine
    rcases modeField_of_fine hFine.1.1.2 with ⟨hKnown, hAsked⟩
    have hTools := toolsField_of_fine hFine.1.2
    rw [asked_of_mode hAsked, ← hTools]
    generalize (modeField fields).1 = mode at *
    simp only [scopeModes, List.mem_cons, List.not_mem_nil,
      or_false] at hKnown
    rcases hKnown with rfl | rfl | rfl
    · cases hRead
      exact all_scope
    · cases hRead
      exact readonly_scope
    · simp only [if_true] at hRead
      cases hPick :
          customTools ((toolsField fields).1.getD []) with
      | error refusal =>
          rw [hPick] at hRead
          cases hRead
      | ok tools =>
          rw [hPick] at hRead
          cases hRead
          rw [customTools_eq_ok hPick]
          exact custom_scope

--------------------
-- Reach
--------------------

variable {server : Server}
variable {headers : Headers}
variable {agents : KeyTables}
variable {raw : String}

/- `serde_json` reads a flat list of texts as JSON has it. -/
def ReadsTexts (server : Server) : Prop :=
  ∀ (text : String) (tools : List String),
    Json.Reader.parse text.toList =
        some (.array (tools.map .string)) →
      server.fromStr text = some (.array (tools.map .string))

theorem exact_texts (tools : List String) :
    Audit.ExactItems (tools.map .string) := by
  induction tools with
  | nil => trivial
  | cons tool rest ih => exact ⟨trivial, ih⟩

/- The list that is stored is the list that is enforced. -/
theorem parseScopeTools_storedTools
    (hReads : ReadsTexts server)
    (tools : List String) :
    parseScopeTools server (storedTools tools) = tools := by
  unfold storedTools
  by_cases hNone : tools = []
  · rw [if_pos hNone, hNone]
    rfl
  · rw [if_neg hNone]
    have hBlank : Audit.Blank [' '] := by
      intro c hC
      rw [List.mem_singleton.mp hC]
      rfl
    have hText :=
      Audit.toList_pythonJsonValue (.array (tools.map .string))
    have hParse := hReads
      (Agent.pythonJsonValue (.array (tools.map .string))) tools
      (by
        rw [hText]
        exact Audit.parse_spelled hBlank (exact_texts tools))
    have hSome :
        Agent.pythonJsonValue (.array (tools.map .string)) ≠
          "" := by
      intro hEmpty
      rw [hEmpty, Audit.spelled] at hText
      cases hText
    simp only [parseScopeTools, Option.filter, hSome, ne_eq,
      not_false_eq_true, decide_true, if_true, hParse,
      List.map_map]
    exact List.map_id _

theorem activeMcpKey_tables
    (s : KeyStore)
    (keyHash : String) :
    (s.tables agents).activeMcpKey keyHash =
      (s.active .mcp keyHash).map KeyRow.key := by
  exact List.find?_map

theorem object_of_mints
    {orgId keyHash : String}
    {body : Json}
    (hMints : Mints s row (.create .mcp orgId body keyHash)) :
    ∃ fields, body = .object fields := by
  rcases hMints with ⟨request, -, hRead, -⟩
  cases body with
  | object fields => exact ⟨fields, rfl⟩
  | _ => cases hRead

theorem scope_of_mints
    (hReads : ReadsTexts server)
    {orgId keyHash : String}
    {fields : Fields}
    (hMints :
      Mints s row (.create .mcp orgId (.object fields) keyHash)) :
    computeAllowedTools row.key.scopeMode
        (some (parseScopeTools server row.key.scopeTools)) =
      asked fields := by
  rcases hMints with ⟨request, next, hRead, -, rfl⟩
  change computeAllowedTools (some request.scopeMode)
    (some
      (parseScopeTools server
        (storedTools request.scopeTools))) = _
  rw [parseScopeTools_storedTools hReads]
  exact scope_of_accepted hRead

/-
  The tools a token reaches, at any point of any run, are
  those that the body which minted it asked for, and it
  reaches them until it is revoked or its org is erased.
-/
theorem reach_exec_iff
    (hReads : ReadsTexts server)
    (hBearer : bearer headers = .ok raw)
    (hShared : isSharedAgentKey server raw = false)
    (hAgent :
      agents.activeAgentKey (server.sha256Hex raw) = none)
    (events : List KeyEvent)
    (allowed : Finset Tool) :
    lookupAllowed server headers
          ((Run.exec keyStep KeyStore.empty events).tables
            agents)
          true true =
        some allowed ↔
      ∃ before orgId fields after row,
        events =
            before ++
              .create .mcp orgId (.object fields)
                (server.sha256Hex raw) :: after ∧
          Mints (Run.exec keyStep KeyStore.empty before) row
            (.create .mcp orgId (.object fields)
              (server.sha256Hex raw)) ∧
            (∀ later ∈ after, ¬ Ends row later) ∧
              asked fields = allowed := by
  have hLookup :
      lookupAllowed server headers
          ((Run.exec keyStep KeyStore.empty events).tables
            agents)
          true true =
        ((Run.exec keyStep KeyStore.empty events).active .mcp
          (server.sha256Hex raw)).map (fun row =>
            computeAllowedTools row.key.scopeMode
              (some
                (parseScopeTools server row.key.scopeTools))) := by
    have hSame :
        ((Run.exec keyStep KeyStore.empty events).tables
          agents).activeAgentKey (server.sha256Hex raw) =
            none := hAgent
    simp only [lookupAllowed, hBearer, hShared, fetch, hSame,
      activeMcpKey_tables, if_true, Bool.false_eq_true,
      if_false]
    cases (Run.exec keyStep KeyStore.empty events).active .mcp
      (server.sha256Hex raw) <;> rfl
  rw [hLookup, Option.map_eq_some_iff]
  constructor
  · rintro ⟨row, hActive, rfl⟩
    rcases (active_exec_iff events .mcp _ row).mp hActive with
      ⟨before, orgId, body, after, hSplit, hMints, hKept⟩
    rcases object_of_mints hMints with ⟨fields, rfl⟩
    exact
      ⟨before, orgId, fields, after, row, hSplit, hMints, hKept,
        (scope_of_mints hReads hMints).symm⟩
  · rintro ⟨before, orgId, fields, after, row, hSplit, hMints,
      hKept, rfl⟩
    exact
      ⟨row,
        (active_exec_iff events .mcp _ row).mpr
          ⟨before, orgId, _, after, hSplit, hMints, hKept⟩,
        scope_of_mints hReads hMints⟩

/- A server that knows one token, and its agent tables. -/
def osc5f2aServer : Server :=
  { sentinelAgentMcpKey := none
    sha256Hex := fun _ =>
      "01a11034f6e3c92df98a0eead79f885d" ++
        "b444c920f48c5671d5c60252fe6a370e"
    fromStr := fun text => Json.Reader.parse text.toList
    effectivePlan := fun _ => "pro"
    licensed := false
    sentinelEnabled := fun _ => some none
    manualRun := fun _ => some none
    breach := fun _ _ _ => none }

def noAgents : KeyTables :=
  { agentKeys := []
    mcpKeys := []
    agent_unique := List.nodup_nil
    mcp_unique := List.nodup_nil }

def scopedFields : Fields :=
  [ ("scope_mode", .string "custom"),
    ("scope_tools", .array [.string " get_camera "]) ]

theorem reach_exec_iff_scoped :
    lookupAllowed osc5f2aServer ⟨some "Bearer osc_5f2a", none⟩
        ((Run.exec keyStep KeyStore.empty
            [.create .mcp "org_a" (.object scopedFields)
              (osc5f2aServer.sha256Hex "osc_5f2a")]).tables
          noAgents)
        true true =
      some {.getCamera} := by
  have hReads : ReadsTexts osc5f2aServer := fun _ _ h => h
  have hBearer :
      bearer ⟨some "Bearer osc_5f2a", none⟩ =
        .ok "osc_5f2a" := by
    decide
  apply (reach_exec_iff hReads hBearer (by decide) (by decide)
    _ _).mpr
  exact
    ⟨[], "org_a", scopedFields, [], _, rfl,
      ⟨⟨"Default", "custom", ["get_camera"]⟩, _, by decide, rfl,
        rfl⟩,
      by simp, by decide⟩

--------------------
-- Revoked Keys
--------------------

/- `str.strip`, which has four separators more than `trim`. -/
def isPythonSpace (c : Char) : Bool :=
  Text.isWhitespace c || (28 ≤ c.toNat && c.toNat ≤ 31)

/- The token of a request to the integration surface. -/
def integrationToken
    (headers : Headers) : Except ApiError String :=
  let auth := headers.authorization.getD ""
  if "bearer ".toList.isPrefixOf (lower auth) then
    let raw :=
      ((((auth.toList.dropWhile (fun c => c ≠ ' ')).drop
        1).dropWhile isPythonSpace).reverse.dropWhile
          isPythonSpace).reverse
    if raw.isEmpty then
      .error ⟨401, "Empty Bearer token"⟩
    else
      .ok (String.ofList raw)
  else
    .error ⟨401, "Missing Bearer integration key"⟩

/- The fields of the user that differ from key to key. -/
structure IntegrationUser where
  userId : String
  orgId : String
  username : String
  deriving DecidableEq, Repr

def integrationUser
    (server : Server)
    (headers : Headers)
    (s : KeyStore) : Except ApiError IntegrationUser :=
  match integrationToken headers with
  | .error refusal => .error refusal
  | .ok raw =>
      match s.active .integration (server.sha256Hex raw) with
      | none => .error ⟨401, "Invalid or revoked integration key"⟩
      | some row =>
          .ok
            ⟨"integration:" ++ toString row.id, row.key.orgId,
              row.key.name⟩

/- A revoked row of the org keeps the hash taken. -/
def Spent (s : KeyStore) (orgId keyHash : String) : Prop :=
  ∃ row ∈ s.rows, row.key.orgId = orgId ∧
    row.key.keyHash = keyHash ∧ row.key.revoked = true

theorem spent_step
    {orgId keyHash : String}
    {event : KeyEvent}
    (hKept : event ≠ .erase orgId)
    (hSpent : Spent s orgId keyHash) :
    Spent (keyStep s event) orgId keyHash := by
  rcases hSpent with ⟨row, hRow, hOrg, hHash, hRevoked⟩
  cases event with
  | create surface other body hash =>
      simp only [keyStep, KeyStore.create]
      cases surface.read body with
      | error refusal =>
          exact ⟨row, hRow, hOrg, hHash, hRevoked⟩
      | ok request =>
          cases hInsert :
              s.insert (newKey surface other hash request) with
          | none =>
              simp only [hInsert]
              exact ⟨row, hRow, hOrg, hHash, hRevoked⟩
          | some next =>
              simp only [hInsert]
              refine ⟨row, ?_, hOrg, hHash, hRevoked⟩
              simp only [Except.toOption, Option.getD_some,
                rows_insert hInsert]
              exact List.mem_cons_of_mem _ hRow
  | revoke other surface keyId =>
      simp only [keyStep, KeyStore.revoke]
      split
      · refine
          ⟨revokeRow other keyId row,
            List.mem_map_of_mem hRow, ?_, ?_, ?_⟩
        · unfold revokeRow
          split <;> exact hOrg
        · rw [keyHash_revokeRow]
          exact hHash
        · unfold revokeRow
          split
          · rfl
          · exact hRevoked
      · exact ⟨row, hRow, hOrg, hHash, hRevoked⟩
  | erase other =>
      refine ⟨row, List.mem_filter.mpr ⟨hRow, ?_⟩, hOrg, hHash,
        hRevoked⟩
      rw [decide_eq_true_eq, hOrg]
      rintro rfl
      exact hKept rfl

theorem active_of_spent
    {orgId keyHash : String}
    (hSpent : Spent s orgId keyHash)
    (surface : Surface) :
    s.active surface keyHash = none := by
  rcases hSpent with ⟨row, hRow, -, hHash, hRevoked⟩
  rw [Option.eq_none_iff_forall_ne_some]
  intro other hActive
  rcases active_eq_some_iff.mp hActive with
    ⟨⟨hOther, hLive⟩, hSame, -⟩
  rw [List.inj_on_of_nodup_map s.unique hOther hRow
    (hSame.trans hHash.symm), hRevoked] at hLive
  cases hLive

/-
  A key that is revoked opens neither surface again, whatever
  is minted and revoked after it.
-/
theorem revoked_refused
    {orgId : String}
    {events : List KeyEvent}
    (hShared : isSharedAgentKey server raw = false)
    (hAgent :
      agents.activeAgentKey (server.sha256Hex raw) = none)
    (hSpent : Spent s orgId (server.sha256Hex raw))
    (hKept : .erase orgId ∉ events) :
    (bearer headers = .ok raw →
        ∀ agentOk mcpOk,
          lookupAllowed server headers
              ((Run.exec keyStep s events).tables agents)
              agentOk mcpOk =
            none ∧
          ∀ principal,
            resolve server headers
                ((Run.exec keyStep s events).tables agents)
                agentOk mcpOk ≠
              .ok principal) ∧
      (integrationToken headers = .ok raw →
        ∀ user,
          integrationUser server headers
              (Run.exec keyStep s events) ≠
            .ok user) := by
  have hStill :
      Spent (Run.exec keyStep s events) orgId
        (server.sha256Hex raw) := by
    have hStep :
        ∀ now event, Spent now orgId (server.sha256Hex raw) →
          event ≠ .erase orgId →
            Spent (keyStep now event) orgId
              (server.sha256Hex raw) :=
      fun _ _ hNow hOther => spent_step hOther hNow
    apply Run.invariant_of_meets hStep hSpent
    apply Run.meets_of_forall
    rintro event hEvent _ rfl
    exact hKept hEvent
  generalize Run.exec keyStep s events = now at *
  constructor
  · intro hBearer agentOk mcpOk
    have hAgents :
        (now.tables agents).activeAgentKey
            (server.sha256Hex raw) = none := hAgent
    have hRow :
        (now.tables agents).activeMcpKey
            (server.sha256Hex raw) = none := by
      rw [activeMcpKey_tables, active_of_spent hStill]
      rfl
    constructor
    · cases agentOk <;> cases mcpOk <;>
        simp [lookupAllowed, fetch, hBearer, hShared, hAgents,
          hRow]
    · intro principal hResolve
      cases admits_of_resolve hResolve with
      | shared other hOther hIs =>
          rw [hBearer] at hOther
          cases hOther
          exact Bool.noConfusion (hShared.symm.trans hIs)
      | agent other key hOther _ _ hKey =>
          rw [hBearer] at hOther
          cases hOther
          rw [hAgents] at hKey
          cases hKey
      | mcp other key _ _ hOther _ _ _ _ hKey =>
          rw [hBearer] at hOther
          cases hOther
          rw [hRow] at hKey
          cases hKey
  · intro hToken user hUser
    rw [integrationUser, hToken] at hUser
    simp only [active_of_spent hStill] at hUser
    cases hUser

def revokedStore : KeyStore :=
  Run.exec keyStep KeyStore.empty
    [ .create .mcp "org_a" (.object scopedFields)
        (osc5f2aServer.sha256Hex "osc_5f2a"),
      .revoke "org_a" .mcp 1 ]

/- Another org mints a key with the same hash. -/
def reminted : List KeyEvent :=
  [.create .mcp "org_b" (.object scopedFields)
    (osc5f2aServer.sha256Hex "osc_5f2a")]

theorem revoked_refused_reminted :
    lookupAllowed osc5f2aServer ⟨some "Bearer osc_5f2a", none⟩
          ((Run.exec keyStep revokedStore reminted).tables
            noAgents)
          true true =
        none ∧
      resolve osc5f2aServer ⟨some "Bearer osc_5f2a", none⟩
          ((Run.exec keyStep revokedStore reminted).tables
            noAgents)
          true true ≠
        .ok ⟨"org_b", "Default"⟩ := by
  have hSpent :
      Spent revokedStore "org_a"
        (osc5f2aServer.sha256Hex "osc_5f2a") :=
    ⟨_, List.mem_cons_self, rfl, rfl, rfl⟩
  have hBearer :
      bearer ⟨some "Bearer osc_5f2a", none⟩ =
        .ok "osc_5f2a" := by
    decide
  have hAgent :
      noAgents.activeAgentKey
          (osc5f2aServer.sha256Hex "osc_5f2a") =
        none := rfl
  have hKept : .erase "org_a" ∉ reminted := by
    simp [reminted]
  have hRefused :=
    (revoked_refused (by decide) hAgent hSpent hKept).1 hBearer
      true true
  exact ⟨hRefused.1, hRefused.2 _⟩

end Mcp

end SentinelCommand
