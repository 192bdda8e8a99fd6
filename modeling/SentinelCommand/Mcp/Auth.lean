import SentinelCommand.Json
import SentinelCommand.Mcp.Scope
import SentinelCommand.Text

/-
  Resolving an MCP bearer token: `mcp/auth.rs`.

  The scope pass (`lookup_allowed`) and the org pass
  (`resolve`) read the two key tables on their own, and each
  of their queries may fail on its own. What the org pass
  asks of the rest of the install (plans, licence, Sentinel
  rows, the limiter's windows) is a parameter, and so are
  SHA-256 and the JSON reader.

  Key definitions include:
    * `Mcp.Server`
    * `Mcp.KeyTables`
    * `Mcp.lookupAllowed`
-/

--------------------
-- Tokens
--------------------

namespace SentinelCommand

namespace Mcp

/- The two headers this surface reads. -/
structure Headers where
  authorization : Option String
  agentOrgOverride : Option String

/- The raw token, or why there is none. -/
def bearer (headers : Headers) : Except String String :=
  let auth := headers.authorization.getD ""
  if "bearer ".toList.isPrefixOf (lower auth) then
    let raw :=
      Text.trim ((auth.toList.dropWhile (fun c => c ≠ ' ')).drop 1)
    if raw.isEmpty then
      .error "Unauthorized: empty Bearer token"
    else
      .ok (String.ofList raw)
  else
    .error "Unauthorized: missing Bearer token"

/- The org the agent names, `""` for none. -/
def headerOrg (headers : Headers) : String :=
  String.ofList
    (Text.trim (headers.agentOrgOverride.getD "").toList)

/- Bytes compared without an early exit. -/
def constantTimeEq (a b : List UInt8) : Bool :=
  if a.length ≠ b.length then
    false
  else
    (a.zip b).foldl (fun diff p => diff ||| (p.1 ^^^ p.2)) 0
      == 0

theorem foldl_diff_eq_zero_iff
    (pairs : List (UInt8 × UInt8))
    (diff : UInt8) :
    pairs.foldl (fun diff p => diff ||| (p.1 ^^^ p.2)) diff
        = 0 ↔
      diff = 0 ∧ ∀ p ∈ pairs, p.1 = p.2 := by
  induction pairs generalizing diff with
  | nil => simp
  | cons p rest ih =>
      rw [List.foldl_cons, ih, UInt8.or_eq_zero_iff,
        UInt8.xor_eq_zero_iff, List.forall_mem_cons,
        and_assoc]

/- The comparison is equality. -/
theorem constantTimeEq_iff
    (a b : List UInt8) :
    constantTimeEq a b = true ↔ a = b := by
  unfold constantTimeEq
  by_cases hLength : a.length = b.length
  · rw [if_neg (not_not.mpr hLength), beq_iff_eq,
      foldl_diff_eq_zero_iff]
    constructor
    · rintro ⟨_, hPairs⟩
      apply List.ext_getElem hLength
      intro i hA hB
      have hMem : (a[i], b[i]) ∈ a.zip b := by
        rw [List.mem_iff_getElem]
        exact ⟨i, by simp [hA, hB], by simp⟩
      exact hPairs _ hMem
    · rintro rfl
      refine ⟨rfl, ?_⟩
      intro p hMem
      rcases List.mem_iff_getElem.mp hMem with ⟨i, _, rfl⟩
      simp
  · rw [if_pos hLength]
    constructor
    · intro hFalse
      cases hFalse
    · rintro rfl
      exact absurd rfl hLength

/- A `sentinel_agent_keys` row. -/
structure AgentKey where
  orgId : String
  keyHash : String
  revoked : Bool
  deriving DecidableEq, Repr

/- An `mcp_api_keys` row. -/
structure McpKey where
  orgId : String
  name : String
  keyHash : String
  scopeMode : Option String
  scopeTools : Option String
  revoked : Bool
  kind : String
  deriving DecidableEq, Repr

/- Both tables have a unique index on the hash. -/
structure KeyTables where
  agentKeys : List AgentKey
  mcpKeys : List McpKey
  agent_unique : (agentKeys.map AgentKey.keyHash).Nodup
  mcp_unique : (mcpKeys.map McpKey.keyHash).Nodup

inductive NewKey where
  | agent (key : AgentKey)
  | mcp (key : McpKey)
  deriving DecidableEq, Repr

/- An INSERT, refused when it breaks the unique index. -/
def KeyTables.insert
    (tables : KeyTables) : NewKey → KeyTables
| .agent key =>
    if hFresh :
        key.keyHash ∈ tables.agentKeys.map AgentKey.keyHash
    then
      tables
    else
      { tables with
        agentKeys := key :: tables.agentKeys
        agent_unique :=
          List.nodup_cons.mpr ⟨hFresh, tables.agent_unique⟩ }
| .mcp key =>
    if hFresh :
        key.keyHash ∈ tables.mcpKeys.map McpKey.keyHash
    then
      tables
    else
      { tables with
        mcpKeys := key :: tables.mcpKeys
        mcp_unique :=
          List.nodup_cons.mpr ⟨hFresh, tables.mcp_unique⟩ }

def KeyTables.insertOption
    (tables : KeyTables) : Option NewKey → KeyTables
| none => tables
| some key => tables.insert key

/- `WHERE key_hash = $1 AND revoked = false LIMIT 1`. -/
def KeyTables.activeAgentKey
    (tables : KeyTables)
    (keyHash : String) : Option AgentKey :=
  tables.agentKeys.find? (fun key =>
    key.keyHash = keyHash ∧ key.revoked = false)

/- The same, with `AND kind = 'mcp'`. -/
def KeyTables.activeMcpKey
    (tables : KeyTables)
    (keyHash : String) : Option McpKey :=
  tables.mcpKeys.find? (fun key =>
    key.keyHash = keyHash ∧ key.revoked = false ∧
      key.kind = "mcp")

/- A query answers with its row or fails. -/
def fetch
    {α : Type}
    (ok : Bool)
    (row : Option α) : Except Unit (Option α) :=
  if ok then .ok row else .error ()

inductive Breach where
  | minute
  | daily
  deriving DecidableEq, Repr

/-
  The configured shared key, the two functions of other
  packages, and what the org pass reads beyond the key
  tables: effective plans, the licence, the Sentinel rows
  (`none` for a failed query) and the limiter's verdict on a
  bucket under its two limits.
-/
structure Server where
  sentinelAgentMcpKey : Option String
  sha256Hex : String → String
  fromStr : String → Option Json
  effectivePlan : String → String
  licensed : Bool
  sentinelEnabled : String → Option (Option Bool)
  manualRun : String → Option (Option String)
  breach : String → Nat → Nat → Option Breach

/- An unset or empty key matches nothing. -/
def isSharedAgentKey
    (server : Server)
    (raw : String) : Bool :=
  match server.sentinelAgentMcpKey with
  | none => false
  | some configured =>
      if configured = "" then
        false
      else
        constantTimeEq configured.toUTF8.data.toList
          raw.toUTF8.data.toList

/- The stored JSON list, or `[]`. -/
def parseScopeTools
    (server : Server)
    (stored : Option String) : List String :=
  match stored.filter (fun s => s ≠ "") with
  | none => []
  | some text =>
      match server.fromStr text with
      | some (.array items) => items.map Json.strValue
      | _ => []

/-
  The set a call is gated on, or `none` to defer. The two
  flags are the outcomes of its two queries.
-/
def lookupAllowed
    (server : Server)
    (headers : Headers)
    (tables : KeyTables)
    (agentOk mcpOk : Bool) : Option (Finset Tool) :=
  match bearer headers with
  | .error _ => none
  | .ok raw =>
      if isSharedAgentKey server raw then
        some agentAllowedTools
      else
        let keyHash := server.sha256Hex raw
        match fetch agentOk (tables.activeAgentKey keyHash) with
        | .error _ => none
        | .ok (some _) => some agentAllowedTools
        | .ok none =>
            match fetch mcpOk (tables.activeMcpKey keyHash) with
            | .error _ => none
            | .ok none => none
            | .ok (some key) =>
                some
                  (computeAllowedTools key.scopeMode
                    (some
                      (parseScopeTools server key.scopeTools)))

--------------------
-- Org Pass
--------------------

structure Principal where
  orgId : String
  keyName : String
  deriving DecidableEq, Repr

def planHasSentinel (plan : String) : Bool :=
  plan = "pro" ∨ plan = "pro_plus" ∨ plan = "self_host"

def sentinelBlockedByLicense
    (server : Server)
    (plan : String) : Bool :=
  plan = "self_host" ∧ server.licensed = false

def getPlanDisplayName (plan : String) : String :=
  if plan = "pro" then
    "Pro"
  else if plan = "pro_plus" then
    "Pro Plus"
  else if plan = "self_host" then
    "Self-Hosted"
  else
    "Free"

/- Which org an agent credential acts for. -/
def agentOrg
    (headers : Headers)
    (forcedOrg : Option String) : Except String String :=
  match forcedOrg with
  | some forced =>
      if headerOrg headers ≠ "" ∧ headerOrg headers ≠ forced
      then
        .error ("Unauthorized: scoped agent key cannot act " ++
          "for another org")
      else
        .ok forced
  | none =>
      if headerOrg headers = "" then
        .error ("Unauthorized: agent key requires " ++
          "X-Agent-Org-Override header")
      else
        .ok (headerOrg headers)

/- Sentinel is on, or a manual run is being finished. -/
def checkEnabled
    (server : Server)
    (orgId : String) : Except String Unit :=
  match server.sentinelEnabled orgId with
  | none => .error "Authentication error"
  | some none => .error "Sentinel disabled for this org"
  | some (some true) => .ok ()
  | some (some false) =>
      match server.manualRun orgId with
      | none => .error "Authentication error"
      | some none => .error "Sentinel disabled for this org"
      | some (some _) => .ok ()

def agentLimitMessage : Breach → String
| .minute =>
    "Sentinel agent rate limit: too many tool calls in one " ++
      "minute for this org. Tune the per-camera cooldown or " ++
      "narrow the scope."
| .daily =>
    "Sentinel agent daily cap reached for this org — check " ++
      "the agent's run log for a stuck loop."

/- The per-org budget of agent traffic. -/
def checkAgentLimits
    (server : Server)
    (orgId : String) : Except String Unit :=
  match rateLimits (server.effectivePlan orgId) with
  | none =>
      .error ("Agent override target org is not on a " ++
        "Sentinel-eligible plan")
  | some (minute, daily) =>
      match
        server.breach ("sentinel-agent:" ++ orgId) minute daily
      with
      | none => .ok ()
      | some breach => .error (agentLimitMessage breach)

def resolveViaAgentKey
    (server : Server)
    (headers : Headers)
    (forcedOrg : Option String) : Except String Principal := do
  let orgId ← agentOrg headers forcedOrg
  let plan := server.effectivePlan orgId
  if !planHasSentinel plan then
    throw ("Agent override target org is not on a " ++
      "Sentinel-eligible plan (plan=" ++ Json.reprStr plan ++
      ")")
  if sentinelBlockedByLicense server plan then
    throw ("Agent override target org is self-hosted " ++
      "without a valid Sentinel license")
  checkEnabled server orgId
  checkAgentLimits server orgId
  return { orgId := orgId, keyName := "<sentinel-agent>" }

def limitMessage
    (plan : String)
    (minute daily : Nat) : Breach → String
| .minute =>
    "Rate limit exceeded: " ++ toString minute ++
      " calls/min allowed on the " ++ getPlanDisplayName plan ++
      " plan. Try again shortly."
| .daily =>
    "Daily cap reached: " ++ toString daily ++
      " calls/24h on the " ++ getPlanDisplayName plan ++
      " plan. This usually means an agent is stuck in a " ++
      "loop. The cap resets 24h after the first call. " ++
      "Upgrade your plan for a higher ceiling."

/- The plan and budget of an `mcp_api_keys` credential. -/
def resolveViaMcpKey
    (server : Server)
    (keyHash : String)
    (key : McpKey) : Except String Principal :=
  let plan := server.effectivePlan key.orgId
  match rateLimits plan with
  | none =>
      .error ("MCP requires a Pro or Pro Plus plan. " ++
        "Upgrade at /pricing.")
  | some (minute, daily) =>
      match server.breach keyHash minute daily with
      | none => .ok { orgId := key.orgId, keyName := key.name }
      | some breach =>
          .error (limitMessage plan minute daily breach)

/- The org a call acts for, or why it may not. -/
def resolve
    (server : Server)
    (headers : Headers)
    (tables : KeyTables)
    (agentOk mcpOk : Bool) : Except String Principal :=
  match bearer headers with
  | .error message => .error message
  | .ok raw =>
      if isSharedAgentKey server raw then
        resolveViaAgentKey server headers none
      else
        let keyHash := server.sha256Hex raw
        match fetch agentOk (tables.activeAgentKey keyHash) with
        | .error _ => .error "Authentication error"
        | .ok (some key) =>
            resolveViaAgentKey server headers (some key.orgId)
        | .ok none =>
            match fetch mcpOk (tables.activeMcpKey keyHash) with
            | .error _ => .error "Authentication error"
            | .ok none =>
                .error
                  "Unauthorized: invalid or revoked API key"
            | .ok (some key) =>
                resolveViaMcpKey server keyHash key

--------------------
-- Credentials
--------------------

/- Who a token belongs to. -/
inductive Credential where
  | agent
  | mcp (key : McpKey)
  deriving DecidableEq, Repr

/- The tools a credential is meant to reach. -/
def Credential.allowed
    (server : Server) : Credential → Finset Tool
| .agent => agentAllowedTools
| .mcp key =>
    computeAllowedTools key.scopeMode
      (some (parseScopeTools server key.scopeTools))

/- The credential of a token in the key tables. -/
def credential
    (server : Server)
    (headers : Headers)
    (tables : KeyTables) : Option Credential :=
  match bearer headers with
  | .error _ => none
  | .ok raw =>
      if isSharedAgentKey server raw then
        some .agent
      else
        match tables.activeAgentKey (server.sha256Hex raw) with
        | some _ => some .agent
        | none =>
            (tables.activeMcpKey (server.sha256Hex raw)).map
              .mcp

/- The token is the shared multi-tenant key. -/
def Shared
    (server : Server)
    (headers : Headers) : Prop :=
  ∃ raw, bearer headers = .ok raw ∧
    isSharedAgentKey server raw = true

/-
  The credential is there when the scope pass runs, and the
  queries it takes to find it succeed.
-/
def Sees
    (server : Server)
    (headers : Headers)
    (tables : KeyTables)
    (agentOk mcpOk : Bool)
    (seen : Credential) : Prop :=
  credential server headers tables = some seen ∧
    (Shared server headers ∨
      (agentOk = true ∧ (seen = .agent ∨ mcpOk = true)))

/- The scope pass answers for the credential it sees. -/
theorem lookupAllowed_eq_some_iff
    (server : Server)
    (headers : Headers)
    (tables : KeyTables)
    (agentOk mcpOk : Bool)
    (allowed : Finset Tool) :
    lookupAllowed server headers tables agentOk mcpOk =
        some allowed ↔
      ∃ seen, Sees server headers tables agentOk mcpOk seen ∧
        seen.allowed server = allowed := by
  cases hBearer : bearer headers with
  | error message =>
      simp [lookupAllowed, Sees, credential, hBearer]
  | ok raw =>
      cases hShared : isSharedAgentKey server raw with
      | true =>
          simp [lookupAllowed, Sees, credential, Shared,
            hBearer, hShared, Credential.allowed]
      | false =>
          cases hAgent :
              tables.activeAgentKey (server.sha256Hex raw) with
          | some key =>
              cases agentOk <;>
                simp [lookupAllowed, Sees, credential, Shared,
                  fetch, hBearer, hShared, hAgent,
                  Credential.allowed]
          | none =>
              cases hMcp :
                  tables.activeMcpKey
                    (server.sha256Hex raw) with
              | none =>
                  cases agentOk <;> cases mcpOk <;>
                    simp [lookupAllowed, Sees, credential,
                      fetch, hBearer, hShared, hAgent, hMcp]
              | some key =>
                  cases agentOk <;> cases mcpOk <;>
                    simp [lookupAllowed, Sees, credential,
                      Shared, fetch, hBearer, hShared, hAgent,
                      hMcp, Credential.allowed]

end Mcp

--------------------
-- Admission
--------------------

namespace Mcp

/- Plan, licence, switch and budget let the agent act. -/
structure AgentAdmits
    (server : Server)
    (orgId : String) : Prop where
  plan : planHasSentinel (server.effectivePlan orgId) = true
  licensed :
    sentinelBlockedByLicense server
      (server.effectivePlan orgId) = false
  enabled :
    server.sentinelEnabled orgId = some (some true) ∨
      (server.sentinelEnabled orgId = some (some false) ∧
        ∃ run, server.manualRun orgId = some (some run))
  budget :
    ∃ minute daily,
      rateLimits (server.effectivePlan orgId) =
          some (minute, daily) ∧
        server.breach ("sentinel-agent:" ++ orgId) minute
          daily = none

theorem checkEnabled_eq_ok_iff
    (server : Server)
    (orgId : String) :
    checkEnabled server orgId = .ok () ↔
      server.sentinelEnabled orgId = some (some true) ∨
        (server.sentinelEnabled orgId = some (some false) ∧
          ∃ run, server.manualRun orgId = some (some run)) := by
  unfold checkEnabled
  rcases server.sentinelEnabled orgId with _ | _ | _ | _
  · simp
  · simp
  · rcases server.manualRun orgId with _ | _ | _ <;> simp
  · simp

theorem checkAgentLimits_eq_ok_iff
    (server : Server)
    (orgId : String) :
    checkAgentLimits server orgId = .ok () ↔
      ∃ minute daily,
        rateLimits (server.effectivePlan orgId) =
            some (minute, daily) ∧
          server.breach ("sentinel-agent:" ++ orgId) minute
            daily = none := by
  unfold checkAgentLimits
  rcases rateLimits (server.effectivePlan orgId) with
    _ | ⟨minute, daily⟩
  · simp
  · rcases hBreach :
      server.breach ("sentinel-agent:" ++ orgId) minute
        daily with _ | breach <;> simp [hBreach]

theorem resolveViaAgentKey_isOk_iff
    (server : Server)
    (headers : Headers)
    (forcedOrg : Option String) :
    (∃ principal,
      resolveViaAgentKey server headers forcedOrg =
        .ok principal) ↔
      ∃ orgId, agentOrg headers forcedOrg = .ok orgId ∧
        AgentAdmits server orgId := by
  cases hOrg : agentOrg headers forcedOrg with
  | error message =>
      simp [resolveViaAgentKey, hOrg, bind, Except.bind]
  | ok orgId =>
      constructor
      · rintro ⟨principal, hOk⟩
        refine ⟨orgId, rfl, ?_⟩
        cases hPlan :
            planHasSentinel (server.effectivePlan orgId) with
        | false =>
            simp [resolveViaAgentKey, hOrg, hPlan, bind,
              Except.bind, throw, throwThe,
              MonadExceptOf.throw] at hOk
        | true =>
            cases hBlocked :
                sentinelBlockedByLicense server
                  (server.effectivePlan orgId) with
            | true =>
                simp [resolveViaAgentKey, hOrg, hPlan,
                  hBlocked, bind, Except.bind, throw, throwThe,
                  MonadExceptOf.throw] at hOk
            | false =>
                cases hEnabled : checkEnabled server orgId with
                | error message =>
                    simp [resolveViaAgentKey, hOrg, hPlan,
                      hBlocked, hEnabled, bind,
                      Except.bind] at hOk
                | ok _ =>
                    cases hBudget :
                        checkAgentLimits server orgId with
                    | error message =>
                        simp [resolveViaAgentKey, hOrg, hPlan,
                          hBlocked, hEnabled, hBudget, bind,
                          Except.bind] at hOk
                    | ok _ =>
                        exact
                          { plan := hPlan
                            licensed := hBlocked
                            enabled :=
                              (checkEnabled_eq_ok_iff
                                server orgId).mp hEnabled
                            budget :=
                              (checkAgentLimits_eq_ok_iff
                                server orgId).mp hBudget }
      · rintro ⟨other, hOther, hAdmits⟩
        cases hOther
        refine ⟨⟨orgId, "<sentinel-agent>"⟩, ?_⟩
        simp [resolveViaAgentKey, hOrg, bind, Except.bind,
          hAdmits.plan, hAdmits.licensed,
          (checkEnabled_eq_ok_iff server orgId).mpr
            hAdmits.enabled,
          (checkAgentLimits_eq_ok_iff server orgId).mpr
            hAdmits.budget, pure, Except.pure]

/- The org the headers let an agent credential act for. -/
theorem agentOrg_eq_ok_iff
    (headers : Headers)
    (forcedOrg : Option String)
    (orgId : String) :
    agentOrg headers forcedOrg = .ok orgId ↔
      match forcedOrg with
      | some forced =>
          forced = orgId ∧
            (headerOrg headers = "" ∨
              headerOrg headers = forced)
      | none =>
          headerOrg headers ≠ "" ∧ headerOrg headers = orgId := by
  cases forcedOrg with
  | none =>
      by_cases hNone : headerOrg headers = ""
      · simp [agentOrg, hNone]
      · simp [agentOrg, hNone]
  | some forced =>
      by_cases hClash :
          headerOrg headers ≠ "" ∧ headerOrg headers ≠ forced
      · simp [agentOrg, hClash]
      · have hAgrees :
            headerOrg headers = "" ∨
              headerOrg headers = forced := by
          by_contra hApart
          exact hClash (not_or.mp hApart)
        rw [agentOrg, if_neg hClash]
        constructor
        · intro hOk
          cases hOk
          exact ⟨rfl, hAgrees⟩
        · rintro ⟨rfl, _⟩
          rfl

/-
  What it takes for the org pass to accept a token: its
  queries up to the row of the credential succeed, and the
  org of the credential is admitted.
-/
inductive Admits
    (server : Server)
    (headers : Headers)
    (tables : KeyTables)
    (agentOk mcpOk : Bool) : Prop where
  | shared
      (raw : String)
      (hBearer : bearer headers = .ok raw)
      (hShared : isSharedAgentKey server raw = true)
      (hNamed : headerOrg headers ≠ "")
      (hOrg : AgentAdmits server (headerOrg headers))
  | agent
      (raw : String)
      (key : AgentKey)
      (hBearer : bearer headers = .ok raw)
      (hShared : isSharedAgentKey server raw = false)
      (hQuery : agentOk = true)
      (hRow :
        tables.activeAgentKey (server.sha256Hex raw) = some key)
      (hNamed :
        headerOrg headers = "" ∨ headerOrg headers = key.orgId)
      (hOrg : AgentAdmits server key.orgId)
  | mcp
      (raw : String)
      (key : McpKey)
      (minute daily : Nat)
      (hBearer : bearer headers = .ok raw)
      (hShared : isSharedAgentKey server raw = false)
      (hAgentQuery : agentOk = true)
      (hAgentRow :
        tables.activeAgentKey (server.sha256Hex raw) = none)
      (hQuery : mcpOk = true)
      (hRow :
        tables.activeMcpKey (server.sha256Hex raw) = some key)
      (hPlan :
        rateLimits (server.effectivePlan key.orgId) =
          some (minute, daily))
      (hBudget :
        server.breach (server.sha256Hex raw) minute daily =
          none)

theorem resolveViaMcpKey_isOk_iff
    (server : Server)
    (keyHash : String)
    (key : McpKey) :
    (∃ principal,
      resolveViaMcpKey server keyHash key = .ok principal) ↔
      ∃ minute daily,
        rateLimits (server.effectivePlan key.orgId) =
            some (minute, daily) ∧
          server.breach keyHash minute daily = none := by
  rcases hPlan : rateLimits (server.effectivePlan key.orgId)
    with _ | ⟨minute, daily⟩
  · simp [resolveViaMcpKey, hPlan]
  · rcases hBreach : server.breach keyHash minute daily with
      _ | breach <;> simp [resolveViaMcpKey, hPlan, hBreach]

section Admission

variable {server : Server}
variable {headers : Headers}
variable {tables : KeyTables}
variable {raw : String}

theorem admits_of_sharedKey
    {agentOk mcpOk : Bool}
    (hBearer : bearer headers = .ok raw)
    (hShared : isSharedAgentKey server raw = true)
    (hOk :
      ∃ principal,
        resolve server headers tables agentOk mcpOk =
          .ok principal) :
    Admits server headers tables agentOk mcpOk := by
  simp only [resolve, hBearer, hShared] at hOk
  rcases (resolveViaAgentKey_isOk_iff _ _ _).mp hOk with
    ⟨orgId, hOrg, hAdmits⟩
  rcases (agentOrg_eq_ok_iff _ _ _).mp hOrg with ⟨hNamed, rfl⟩
  exact .shared raw hBearer hShared hNamed hAdmits

theorem admits_of_agentKey
    {mcpOk : Bool}
    {key : AgentKey}
    (hBearer : bearer headers = .ok raw)
    (hShared : isSharedAgentKey server raw = false)
    (hAgent :
      tables.activeAgentKey (server.sha256Hex raw) = some key)
    (hOk :
      ∃ principal,
        resolve server headers tables true mcpOk =
          .ok principal) :
    Admits server headers tables true mcpOk := by
  simp only [resolve, hBearer, hShared, fetch, hAgent] at hOk
  rcases (resolveViaAgentKey_isOk_iff _ _ _).mp hOk with
    ⟨orgId, hOrg, hAdmits⟩
  rcases (agentOrg_eq_ok_iff _ _ _).mp hOrg with ⟨rfl, hNamed⟩
  exact .agent raw key hBearer hShared rfl hAgent hNamed hAdmits

theorem admits_of_mcpKey
    {key : McpKey}
    (hBearer : bearer headers = .ok raw)
    (hShared : isSharedAgentKey server raw = false)
    (hAgent :
      tables.activeAgentKey (server.sha256Hex raw) = none)
    (hRow :
      tables.activeMcpKey (server.sha256Hex raw) = some key)
    (hOk :
      ∃ principal,
        resolve server headers tables true true =
          .ok principal) :
    Admits server headers tables true true := by
  simp only [resolve, hBearer, hShared, fetch, hAgent, hRow]
    at hOk
  rcases (resolveViaMcpKey_isOk_iff _ _ _).mp hOk with
    ⟨minute, daily, hPlan, hBudget⟩
  exact
    .mcp raw key minute daily hBearer hShared rfl hAgent rfl
      hRow hPlan hBudget

/- What the org pass accepts, it admits. -/
theorem admits_of_resolve
    {agentOk mcpOk : Bool}
    {principal : Principal}
    (hResolve :
      resolve server headers tables agentOk mcpOk =
        .ok principal) :
    Admits server headers tables agentOk mcpOk := by
  have hOk :
      ∃ principal,
        resolve server headers tables agentOk mcpOk =
          .ok principal :=
    ⟨principal, hResolve⟩
  cases hBearer : bearer headers with
  | error message => simp [resolve, hBearer] at hOk
  | ok raw =>
      cases hShared : isSharedAgentKey server raw with
      | true => exact admits_of_sharedKey hBearer hShared hOk
      | false =>
          -- Each query in turn, and it may fail.
          cases agentOk with
          | false =>
              simp [resolve, hBearer, hShared, fetch] at hOk
          | true =>
              cases hAgent :
                  tables.activeAgentKey
                    (server.sha256Hex raw) with
              | some key =>
                  exact
                    admits_of_agentKey hBearer hShared hAgent
                      hOk
              | none =>
                  cases mcpOk with
                  | false =>
                      simp [resolve, hBearer, hShared, fetch,
                        hAgent] at hOk
                  | true =>
                      cases hRow :
                          tables.activeMcpKey
                            (server.sha256Hex raw) with
                      | none =>
                          simp [resolve, hBearer, hShared,
                            fetch, hAgent, hRow] at hOk
                      | some key =>
                          exact
                            admits_of_mcpKey hBearer hShared
                              hAgent hRow hOk

end Admission

/- What the org pass admits, it accepts. -/
theorem resolve_of_admits
    {server : Server}
    {headers : Headers}
    {tables : KeyTables}
    {agentOk mcpOk : Bool}
    (hAdmits : Admits server headers tables agentOk mcpOk) :
    ∃ principal,
      resolve server headers tables agentOk mcpOk =
        .ok principal := by
  cases hAdmits with
  | shared raw hBearer hShared hNamed hOrg =>
      simp only [resolve, hBearer, hShared, if_true]
      apply (resolveViaAgentKey_isOk_iff _ _ _).mpr
      exact
        ⟨headerOrg headers,
          (agentOrg_eq_ok_iff _ _ _).mpr ⟨hNamed, rfl⟩,
          hOrg⟩
  | agent raw key hBearer hShared hQuery hRow hNamed hOrg =>
      simp only [resolve, hBearer, hShared, hQuery, fetch,
        hRow]
      apply (resolveViaAgentKey_isOk_iff _ _ _).mpr
      exact
        ⟨key.orgId,
          (agentOrg_eq_ok_iff _ _ _).mpr ⟨rfl, hNamed⟩,
          hOrg⟩
  | mcp raw key minute daily hBearer hShared hAgentQuery
      hAgentRow hQuery hRow hPlan hBudget =>
      simp only [resolve, hBearer, hShared, hAgentQuery,
        hQuery, fetch, hAgentRow, hRow]
      apply (resolveViaMcpKey_isOk_iff _ _ _).mpr
      exact ⟨minute, daily, hPlan, hBudget⟩

/- The org pass accepts exactly the tokens it admits. -/
theorem resolve_isOk_iff
    (server : Server)
    (headers : Headers)
    (tables : KeyTables)
    (agentOk mcpOk : Bool) :
    (∃ principal,
      resolve server headers tables agentOk mcpOk =
        .ok principal) ↔
      Admits server headers tables agentOk mcpOk := by
  constructor
  · rintro ⟨principal, hOk⟩
    exact admits_of_resolve hOk
  · exact resolve_of_admits

/- An accepted token belongs to a credential. -/
theorem credential_of_admits
    {server : Server}
    {headers : Headers}
    {tables : KeyTables}
    {agentOk mcpOk : Bool}
    (hAdmits : Admits server headers tables agentOk mcpOk) :
    ∃ owner, credential server headers tables = some owner := by
  cases hAdmits with
  | shared raw hBearer hShared _ _ =>
      exact ⟨.agent, by simp [credential, hBearer, hShared]⟩
  | agent raw key hBearer hShared _ hRow _ _ =>
      exact
        ⟨.agent, by simp [credential, hBearer, hShared, hRow]⟩
  | mcp raw key _ _ hBearer hShared _ hAgentRow _ hRow _ _ =>
      exact
        ⟨.mcp key,
          by
            simp [credential, hBearer, hShared, hAgentRow,
              hRow]⟩

end Mcp

end SentinelCommand
