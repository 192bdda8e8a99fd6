import SentinelCommand.Mcp.Auth

/-
  `call_tool` of `mcp/server.rs`: the scope pass, the org
  pass and the dispatch of one request, and what the two
  passes together let through.

  Main declarations:
    * `Mcp.callTool`
    * `Mcp.withinScope_iff`
    * `Mcp.failed_lookup_opens_scope`
-/

--------------------
-- Requests
--------------------

namespace SentinelCommand

namespace Mcp

/- The outcomes of the queries of one call. -/
structure Outcomes where
  lookupAgent : Bool
  lookupMcp : Bool
  resolveAgent : Bool
  resolveMcp : Bool
  deriving DecidableEq, Repr

/- A refusal with its message, or a tool that was run. -/
inductive Reply where
  | toolError (message : String)
  | ran (tool : Tool) (principal : Principal)
  deriving DecidableEq, Repr

/- A name the dispatch table does not have runs nothing. -/
def dispatch
    (name : String)
    (principal : Principal) : Reply :=
  match Tool.named name with
  | some tool => .ran tool principal
  | none => .toolError ("Unknown tool: " ++ name)

/- `args.values().any(carries_nul)`. -/
def argumentsCarryNul
    (arguments : List (String × Json)) : Bool :=
  arguments.any (fun field => field.2.carriesNul)

def scopeMessage (name : String) : String :=
  "Tool '" ++ name ++ "' is not enabled for this API key. " ++
    "Update the key's scope in the Sentinel dashboard or " ++
    "use a different key."

/- The rest of a call once the scope pass let it through. -/
def afterScope
    (server : Server)
    (headers : Headers)
    (name : String)
    (arguments : List (String × Json))
    (after : KeyTables)
    (outcomes : Outcomes) : Reply :=
  match
    resolve server headers after outcomes.resolveAgent
      outcomes.resolveMcp
  with
  | .error message => .toolError message
  | .ok principal =>
      if argumentsCarryNul arguments then
        .toolError ("Arguments must not contain a NUL " ++
          "(\\u0000) character.")
      else
        dispatch name principal

/-
  One call. The scope pass reads the key tables as they are
  `before`, the org pass as they are `after`.
-/
def callTool
    (server : Server)
    (headers : Headers)
    (name : String)
    (arguments : List (String × Json))
    (before after : KeyTables)
    (outcomes : Outcomes) : Reply :=
  match
    lookupAllowed server headers before outcomes.lookupAgent
      outcomes.lookupMcp
  with
  | none =>
      afterScope server headers name arguments after outcomes
  | some allowed =>
      if ∃ tool ∈ allowed, tool.name = name then
        afterScope server headers name arguments after outcomes
      else
        .toolError (scopeMessage name)

theorem dispatch_eq_ran_iff
    (name : String)
    (principal other : Principal)
    (tool : Tool) :
    dispatch name principal = .ran tool other ↔
      tool.name = name ∧ principal = other := by
  rw [← named_eq_some_iff]
  cases hNamed : Tool.named name with
  | none => simp [dispatch, hNamed]
  | some found => simp [dispatch, hNamed]

/- A call runs the tool it names when both passes let it. -/
theorem callTool_eq_ran_iff
    (server : Server)
    (headers : Headers)
    (name : String)
    (arguments : List (String × Json))
    (before after : KeyTables)
    (outcomes : Outcomes)
    (tool : Tool) :
    (∃ principal,
      callTool server headers name arguments before after
        outcomes = .ran tool principal) ↔
      tool.name = name ∧
        argumentsCarryNul arguments = false ∧
        (∃ principal,
          resolve server headers after outcomes.resolveAgent
            outcomes.resolveMcp = .ok principal) ∧
        ∀ allowed,
          lookupAllowed server headers before
              outcomes.lookupAgent outcomes.lookupMcp =
            some allowed → tool ∈ allowed := by
  have hRun :
      (∃ principal,
        afterScope server headers name arguments after
          outcomes = .ran tool principal) ↔
        tool.name = name ∧
          argumentsCarryNul arguments = false ∧
          ∃ principal,
            resolve server headers after
              outcomes.resolveAgent outcomes.resolveMcp =
                .ok principal := by
    cases hResolve :
        resolve server headers after outcomes.resolveAgent
          outcomes.resolveMcp with
    | error message => simp [afterScope, hResolve]
    | ok principal =>
        cases hNul : argumentsCarryNul arguments with
        | true => simp [afterScope, hResolve, hNul]
        | false =>
            simp [afterScope, hResolve, hNul,
              dispatch_eq_ran_iff]
  cases hLookup :
      lookupAllowed server headers before
        outcomes.lookupAgent outcomes.lookupMcp with
  | none => simp [callTool, hLookup, hRun]
  | some allowed =>
      by_cases hIn : ∃ other ∈ allowed, other.name = name
      · have hGate :
            tool.name = name → tool ∈ allowed := by
          rintro rfl
          rcases hIn with ⟨other, hOther, hSame⟩
          rw [← name_inj.mp hSame]
          exact hOther
        simp only [callTool, hLookup, if_pos hIn, hRun,
          Option.some.injEq, forall_eq']
        constructor
        · rintro ⟨hName, hNul, hResolve⟩
          exact ⟨hName, hNul, hResolve, hGate hName⟩
        · rintro ⟨hName, hNul, hResolve, _⟩
          exact ⟨hName, hNul, hResolve⟩
      · simp only [callTool, hLookup, if_neg hIn]
        constructor
        · rintro ⟨principal, hRan⟩
          cases hRan
        · rintro ⟨hName, _, _, hGate⟩
          exact absurd ⟨tool, hGate allowed rfl, hName⟩ hIn

--------------------
-- Scope
--------------------

/-
  Whatever tool a client names, it is run only if it is in
  the allowed set of the credential the token belongs to.
-/
def WithinScope
    (server : Server)
    (headers : Headers)
    (arguments : List (String × Json))
    (before after : KeyTables)
    (outcomes : Outcomes) : Prop :=
  ∀ name tool principal,
    callTool server headers name arguments before after
        outcomes = .ran tool principal →
      ∃ owner, credential server headers after = some owner ∧
        tool ∈ owner.allowed server

/-
  The scope pass found a credential that reaches no more
  than the owner of the token, or the owner reaches every
  tool.
-/
def ScopeKnown
    (server : Server)
    (headers : Headers)
    (before after : KeyTables)
    (outcomes : Outcomes) : Prop :=
  ∃ owner, credential server headers after = some owner ∧
    (owner.allowed server = allTools ∨
      ∃ seen,
        Sees server headers before outcomes.lookupAgent
            outcomes.lookupMcp seen ∧
          seen.allowed server ⊆ owner.allowed server)

/-
  A call stays within the scope of its credential exactly
  when the org pass refuses the token, the arguments carry a
  NUL, or the scope pass found the credential.
-/
theorem withinScope_iff
    (server : Server)
    (headers : Headers)
    (arguments : List (String × Json))
    (before : KeyTables)
    (inserted : Option NewKey)
    (outcomes : Outcomes) :
    WithinScope server headers arguments before
        (before.insertOption inserted) outcomes ↔
      (Admits server headers (before.insertOption inserted)
          outcomes.resolveAgent outcomes.resolveMcp →
        argumentsCarryNul arguments = false →
          ScopeKnown server headers before
            (before.insertOption inserted) outcomes) := by
  generalize before.insertOption inserted = after
  constructor
  · intro hWithin hAdmits hNul
    rcases credential_of_admits hAdmits with ⟨owner, hOwner⟩
    have hResolve := (resolve_isOk_iff _ _ _ _ _).mpr hAdmits
    have hRuns :
        ∀ tool,
          (∀ allowed,
            lookupAllowed server headers before
                outcomes.lookupAgent outcomes.lookupMcp =
              some allowed → tool ∈ allowed) →
            tool ∈ owner.allowed server := by
      intro tool hGate
      rcases
        (callTool_eq_ran_iff server headers tool.name
          arguments before after outcomes tool).mpr
            ⟨rfl, hNul, hResolve, hGate⟩ with
        ⟨principal, hRan⟩
      rcases hWithin tool.name tool principal hRan with
        ⟨other, hOther, hMem⟩
      rw [hOwner] at hOther
      cases hOther
      exact hMem
    refine ⟨owner, hOwner, ?_⟩
    cases hLookup :
        lookupAllowed server headers before
          outcomes.lookupAgent outcomes.lookupMcp with
    | none =>
        left
        ext tool
        have hMem := hRuns tool (by simp [hLookup])
        simp [hMem]
    | some allowed =>
        rcases
          (lookupAllowed_eq_some_iff _ _ _ _ _ _).mp hLookup
          with ⟨seen, hSees, hAllowed⟩
        refine Or.inr ⟨seen, hSees, ?_⟩
        intro tool hTool
        apply hRuns tool
        intro other hOther
        rw [hLookup] at hOther
        cases hOther
        rw [← hAllowed]
        exact hTool
  · intro hKnown name tool principal hRan
    rcases
      (callTool_eq_ran_iff _ _ _ _ _ _ _ _).mp
        ⟨principal, hRan⟩ with
      ⟨_, hNul, hResolve, hGate⟩
    have hAdmits := (resolve_isOk_iff _ _ _ _ _).mp hResolve
    rcases hKnown hAdmits hNul with ⟨owner, hOwner, hScope⟩
    refine ⟨owner, hOwner, ?_⟩
    rcases hScope with hAll | ⟨seen, hSees, hSub⟩
    · rw [hAll]
      exact mem_allTools tool
    · apply hSub
      apply hGate
      exact
        (lookupAllowed_eq_some_iff _ _ _ _ _ _).mpr
          ⟨seen, hSees, rfl⟩

/- A paid install whose hash and reader are the identity. -/
def plainServer : Server :=
  { sentinelAgentMcpKey := none
    sha256Hex := fun raw => raw
    fromStr := fun text => some (.string text)
    effectivePlan := fun _ => "pro"
    licensed := false
    sentinelEnabled := fun _ => some none
    manualRun := fun _ => some none
    breach := fun _ _ _ => none }

def readonlyKey : McpKey :=
  { orgId := "org_a"
    name := "dashboard"
    keyHash := "osc_1"
    scopeMode := some "readonly"
    scopeTools := none
    revoked := false
    kind := "mcp" }

def readonlyTables : KeyTables :=
  { agentKeys := []
    mcpKeys := [readonlyKey]
    agent_unique := by decide
    mcp_unique := by decide }

def readonlyHeaders : Headers :=
  { authorization := some "Bearer osc_1"
    agentOrgOverride := none }

/-
  The first query of the scope pass fails and the rest
  succeed: a read-only key switches a camera's recording.
-/
theorem failed_lookup_opens_scope :
    ¬ ∀ (server : Server) (headers : Headers)
        (arguments : List (String × Json))
        (before : KeyTables) (inserted : Option NewKey)
        (outcomes : Outcomes),
        WithinScope server headers arguments before
          (before.insertOption inserted) outcomes := by
  intro hClaim
  rcases
    hClaim plainServer readonlyHeaders [] readonlyTables none
      ⟨false, true, true, true⟩
      "set_camera_recording_policy" .setCameraRecordingPolicy
      ⟨"org_a", "dashboard"⟩ (by decide) with
    ⟨owner, hOwner, hMem⟩
  have hKey : owner = .mcp readonlyKey := by
    have hSame :
        credential plainServer readonlyHeaders
          readonlyTables = some (.mcp readonlyKey) := by
      decide
    exact Option.some.inj (hOwner.symm.trans hSame)
  subst hKey
  revert hMem
  decide

end Mcp

end SentinelCommand
