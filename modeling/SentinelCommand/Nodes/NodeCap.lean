import SentinelCommand.Lib.TransactionRules
import SentinelCommand.Mcp.Auth
import SentinelCommand.Nodes.Register
import SentinelCommand.Plans.Entitlement
import SentinelCommand.Sentinel.CompleteRequest

/-
  `POST /api/nodes`: a node is counted against the plan's cap
  and inserted under one lock for its organization.

  An id is short and unique over all organizations. An insert
  that collides is rolled back to its savepoint and tried
  again with another id, three times in all.

  Main declarations:
    * `Nodes.createNode`
    * `Nodes.nodePolicy`
    * `Nodes.nodeCap_kept`
-/

--------------------
-- Requests
--------------------

namespace SentinelCommand

namespace Nodes

/- Which database this build is for. -/
inductive Dialect where
  | postgres
  | sqlite
  deriving DecidableEq, Repr

/-
  An advisory lock by the hash of its key, or the write lock
  of an SQLite database.
-/
inductive DbLock where
  | advisory (hash : Int)
  | database
  deriving DecidableEq, Repr

/- The columns of `camera_nodes` that a new node sets. -/
structure NodeRow where
  nodeId : String
  orgId : String
  name : String
  apiKeyHash : String
  status : String
  httpPort : Int
  createdAt : Int
  updatedAt : Int
  deriving DecidableEq, Repr

/- The table with its unique index on `node_id`. -/
structure NodeTable where
  rows : List NodeRow
  unique : (rows.map NodeRow.nodeId).Nodup

/- The deployment, and the plan of each organization. -/
structure CreateEnv where
  dialect : Dialect
  plan : String → String
  hashtext : String → Int
  nodeKeyHash : String → String

/- The statements of a request, by their attempt. -/
inductive Statement where
  | beginWrite
  | lock
  | count
  | savepoint (attempt : Nat)
  | insert (attempt : Nat)
  | release (attempt : Nat)
  | rollbackTo (attempt : Nat)
  deriving DecidableEq, Repr

/-
  How a commit ends: acknowledged, never done, or done with
  its acknowledgement lost.
-/
inductive CommitEnd where
  | acknowledged
  | lost
  | unheard
  deriving DecidableEq, Repr

/-
  A request, with the ids and clock readings it draws, and
  which of its statements fail for a reason of their own.
-/
structure CreateNode where
  orgId : String
  body : Fields
  rateAllowed : Bool
  apiKey : String
  uuid : Nat → String
  now : Nat → Int
  fails : Statement → Bool
  commitEnd : CommitEnd

inductive CreateAnswer where
  | invalid (errors : List Sentinel.BodyError)
  | rateLimited
  | failed
  | nodeLimitReached (message : String)
  | noNodeId
  | created (nodeId name apiKey : String)

def maxNodes (env : CreateEnv) (orgId : String) : Nat :=
  (Plans.getPlanLimits (env.plan orgId)).maxNodes

/- `COUNT(*)` of the nodes of one organization. -/
def countNodes (rows : List NodeRow) (orgId : String) : Nat :=
  rows.countP (fun row => row.orgId = orgId)

def nodeLimitMessage
    (env : CreateEnv)
    (orgId : String) : String :=
  "Node limit reached (" ++ toString (maxNodes env orgId) ++
    " on " ++ Mcp.getPlanDisplayName (env.plan orgId) ++
    " plan). Upgrade your plan to add more nodes."

/- The first eight characters of a uuid. -/
def nodeIdOf (uuid : String) : String :=
  String.ofList (uuid.toList.take 8)

/- The row of one attempt; an empty name takes the default. -/
def newNode
    (env : CreateEnv)
    (request : CreateNode)
    (requestedName : Option String)
    (attempt : Nat) : NodeRow :=
  let nodeId := nodeIdOf (request.uuid attempt)
  { nodeId
    orgId := request.orgId
    name :=
      (present requestedName).getD ("Node-" ++ nodeId)
    apiKeyHash := env.nodeKeyHash request.apiKey
    status := "pending"
    httpPort := 8080
    createdAt := request.now attempt
    updatedAt := request.now attempt }

--------------------
-- The Transaction
--------------------

open Transactions

abbrev NodeStore : Type :=
  Store NodeRow DbLock CreateAnswer

abbrev CreateThread : Type :=
  TxThread NodeRow DbLock CreateAnswer

def respond (id : Nat) (answer : CreateAnswer) : CreateThread :=
  run (·.answer id answer) .done

/- An early return, whose transaction is rolled back. -/
def abandon (id : Nat) (answer : CreateAnswer) : CreateThread :=
  run (·.answer id answer) (run (·.drop id) .done)

/- SQLite takes its one write lock up front. -/
def beginWrite
    (env : CreateEnv)
    (id : Nat)
    (rest : CreateThread) : CreateThread :=
  match env.dialect with
  | .postgres => rest
  | .sqlite => Transactions.lockFor id .database rest

def lockForUpdate
    (env : CreateEnv)
    (id : Nat)
    (key : String)
    (rest : CreateThread) : CreateThread :=
  match env.dialect with
  | .postgres =>
      Transactions.lockFor id (.advisory (env.hashtext key)) rest
  | .sqlite => rest

def nodeCapKey (orgId : String) : String :=
  "node-cap:" ++ orgId

def nodeIdAttempts : Nat := 3

/- The commit and the answer after the attempts. -/
def finishCreate
    (request : CreateNode)
    (id : Nat)
    (created : Option NodeRow) : CreateThread :=
  match request.commitEnd with
  | .acknowledged =>
      run (·.commit id)
        (respond id
          (match created with
          | none => .noNodeId
          | some row =>
              .created row.nodeId row.name request.apiKey))
  | .lost => abandon id .failed
  | .unheard => run (·.commit id) (respond id .failed)

/- The attempts that are left, each in its savepoint. -/
def tryNodeIds
    (env : CreateEnv)
    (request : CreateNode)
    (id : Nat)
    (requestedName : Option String) : Nat → CreateThread
| 0 => finishCreate request id none
| left + 1 =>
    let attempt := nodeIdAttempts - (left + 1)
    let row := newNode env request requestedName attempt
    if request.fails (.savepoint attempt) then
      abandon id .failed
    else
      insertRow NodeRow.nodeId id 1 row
        (request.fails (.insert attempt))
        (fun inserted =>
          match inserted with
          | .done =>
              if request.fails (.release attempt) then
                abandon id .failed
              else
                run (·.release id 1)
                  (finishCreate request id (some row))
          | .violation =>
              if request.fails (.rollbackTo attempt) then
                abandon id .failed
              else
                run (·.rollbackTo id 1)
                  (tryNodeIds env request id requestedName left)
          | .failed => abandon id .failed)

/- The count and the attempts, once the lock is held. -/
def countThenCreate
    (env : CreateEnv)
    (request : CreateNode)
    (id : Nat)
    (requestedName : Option String) : CreateThread :=
  if request.fails .count then
    abandon id .failed
  else
    Transactions.read
      (fun s => countNodes (s.visible id) request.orgId)
      (fun current =>
        if maxNodes env request.orgId ≤ current then
          abandon id
            (.nodeLimitReached
              (nodeLimitMessage env request.orgId))
        else
          tryNodeIds env request id requestedName
            nodeIdAttempts)

def createNode
    (env : CreateEnv)
    (request : CreateNode)
    (id : Nat) : CreateThread :=
  let requestedName :=
    Sentinel.optionalString request.body "name" 100
  if requestedName.2 ≠ [] then
    respond id (.invalid requestedName.2)
  else if !request.rateAllowed then
    respond id .rateLimited
  else if request.fails .beginWrite then
    respond id .failed
  else
    beginWrite env id
      (if request.fails .lock then
        abandon id .failed
      else
        lockForUpdate env id (nodeCapKey request.orgId)
          (countThenCreate env request id requestedName.1))

--------------------
-- What Is Kept
--------------------

/- The lock under which an organization's nodes are stored. -/
def orgLock (env : CreateEnv) (orgId : String) : DbLock :=
  match env.dialect with
  | .postgres => .advisory (env.hashtext (nodeCapKey orgId))
  | .sqlite => .database

/-
  The caps hold that held at first, a request stores a node
  at most, and what it answers is what it stored.
-/
def nodePolicy
    (env : CreateEnv)
    (table : NodeTable) :
    Policy NodeRow String DbLock CreateAnswer where
  key := NodeRow.nodeId
  guard := fun row => orgLock env row.orgId
  initial := table.rows
  Keeps := fun rows =>
    ∀ orgId, countNodes table.rows orgId ≤ maxNodes env orgId →
      countNodes rows orgId ≤ maxNodes env orgId
  Honest := fun answer stored =>
    match answer with
    | .failed => stored.length ≤ 1
    | .created nodeId name apiKey =>
        ∃ row, stored = [row] ∧ row.nodeId = nodeId ∧
          row.name = name ∧
            row.apiKeyHash = env.nodeKeyHash apiKey
    | _ => stored = []

abbrev CreateValid
    (env : CreateEnv)
    (table : NodeTable)
    (id : Nat) : NodeStore → CreateThread → Prop :=
  TxValid (nodePolicy env table) id

/- What a request has that holds its lock. -/
def locked
    (env : CreateEnv)
    (orgId : String)
    (writes : List (Nat × NodeRow)) :
    Own NodeRow DbLock CreateAnswer where
  stored := []
  writes := writes
  failed := []
  locks := [orgLock env orgId]
  answers := []

/- The request has its lock and the rows behind it. -/
abbrev Counted
    (env : CreateEnv)
    (table : NodeTable)
    (id : Nat)
    (orgId : String)
    (writes : List (Nat × NodeRow))
    (rows : List NodeRow) : NodeStore → Prop :=
  Holding (nodePolicy env table) id (locked env orgId writes)
    (orgLock env orgId) rows

variable {env : CreateEnv} {table : NodeTable}

/- The rows behind the lock have all of the organization's. -/
theorem countNodes_behind
    {orgId : String}
    {rows behind : List NodeRow}
    (hBehind :
      rows.filter
          (fun row =>
            (nodePolicy env table).guard row =
              orgLock env orgId) =
        behind) :
    countNodes behind orgId = countNodes rows orgId := by
  unfold countNodes
  rw [← hBehind, List.countP_filter]
  apply List.countP_congr
  intro row _
  constructor
  · intro hBoth
    simp only [Bool.and_eq_true] at hBoth
    exact hBoth.1
  · intro hOrg
    rw [decide_eq_true_eq] at hOrg
    simp [hOrg, nodePolicy]

theorem countNodes_append
    (rows : List NodeRow)
    (row : NodeRow)
    (orgId : String) :
    countNodes (rows ++ [row]) orgId =
      countNodes rows orgId +
        if row.orgId = orgId then 1 else 0 := by
  unfold countNodes
  rw [List.countP_append, List.countP_singleton]
  simp

--------------------
-- Each Request
--------------------

open Transactions Interleaving

variable {id : Nat} {s : NodeStore}
variable {own : Own NodeRow DbLock CreateAnswer}

theorem valid_respond
    {answer : CreateAnswer}
    (hOwn : s.own id = own)
    (hHonest :
      (nodePolicy env table).Honest answer own.stored) :
    CreateValid env table id s (respond id answer) := by
  apply valid_answer hOwn hHonest
  intro now _
  exact Valid.done now

theorem valid_abandon
    {answer : CreateAnswer}
    (hOwn : s.own id = own)
    (hHonest :
      (nodePolicy env table).Honest answer own.stored) :
    CreateValid env table id s (abandon id answer) := by
  apply valid_answer hOwn hHonest
  intro now hNow
  apply valid_drop hNow
  intro last _
  exact Valid.done last

/- One node fits, or there is none to be stored. -/
theorem valid_finishCreate
    {request : CreateNode}
    {created : Option NodeRow}
    {rows : List NodeRow}
    (hHolding :
      Counted env table id request.orgId
        (created.toList.map (0, ·)) rows s)
    (hRoom :
      countNodes rows request.orgId <
        maxNodes env request.orgId)
    (hRow :
      ∀ row ∈ created,
        row.orgId = request.orgId ∧
          row.apiKeyHash = env.nodeKeyHash request.apiKey) :
    CreateValid env table id s
      (finishCreate request id created) := by
  have hCommit
      {rest : CreateThread}
      (hRest :
        ∀ now : NodeStore,
          (now.own id).stored = created.toList →
            CreateValid env table id now rest) :
      CreateValid env table id s (run (·.commit id) rest) := by
    apply valid_commit hHolding rfl rfl
    · intro write hWrite
      obtain ⟨row, hCreated, rfl⟩ := List.mem_map.mp hWrite
      have hOrg := hRow row (Option.mem_toList.mp hCreated)
      exact congrArg (orgLock env) hOrg.1
    · intro now hKeeps hNow
      have hCount := countNodes_behind hNow.rows
      cases created with
      | none =>
          simpa [locked] using hKeeps
      | some row =>
          intro orgId hStart
          have hOld := hKeeps orgId hStart
          have hOrg := (hRow row rfl).1
          change countNodes (now.rows ++ [row]) orgId ≤ _
          rw [countNodes_append]
          by_cases hSame : row.orgId = orgId
          · rw [if_pos hSame]
            rw [← hSame, hOrg, ← hCount]
            omega
          · rw [if_neg hSame]
            exact hOld
    · intro now hNow
      apply hRest
      rw [hNow]
      simp [Own.commit, locked, Own.drop]
  unfold finishCreate
  split
  · apply hCommit
    intro now hStored
    apply valid_respond rfl
    rw [hStored]
    cases created with
    | none => rfl
    | some row =>
        exact ⟨row, rfl, rfl, rfl, (hRow row rfl).2⟩
  · apply valid_abandon hHolding.part
    exact Nat.zero_le 1
  · apply hCommit
    intro now hStored
    apply valid_respond rfl
    rw [hStored]
    cases created with
    | none => exact Nat.zero_le 1
    | some row => exact Nat.le_refl 1

/-
  A failed attempt is undone at its savepoint, so that each
  attempt starts where the first one does.
-/
theorem valid_tryNodeIds
    (request : CreateNode)
    (requestedName : Option String)
    {rows : List NodeRow}
    (left : Nat)
    (hHolding :
      Counted env table id request.orgId [] rows s)
    (hRoom :
      countNodes rows request.orgId <
        maxNodes env request.orgId) :
    CreateValid env table id s
      (tryNodeIds env request id requestedName left) := by
  induction left generalizing s with
  | zero =>
      apply valid_finishCreate hHolding hRoom
      intro row hNone
      cases hNone
  | succ left ih =>
      unfold tryNodeIds
      dsimp only
      split
      · apply valid_abandon hHolding.part
        exact Nat.zero_le 1
      · apply valid_insertRow hHolding
        · intro now hNow
          dsimp only
          split
          · apply valid_abandon hNow.part
            exact Nat.zero_le 1
          · apply valid_release hNow
            intro kept hKept
            apply valid_finishCreate hKept hRoom
            intro row hRow
            cases hRow
            exact ⟨rfl, rfl⟩
        · intro now result hResult hNow
          cases result with
          | done => exact absurd rfl hResult
          | failed =>
              apply valid_abandon hNow.part
              exact Nat.zero_le 1
          | violation =>
              dsimp only
              split
              · apply valid_abandon hNow.part
                exact Nat.zero_le 1
              · apply valid_rollbackTo hNow
                intro back hBack
                exact ih hBack

theorem valid_countThenCreate
    (request : CreateNode)
    (requestedName : Option String)
    {rows : List NodeRow}
    (hHolding :
      Counted env table id request.orgId [] rows s) :
    CreateValid env table id s
      (countThenCreate env request id requestedName) := by
  unfold countThenCreate
  split
  · apply valid_abandon hHolding.part
    exact Nat.zero_le 1
  · apply valid_read hHolding
    intro now hNow
    split
    · apply valid_abandon hNow.part
      exact rfl
    · rename_i hRoom
      have hVisible : now.visible id = now.rows := by
        have hWrites : mine id now.writes = [] :=
          congrArg Own.writes hNow.part
        simp [Store.visible, Store.written, hWrites]
      rw [hVisible, ← countNodes_behind hNow.rows] at hRoom
      exact
        valid_tryNodeIds request requestedName nodeIdAttempts
          hNow (Nat.lt_of_not_le hRoom)

/- In either build the lock is taken before the count. -/
theorem valid_locked
    {orgId : String}
    {fails : Bool}
    {rest : CreateThread}
    (hOwn : s.own id = Own.none)
    (hRest :
      ∀ rows now, Counted env table id orgId [] rows now →
        CreateValid env table id now rest) :
    CreateValid env table id s
      (beginWrite env id
        (if fails then
          abandon id .failed
        else
          lockForUpdate env id (nodeCapKey orgId) rest)) := by
  unfold beginWrite lockForUpdate
  cases hDialect : env.dialect with
  | postgres =>
      have hLock :
          orgLock env orgId =
            .advisory (env.hashtext (nodeCapKey orgId)) := by
        unfold orgLock
        rw [hDialect]
      dsimp only
      split
      · apply valid_abandon hOwn
        exact Nat.zero_le 1
      · apply valid_lockFor hOwn
        intro rows now hNow
        apply hRest rows now
        unfold Counted locked
        rw [hLock]
        exact hNow
  | sqlite =>
      have hLock : orgLock env orgId = .database := by
        unfold orgLock
        rw [hDialect]
      dsimp only
      apply valid_lockFor hOwn
      intro rows now hNow
      split
      · apply valid_abandon hNow.part
        exact Nat.zero_le 1
      · apply hRest rows now
        unfold Counted locked
        rw [hLock]
        exact hNow

theorem valid_createNode
    (request : CreateNode)
    (hOwn : s.own id = Own.none) :
    CreateValid env table id s (createNode env request id) := by
  unfold createNode
  dsimp only
  split
  · exact valid_respond hOwn rfl
  · split
    · exact valid_respond hOwn rfl
    · split
      · exact valid_respond hOwn (Nat.zero_le 1)
      · apply valid_locked hOwn
        intro rows now hNow
        exact valid_countThenCreate request _ hNow

--------------------
-- The Cap
--------------------

/- The store after a run of requests from a table. -/
def afterRequests
    (env : CreateEnv)
    (table : NodeTable)
    (events : List (Event CreateNode)) : NodeStore :=
  (Run.exec (step (createNode env))
    (initial (Store.start table.rows)) events).shared

theorem inv_afterRequests
    (env : CreateEnv)
    (table : NodeTable)
    (events : List (Event CreateNode)) :
    Inv (nodePolicy env table)
      (afterRequests env table events) := by
  apply inv_exec (p := nodePolicy env table)
  · intro request id s hOwn
    exact valid_createNode request hOwn
  · exact table.unique
  · intro orgId hStart
    exact hStart

theorem rows_unique
    {p : Policy NodeRow String DbLock CreateAnswer}
    (hKey : p.key = NodeRow.nodeId)
    {s : NodeStore}
    (hInv : Inv p s) :
    (s.rows.map NodeRow.nodeId).Nodup := by
  have hUnique := hInv.unique
  rw [hKey, List.map_append] at hUnique
  exact hUnique.of_append_left

/-
  At every moment of every interleaving of requests, also of
  several organizations, no cap is exceeded that was not so
  at first; a request that was refused for the cap has stored
  nothing; and one that was answered with a node has stored
  that node and no other, whose id no other node has.
-/
theorem nodeCap_kept
    (env : CreateEnv)
    (table : NodeTable)
    (events : List (Event CreateNode)) :
    let s := afterRequests env table events
    (∀ orgId,
        countNodes table.rows orgId ≤ maxNodes env orgId →
          countNodes s.rows orgId ≤ maxNodes env orgId) ∧
      s.rows = table.rows ++ s.stored.map (·.2) ∧
      (∀ id message,
        (id, CreateAnswer.nodeLimitReached message) ∈
            s.answers →
          mine id s.stored = []) ∧
      ∀ id nodeId name apiKey,
        (id, CreateAnswer.created nodeId name apiKey) ∈
            s.answers →
          ∃ row, mine id s.stored = [row] ∧
            row.nodeId = nodeId ∧ row.name = name ∧
              row.apiKeyHash = env.nodeKeyHash apiKey ∧
                ∀ other ∈ s.rows,
                  other.nodeId = nodeId → other = row := by
  intro s
  have hInv : Inv (nodePolicy env table) s :=
    inv_afterRequests env table events
  refine ⟨hInv.keeps, hInv.rows, ?_, ?_⟩
  · intro id message hAnswer
    exact hInv.honest id _ (mem_mine.mpr hAnswer)
  · intro id nodeId name apiKey hAnswer
    obtain ⟨row, hStored, hId, hName, hHash⟩ :=
      hInv.honest id _ (mem_mine.mpr hAnswer)
    refine ⟨row, hStored, hId, hName, hHash, ?_⟩
    intro other hOther hSame
    have hRow : row ∈ s.rows := by
      rw [hInv.rows, List.mem_append]
      right
      have hMine : row ∈ mine id s.stored := by
        change mine id s.stored = [row] at hStored
        rw [hStored]
        exact List.mem_singleton_self row
      exact List.mem_map.mpr ⟨_, mem_mine.mp hMine, rfl⟩
    exact
      List.inj_on_of_nodup_map (rows_unique rfl hInv) hOther
        hRow (hSame.trans hId.symm)

def freeEnv : CreateEnv where
  dialect := .postgres
  plan := fun _ => "free_org"
  hashtext := fun key => key.length
  nodeKeyHash := fun key => key

def oneNode : NodeTable where
  rows :=
    [{ nodeId := "aaaaaaaa"
       orgId := "org_1"
       name := "Barn"
       apiKeyHash := "key_0"
       status := "pending"
       httpPort := 8080
       createdAt := 0
       updatedAt := 0 }]
  unique := by decide

/- Its first id collides with the node that is there. -/
def secondNode (apiKey : String) : CreateNode where
  orgId := "org_1"
  body := []
  rateAllowed := true
  apiKey := apiKey
  uuid := fun attempt =>
    if attempt = 0 then "aaaaaaaa-11" else "bbbbbbbb-22"
  now := fun _ => 1
  fails := fun _ => false
  commitEnd := .acknowledged

/- The second request finds the cap reached. -/
def twoRequests : List (Event CreateNode) :=
  [.spawn (secondNode "key_1"), .spawn (secondNode "key_2"),
    .run 0, .run 1, .run 0, .run 0, .run 0, .run 0, .run 0,
    .run 0, .run 0, .run 1, .run 1, .run 1, .run 1]

theorem nodeCap_kept_full :
    let s := afterRequests freeEnv oneNode twoRequests
    countNodes s.rows "org_1" ≤ 2 ∧
      mine 1 s.stored = [] ∧
      ∃ row, mine 0 s.stored = [row] ∧
        row.nodeId = "bbbbbbbb" ∧ row.name = "Node-bbbbbbbb" := by
  intro s
  have hAnswers :
      s.answers =
        [(0, .created "bbbbbbbb" "Node-bbbbbbbb" "key_1"),
          (1, .nodeLimitReached
            (nodeLimitMessage freeEnv "org_1"))] := by
    rfl
  have hFirst :
      (0, CreateAnswer.created "bbbbbbbb" "Node-bbbbbbbb"
        "key_1") ∈ s.answers := by
    rw [hAnswers]
    exact List.mem_cons_self
  have hSecond :
      (1, CreateAnswer.nodeLimitReached
        (nodeLimitMessage freeEnv "org_1")) ∈ s.answers := by
    rw [hAnswers]
    exact List.mem_cons_of_mem _ List.mem_cons_self
  obtain ⟨hCap, _, hRefused, hCreated⟩ :=
    nodeCap_kept freeEnv oneNode twoRequests
  obtain ⟨row, hStored, hId, hName, _⟩ :=
    hCreated 0 _ _ _ hFirst
  exact
    ⟨hCap "org_1" (by decide), hRefused 1 _ hSecond,
      row, hStored, hId, hName⟩

end Nodes

end SentinelCommand
