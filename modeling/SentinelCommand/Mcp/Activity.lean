import Mathlib.Data.List.Sort
import SentinelCommand.Lib.Run
import SentinelCommand.Mcp.CallTool

/-
  The tracker of `mcp/activity.rs`: a ring of events, a table
  of sessions and a count of calls, all in memory.

  It is compared with the log of every call, of any org, in
  the order in which the calls ended.

  Correctness is proven by:
    * `Activity.recentEvents_exec`
    * `Activity.stats_exec`
    * `Activity.activeSessions_exec`
    * `Activity.totalCalls_calls`
-/

--------------------
-- The Tracker
--------------------

namespace SentinelCommand

namespace Activity

variable {F : Type}

def maxEvents : Nat := 500

structure McpEvent (F : Type) where
  id : String
  timestamp : F
  toolName : String
  orgId : String
  keyName : String
  status : String
  durationMs : Option Int
  error : Option String
  argsSummary : Option String

structure Session (F : Type) where
  keyName : String
  lastActive : F
  callCount : Nat

structure Inner (F : Type) where
  events : List (McpEvent F)
  sessions : String → List (Session F)
  totalCalls : String → Nat

def Inner.empty : Inner F where
  events := []
  sessions := fun _ => []
  totalCalls := fun _ => 0

/- The session of the event's key, or a new one at the end. -/
def touch (event : McpEvent F) :
    List (Session F) → List (Session F)
| [] => [⟨event.keyName, event.timestamp, 1⟩]
| session :: rest =>
    if session.keyName = event.keyName then
      ⟨session.keyName, event.timestamp,
        session.callCount + 1⟩ :: rest
    else
      session :: touch event rest

def logEvent (inner : Inner F) (event : McpEvent F) : Inner F where
  events :=
    (if inner.events.length = maxEvents then
      inner.events.tail
    else
      inner.events) ++ [event]
  sessions :=
    Function.update inner.sessions event.orgId
      (touch event (inner.sessions event.orgId))
  totalCalls :=
    Function.update inner.totalCalls event.orgId
      (inner.totalCalls event.orgId + 1)

/- The events of one org. -/
def ofOrg (log : List (McpEvent F)) (orgId : String) :
    List (McpEvent F) :=
  log.filter (fun event => event.orgId = orgId)

--------------------
-- The Log
--------------------

variable {inner : Inner F}
variable {log : List (McpEvent F)}
variable {orgId : String}

/- The tracker after the calls of the log. -/
def track (log : List (McpEvent F)) : Inner F :=
  Run.exec logEvent Inner.empty log

/- The calls of a key of the org. -/
def ofKey
    (log : List (McpEvent F))
    (orgId keyName : String) : List (McpEvent F) :=
  (ofOrg log orgId).filter (fun event =>
    event.keyName = keyName)

/- What the log says of a key. -/
def sessionOf
    (log : List (McpEvent F))
    (orgId keyName : String) : Option (Session F) :=
  (ofKey log orgId keyName).getLast?.map (fun last =>
    ⟨keyName, last.timestamp, (ofKey log orgId keyName).length⟩)

def find
    (sessions : List (Session F))
    (keyName : String) : Option (Session F) :=
  sessions.find? (fun session => session.keyName = keyName)

theorem find_touch
    (event : McpEvent F)
    (sessions : List (Session F))
    (keyName : String) :
    find (touch event sessions) keyName =
      if event.keyName = keyName then
        some
          ⟨keyName, event.timestamp,
            ((find sessions keyName).map
              Session.callCount).getD 0 + 1⟩
      else
        find sessions keyName := by
  induction sessions with
  | nil =>
      by_cases hKey : event.keyName = keyName
      · simp [touch, find, hKey]
      · simp [touch, find, hKey]
  | cons session rest ih =>
      by_cases hHere : session.keyName = event.keyName
      · by_cases hKey : event.keyName = keyName
        · simp [touch, find, hHere, hKey]
        · simp [touch, find, hHere, hKey]
      · rw [touch, if_neg hHere]
        by_cases hKey : session.keyName = keyName
        · have hOther : event.keyName ≠ keyName := by
            rintro rfl
            exact hHere hKey
          simp [find, hKey, hOther]
        · simpa [find, hKey] using ih

theorem keys_touch
    (event : McpEvent F)
    (sessions : List (Session F)) :
    (touch event sessions).map Session.keyName =
      if event.keyName ∈ sessions.map Session.keyName then
        sessions.map Session.keyName
      else
        sessions.map Session.keyName ++ [event.keyName] := by
  induction sessions with
  | nil => simp [touch]
  | cons session rest ih =>
      by_cases hHere : session.keyName = event.keyName
      · simp [touch, hHere]
      · rw [touch, if_neg hHere, List.map_cons, ih]
        have hOther : event.keyName ≠ session.keyName :=
          fun h => hHere h.symm
        simp only [List.map_cons, List.mem_cons, hOther,
          false_or]
        split <;> rfl

theorem calls_touch
    (event : McpEvent F)
    (sessions : List (Session F)) :
    ((touch event sessions).map Session.callCount).sum =
      (sessions.map Session.callCount).sum + 1 := by
  induction sessions with
  | nil => rfl
  | cons session rest ih =>
      rw [touch]
      split
      · simp only [List.map_cons, List.sum_cons]
        omega
      · simp only [List.map_cons, List.sum_cons, ih]
        omega

/- What the tracker keeps of the log. -/
structure Tracks
    (log : List (McpEvent F))
    (inner : Inner F) : Prop where
  ring : inner.events = log.drop (log.length - maxEvents)
  found :
    ∀ orgId keyName,
      find (inner.sessions orgId) keyName =
        sessionOf log orgId keyName
  keys :
    ∀ orgId,
      ((inner.sessions orgId).map Session.keyName).Nodup
  total :
    ∀ orgId, inner.totalCalls orgId = (ofOrg log orgId).length
  calls :
    ∀ orgId,
      ((inner.sessions orgId).map Session.callCount).sum =
        inner.totalCalls orgId

theorem ring_append
    (log : List (McpEvent F))
    (event : McpEvent F) :
    (if (log.drop (log.length - maxEvents)).length = maxEvents then
        (log.drop (log.length - maxEvents)).tail
      else
        log.drop (log.length - maxEvents)) ++ [event] =
      (log ++ [event]).drop
        ((log ++ [event]).length - maxEvents) := by
  rw [List.length_append, List.length_singleton]
  split
  · rename_i hFull
    rw [List.length_drop] at hFull
    have hStart :
        log.length + 1 - maxEvents =
          log.length - maxEvents + 1 := by
      unfold maxEvents at *
      omega
    have hMore : log.length - maxEvents + 1 ≤ log.length := by
      unfold maxEvents at *
      omega
    rw [hStart, List.tail_drop,
      List.drop_append_of_le_length hMore]
  · rename_i hRoom
    rw [List.length_drop] at hRoom
    have hStart :
        log.length + 1 - maxEvents = log.length - maxEvents := by
      unfold maxEvents at *
      omega
    rw [hStart,
      List.drop_append_of_le_length (Nat.sub_le _ _)]

theorem sessionOf_append
    (log : List (McpEvent F))
    (event : McpEvent F)
    (orgId keyName : String) :
    sessionOf (log ++ [event]) orgId keyName =
      if event.orgId = orgId ∧ event.keyName = keyName then
        some
          ⟨keyName, event.timestamp,
            ((sessionOf log orgId keyName).map
              Session.callCount).getD 0 + 1⟩
      else
        sessionOf log orgId keyName := by
  by_cases hSame :
      event.orgId = orgId ∧ event.keyName = keyName
  · have hMore :
        ofKey (log ++ [event]) orgId keyName =
          ofKey log orgId keyName ++ [event] := by
      simp [ofKey, ofOrg, hSame.1, hSame.2]
    rw [if_pos hSame, sessionOf, sessionOf, hMore]
    cases hLast : (ofKey log orgId keyName).getLast? with
    | none =>
        rw [List.getLast?_eq_none_iff.mp hLast]
        rfl
    | some last => simp
  · have hMore :
        ofKey (log ++ [event]) orgId keyName =
          ofKey log orgId keyName := by
      rw [not_and] at hSame
      by_cases hOrg : event.orgId = orgId
      · simp [ofKey, ofOrg, hOrg, hSame hOrg]
      · simp [ofKey, ofOrg, hOrg]
    rw [if_neg hSame, sessionOf, sessionOf, hMore]

theorem tracks_logEvent
    (event : McpEvent F)
    (hTracks : Tracks log inner) :
    Tracks (log ++ [event]) (logEvent inner event) := by
  constructor
  · rw [logEvent, hTracks.ring]
    exact ring_append log event
  · intro orgId keyName
    rw [sessionOf_append, ← hTracks.found]
    by_cases hOrg : event.orgId = orgId
    · subst hOrg
      simp only [logEvent, Function.update_self, find_touch,
        true_and]
    · simp only [logEvent, hOrg, false_and, if_false,
        Function.update_of_ne (Ne.symm hOrg)]
  · intro orgId
    by_cases hOrg : event.orgId = orgId
    · subst hOrg
      simp only [logEvent, Function.update_self, keys_touch]
      split
      · exact hTracks.keys _
      · rename_i hNew
        exact
          List.nodup_append.mpr
            ⟨hTracks.keys _, List.nodup_singleton _,
              by
                intro key hKey other hOther
                rw [List.mem_singleton.mp hOther]
                rintro rfl
                exact hNew hKey⟩
    · simp only [logEvent, Function.update_of_ne (Ne.symm hOrg)]
      exact hTracks.keys orgId
  · intro orgId
    by_cases hOrg : event.orgId = orgId
    · subst hOrg
      simp [logEvent, ofOrg, hTracks.total]
    · simp [logEvent, ofOrg, hOrg, Ne.symm hOrg, hTracks.total]
  · intro orgId
    by_cases hOrg : event.orgId = orgId
    · subst hOrg
      simp only [logEvent, Function.update_self, calls_touch,
        hTracks.calls]
    · simp only [logEvent, Function.update_of_ne (Ne.symm hOrg)]
      exact hTracks.calls orgId

theorem tracks_track (log : List (McpEvent F)) :
    Tracks log (track log) := by
  induction log using List.reverseRecOn with
  | nil =>
      exact
        { ring := (List.drop_nil).symm
          found := fun _ _ => rfl
          keys := fun _ => List.nodup_nil
          total := fun _ => rfl
          calls := fun _ => rfl }
  | append_singleton log event ih =>
      have hRun :
          track (log ++ [event]) = logEvent (track log) event := by
        simp [track, Run.exec]
      rw [hRun]
      exact tracks_logEvent event ih

theorem ofOrg_split (log : List (McpEvent F)) (orgId : String) :
    ofOrg log orgId =
      ofOrg (log.take (log.length - maxEvents)) orgId ++
        ofOrg (track log).events orgId := by
  rw [(tracks_track log).ring, ofOrg, ofOrg, ofOrg,
    ← List.filter_append, List.take_append_drop]

theorem mem_sessions_iff
    (hTracks : Tracks log inner)
    {session : Session F} :
    session ∈ inner.sessions orgId ↔
      sessionOf log orgId session.keyName = some session := by
  rw [← hTracks.found, find]
  constructor
  · intro hIn
    cases hFound :
        (inner.sessions orgId).find? (fun other =>
          other.keyName = session.keyName) with
    | none =>
        have hNone := List.find?_eq_none.mp hFound session hIn
        simp at hNone
    | some other =>
        have hKey := List.find?_some hFound
        rw [decide_eq_true_eq] at hKey
        rw [List.inj_on_of_nodup_map (hTracks.keys orgId)
          (List.mem_of_find?_eq_some hFound) hIn hKey]
  · exact List.mem_of_find?_eq_some

--------------------
-- What a Call Logs
--------------------

open Mcp

/- A call of a tool, what the tool would do, and its stamps. -/
structure Call (F : Type) where
  headers : Headers
  name : String
  arguments : List (String × Json)
  before : KeyTables
  after : KeyTables
  outcomes : Outcomes
  result : Except String Unit
  summary : String
  id : String
  timestamp : F
  durationMs : Int

def Call.inScope (server : Server) (call : Call F) : Prop :=
  ∀ allowed,
    lookupAllowed server call.headers call.before
        call.outcomes.lookupAgent call.outcomes.lookupMcp =
      some allowed → ∃ tool ∈ allowed, tool.name = call.name

instance (server : Server) (call : Call F) :
    Decidable (call.inScope server) :=
  inferInstanceAs (Decidable (∀ _, _ = some _ → _))

def Call.principal
    (server : Server)
    (call : Call F) : Except String Principal :=
  resolve server call.headers call.after
    call.outcomes.resolveAgent call.outcomes.resolveMcp

def Call.outcome (call : Call F) : Except String Unit :=
  if argumentsCarryNul call.arguments then
    .error ("Arguments must not contain a NUL " ++
      "(\\u0000) character.")
  else if Tool.named call.name = none then
    .error ("Unknown tool: " ++ call.name)
  else
    call.result

/- `SentinelMcp::log`. -/
def Call.event
    (call : Call F)
    (orgId keyName : String)
    (error : Option String) : McpEvent F where
  id := call.id
  timestamp := call.timestamp
  toolName := call.name
  orgId := orgId
  keyName := keyName
  status := if error.isSome then "error" else "completed"
  durationMs := some call.durationMs
  error := error
  argsSummary := if call.summary = "" then none else call.summary

/- A call out of scope is refused before anything is logged. -/
def Call.logged
    (server : Server)
    (call : Call F) : Option (McpEvent F) :=
  if call.inScope server then
    match call.principal server with
    | .error message => some (call.event "" "" (some message))
    | .ok principal =>
        some
          (call.event principal.orgId principal.keyName
            (match call.outcome with
            | .error message =>
                some (String.ofList (message.toList.take 200))
            | .ok _ => none))
  else
    none

/- The org a logged call is filed under. -/
def Call.filedUnder
    (server : Server)
    (call : Call F) : String :=
  match call.principal server with
  | .ok principal => principal.orgId
  | .error _ => ""

/- The call comes to a tool that acts for the org. -/
def Call.ranFor
    (server : Server)
    (orgId : String)
    (call : Call F) : Bool :=
  match
    callTool server call.headers call.name call.arguments
      call.before call.after call.outcomes
  with
  | .ran _ principal => principal.orgId = orgId
  | .toolError _ => false

theorem logged_of_ran
    {server : Server}
    {call : Call F}
    (hRan : call.ranFor server orgId = true) :
    call.inScope server ∧ call.filedUnder server = orgId := by
  unfold Call.ranFor at hRan
  split at hRan
  · rename_i tool principal hReply
    have hRest :
        call.inScope server ∧
          afterScope server call.headers call.name
              call.arguments call.after call.outcomes =
            .ran tool principal := by
      unfold callTool at hReply
      split at hReply
      · rename_i hNone
        refine ⟨?_, hReply⟩
        intro allowed hAllowed
        rw [hNone] at hAllowed
        cases hAllowed
      · rename_i allowed hSome
        split at hReply
        · rename_i hIn
          refine ⟨?_, hReply⟩
          intro other hOther
          rw [hSome] at hOther
          cases hOther
          exact hIn
        · cases hReply
    refine ⟨hRest.1, ?_⟩
    have hRuns := hRest.2
    unfold afterScope at hRuns
    unfold Call.filedUnder Call.principal
    split at hRuns
    · cases hRuns
    · rename_i other hOk
      rw [hOk]
      split at hRuns
      · cases hRuns
      · rw [((dispatch_eq_ran_iff _ _ _ _).mp hRuns).2]
        exact of_decide_eq_true hRan
  · cases hRan

--------------------
-- What the Routes Read
--------------------

variable [LinearOrder F]

/-
  The `f64` operations of the tracker: the difference of two
  readings, the two thresholds of 60 and 300 seconds, and an
  age as a whole number.
-/
structure Clock (F : Type) [LinearOrder F] where
  since : F → F → F
  active : F
  timeout : F
  ago : F → Int
  ordered : active ≤ timeout

/- A limit of zero is no limit. -/
def recentEvents
    (inner : Inner F)
    (orgId : String)
    (limit : Nat) : List (McpEvent F) :=
  let matching := ofOrg inner.events orgId
  let start :=
    if limit = 0 then 0 else matching.length - limit
  matching.drop start

structure SessionRow (F : Type) where
  keyName : String
  lastActive : F
  lastActiveAgo : Int
  callCount : Nat
  status : String

def statusOf (clock : Clock F) (age : F) : String :=
  if age < clock.active then
    "active"
  else if age < clock.timeout then
    "idle"
  else
    "disconnected"

def sessionRow
    (clock : Clock F)
    (now : F)
    (session : Session F) : SessionRow F :=
  let age := clock.since now session.lastActive
  { keyName := session.keyName
    lastActive := session.lastActive
    lastActiveAgo := clock.ago age
    callCount := session.callCount
    status := statusOf clock age }

/- The sort is stable, and the latest comes first. -/
def activeSessions
    (clock : Clock F)
    (inner : Inner F)
    (orgId : String)
    (now : F) : List (SessionRow F) :=
  (((inner.sessions orgId).map (sessionRow clock now)).mergeSort
      (fun row other => other.lastActive ≤ row.lastActive)).filter
    (fun row => row.status ≠ "disconnected")

structure Stats where
  totalCalls : Nat
  callsPerMin : Nat
  calls5m : Nat
  errorCount : Nat
  activeClients : Nat
  recentEventCount : Nat

def stats
    (clock : Clock F)
    (inner : Inner F)
    (orgId : String)
    (now : F) : Stats :=
  let events := ofOrg inner.events orgId
  { totalCalls := inner.totalCalls orgId
    callsPerMin :=
      events.countP (fun event =>
        clock.since now event.timestamp < clock.active)
    calls5m :=
      events.countP (fun event =>
        clock.since now event.timestamp < clock.timeout)
    errorCount :=
      events.countP (fun event => event.status = "error")
    activeClients :=
      (inner.sessions orgId).countP (fun session =>
        clock.since now session.lastActive < clock.timeout)
    recentEventCount := events.length }

/-
  A read answers with the last of the org's own calls, as many
  as are asked for and as the statistics say are kept.
-/
theorem recentEvents_exec
    (clock : Clock F)
    (log : List (McpEvent F))
    (orgId : String)
    (limit : Nat)
    (now : F) :
    let events := recentEvents (track log) orgId limit
    let kept :=
      (stats clock (track log) orgId now).recentEventCount
    events <:+ ofOrg log orgId ∧
      events.length =
        if limit = 0 then kept else min limit kept := by
  intro events kept
  constructor
  · rw [ofOrg_split]
    exact
      (List.drop_suffix _ _).trans (List.suffix_append _ _)
  · simp only [events, kept, recentEvents, stats,
      List.length_drop]
    split <;> omega

/-
  The ring is shared, so an org loses its oldest calls to the
  calls of others; the totals and the sessions lose none.
-/
theorem stats_exec
    (clock : Clock F)
    (log : List (McpEvent F))
    (orgId : String)
    (now : F) :
    let s := stats clock (track log) orgId now
    s.totalCalls = (ofOrg log orgId).length ∧
      (((track log).sessions orgId).map Session.callCount).sum =
        s.totalCalls ∧
      s.callsPerMin ≤ s.calls5m ∧
      s.calls5m ≤ s.recentEventCount ∧
      s.errorCount ≤ s.recentEventCount ∧
      s.recentEventCount ≤ min maxEvents s.totalCalls ∧
      (s.recentEventCount = s.totalCalls ↔
        ofOrg (log.take (log.length - maxEvents)) orgId =
          []) := by
  have hTracks := tracks_track log
  have hSplit := congrArg List.length (ofOrg_split log orgId)
  rw [List.length_append] at hSplit
  have hRing : (track log).events.length ≤ maxEvents := by
    rw [hTracks.ring, List.length_drop]
    omega
  have hOrg :
      (ofOrg (track log).events orgId).length ≤ maxEvents :=
    (List.length_filter_le _ _).trans hRing
  simp only [stats, hTracks.total, hTracks.calls, true_and]
  refine
    ⟨List.countP_mono_left fun event _ h => ?_,
      List.countP_le_length, List.countP_le_length, ?_, ?_⟩
  · rw [decide_eq_true_eq] at h ⊢
    exact h.trans_le clock.ordered
  · omega
  · rw [← List.length_eq_zero_iff]
    omega

theorem live_iff (clock : Clock F) (age : F) :
    statusOf clock age ≠ "disconnected" ↔ age < clock.timeout := by
  unfold statusOf
  split
  · rename_i hActive
    simp [hActive.trans_le clock.ordered]
  · split
    · rename_i hIdle
      simp [hIdle]
    · rename_i hGone
      simp [hGone]

/- The rows before they are sorted. -/
theorem activeSessions_perm
    (clock : Clock F)
    (inner : Inner F)
    (orgId : String)
    (now : F) :
    (activeSessions clock inner orgId now).Perm
      (((inner.sessions orgId).filter (fun session =>
          clock.since now session.lastActive <
            clock.timeout)).map (sessionRow clock now)) := by
  have hRows :=
    ((List.mergeSort_perm
      ((inner.sessions orgId).map (sessionRow clock now))
      (fun row other => other.lastActive ≤ row.lastActive)).filter
        (fun row => row.status ≠ "disconnected"))
  refine hRows.trans (List.Perm.of_eq ?_)
  rw [List.filter_map]
  congr 1
  apply List.filter_congr
  intro session _
  exact decide_eq_decide.mpr (live_iff clock _)

/-
  Each key of the org that is listed stands there once, with
  the time of its last call and the count of all its calls,
  the latest first; and the statistics count the same keys.
-/
theorem activeSessions_exec
    (clock : Clock F)
    (log : List (McpEvent F))
    (orgId : String)
    (now : F) :
    let rows := activeSessions clock (track log) orgId now
    rows.length =
        (stats clock (track log) orgId now).activeClients ∧
      (rows.map SessionRow.keyName).Nodup ∧
      rows.Pairwise
        (fun row other => other.lastActive ≤ row.lastActive) ∧
      ∀ row, row ∈ rows ↔
        ∃ session,
          sessionOf log orgId row.keyName = some session ∧
            clock.since now session.lastActive <
                clock.timeout ∧
              row = sessionRow clock now session := by
  intro rows
  have hTracks := tracks_track log
  have hPerm := activeSessions_perm clock (track log) orgId now
  refine ⟨?_, ?_, ?_, ?_⟩
  · rw [hPerm.length_eq, List.length_map]
    exact List.countP_eq_length_filter.symm
  · rw [(hPerm.map SessionRow.keyName).nodup_iff, List.map_map]
    exact
      (List.filter_sublist.map _).nodup (hTracks.keys orgId)
  · apply List.Pairwise.filter
    have hSorted :=
      @List.pairwise_mergeSort (SessionRow F)
        (fun row other => other.lastActive ≤ row.lastActive)
        (by simpa using fun a b c hB hC => hC.trans hB)
        (by simpa using fun a b => le_total _ _)
        (((track log).sessions orgId).map (sessionRow clock now))
    simpa using hSorted
  · intro row
    rw [hPerm.mem_iff, List.mem_map]
    constructor
    · rintro ⟨session, hIn, rfl⟩
      rcases List.mem_filter.mp hIn with ⟨hSession, hAge⟩
      exact
        ⟨session, (mem_sessions_iff hTracks).mp hSession,
          of_decide_eq_true hAge, rfl⟩
    · rintro ⟨session, hFound, hAge, rfl⟩
      have hSession : session ∈ (track log).sessions orgId :=
        (mem_sessions_iff hTracks).mpr hFound
      exact
        ⟨session,
          List.mem_filter.mpr ⟨hSession, decide_eq_true hAge⟩,
          rfl⟩

/-
  The total of an org is of the calls in scope that act for
  it, every call that reached a tool among them; the calls
  that no key stands for are filed under no org.
-/
theorem totalCalls_calls
    (clock : Clock F)
    (server : Server)
    (calls : List (Call F))
    (orgId : String)
    (now : F) :
    let s :=
      stats clock (track (calls.filterMap (Call.logged server)))
        orgId now
    s.totalCalls =
        calls.countP (fun call =>
          call.inScope server ∧ call.filedUnder server = orgId) ∧
      calls.countP (Call.ranFor server orgId) ≤
        s.totalCalls := by
  have hTotal :
      (ofOrg (calls.filterMap (Call.logged server))
          orgId).length =
        calls.countP (fun call =>
          call.inScope server ∧ call.filedUnder server = orgId) := by
    rw [ofOrg, ← List.countP_eq_length_filter,
      List.countP_filterMap]
    apply List.countP_congr
    intro call _
    by_cases hScope : call.inScope server
    · unfold Call.logged Call.filedUnder
      cases call.principal server <;>
        simp [hScope, Call.event]
    · simp [Call.logged, hScope]
  simp only [stats, (tracks_track _).total, hTotal, true_and]
  apply List.countP_mono_left
  intro call _ hRan
  exact decide_eq_true (logged_of_ran hRan)

end Activity

end SentinelCommand
