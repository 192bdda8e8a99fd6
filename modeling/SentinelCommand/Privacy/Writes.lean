import SentinelCommand.Privacy.Erasure

/-
  The writes of the routes, the workers and the retention
  loop, and what each of them may store for the eraser to
  find every name.

  Key definitions include:
    * `Privacy.Write`
    * `Privacy.step`

  Key theorems include:
    * `Privacy.searchable_updateIncident`
    * `Privacy.searchable_toolUpdateIncident`
-/

--------------------
-- Writes
--------------------

namespace SentinelCommand

namespace Privacy

/- What writes these tables. -/
inductive Write where
  | logStreamAccess
      (user : AuthUser)
      (cameraId nodeId peerIp userAgent : String)
      (now : Int)
  | writeAudit
      (orgId event : String)
      (actor : Actor)
      (details : Option String)
      (clientIp : String)
      (now : Int)
  | getOrInitState (user : AuthUser) (now : Int)
  | markViewed (user : AuthUser) (now : Int)
  | clearAll (user : AuthUser) (now : Int)
  | createIncident
      (user : AuthUser)
      (body : IncidentBody)
      (cameraKnown : Bool)
      (now later : Int)
  | updateIncident
      (user : AuthUser)
      (incidentId : Int)
      (patch : IncidentPatch)
      (now : Int)
  | deleteIncident (orgId : String) (incidentId : Int)
  | toolCreateIncident
      (orgId keyName title summary : String)
      (severity cameraId : Option String)
      (cameraKnown : Bool)
      (now : Int)
  | toolUpdateIncident
      (orgId keyName : String)
      (incidentId : Int)
      (patch : IncidentPatch)
      (now : Int)
  | createAgentKey
      (user : AuthUser)
      (name : String)
      (now : Int)
  | revokeAgentKey (orgId : String) (keyId : Int)
  | enqueue
      (orgId kind : String)
      (recipients : List String)
      (now : Int)
  | setOutboxStatus (index : Nat) (status : String)
  | processRow
      (index : Nat)
      (status finalStatus : String)
      (now : Int)
  | insertSuppression
      (address reason source : String)
      (now : Int)
  | unsubscribe (recipient : String) (now : Int)
  | wipeStreamLogs (orgId : String)
  | cleanupLogs (orgId : String) (cutoff : Int)
  | cleanupOutbox (cutoff : Int)
  | deleteOrgData (orgId : String)
  | eraseUserData (person : Person)
  deriving DecidableEq, Repr

/- A refused request leaves the tables as they are. -/
def accepted
    (db : Db) :
    Except String Db → Db
| .ok next => next
| .error _ => db

def step (c : Casing) (db : Db) : Write → Db
| .logStreamAccess user cameraId nodeId peerIp agent now =>
    logStreamAccess db user cameraId nodeId peerIp agent now
| .writeAudit orgId event actor details clientIp now =>
    writeAudit db orgId event actor details clientIp now
| .getOrInitState user now =>
    getOrInitState db user.userId user.orgId now
| .markViewed user now => markViewed db user now
| .clearAll user now => clearAll db user now
| .createIncident user body cameraKnown now later =>
    accepted db
      (createIncident db user body cameraKnown now later)
| .updateIncident user incidentId patch now =>
    accepted db (updateIncident db user incidentId patch now)
| .deleteIncident orgId incidentId =>
    deleteIncident db orgId incidentId
| .toolCreateIncident orgId keyName title summary severity
    cameraId cameraKnown now =>
    accepted db
      (toolCreateIncident db orgId keyName title summary
        severity cameraId cameraKnown now)
| .toolUpdateIncident orgId keyName incidentId patch now =>
    (toolUpdateIncident db orgId keyName incidentId patch
      now).1
| .createAgentKey user name now =>
    createAgentKey db user name now
| .revokeAgentKey orgId keyId => revokeAgentKey db orgId keyId
| .enqueue orgId kind recipients now =>
    enqueue db orgId kind recipients now
| .setOutboxStatus index status =>
    setOutboxStatus db index status
| .processRow index status finalStatus now =>
    processRow db index status finalStatus now
| .insertSuppression address reason source now =>
    insertSuppression c.toLowercase db address reason source
      now
| .unsubscribe recipient now => unsubscribe db recipient now
| .wipeStreamLogs orgId => wipeStreamLogs db orgId
| .cleanupLogs orgId cutoff => cleanupLogs db orgId cutoff
| .cleanupOutbox cutoff => cleanupOutbox db cutoff
| .deleteOrgData orgId => deleteOrgData db orgId
| .eraseUserData person => eraseUserData c person db

end Privacy

--------------------
-- Tables with one table replaced
--------------------

namespace Privacy

variable {c : Casing} {p : Person} {db : Db}

theorem searchable_accessLogs
    (hFits : Searchable c p db)
    (rows : List AccessLog) :
    Searchable c p { db with accessLogs := rows } ↔
      ∀ row ∈ rows, AccessLogFits c p row := by
  constructor
  · intro hNext
    exact hNext.accessLogs
  · intro hRows
    exact { hFits with accessLogs := hRows }

theorem searchable_auditLog
    (hFits : Searchable c p db)
    (rows : List AuditRow) :
    Searchable c p { db with auditLog := rows } ↔
      ∀ row ∈ rows, AuditFits c p row := by
  constructor
  · intro hNext
    exact hNext.auditLog
  · intro hRows
    exact { hFits with auditLog := hRows }

theorem searchable_notificationStates
    (hFits : Searchable c p db)
    (rows : List NotificationState) :
    Searchable c p { db with notificationStates := rows } ↔
      ∀ row ∈ rows, StateFits c p row.clerkUserId := by
  constructor
  · intro hNext
    exact hNext.notificationStates
  · intro hRows
    exact { hFits with notificationStates := hRows }

theorem searchable_emailOutbox
    (hFits : Searchable c p db)
    (rows : List OutboxRow) :
    Searchable c p { db with emailOutbox := rows } ↔
      ∀ row ∈ rows, AddressFits c p row.recipientEmail := by
  constructor
  · intro hNext
    exact hNext.emailOutbox
  · intro hRows
    exact { hFits with emailOutbox := hRows }

theorem searchable_emailLog
    (hFits : Searchable c p db)
    (rows : List EmailLogRow) :
    Searchable c p { db with emailLog := rows } ↔
      ∀ row ∈ rows, AddressFits c p row.recipientEmail := by
  constructor
  · intro hNext
    exact hNext.emailLog
  · intro hRows
    exact { hFits with emailLog := hRows }

theorem searchable_emailSuppression
    (hFits : Searchable c p db)
    (rows : List SuppressionRow) :
    Searchable c p { db with emailSuppression := rows } ↔
      ∀ row ∈ rows, AddressFits c p row.address := by
  constructor
  · intro hNext
    exact hNext.emailSuppression
  · intro hRows
    exact { hFits with emailSuppression := hRows }

/- The counters beside the tables are not searched. -/
theorem searchable_incidents
    (hFits : Searchable c p db)
    (rows : List Incident)
    (next : Int) :
    Searchable c p
        { db with incidents := rows, nextIncident := next } ↔
      ∀ row ∈ rows, IncidentFits c p row := by
  constructor
  · intro hNext
    exact hNext.incidents
  · intro hRows
    exact { hFits with incidents := hRows }

theorem searchable_agentKeys
    (hFits : Searchable c p db)
    (rows : List AgentKey)
    (next : Int) :
    Searchable c p
        { db with agentKeys := rows, nextAgentKey := next } ↔
      ∀ row ∈ rows, LabelFits c p row.createdBy := by
  constructor
  · intro hNext
    exact hNext.agentKeys
  · intro hRows
    exact { hFits with agentKeys := hRows }

/- Deletions leave nothing new to find. -/
theorem searchable_of_subset
    {next : Db}
    (hFits : Searchable c p db)
    (hAccess : next.accessLogs ⊆ db.accessLogs)
    (hAudit : next.auditLog ⊆ db.auditLog)
    (hStates :
      next.notificationStates ⊆ db.notificationStates)
    (hOutbox : next.emailOutbox ⊆ db.emailOutbox)
    (hLog : next.emailLog ⊆ db.emailLog)
    (hSuppressed :
      next.emailSuppression ⊆ db.emailSuppression)
    (hIncidents : next.incidents ⊆ db.incidents)
    (hKeys : next.agentKeys ⊆ db.agentKeys) :
    Searchable c p next where
  accessLogs row hRow := hFits.accessLogs row (hAccess hRow)
  auditLog row hRow := hFits.auditLog row (hAudit hRow)
  notificationStates row hRow :=
    hFits.notificationStates row (hStates hRow)
  emailOutbox row hRow := hFits.emailOutbox row (hOutbox hRow)
  emailLog row hRow := hFits.emailLog row (hLog hRow)
  emailSuppression row hRow :=
    hFits.emailSuppression row (hSuppressed hRow)
  incidents row hRow := hFits.incidents row (hIncidents hRow)
  agentKeys row hRow := hFits.agentKeys row (hKeys hRow)

theorem searchable_empty : Searchable c p Db.empty := by
  constructor <;> simp [Db.empty]

/- One more row fits exactly when the row does. -/
theorem forall_mem_snoc
    {α : Type}
    {Fits : α → Prop}
    {rows : List α}
    (hFits : ∀ row ∈ rows, Fits row)
    (new : α) :
    (∀ row ∈ rows ++ [new], Fits row) ↔ Fits new := by
  constructor
  · intro hAll
    exact hAll new (by simp)
  · intro hNew row hRow
    rcases List.mem_append.mp hRow with hOld | hLast
    · exact hFits row hOld
    · rw [List.mem_singleton.mp hLast]
      exact hNew

end Privacy

--------------------
-- What a write may store
--------------------

namespace Privacy

/- A status patch that records who closed the incident. -/
def stamps
    (status : Option String)
    (incident : Incident) : Bool :=
  status.any terminal && !terminal incident.status

/- Some label or audit row is replaced. -/
def replaces
    (c : Casing)
    (p : Person)
    (db : Db) : Bool :=
  db.auditLog.any (auditHit c p) ||
    db.incidents.any
      (fun row => createdByHit c p row || resolvedByHit c p row) ||
    db.agentKeys.any (keyHit c p)

variable (c : Casing) (p : Person) (db : Db)

/- The names a write stores are ones the eraser can find. -/
def WriteFits : Write → Prop
| .logStreamAccess user cameraId nodeId peerIp agent now =>
    AccessLogFits c p
      (accessLogRow user cameraId nodeId peerIp agent now)
| .writeAudit orgId event actor details clientIp now =>
    AuditFits c p
      (auditRow orgId event actor details clientIp now)
| .getOrInitState user _
| .markViewed user _
| .clearAll user _ => StateFits c p user.userId
| .createIncident user body cameraKnown now later =>
    (createIncident db user body cameraKnown now
      later).isOk = true →
        LabelFits c p ("user:" ++ user.userId)
| .updateIncident user incidentId patch now =>
    (updateIncident db user incidentId patch now).isOk = true →
      (ownedIncident db user.orgId incidentId).any
          (stamps patch.status) = true →
        LabelFits c p ("user:" ++ user.userId)
| .toolCreateIncident orgId keyName title summary severity
    cameraId cameraKnown now =>
    (toolCreateIncident db orgId keyName title summary
      severity cameraId cameraKnown now).isOk = true →
        LabelFits c p (agentLabel keyName)
| .toolUpdateIncident orgId keyName incidentId patch _ =>
    toolUpdateRefusal patch = none →
      (ownedIncident db orgId (asI32 incidentId)).any
          (stamps patch.status) = true →
        LabelFits c p (agentLabel keyName)
| .createAgentKey user _ _ => LabelFits c p user.userId
| .enqueue _ _ recipients _ =>
    ∀ address ∈ recipients, AddressFits c p address
| .insertSuppression address _ _ _ =>
    c.toLowercase (trimText address) ≠ "" →
      '@' ∈ (c.toLowercase (trimText address)).toList →
        AddressFits c p (c.toLowercase (trimText address))
| .unsubscribe recipient _ => AddressFits c p recipient
| .eraseUserData person =>
    replaces c person db = true → names c p deletedUser = false
| .deleteIncident _ _
| .revokeAgentKey _ _
| .setOutboxStatus _ _
| .processRow _ _ _ _
| .wipeStreamLogs _
| .cleanupLogs _ _
| .cleanupOutbox _
| .deleteOrgData _ => True

end Privacy

--------------------
-- Logs, state, keys and mail
--------------------

namespace Privacy

variable {c : Casing} {p : Person} {db : Db}

theorem searchable_logStreamAccess
    (hFits : Searchable c p db)
    (user : AuthUser)
    (cameraId nodeId peerIp agent : String)
    (now : Int) :
    Searchable c p
        (logStreamAccess db user cameraId nodeId peerIp agent
          now) ↔
      AccessLogFits c p
        (accessLogRow user cameraId nodeId peerIp agent
          now) := by
  rw [logStreamAccess, searchable_accessLogs hFits,
    forall_mem_snoc hFits.accessLogs]

theorem searchable_writeAudit
    (hFits : Searchable c p db)
    (orgId event : String)
    (actor : Actor)
    (details : Option String)
    (clientIp : String)
    (now : Int) :
    Searchable c p
        (writeAudit db orgId event actor details clientIp
          now) ↔
      AuditFits c p
        (auditRow orgId event actor details clientIp now) := by
  rw [writeAudit, searchable_auditLog hFits,
    forall_mem_snoc hFits.auditLog]

/- A row that was there already named the same user. -/
theorem searchable_getOrInitState
    (hFits : Searchable c p db)
    (userId orgId : String)
    (now : Int) :
    Searchable c p (getOrInitState db userId orgId now) ↔
      StateFits c p userId := by
  unfold getOrInitState
  split
  · rename_i hThere
    rcases List.any_eq_true.mp hThere with ⟨row, hRow, hSame⟩
    simp only [Bool.and_eq_true, beq_iff_eq] at hSame
    have hStored := hFits.notificationStates row hRow
    rw [hSame.1] at hStored
    exact iff_of_true hFits hStored
  · rw [searchable_notificationStates hFits,
      forall_mem_snoc hFits.notificationStates]

/- Marking rows as viewed or cleared keeps their users. -/
theorem searchable_setState
    (userId orgId : String)
    (f : NotificationState → Option Int × Option Int) :
    Searchable c p (setState db userId orgId f) ↔
      Searchable c p db := by
  have hStates :
      (∀ row ∈ (setState db userId orgId f).notificationStates,
          StateFits c p row.clerkUserId) ↔
        ∀ row ∈ db.notificationStates,
          StateFits c p row.clerkUserId := by
    simp only [setState, List.forall_mem_map]
    refine forall₂_congr (fun row _ => ?_)
    split <;> rfl
  constructor
  · intro hNext
    exact
      { hNext with
        notificationStates :=
          hStates.mp hNext.notificationStates }
  · intro hFits
    exact
      { hFits with
        notificationStates :=
          hStates.mpr hFits.notificationStates }

theorem searchable_createAgentKey
    (hFits : Searchable c p db)
    (user : AuthUser)
    (name : String)
    (now : Int) :
    Searchable c p (createAgentKey db user name now) ↔
      LabelFits c p user.userId := by
  rw [createAgentKey, searchable_agentKeys hFits,
    forall_mem_snoc hFits.agentKeys]

theorem searchable_revokeAgentKey
    (hFits : Searchable c p db)
    (orgId : String)
    (keyId : Int) :
    Searchable c p (revokeAgentKey db orgId keyId) := by
  refine (searchable_agentKeys hFits _ _).mpr ?_
  simp only [List.forall_mem_map]
  intro row hRow
  split <;> exact hFits.agentKeys row hRow

theorem searchable_enqueue
    (hFits : Searchable c p db)
    (orgId kind : String)
    (recipients : List String)
    (now : Int) :
    Searchable c p (enqueue db orgId kind recipients now) ↔
      ∀ address ∈ recipients, AddressFits c p address := by
  rw [enqueue, searchable_emailOutbox hFits]
  simp only [List.forall_mem_append, List.forall_mem_map]
  constructor
  · intro hAll
    exact hAll.2
  · intro hNew
    exact ⟨hFits.emailOutbox, hNew⟩

theorem searchable_setOutboxStatus
    (hFits : Searchable c p db)
    (index : Nat)
    (status : String) :
    Searchable c p (setOutboxStatus db index status) := by
  unfold setOutboxStatus
  split
  · exact hFits
  · rename_i row hRow
    refine (searchable_emailOutbox hFits _).mpr ?_
    intro other hOther
    rcases List.mem_or_eq_of_mem_set hOther with hOld | hNew
    · exact hFits.emailOutbox other hOld
    · rw [hNew]
      exact hFits.emailOutbox row
        (List.mem_of_getElem? hRow)

/- A log row copies the recipient of an outbox row. -/
theorem searchable_processRow
    (hFits : Searchable c p db)
    (index : Nat)
    (status finalStatus : String)
    (now : Int) :
    Searchable c p
      (processRow db index status finalStatus now) := by
  unfold processRow
  split
  · exact hFits
  · rename_i row hRow
    have hMoved :=
      searchable_setOutboxStatus hFits index finalStatus
    unfold writeLog
    split
    · exact hMoved
    · refine (searchable_emailLog hMoved _).mpr ?_
      refine (forall_mem_snoc hMoved.emailLog _).mpr ?_
      exact hFits.emailOutbox row (List.mem_of_getElem? hRow)

theorem searchable_suppress
    (hFits : Searchable c p db)
    (address reason source : String)
    (now : Int) :
    Searchable c p (suppress db address reason source now) ↔
      AddressFits c p address := by
  unfold suppress
  split
  · rename_i hThere
    rcases List.any_eq_true.mp hThere with ⟨row, hRow, hSame⟩
    have hStored := hFits.emailSuppression row hRow
    rw [beq_iff_eq.mp hSame] at hStored
    exact iff_of_true hFits hStored
  · rw [searchable_emailSuppression hFits,
      forall_mem_snoc hFits.emailSuppression]

theorem searchable_insertSuppression
    (hFits : Searchable c p db)
    (address reason source : String)
    (now : Int) :
    Searchable c p
        (insertSuppression c.toLowercase db address reason
          source now) ↔
      (c.toLowercase (trimText address) ≠ "" →
        '@' ∈ (c.toLowercase (trimText address)).toList →
          AddressFits c p
            (c.toLowercase (trimText address))) := by
  unfold insertSuppression
  dsimp only
  split
  · rename_i hRefused
    refine iff_of_true hFits ?_
    intro hSome hAt
    rcases hRefused with hEmpty | hNoAt
    · exact absurd hEmpty hSome
    · exact absurd hAt hNoAt
  · rename_i hValid
    rw [not_or, not_not] at hValid
    rw [searchable_suppress hFits]
    constructor
    · intro hAddress _ _
      exact hAddress
    · intro hAddress
      exact hAddress hValid.1 hValid.2

end Privacy

--------------------
-- Incidents
--------------------

namespace Privacy

variable {c : Casing} {p : Person} {db : Db}

theorem searchable_insertIncident
    (hFits : Searchable c p db)
    (orgId : String)
    (cameraId : Option String)
    (title summary severity createdBy : String)
    (createdAt updatedAt : Int) :
    Searchable c p
        (insertIncident db orgId cameraId title summary
          severity createdBy createdAt updatedAt) ↔
      LabelFits c p createdBy := by
  rw [insertIncident, searchable_incidents hFits,
    forall_mem_snoc hFits.incidents]
  constructor
  · intro hRow
    exact hRow.createdBy
  · intro hLabel
    exact { createdBy := hLabel, resolvedBy := by simp }

theorem searchable_createIncident
    (hFits : Searchable c p db)
    (user : AuthUser)
    (body : IncidentBody)
    (cameraKnown : Bool)
    (now later : Int) :
    Searchable c p
        (accepted db
          (createIncident db user body cameraKnown now
            later)) ↔
      ((createIncident db user body cameraKnown now
          later).isOk = true →
        LabelFits c p ("user:" ++ user.userId)) := by
  unfold createIncident
  split
  · simp [accepted, Except.isOk, Except.toBool, hFits]
  · split
    · simp [accepted, Except.isOk, Except.toBool, hFits]
    · split
      · simp [accepted, Except.isOk, Except.toBool, hFits]
      · split
        · simp [accepted, Except.isOk, Except.toBool, hFits]
        · simp [accepted, Except.isOk, Except.toBool,
            searchable_insertIncident hFits]

theorem searchable_toolCreateIncident
    (hFits : Searchable c p db)
    (orgId keyName title summary : String)
    (severity cameraId : Option String)
    (cameraKnown : Bool)
    (now : Int) :
    Searchable c p
        (accepted db
          (toolCreateIncident db orgId keyName title summary
            severity cameraId cameraKnown now)) ↔
      ((toolCreateIncident db orgId keyName title summary
          severity cameraId cameraKnown now).isOk = true →
        LabelFits c p (agentLabel keyName)) := by
  have hRefused
      (refusal : String) :
      Searchable c p
          (accepted db (Except.error refusal)) ↔
        ((Except.error refusal : Except String Db).isOk =
            true →
          LabelFits c p (agentLabel keyName)) := by
    simp [accepted, Except.isOk, Except.toBool, hFits]
  unfold toolCreateIncident
  dsimp only
  split
  · exact hRefused _
  · split
    · exact hRefused _
    · split
      · exact hRefused _
      · split
        · exact hRefused _
        · split
          · exact hRefused _
          · split
            · exact hRefused _
            · simp [accepted, Except.isOk, Except.toBool,
                searchable_insertIncident hFits]

/-
  An UPDATE that keeps who filed an incident fits exactly
  when the closers it writes do.
-/
theorem searchable_setIncident
    (hFits : Searchable c p db)
    (hit : Incident → Bool)
    (f : Incident → Incident)
    (hCreated : ∀ row, (f row).createdBy = row.createdBy) :
    Searchable c p (setIncident db hit f) ↔
      ∀ row ∈ db.incidents, hit row = true →
        ∀ text ∈ (f row).resolvedBy, LabelFits c p text := by
  refine (searchable_incidents hFits _ _).trans ?_
  simp only [List.forall_mem_map]
  refine forall₂_congr (fun row hRow => ?_)
  have hOld := hFits.incidents row hRow
  cases hHit : hit row with
  | false => simp [hOld]
  | true =>
      simp only [if_true, forall_const]
      constructor
      · intro hNew
        exact hNew.resolvedBy
      · intro hClosers
        refine ⟨?_, hClosers⟩
        rw [hCreated]
        exact hOld.createdBy

/- An UPDATE of other columns writes no name. -/
theorem searchable_setIncident_frame
    (hit : Incident → Bool)
    (f : Incident → Incident)
    (hCreated : ∀ row, (f row).createdBy = row.createdBy)
    (hResolved : ∀ row, (f row).resolvedBy = row.resolvedBy) :
    Searchable c p (setIncident db hit f) ↔
      Searchable c p db := by
  have hRows :
      (∀ row ∈ (setIncident db hit f).incidents,
          IncidentFits c p row) ↔
        ∀ row ∈ db.incidents, IncidentFits c p row := by
    simp only [setIncident, List.forall_mem_map]
    refine forall₂_congr (fun row _ => ?_)
    split
    · constructor
      · rintro ⟨hBy, hClosers⟩
        rw [hCreated] at hBy
        rw [hResolved] at hClosers
        exact ⟨hBy, hClosers⟩
      · rintro ⟨hBy, hClosers⟩
        refine ⟨?_, ?_⟩
        · rw [hCreated]
          exact hBy
        · rw [hResolved]
          exact hClosers
    · rfl
  constructor
  · intro hNext
    exact
      { hNext with incidents := hRows.mp hNext.incidents }
  · intro hFits
    exact
      { hFits with incidents := hRows.mpr hFits.incidents }

/- Who closed the incident, once the patch is applied. -/
theorem patched_resolvedBy
    (incident : Incident)
    (patch : IncidentPatch)
    (who : String)
    (now : Int) :
    (patched incident patch who now).resolvedBy =
      if stamps patch.status incident then
        some who
      else if patch.status = some "open" then
        none
      else
        incident.resolvedBy := by
  cases hStatus : patch.status with
  | none => simp [patched, stamps, hStatus]
  | some status =>
      simp only [patched, hStatus, resolution, stamps,
        Option.any_some, Bool.and_eq_true,
        Bool.not_eq_true']
      simp only [Bool.not_eq_true, Option.some.injEq]
      split
      · rfl
      · split <;> rfl

theorem ownedIncident_mem
    {orgId : String}
    {incidentId : Int}
    {incident : Incident}
    (hOwned : ownedIncident db orgId incidentId = some incident) :
    incident ∈ db.incidents ∧
      isIncident orgId incidentId incident = true :=
  ⟨List.mem_of_find?_eq_some hOwned,
    List.find?_some hOwned⟩

theorem searchable_updateIncident
    (hFits : Searchable c p db)
    (user : AuthUser)
    (incidentId : Int)
    (patch : IncidentPatch)
    (now : Int) :
    Searchable c p
        (accepted db
          (updateIncident db user incidentId patch now)) ↔
      ((updateIncident db user incidentId patch now).isOk =
          true →
        (ownedIncident db user.orgId incidentId).any
            (stamps patch.status) = true →
          LabelFits c p ("user:" ++ user.userId)) := by
  unfold updateIncident
  cases hOwned : ownedIncident db user.orgId incidentId with
  | none => simp [accepted, Except.isOk, Except.toBool, hFits]
  | some incident =>
      rcases ownedIncident_mem hOwned with ⟨hMem, hHit⟩
      have hStored := hFits.incidents incident hMem
      dsimp only
      split
      · simp [accepted, Except.isOk, Except.toBool, hFits]
      · split
        · simp [accepted, Except.isOk, Except.toBool, hFits]
        · split
          · rename_i hSame
            have hNoStamp :
                stamps patch.status incident = true →
                  LabelFits c p ("user:" ++ user.userId) := by
              intro hStamps
              have hWho :=
                patched_resolvedBy incident patch
                  ("user:" ++ user.userId) now
              rw [hSame, hStamps, if_pos rfl] at hWho
              exact hStored.resolvedBy _ hWho
            simp [accepted, Except.isOk, Except.toBool, hFits]
            exact hNoStamp
          · simp only [accepted, Except.isOk, Except.toBool,
              forall_const, Option.any_some]
            refine
              (searchable_setIncident hFits _ _ ?_).trans ?_
            · intro row
              rfl
            simp only [patched_resolvedBy]
            cases hStamps : stamps patch.status incident with
            | true =>
                simp only [if_true, forall_const,
                  Option.mem_some_iff, forall_eq']
                constructor
                · intro hAll
                  exact hAll incident hMem hHit
                · intro hLabel _ _ _
                  exact hLabel
            | false =>
                simp only [Bool.false_eq_true, if_false,
                  false_implies, iff_true]
                intro _ _ _ text hText
                split at hText
                · simp at hText
                · exact hStored.resolvedBy text hText

theorem searchable_deleteIncident
    (hFits : Searchable c p db)
    (orgId : String)
    (incidentId : Int) :
    Searchable c p (deleteIncident db orgId incidentId) := by
  refine (searchable_incidents hFits _ _).mpr ?_
  intro row hRow
  exact hFits.incidents row (List.mem_of_mem_filter hRow)

theorem searchable_toolSetStatus
    (hFits : Searchable c p db)
    {orgId : String}
    {incidentId : Int}
    {existing : Incident}
    (hOwned : ownedIncident db orgId incidentId = some existing)
    (keyName status : String)
    (now : Int) :
    Searchable c p
        (toolSetStatus db keyName incidentId existing status
          now) ↔
      (stamps (some status) existing = true →
        LabelFits c p (agentLabel keyName)) := by
  rcases ownedIncident_mem hOwned with ⟨hMem, hHit⟩
  simp only [isIncident, Bool.and_eq_true] at hHit
  have hCond :
      (terminal status = true ∧
          ¬ terminal existing.status = true) ↔
        stamps (some status) existing = true := by
    simp [stamps]
  unfold toolSetStatus
  simp only [hCond]
  rw [searchable_setIncident hFits]
  · cases hStamps : stamps (some status) existing with
    | true =>
        simp only [if_true, Option.mem_some_iff, forall_eq',
          forall_const]
        constructor
        · intro hAll
          exact hAll existing hMem hHit.1
        · intro hLabel _ _ _
          exact hLabel
    | false =>
        simp only [Bool.false_eq_true, if_false,
          false_implies, iff_true]
        intro row hRow _ text hText
        split at hText
        · simp at hText
        · exact (hFits.incidents row hRow).resolvedBy text
            hText
  · intro row
    split
    · rfl
    · split <;> rfl

/- The later UPDATEs of the tool write no name. -/
theorem searchable_toolSetSeverity
    (incidentId : Int)
    (severity : Option String)
    (now : Int) :
    Searchable c p
        (toolSetSeverity db incidentId severity now) ↔
      Searchable c p db := by
  cases severity with
  | none => rfl
  | some severity =>
      exact searchable_setIncident_frame _ _
        (fun _ => rfl) (fun _ => rfl)

theorem searchable_toolSetSummary
    {incidentId : Int}
    {summary : Option String}
    {now : Int}
    {next : Db}
    (hSet : toolSetSummary db incidentId summary now = .ok next) :
    Searchable c p next ↔ Searchable c p db := by
  cases summary with
  | none =>
      rw [← Except.ok.inj hSet]
  | some summary =>
      simp only [toolSetSummary] at hSet
      split at hSet
      · exact absurd hSet (by simp)
      · split at hSet
        · exact absurd hSet (by simp)
        · rw [← Except.ok.inj hSet]
          exact searchable_setIncident_frame _ _
            (fun _ => rfl) (fun _ => rfl)

theorem searchable_toolSetReport
    {incidentId : Int}
    {report : Option String}
    {now : Int}
    {next : Db}
    (hSet : toolSetReport db incidentId report now = .ok next) :
    Searchable c p next ↔ Searchable c p db := by
  cases report with
  | none =>
      rw [← Except.ok.inj hSet]
  | some report =>
      simp only [toolSetReport] at hSet
      split at hSet
      · exact absurd hSet (by simp)
      · rw [← Except.ok.inj hSet]
        exact searchable_setIncident_frame _ _
          (fun _ => rfl) (fun _ => rfl)

theorem searchable_toolUpdateIncident
    (hFits : Searchable c p db)
    (orgId keyName : String)
    (incidentId : Int)
    (patch : IncidentPatch)
    (now : Int) :
    Searchable c p
        (toolUpdateIncident db orgId keyName incidentId patch
          now).1 ↔
      (toolUpdateRefusal patch = none →
        (ownedIncident db orgId (asI32 incidentId)).any
            (stamps patch.status) = true →
          LabelFits c p (agentLabel keyName)) := by
  unfold toolUpdateIncident
  dsimp only
  cases hRefusal : toolUpdateRefusal patch with
  | some refusal => simp [hFits]
  | none =>
      cases hOwned :
          ownedIncident db orgId (asI32 incidentId) with
      | none => simp [hFits]
      | some existing =>
          simp only [forall_const, Option.any_some]
          generalize hSecond :
            toolSetSeverity _ (asI32 incidentId)
              patch.severity now = second
          -- The first UPDATE alone can write a name.
          have hFirst :
              Searchable c p second ↔
                (stamps patch.status existing = true →
                  LabelFits c p (agentLabel keyName)) := by
            rw [← hSecond, searchable_toolSetSeverity]
            cases hStatus : patch.status with
            | none => simp [stamps, hFits]
            | some status =>
                exact searchable_toolSetStatus hFits hOwned
                  keyName status now
          refine Iff.trans ?_ hFirst
          cases hSummary :
              toolSetSummary second (asI32 incidentId)
                patch.summary now with
          | error refusal => rfl
          | ok third =>
              refine Iff.trans ?_
                (searchable_toolSetSummary hSummary)
              dsimp only
              cases hReport :
                  toolSetReport third (asI32 incidentId)
                    patch.report now with
              | error refusal => rfl
              | ok fourth =>
                  exact searchable_toolSetReport hReport

end Privacy

--------------------
-- Earlier erasures
--------------------

namespace Privacy

open Redaction

variable {c : Casing} {p : Person} {db : Db}

theorem auditFits_scrub_iff
    (row : AuditRow) :
    AuditFits c p (scrubAudit row) ↔
      names c p deletedUser = false := by
  rw [auditFits_iff]
  have hTwice : scrubAudit (scrubAudit row) = scrubAudit row :=
    rfl
  rw [hTwice, ite_self]
  simp [auditTrace, scrubAudit, AuditKept]

theorem labelFits_deletedUser_iff :
    LabelFits c p deletedUser ↔
      names c p deletedUser = false := by
  rw [labelFits_iff, scrubLabel, ite_self]
  simp [NameKept]

/- A table after a rewriting that stores one label. -/
theorem forall_mem_rewrite_iff
    {α : Type}
    {Fits : α → Prop}
    {rows : List α}
    (hit : α → Bool)
    (put : α → α)
    {cond : Prop}
    (hFits : ∀ row ∈ rows, Fits row)
    (hPut :
      ∀ row ∈ rows, hit row = true → (Fits (put row) ↔ cond)) :
    (∀ row ∈ rewrite hit put rows, Fits row) ↔
      (rows.any hit = true → cond) := by
  simp only [rewrite, List.forall_mem_map, List.any_eq_true]
  constructor
  · rintro hAll ⟨row, hRow, hHit⟩
    have hNew := hAll row hRow
    rw [if_pos hHit] at hNew
    exact (hPut row hRow hHit).mp hNew
  · intro hCond row hRow
    split
    · rename_i hHit
      exact (hPut row hRow hHit).mpr
        (hCond ⟨row, hRow, hHit⟩)
    · exact hFits row hRow

/- An incident after somebody else's erasure. -/
theorem incidentFits_scrub_iff
    {q : Person}
    {row : Incident}
    (hFits : IncidentFits c p row) :
    IncidentFits c p (scrubIncident c q row) ↔
      ((createdByHit c q row || resolvedByHit c q row) =
          true →
        names c p deletedUser = false) := by
  have hLabel
      {text : String}
      (hText : LabelFits c p text) :
      LabelFits c p (scrubLabel c q text) ↔
        (matched c q text = true →
          names c p deletedUser = false) := by
    unfold scrubLabel
    cases hMatched : matched c q text with
    | true => simp [labelFits_deletedUser_iff]
    | false => simp [hText]
  have hCreated := hLabel hFits.createdBy
  cases hResolved : row.resolvedBy with
  | none =>
      constructor
      · intro hNew hHit
        refine hCreated.mp hNew.createdBy ?_
        simpa [createdByHit, resolvedByHit, hResolved]
          using hHit
      · intro hFree
        refine ⟨hCreated.mpr ?_, by simp [scrubIncident,
          hResolved]⟩
        intro hHit
        exact hFree (by simp [createdByHit, hHit])
  | some closer =>
      have hCloser :=
        hLabel (hFits.resolvedBy closer hResolved)
      constructor
      · intro hNew hHit
        rcases Bool.or_eq_true_iff.mp hHit with hBy | hClosed
        · exact hCreated.mp hNew.createdBy hBy
        · refine hCloser.mp (hNew.resolvedBy _ ?_) ?_
          · simp [scrubIncident, hResolved]
          · simpa [resolvedByHit, hResolved] using hClosed
      · intro hFree
        refine ⟨hCreated.mpr ?_, ?_⟩
        · intro hBy
          exact hFree (by simp [createdByHit, hBy])
        · intro text hText
          have hSame : scrubLabel c q closer = text := by
            simpa [scrubIncident, hResolved] using hText
          rw [← hSame]
          refine hCloser.mpr ?_
          intro hClosed
          exact hFree
            (by simp [resolvedByHit, hResolved, hClosed])

/- An incident fits when neither of its labels was replaced. -/
theorem incidentsFit_eraseUserData_iff
    (hFits : ∀ row ∈ db.incidents, IncidentFits c p row)
    (q : Person) :
    (∀ row ∈ (eraseUserData c q db).incidents,
        IncidentFits c p row) ↔
      (db.incidents.any
          (fun row =>
            createdByHit c q row || resolvedByHit c q row) =
          true →
        names c p deletedUser = false) := by
  simp only [eraseUserData, erase_incidents,
    List.forall_mem_map, List.any_eq_true]
  constructor
  · rintro hAll ⟨row, hRow, hHit⟩
    have hOld := hFits row hRow
    exact
      (incidentFits_scrub_iff hOld).mp (hAll row hRow) hHit
  · intro hFree row hRow
    have hOld := hFits row hRow
    refine (incidentFits_scrub_iff hOld).mpr ?_
    intro hHit
    exact hFree ⟨row, hRow, hHit⟩

/-
  An erasure of somebody else stores the placeholder where
  it replaces a name, and nothing else.
-/
theorem searchable_eraseUserData
    (hFits : Searchable c p db)
    (q : Person) :
    Searchable c p (eraseUserData c q db) ↔
      (replaces c q db = true →
        names c p deletedUser = false) := by
  have hAudit :
      (∀ row ∈ (eraseUserData c q db).auditLog,
          AuditFits c p row) ↔
        (db.auditLog.any (auditHit c q) = true →
          names c p deletedUser = false) :=
    forall_mem_rewrite_iff _ _ hFits.auditLog
      (fun row _ _ => auditFits_scrub_iff row)
  have hKeys :
      (∀ row ∈ (eraseUserData c q db).agentKeys,
          LabelFits c p row.createdBy) ↔
        (db.agentKeys.any (keyHit c q) = true →
          names c p deletedUser = false) :=
    forall_mem_rewrite_iff _ _ hFits.agentKeys
      (fun _ _ _ => labelFits_deletedUser_iff)
  have hIncidents :=
    incidentsFit_eraseUserData_iff hFits.incidents q
  constructor
  · intro hNext hReplaces
    simp only [replaces, Bool.or_eq_true] at hReplaces
    rcases hReplaces with (hAny | hAny) | hAny
    · exact hAudit.mp hNext.auditLog hAny
    · exact hIncidents.mp hNext.incidents
        (by simpa only [Bool.or_eq_true] using hAny)
    · exact hKeys.mp hNext.agentKeys hAny
  · intro hFree
    exact
      { accessLogs := fun row hRow =>
          hFits.accessLogs row (List.mem_of_mem_filter hRow)
        auditLog :=
          hAudit.mpr (fun hAny =>
            hFree (by simp [replaces, hAny]))
        notificationStates := fun row hRow =>
          hFits.notificationStates row
            (List.mem_of_mem_filter hRow)
        emailOutbox := fun row hRow =>
          hFits.emailOutbox row (List.mem_of_mem_filter hRow)
        emailLog := fun row hRow =>
          hFits.emailLog row (List.mem_of_mem_filter hRow)
        emailSuppression := fun row hRow =>
          hFits.emailSuppression row
            (List.mem_of_mem_filter hRow)
        incidents :=
          hIncidents.mpr (fun hAny =>
            hFree (by
              simp only [replaces, hAny, Bool.or_true,
                Bool.true_or]))
        agentKeys :=
          hKeys.mpr (fun hAny =>
            hFree (by simp [replaces, hAny])) }

end Privacy

end SentinelCommand
