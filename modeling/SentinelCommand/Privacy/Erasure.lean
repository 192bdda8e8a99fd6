import SentinelCommand.Lib.Redaction
import SentinelCommand.Privacy.Tables

/-
  `erase_user_data`, and when it leaves nothing of a person
  behind and touches nothing of anybody else.

  A personal column names a person when it is their user id
  or one of their addresses in any letter case, alone or
  after one of the prefixes the incident writers put before
  a name.

  Key definitions include:
    * `Privacy.eraseUserData`
    * `Privacy.names`

  Key theorems include:
    * `Privacy.erased_iff_searchable`
-/

--------------------
-- The eraser
--------------------

namespace SentinelCommand

namespace Privacy

open Redaction

/-
  `str::to_lowercase` of the program and `LOWER` of its
  database. They agree on ASCII; beyond it the engines
  differ.
-/
structure Casing where
  toLowercase : String → String
  lower : String → String

/- A user id with the addresses the account had. -/
structure Person where
  userId : String
  emails : List String
  deriving DecidableEq, Repr

def deletedUser : String :=
  "deleted user"

variable (c : Casing) (p : Person)

/- The addresses as the eraser binds them. -/
def addresses : List String :=
  (p.emails.map
    (fun email => c.toLowercase (trimText email))).filter
      (· ≠ "")

/- `LOWER(column) = ANY(addresses)`. -/
def hasAddress (text : String) : Bool :=
  (addresses c p).contains (c.lower text)

/- `column = user_id OR LOWER(column) = ANY(addresses)`. -/
def matched (text : String) : Bool :=
  text == p.userId || hasAddress c p text

/- The WHERE clause of the audit log; NULL matches nothing. -/
def auditHit (row : AuditRow) : Bool :=
  row.userId == some p.userId ||
    row.username.any (hasAddress c p)

/- The SET clause of the audit log. -/
def scrubAudit (row : AuditRow) : AuditRow :=
  { row with
    username := some deletedUser
    userId := none
    ipAddress := none }

def createdByHit (row : Incident) : Bool :=
  matched c p row.createdBy

def resolvedByHit (row : Incident) : Bool :=
  row.resolvedBy.any (matched c p)

def keyHit (row : AgentKey) : Bool :=
  matched c p row.createdBy

/- The tables once the transaction has committed. -/
def eraseUserData (db : Db) : Db :=
  { db with
    accessLogs :=
      remove (·.userId == p.userId) db.accessLogs
    notificationStates :=
      remove (·.clerkUserId == p.userId)
        db.notificationStates
    auditLog :=
      rewrite (auditHit c p) scrubAudit db.auditLog
    emailLog :=
      remove (fun row => hasAddress c p row.recipientEmail)
        db.emailLog
    emailOutbox :=
      remove (fun row => hasAddress c p row.recipientEmail)
        db.emailOutbox
    emailSuppression :=
      remove (fun row => hasAddress c p row.address)
        db.emailSuppression
    incidents :=
      rewrite (resolvedByHit c p)
        (fun row => { row with resolvedBy := deletedUser })
        (rewrite (createdByHit c p)
          (fun row => { row with createdBy := deletedUser })
          db.incidents)
    agentKeys :=
      rewrite (keyHit c p)
        (fun row => { row with createdBy := deletedUser })
        db.agentKeys }

/- The rows each statement reports, in their order. -/
def erasureCounts (db : Db) : List (String × Nat) :=
  [ ("stream_access_logs",
      db.accessLogs.countP (·.userId == p.userId)),
    ("user_notification_state",
      db.notificationStates.countP
        (·.clerkUserId == p.userId)),
    ("audit_log", db.auditLog.countP (auditHit c p)),
    ("email_log",
      db.emailLog.countP
        (fun row => hasAddress c p row.recipientEmail)),
    ("email_outbox",
      db.emailOutbox.countP
        (fun row => hasAddress c p row.recipientEmail)),
    ("email_suppression",
      db.emailSuppression.countP
        (fun row => hasAddress c p row.address)),
    ("incidents", db.incidents.countP (createdByHit c p)),
    ("incidents", db.incidents.countP (resolvedByHit c p)),
    ("sentinel_agent_keys",
      db.agentKeys.countP (keyHit c p)) ]

/- The user id, or an address in any letter case. -/
def plain (text : String) : Bool :=
  text == p.userId ||
    (addresses c p).contains (c.toLowercase text)

/- What the incident writers put before a name. -/
def writerPrefixes : List String :=
  ["user:", "mcp:"]

/- `str::strip_prefix`. -/
def stripPrefix (pre text : String) : Option String :=
  if pre.toList.isPrefixOf text.toList then
    some (String.ofList (text.toList.drop pre.toList.length))
  else
    none

def prefixed (text : String) : Bool :=
  writerPrefixes.any
    (fun pre => (stripPrefix pre text).any (plain c p))

def names (text : String) : Bool :=
  plain c p text || prefixed c p text

def accessLogTrace (row : AccessLog) : Bool :=
  names c p row.userId || names c p row.userEmail

def auditTrace (row : AuditRow) : Bool :=
  row.username.any (names c p) || row.userId.any (names c p)

def incidentTrace (row : Incident) : Bool :=
  names c p row.createdBy || row.resolvedBy.any (names c p)

/-
  An audit row is about the user it records, or about whom
  its label names when it records none.
-/
def ownAudit (row : AuditRow) : Bool :=
  match row.userId with
  | some userId => names c p userId
  | none => row.username.any (names c p)

@[simp] theorem stripPrefix_append
    (pre rest : String) :
    stripPrefix pre (pre ++ rest) = some rest := by
  simp [stripPrefix, String.toList_append]

/- What a writer stores for the person names the person. -/
theorem prefixed_append
    {pre userId : String}
    (hPrefix : pre ∈ writerPrefixes)
    (hPlain : plain c p userId = true) :
    prefixed c p (pre ++ userId) = true := by
  refine List.any_eq_true.mpr ⟨pre, hPrefix, ?_⟩
  rw [stripPrefix_append]
  simpa using hPlain

--------------------
-- Erasure, as it is meant
--------------------

/- No personal column names the person. -/
structure NoTrace (db : Db) : Prop where
  accessLogs : Clean (accessLogTrace c p) db.accessLogs
  auditLog : Clean (auditTrace c p) db.auditLog
  notificationStates :
    Clean (fun row => names c p row.clerkUserId)
      db.notificationStates
  emailOutbox :
    Clean (fun row => names c p row.recipientEmail)
      db.emailOutbox
  emailLog :
    Clean (fun row => names c p row.recipientEmail)
      db.emailLog
  emailSuppression :
    Clean (fun row => names c p row.address)
      db.emailSuppression
  incidents : Clean (incidentTrace c p) db.incidents
  agentKeys :
    Clean (fun row => names c p row.createdBy) db.agentKeys

/- An audit row about somebody else is as before. -/
def AuditKept (before after : AuditRow) : Prop :=
  { after with
      username := before.username
      userId := before.userId
      ipAddress := before.ipAddress } = before ∧
    (ownAudit c p before = false → after = before)

/- A name of somebody else is as before. -/
def NameKept (before after : String) : Prop :=
  names c p before = false → after = before

def IncidentKept (before after : Incident) : Prop :=
  { after with
      createdBy := before.createdBy
      resolvedBy := before.resolvedBy } = before ∧
    NameKept c p before.createdBy after.createdBy ∧
    (before.resolvedBy.any (names c p) = false →
      after.resolvedBy = before.resolvedBy)

def AgentKeyKept (before after : AgentKey) : Prop :=
  { after with createdBy := before.createdBy } = before ∧
    NameKept c p before.createdBy after.createdBy

/- Everybody else's rows and names are as before. -/
structure OthersKept (before after : Db) : Prop where
  accessLogs :
    after.accessLogs.filter
        (fun row => !accessLogTrace c p row) =
      before.accessLogs.filter
        (fun row => !accessLogTrace c p row)
  auditLog :
    List.Forall₂ (AuditKept c p) before.auditLog
      after.auditLog
  notificationStates :
    after.notificationStates.filter
        (fun row => !names c p row.clerkUserId) =
      before.notificationStates.filter
        (fun row => !names c p row.clerkUserId)
  emailOutbox :
    after.emailOutbox.filter
        (fun row => !names c p row.recipientEmail) =
      before.emailOutbox.filter
        (fun row => !names c p row.recipientEmail)
  emailLog :
    after.emailLog.filter
        (fun row => !names c p row.recipientEmail) =
      before.emailLog.filter
        (fun row => !names c p row.recipientEmail)
  emailSuppression :
    after.emailSuppression.filter
        (fun row => !names c p row.address) =
      before.emailSuppression.filter
        (fun row => !names c p row.address)
  incidents :
    List.Forall₂ (IncidentKept c p) before.incidents
      after.incidents
  agentKeys :
    List.Forall₂ (AgentKeyKept c p) before.agentKeys
      after.agentKeys

/- The erasure of the person is complete on these tables. -/
structure Erased (db : Db) : Prop where
  noTrace : NoTrace c p (eraseUserData c p db)
  othersKept : OthersKept c p db (eraseUserData c p db)

/-
  An access log that names the person records them as its
  user.
-/
def AccessLogFits (row : AccessLog) : Prop :=
  accessLogTrace c p row = true → row.userId = p.userId

def StateFits (userId : String) : Prop :=
  names c p userId = true → userId = p.userId

/-
  The database's lower-casing finds an address exactly when
  the address is the person's.
-/
def AddressFits (text : String) : Prop :=
  hasAddress c p text = names c p text

/- A label on an incident or on a key. -/
structure LabelFits (text : String) : Prop where
  unprefixed :
    prefixed c p text = true → matched c p text = true
  folded :
    plain c p text = true → matched c p text = true
  only :
    hasAddress c p text = true →
      names c p text = true ∨ text = deletedUser
  placeholder :
    matched c p text = true → names c p deletedUser = false

/- The label and the user id of an audit row. -/
structure AuditFits (row : AuditRow) : Prop where
  found : auditTrace c p row = true → auditHit c p row = true
  only :
    auditHit c p row = true →
      ownAudit c p row = true ∨ scrubAudit row = row
  placeholder :
    auditHit c p row = true → names c p deletedUser = false

structure IncidentFits (row : Incident) : Prop where
  createdBy : LabelFits c p row.createdBy
  resolvedBy : ∀ text ∈ row.resolvedBy, LabelFits c p text

/- Every name in the tables is one the eraser can find. -/
structure Searchable (db : Db) : Prop where
  accessLogs : ∀ row ∈ db.accessLogs, AccessLogFits c p row
  auditLog : ∀ row ∈ db.auditLog, AuditFits c p row
  notificationStates :
    ∀ row ∈ db.notificationStates,
      StateFits c p row.clerkUserId
  emailOutbox :
    ∀ row ∈ db.emailOutbox,
      AddressFits c p row.recipientEmail
  emailLog :
    ∀ row ∈ db.emailLog, AddressFits c p row.recipientEmail
  emailSuppression :
    ∀ row ∈ db.emailSuppression, AddressFits c p row.address
  incidents : ∀ row ∈ db.incidents, IncidentFits c p row
  agentKeys :
    ∀ row ∈ db.agentKeys, LabelFits c p row.createdBy

--------------------
-- Row by row
--------------------

variable {c : Casing} {p : Person}

@[simp] theorem names_userId :
    names c p p.userId = true := by
  simp [names, plain]

/- What becomes of one label. -/
def scrubLabel
    (c : Casing)
    (p : Person)
    (text : String) : String :=
  if matched c p text then deletedUser else text

theorem accessLogFits_iff
    {row : AccessLog} :
    AccessLogFits c p row ↔
      (row.userId == p.userId) = accessLogTrace c p row := by
  unfold AccessLogFits
  by_cases hUser : row.userId = p.userId
  · have hTrace : accessLogTrace c p row = true := by
      simp [accessLogTrace, hUser]
    simp [hUser, hTrace]
  · cases hTrace : accessLogTrace c p row with
    | false => simp [hUser]
    | true => simp [hUser]

theorem stateFits_iff
    {userId : String} :
    StateFits c p userId ↔
      (userId == p.userId) = names c p userId := by
  unfold StateFits
  by_cases hUser : userId = p.userId
  · simp [hUser]
  · cases hNames : names c p userId with
    | false => simp [hUser]
    | true => simp [hUser]

theorem labelFits_iff
    (text : String) :
    LabelFits c p text ↔
      names c p (scrubLabel c p text) = false ∧
        NameKept c p text (scrubLabel c p text) := by
  unfold scrubLabel NameKept
  cases hMatched : matched c p text with
  | true =>
      constructor
      · intro hFits
        refine ⟨by simpa using hFits.placeholder hMatched, ?_⟩
        intro hOther
        have hNotId : (text == p.userId) = false := by
          simp only [names, plain, Bool.or_eq_false_iff]
            at hOther
          exact hOther.1.1
        have hAddress : hasAddress c p text = true := by
          simpa [matched, hNotId] using hMatched
        rcases hFits.only hAddress with hNames | hSame
        · simp [hOther] at hNames
        · simp [hSame]
      · rintro ⟨hClean, hKept⟩
        refine ⟨fun _ => hMatched, fun _ => hMatched, ?_, ?_⟩
        · intro _
          cases hNames : names c p text with
          | true => exact Or.inl rfl
          | false =>
              exact Or.inr (by simpa using (hKept hNames).symm)
        · intro _
          simpa using hClean
  | false =>
      constructor
      · intro hFits
        have hPlain : plain c p text = false := by
          by_contra hSome
          have hFound := hFits.folded (by simpa using hSome)
          simp [hMatched] at hFound
        have hPrefixed : prefixed c p text = false := by
          by_contra hSome
          have hFound :=
            hFits.unprefixed (by simpa using hSome)
          simp [hMatched] at hFound
        simp [names, hPlain, hPrefixed]
      · rintro ⟨hClean, -⟩
        have hNone : names c p text = false := by
          simpa using hClean
        simp only [names, Bool.or_eq_false_iff] at hNone
        simp only [matched, Bool.or_eq_false_iff] at hMatched
        exact
          { unprefixed := by simp [hNone.2]
            folded := by simp [hNone.1]
            only := by simp [hMatched.2]
            placeholder := by simp [matched, hMatched] }

theorem auditFits_iff
    {row : AuditRow} :
    AuditFits c p row ↔
      auditTrace c p
          (if auditHit c p row then scrubAudit row else row) =
        false ∧
      AuditKept c p row
        (if auditHit c p row then scrubAudit row
          else row) := by
  cases hHit : auditHit c p row with
  | true =>
      have hTrace :
          auditTrace c p (scrubAudit row) =
            names c p deletedUser := by
        simp [auditTrace, scrubAudit]
      simp only [if_true, hTrace]
      constructor
      · intro hFits
        refine ⟨hFits.placeholder hHit, rfl, ?_⟩
        intro hOther
        rcases hFits.only hHit with hOwn | hSame
        · simp [hOther] at hOwn
        · exact hSame
      · rintro ⟨hClean, -, hKept⟩
        refine ⟨fun _ => hHit, ?_, fun _ => hClean⟩
        intro _
        cases hOwn : ownAudit c p row with
        | true => exact Or.inl rfl
        | false => exact Or.inr (hKept hOwn)
  | false =>
      simp only [Bool.false_eq_true, if_false]
      constructor
      · intro hFits
        refine ⟨?_, rfl, fun _ => rfl⟩
        by_contra hTrace
        have hFound := hFits.found (by simpa using hTrace)
        simp [hHit] at hFound
      · rintro ⟨hClean, -⟩
        exact
          { found := by simp [hClean]
            only := by simp [hHit]
            placeholder := by simp [hHit] }

/- Both incident columns, scrubbed. -/
def scrubIncident
    (c : Casing)
    (p : Person)
    (row : Incident) : Incident :=
  { row with
    createdBy := scrubLabel c p row.createdBy
    resolvedBy := row.resolvedBy.map (scrubLabel c p) }

/- The two UPDATEs touch a column each. -/
theorem erase_incidents
    (rows : List Incident) :
    rewrite (resolvedByHit c p)
        (fun row => { row with resolvedBy := deletedUser })
        (rewrite (createdByHit c p)
          (fun row => { row with createdBy := deletedUser })
          rows) =
      rows.map (scrubIncident c p) := by
  simp only [rewrite, List.map_map]
  refine List.map_congr_left (fun row _ => ?_)
  cases hCreated : matched c p row.createdBy <;>
    cases hResolved : row.resolvedBy with
    | none =>
        cases row
        simp_all [createdByHit, resolvedByHit, scrubIncident,
          scrubLabel]
    | some text =>
        cases hText : matched c p text <;>
          cases row <;>
          simp_all [createdByHit, resolvedByHit,
            scrubIncident, scrubLabel]

theorem incidentFits_iff
    {row : Incident} :
    IncidentFits c p row ↔
      incidentTrace c p (scrubIncident c p row) = false ∧
        IncidentKept c p row (scrubIncident c p row) := by
  have hSplit :
      IncidentFits c p row ↔
        LabelFits c p row.createdBy ∧
          ∀ text ∈ row.resolvedBy, LabelFits c p text :=
    ⟨fun h => ⟨h.createdBy, h.resolvedBy⟩,
      fun h => ⟨h.1, h.2⟩⟩
  rw [hSplit, labelFits_iff]
  cases hResolved : row.resolvedBy with
  | none =>
      simp [incidentTrace, IncidentKept, scrubIncident,
        hResolved]
      intros
      cases row
      simp_all
  | some text =>
      simp [incidentTrace, IncidentKept, scrubIncident,
        hResolved, labelFits_iff text, NameKept]
      cases row
      simp_all
      tauto

theorem agentKeyFits_iff
    {row : AgentKey} :
    LabelFits c p row.createdBy ↔
      names c p
          (if keyHit c p row then
            { row with createdBy := deletedUser }
          else row).createdBy = false ∧
      AgentKeyKept c p row
        (if keyHit c p row then
          { row with createdBy := deletedUser }
        else row) := by
  rw [labelFits_iff]
  cases hHit : matched c p row.createdBy with
  | true => simp [keyHit, hHit, scrubLabel, AgentKeyKept]
  | false => simp [keyHit, hHit, scrubLabel, AgentKeyKept]

--------------------
-- Completeness on given tables
--------------------

variable {c : Casing} {p : Person} {db : Db}

theorem accessLogs_erased_iff
    (rows : List AccessLog) :
    (Clean (accessLogTrace c p)
          (remove (·.userId == p.userId) rows) ∧
        (remove (·.userId == p.userId) rows).filter
            (fun row => !accessLogTrace c p row) =
          rows.filter (fun row => !accessLogTrace c p row)) ↔
      ∀ row ∈ rows, AccessLogFits c p row := by
  rw [remove_complete_iff]
  simp only [accessLogFits_iff]

theorem states_erased_iff
    (rows : List NotificationState) :
    (Clean (fun row => names c p row.clerkUserId)
          (remove (·.clerkUserId == p.userId) rows) ∧
        (remove (·.clerkUserId == p.userId) rows).filter
            (fun row => !names c p row.clerkUserId) =
          rows.filter
            (fun row => !names c p row.clerkUserId)) ↔
      ∀ row ∈ rows, StateFits c p row.clerkUserId := by
  rw [remove_complete_iff
    (fun row : NotificationState => names c p row.clerkUserId)]
  simp only [stateFits_iff]

/- The three tables that are searched by address. -/
theorem mail_erased_iff
    {α : Type}
    (address : α → String)
    (rows : List α) :
    (Clean (fun row => names c p (address row))
          (remove (fun row => hasAddress c p (address row))
            rows) ∧
        (remove (fun row => hasAddress c p (address row))
            rows).filter
              (fun row => !names c p (address row)) =
          rows.filter
            (fun row => !names c p (address row))) ↔
      ∀ row ∈ rows, AddressFits c p (address row) := by
  rw [remove_complete_iff
    (fun row => names c p (address row))]
  rfl

theorem auditLog_erased_iff
    (rows : List AuditRow) :
    (Clean (auditTrace c p)
          (rewrite (auditHit c p) scrubAudit rows) ∧
        List.Forall₂ (AuditKept c p) rows
          (rewrite (auditHit c p) scrubAudit rows)) ↔
      ∀ row ∈ rows, AuditFits c p row := by
  rw [rewrite, map_complete_iff]
  simp only [auditFits_iff]

theorem incidents_erased_iff
    (rows : List Incident) :
    (Clean (incidentTrace c p)
          (rows.map (scrubIncident c p)) ∧
        List.Forall₂ (IncidentKept c p) rows
          (rows.map (scrubIncident c p))) ↔
      ∀ row ∈ rows, IncidentFits c p row := by
  rw [map_complete_iff]
  simp only [incidentFits_iff]

theorem agentKeys_erased_iff
    (rows : List AgentKey) :
    (Clean (fun row => names c p row.createdBy)
          (rewrite (keyHit c p)
            (fun row => { row with createdBy := deletedUser })
            rows) ∧
        List.Forall₂ (AgentKeyKept c p) rows
          (rewrite (keyHit c p)
            (fun row => { row with createdBy := deletedUser })
            rows)) ↔
      ∀ row ∈ rows, LabelFits c p row.createdBy := by
  rw [rewrite, map_complete_iff
    (fun row : AgentKey => names c p row.createdBy)]
  simp only [agentKeyFits_iff]

/-
  The erasure is complete exactly when every name in the
  tables is one it can find.
-/
theorem erased_iff_searchable :
    Erased c p db ↔ Searchable c p db := by
  constructor
  · rintro ⟨hTrace, hKept⟩
    have hRewritten := hTrace.incidents
    have hLabels := hKept.incidents
    simp only [eraseUserData, erase_incidents]
      at hRewritten hLabels
    exact
      { accessLogs :=
          (accessLogs_erased_iff _).mp
            ⟨hTrace.accessLogs, hKept.accessLogs⟩
        auditLog :=
          (auditLog_erased_iff _).mp
            ⟨hTrace.auditLog, hKept.auditLog⟩
        notificationStates :=
          (states_erased_iff _).mp
            ⟨hTrace.notificationStates,
              hKept.notificationStates⟩
        emailOutbox :=
          (mail_erased_iff _ _).mp
            ⟨hTrace.emailOutbox, hKept.emailOutbox⟩
        emailLog :=
          (mail_erased_iff _ _).mp
            ⟨hTrace.emailLog, hKept.emailLog⟩
        emailSuppression :=
          (mail_erased_iff _ _).mp
            ⟨hTrace.emailSuppression, hKept.emailSuppression⟩
        incidents :=
          (incidents_erased_iff _).mp ⟨hRewritten, hLabels⟩
        agentKeys :=
          (agentKeys_erased_iff _).mp
            ⟨hTrace.agentKeys, hKept.agentKeys⟩ }
  · intro hFits
    have hAccess :=
      (accessLogs_erased_iff _).mpr hFits.accessLogs
    have hAudit := (auditLog_erased_iff _).mpr hFits.auditLog
    have hStates :=
      (states_erased_iff _).mpr hFits.notificationStates
    have hOutbox :=
      (mail_erased_iff _ _).mpr hFits.emailOutbox
    have hLog := (mail_erased_iff _ _).mpr hFits.emailLog
    have hSuppressed :=
      (mail_erased_iff _ _).mpr hFits.emailSuppression
    have hLabels :=
      (incidents_erased_iff _).mpr hFits.incidents
    rw [← erase_incidents] at hLabels
    have hKeys := (agentKeys_erased_iff _).mpr hFits.agentKeys
    exact
      { noTrace :=
          { accessLogs := hAccess.1
            auditLog := hAudit.1
            notificationStates := hStates.1
            emailOutbox := hOutbox.1
            emailLog := hLog.1
            emailSuppression := hSuppressed.1
            incidents := hLabels.1
            agentKeys := hKeys.1 }
        othersKept :=
          { accessLogs := hAccess.2
            auditLog := hAudit.2
            notificationStates := hStates.2
            emailOutbox := hOutbox.2
            emailLog := hLog.2
            emailSuppression := hSuppressed.2
            incidents := hLabels.2
            agentKeys := hKeys.2 } }

end Privacy

end SentinelCommand
