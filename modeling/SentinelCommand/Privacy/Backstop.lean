import Mathlib.Data.List.Dedup
import Mathlib.Data.List.Destutter
import SentinelCommand.Privacy.Completeness

/-
  The `user.deleted` webhook as a backstop for the deletion
  of an account: it erases by the addresses the database has
  recorded for the user id, where the request erases by those
  Clerk had.

  Main declarations:
    * `Privacy.recordedEmails`
    * `Privacy.backstop_erases_the_same`
    * `Privacy.backstop_leaves_mail`
-/

--------------------
-- Recorded Addresses
--------------------

namespace SentinelCommand

namespace Privacy

/- The two columns of the query, for one user id. -/
def recordedTexts (userId : String) (db : Db) : List String :=
  (db.accessLogs.filter (·.userId == userId)).map
      (·.userEmail) ++
    (db.auditLog.filter (·.userId == some userId)).filterMap
      (·.username)

/- The addresses this database has recorded for a user id. -/
def recordedEmails
    (c : Casing)
    (userId : String)
    (db : Db) : List String :=
  ((((recordedTexts userId db).dedup.filter
      (fun text => '@' ∈ text.toList)).map
        c.toLowercase).mergeSort
          (fun a b => a ≤ b)).destutter (· ≠ ·)

variable {c : Casing}
variable {userId : String}
variable {emails : List String}
variable {db : Db}

theorem mem_destutter'
    (first : String)
    (rest : List String)
    (text : String) :
    text ∈ rest.destutter' (· ≠ ·) first ↔
      text ∈ first :: rest := by
  induction rest generalizing first with
  | nil => simp
  | cons next rest ih =>
      by_cases hSame : first = next
      · subst hSame
        simp [ih]
      · simp [hSame, ih]

/- Dropping repetitions drops no text. -/
theorem mem_destutter
    (texts : List String)
    (text : String) :
    text ∈ texts.destutter (· ≠ ·) ↔ text ∈ texts := by
  cases texts with
  | nil => simp
  | cons first rest => exact mem_destutter' first rest text

theorem mem_recordedEmails
    (email : String) :
    email ∈ recordedEmails c userId db ↔
      ∃ text ∈ recordedTexts userId db,
        '@' ∈ text.toList ∧ c.toLowercase text = email := by
  simp only [recordedEmails, mem_destutter, List.mem_mergeSort,
    List.mem_map, List.mem_filter, List.mem_dedup,
    decide_eq_true_eq, and_assoc]

end Privacy

--------------------
-- Erasing by Other Addresses
--------------------

namespace Privacy

open Redaction

variable {c : Casing}
variable {p q : Person}
variable {db : Db}

/-
  What holds of every text in the tables that is erased or
  kept by its address alone: not found by the user id, and
  not scrubbed before.
-/
structure ByAddress
    (same : String → Prop)
    (userId : String)
    (db : Db) : Prop where
  auditLog :
    ∀ row ∈ db.auditLog,
      scrubAudit row = row ∨ row.userId = some userId ∨
        ∀ name, row.username = some name → same name
  emailLog : ∀ row ∈ db.emailLog, same row.recipientEmail
  emailOutbox : ∀ row ∈ db.emailOutbox, same row.recipientEmail
  emailSuppression :
    ∀ row ∈ db.emailSuppression, same row.address
  incidents :
    ∀ row ∈ db.incidents, ∀ label,
      label = row.createdBy ∨ row.resolvedBy = some label →
        label = deletedUser ∨ label = userId ∨ same label
  agentKeys :
    ∀ row ∈ db.agentKeys,
      row.createdBy = deletedUser ∨ row.createdBy = userId ∨
        same row.createdBy

/- A text is searched for in both lists of addresses, or in none. -/
def SameAddress (c : Casing) (p q : Person) (text : String) :
    Prop :=
  hasAddress c p text = hasAddress c q text

theorem auditHit_eq_iff
    (hUser : p.userId = q.userId)
    (row : AuditRow) :
    auditHit c p row = auditHit c q row ↔
      row.userId = some p.userId ∨
        ∀ name, row.username = some name →
          SameAddress c p q name := by
  unfold auditHit SameAddress
  rw [← hUser]
  by_cases hId : row.userId = some p.userId
  · simp [hId]
  · have hNot : (row.userId == some p.userId) = false := by
      simpa using hId
    rw [hNot]
    cases hName : row.username with
    | none => simp
    | some name => simp [hId]

theorem scrubLabel_eq_iff
    (hUser : p.userId = q.userId)
    (text : String) :
    scrubLabel c p text = scrubLabel c q text ↔
      text = deletedUser ∨ text = p.userId ∨
        SameAddress c p q text := by
  unfold scrubLabel matched SameAddress
  rw [← hUser]
  by_cases hId : text = p.userId
  · simp [hId]
  · have hNot : (text == p.userId) = false := by simpa using hId
    rw [hNot]
    cases hasAddress c p text with
    | true =>
        cases hasAddress c q text with
        | true => simp
        | false => simp [hId, eq_comm]
    | false =>
        cases hasAddress c q text with
        | true => simp [hId]
        | false => simp

theorem scrubIncident_eq_iff
    (hUser : p.userId = q.userId)
    (row : Incident) :
    scrubIncident c p row = scrubIncident c q row ↔
      ∀ label,
        label = row.createdBy ∨ row.resolvedBy = some label →
          label = deletedUser ∨ label = p.userId ∨
            SameAddress c p q label := by
  simp only [scrubIncident, Incident.mk.injEq, true_and,
    ← scrubLabel_eq_iff hUser]
  constructor
  · rintro ⟨hCreated, hResolved⟩ label (rfl | hLabel)
    · exact hCreated
    · simpa [hLabel] using hResolved
  · intro hLabels
    refine ⟨hLabels row.createdBy (Or.inl rfl), ?_⟩
    cases hLabel : row.resolvedBy with
    | none => rfl
    | some label =>
        simpa using hLabels label (Or.inr hLabel)

theorem keys_eq_iff
    (hUser : p.userId = q.userId)
    (rows : List AgentKey) :
    rewrite (keyHit c p)
          (fun row => { row with createdBy := deletedUser })
          rows =
        rewrite (keyHit c q)
          (fun row => { row with createdBy := deletedUser })
          rows ↔
      ∀ row ∈ rows,
        row.createdBy = deletedUser ∨ row.createdBy = p.userId ∨
          SameAddress c p q row.createdBy := by
  rw [rewrite, rewrite, List.map_inj_left]
  refine forall₂_congr (fun row _ => ?_)
  rw [← scrubLabel_eq_iff hUser, scrubLabel, scrubLabel]
  unfold keyHit
  cases row
  cases matched c p _ <;> cases matched c q _ <;> simp

/-
  Two erasures of one user id leave the same tables exactly
  when every text that only an address can find is among the
  addresses of both or of neither.
-/
theorem eraseUserData_eq_iff
    (hUser : p.userId = q.userId) :
    eraseUserData c p db = eraseUserData c q db ↔
      ByAddress (SameAddress c p q) p.userId db := by
  have hTables :
      eraseUserData c p db = eraseUserData c q db ↔
        rewrite (auditHit c p) scrubAudit db.auditLog =
            rewrite (auditHit c q) scrubAudit db.auditLog ∧
          remove (fun row => hasAddress c p row.recipientEmail)
              db.emailOutbox =
            remove (fun row => hasAddress c q row.recipientEmail)
              db.emailOutbox ∧
          remove (fun row => hasAddress c p row.recipientEmail)
              db.emailLog =
            remove (fun row => hasAddress c q row.recipientEmail)
              db.emailLog ∧
          remove (fun row => hasAddress c p row.address)
              db.emailSuppression =
            remove (fun row => hasAddress c q row.address)
              db.emailSuppression ∧
          db.incidents.map (scrubIncident c p) =
            db.incidents.map (scrubIncident c q) ∧
          rewrite (keyHit c p)
              (fun row => { row with createdBy := deletedUser })
              db.agentKeys =
            rewrite (keyHit c q)
              (fun row => { row with createdBy := deletedUser })
              db.agentKeys := by
    simp only [eraseUserData, Db.mk.injEq, erase_incidents,
      hUser, true_and, and_true]
  rw [hTables, rewrite_eq_iff, remove_eq_iff, remove_eq_iff,
    remove_eq_iff, List.map_inj_left, keys_eq_iff hUser]
  simp only [auditHit_eq_iff hUser, scrubIncident_eq_iff hUser]
  constructor
  · rintro ⟨hAudit, hOutbox, hLog, hSuppressed, hIncidents,
      hKeys⟩
    exact
      { auditLog := hAudit
        emailLog := hLog
        emailOutbox := hOutbox
        emailSuppression := hSuppressed
        incidents := hIncidents
        agentKeys := hKeys }
  · intro hSame
    exact
      ⟨hSame.auditLog, hSame.emailOutbox, hSame.emailLog,
        hSame.emailSuppression, hSame.incidents,
        hSame.agentKeys⟩

end Privacy

--------------------
-- The Backstop
--------------------

namespace Privacy

variable (c : Casing)
variable (userId : String)
variable (emails : List String)
variable (db : Db)

/-
  The text is the e-mail of an access log of the user, or the
  label of an audit row of the user.
-/
def RecordedText (text : String) : Prop :=
  (∃ row ∈ db.accessLogs,
      row.userId = userId ∧ row.userEmail = text) ∨
    ∃ row ∈ db.auditLog,
      row.userId = some userId ∧ row.username = some text

/- The address is recorded for the user, in some letter case. -/
def AddressRecorded (text : String) : Prop :=
  ∃ raw, RecordedText userId db raw ∧ '@' ∈ raw.toList ∧
    c.toLowercase (trimText (c.toLowercase raw)) ≠ "" ∧
    c.lower text = c.toLowercase (trimText (c.toLowercase raw))

/- The address is one the account has, in some letter case. -/
def AddressOf (text : String) : Prop :=
  ∃ email ∈ emails,
    c.toLowercase (trimText email) ≠ "" ∧
      c.lower text = c.toLowercase (trimText email)

/-
  Every text that only an address can find is recorded for
  the user exactly when it is an address of the account.
-/
def Recoverable : Prop :=
  ByAddress
    (fun text =>
      AddressRecorded c userId db text ↔
        AddressOf c emails text)
    userId db

variable {c : Casing}
variable {userId : String}
variable {emails : List String}
variable {db : Db}

theorem mem_recordedTexts
    (text : String) :
    text ∈ recordedTexts userId db ↔
      RecordedText userId db text := by
  simp only [recordedTexts, RecordedText, List.mem_append,
    List.mem_map, List.mem_filter, List.mem_filterMap,
    beq_iff_eq, and_assoc]

theorem hasAddress_iff
    (text : String) :
    hasAddress c { userId := userId, emails := emails } text =
        true ↔
      AddressOf c emails text := by
  simp only [hasAddress, addresses, List.contains_iff_mem,
    List.mem_filter, List.mem_map, decide_eq_true_eq, AddressOf]
  constructor
  · rintro ⟨⟨email, hIn, hSame⟩, hSome⟩
    rw [← hSame] at hSome
    exact ⟨email, hIn, hSome, hSame.symm⟩
  · rintro ⟨email, hIn, hSome, hSame⟩
    rw [hSame]
    exact ⟨⟨email, hIn, rfl⟩, hSome⟩

theorem hasAddress_recorded_iff
    (text : String) :
    hasAddress c
        { userId := userId
          emails := recordedEmails c userId db }
        text = true ↔
      AddressRecorded c userId db text := by
  rw [hasAddress_iff]
  unfold AddressOf AddressRecorded
  constructor
  · rintro ⟨email, hIn, hSome, hSame⟩
    rcases (mem_recordedEmails email).mp hIn with
      ⟨raw, hRaw, hAt, rfl⟩
    exact ⟨raw, (mem_recordedTexts raw).mp hRaw, hAt, hSome, hSame⟩
  · rintro ⟨raw, hRaw, hAt, hSome, hSame⟩
    refine ⟨c.toLowercase raw, ?_, hSome, hSame⟩
    exact
      (mem_recordedEmails _).mpr
        ⟨raw, (mem_recordedTexts raw).mpr hRaw, hAt, rfl⟩

/-
  The backstop leaves the tables the request would leave
  exactly when the addresses that matter were recorded.
-/
theorem backstop_erases_the_same
    (c : Casing)
    (userId : String)
    (emails : List String)
    (db : Db) :
    eraseUserData c
          { userId := userId
            emails := recordedEmails c userId db }
          db =
        eraseUserData c
          { userId := userId, emails := emails } db ↔
      Recoverable c userId emails db := by
  have hSame :
      SameAddress c
          { userId := userId
            emails := recordedEmails c userId db }
          { userId := userId, emails := emails } =
        fun text =>
          (AddressRecorded c userId db text ↔
            AddressOf c emails text) := by
    funext text
    apply propext
    rw [SameAddress, Bool.eq_iff_iff, hasAddress_recorded_iff,
      hasAddress_iff]
  rw [Recoverable, ← hSame]
  apply eraseUserData_eq_iff
  rfl

/- Ann has been sent mail, and has done nothing else. -/
def welcomed : Db :=
  { Db.empty with
    emailLog :=
      [{ orgId := "org_1"
         recipientEmail := "ann@example.test"
         kind := "member_audit"
         status := "sent"
         timestamp := 0 }] }

/- The mail log still says who got it. -/
theorem backstop_leaves_mail :
    ¬ ∀ (c : Casing)
        (userId : String)
        (emails : List String)
        (db : Db),
      eraseUserData c
          { userId := userId
            emails := recordedEmails c userId db }
          db =
        eraseUserData c
          { userId := userId, emails := emails } db := by
  intro hAll
  have hSame :=
    hAll asciiCasing "user_1" ["ann@example.test"] welcomed
  have hNone :
      recordedEmails asciiCasing "user_1" welcomed = [] := by
    simp [recordedEmails, recordedTexts, welcomed, Db.empty]
  rw [hNone] at hSame
  have hMail :=
    congrArg (fun db => db.emailLog.length) hSame
  revert hMail
  decide

end Privacy

end SentinelCommand
