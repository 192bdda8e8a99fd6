import SentinelCommand.Clock

/-
  The self-hosted licence gate of `license.rs`.

  A check-in asks the licence service once and stores its
  verdict in `settings` rows; the gate only reads those
  rows. Instants are microseconds, which is what the rows
  hold: both timestamp rows are written by `check_in` in one
  fixed UTC format, so a stored stamp is modelled by the
  instant it spells and an absent row by `none`. The other
  rows are compared as text, an absent one reading as `""`.

  Key definitions include:
    * `License.Rows`
    * `License.checkIn`
    * `License.isSentinelLicensed`
-/

--------------------
-- Stored Verdict
--------------------

namespace SentinelCommand

namespace License

def GRACE_HOURS : Int := 72

/- The one plan slug the licence gate applies to. -/
def LICENSE_GATED_PLAN : String := "self_host"

/- The settings rows a check-in writes. -/
structure Rows where
  lastCheckAt : Option Int := none
  lastCheckReachable : String := ""
  licenseValid : String := ""
  syncEnabled : String := ""
  lastOkAt : Option Int := none
  deriving DecidableEq, Repr

/- Everything the read-side gate needs besides the rows. -/
structure LicenseContext where
  localAuth : Bool
  licenseKey : Option String

/- The key when it is configured and not empty. -/
def configuredKey (licenseKey : Option String) :
    Option String :=
  licenseKey.filter (fun key => key ≠ "")

def boolStr (value : Bool) : String :=
  if value then "true" else "false"

theorem boolStr_eq_false_iff (value : Bool) :
    boolStr value = "false" ↔ value = false := by
  cases value <;> decide

/-
  What one round trip came back with. A network failure, a
  non-2xx status and a body that is not an object all count
  as unreachable. The fields of an object are given by their
  truthiness, `none` when absent.
-/
inductive Answer where
  | unreachable
  | reached (valid syncEnabled : Option Bool)
  deriving DecidableEq, Repr

/- The rows written when the service gave no answer. -/
def storeUnreachable
    (rows : Rows)
    (now : Int) : Rows :=
  { rows with
    lastCheckAt := some now
    lastCheckReachable := "false" }

/- The rows written for an answer, in the source's order. -/
def storeAnswer
    (rows : Rows)
    (now : Int)
    (valid sync : Bool) : Rows :=
  { rows with
    lastCheckAt := some now
    lastCheckReachable := "true"
    licenseValid := boolStr valid
    syncEnabled := boolStr sync
    lastOkAt := if valid then some now else rows.lastOkAt }

/-
  `check_in` with every settings write succeeding. Without a
  configured key nothing is asked and nothing is written.
-/
def checkIn
    (licenseKey : Option String)
    (rows : Rows)
    (now : Int)
    (answer : Answer) : Rows :=
  match configuredKey licenseKey, answer with
  | none, _ => rows
  | some _, .unreachable => storeUnreachable rows now
  | some _, .reached valid syncEnabled =>
      let valid := valid.getD false
      storeAnswer rows now valid
        (valid && syncEnabled.getD false)

--------------------
-- Gate
--------------------

/- Hosted organizations are always licensed. -/
def isSentinelLicensed
    (ctx : LicenseContext)
    (rows : Rows)
    (now : Int) : Bool :=
  if !ctx.localAuth then
    true
  else if (configuredKey ctx.licenseKey).isNone then
    false
  else if rows.lastCheckReachable = "true" then
    rows.licenseValid = "true"
  else
    match rows.lastOkAt with
    | none => false
    | some lastOkAt => now - lastOkAt ≤ hours GRACE_HOURS

/- The gate of the cloud data-sync tier. -/
def isSyncEnabled
    (ctx : LicenseContext)
    (rows : Rows)
    (now : Int) : Bool :=
  if !ctx.localAuth ||
      (configuredKey ctx.licenseKey).isNone then
    false
  else if !isSentinelLicensed ctx rows now then
    false
  else
    rows.syncEnabled = "true"

/- Whether `plan` needs a licence and there is none. -/
def sentinelBlockedByLicense
    (ctx : LicenseContext)
    (rows : Rows)
    (now : Int)
    (plan : String) : Bool :=
  plan = LICENSE_GATED_PLAN &&
    !isSentinelLicensed ctx rows now

/- The context of a self-hosted install. -/
def selfHosted (licenseKey : Option String) :
    LicenseContext :=
  { localAuth := true, licenseKey := licenseKey }

/- Without a configured key a self-hosted install is closed. -/
theorem not_licensed_of_no_key
    {licenseKey : Option String}
    (hKey : configuredKey licenseKey = none)
    (rows : Rows)
    (now : Int) :
    isSentinelLicensed (selfHosted licenseKey) rows now =
      false := by
  simp [isSentinelLicensed, selfHosted, hKey]

/- After an answer the gate repeats it, with no grace. -/
theorem licensed_of_reachable
    {licenseKey : Option String}
    {key : String}
    (hKey : configuredKey licenseKey = some key)
    {rows : Rows}
    (hReachable : rows.lastCheckReachable = "true")
    (now : Int) :
    isSentinelLicensed (selfHosted licenseKey) rows now =
      decide (rows.licenseValid = "true") := by
  simp [isSentinelLicensed, selfHosted, hKey, hReachable]

/- After a failed attempt the gate leans on the grace window. -/
theorem licensed_iff_in_grace
    {licenseKey : Option String}
    {key : String}
    (hKey : configuredKey licenseKey = some key)
    {rows : Rows}
    (hReachable : rows.lastCheckReachable ≠ "true")
    (now : Int) :
    isSentinelLicensed (selfHosted licenseKey) rows now =
        true ↔
      ∃ lastOkAt, rows.lastOkAt = some lastOkAt ∧
        now - lastOkAt ≤ hours GRACE_HOURS := by
  cases hOk : rows.lastOkAt <;>
    simp [isSentinelLicensed, selfHosted, hKey, hReachable,
      hOk]

/- Data sync never outlives the licence it was sold with. -/
theorem licensed_of_sync
    {ctx : LicenseContext}
    {rows : Rows}
    {now : Int}
    (hSync : isSyncEnabled ctx rows now = true) :
    isSentinelLicensed ctx rows now = true := by
  unfold isSyncEnabled at hSync
  split at hSync
  · cases hSync
  · split at hSync
    · cases hSync
    · simp_all

end License

end SentinelCommand
