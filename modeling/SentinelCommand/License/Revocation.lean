import SentinelCommand.License.Gate
import SentinelCommand.Lib.Run
import Mathlib.Data.List.Induction

/-
  What an outage does to a revoked licence.

  A history is a list of check-ins. A licence is revoked
  when the last answer in the history was "not valid". The
  gate closes at that answer, but it keeps the stamp of the
  last valid one, and an unreachable check-in switches it
  back to the grace window measured from that stamp.

  Main declarations:
    * `License.Revoked`
    * `License.revocation_kept_iff`
    * `License.revocation_undone_by_outage`
-/

--------------------
-- Histories
--------------------

namespace SentinelCommand

namespace License

/- One check-in and the instant it ran at. -/
structure CheckIn where
  ranAt : Int
  answer : Answer
  deriving DecidableEq, Repr

variable (licenseKey : Option String)

def step (rows : Rows) (c : CheckIn) : Rows :=
  checkIn licenseKey rows c.ranAt c.answer

/- The rows left by a history on a fresh install. -/
def rowsAfter (history : List CheckIn) : Rows :=
  Run.exec (step licenseKey) {} history

/- The verdict of one check-in over the one before it. -/
def verdictStep
    (before : Option Bool)
    (c : CheckIn) : Option Bool :=
  match c.answer with
  | .unreachable => before
  | .reached valid _ => some (valid.getD false)

/- The last answer of a history, `none` when it has none. -/
def lastVerdict (history : List CheckIn) : Option Bool :=
  Run.exec verdictStep none history

/- The last answer recorded is "not valid". -/
def Revoked (history : List CheckIn) : Prop :=
  lastVerdict history = some false

/-
  A failed attempt made while the stored verdict is invalid
  comes more than the grace window after the last valid
  answer, if there ever was one.
-/
def OutsideGrace (rows : Rows) (c : CheckIn) : Prop :=
  c.answer = .unreachable → rows.licenseValid = "false" →
    ∀ lastOkAt, rows.lastOkAt = some lastOkAt →
      hours GRACE_HOURS < c.ranAt - lastOkAt

/-
  A revoked licence stays closed: in every part of the
  history that ends revoked, the gate is shut from the last
  check-in on.
-/
def RevocationKept (history : List CheckIn) : Prop :=
  ∀ past, past <+: history → Revoked past →
    ∀ now, (∀ c ∈ past, c.ranAt ≤ now) →
      isSentinelLicensed (selfHosted licenseKey)
        (rowsAfter licenseKey past) now = false

variable {licenseKey : Option String} {key : String}

@[simp] theorem step_unreachable
    (hKey : configuredKey licenseKey = some key)
    (rows : Rows)
    (now : Int) :
    step licenseKey rows ⟨now, .unreachable⟩ =
      storeUnreachable rows now := by
  simp [step, checkIn, hKey]

@[simp] theorem step_reached
    (hKey : configuredKey licenseKey = some key)
    (rows : Rows)
    (now : Int)
    (valid sync : Option Bool) :
    step licenseKey rows ⟨now, .reached valid sync⟩ =
      storeAnswer rows now (valid.getD false)
        (valid.getD false && sync.getD false) := by
  simp [step, checkIn, hKey]

theorem rowsAfter_snoc
    (history : List CheckIn)
    (c : CheckIn) :
    rowsAfter licenseKey (history ++ [c]) =
      step licenseKey (rowsAfter licenseKey history) c := by
  simp [rowsAfter, Run.exec_append]

theorem lastVerdict_snoc
    (history : List CheckIn)
    (c : CheckIn) :
    lastVerdict (history ++ [c]) =
      verdictStep (lastVerdict history) c := by
  simp [lastVerdict, Run.exec_append]

/- Without a configured key nothing is ever written. -/
theorem rowsAfter_of_no_key
    (hKey : configuredKey licenseKey = none)
    (history : List CheckIn) :
    rowsAfter licenseKey history = {} := by
  induction history using List.reverseRecOn with
  | nil => rfl
  | append_singleton history c ih =>
      rw [rowsAfter_snoc, ih]
      simp [step, checkIn, hKey]

/- The stored verdict is the last answer of the history. -/
theorem licenseValid_rowsAfter
    (hKey : configuredKey licenseKey = some key)
    (history : List CheckIn) :
    (rowsAfter licenseKey history).licenseValid =
      ((lastVerdict history).map boolStr).getD "" := by
  induction history using List.reverseRecOn with
  | nil => rfl
  | append_singleton history c ih =>
      rw [rowsAfter_snoc, lastVerdict_snoc]
      rcases c with ⟨now, _ | ⟨valid, sync⟩⟩
      · simpa [step_unreachable hKey, storeUnreachable,
          verdictStep] using ih
      · simp [step_reached hKey, storeAnswer, verdictStep]

/- A history is revoked when the stored verdict says so. -/
theorem revoked_iff_licenseValid
    (hKey : configuredKey licenseKey = some key)
    (history : List CheckIn) :
    Revoked history ↔
      (rowsAfter licenseKey history).licenseValid =
        "false" := by
  rw [licenseValid_rowsAfter hKey, Revoked]
  cases lastVerdict history with
  | none => simp
  | some valid => simp [boolStr_eq_false_iff]

--------------------
-- Outages
--------------------

/-
  After an unreachable check-in on an invalid verdict, the
  stamp of the last valid answer is out of the grace window
  of the last attempt.
-/
def GraceSpent (rows : Rows) : Prop :=
  rows.licenseValid = "false" →
    rows.lastCheckReachable ≠ "true" →
      ∀ lastOkAt, rows.lastOkAt = some lastOkAt →
        ∃ lastCheckAt, rows.lastCheckAt = some lastCheckAt ∧
          hours GRACE_HOURS < lastCheckAt - lastOkAt

theorem graceSpent_step
    (rows : Rows)
    (c : CheckIn)
    (hSpent : GraceSpent rows)
    (hOk : OutsideGrace rows c) :
    GraceSpent (step licenseKey rows c) := by
  cases hKey : configuredKey licenseKey with
  | none => simpa [step, checkIn, hKey] using hSpent
  | some key =>
      rcases c with ⟨now, _ | ⟨valid, sync⟩⟩
      · rw [step_unreachable hKey]
        intro hInvalid _ lastOkAt hLastOk
        exact ⟨now, rfl, hOk rfl hInvalid lastOkAt hLastOk⟩
      · rw [step_reached hKey]
        intro _ hNotReachable
        exact absurd rfl hNotReachable

/- The last check-in stored is one of the history. -/
theorem lastCheckAt_mem
    {history : List CheckIn}
    {lastCheckAt : Int}
    (hStored :
      (rowsAfter licenseKey history).lastCheckAt =
        some lastCheckAt) :
    ∃ c ∈ history, c.ranAt = lastCheckAt := by
  induction history using List.reverseRecOn with
  | nil => cases hStored
  | append_singleton history c ih =>
      rw [rowsAfter_snoc] at hStored
      cases hKey : configuredKey licenseKey with
      | none =>
          have hBefore :
              (rowsAfter licenseKey history).lastCheckAt =
                some lastCheckAt := by
            simpa [step, checkIn, hKey] using hStored
          rcases ih hBefore with ⟨d, hMem, hAt⟩
          exact ⟨d, by simp [hMem], hAt⟩
      | some key =>
          refine ⟨c, by simp, ?_⟩
          rcases c with ⟨now, _ | ⟨valid, sync⟩⟩
          · simpa [step_unreachable hKey, storeUnreachable]
              using hStored
          · simpa [step_reached hKey, storeAnswer]
              using hStored

/- Outages outside the grace window leave the gate shut. -/
theorem closed_of_graceSpent
    {history : List CheckIn}
    (hRevoked : Revoked history)
    (hSpent : GraceSpent (rowsAfter licenseKey history))
    {now : Int}
    (hNow : ∀ c ∈ history, c.ranAt ≤ now) :
    isSentinelLicensed (selfHosted licenseKey)
      (rowsAfter licenseKey history) now = false := by
  cases hKey : configuredKey licenseKey with
  | none => exact not_licensed_of_no_key hKey _ now
  | some key =>
      have hInvalid :=
        (revoked_iff_licenseValid hKey history).mp hRevoked
      by_cases hReachable :
          (rowsAfter licenseKey history).lastCheckReachable =
            "true"
      · rw [licensed_of_reachable hKey hReachable, hInvalid]
        decide
      · rw [Bool.eq_false_iff]
        intro hLicensed
        rcases
            (licensed_iff_in_grace hKey hReachable now).mp
              hLicensed with
          ⟨lastOkAt, hLastOk, hGrace⟩
        rcases hSpent hInvalid hReachable lastOkAt hLastOk with
          ⟨lastCheckAt, hLastCheck, hOutside⟩
        rcases lastCheckAt_mem hLastCheck with ⟨c, hMem, rfl⟩
        have hLater := hNow c hMem
        omega

/-
  An outage inside the grace window reopens the gate at the
  very instant of the failed attempt.
-/
theorem reopened_of_inside_grace
    (hKey : configuredKey licenseKey = some key)
    {rows : Rows}
    {lastOkAt now : Int}
    (hLastOk : rows.lastOkAt = some lastOkAt)
    (hInside : now - lastOkAt ≤ hours GRACE_HOURS) :
    isSentinelLicensed (selfHosted licenseKey)
      (step licenseKey rows ⟨now, .unreachable⟩) now =
        true := by
  rw [step_unreachable hKey]
  apply (licensed_iff_in_grace hKey (by
    simp [storeUnreachable]) now).mpr
  exact ⟨lastOkAt, hLastOk, hInside⟩

/-
  Every outage of a kept history is outside the grace
  window: an outage inside it would open the gate.
-/
theorem outsideGrace_of_kept
    {history : List CheckIn}
    (hKept : RevocationKept licenseKey history)
    {past : List CheckIn}
    {c : CheckIn}
    (hPrefix : past ++ [c] <+: history)
    (hLatest : ∀ d ∈ past, d.ranAt ≤ c.ranAt) :
    OutsideGrace (rowsAfter licenseKey past) c := by
  rcases c with ⟨now, answer⟩
  intro hUnreachable hInvalid lastOkAt hLastOk
  change answer = .unreachable at hUnreachable
  change ∀ d ∈ past, d.ranAt ≤ now at hLatest
  change hours GRACE_HOURS < now - lastOkAt
  subst hUnreachable
  by_contra hInside
  cases hKey : configuredKey licenseKey with
  | none =>
      rw [rowsAfter_of_no_key hKey] at hInvalid
      exact absurd hInvalid (by decide)
  | some key =>
      have hRevoked :
          Revoked (past ++ [⟨now, .unreachable⟩]) := by
        have hPast :=
          (revoked_iff_licenseValid hKey past).mpr hInvalid
        rw [Revoked, lastVerdict_snoc]
        exact hPast
      have hClosed :=
        hKept _ hPrefix hRevoked now (by
          intro d hMem
          rcases List.mem_append.mp hMem with hOld | hNew
          · exact hLatest d hOld
          · have hSame := List.mem_singleton.mp hNew
            subst hSame
            exact Int.le_refl now)
      rw [rowsAfter_snoc,
        reopened_of_inside_grace hKey hLastOk
          (by omega)] at hClosed
      cases hClosed

/-
  Over check-ins in time order, a revocation outlives every
  outage exactly when each failed attempt made on an invalid
  verdict comes more than 72 hours after the last valid
  answer.
-/
theorem revocation_kept_iff
    (licenseKey : Option String)
    (history : List CheckIn)
    (hOrder :
      history.Pairwise (fun a b => a.ranAt < b.ranAt)) :
    RevocationKept licenseKey history ↔
      Run.Meets (step licenseKey) OutsideGrace {}
        history := by
  constructor
  · intro hKept
    apply (Run.meets_iff_forall_prefix _ _ _ _).mpr
    intro past c hPrefix
    apply outsideGrace_of_kept hKept hPrefix
    intro d hMem
    have hPast := hOrder.sublist hPrefix.sublist
    have hLast := List.pairwise_append.mp hPast
    exact Int.le_of_lt (hLast.2.2 d hMem c (by simp))
  · intro hMeets past hPrefix hRevoked now hNow
    apply closed_of_graceSpent hRevoked _ hNow
    apply Run.invariant_of_prefix graceSpent_step _ hMeets
      hPrefix
    intro hInvalid
    exact absurd hInvalid (by decide)

/- A valid answer, a revocation, and a late outage. -/
def lateOutage : List CheckIn :=
  [ ⟨0, .reached (some true) none⟩,
    ⟨minutes 15, .reached (some false) none⟩,
    ⟨hours 100, .unreachable⟩ ]

theorem revocation_kept_iff_lateOutage :
    lateOutage.Pairwise (fun a b => a.ranAt < b.ranAt) ∧
      RevocationKept (some "key") lateOutage := by
  have hOrder :
      lateOutage.Pairwise (fun a b => a.ranAt < b.ranAt) := by
    simp [lateOutage, minutes, hours, seconds]
  refine ⟨hOrder, ?_⟩
  apply (revocation_kept_iff (some "key") lateOutage
    hOrder).mpr
  refine ⟨?_, ?_, ?_, trivial⟩
  · intro hUnreachable
    cases hUnreachable
  · intro hUnreachable
    cases hUnreachable
  · intro _ _ lastOkAt hLastOk
    have hZero : (0 : Int) = lastOkAt :=
      Option.some.inj hLastOk
    subst hZero
    decide

/-
  Valid at start, revoked a quarter of an hour later, and
  the service down at the next check-in: the gate is open
  again.
-/
theorem revocation_undone_by_outage :
    ¬ ∀ (licenseKey : Option String)
        (history : List CheckIn),
      history.Pairwise (fun a b => a.ranAt < b.ranAt) →
        RevocationKept licenseKey history := by
  intro hKept
  have hClosed :=
    hKept (some "key")
      [ ⟨0, .reached (some true) none⟩,
        ⟨minutes 15, .reached (some false) none⟩,
        ⟨minutes 30, .unreachable⟩ ]
      (by simp [minutes, seconds])
      _ (List.prefix_refl _) rfl (minutes 30)
      (by simp [minutes, seconds])
  exact absurd hClosed (by decide)

end License

end SentinelCommand
