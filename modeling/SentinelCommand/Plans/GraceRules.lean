import SentinelCommand.Plans.Grace

/-
  Rules for threads that read and write the past-due flag and
  its anchor.

  A stored anchor is not before the spell it is stored in,
  and a plan is tightened once the grace of the spell that
  was read has passed. The rules say what each statement, and
  each answer, needs for this to stay true.

  Key definitions include:
    * `Plans.Grace.Honoured`
    * `Plans.Grace.graced`

  Key theorems include:
    * `Plans.Grace.anchored_written`
    * `Plans.Grace.anchored_raised`
-/

--------------------
-- Spells
--------------------

namespace SentinelCommand

namespace Plans

namespace Grace

theorem spellsOf_append
    (spells more : List Spell)
    (orgId : String) :
    spellsOf (spells ++ more) orgId =
      spellsOf spells orgId ++ spellsOf more orgId := by
  unfold spellsOf
  rw [List.filter_append]

/- Earlier spells stay what they were. -/
theorem enteredAt_of_longer
    {spells spells' : List Spell}
    {orgId : String}
    {seen : Nat}
    (hLonger : spells <+: spells')
    (hSeen : seen ≤ (spellsOf spells orgId).length) :
    enteredAt spells' orgId seen =
      enteredAt spells orgId seen := by
  rcases hLonger with ⟨more, rfl⟩
  unfold enteredAt
  rw [spellsOf_append, List.take_append_of_le_length hSeen]

theorem length_spellsOf_le
    {spells spells' : List Spell}
    (hLonger : spells <+: spells')
    (orgId : String) :
    (spellsOf spells orgId).length ≤
      (spellsOf spells' orgId).length := by
  rcases hLonger with ⟨more, rfl⟩
  rw [spellsOf_append, List.length_append]
  exact Nat.le_add_right _ _

/- A new spell is the last one of its organization. -/
theorem entered_append_same
    (spells : List Spell)
    (orgId : String)
    (since : Int) :
    entered (spells ++ [{ orgId := orgId, since := since }])
        orgId =
      some since := by
  have hOne :
      spellsOf [{ orgId := orgId, since := since }] orgId =
        [{ orgId := orgId, since := since }] := by
    unfold spellsOf
    rw [List.filter_singleton, beq_self_eq_true]
    rfl
  unfold entered enteredAt
  rw [List.take_length, spellsOf_append, hOne,
    List.getLast?_concat]
  rfl

theorem entered_append_other
    (spells : List Spell)
    {orgId other : String}
    (since : Int)
    (hOther : other ≠ orgId) :
    entered (spells ++ [{ orgId := other, since := since }])
        orgId =
      entered spells orgId := by
  have hNone :
      spellsOf [{ orgId := other, since := since }] orgId =
        [] := by
    unfold spellsOf
    rw [List.filter_singleton, beq_false_of_ne hOther]
    rfl
  unfold entered enteredAt
  rw [spellsOf_append, hNone, List.append_nil]

end Grace

end Plans

--------------------
-- Conditions and Invariant
--------------------

namespace Plans

namespace Grace

open Interleaving

/- Tightened plans were due more than a grace period ago. -/
def Honoured (answer : GraceAnswer) : Prop :=
  answer.slug = "free_org" → answer.nominal ≠ "free_org" →
    ∃ since ∈ answer.entered,
      hours (24 * paymentGraceDays) < answer.clock - since

instance (answer : GraceAnswer) :
    Decidable (Honoured answer) :=
  inferInstanceAs
    (Decidable
      (answer.slug = "free_org" →
        answer.nominal ≠ "free_org" →
          ∃ since ∈ answer.entered,
            hours (24 * paymentGraceDays) <
              answer.clock - since))

/-
  When a flag goes up, no anchor older than the new spell is
  stored; an anchor is not written under a later spell than
  its own; and no spell begins between the reading of an
  anchor past its grace and an answer that comes of it.
-/
def graced
    (ctx : PlanContext) : GraceLabel → GraceState → Prop
| .free, _ => True
| .enter orgId since, s =>
    pastDueFlag s.table orgId ≠ "true" →
      ∀ anchor ∈ anchorOf ctx s.table orgId,
        since.getD s.clock ≤ anchor
| .anchor orgId stamp, s =>
    ∀ anchor ∈ instantOf ctx stamp,
      ∃ since ∈ entered s.spells orgId, since ≤ anchor
| .hit orgId began, s =>
    ∀ cached ∈ found s orgId began,
      ∀ seen ∈ cached.overdue,
        (spellsOf s.spells orgId).length = seen
| .answer orgId overdue, s =>
    ∀ seen ∈ overdue, (spellsOf s.spells orgId).length = seen

instance decidableGraced
    (ctx : PlanContext) :
    (label : GraceLabel) → (s : GraceState) →
      Decidable (graced ctx label s)
| .free, _ => isTrue trivial
| .enter orgId since, s =>
    inferInstanceAs
      (Decidable
        (pastDueFlag s.table orgId ≠ "true" →
          ∀ anchor ∈ anchorOf ctx s.table orgId,
            since.getD s.clock ≤ anchor))
| .anchor orgId stamp, s =>
    inferInstanceAs
      (Decidable
        (∀ anchor ∈ instantOf ctx stamp,
          ∃ since ∈ entered s.spells orgId, since ≤ anchor))
| .hit orgId began, s =>
    inferInstanceAs
      (Decidable
        (∀ cached ∈ found s orgId began,
          ∀ seen ∈ cached.overdue,
            (spellsOf s.spells orgId).length = seen))
| .answer orgId overdue, s =>
    inferInstanceAs
      (Decidable
        (∀ seen ∈ overdue,
          (spellsOf s.spells orgId).length = seen))

/- After its first `seen` spells the grace has passed. -/
structure Outgraced
    (s : GraceState)
    (orgId : String)
    (seen : Nat) : Prop where
  past : seen ≤ (spellsOf s.spells orgId).length
  since :
    ∃ since, enteredAt s.spells orgId seen = some since ∧
      hours (24 * paymentGraceDays) < s.clock - since

/- A plan that is tightened comes of a grace that passed. -/
def Tightened
    (s : GraceState)
    (orgId slug nominal : String)
    (overdue : Option Nat) : Prop :=
  slug ≠ nominal →
    ∃ seen ∈ overdue, Outgraced s orgId seen

/- A stored anchor is not before the last spell. -/
def Anchored
    (ctx : PlanContext)
    (s : GraceState) : Prop :=
  ∀ orgId anchor, anchorOf ctx s.table orgId = some anchor →
    ∃ since, entered s.spells orgId = some since ∧
      since ≤ anchor

structure GraceInv
    (ctx : PlanContext)
    (s : GraceState) : Prop where
  anchored : Anchored ctx s
  cached :
    ∀ orgId cached, s.effective.lookup orgId = some cached →
      Tightened s orgId cached.slug cached.nominal
        cached.overdue
  answers : ∀ answer ∈ s.answers, Honoured answer

/- Time does not go back, and rows and spells are kept. -/
structure GraceGuar (s s' : GraceState) : Prop where
  clock : s.clock ≤ s'.clock
  rows :
    ∀ orgId key row, s.table.select orgId key = some row →
      (s'.table.select orgId key).map SettingsRow.id =
        some row.id
  spells : s.spells <+: s'.spells

/- The same for every program. -/
abbrev graceGuar (_ : Nat) : GraceState → GraceState → Prop :=
  GraceGuar

theorem graceGuar_of_same
    {s s' : GraceState}
    (hClock : s.clock ≤ s'.clock)
    (hTable : s'.table = s.table)
    (hSpells : s'.spells = s.spells) :
    GraceGuar s s' where
  clock := hClock
  rows := by
    intro orgId key row hSelect
    rw [hTable, hSelect]
    rfl
  spells := ⟨[], (List.append_nil _).trans hSpells.symm⟩

theorem outgraced_of_guar
    {s s' : GraceState}
    {orgId : String}
    {seen : Nat}
    (hGuar : GraceGuar s s')
    (hPast : Outgraced s orgId seen) :
    Outgraced s' orgId seen := by
  rcases hPast.since with ⟨since, hSince, hAge⟩
  have hClock := hGuar.clock
  refine ⟨Nat.le_trans hPast.past
    (length_spellsOf_le hGuar.spells orgId), since, ?_, ?_⟩
  · rw [enteredAt_of_longer hGuar.spells hPast.past]
    exact hSince
  · omega

theorem tightened_of_guar
    {s s' : GraceState}
    {orgId slug nominal : String}
    {overdue : Option Nat}
    (hGuar : GraceGuar s s')
    (hTight : Tightened s orgId slug nominal overdue) :
    Tightened s' orgId slug nominal overdue := by
  intro hOther
  rcases hTight hOther with ⟨seen, hSeen, hPast⟩
  exact ⟨seen, hSeen, outgraced_of_guar hGuar hPast⟩

theorem tightened_of_rely
    {id : Nat}
    {s s' : GraceState}
    {orgId slug nominal : String}
    {overdue : Option Nat}
    (hRely : Rely graceGuar id s s')
    (hTight : Tightened s orgId slug nominal overdue) :
    Tightened s' orgId slug nominal overdue := by
  apply rely_stable
    (P := fun now => Tightened now orgId slug nominal overdue)
    ?_ hRely hTight
  intro _ before after _ hGuar hBefore
  exact tightened_of_guar hGuar hBefore

/- A selected row is still the one of its pair. -/
theorem rows_of_rely
    {id : Nat}
    {s s' : GraceState}
    {orgId key : String}
    {row : SettingsRow}
    (hRely : Rely graceGuar id s s')
    (hSelect :
      (s.table.select orgId key).map SettingsRow.id =
        some row.id) :
    (s'.table.select orgId key).map SettingsRow.id =
      some row.id := by
  apply rely_stable
    (P := fun now =>
      (now.table.select orgId key).map SettingsRow.id =
        some row.id) ?_ hRely hSelect
  intro _ before after _ hGuar hBefore
  rcases Option.map_eq_some_iff.mp hBefore with
    ⟨old, hOld, hId⟩
  rw [hGuar.rows orgId key old hOld, hId]

/- Without a spell in between, the answer is honoured. -/
theorem honoured_of_tightened
    {s : GraceState}
    {orgId slug nominal : String}
    {overdue : Option Nat}
    (hTight : Tightened s orgId slug nominal overdue)
    (hSame :
      ∀ seen ∈ overdue,
        (spellsOf s.spells orgId).length = seen) :
    Honoured (noted s orgId slug nominal) := by
  intro hFree hPaid
  have hOther : slug ≠ nominal := by
    intro hEqual
    apply hPaid
    exact hEqual.symm.trans hFree
  rcases hTight hOther with ⟨seen, hSeen, hPast⟩
  rcases hPast.since with ⟨since, hSince, hAge⟩
  rw [← hSame seen hSeen] at hSince
  exact ⟨since, hSince, hAge⟩

end Grace

end Plans

--------------------
-- Writes
--------------------

namespace Plans

namespace Grace

open Interleaving

variable {ctx : PlanContext}
variable {s : GraceState}
variable {orgId key value : String}
variable {since : Option Int}

/- The selected row is the one its pair still has. -/
def RowNow
    (s : GraceState)
    (orgId key : String)
    (existing : Option SettingsRow) : Prop :=
  ∀ row, existing = some row →
    (s.table.select orgId key).map SettingsRow.id =
      some row.id

theorem graceGuar_written
    (existing : Option SettingsRow) :
    GraceGuar s (s.written existing orgId key value since) where
  clock := Int.le_refl _
  rows _ _ _ hSelect := select_id_write existing hSelect
  spells := ⟨_, rfl⟩

/- No set but one that raises a flag begins a spell. -/
theorem newSpell_eq_nil
    {existing : Option SettingsRow}
    (hRow : RowNow s orgId key existing)
    (hFlag : key = "payment_past_due" → value ≠ "true")
    (begun : Int) :
    newSpell s.table (s.table.write existing orgId key value)
      orgId begun = [] := by
  unfold newSpell
  apply if_neg
  rintro ⟨hBefore, hAfter⟩
  unfold pastDueFlag at hBefore hAfter
  by_cases hSame : key = "payment_past_due"
  · subst hSame
    rcases get_write_same value existing hRow
      "false" with hWritten | hHidden
    · exact hFlag rfl (hWritten.symm.trans hAfter)
    · exact hBefore (hHidden.symm.trans hAfter)
  · rw [get_write_other existing hRow
      (fun h => hSame h.2.symm)] at hAfter
    exact hBefore hAfter

/- An anchor that is there after a set. -/
theorem anchorOf_written
    {existing : Option SettingsRow}
    {org : String}
    {anchor : Int}
    (hRow : RowNow s orgId key existing)
    (hAnchor :
      anchorOf ctx (s.table.write existing orgId key value)
        org = some anchor) :
    anchorOf ctx s.table org = some anchor ∨
      (org = orgId ∧ key = "payment_past_due_at" ∧
        instantOf ctx value = some anchor) := by
  unfold anchorOf at hAnchor
  by_cases hSame : org = orgId ∧ "payment_past_due_at" = key
  · rcases hSame with ⟨rfl, rfl⟩
    rcases get_write_same value existing hRow ""
      with hWritten | hHidden
    · rw [hWritten] at hAnchor
      exact Or.inr ⟨rfl, rfl, hAnchor⟩
    · rw [hHidden] at hAnchor
      exact Or.inl hAnchor
  · rw [get_write_other existing hRow hSame] at hAnchor
    exact Or.inl hAnchor

/- A set that leaves the flag, or lowers it. -/
theorem anchored_written
    {existing : Option SettingsRow}
    (hInv : Anchored ctx s)
    (hRow : RowNow s orgId key existing)
    (hFlag : key = "payment_past_due" → value ≠ "true")
    (hAnchor :
      key = "payment_past_due_at" →
        ∀ anchor ∈ instantOf ctx value,
          ∃ since ∈ entered s.spells orgId,
            since ≤ anchor) :
    Anchored ctx
      (s.written existing orgId key value since) := by
  intro org anchor hStored
  unfold GraceState.written at hStored ⊢
  dsimp only at hStored ⊢
  rw [newSpell_eq_nil hRow hFlag, List.append_nil]
  rcases anchorOf_written hRow hStored with
    hOld | ⟨rfl, hKey, hNew⟩
  · exact hInv org anchor hOld
  · exact hAnchor hKey anchor hNew

/- A set that raises the flag, beside no older anchor. -/
theorem anchored_raised
    {existing : Option SettingsRow}
    (hInv : Anchored ctx s)
    (hRow : RowNow s orgId "payment_past_due" existing)
    (hOk : graced ctx (.enter orgId since) s) :
    Anchored ctx
      (s.written existing orgId "payment_past_due" "true"
        since) := by
  intro org anchor hStored
  have hOld : anchorOf ctx s.table org = some anchor := by
    rcases anchorOf_written hRow hStored with
      hOld | ⟨_, hKey, _⟩
    · exact hOld
    · exact absurd hKey (by decide)
  unfold GraceState.written newSpell
  dsimp only
  split
  · rename_i hRaised
    by_cases hSame : orgId = org
    · subst hSame
      rw [entered_append_same]
      exact ⟨_, rfl, hOk hRaised.1 anchor hOld⟩
    · rw [entered_append_other _ _ hSame]
      exact hInv org anchor hOld
  · rw [List.append_nil]
    exact hInv org anchor hOld

/- A step that keeps the answers and what is cached. -/
theorem graceInv_of_guar
    {s' : GraceState}
    (hInv : GraceInv ctx s)
    (hGuar : GraceGuar s s')
    (hAnchored : Anchored ctx s')
    (hCached :
      ∀ org cached, s'.effective.lookup org = some cached →
        s.effective.lookup org = some cached)
    (hAnswers : s'.answers = s.answers) :
    GraceInv ctx s' where
  anchored := hAnchored
  cached org cached hLookup :=
    tightened_of_guar hGuar
      (hInv.cached org cached (hCached org cached hLookup))
  answers := by
    rw [hAnswers]
    exact hInv.answers

end Grace

end Plans

--------------------
-- Rules
--------------------

namespace Plans

namespace Grace

open Interleaving

variable {ctx : PlanContext}
variable {id : Nat}
variable {s : GraceState}
variable {orgId : String}

abbrev GraceValid
    (ctx : PlanContext)
    (id : Nat) : GraceState → GraceProgram → Prop :=
  Valid (GraceInv ctx) graceGuar (graced ctx) id

theorem valid_readSetting
    {reads : Bool}
    {key default : String}
    {next : String → GraceProgram}
    (hNext :
      ∀ after text, GraceValid ctx id after (next text)) :
    GraceValid ctx id s
      (readSetting reads orgId key default next) := by
  unfold readSetting
  apply valid_atomic
  intro now _ hInv _
  exact
    ⟨hInv, graceGuar_of_same (Int.le_refl _) rfl rfl,
      hNext now _⟩

/- The rule for a set of any setting. -/
theorem valid_setSetting
    {label : GraceLabel}
    {since : Option Int}
    {key value : String}
    {next : GraceProgram}
    (hKeeps :
      ∀ now existing, GraceInv ctx now →
        graced ctx label now → RowNow now orgId key existing →
          Anchored ctx
            (now.written existing orgId key value since))
    (hNext : ∀ after, GraceValid ctx id after next) :
    GraceValid ctx id s
      (setSetting label since orgId key value next) := by
  unfold setSetting
  apply valid_atomic
  intro seen _ hSeen _
  refine
    ⟨hSeen, graceGuar_of_same (Int.le_refl _) rfl rfl, ?_⟩
  dsimp only
  split
  · exact hNext seen
  · apply valid_atomic
    intro now hRely hInv hOk
    have hRow :
        RowNow now orgId key
          (seen.table.select orgId key) := by
      intro row hSelect
      apply rows_of_rely hRely
      rw [hSelect]
      rfl
    have hGuar :
        GraceGuar now
          (now.written (seen.table.select orgId key) orgId key
            value since) :=
      graceGuar_written _
    refine ⟨?_, hGuar, hNext _⟩
    exact
      graceInv_of_guar hInv hGuar (hKeeps now _ hInv hOk hRow)
        (fun _ _ hLookup => hLookup) rfl

theorem valid_setPlain
    {key value : String}
    {next : GraceProgram}
    (hFlag : key = "payment_past_due" → value ≠ "true")
    (hAnchor : key = "payment_past_due_at" → value = "")
    (hNext : ∀ after, GraceValid ctx id after next) :
    GraceValid ctx id s (setPlain orgId key value next) := by
  unfold setPlain
  apply valid_setSetting ?_ hNext
  intro now existing hInv _ hRow
  apply anchored_written hInv.anchored hRow hFlag
  intro hKey anchor hInstant
  rw [hAnchor hKey] at hInstant
  cases hInstant

theorem valid_raiseFlag
    {since : Option Int}
    {next : GraceProgram}
    (hNext : ∀ after, GraceValid ctx id after next) :
    GraceValid ctx id s (raiseFlag orgId since next) := by
  unfold raiseFlag
  apply valid_setSetting ?_ hNext
  intro now existing hInv hOk hRow
  exact anchored_raised hInv.anchored hRow hOk

theorem valid_writeAnchor
    {stamp : String}
    {next : GraceProgram}
    (hNext : ∀ after, GraceValid ctx id after next) :
    GraceValid ctx id s (writeAnchor orgId stamp next) := by
  unfold writeAnchor
  apply valid_setSetting ?_ hNext
  intro now existing hInv hOk hRow
  apply anchored_written hInv.anchored hRow
  · intro hKey
    exact absurd hKey (by decide)
  · intro _
    exact hOk

theorem valid_invalidate
    {next : GraceProgram}
    (hNext : ∀ after, GraceValid ctx id after next) :
    GraceValid ctx id s
      (invalidateEffectivePlanCache orgId next) := by
  unfold invalidateEffectivePlanCache
  apply valid_atomic
  intro now _ hInv _
  have hGuar :
      GraceGuar now
        { now with
          effective := now.effective.erase orgId } :=
    graceGuar_of_same (Int.le_refl _) rfl rfl
  refine ⟨?_, hGuar, hNext _⟩
  apply graceInv_of_guar hInv hGuar hInv.anchored ?_ rfl
  intro org cached hLookup
  by_cases hSame : org = orgId
  · subst hSame
    rw [AList.lookup_erase] at hLookup
    cases hLookup
  · rw [AList.lookup_erase_ne hSame] at hLookup
    exact hLookup

end Grace

end Plans

end SentinelCommand
