import SentinelCommand.Plans.PlanThreads

/-
  Rules for threads that write the stored plan.

  A thread notes the slug it is about to write, from the
  moment it learned it. The rules say what each statement of
  a set needs for the entitlements that a webhook has
  written to stay what is stored.

  Key definitions include:
    * `Plans.KeptInv`
    * `Plans.keptOk`

  Key theorems include:
    * `Plans.keptInv_write`
    * `Plans.keptStep_write`
-/

--------------------
-- The invariant
--------------------

namespace SentinelCommand

namespace Plans

open Interleaving

/-
  A confirmed entitlement is what is stored, and what any
  pending write is about to write.
-/
structure KeptInv (s : PlanState) : Prop where
  kept :
    ∀ orgId ∈ s.confirmed,
      s.table.settings orgId "org_plan" =
        some (s.entitlement orgId)
  pending :
    ∀ p ∈ s.pending, p.orgId ∈ s.confirmed →
      p.slug = s.entitlement p.orgId

/-
  A thread keeps the rows that are read, and the slugs that
  others are about to write.
-/
structure KeptGuar
    (id : Nat)
    (s s' : PlanState) : Prop where
  rows :
    ∀ orgId key row, s.table.select orgId key = some row →
      (s'.table.select orgId key).map SettingsRow.id =
        some row.id
  pending :
    ∀ p ∈ s.pending, p.id ≠ id → p ∈ s'.pending

/- What a thread may count on until it acts again. -/
structure KeptLater
    (id : Nat)
    (s s' : PlanState) : Prop where
  rows :
    ∀ orgId key row, s.table.select orgId key = some row →
      (s'.table.select orgId key).map SettingsRow.id =
        some row.id
  pending :
    ∀ p ∈ s.pending, p.id = id → p ∈ s'.pending

/- All others are about to write the entitlement itself. -/
def Alone (id : Nat) (orgId : String) (s : PlanState) : Prop :=
  ∀ p ∈ s.pending, p.id ≠ id → p.orgId = orgId →
    p.slug = s.entitlement orgId

instance
    (id : Nat)
    (orgId : String)
    (s : PlanState) :
    Decidable (Alone id orgId s) := by
  unfold Alone
  infer_instance

/-
  Once a webhook has written the entitlement, no webhook and
  no silent Clerk brings in another slug; and when a webhook
  writes it, nobody else is about to write another slug, and
  the row it writes is the one that is read.
-/
def keptOk : PlanLabel → PlanState → Prop
| .take orgId slug, s =>
    orgId ∈ s.confirmed → slug = s.entitlement orgId
| .check id orgId slug, s =>
    s.table.settings orgId "org_plan" = some slug →
      slug = s.entitlement orgId → Alone id orgId s
| .report id orgId slug existing, s =>
    slug = s.entitlement orgId →
      Alone id orgId s ∧
        (existing = none →
          s.table.select orgId "org_plan" = none ∨
            s.table.settings orgId "org_plan" = some slug)
| _, _ => True

instance decidableKeptOk
    (s : PlanState) :
    (label : PlanLabel) → Decidable (keptOk label s)
| .take orgId slug =>
    inferInstanceAs
      (Decidable
        (orgId ∈ s.confirmed → slug = s.entitlement orgId))
| .check id orgId slug =>
    inferInstanceAs
      (Decidable
        (s.table.settings orgId "org_plan" = some slug →
          slug = s.entitlement orgId → Alone id orgId s))
| .report id orgId slug existing =>
    inferInstanceAs
      (Decidable
        (slug = s.entitlement orgId →
          Alone id orgId s ∧
            (existing = none →
              s.table.select orgId "org_plan" = none ∨
                s.table.settings orgId "org_plan" =
                  some slug)))
| .quiet | .bare _ | .cache _ _ => isTrue trivial

abbrev KeptValid : Nat → PlanState → PlanProgram → Prop :=
  Valid KeptInv KeptGuar keptOk

--------------------
-- Rules
--------------------

variable {id : Nat} {s : PlanState}

theorem rows_trans
    {table' table'' : SettingsTable}
    {orgId key : String}
    {row : SettingsRow}
    (hFirst :
      (table'.select orgId key).map SettingsRow.id =
        some row.id)
    (hSecond :
      ∀ row, table'.select orgId key = some row →
        (table''.select orgId key).map SettingsRow.id =
          some row.id) :
    (table''.select orgId key).map SettingsRow.id =
      some row.id := by
  rcases Option.map_eq_some_iff.mp hFirst with
    ⟨mid, hMid, hId⟩
  rw [hSecond mid hMid, hId]

theorem keptLater_refl
    (id : Nat)
    (s : PlanState) : KeptLater id s s where
  rows orgId key row hSelect := by rw [hSelect]; rfl
  pending _ hMem _ := hMem

theorem keptLater_trans
    {s' s'' : PlanState}
    (hFirst : KeptLater id s s')
    (hSecond : KeptLater id s' s'') :
    KeptLater id s s'' where
  rows orgId key row hSelect :=
    rows_trans (hFirst.rows orgId key row hSelect)
      (hSecond.rows orgId key)
  pending p hMem hOwn :=
    hSecond.pending p (hFirst.pending p hMem hOwn) hOwn

theorem keptLater_of_rely
    {s' : PlanState}
    (hRely : Rely KeptGuar id s s') :
    KeptLater id s s' := by
  refine
    rely_stable (P := fun now => KeptLater id s now) ?_ hRely
      (keptLater_refl id s)
  intro other now after hOther hGuar hLater
  refine keptLater_trans hLater ⟨hGuar.rows, ?_⟩
  intro p hMem hOwn
  refine hGuar.pending p hMem ?_
  rintro hSame
  exact hOther (hSame.symm.trans hOwn)

/- The rule for a step: what it leaves, and what follows. -/
theorem valid_keptStep
    {α : Type}
    {label : PlanLabel}
    {f : PlanState → PlanState × α}
    {next : α → PlanProgram}
    (hStep :
      ∀ now, KeptLater id s now → KeptInv now →
        keptOk label now →
          KeptInv (f now).1 ∧ KeptGuar id now (f now).1 ∧
            KeptValid id (f now).1 (next (f now).2)) :
    KeptValid id s (atomic label f next) := by
  refine valid_atomic ?_
  intro now hRely hInv hOk
  exact hStep now (keptLater_of_rely hRely) hInv hOk

theorem keptGuar_trans
    {s' s'' : PlanState}
    (hFirst : KeptGuar id s s')
    (hSecond : KeptGuar id s' s'') :
    KeptGuar id s s'' where
  rows orgId key row hSelect :=
    rows_trans (hFirst.rows orgId key row hSelect)
      (hSecond.rows orgId key)
  pending p hMem hOther :=
    hSecond.pending p (hFirst.pending p hMem hOther) hOther

/- What a step leaves alone that touches no stored plan. -/
structure KeptSame (s s' : PlanState) : Prop where
  table : s'.table = s.table
  entitlement : s'.entitlement = s.entitlement
  pending : s'.pending = s.pending
  confirmed : s'.confirmed = s.confirmed

theorem keptSame_refl (s : PlanState) : KeptSame s s :=
  ⟨rfl, rfl, rfl, rfl⟩

theorem keptInv_same
    {s' : PlanState}
    (hInv : KeptInv s)
    (hSame : KeptSame s s') :
    KeptInv s' where
  kept := by
    rw [hSame.confirmed, hSame.table, hSame.entitlement]
    exact hInv.kept
  pending := by
    rw [hSame.confirmed, hSame.pending, hSame.entitlement]
    exact hInv.pending

theorem keptGuar_same
    {s' : PlanState}
    (hSame : KeptSame s s') :
    KeptGuar id s s' where
  rows := by
    rw [hSame.table]
    exact (keptLater_refl id s).rows
  pending p hMem _ := by
    rw [hSame.pending]
    exact hMem

theorem keptLater_same
    {s' : PlanState}
    (hSame : KeptSame s s') :
    KeptLater id s s' where
  rows := by
    rw [hSame.table]
    exact (keptLater_refl id s).rows
  pending p hMem _ := by
    rw [hSame.pending]
    exact hMem

/- The rule for a step beside the stored plans. -/
theorem valid_keptSame
    {α : Type}
    {label : PlanLabel}
    {f : PlanState → PlanState × α}
    {next : α → PlanProgram}
    (hSame : ∀ now, KeptSame now (f now).1)
    (hNext :
      ∀ after result, KeptLater id s after → KeptInv after →
        KeptValid id after (next result)) :
    KeptValid id s (atomic label f next) := by
  refine valid_keptStep ?_
  intro now hLater hInv _
  have hAfter := keptInv_same hInv (hSame now)
  exact
    ⟨hAfter, keptGuar_same (hSame now),
      hNext _ _
        (keptLater_trans hLater (keptLater_same (hSame now)))
        hAfter⟩

--------------------
-- Writes
--------------------

variable {id : Nat} {s : PlanState} {orgId value : String}

/- The thread is about to write the slug. -/
def Holding
    (s : PlanState)
    (id : Nat)
    (orgId slug : String) : Prop :=
  { id := id, orgId := orgId, slug := slug } ∈ s.pending

theorem holding_later
    {s' : PlanState}
    (hHolding : Holding s id orgId value)
    (hLater : KeptLater id s s') :
    Holding s' id orgId value :=
  hLater.pending _ hHolding rfl

theorem slug_of_holding
    (hInv : KeptInv s)
    (hHolding : Holding s id orgId value)
    (hConfirmed : orgId ∈ s.confirmed) :
    value = s.entitlement orgId :=
  hInv.pending _ hHolding hConfirmed

theorem keptInv_letGo
    (hInv : KeptInv s) :
    KeptInv (s.letGo id) where
  kept := hInv.kept
  pending p hMem :=
    hInv.pending p (List.mem_of_mem_filter hMem)

theorem keptGuar_letGo : KeptGuar id s (s.letGo id) where
  rows := (keptLater_refl id s).rows
  pending p hMem hOther :=
    List.mem_filter.mpr ⟨hMem, by simpa using hOther⟩

/- Confirming what is stored, with nobody against it. -/
theorem keptInv_confirm
    (hInv : KeptInv s)
    (hStored :
      value = s.entitlement orgId →
        s.table.settings orgId "org_plan" = some value ∧
          ∀ p ∈ s.pending, p.orgId = orgId →
            p.slug = s.entitlement orgId) :
    KeptInv (s.confirm orgId value) := by
  unfold PlanState.confirm
  split
  · rename_i hCurrent
    rcases hStored hCurrent with ⟨hRow, hOthers⟩
    refine ⟨?_, ?_⟩
    · intro org hMem
      rcases List.mem_cons.mp hMem with hSame | hOld
      · rw [hSame, hRow, hCurrent]
      · exact hInv.kept org hOld
    · intro p hPending hMem
      rcases List.mem_cons.mp hMem with hSame | hOld
      · rw [hOthers p hPending hSame, hSame]
      · exact hInv.pending p hPending hOld
  · exact hInv

theorem keptInv_stored
    {kind : WriteKind}
    (hInv : KeptInv s)
    (hConfirm :
      kind = .report → value = s.entitlement orgId →
        s.table.settings orgId "org_plan" = some value ∧
          Alone id orgId s) :
    KeptInv (s.stored kind id orgId value) := by
  cases kind with
  | aside | covered | bare => exact hInv
  | writeBack => exact keptInv_letGo hInv
  | report =>
      refine keptInv_confirm (keptInv_letGo hInv) ?_
      intro hCurrent
      rcases hConfirm rfl hCurrent with ⟨hRow, hAlone⟩
      refine ⟨hRow, ?_⟩
      intro p hMem hOrg
      rcases List.mem_filter.mp hMem with ⟨hPending, hOther⟩
      exact hAlone p hPending (by simpa using hOther) hOrg

theorem keptGuar_stored
    (kind : WriteKind)
    (orgId value : String) :
    KeptGuar id s (s.stored kind id orgId value) := by
  have hGo : KeptGuar id s (s.letGo id) := keptGuar_letGo
  cases kind with
  | aside | covered | bare =>
      exact keptGuar_same (keptSame_refl s)
  | writeBack => exact hGo
  | report =>
      unfold PlanState.stored PlanState.confirm
      dsimp only
      split
      · exact ⟨hGo.rows, hGo.pending⟩
      · exact hGo

theorem keptSame_committed
    (s : PlanState)
    (kind : WriteKind)
    (orgId : String) :
    KeptSame s (s.committed kind orgId) := by
  cases kind <;> exact ⟨rfl, rfl, rfl, rfl⟩

/- The row a set updates is still the pair's. -/
def RowKept
    (s : PlanState)
    (orgId key : String)
    (existing : Option SettingsRow) : Prop :=
  ∀ row, existing = some row →
    (s.table.select orgId key).map SettingsRow.id =
      some row.id

/- A write of the entitlement, or of another setting. -/
theorem keptInv_write
    {key : String}
    {existing : Option SettingsRow}
    (hInv : KeptInv s)
    (hRow : RowKept s orgId key existing)
    (hSlug :
      key = "org_plan" → orgId ∈ s.confirmed →
        value = s.entitlement orgId) :
    KeptInv
      { s with
        table := s.table.write existing orgId key value } where
  kept org hMem := by
    have hOld := hInv.kept org hMem
    rcases settings_write_cases existing hRow with
      hSet | ⟨-, -, hSame⟩
    · dsimp only
      rw [hSet]
      by_cases hPair : org = orgId ∧ "org_plan" = key
      · rcases hPair with ⟨rfl, rfl⟩
        rw [Settings.set_self, hSlug rfl hMem]
      · rw [Settings.set_of_ne _ _ hPair]
        exact hOld
    · dsimp only
      rw [hSame]
      exact hOld
  pending := hInv.pending

/- What a webhook's write leaves to be read. -/
theorem settings_report
    {existing : Option SettingsRow}
    (hRow : RowKept s orgId "org_plan" existing)
    (hFirst :
      existing = none →
        s.table.select orgId "org_plan" = none ∨
          s.table.settings orgId "org_plan" = some value) :
    (s.table.write existing orgId "org_plan" value).settings
        orgId "org_plan" = some value := by
  rcases settings_write_cases existing hRow with
    hSet | ⟨hNone, hTaken, hSame⟩
  · rw [hSet, Settings.set_self]
  · rw [hSame]
    rcases hFirst hNone with hFree | hThere
    · simp [hFree] at hTaken
    · exact hThere

theorem keptGuar_write
    {key : String}
    (existing : Option SettingsRow) :
    KeptGuar id s
      { s with
        table := s.table.write existing orgId key value } where
  rows _ _ _ hSelect := select_id_write existing hSelect
  pending _ hMem _ := hMem

/- The second statement of a set, with its notes. -/
theorem keptStep_write
    {kind : WriteKind}
    {key : String}
    {existing : Option SettingsRow}
    (hReport : kind = .report → key = "org_plan")
    (hInv : KeptInv s)
    (hRow : RowKept s orgId key existing)
    (hSlug :
      key = "org_plan" → orgId ∈ s.confirmed →
        value = s.entitlement orgId)
    (hOk :
      keptOk (kind.writeLabel id orgId value existing) s) :
    KeptInv
        (({ s with
              table := s.table.write existing orgId key value
            }.committed kind orgId).stored kind id orgId
          value) ∧
      KeptGuar id s
        (({ s with
              table := s.table.write existing orgId key value
            }.committed kind orgId).stored kind id orgId
          value) := by
  have hWritten := keptInv_write hInv hRow hSlug
  have hSame :=
    keptSame_committed
      { s with
        table := s.table.write existing orgId key value }
      kind orgId
  have hCommitted := keptInv_same hWritten hSame
  constructor
  · refine keptInv_stored hCommitted ?_
    rintro rfl hCurrent
    rcases hOk hCurrent with ⟨hAlone, hFirst⟩
    rw [hReport rfl] at hRow ⊢
    exact ⟨settings_report hRow hFirst, hAlone⟩
  · exact
      keptGuar_trans (keptGuar_write existing)
        (keptGuar_trans (keptGuar_same hSame)
          (keptGuar_stored kind orgId value))

/- The rule for a set of any kind. -/
theorem valid_keptSet
    {kind : WriteKind}
    {stores : Bool}
    {key : String}
    {next : List PlanWrite → PlanProgram}
    (hReport : kind = .report → key = "org_plan")
    (hSlug :
      ∀ now, KeptLater id s now → KeptInv now →
        key = "org_plan" → orgId ∈ now.confirmed →
          value = now.entitlement orgId)
    (hNext :
      ∀ after writes, KeptInv after →
        KeptValid id after (next writes)) :
    KeptValid id s
      (setSetting id kind stores orgId key value next) := by
  unfold setSetting
  cases stores with
  | false =>
      rw [if_neg Bool.false_ne_true]
      refine valid_keptStep ?_
      intro now _ hInv _
      have hLost :
          KeptInv (now.lost kind id) ∧
            KeptGuar id now (now.lost kind id) := by
        cases kind with
        | report | writeBack =>
            exact ⟨keptInv_letGo hInv, keptGuar_letGo⟩
        | aside | covered | bare =>
            exact ⟨hInv, keptGuar_same (keptSame_refl now)⟩
      exact
        ⟨hLost.1, hLost.2, hNext _ [] hLost.1⟩
  | true =>
      rw [if_pos rfl]
      refine valid_keptStep ?_
      intro seen hSeen hSeenInv hCheck
      dsimp only
      by_cases hThere :
          holdsValue (seen.table.select orgId key) value = true
      · rw [if_pos hThere, if_pos hThere]
        have hAfter :
            KeptInv (seen.stored kind id orgId value) := by
          refine keptInv_stored hSeenInv ?_
          rintro rfl hCurrent
          have hStored :
              seen.table.settings orgId "org_plan" =
                some value := by
            rw [hReport rfl] at hThere
            exact eq_of_beq hThere
          exact ⟨hStored, hCheck hStored hCurrent⟩
        exact
          ⟨hAfter, keptGuar_stored kind orgId value,
            hNext _ [] hAfter⟩
      · rw [if_neg hThere, if_neg hThere]
        refine
          ⟨hSeenInv, keptGuar_same (keptSame_refl seen), ?_⟩
        refine valid_keptStep ?_
        intro now hNow hInv hOk
        have hRow :
            RowKept now orgId key
              (seen.table.select orgId key) :=
          fun row hSelect =>
            hNow.rows orgId key row hSelect
        have hStep :=
          keptStep_write hReport hInv hRow
            (hSlug now (keptLater_trans hSeen hNow) hInv) hOk
        exact ⟨hStep.1, hStep.2, hNext _ _ hStep.1⟩

end Plans

end SentinelCommand
