import SentinelCommand.Plans.PlanThreads

/-
  Rules for threads that read and drop the cached plans.

  A cached plan notes what it was computed from, and a write
  counts as dealt with from the invalidation that follows
  it, or at once when none does. The rules say what a step
  of a thread needs for a plan to have seen every write that
  was dealt with before it expires.

  Key definitions include:
    * `Plans.CacheInv`
    * `Plans.cacheOk`

  Key theorems include:
    * `Plans.valid_cacheSet`
    * `Plans.valid_lookUpEffective`
-/

--------------------
-- The invariant
--------------------

namespace SentinelCommand

namespace Plans

open Interleaving

/-
  A plan that expires after a write was dealt with has seen
  that write; a write that was returned was dealt with.
-/
structure CacheInv (s : PlanState) : Prop where
  cached :
    ∀ orgId cached,
      s.effective.lookup orgId = some cached →
        ∀ v ∈ s.settled, v.write.orgId = orgId →
          v.since < cached.expiry → cached.source.Sees v.write
  past : ∀ v ∈ s.settled, v.since ≤ s.clock
  returned :
    ∀ w ∈ s.returned, ∃ v ∈ s.settled, v.write = w
  hits :
    ∀ h ∈ s.hits, ∀ w ∈ h.before, w.orgId = h.orgId →
      h.source.Sees w

/- Writes stay dealt with, and time does not go back. -/
structure CacheLater (s s' : PlanState) : Prop where
  settled : s.settled ⊆ s'.settled
  clock : s.clock ≤ s'.clock

theorem cacheLater_refl (s : PlanState) : CacheLater s s :=
  ⟨List.Subset.refl _, Int.le_refl _⟩

theorem cacheLater_trans
    {s s' s'' : PlanState}
    (hFirst : CacheLater s s')
    (hSecond : CacheLater s' s'') :
    CacheLater s s'' :=
  ⟨List.Subset.trans hFirst.settled hSecond.settled,
    Int.le_trans hFirst.clock hSecond.clock⟩

/-
  A write that no invalidation follows finds no live plan,
  and a plan is cached that has seen every write that was
  dealt with.
-/
def cacheOk : PlanLabel → PlanState → Prop
| .bare orgId, s =>
    ((s.effective.lookup orgId).all
      (fun cached => cached.expiry ≤ s.clock)) = true
| .cache orgId source, s =>
    ∀ v ∈ s.settled, v.write.orgId = orgId →
      source.Sees v.write
| _, _ => True

instance decidableCacheOk
    (s : PlanState) :
    (label : PlanLabel) → Decidable (cacheOk label s)
| .bare orgId =>
    inferInstanceAs
      (Decidable
        (((s.effective.lookup orgId).all
          (fun cached => cached.expiry ≤ s.clock)) = true))
| .cache orgId source =>
    inferInstanceAs
      (Decidable
        (∀ v ∈ s.settled, v.write.orgId = orgId →
          source.Sees v.write))
| .quiet | .take _ _ | .check _ _ _ | .report _ _ _ _ =>
    isTrue trivial

abbrev CacheValid : Nat → PlanState → PlanProgram → Prop :=
  Valid CacheInv (fun _ => CacheLater) cacheOk

--------------------
-- Rules
--------------------

variable {id : Nat} {s : PlanState}

theorem cacheLater_of_rely
    {s' : PlanState}
    (hRely : Rely (fun _ => CacheLater) id s s') :
    CacheLater s s' :=
  rely_stable (P := fun now => CacheLater s now)
    (fun _ _ _ _ hGuar hLater =>
      cacheLater_trans hLater hGuar)
    hRely (cacheLater_refl s)

/- The rule for a step: what it leaves, and what follows. -/
theorem valid_cacheStep
    {α : Type}
    {label : PlanLabel}
    {f : PlanState → PlanState × α}
    {next : α → PlanProgram}
    (hStep :
      ∀ now, CacheLater s now → CacheInv now →
        cacheOk label now →
          CacheInv (f now).1 ∧ CacheLater now (f now).1)
    (hNext :
      ∀ now, CacheLater s now → CacheInv now →
        CacheLater s (f now).1 → CacheInv (f now).1 →
          CacheValid id (f now).1 (next (f now).2)) :
    CacheValid id s (atomic label f next) := by
  refine valid_atomic ?_
  intro now hRely hInv hOk
  have hLater := cacheLater_of_rely hRely
  rcases hStep now hLater hInv hOk with ⟨hAfter, hGuar⟩
  exact ⟨hAfter, hGuar,
    hNext now hLater hInv (cacheLater_trans hLater hGuar)
      hAfter⟩

/- What a step leaves alone that touches no cached plan. -/
structure CacheSame (s s' : PlanState) : Prop where
  effective : s'.effective = s.effective
  settled : s'.settled = s.settled
  clock : s'.clock = s.clock
  returned : s'.returned = s.returned
  hits : s'.hits = s.hits

theorem cacheSame_refl (s : PlanState) : CacheSame s s :=
  ⟨rfl, rfl, rfl, rfl, rfl⟩

theorem cacheInv_same
    {s' : PlanState}
    (hInv : CacheInv s)
    (hSame : CacheSame s s') :
    CacheInv s' where
  cached := by
    rw [hSame.effective, hSame.settled]
    exact hInv.cached
  past := by
    rw [hSame.settled, hSame.clock]
    exact hInv.past
  returned := by
    rw [hSame.returned, hSame.settled]
    exact hInv.returned
  hits := by
    rw [hSame.hits]
    exact hInv.hits

theorem cacheLater_same
    {s' : PlanState}
    (hSame : CacheSame s s') :
    CacheLater s s' where
  settled := by rw [hSame.settled]; exact List.Subset.refl _
  clock := Int.le_of_eq hSame.clock.symm

/- The rule for a step beside the cache. -/
theorem valid_cacheSame
    {α : Type}
    {label : PlanLabel}
    {f : PlanState → PlanState × α}
    {next : α → PlanProgram}
    (hSame : ∀ now, CacheSame now (f now).1)
    (hNext :
      ∀ now result, CacheLater s now → CacheInv now →
        CacheValid id now (next result)) :
    CacheValid id s (atomic label f next) := by
  refine valid_cacheStep ?_ ?_
  · intro now _ hInv _
    exact ⟨cacheInv_same hInv (hSame now),
      cacheLater_same (hSame now)⟩
  · intro now _ _ hLater hInv
    exact hNext _ _ hLater hInv

/- The writes have been dealt with. -/
def Dealt (s : PlanState) (writes : List PlanWrite) : Prop :=
  ∀ w ∈ writes, ∃ v ∈ s.settled, v.write = w

theorem dealt_later
    {s' : PlanState}
    {writes : List PlanWrite}
    (hDealt : Dealt s writes)
    (hLater : CacheLater s s') :
    Dealt s' writes := by
  intro w hMem
  rcases hDealt w hMem with ⟨v, hSettled, hWrite⟩
  exact ⟨v, hLater.settled hSettled, hWrite⟩

theorem dealt_append
    {first second : List PlanWrite}
    (hFirst : Dealt s first)
    (hSecond : Dealt s second) :
    Dealt s (first ++ second) := by
  intro w hMem
  rcases List.mem_append.mp hMem with hOld | hNew
  · exact hFirst w hOld
  · exact hSecond w hNew

--------------------
-- Writes
--------------------

variable {id : Nat} {s : PlanState} {orgId : String}

theorem cacheSame_hold
    (s : PlanState)
    (id : Nat)
    (orgId : String)
    (slug : Option String) :
    CacheSame s (s.hold id orgId slug) := by
  cases slug <;> exact ⟨rfl, rfl, rfl, rfl, rfl⟩

theorem cacheSame_stored
    (s : PlanState)
    (kind : WriteKind)
    (id : Nat)
    (orgId value : String) :
    CacheSame s (s.stored kind id orgId value) := by
  unfold PlanState.stored PlanState.confirm
  split
  · split <;> exact ⟨rfl, rfl, rfl, rfl, rfl⟩
  · exact ⟨rfl, rfl, rfl, rfl, rfl⟩
  · exact cacheSame_refl s

theorem cacheSame_lost
    (s : PlanState)
    (kind : WriteKind)
    (id : Nat) :
    CacheSame s (s.lost kind id) := by
  unfold PlanState.lost
  split <;> exact ⟨rfl, rfl, rfl, rfl, rfl⟩

/- A write no invalidation of its handler follows. -/
def WriteKind.isBare : WriteKind → Bool
| .bare | .writeBack => true
| _ => false

theorem writeLabel_of_isBare
    {kind : WriteKind}
    {id : Nat}
    {orgId value : String}
    {existing : Option SettingsRow}
    (hBare : kind.isBare = true) :
    kind.writeLabel id orgId value existing =
      .bare orgId := by
  cases kind with
  | aside | covered | report => contradiction
  | bare | writeBack => rfl

/-
  A bare write is dealt with at once; no plan is cached then
  that lives on.
-/
theorem cacheInv_settled
    (hInv : CacheInv s)
    (hOk : cacheOk (.bare orgId) s)
    (commit : Nat) :
    CacheInv
      { s with
        settled :=
          s.settled ++
            [{ write := { orgId := orgId, commit := commit }
               since := s.clock }] } where
  cached org cached hLookup v hMem hOrg hLive := by
    rcases List.mem_append.mp hMem with hOld | hNew
    · exact hInv.cached org cached hLookup v hOld hOrg hLive
    · rw [List.mem_singleton.mp hNew] at hOrg hLive
      dsimp only at hOrg hLive hLookup
      subst hOrg
      have hExpired : cached.expiry ≤ s.clock := by
        simpa [cacheOk, hLookup] using hOk
      omega
  past v hMem := by
    rcases List.mem_append.mp hMem with hOld | hNew
    · exact hInv.past v hOld
    · exact
        Int.le_of_eq
          (congrArg Settled.since (List.mem_singleton.mp hNew))
  returned w hMem := by
    rcases hInv.returned w hMem with ⟨v, hSettled, hWrite⟩
    exact ⟨v, List.mem_append_left _ hSettled, hWrite⟩
  hits := hInv.hits

theorem cacheInv_committed
    {kind : WriteKind}
    (hInv : CacheInv s)
    (hOk : kind.isBare = true → cacheOk (.bare orgId) s) :
    CacheInv (s.committed kind orgId) := by
  cases kind with
  | aside => exact hInv
  | covered => exact cacheInv_same hInv ⟨rfl, rfl, rfl, rfl, rfl⟩
  | report => exact cacheInv_same hInv ⟨rfl, rfl, rfl, rfl, rfl⟩
  | bare =>
      exact
        cacheInv_same
          (cacheInv_settled hInv (hOk rfl) (s.commits + 1))
          ⟨rfl, rfl, rfl, rfl, rfl⟩
  | writeBack =>
      exact
        cacheInv_same
          (cacheInv_settled hInv (hOk rfl) (s.commits + 1))
          ⟨rfl, rfl, rfl, rfl, rfl⟩

theorem cacheLater_committed
    (s : PlanState)
    (kind : WriteKind)
    (orgId : String) :
    CacheLater s (s.committed kind orgId) := by
  cases kind with
  | aside => exact cacheLater_refl s
  | covered => exact ⟨List.Subset.refl _, Int.le_refl _⟩
  | report => exact ⟨List.Subset.refl _, Int.le_refl _⟩
  | bare =>
      exact ⟨List.subset_append_left _ _, Int.le_refl _⟩
  | writeBack =>
      exact ⟨List.subset_append_left _ _, Int.le_refl _⟩

theorem dealt_committed
    (s : PlanState)
    (orgId : String)
    {kind : WriteKind}
    (hBare : kind.isBare = true) :
    Dealt (s.committed kind orgId)
      (kind.writes orgId (s.commits + 1)) := by
  intro w hMem
  cases kind with
  | aside | covered | report =>
      simp [WriteKind.isBare] at hBare
  | bare | writeBack =>
      have hWrite :
          w = { orgId := orgId, commit := s.commits + 1 } := by
        simpa [WriteKind.writes] using hMem
      rw [hWrite]
      exact
        ⟨_, List.mem_append_right _ (List.mem_singleton.mpr rfl),
          rfl⟩

/- The writes of a set are the organization's. -/
def OfOrg (orgId : String) (writes : List PlanWrite) : Prop :=
  ∀ w ∈ writes, w.orgId = orgId

theorem ofOrg_append
    {first second : List PlanWrite}
    (hFirst : OfOrg orgId first)
    (hSecond : OfOrg orgId second) :
    OfOrg orgId (first ++ second) := by
  intro w hMem
  rcases List.mem_append.mp hMem with hOld | hNew
  · exact hFirst w hOld
  · exact hSecond w hNew

theorem ofOrg_writes
    (kind : WriteKind)
    (commit : Nat) :
    OfOrg orgId (kind.writes orgId commit) := by
  intro w hMem
  cases kind <;> simp [WriteKind.writes] at hMem <;> simp [hMem]

/- What a set leaves when its write has committed. -/
def PlanState.written
    (s : PlanState)
    (kind : WriteKind)
    (id : Nat)
    (existing : Option SettingsRow)
    (orgId key value : String) : PlanState :=
  ({ s with
      table := s.table.write existing orgId key value
    }.committed kind orgId).stored kind id orgId value

theorem cacheInv_written
    {kind : WriteKind}
    (hInv : CacheInv s)
    (hOk : kind.isBare = true → cacheOk (.bare orgId) s)
    (existing : Option SettingsRow)
    (key value : String) :
    CacheInv (s.written kind id existing orgId key value) := by
  have hTable :
      CacheInv
        { s with
          table := s.table.write existing orgId key value } :=
    cacheInv_same hInv ⟨rfl, rfl, rfl, rfl, rfl⟩
  exact
    cacheInv_same (cacheInv_committed hTable hOk)
      (cacheSame_stored _ kind id orgId value)

theorem cacheLater_written
    (kind : WriteKind)
    (existing : Option SettingsRow)
    (key value : String) :
    CacheLater s
      (s.written kind id existing orgId key value) := by
  have hCommitted :=
    cacheLater_committed
      { s with
        table := s.table.write existing orgId key value }
      kind orgId
  exact
    cacheLater_trans ⟨hCommitted.settled, hCommitted.clock⟩
      (cacheLater_same
        (cacheSame_stored _ kind id orgId value))

theorem dealt_written
    {kind : WriteKind}
    (hBare : kind.isBare = true)
    (existing : Option SettingsRow)
    (key value : String) :
    Dealt (s.written kind id existing orgId key value)
      (kind.writes orgId (s.commits + 1)) := by
  have hCommitted :=
    dealt_committed
      { s with
        table := s.table.write existing orgId key value }
      orgId hBare
  exact
    dealt_later hCommitted
      (cacheLater_same
        (cacheSame_stored _ kind id orgId value))

/- The rule for a set of any kind. -/
theorem valid_cacheSet
    {kind : WriteKind}
    {stores : Bool}
    {key value : String}
    {next : List PlanWrite → PlanProgram}
    (hNext :
      ∀ after writes, CacheLater s after → CacheInv after →
        OfOrg orgId writes →
          (kind.isBare = true → Dealt after writes) →
            CacheValid id after (next writes)) :
    CacheValid id s
      (setSetting id kind stores orgId key value next) := by
  have hNone
      (after : PlanState)
      (hLater : CacheLater s after)
      (hInv : CacheInv after) :
      CacheValid id after (next []) :=
    hNext after [] hLater hInv (fun _ hMem => by simp at hMem)
      (fun _ _ hMem => by simp at hMem)
  unfold setSetting
  cases stores with
  | false =>
      rw [if_neg Bool.false_ne_true]
      refine valid_cacheSame
        (fun now => cacheSame_lost now kind id) ?_
      intro after _ hLater hInv
      exact hNone after hLater hInv
  | true =>
      rw [if_pos rfl]
      refine valid_cacheSame ?_ ?_
      · intro now
        dsimp only
        split
        · exact cacheSame_stored now kind id orgId value
        · exact cacheSame_refl now
      · intro seen existing hSeen hSeenInv
        split
        · exact hNone seen hSeen hSeenInv
        · refine valid_cacheStep ?_ ?_
          · intro now _ hInv hOk
            have hBareOk
                (hBare : kind.isBare = true) :
                cacheOk (.bare orgId) now := by
              rw [writeLabel_of_isBare hBare] at hOk
              exact hOk
            exact
              ⟨cacheInv_written hInv hBareOk existing key value,
                cacheLater_written kind existing key value⟩
          · intro now _ _ hLater hInv
            refine hNext _ _ (cacheLater_trans hSeen hLater)
              hInv (ofOrg_writes kind _) ?_
            intro hBare
            exact dealt_written hBare existing key value

--------------------
-- The cache
--------------------

/- The writes were dealt with by the given time. -/
def DealtBy
    (s : PlanState)
    (writes : List PlanWrite)
    (time : Int) : Prop :=
  ∀ w ∈ writes, ∃ v ∈ s.settled, v.write = w ∧ v.since ≤ time

theorem dealtBy_later
    {s' : PlanState}
    {writes : List PlanWrite}
    {time : Int}
    (hDealt : DealtBy s writes time)
    (hLater : CacheLater s s') :
    DealtBy s' writes time := by
  intro w hMem
  rcases hDealt w hMem with ⟨v, hSettled, hKnown⟩
  exact ⟨v, hLater.settled hSettled, hKnown⟩

theorem dealtBy_returned
    (hInv : CacheInv s) :
    DealtBy s s.returned s.clock := by
  intro w hMem
  rcases hInv.returned w hMem with ⟨v, hSettled, hWrite⟩
  exact ⟨v, hSettled, hWrite, hInv.past v hSettled⟩

/-
  A hit expires after it was asked for, so it has seen what
  was dealt with by then.
-/
theorem cacheInv_hit
    {before : List PlanWrite}
    {time : Int}
    (hInv : CacheInv s)
    (hDealt : DealtBy s before time) :
    CacheInv
      { s with
        hits :=
          s.hits ++
            noteHit before orgId
              ((s.effective.lookup orgId).filter
                (fun cached => time < cached.expiry)) } where
  cached := hInv.cached
  past := hInv.past
  returned := hInv.returned
  hits h hMem w hBefore hOrg := by
    rcases List.mem_append.mp hMem with hOld | hNew
    · exact hInv.hits h hOld w hBefore hOrg
    · cases hFound :
        (s.effective.lookup orgId).filter
          (fun cached => time < cached.expiry) with
      | none => simp [hFound, noteHit] at hNew
      | some cached =>
          have hHit := hNew
          rw [hFound] at hHit
          rw [List.mem_singleton.mp hHit] at hBefore hOrg ⊢
          rcases Option.filter_eq_some_iff.mp hFound with
            ⟨hLookup, hLive⟩
          rcases hDealt w hBefore with
            ⟨v, hSettled, rfl, hSince⟩
          have hExpiry : v.since < cached.expiry := by
            have hAsked := of_decide_eq_true hLive
            omega
          exact
            hInv.cached orgId cached hLookup v hSettled hOrg
              hExpiry

theorem valid_lookUpEffective
    {next : Option Cached → PlanProgram}
    (hNext :
      ∀ after found, CacheLater s after → CacheInv after →
        CacheValid id after (next found)) :
    CacheValid id s (lookUpEffective orgId next) := by
  refine valid_cacheStep ?_ ?_
  · intro now _ hInv _
    exact ⟨hInv, cacheLater_refl now⟩
  · intro began _ hBeganInv hBegan _
    have hKnown := dealtBy_returned hBeganInv
    refine valid_cacheStep ?_ ?_
    · intro now hNow hInv _
      exact
        ⟨cacheInv_hit hInv (dealtBy_later hKnown hNow),
          ⟨List.Subset.refl _, Int.le_refl _⟩⟩
    · intro now _ _ hAfter hInv
      exact hNext _ _ (cacheLater_trans hBegan hAfter) hInv

/- What an insert leaves: the new plan, and old ones. -/
theorem lookup_insertEffective
    {slug org : String}
    {source : Source}
    {cached : Cached}
    (hLookup :
      (insertEffective s orgId slug source).effective.lookup
        org = some cached) :
    (org = orgId ∧ cached.source = source) ∨
      s.effective.lookup org = some cached := by
  have hInserted :
      (s.effective.insert orgId
        { slug := slug
          expiry := s.clock + effectiveTtl
          source := source }).lookup org = some cached := by
    unfold insertEffective at hLookup
    dsimp only at hLookup
    split at hLookup
    · exact lookup_of_retain hLookup
    · exact hLookup
  by_cases hSame : org = orgId
  · subst hSame
    rw [AList.lookup_insert, Option.some.injEq] at hInserted
    exact Or.inl ⟨rfl, by rw [← hInserted]⟩
  · rw [AList.lookup_insert_ne hSame] at hInserted
    exact Or.inr hInserted

theorem cacheInv_insertEffective
    {slug : String}
    {source : Source}
    (hInv : CacheInv s)
    (hOk : cacheOk (.cache orgId source) s) :
    CacheInv (insertEffective s orgId slug source) where
  cached org cached hLookup v hSettled hOrg hLive := by
    rcases lookup_insertEffective hLookup with
      ⟨rfl, hSource⟩ | hOld
    · rw [hSource]
      exact hOk v hSettled hOrg
    · exact hInv.cached org cached hOld v hSettled hOrg hLive
  past := hInv.past
  returned := hInv.returned
  hits := hInv.hits

theorem valid_cacheEffective
    {slug : String}
    {source : Source}
    {next : String → PlanProgram}
    (hNext :
      ∀ after, CacheLater s after → CacheInv after →
        CacheValid id after (next slug)) :
    CacheValid id s
      (cacheEffective orgId slug source next) := by
  refine valid_cacheStep ?_ ?_
  · intro now _ hInv hOk
    exact
      ⟨cacheInv_insertEffective hInv hOk,
        ⟨List.Subset.refl _, Int.le_refl _⟩⟩
  · intro now _ _ hLater hInv
    exact hNext _ hLater hInv

/- No plan is cached after an invalidation. -/
theorem cacheInv_invalidated
    {writes : List PlanWrite}
    (hInv : CacheInv s)
    (hWrites : OfOrg orgId writes) :
    CacheInv
      { s with
        effective := s.effective.erase orgId
        settled :=
          s.settled ++
            writes.map
              (fun w => { write := w, since := s.clock }) } where
  cached org cached hLookup v hMem hOrg hLive := by
    have hOther : org ≠ orgId := by
      rintro rfl
      simp at hLookup
    dsimp only at hLookup
    rw [AList.lookup_erase_ne hOther] at hLookup
    rcases List.mem_append.mp hMem with hOld | hNew
    · exact hInv.cached org cached hLookup v hOld hOrg hLive
    · rcases List.mem_map.mp hNew with ⟨w, hWrite, rfl⟩
      exact absurd (hOrg.symm.trans (hWrites w hWrite)) hOther
  past v hMem := by
    rcases List.mem_append.mp hMem with hOld | hNew
    · exact hInv.past v hOld
    · rcases List.mem_map.mp hNew with ⟨w, -, rfl⟩
      exact Int.le_refl _
  returned w hMem := by
    rcases hInv.returned w hMem with ⟨v, hSettled, hWrite⟩
    exact ⟨v, List.mem_append_left _ hSettled, hWrite⟩
  hits := hInv.hits

theorem valid_invalidate
    {writes : List PlanWrite}
    {next : PlanProgram}
    (hWrites : OfOrg orgId writes)
    (hNext :
      ∀ after, CacheLater s after → CacheInv after →
        Dealt after writes → CacheValid id after next) :
    CacheValid id s
      (invalidateEffectivePlanCache orgId writes next) := by
  refine valid_cacheStep ?_ ?_
  · intro now _ hInv _
    exact
      ⟨cacheInv_invalidated hInv hWrites,
        ⟨List.subset_append_left _ _, Int.le_refl _⟩⟩
  · intro now _ _ hLater hInv
    refine hNext _ hLater hInv ?_
    intro w hMem
    exact
      ⟨_, List.mem_append_right _
        (List.mem_map_of_mem hMem), rfl⟩

/- A handler returns once its writes are dealt with. -/
theorem valid_returns
    {writes : List PlanWrite}
    {next : PlanProgram}
    (hDealt : Dealt s writes)
    (hNext :
      ∀ after, CacheLater s after → CacheInv after →
        CacheValid id after next) :
    CacheValid id s (returns writes next) := by
  refine valid_cacheStep ?_ ?_
  · intro now hLater hInv _
    refine
      ⟨⟨hInv.cached, hInv.past, ?_, hInv.hits⟩,
        ⟨List.Subset.refl _, Int.le_refl _⟩⟩
    intro w hMem
    rcases List.mem_append.mp hMem with hOld | hNew
    · exact hInv.returned w hOld
    · exact dealt_later hDealt hLater w hNew
  · intro now _ _ hLater hInv
    exact hNext _ hLater hInv

end Plans

end SentinelCommand
