import SentinelCommand.Hls.ViewerAccounting

/-
  An erasure of an organization among the flushes of its
  viewer seconds.

  Main declarations:
    * `Hls.ErasedOnce`
    * `Hls.BeforeErasure`
    * `Hls.erasure_kept_iff`
-/

--------------------
-- Erasures
--------------------

namespace SentinelCommand

namespace Hls

def NoneOf (orgId : String) (table : UsageTable) : Prop :=
  ∀ key ∈ table.keys, key.1 ≠ orgId

instance (orgId : String) (table : UsageTable) :
    Decidable (NoneOf orgId table) :=
  inferInstanceAs
    (Decidable (∀ key ∈ table.keys, key.1 ≠ orgId))

/- No row, no pending seconds and no cached total. -/
def Usage.Gone (s : Usage) (orgId : String) : Prop :=
  NoneOf orgId s.rows ∧ NoneOf orgId s.viewer.pending ∧
    NoneOf orgId s.viewer.cached

instance (s : Usage) (orgId : String) :
    Decidable (s.Gone orgId) :=
  inferInstanceAs (Decidable (_ ∧ _ ∧ _))

/- A call that erases the organization, however far it is. -/
def UsageCall.erasesOrg (orgId : String) : UsageCall → Bool
| .erasing other => other == orgId
| .deleted other => other == orgId
| .erased other => other == orgId
| .eraseFailed other => other == orgId
| _ => false

/- Its rows are deleted. -/
def UsageCall.hasDeleted (orgId : String) : UsageCall → Bool
| .deleted other => other == orgId
| .erased other => other == orgId
| _ => false

/- Its counters are forgotten too. -/
def UsageCall.hasForgotten (orgId : String) : UsageCall → Bool
| .erased other => other == orgId
| _ => false

def Deleted (orgId : String) (c : UsageConfig) : Prop :=
  ∃ call ∈ c.calls, call.hasDeleted orgId = true

def Forgotten (orgId : String) (c : UsageConfig) : Prop :=
  ∃ call ∈ c.calls, call.hasForgotten orgId = true

instance (orgId : String) (c : UsageConfig) :
    Decidable (Deleted orgId c) :=
  inferInstanceAs (Decidable (∃ call ∈ c.calls, _))

instance (orgId : String) (c : UsageConfig) :
    Decidable (Forgotten orgId c) :=
  inferInstanceAs (Decidable (∃ call ∈ c.calls, _))

/-
  The organization is erased once, and no segment is served
  to it after that has started.
-/
def ErasedOnce
    (orgId : String)
    (c : UsageConfig)
    (event : UsageEvent) : Prop :=
  match event with
  | .start (.record other) =>
      other = orgId →
        ∀ call ∈ c.calls, call.erasesOrg orgId = false
  | .start (.erase other) =>
      other = orgId →
        ∀ call ∈ c.calls, call.erasesOrg orgId = false
  | _ => True

/-
  No row of the organization is written once its rows are
  deleted, and no total of it is cached once its counters
  are forgotten.
-/
def BeforeErasure
    (orgId : String)
    (c : UsageConfig)
    (event : UsageEvent) : Prop :=
  match Calls.resumed c event with
  | some (.flushing _ ((key, delta) :: _), false) =>
      key.1 = orgId → 0 < delta → ¬ Deleted orgId c
  | some (.storing _ key _ _, _) =>
      key.1 = orgId → ¬ Forgotten orgId c
  | some (.warmRead other _ _, _) =>
      other = orgId → ¬ Forgotten orgId c
  | _ => True

instance (orgId : String) (c : UsageConfig) (event : UsageEvent) :
    Decidable (ErasedOnce orgId c event) := by
  unfold ErasedOnce
  split <;> infer_instance

instance (orgId : String) (c : UsageConfig) (event : UsageEvent) :
    Decidable (BeforeErasure orgId c event) := by
  unfold BeforeErasure
  rcases Calls.resumed c event with _ | ⟨call, fails⟩
  · infer_instance
  · split <;> infer_instance

variable {orgId : String} {table : UsageTable}

theorem noneOf_insert_iff
    {key : UsageKey}
    {value : Int} :
    NoneOf orgId (table.insert key value) ↔
      key.1 ≠ orgId ∧ NoneOf orgId table := by
  have hMem (other : UsageKey) :
      other ∈ (table.insert key value).keys ↔
        other = key ∨ other ∈ table.keys := by
    rw [← AList.mem_keys, ← AList.mem_keys, AList.mem_insert]
  unfold NoneOf
  constructor
  · intro hNone
    exact
      ⟨hNone key ((hMem key).mpr (Or.inl rfl)),
        fun other hIn =>
          hNone other ((hMem other).mpr (Or.inr hIn))⟩
  · rintro ⟨hKey, hNone⟩ other hOther
    rcases (hMem other).mp hOther with rfl | hIn
    · exact hKey
    · exact hNone other hIn

theorem mem_keys_retainKeys
    {keep : UsageKey → Bool}
    {key : UsageKey} :
    key ∈ (retainKeys keep table).keys ↔
      keep key = true ∧ key ∈ table.keys := by
  rw [← AList.mem_keys, ← AList.mem_keys,
    ← AList.lookup_isSome, ← AList.lookup_isSome,
    lookup_retainKeys]
  by_cases hKeep : keep key = true <;> simp [hKeep]

theorem noneOf_erased :
    NoneOf orgId
      (retainKeys (fun key => key.1 ≠ orgId) table) := by
  intro key hKey
  exact of_decide_eq_true (mem_keys_retainKeys.mp hKey).1

theorem noneOf_erased_other_iff
    {other : String}
    (hOther : other ≠ orgId) :
    NoneOf orgId
        (retainKeys (fun key => key.1 ≠ other) table) ↔
      NoneOf orgId table := by
  unfold NoneOf
  constructor
  · intro hNone key hKey hSame
    refine hNone key (mem_keys_retainKeys.mpr ⟨?_, hKey⟩) hSame
    exact decide_eq_true (fun h => hOther (h.symm.trans hSame))
  · intro hNone key hKey
    exact hNone key (mem_keys_retainKeys.mp hKey).2

theorem noneOf_empty :
    NoneOf orgId (∅ : UsageTable) := by
  intro key hKey
  simp at hKey

--------------------
-- What a Step Keeps
--------------------

variable {orgId : String} {c : UsageConfig}

def erasures (orgId : String) (call : UsageCall) : Int :=
  if call.erasesOrg orgId then 1 else 0

theorem erasures_nonneg (orgId : String) (call : UsageCall) :
    0 ≤ erasures orgId call := by
  unfold erasures
  split <;> decide

/-
  The organization is erased by one call, and none of its
  seconds are recorded once they were forgotten.
-/
structure ErasureInv (orgId : String) (c : UsageConfig) : Prop where
  one : Calls.held (erasures orgId) c.calls ≤ 1
  pendingGone :
    Forgotten orgId c → NoneOf orgId c.shared.viewer.pending

/- What was erased so far has not come back. -/
def Kept (orgId : String) (c : UsageConfig) : Prop :=
  (Deleted orgId c → NoneOf orgId c.shared.rows) ∧
    (Forgotten orgId c → NoneOf orgId c.shared.viewer.cached)

theorem erasesOrg_of_hasDeleted
    {call : UsageCall}
    (hDeleted : call.hasDeleted orgId = true) :
    call.erasesOrg orgId = true := by
  cases call <;>
    simp_all [UsageCall.hasDeleted, UsageCall.erasesOrg]

theorem hasDeleted_of_hasForgotten
    {call : UsageCall}
    (hForgotten : call.hasForgotten orgId = true) :
    call.hasDeleted orgId = true := by
  cases call <;>
    simp_all [UsageCall.hasDeleted, UsageCall.hasForgotten]

theorem deleted_of_forgotten
    (hForgotten : Forgotten orgId c) :
    Deleted orgId c := by
  rcases hForgotten with ⟨call, hCall, hHas⟩
  exact ⟨call, hCall, hasDeleted_of_hasForgotten hHas⟩

/- No other call has deleted what this one is to erase. -/
theorem eq_of_deleted
    {id : Nat}
    {call : UsageCall}
    (hInv : ErasureInv orgId c)
    (hCall : c.calls[id]? = some call)
    (hErases : call.erasesOrg orgId = true)
    {P : UsageCall → Bool}
    (hP :
      ∀ other, P other = true → other.erasesOrg orgId = true)
    (hThere : ∃ other ∈ c.calls, P other = true) :
    P call = true := by
  rcases hThere with ⟨other, hOther, hHas⟩
  by_cases hSame : other = call
  · rw [← hSame]
    exact hHas
  · have hBoth :=
      Calls.add_le_held
        (fun next _ => erasures_nonneg orgId next)
        (List.mem_of_getElem? hCall) hOther hSame
    have hOne := hInv.one
    unfold erasures at hBoth hOne
    rw [hErases, hP other hHas] at hBoth
    simp only [if_true] at hBoth
    omega

/- The erasure is as far as it was. -/
theorem kept_iff_of
    {c' : UsageConfig}
    {A B : Prop}
    (hDeleted : Deleted orgId c' ↔ Deleted orgId c)
    (hForgotten : Forgotten orgId c' ↔ Forgotten orgId c)
    (hRows :
      NoneOf orgId c'.shared.rows ↔
        A ∧ NoneOf orgId c.shared.rows)
    (hCached :
      NoneOf orgId c'.shared.viewer.cached ↔
        B ∧ NoneOf orgId c.shared.viewer.cached) :
    Kept orgId c' ↔
      Kept orgId c ∧ (Deleted orgId c → A) ∧
        (Forgotten orgId c → B) := by
  unfold Kept
  rw [hDeleted, hForgotten, hRows, hCached]
  constructor
  · rintro ⟨hD, hF⟩
    exact
      ⟨⟨fun h => (hD h).2, fun h => (hF h).2⟩,
        fun h => (hD h).1, fun h => (hF h).1⟩
  · rintro ⟨⟨hD, hF⟩, hA, hB⟩
    exact ⟨fun h => ⟨hA h, hD h⟩, fun h => ⟨hB h, hF h⟩⟩

/- A call goes on without coming further in an erasure. -/
theorem kept_resumed_iff
    (orgId : String)
    (s : Usage)
    (next : UsageCall)
    (A B : Prop)
    {id : Nat}
    {call : UsageCall}
    (hCall : c.calls[id]? = some call)
    (hDeleted : next.hasDeleted orgId = call.hasDeleted orgId)
    (hForgotten :
      next.hasForgotten orgId = call.hasForgotten orgId)
    (hRows :
      NoneOf orgId s.rows ↔ A ∧ NoneOf orgId c.shared.rows)
    (hCached :
      NoneOf orgId s.viewer.cached ↔
        B ∧ NoneOf orgId c.shared.viewer.cached) :
    Kept orgId
        { shared := s, calls := c.calls.set id next } ↔
      Kept orgId c ∧ (Deleted orgId c → A) ∧
        (Forgotten orgId c → B) :=
  kept_iff_of
    (Calls.exists_resumed_iff hCall hDeleted)
    (Calls.exists_resumed_iff hCall hForgotten) hRows hCached

/- A call goes on and caches something of an organization. -/
theorem kept_caches_iff
    (orgId : String)
    (s : Usage)
    (next : UsageCall)
    (other : String)
    {id : Nat}
    {call : UsageCall}
    (hCall : c.calls[id]? = some call)
    (hDeleted : next.hasDeleted orgId = call.hasDeleted orgId)
    (hForgotten :
      next.hasForgotten orgId = call.hasForgotten orgId)
    (hRows :
      NoneOf orgId s.rows ↔ NoneOf orgId c.shared.rows)
    (hCached :
      NoneOf orgId s.viewer.cached ↔
        other ≠ orgId ∧ NoneOf orgId c.shared.viewer.cached) :
    Kept orgId
        { shared := s, calls := c.calls.set id next } ↔
      Kept orgId c ∧
        (other = orgId → ¬ Forgotten orgId c) := by
  rw [kept_resumed_iff orgId s next True (other ≠ orgId) hCall
    hDeleted hForgotten (hRows.trans (true_and _).symm.to_iff)
    hCached]
  exact and_congr_right fun _ =>
    ⟨fun h hOrg hGone => h.2 hGone hOrg,
      fun h => ⟨fun _ => trivial,
        fun hGone hOrg => h hOrg hGone⟩⟩

/- A call goes on and changes neither table. -/
theorem kept_quiet_iff
    {id : Nat}
    {call next : UsageCall}
    (hCall : c.calls[id]? = some call)
    (hDeleted : next.hasDeleted orgId = call.hasDeleted orgId)
    (hForgotten :
      next.hasForgotten orgId = call.hasForgotten orgId) :
    Kept orgId
        { shared := c.shared
          calls := c.calls.set id next } ↔
      Kept orgId c := by
  have hKept :=
    kept_resumed_iff orgId c.shared next True True hCall
      hDeleted hForgotten (by simp) (by simp)
  simpa using hKept

theorem kept_erasing_iff
    {id : Nat}
    {other : String}
    (hInv : ErasureInv orgId c)
    (hCall : c.calls[id]? = some (.erasing other)) :
    Kept orgId
        { shared :=
            { c.shared with
              rows :=
                retainKeys (fun key => key.1 ≠ other)
                  c.shared.rows }
          calls := c.calls.set id (.deleted other) } ↔
      Kept orgId c := by
  by_cases hOrg : other = orgId
  · subst hOrg
    -- Nothing of it was deleted or forgotten before.
    have hNot : ¬ Deleted other c := by
      intro hDeleted
      have hHas :=
        eq_of_deleted hInv hCall (by simp [UsageCall.erasesOrg])
          (fun call => erasesOrg_of_hasDeleted) hDeleted
      simp [UsageCall.hasDeleted] at hHas
    have hNotForgotten : ¬ Forgotten other c := fun h =>
      hNot (deleted_of_forgotten h)
    have hStill :
        Forgotten other
            { shared :=
                { c.shared with
                  rows :=
                    retainKeys (fun key => key.1 ≠ other)
                      c.shared.rows }
              calls := c.calls.set id (.deleted other) } ↔
          Forgotten other c :=
      Calls.exists_resumed_iff hCall rfl
    unfold Kept
    rw [hStill]
    constructor
    · intro _
      exact
        ⟨fun h => absurd h hNot,
          fun h => absurd h hNotForgotten⟩
    · intro _
      exact
        ⟨fun _ => noneOf_erased,
          fun h => absurd h hNotForgotten⟩
  · have hKept :=
      kept_resumed_iff orgId
        { c.shared with
          rows :=
            retainKeys (fun key => key.1 ≠ other)
              c.shared.rows }
        (.deleted other) True True hCall
        (by simp [UsageCall.hasDeleted, hOrg]) rfl
        (by
          rw [true_and]
          exact noneOf_erased_other_iff hOrg)
        (by simp)
    simpa using hKept

theorem kept_deleted_iff
    {id : Nat}
    {other : String}
    (hInv : ErasureInv orgId c)
    (hCall : c.calls[id]? = some (.deleted other)) :
    Kept orgId
        { shared :=
            { c.shared with
              viewer :=
                forgetOrgViewerUsage c.shared.viewer other }
          calls := c.calls.set id (.erased other) } ↔
      Kept orgId c := by
  have hStill :
      Deleted orgId
          { shared :=
              { c.shared with
                viewer :=
                  forgetOrgViewerUsage c.shared.viewer other }
            calls := c.calls.set id (.erased other) } ↔
        Deleted orgId c :=
    Calls.exists_resumed_iff hCall rfl
  by_cases hOrg : other = orgId
  · subst hOrg
    have hNot : ¬ Forgotten other c := by
      intro hForgotten
      have hHas :=
        eq_of_deleted hInv hCall (by simp [UsageCall.erasesOrg])
          (fun call h =>
            erasesOrg_of_hasDeleted
              (hasDeleted_of_hasForgotten h))
          hForgotten
      simp [UsageCall.hasForgotten] at hHas
    unfold Kept
    rw [hStill]
    constructor
    · rintro ⟨hRows, -⟩
      exact ⟨hRows, fun h => absurd h hNot⟩
    · rintro ⟨hRows, -⟩
      exact ⟨hRows, fun _ => noneOf_erased⟩
  · have hKept :=
      kept_resumed_iff orgId
        { c.shared with
          viewer :=
            forgetOrgViewerUsage c.shared.viewer other }
        (.erased other) True True hCall rfl
        (by simp [UsageCall.hasForgotten, hOrg])
        (by simp)
        (by
          rw [true_and]
          exact noneOf_erased_other_iff hOrg)
    simpa using hKept

--------------------
-- Steps
--------------------

/- An upsert that fails leaves its row out. -/
theorem kept_failed_iff
    {id : Nat}
    {touched : Nat}
    {key : UsageKey}
    {delta : Int}
    {rest : List (UsageKey × Int)}
    (hCall :
      c.calls[id]? =
        some (.flushing touched ((key, delta) :: rest))) :
    Kept orgId
        { shared :=
            (resumeUsage c.shared
              (.flushing touched ((key, delta) :: rest))
              true).1
          calls :=
            c.calls.set id
              (resumeUsage c.shared
                (.flushing touched ((key, delta) :: rest))
                true).2 } ↔
      Kept orgId c := by
  by_cases hDelta : delta ≤ 0
  · simp only [resumeUsage, hDelta, if_true]
    exact kept_quiet_iff hCall rfl rfl
  · simp only [resumeUsage, hDelta, if_false, if_true]
    exact kept_quiet_iff hCall rfl rfl

/- A row with no seconds is skipped, any other is stored. -/
theorem kept_upsert_iff
    {id : Nat}
    {touched : Nat}
    {key : UsageKey}
    {delta : Int}
    {rest : List (UsageKey × Int)}
    (hCall :
      c.calls[id]? =
        some (.flushing touched ((key, delta) :: rest))) :
    Kept orgId
        { shared :=
            (resumeUsage c.shared
              (.flushing touched ((key, delta) :: rest))
              false).1
          calls :=
            c.calls.set id
              (resumeUsage c.shared
                (.flushing touched ((key, delta) :: rest))
                false).2 } ↔
      Kept orgId c ∧
        (key.1 = orgId → 0 < delta → ¬ Deleted orgId c) := by
  by_cases hDelta : delta ≤ 0
  · have hNot : ¬ 0 < delta := by omega
    have hQuiet :
        Kept orgId
            { shared := c.shared
              calls :=
                c.calls.set id (.flushing touched rest) } ↔
          Kept orgId c :=
      kept_quiet_iff hCall rfl rfl
    simp only [resumeUsage, hDelta, if_true]
    rw [hQuiet]
    simp [hNot]
  · have hPos : 0 < delta := by omega
    have hKept :=
      kept_resumed_iff orgId
        { c.shared with
          rows :=
            c.shared.rows.insert key
              (c.shared.rows.count key + clampI32 delta) }
        (.storing touched key
          (c.shared.rows.count key + clampI32 delta) rest)
        (key.1 ≠ orgId) True hCall rfl rfl
        noneOf_insert_iff (true_and _).symm.to_iff
    simp only [resumeUsage, hDelta, if_false,
      Bool.false_eq_true]
    rw [hKept]
    exact and_congr_right fun _ =>
      ⟨fun h hOrg _ hDeleted => h.1 hDeleted hOrg,
        fun h => ⟨fun hDeleted hOrg => h hOrg hPos hDeleted,
          fun _ => trivial⟩⟩

theorem kept_resume_iff
    {id : Nat}
    {call : UsageCall}
    (fails : Bool)
    (hInv : ErasureInv orgId c)
    (hCall : c.calls[id]? = some call) :
    Kept orgId
        { shared := (resumeUsage c.shared call fails).1
          calls :=
            c.calls.set id
              (resumeUsage c.shared call fails).2 } ↔
      Kept orgId c ∧
        BeforeErasure orgId c (.resume id fails) := by
  have hResumed :
      Calls.resumed c
          (.resume id fails : UsageEvent) =
        some (call, fails) := by
    simp [Calls.resumed, hCall]
  unfold BeforeErasure
  rw [hResumed]
  cases call with
  | warming other since =>
      rw [and_true]
      exact kept_quiet_iff hCall rfl rfl
  | warmRead other since seconds =>
      exact
        kept_caches_iff orgId _ _ other hCall rfl rfl Iff.rfl
          noneOf_insert_iff
  | warmed other since answer =>
      rw [and_true]
      exact kept_quiet_iff hCall rfl rfl
  | flushing touched rows =>
      cases rows with
      | nil =>
          rw [and_true]
          exact kept_quiet_iff hCall rfl rfl
      | cons row rest =>
          rcases row with ⟨key, delta⟩
          cases fails with
          | true =>
              rw [and_true]
              exact kept_failed_iff hCall
          | false => exact kept_upsert_iff hCall
  | storing touched key total rest =>
      exact
        kept_caches_iff orgId _ _ key.1 hCall rfl rfl Iff.rfl
          noneOf_insert_iff
  | flushed touched =>
      rw [and_true]
      exact kept_quiet_iff hCall rfl rfl
  | erasing other =>
      rw [and_true]
      cases fails with
      | true => exact kept_quiet_iff hCall rfl rfl
      | false => exact kept_erasing_iff hInv hCall
  | deleted other =>
      rw [and_true]
      exact kept_deleted_iff hInv hCall
  | erased other =>
      rw [and_true]
      exact kept_quiet_iff hCall rfl rfl
  | eraseFailed other =>
      rw [and_true]
      exact kept_quiet_iff hCall rfl rfl

/- A start adds no erasure that has come any further. -/
theorem kept_start_iff
    (what : UsageStart) :
    Kept orgId (usageStep c (.start what)) ↔
      Kept orgId c := by
  have hNone (P : UsageCall → Bool)
      (call : UsageCall)
      (hNot : P call = false) :
      (∃ other ∈ c.calls ++ [call], P other = true) ↔
        ∃ other ∈ c.calls, P other = true := by
    rw [Calls.exists_started_iff, hNot]
    simp
  unfold Kept Deleted Forgotten
  cases what with
  | record other =>
      simp [usageStep, Calls.step, usageProgram, beginUsage,
        recordViewerSecond]
  | warm other =>
      cases hLookup :
          cachedViewerSeconds c.shared.viewer
            (other, c.shared.month) <;>
        · simp only [usageStep, Calls.step, usageProgram,
            beginUsage, hLookup, Option.toList_some]
          rw [hNone _ _ rfl, hNone _ _ rfl]
  | flush rank =>
      by_cases hEmpty :
          c.shared.viewer.pending.entries.isEmpty = true <;>
        · simp only [usageStep, Calls.step, usageProgram,
            beginUsage, hEmpty, if_true, if_false,
            Option.toList_some, Bool.false_eq_true]
          rw [hNone _ _ rfl, hNone _ _ rfl]
  | erase other =>
      simp only [usageStep, Calls.step, usageProgram,
        beginUsage, Option.toList_some]
      rw [hNone _ _ rfl, hNone _ _ rfl]
  | turn month =>
      simp [usageStep, Calls.step, usageProgram, beginUsage]

theorem kept_step_iff
    (event : UsageEvent)
    (hInv : ErasureInv orgId c) :
    Kept orgId (usageStep c event) ↔
      Kept orgId c ∧ BeforeErasure orgId c event := by
  cases event with
  | start what =>
      rw [kept_start_iff]
      simp [BeforeErasure, Calls.resumed]
  | resume id fails =>
      cases hCall : c.calls[id]? with
      | none =>
          simp [usageStep, Calls.step, hCall, BeforeErasure,
            Calls.resumed]
      | some call =>
          have hKept :=
            kept_resume_iff fails hInv hCall
          simpa [usageStep, Calls.step, hCall, usageProgram]
            using hKept

/- A call that goes on erases what it erased before. -/
theorem erasesOrg_resume
    (s : Usage)
    (call : UsageCall)
    (fails : Bool) :
    (resumeUsage s call fails).2.erasesOrg orgId =
      call.erasesOrg orgId := by
  cases call with
  | flushing touched rows =>
      cases rows with
      | nil => rfl
      | cons row rest =>
          rcases row with ⟨key, delta⟩
          unfold resumeUsage
          dsimp only
          split
          · rfl
          · split <;> rfl
  | erasing other =>
      unfold resumeUsage
      dsimp only
      split <;> rfl
  | warming other since => rfl
  | warmRead other since seconds => rfl
  | warmed other since answer => rfl
  | storing touched key total rest => rfl
  | flushed touched => rfl
  | deleted other => rfl
  | erased other => rfl
  | eraseFailed other => rfl

/- What was forgotten stays so while nothing is recorded. -/
theorem pendingGone_resumed
    {id : Nat}
    {call : UsageCall}
    (fails : Bool)
    (hInv : ErasureInv orgId c)
    (hCall : c.calls[id]? = some call)
    (hForgotten :
      Forgotten orgId
        { shared := (resumeUsage c.shared call fails).1
          calls :=
            c.calls.set id
              (resumeUsage c.shared call fails).2 }) :
    NoneOf orgId
      (resumeUsage c.shared call fails).1.viewer.pending := by
  have hSame
      (hQuiet :
        (resumeUsage c.shared call fails).2.hasForgotten orgId =
          call.hasForgotten orgId) :
      NoneOf orgId c.shared.viewer.pending :=
    hInv.pendingGone
      ((Calls.exists_resumed_iff hCall hQuiet).mp hForgotten)
  cases call with
  | deleted other =>
      by_cases hOrg : other = orgId
      · subst hOrg
        exact noneOf_erased
      · refine (noneOf_erased_other_iff hOrg).mpr (hSame ?_)
        simp [resumeUsage, UsageCall.hasForgotten, hOrg]
  | flushing touched rows =>
      cases rows with
      | nil => exact hSame rfl
      | cons row rest =>
          rcases row with ⟨key, delta⟩
          revert hSame
          unfold resumeUsage
          dsimp only
          split
          · exact fun hSame => hSame rfl
          · split
            · exact fun hSame => hSame rfl
            · exact fun hSame => hSame rfl
  | erasing other =>
      revert hSame
      unfold resumeUsage
      dsimp only
      split
      · exact fun hSame => hSame rfl
      · exact fun hSame => hSame rfl
  | warming other since => exact hSame rfl
  | warmRead other since seconds => exact hSame rfl
  | warmed other since answer => exact hSame rfl
  | storing touched key total rest => exact hSame rfl
  | flushed touched => exact hSame rfl
  | erased other => exact hSame rfl
  | eraseFailed other => exact hSame rfl

theorem erasureInv_resume
    {id : Nat}
    {call : UsageCall}
    (fails : Bool)
    (hInv : ErasureInv orgId c)
    (hCall : c.calls[id]? = some call) :
    ErasureInv orgId
      { shared := (resumeUsage c.shared call fails).1
        calls :=
          c.calls.set id
            (resumeUsage c.shared call fails).2 } where
  one := by
    have hOne := hInv.one
    dsimp only
    rw [Calls.held_resume _ _ hCall]
    unfold erasures at hOne ⊢
    rw [erasesOrg_resume]
    omega
  pendingGone := pendingGone_resumed fails hInv hCall

/- A start forgets nothing and adds one erasure at most. -/
theorem erasureInv_started
    {s : Usage}
    {call : UsageCall}
    (hInv : ErasureInv orgId c)
    (hFirst :
      call.erasesOrg orgId = true →
        ∀ other ∈ c.calls, other.erasesOrg orgId = false)
    (hNew : call.hasForgotten orgId = false)
    (hPending :
      NoneOf orgId c.shared.viewer.pending →
        NoneOf orgId s.viewer.pending) :
    ErasureInv orgId
      { shared := s, calls := c.calls ++ [call] } where
  one := by
    have hOne := hInv.one
    dsimp only
    rw [Calls.held_append, Calls.held_cons, Calls.held_nil]
    by_cases hErases : call.erasesOrg orgId = true
    · have hNone : Calls.held (erasures orgId) c.calls = 0 := by
        apply Calls.held_eq_zero
        intro other hOther
        unfold erasures
        rw [hFirst hErases other hOther]
        rfl
      rw [hNone]
      unfold erasures
      rw [hErases]
      decide
    · have hZero : erasures orgId call = 0 := by
        unfold erasures
        rw [if_neg hErases]
      omega
  pendingGone := by
    intro hForgotten
    apply hPending
    apply hInv.pendingGone
    rcases Calls.exists_started_iff.mp hForgotten with
      hBefore | hLast
    · exact hBefore
    · rw [hNew] at hLast
      contradiction

/- A start that leaves no call in progress. -/
theorem erasureInv_of_calls
    {next : UsageConfig}
    (hInv : ErasureInv orgId c)
    (hCalls : next.calls = c.calls)
    (hPending :
      Forgotten orgId c →
        NoneOf orgId next.shared.viewer.pending) :
    ErasureInv orgId next where
  one := by
    rw [hCalls]
    exact hInv.one
  pendingGone := by
    intro hForgotten
    apply hPending
    unfold Forgotten at hForgotten ⊢
    rwa [hCalls] at hForgotten

theorem erasureInv_step
    (event : UsageEvent)
    (hInv : ErasureInv orgId c)
    (hOnce : ErasedOnce orgId c event) :
    ErasureInv orgId (usageStep c event) := by
  cases event with
  | resume id fails =>
      cases hCall : c.calls[id]? with
      | none => simpa [usageStep, Calls.step, hCall] using hInv
      | some call =>
          have hNext := erasureInv_resume fails hInv hCall
          simpa [usageStep, Calls.step, hCall, usageProgram]
            using hNext
  | start what =>
      cases what with
      | record other =>
          refine
            erasureInv_of_calls hInv (List.append_nil c.calls)
              ?_
          intro hBefore
          refine noneOf_insert_iff.mpr
            ⟨?_, hInv.pendingGone hBefore⟩
          intro hOrg
          rcases hBefore with ⟨call, hCall, hHas⟩
          have hNot := hOnce hOrg call hCall
          rw [erasesOrg_of_hasDeleted
            (hasDeleted_of_hasForgotten hHas)] at hNot
          contradiction
      | warm other =>
          cases hLookup :
              cachedViewerSeconds c.shared.viewer
                (other, c.shared.month) <;>
            · simp only [usageStep, Calls.step, usageProgram,
                beginUsage, hLookup, Option.toList_some]
              exact erasureInv_started hInv
                (fun h => absurd h Bool.false_ne_true) rfl id
      | flush rank =>
          by_cases hEmpty :
              c.shared.viewer.pending.entries.isEmpty = true
          · simp only [usageStep, Calls.step, usageProgram,
              beginUsage, hEmpty, if_true, Option.toList_some]
            exact erasureInv_started hInv
              (fun h => absurd h Bool.false_ne_true) rfl id
          · simp only [usageStep, Calls.step, usageProgram,
              beginUsage, hEmpty, if_false, Option.toList_some,
              Bool.false_eq_true]
            exact erasureInv_started hInv
              (fun h => absurd h Bool.false_ne_true) rfl
              (fun _ => noneOf_empty)
      | erase other =>
          refine erasureInv_started hInv ?_ rfl id
          intro hErases
          exact hOnce (by simpa [UsageCall.erasesOrg]
            using hErases)
      | turn month =>
          exact
            erasureInv_of_calls hInv (List.append_nil c.calls)
              hInv.pendingGone

--------------------
-- Erasures over Runs
--------------------

/-
  In a run that erases an organization once, while nothing
  more is served to it, nothing of its usage is left after
  the erasure exactly when no flush wrote a row of it after
  the rows were deleted and no total of it was cached after
  the counters were forgotten.
-/
theorem erasure_kept_iff
    (orgId : String)
    (s : Usage)
    (events : List UsageEvent)
    (hOnce :
      Run.Meets usageStep (ErasedOnce orgId) (Calls.initial s)
        events)
    (hErased :
      .erased orgId ∈
        (Run.exec usageStep (Calls.initial s) events).calls) :
    (Run.exec usageStep (Calls.initial s) events).shared.Gone
        orgId ↔
      Run.Meets usageStep (BeforeErasure orgId)
        (Calls.initial s) events := by
  have hInitial : ErasureInv orgId (Calls.initial s) := by
    constructor
    · exact Int.zero_le_ofNat 1
    · rintro ⟨call, hCall, -⟩
      exact absurd hCall List.not_mem_nil
  have hKept : Kept orgId (Calls.initial s) := by
    constructor <;>
      · rintro ⟨call, hCall, -⟩
        exact absurd hCall List.not_mem_nil
  have hRun :=
    Run.good_exec_iff_meets (Kept orgId)
      (fun c event hInv hAllowed =>
        erasureInv_step event hInv hAllowed)
      (fun c event hInv _ => kept_step_iff event hInv)
      hInitial hOnce
  have hInv :=
    Run.invariant_of_meets
      (fun c event hInv hAllowed =>
        erasureInv_step event hInv hAllowed)
      hInitial hOnce
  have hForgotten :
      Forgotten orgId
        (Run.exec usageStep (Calls.initial s) events) :=
    ⟨_, hErased, by simp [UsageCall.hasForgotten]⟩
  have hDeleted := deleted_of_forgotten hForgotten
  have hPending := hInv.pendingGone hForgotten
  rw [← hRun.trans (and_iff_right hKept)]
  unfold Usage.Gone Kept
  constructor
  · rintro ⟨hRows, -, hCached⟩
    exact ⟨fun _ => hRows, fun _ => hCached⟩
  · rintro ⟨hRows, hCached⟩
    exact ⟨hRows hDeleted, hPending, hCached hForgotten⟩

/- Nothing has been watched yet. -/
def unwatched : Usage where
  viewer := { pending := ∅, cached := ∅ }
  rows := ∅
  month := "2026-09"

/- A flush of one second that is done before the erasure. -/
def flushThenErase : List UsageEvent :=
  [.start (.record "org"), .start (.flush flushOrder),
    .resume 0 false, .resume 0 false, .resume 0 false,
    .start (.erase "org"), .resume 1 false, .resume 1 false]

theorem erasure_kept_flushThenErase :
    (Run.exec usageStep (Calls.initial unwatched)
      flushThenErase).shared.Gone "org" :=
  (erasure_kept_iff "org" unwatched flushThenErase (by decide)
    (by decide)).mpr (by decide)

/-
  The same second, drained before the erasure and written
  after it.
-/
def drainThenErase : List UsageEvent :=
  [.start (.record "org"), .start (.flush flushOrder),
    .start (.erase "org"), .resume 1 false, .resume 1 false,
    .resume 0 false, .resume 0 false, .resume 0 false]

theorem erasure_undone_by_flush :
    Run.Meets usageStep (ErasedOnce "org")
        (Calls.initial unwatched) drainThenErase ∧
      .erased "org" ∈
        (Run.exec usageStep (Calls.initial unwatched)
          drainThenErase).calls ∧
      Quiescent
        (Run.exec usageStep (Calls.initial unwatched)
          drainThenErase) ∧
      ¬ (Run.exec usageStep (Calls.initial unwatched)
          drainThenErase).shared.Gone "org" := by
  decide

end Hls

end SentinelCommand
