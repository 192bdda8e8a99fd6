import Mathlib.Data.List.Sort
import SentinelCommand.Lib.Calls
import SentinelCommand.Plans.Entitlement

/-
  Calls of `enforce_camera_cap` for one organization, among
  the writes of its plan.

  A call reads the effective plan, then the cameras, and
  then writes one flag per statement. A write of the plan or
  of a past-due setting, or the end of a grace period, is
  the effective plan it leads to.

  Main declarations:
    * `Plans.capProgram`
    * `Plans.Converged`
    * `Plans.camera_cap_converges`
-/

--------------------
-- Cameras
--------------------

namespace SentinelCommand

namespace Plans

structure CapCamera where
  id : Int
  cameraId : String
  createdAt : Option Int
  disabledByPlan : Option Bool
  deriving DecidableEq, Repr

/- `created_at ASC NULLS LAST, id ASC`. -/
def CapCamera.before (a b : CapCamera) : Bool :=
  match a.createdAt, b.createdAt with
  | some x, some y => x < y || (x == y && a.id ≤ b.id)
  | some _, none => true
  | none, some _ => false
  | none, none => a.id ≤ b.id

def byAge (cameras : List CapCamera) : List CapCamera :=
  cameras.insertionSort (fun a b => a.before b = true)

def capOf (plan : String) : Nat :=
  (getPlanLimits plan).maxCameras

def keepIds
    (plan : String)
    (cameras : List CapCamera) : List String :=
  (cameras.take (capOf plan)).map CapCamera.cameraId

/- A null column is false. -/
def CapCamera.disabled (camera : CapCamera) : Bool :=
  camera.disabledByPlan.getD false

def shouldDisable
    (plan : String)
    (cameras : List CapCamera)
    (cameraId : String) : Bool :=
  !(keepIds plan cameras).contains cameraId

/- Only the rows that actually flip. -/
def flipsOf
    (plan : String)
    (cameras : List CapCamera) : List (String × Bool) :=
  cameras.filterMap (fun camera =>
    if camera.disabled ≠
        shouldDisable plan cameras camera.cameraId then
      some
        (camera.cameraId,
          shouldDisable plan cameras camera.cameraId)
    else
      none)

/- `UPDATE cameras SET disabled_by_plan`. -/
def setDisabled
    (flip : String × Bool)
    (camera : CapCamera) : CapCamera :=
  if camera.cameraId = flip.1 then
    { camera with disabledByPlan := some flip.2 }
  else
    camera

--------------------
-- Calls
--------------------

/- The effective plan and the organization's cameras. -/
structure CapState where
  plan : String
  cameras : List CapCamera
  deriving DecidableEq, Repr

inductive CapCall where
  | starting
  | planRead (plan : String)
  | writing
      (plan : String)
      (flips : List (String × Bool))
      (changed : Bool)
  | finished (changed : Bool)
  | failed
  deriving DecidableEq, Repr

inductive CapStart where
  | enforce
  | write (plan : String)
  deriving DecidableEq, Repr

def beginCap
    (s : CapState) :
    CapStart → CapState × Option CapCall
| .enforce => (s, some .starting)
| .write plan => ({ s with plan := plan }, none)

/- A call goes on with its next statement, which may fail. -/
def resumeCap
    (s : CapState) :
    CapCall → Bool → CapState × CapCall
| .starting, _ => (s, .planRead s.plan)
| .planRead plan, fails =>
    if fails then
      (s, .failed)
    else
      let flips := flipsOf plan (byAge s.cameras)
      (s, .writing plan flips (!flips.isEmpty))
| .writing _ [] changed, _ => (s, .finished changed)
| .writing plan (flip :: rest) changed, fails =>
    if fails then
      (s, .failed)
    else
      ({ s with cameras := s.cameras.map (setDisabled flip) },
        .writing plan rest changed)
| call, _ => (s, call)

def capProgram :
    Calls.Program CapState CapCall CapStart Bool where
  begin := beginCap
  resume := resumeCap

abbrev CapConfig : Type :=
  Calls.Config CapState CapCall

abbrev CapEvent : Type :=
  Calls.Event CapStart Bool

def capStep : CapConfig → CapEvent → CapConfig :=
  Calls.step capProgram

/- The enabled cameras are the oldest, up to the cap. -/
def Converged (s : CapState) : Prop :=
  (byAge s.cameras).filter (fun camera => !camera.disabled) =
    (byAge s.cameras).take (capOf s.plan)

instance (s : CapState) : Decidable (Converged s) :=
  inferInstanceAs (Decidable (_ = _))

/- The flags that a call has yet to write. -/
def CapCall.pending : CapCall → List (String × Bool)
| .writing _ flips _ => flips
| _ => []

/- It has read the cameras. -/
def CapCall.hasRead : CapCall → Bool
| .writing _ _ _ => true
| .finished _ => true
| _ => false

def CapCall.isFinished : CapCall → Bool
| .finished _ => true
| _ => false

/- What the flag of a camera is to be. -/
def wanted (s : CapState) (cameraId : String) : Bool :=
  shouldDisable s.plan (byAge s.cameras) cameraId

/- A call but the first ones has read the cameras. -/
def Confirmed (first : Nat) (c : CapConfig) : Prop :=
  ∃ call ∈ c.calls.drop first, call.hasRead = true

/- The effective plan stays what it is. -/
def Steady (c : CapConfig) (event : CapEvent) : Prop :=
  match event with
  | .start (.write plan) => plan = c.shared.plan
  | _ => True

/-
  When a call writes a flag that is not the one to be, after
  a call but the first ones has read the cameras, another
  write of that camera's flag is to come.
-/
def SlowWritesCovered
    (first : Nat)
    (c : CapConfig)
    (event : CapEvent) : Prop :=
  match Calls.resumed c event with
  | some (.writing _ (flip :: _) _, false) =>
      flip.2 ≠ wanted c.shared flip.1 → Confirmed first c →
        ∃ call ∈ (capStep c event).calls,
          (flip.1, wanted c.shared flip.1) ∈ call.pending
  | _ => True

instance (first : Nat) (c : CapConfig) :
    Decidable (Confirmed first c) :=
  inferInstanceAs
    (Decidable (∃ call ∈ c.calls.drop first, _))

instance (c : CapConfig) (event : CapEvent) :
    Decidable (Steady c event) := by
  unfold Steady
  split <;> infer_instance

instance (first : Nat) (c : CapConfig) (event : CapEvent) :
    Decidable (SlowWritesCovered first c event) := by
  unfold SlowWritesCovered
  split <;> infer_instance

--------------------
-- One Flag
--------------------

theorem setDisabled_keys
    (flip : String × Bool)
    (camera : CapCamera) :
    (setDisabled flip camera).cameraId = camera.cameraId ∧
      (setDisabled flip camera).createdAt = camera.createdAt ∧
      (setDisabled flip camera).id = camera.id := by
  unfold setDisabled
  split <;> exact ⟨rfl, rfl, rfl⟩

theorem disabled_setDisabled
    (flip : String × Bool)
    (camera : CapCamera) :
    (setDisabled flip camera).disabled =
      if camera.cameraId = flip.1 then flip.2
      else camera.disabled := by
  unfold setDisabled
  split
  · rfl
  · rfl

/- The order of the cameras is not about their flags. -/
theorem byAge_setDisabled
    (flip : String × Bool)
    (cameras : List CapCamera) :
    byAge (cameras.map (setDisabled flip)) =
      (byAge cameras).map (setDisabled flip) := by
  unfold byAge
  refine (List.map_insertionSort _ _ _ _ ?_).symm
  intro a _ b _
  rcases setDisabled_keys flip a with ⟨-, hCreatedA, hIdA⟩
  rcases setDisabled_keys flip b with ⟨-, hCreatedB, hIdB⟩
  unfold CapCamera.before
  rw [hCreatedA, hCreatedB, hIdA, hIdB]

theorem shouldDisable_setDisabled
    (flip : String × Bool)
    (plan : String)
    (cameras : List CapCamera)
    (cameraId : String) :
    shouldDisable plan (cameras.map (setDisabled flip))
        cameraId =
      shouldDisable plan cameras cameraId := by
  have hIds :
      keepIds plan (cameras.map (setDisabled flip)) =
        keepIds plan cameras := by
    unfold keepIds
    rw [← List.map_take, List.map_map]
    apply List.map_congr_left
    intro camera _
    exact (setDisabled_keys flip camera).1
  unfold shouldDisable
  rw [hIds]

theorem wanted_setDisabled
    (s : CapState)
    (flip : String × Bool)
    (cameraId : String) :
    wanted
        { s with cameras := s.cameras.map (setDisabled flip) }
        cameraId =
      wanted s cameraId := by
  unfold wanted
  dsimp only
  rw [byAge_setDisabled, shouldDisable_setDisabled]

theorem mem_byAge
    {cameras : List CapCamera}
    {camera : CapCamera} :
    camera ∈ byAge cameras ↔ camera ∈ cameras :=
  List.mem_insertionSort _

/- A flag that is not the one to be is among the flips. -/
theorem mem_flipsOf
    {s : CapState}
    {camera : CapCamera}
    (hCamera : camera ∈ s.cameras)
    (hWrong : camera.disabled ≠ wanted s camera.cameraId) :
    (camera.cameraId, wanted s camera.cameraId) ∈
      flipsOf s.plan (byAge s.cameras) := by
  unfold flipsOf
  refine List.mem_filterMap.mpr
    ⟨camera, mem_byAge.mpr hCamera, ?_⟩
  exact if_pos hWrong

/- The cameras whose ids are kept are the first ones. -/
theorem filter_kept
    {cameras : List CapCamera}
    (hNodup : (cameras.map CapCamera.cameraId).Nodup)
    (cap : Nat) :
    cameras.filter
        (fun camera =>
          ((cameras.take cap).map CapCamera.cameraId).contains
            camera.cameraId) =
      cameras.take cap := by
  have hSplit := List.take_append_drop cap cameras
  have hFirst :
      (cameras.take cap).filter
          (fun camera =>
            ((cameras.take cap).map
              CapCamera.cameraId).contains camera.cameraId) =
        cameras.take cap := by
    apply List.filter_eq_self.mpr
    intro camera hCamera
    rw [List.contains_iff_mem]
    exact List.mem_map_of_mem hCamera
  have hRest :
      (cameras.drop cap).filter
          (fun camera =>
            ((cameras.take cap).map
              CapCamera.cameraId).contains camera.cameraId) =
        [] := by
    rw [List.filter_eq_nil_iff]
    intro camera hCamera hIn
    rw [List.contains_iff_mem] at hIn
    rw [← hSplit, List.map_append] at hNodup
    exact List.disjoint_of_nodup_append hNodup hIn
      (List.mem_map_of_mem hCamera)
  calc cameras.filter
        (fun camera =>
          ((cameras.take cap).map CapCamera.cameraId).contains
            camera.cameraId)
      = (cameras.take cap ++ cameras.drop cap).filter
          (fun camera =>
            ((cameras.take cap).map
              CapCamera.cameraId).contains
                camera.cameraId) := by rw [hSplit]
    _ = cameras.take cap ++ [] := by
        rw [List.filter_append, hFirst, hRest]
    _ = cameras.take cap := List.append_nil _

/- With distinct ids the flags say which cameras are kept. -/
theorem converged_of_wanted
    {s : CapState}
    (hDistinct : (s.cameras.map CapCamera.cameraId).Nodup)
    (hWanted :
      ∀ camera ∈ s.cameras,
        camera.disabled = wanted s camera.cameraId) :
    Converged s := by
  have hNodup :
      ((byAge s.cameras).map CapCamera.cameraId).Nodup :=
    ((List.perm_insertionSort _ s.cameras).map _).nodup_iff.mpr
      hDistinct
  have hEnabled (camera : CapCamera)
      (hCamera : camera ∈ byAge s.cameras) :
      (!camera.disabled) =
        (keepIds s.plan (byAge s.cameras)).contains
          camera.cameraId := by
    rw [hWanted camera (mem_byAge.mp hCamera)]
    unfold wanted shouldDisable
    rw [Bool.not_not]
  unfold Converged
  rw [List.filter_congr hEnabled]
  exact filter_kept hNodup (capOf s.plan)

--------------------
-- The Invariant
--------------------

variable {first : Nat} {plan : String} {c : CapConfig}

/- A flag is the one to be, or a write of it is to come. -/
def Coming (c : CapConfig) (camera : CapCamera) : Prop :=
  camera.disabled = wanted c.shared camera.cameraId ∨
    ∃ call ∈ c.calls,
      (camera.cameraId, wanted c.shared camera.cameraId) ∈
        call.pending

/-
  While the plan stays what it is, the calls but the first
  ones work with it, and as soon as one of them has read the
  cameras every flag is on its way.
-/
structure CapInv
    (first : Nat)
    (plan : String)
    (c : CapConfig) : Prop where
  steady : c.shared.plan = plan
  started : first ≤ c.calls.length
  distinct : (c.shared.cameras.map CapCamera.cameraId).Nodup
  fresh :
    ∀ call ∈ c.calls.drop first, ∀ other,
      call = .planRead other → other = plan
  coming :
    CapCall.failed ∉ c.calls → Confirmed first c →
      ∀ camera ∈ c.shared.cameras, Coming c camera

/- The calls but the first ones, when one of all goes on. -/
theorem mem_drop_set
    {calls : List CapCall}
    {id : Nat}
    {next other : CapCall}
    (hOther : other ∈ (calls.set id next).drop first) :
    other ∈ calls.drop first ∨ (other = next ∧ first ≤ id) := by
  rw [List.drop_set] at hOther
  split at hOther
  · exact Or.inl hOther
  · rename_i hLate
    rcases List.mem_or_eq_of_mem_set hOther with hIn | rfl
    · exact Or.inl hIn
    · exact Or.inr ⟨rfl, Nat.le_of_not_lt hLate⟩

theorem mem_drop_of_getElem
    {calls : List CapCall}
    {id : Nat}
    {call : CapCall}
    (hCall : calls[id]? = some call)
    (hLate : first ≤ id) :
    call ∈ calls.drop first := by
  apply List.mem_of_getElem? (i := id - first)
  rw [List.getElem?_drop, Nat.add_sub_cancel' hLate]
  exact hCall

/- A call that had read the cameras, or the one that does. -/
theorem confirmed_of_resumed
    {s : CapState}
    {id : Nat}
    {call next : CapCall}
    (hCall : c.calls[id]? = some call)
    (hConfirmed :
      Confirmed first
        { shared := s, calls := c.calls.set id next }) :
    Confirmed first c ∨
      (first ≤ id ∧ next.hasRead = true ∧
        call.hasRead = false) := by
  rcases hConfirmed with ⟨other, hOther, hRead⟩
  rcases mem_drop_set hOther with hIn | ⟨rfl, hLate⟩
  · exact Or.inl ⟨other, hIn, hRead⟩
  · cases hBefore : call.hasRead with
    | true =>
        exact Or.inl
          ⟨call, mem_drop_of_getElem hCall hLate, hBefore⟩
    | false => exact Or.inr ⟨hLate, hRead, rfl⟩

theorem not_failed_of_set
    {calls : List CapCall}
    {id : Nat}
    {call next : CapCall}
    (hCall : calls[id]? = some call)
    (hLive : call ≠ .failed)
    (hNot : CapCall.failed ∉ calls.set id next) :
    CapCall.failed ∉ calls := by
  intro hFailed
  exact hNot
    (Calls.mem_resume_of_ne hCall hFailed (Ne.symm hLive))

/- A write that was to come still is, but for the one made. -/
theorem pending_resumed
    {calls : List CapCall}
    {id : Nat}
    {call next : CapCall}
    {flip : String × Bool}
    (hCall : calls[id]? = some call)
    (hKeeps : flip ∈ call.pending → flip ∈ next.pending)
    (hComing : ∃ other ∈ calls, flip ∈ other.pending) :
    ∃ other ∈ calls.set id next, flip ∈ other.pending := by
  rcases hComing with ⟨other, hOther, hIn⟩
  by_cases hIs : other = call
  · exact ⟨next, Calls.mem_resume_self next hCall,
      hKeeps (hIs ▸ hIn)⟩
  · exact ⟨other, Calls.mem_resume_of_ne hCall hOther hIs, hIn⟩

--------------------
-- Steps
--------------------

theorem capInv_resumed
    {s : CapState}
    {id : Nat}
    {next : CapCall}
    (hInv : CapInv first plan c)
    (hPlan : s.plan = c.shared.plan)
    (hIds :
      s.cameras.map CapCamera.cameraId =
        c.shared.cameras.map CapCamera.cameraId)
    (hFresh : ∀ other, next = .planRead other → other = plan)
    (hComing :
      CapCall.failed ∉ c.calls.set id next →
        Confirmed first
            { shared := s, calls := c.calls.set id next } →
          ∀ camera ∈ s.cameras,
            Coming
              { shared := s, calls := c.calls.set id next }
              camera) :
    CapInv first plan
      { shared := s, calls := c.calls.set id next } where
  steady := hPlan.trans hInv.steady
  started := by
    dsimp only
    rw [List.length_set]
    exact hInv.started
  distinct := by
    dsimp only
    rw [hIds]
    exact hInv.distinct
  fresh := by
    intro call hCall other hIs
    rcases mem_drop_set hCall with hIn | ⟨hNext, -⟩
    · exact hInv.fresh call hIn other hIs
    · exact hFresh other (hNext ▸ hIs)
  coming := hComing

/- A call goes on without a statement that says anything. -/
theorem capInv_quiet
    {id : Nat}
    {call next : CapCall}
    (hInv : CapInv first plan c)
    (hCall : c.calls[id]? = some call)
    (hLive : call = .failed → next = .failed)
    (hFresh : ∀ other, next = .planRead other → other = plan)
    (hRead : next.hasRead = true → call.hasRead = true)
    (hKeeps : ∀ flip ∈ call.pending, flip ∈ next.pending) :
    CapInv first plan
      { shared := c.shared, calls := c.calls.set id next } := by
  refine capInv_resumed hInv rfl rfl hFresh ?_
  intro hNot hConfirmed camera hCamera
  have hAlive : call ≠ .failed := by
    intro hFailed
    exact hNot (hLive hFailed ▸ Calls.mem_resume_self next hCall)
  rcases confirmed_of_resumed hCall hConfirmed with
    hBefore | ⟨-, hAfter, hNotBefore⟩
  · have hComing :=
      hInv.coming (not_failed_of_set hCall hAlive hNot)
        hBefore camera hCamera
    exact hComing.imp_right
      (pending_resumed hCall (hKeeps _))
  · rw [hRead hAfter] at hNotBefore
    contradiction

theorem capInv_failed
    {id : Nat}
    {call : CapCall}
    (hInv : CapInv first plan c)
    (hCall : c.calls[id]? = some call) :
    CapInv first plan
      { shared := c.shared
        calls := c.calls.set id .failed } := by
  refine capInv_resumed hInv rfl rfl
    (fun _ h => CapCall.noConfusion h) ?_
  intro hNot
  exact absurd (Calls.mem_resume_self .failed hCall) hNot

/- The read that puts every wrong flag on its way. -/
theorem capInv_read
    {id : Nat}
    {other : String}
    (hInv : CapInv first plan c)
    (hCall : c.calls[id]? = some (.planRead other)) :
    CapInv first plan
      { shared := c.shared
        calls :=
          c.calls.set id
            (.writing other
              (flipsOf other (byAge c.shared.cameras))
              (!(flipsOf other
                (byAge c.shared.cameras)).isEmpty)) } := by
  refine capInv_resumed hInv rfl rfl
    (fun _ h => CapCall.noConfusion h) ?_
  intro hNot hConfirmed camera hCamera
  rcases confirmed_of_resumed hCall hConfirmed with
    hBefore | ⟨hLate, -, -⟩
  · have hComing :=
      hInv.coming
        (not_failed_of_set hCall (by simp) hNot) hBefore
        camera hCamera
    refine hComing.imp_right (pending_resumed hCall ?_)
    exact fun h => absurd h List.not_mem_nil
  · have hPlan :=
      hInv.fresh _ (mem_drop_of_getElem hCall hLate) other rfl
    by_cases hRight :
        camera.disabled =
          wanted c.shared camera.cameraId
    · exact Or.inl hRight
    · right
      refine ⟨_, Calls.mem_resume_self _ hCall, ?_⟩
      have hFlip := mem_flipsOf hCamera hRight
      rw [hInv.steady, ← hPlan] at hFlip
      exact hFlip

/- One flag is written, the right one or with another to come. -/
theorem capInv_write
    {id : Nat}
    {other : String}
    {flip : String × Bool}
    {rest : List (String × Bool)}
    {changed : Bool}
    (hInv : CapInv first plan c)
    (hCall :
      c.calls[id]? = some (.writing other (flip :: rest) changed))
    (hCovered :
      flip.2 ≠ wanted c.shared flip.1 → Confirmed first c →
        ∃ call ∈ c.calls.set id (.writing other rest changed),
          (flip.1, wanted c.shared flip.1) ∈ call.pending) :
    CapInv first plan
      { shared :=
          { c.shared with
            cameras := c.shared.cameras.map (setDisabled flip) }
        calls :=
          c.calls.set id (.writing other rest changed) } := by
  have hIds :
      (c.shared.cameras.map (setDisabled flip)).map
          CapCamera.cameraId =
        c.shared.cameras.map CapCamera.cameraId := by
    rw [List.map_map]
    apply List.map_congr_left
    intro camera _
    exact (setDisabled_keys flip camera).1
  refine capInv_resumed hInv rfl hIds
    (fun _ h => CapCall.noConfusion h) ?_
  intro hNot hConfirmed camera hCamera
  rcases List.mem_map.mp hCamera with ⟨before, hBefore, rfl⟩
  have hConfirmedBefore : Confirmed first c := by
    rcases confirmed_of_resumed hCall hConfirmed with
      hDone | ⟨-, -, hNotBefore⟩
    · exact hDone
    · contradiction
  have hComing :=
    hInv.coming (not_failed_of_set hCall (by simp) hNot)
      hConfirmedBefore before hBefore
  unfold Coming at hComing ⊢
  dsimp only
  rw [disabled_setDisabled, (setDisabled_keys flip before).1,
    wanted_setDisabled]
  by_cases hHere : before.cameraId = flip.1
  · rw [if_pos hHere, hHere]
    by_cases hRight : flip.2 = wanted c.shared flip.1
    · exact Or.inl hRight
    · exact Or.inr (hCovered hRight hConfirmedBefore)
  · rw [if_neg hHere]
    refine hComing.imp_right (pending_resumed hCall ?_)
    intro hPending
    rcases List.mem_cons.mp hPending with hIs | hIn
    · exact absurd (congrArg Prod.fst hIs) hHere
    · exact hIn

theorem capInv_resume
    {id : Nat}
    {fails : Bool}
    (hInv : CapInv first plan c)
    (hCovered :
      SlowWritesCovered first c (.resume id fails)) :
    CapInv first plan (capStep c (.resume id fails)) := by
  cases hCall : c.calls[id]? with
  | none => simpa [capStep, Calls.step, hCall] using hInv
  | some call =>
      have hStep :
          capStep c (.resume id fails) =
            { shared := (resumeCap c.shared call fails).1
              calls :=
                c.calls.set id
                  (resumeCap c.shared call fails).2 } := by
        simp only [capStep, Calls.step, hCall]
        rfl
      rw [hStep]
      cases call with
      | starting =>
          refine capInv_quiet hInv hCall
            (fun h => CapCall.noConfusion h) ?_ (fun h => h)
            (fun _ h => h)
          intro other hIs
          exact (CapCall.planRead.inj hIs).symm.trans
            hInv.steady
      | planRead other =>
          cases fails with
          | true => exact capInv_failed hInv hCall
          | false => exact capInv_read hInv hCall
      | writing other flips changed =>
          cases flips with
          | nil =>
              exact capInv_quiet hInv hCall
                (fun h => CapCall.noConfusion h)
                (fun _ h => CapCall.noConfusion h)
                (fun _ => rfl) (fun _ h => h)
          | cons flip rest =>
              cases fails with
              | true => exact capInv_failed hInv hCall
              | false =>
                  refine capInv_write hInv hCall ?_
                  have hResumed :
                      Calls.resumed c
                          (.resume id false : CapEvent) =
                        some
                          (.writing other (flip :: rest)
                            changed, false) := by
                    simp [Calls.resumed, hCall]
                  unfold SlowWritesCovered at hCovered
                  rw [hResumed, hStep] at hCovered
                  exact hCovered
      | finished changed =>
          exact capInv_quiet hInv hCall
            (fun h => CapCall.noConfusion h)
            (fun _ h => CapCall.noConfusion h) (fun h => h)
            (fun _ h => h)
      | failed =>
          exact capInv_quiet hInv hCall (fun _ => rfl)
            (fun _ h => CapCall.noConfusion h) (fun h => h)
            (fun _ h => h)

theorem capInv_started (hInv : CapInv first plan c) :
    CapInv first plan
      { shared := c.shared
        calls := c.calls ++ [.starting] } := by
  have hDrop :
      (c.calls ++ [CapCall.starting]).drop first =
        c.calls.drop first ++ [.starting] :=
    List.drop_append_of_le_length hInv.started
  constructor
  · exact hInv.steady
  · exact Nat.le_trans hInv.started (by simp)
  · exact hInv.distinct
  · intro call hCall
    dsimp only at hCall
    rw [hDrop] at hCall
    exact Calls.forall_started hInv.fresh
      (fun _ h => CapCall.noConfusion h) call hCall
  · intro hNot hConfirmed camera hCamera
    have hBefore : Confirmed first c := by
      unfold Confirmed at hConfirmed
      dsimp only at hConfirmed
      rw [hDrop] at hConfirmed
      rcases Calls.exists_started_iff.mp hConfirmed with
        hDone | hNew
      · exact hDone
      · contradiction
    have hAlive : CapCall.failed ∉ c.calls :=
      fun h => hNot (List.mem_append_left _ h)
    refine (hInv.coming hAlive hBefore camera hCamera).imp_right
      ?_
    rintro ⟨call, hCall, hPending⟩
    exact ⟨call, List.mem_append_left _ hCall, hPending⟩

theorem capInv_step
    (event : CapEvent)
    (hInv : CapInv first plan c)
    (hSteady : Steady c event)
    (hCovered : SlowWritesCovered first c event) :
    CapInv first plan (capStep c event) := by
  cases event with
  | resume id fails => exact capInv_resume hInv hCovered
  | start what =>
      cases what with
      | write other =>
          have hSame : capStep c (.start (.write other)) = c := by
            unfold Steady at hSteady
            subst hSteady
            simp [capStep, Calls.step, capProgram, beginCap]
          rw [hSame]
          exact hInv
      | enforce => exact capInv_started hInv

--------------------
-- Runs
--------------------

/- No call is lost, and one more is there for each start. -/
theorem length_capStep
    (c : CapConfig)
    (event : CapEvent) :
    c.calls.length ≤ (capStep c event).calls.length ∧
      (event = .start .enforce →
        c.calls.length < (capStep c event).calls.length) := by
  cases event with
  | start what =>
      constructor
      · simp [capStep, Calls.step]
      · rintro ⟨rfl⟩
        simp [capStep, Calls.step, capProgram, beginCap]
  | resume id fails =>
      cases hCall : c.calls[id]? with
      | none => simp [capStep, Calls.step, hCall]
      | some call => simp [capStep, Calls.step, hCall]

theorem length_exec
    (events : List CapEvent)
    (c : CapConfig) :
    c.calls.length ≤ (Run.exec capStep c events).calls.length ∧
      (.start .enforce ∈ events →
        c.calls.length <
          (Run.exec capStep c events).calls.length) := by
  induction events generalizing c with
  | nil => exact ⟨Nat.le_refl _, fun h => absurd h List.not_mem_nil⟩
  | cons event rest ih =>
      have hStep := length_capStep c event
      have hRest := ih (capStep c event)
      rw [Run.exec_cons]
      refine ⟨Nat.le_trans hStep.1 hRest.1, ?_⟩
      intro hStart
      rcases List.mem_cons.mp hStart with hIs | hIn
      · exact Nat.lt_of_lt_of_le (hStep.2 hIs.symm) hRest.1
      · exact Nat.lt_of_le_of_lt hStep.1 (hRest.2 hIn)

/- No statement touches the cameras but for their flags. -/
theorem ids_resumeCap
    (s : CapState)
    (call : CapCall)
    (fails : Bool) :
    (resumeCap s call fails).1.cameras.map
        CapCamera.cameraId =
      s.cameras.map CapCamera.cameraId := by
  cases call with
  | planRead plan => cases fails <;> rfl
  | writing plan flips changed =>
      cases flips with
      | nil => rfl
      | cons flip rest =>
          cases fails with
          | true => rfl
          | false =>
              refine (List.map_map ..).trans ?_
              apply List.map_congr_left
              intro camera _
              exact (setDisabled_keys flip camera).1
  | starting => rfl
  | finished changed => rfl
  | failed => rfl

theorem distinct_capStep
    (c : CapConfig)
    (event : CapEvent)
    (hDistinct :
      (c.shared.cameras.map CapCamera.cameraId).Nodup) :
    ((capStep c event).shared.cameras.map
      CapCamera.cameraId).Nodup := by
  cases event with
  | start what => cases what <;> exact hDistinct
  | resume id fails =>
      cases hCall : c.calls[id]? with
      | none => simpa [capStep, Calls.step, hCall] using hDistinct
      | some call =>
          have hIds := ids_resumeCap c.shared call fails
          simpa [capStep, Calls.step, hCall, capProgram, hIds]
            using hDistinct

theorem capInv_first
    (hDistinct :
      (c.shared.cameras.map CapCamera.cameraId).Nodup) :
    CapInv c.calls.length c.shared.plan c where
  steady := rfl
  started := Nat.le_refl _
  distinct := hDistinct
  fresh := by
    rw [List.drop_length]
    exact fun call hCall => absurd hCall List.not_mem_nil
  coming := by
    rintro - ⟨call, hCall, -⟩
    rw [List.drop_length] at hCall
    exact absurd hCall List.not_mem_nil

/- With no write left to come every flag is the one to be. -/
theorem converged_of_finished
    (hInv : CapInv first plan c)
    (hMore : first < c.calls.length)
    (hDone : ∀ call ∈ c.calls, call.isFinished = true) :
    Converged c.shared := by
  have hAlive : CapCall.failed ∉ c.calls :=
    fun h => absurd (hDone _ h) (by decide)
  have hConfirmed : Confirmed first c := by
    have hLast : c.calls[first] ∈ c.calls.drop first :=
      mem_drop_of_getElem (List.getElem?_eq_getElem hMore)
        (Nat.le_refl first)
    refine ⟨_, hLast, ?_⟩
    have hFinished := hDone _ (List.mem_of_mem_drop hLast)
    cases hCall : c.calls[first] <;>
      simp_all [CapCall.isFinished, CapCall.hasRead]
  apply converged_of_wanted hInv.distinct
  intro camera hCamera
  rcases hInv.coming hAlive hConfirmed camera hCamera with
    hRight | ⟨call, hCall, hPending⟩
  · exact hRight
  · have hFinished := hDone call hCall
    cases call <;>
      simp_all [CapCall.isFinished, CapCall.pending]

/-
  The plan is written for the last time in `before`, and a
  call is started in `after`. Once every call has finished
  the cap is in force, when every late write of an older
  plan's flag was followed by one of the flag to be.
-/
theorem camera_cap_converges
    (s : CapState)
    (before after : List CapEvent)
    (hDistinct : (s.cameras.map CapCamera.cameraId).Nodup)
    (hSteady :
      Run.Meets capStep Steady
        (Run.exec capStep (Calls.initial s) before) after)
    (hStarted : .start .enforce ∈ after)
    (hDone :
      ∀ call ∈
        (Run.exec capStep (Calls.initial s)
          (before ++ after)).calls,
        call.isFinished = true)
    (hCovered :
      Run.Meets capStep
        (SlowWritesCovered
          (Run.exec capStep (Calls.initial s)
            before).calls.length)
        (Run.exec capStep (Calls.initial s) before) after) :
    Converged
      (Run.exec capStep (Calls.initial s)
        (before ++ after)).shared := by
  have hStill :=
    Run.invariant_exec distinct_capStep before
      (s := Calls.initial s) hDistinct
  have hInv :=
    Run.invariant_of_meets
      (fun c event hInv hOk =>
        capInv_step event hInv hOk.1 hOk.2)
      (capInv_first hStill) (Run.meets_and hSteady hCovered)
  have hMore :=
    (length_exec after
      (Run.exec capStep (Calls.initial s) before)).2 hStarted
  rw [Run.exec_append] at hDone ⊢
  exact converged_of_finished hInv hMore hDone

/- Six cameras under a cap of five or of twenty-five. -/
def sixCameras (plan : String) (sixth : Bool) : CapState where
  plan := plan
  cameras :=
    ["a", "b", "c", "d", "e"].mapIdx
        (fun i cameraId =>
          { id := i
            cameraId := cameraId
            createdAt := some i
            disabledByPlan := some false }) ++
      [{ id := 5
         cameraId := "f"
         createdAt := none
         disabledByPlan := some sixth }]

def enforceOnce (id : Nat) : List CapEvent :=
  [.start .enforce, .resume id false, .resume id false,
    .resume id false, .resume id false]

theorem camera_cap_converges_upgrade :
    Converged
      (Run.exec capStep (Calls.initial (sixCameras "free_org" true))
        ([.start (.write "pro")] ++ enforceOnce 0)).shared :=
  camera_cap_converges (sixCameras "free_org" true)
    [.start (.write "pro")] (enforceOnce 0) (by decide)
    (by decide) (by decide) (by decide) (by decide)

/-
  A call that read the free plan writes its one flag after a
  call under the new plan has found nothing to do.
-/
def readBeforeUpgrade : List CapEvent :=
  [.start .enforce, .resume 0 false, .resume 0 false,
    .start (.write "pro")]

def writtenAfterUpgrade : List CapEvent :=
  [.start .enforce, .resume 1 false, .resume 1 false,
    .resume 1 false, .resume 0 false, .resume 0 false]

theorem slow_call_disables_camera :
    Run.Meets capStep Steady
        (Run.exec capStep
          (Calls.initial (sixCameras "free_org" false))
          readBeforeUpgrade)
        writtenAfterUpgrade ∧
      .start .enforce ∈ writtenAfterUpgrade ∧
      (∀ call ∈
        (Run.exec capStep
          (Calls.initial (sixCameras "free_org" false))
          (readBeforeUpgrade ++ writtenAfterUpgrade)).calls,
        call.isFinished = true) ∧
      ¬ Converged
        (Run.exec capStep
          (Calls.initial (sixCameras "free_org" false))
          (readBeforeUpgrade ++ writtenAfterUpgrade)).shared := by
  decide

end Plans

end SentinelCommand
