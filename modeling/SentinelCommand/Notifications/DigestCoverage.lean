import SentinelCommand.Notifications.MotionCooldown

/-
  Which silenced motion events a digest accounts for.

  A silenced event is live while the window that silenced it
  is still anchored, and it is settled once the anchor is
  gone or has moved past it. The digest loop settles live
  events by counting them; a motion event that re-arms an
  expired anchor settles them uncounted, and so does one
  that shares its instant with the anchor that silences it.

  Main declarations:
    * `MotionCooldown.AllCountedOnce`
    * `MotionCooldown.allCountedOnce_iff`
    * `MotionCooldown.rearmed_window_is_lost`
-/

--------------------
-- Accounting
--------------------

namespace SentinelCommand

namespace MotionCooldown

/- How many emitted digests counted an event. -/
def Camera.timesCounted
    (camera : Camera)
    (e : MotionEvent) : Nat :=
  camera.digests.countP (fun d => e ∈ d.counted)

/- Every silenced event is counted by exactly one digest. -/
def AllCountedOnce (camera : Camera) : Prop :=
  ∀ e ∈ camera.events, e.silenced = true →
    camera.timesCounted e = 1

/- The anchor still precedes the event. -/
def Camera.Live
    (camera : Camera)
    (e : MotionEvent) : Prop :=
  ∃ start, camera.anchor = some (.stamped start) ∧
    start < e.timestamp

/- A silenced event no digest counted and none will. -/
def Camera.Lost
    (camera : Camera)
    (e : MotionEvent) : Prop :=
  e ∈ camera.events ∧ e.silenced = true ∧
    ¬ camera.Live e ∧ camera.timesCounted e = 0

/- The server clock never goes back. -/
def InOrder (camera : Camera) (op : Op) : Prop :=
  camera.clock ≤ op.now

/-
  A motion event does not come at the very instant of the
  anchor that silences it, and it does not re-arm an expired
  anchor while a motion event waits in its window.
-/
def LosesNothing
    (cooldown : Cooldown)
    (camera : Camera) : Op → Prop
| .tick _ => True
| .motion now =>
    ∀ start, camera.anchor = some (.stamped start) →
      if windowOpen cooldown start now then
        start < now
      else
        ∀ e ∈ camera.events,
          ¬ (start < e.timestamp ∧
              e.timestamp ≤ windowEnd cooldown start)

/-
  What every run keeps: anchors are stamps of the past, rows
  carry their arrival number and a past timestamp, digests
  count rows, live rows are silenced ones inside the window,
  and no silenced row is counted twice.
-/
structure Tidy
    (cooldown : Cooldown)
    (camera : Camera) : Prop where
  anchor_stamped :
    ∀ text, camera.anchor = some text →
      ∃ start, text = .stamped start ∧ start ≤ camera.clock
  timestamp_le :
    ∀ e ∈ camera.events, e.timestamp ≤ camera.clock
  seq_lt :
    ∀ e ∈ camera.events, e.seq < camera.events.length
  counted_mem :
    ∀ d ∈ camera.digests, ∀ e ∈ d.counted,
      e ∈ camera.events
  live :
    ∀ e ∈ camera.events, ∀ start,
      camera.anchor = some (.stamped start) →
        start < e.timestamp →
          e.silenced = true ∧
            e.timestamp ≤ windowEnd cooldown start ∧
            camera.timesCounted e = 0
  settled :
    ∀ e ∈ camera.events, e.silenced = true →
      camera.timesCounted e ≤ 1

theorem tidy_quiet
    (cooldown : Cooldown)
    (clock : Int) :
    Tidy cooldown (quiet clock) := by
  constructor <;> simp [quiet]

--------------------
-- The Four Moves
--------------------

variable {cooldown : Cooldown} {camera : Camera}

/- An event inside an open window. -/
def Camera.silence (camera : Camera) (now : Int) : Camera :=
  { camera with
    events := camera.events ++
      [⟨camera.events.length, now, true⟩]
    clock := now }

/- An event that is mailed at once and anchors a window. -/
def Camera.rearm (camera : Camera) (now : Int) : Camera :=
  { camera with
    anchor := some (.stamped now)
    events := camera.events ++
      [⟨camera.events.length, now, false⟩]
    clock := now }

/- A tick with no window to close. -/
def Camera.idle (camera : Camera) (now : Int) : Camera :=
  { camera with clock := now }

/- A tick that closes the window that starts at `start`. -/
def Camera.close
    (cooldown : Cooldown)
    (camera : Camera)
    (start now : Int) : Camera :=
  { camera with
    anchor := none
    digests :=
      emitDigest cooldown start
        (extraEvents cooldown camera.events start)
        camera.digests
    clock := now }

/- A motion event silences or re-arms. -/
theorem motion_cases
    (hTidy : Tidy cooldown camera)
    (now : Int) :
    (∃ start, camera.anchor = some (.stamped start) ∧
      windowOpen cooldown start now = true ∧
      step cooldown camera (.motion now) =
        camera.silence now) ∨
    ((∀ start, camera.anchor = some (.stamped start) →
      windowOpen cooldown start now = false) ∧
      step cooldown camera (.motion now) =
        camera.rearm now) := by
  cases hAnchor : camera.anchor with
  | none =>
      refine Or.inr ⟨by simp, ?_⟩
      simp [step, motion, claimMotionCooldownOrSilence,
        hAnchor, Camera.rearm]
  | some text =>
      rcases hTidy.anchor_stamped text hAnchor with
        ⟨start, rfl, _⟩
      cases hOpen : windowOpen cooldown start now with
      | true =>
          refine Or.inl ⟨start, rfl, hOpen, ?_⟩
          simp [step, motion, claimMotionCooldownOrSilence,
            hAnchor, hOpen, Camera.silence]
      | false =>
          refine Or.inr ⟨?_, ?_⟩
          · intro other hOther
            cases hOther
            exact hOpen
          · simp [step, motion,
              claimMotionCooldownOrSilence, hAnchor, hOpen,
              Camera.rearm]

/- A tick idles or closes an expired window. -/
theorem tick_cases
    (hTidy : Tidy cooldown camera)
    (now : Int) :
    ((∀ start, camera.anchor = some (.stamped start) →
      windowOpen cooldown start now = true) ∧
      step cooldown camera (.tick now) = camera.idle now) ∨
    (∃ start, camera.anchor = some (.stamped start) ∧
      windowOpen cooldown start now = false ∧
      step cooldown camera (.tick now) =
        camera.close cooldown start now) := by
  cases hAnchor : camera.anchor with
  | none =>
      refine Or.inl ⟨by simp, ?_⟩
      simp [step, runMotionDigest, hAnchor, Camera.idle]
  | some text =>
      rcases hTidy.anchor_stamped text hAnchor with
        ⟨start, rfl, _⟩
      cases hOpen : windowOpen cooldown start now with
      | true =>
          refine Or.inl ⟨?_, ?_⟩
          · intro other hOther
            cases hOther
            exact hOpen
          · simp [step, runMotionDigest, hAnchor,
              AnchorText.parsed, hOpen, Camera.idle]
      | false =>
          refine Or.inr ⟨start, rfl, hOpen, ?_⟩
          simp [step, runMotionDigest, hAnchor,
            AnchorText.parsed, hOpen, Camera.close]

theorem mem_extraEvents
    {events : List MotionEvent}
    {start : Int}
    {e : MotionEvent} :
    e ∈ extraEvents cooldown events start ↔
      e ∈ events ∧ start < e.timestamp ∧
        e.timestamp ≤ windowEnd cooldown start := by
  simp [extraEvents]

/- A digest adds one to the count of what it selected. -/
theorem countP_emitDigest
    (cooldown : Cooldown)
    (start : Int)
    (extra : List MotionEvent)
    (digests : List Digest)
    (e : MotionEvent) :
    (emitDigest cooldown start extra digests).countP
        (fun d => e ∈ d.counted) =
      digests.countP (fun d => e ∈ d.counted) +
        if e ∈ extra then 1 else 0 := by
  by_cases hMem : e ∈ extra
  · have hSome : extra.length > 0 :=
      List.length_pos_of_mem hMem
    simp [emitDigest, hSome, hMem]
  · by_cases hSome : extra.length > 0
    · simp [emitDigest, hSome, hMem]
    · simp [emitDigest, hSome, hMem]

/- Closing a window counts exactly its live rows. -/
theorem timesCounted_close
    (camera : Camera)
    {start now : Int}
    {e : MotionEvent}
    (hMem : e ∈ camera.events) :
    (camera.close cooldown start now).timesCounted e =
      camera.timesCounted e +
        if start < e.timestamp ∧
            e.timestamp ≤ windowEnd cooldown start then
          1
        else
          0 := by
  have hCount :=
    countP_emitDigest cooldown start
      (extraEvents cooldown camera.events start)
      camera.digests e
  simpa [Camera.timesCounted, Camera.close, mem_extraEvents,
    hMem] using hCount

/- The row an event adds was counted by no digest yet. -/
theorem timesCounted_fresh
    (hTidy : Tidy cooldown camera)
    (now : Int)
    (silenced : Bool) :
    camera.timesCounted
      ⟨camera.events.length, now, silenced⟩ = 0 := by
  apply List.countP_eq_zero.mpr
  intro d hDigest hCounted
  have hOld :=
    hTidy.counted_mem d hDigest _ (of_decide_eq_true hCounted)
  have hSeq := hTidy.seq_lt _ hOld
  exact absurd hSeq (Nat.lt_irrefl _)

--------------------
-- Tidy Runs
--------------------

theorem tidy_idle
    (hTidy : Tidy cooldown camera)
    {now : Int}
    (hClock : camera.clock ≤ now) :
    Tidy cooldown (camera.idle now) := by
  constructor
  · intro text hAnchor
    rcases hTidy.anchor_stamped text hAnchor with
      ⟨start, hText, hStart⟩
    exact ⟨start, hText, Int.le_trans hStart hClock⟩
  · intro e hMem
    exact Int.le_trans (hTidy.timestamp_le e hMem) hClock
  · exact hTidy.seq_lt
  · exact hTidy.counted_mem
  · exact hTidy.live
  · exact hTidy.settled

/- The two moves that add a row keep the other rows tidy. -/
theorem tidy_of_append
    (later : Camera)
    {now : Int}
    {silenced : Bool}
    (hTidy : Tidy cooldown camera)
    (hClock : camera.clock ≤ now)
    (hEvents :
      later.events =
        camera.events ++
          [⟨camera.events.length, now, silenced⟩])
    (hDigests : later.digests = camera.digests)
    (hNow : later.clock = now)
    (hAnchor :
      ∀ text, later.anchor = some text →
        ∃ start, text = .stamped start ∧ start ≤ now)
    (hOldLive :
      ∀ e ∈ camera.events, ∀ start,
        later.anchor = some (.stamped start) →
          start < e.timestamp →
            camera.anchor = some (.stamped start))
    (hNewLive :
      ∀ start, later.anchor = some (.stamped start) →
        start < now →
          silenced = true ∧
            now ≤ windowEnd cooldown start) :
    Tidy cooldown later := by
  have hCount :
      ∀ e, later.timesCounted e = camera.timesCounted e := by
    intro e
    simp [Camera.timesCounted, hDigests]
  have hFresh := timesCounted_fresh hTidy now silenced
  constructor
  · rw [hNow]
    exact hAnchor
  · intro e hMem
    rw [hNow]
    rw [hEvents, List.mem_append] at hMem
    rcases hMem with hOld | hNew
    · exact Int.le_trans (hTidy.timestamp_le e hOld) hClock
    · have hSame := List.mem_singleton.mp hNew
      subst hSame
      exact Int.le_refl now
  · intro e hMem
    rw [hEvents, List.mem_append] at hMem
    rw [hEvents, List.length_append, List.length_singleton]
    rcases hMem with hOld | hNew
    · exact Nat.lt_succ_of_lt (hTidy.seq_lt e hOld)
    · rw [List.mem_singleton.mp hNew]
      exact Nat.lt_succ_self _
  · intro d hDigest e hCounted
    rw [hDigests] at hDigest
    rw [hEvents]
    exact List.mem_append_left _
      (hTidy.counted_mem d hDigest e hCounted)
  · intro e hMem start hStart hAfter
    rw [hCount]
    rw [hEvents, List.mem_append] at hMem
    rcases hMem with hOld | hNew
    · exact hTidy.live e hOld start
        (hOldLive e hOld start hStart hAfter) hAfter
    · rw [List.mem_singleton.mp hNew] at hAfter ⊢
      rcases hNewLive start hStart hAfter with
        ⟨hSilenced, hEnd⟩
      exact ⟨hSilenced, hEnd, hFresh⟩
  · intro e hMem hSilenced
    rw [hCount]
    rw [hEvents, List.mem_append] at hMem
    rcases hMem with hOld | hNew
    · exact hTidy.settled e hOld hSilenced
    · rw [List.mem_singleton.mp hNew, hFresh]
      exact Nat.zero_le 1

theorem tidy_silence
    (hTidy : Tidy cooldown camera)
    {now start : Int}
    (hClock : camera.clock ≤ now)
    (hAnchor : camera.anchor = some (.stamped start))
    (hOpen : windowOpen cooldown start now = true) :
    Tidy cooldown (camera.silence now) := by
  have hPast : start ≤ camera.clock := by
    rcases hTidy.anchor_stamped _ hAnchor with
      ⟨other, hText, hOther⟩
    cases hText
    exact hOther
  apply tidy_of_append (camera.silence now) hTidy
    hClock rfl rfl rfl
  · intro text hText
    rcases hTidy.anchor_stamped text hText with
      ⟨other, hStamp, hOther⟩
    exact ⟨other, hStamp, Int.le_trans hOther hClock⟩
  · intro _ _ _ hOther _
    exact hOther
  · intro other hOther hAfter
    have hSame : start = other := by
      simpa [hAnchor] using
        (hAnchor.symm.trans hOther :
          some (AnchorText.stamped start) =
            some (.stamped other))
    subst hSame
    exact
      ⟨rfl,
        le_windowEnd_of_open (Int.le_of_lt hAfter) hOpen⟩

theorem tidy_rearm
    (hTidy : Tidy cooldown camera)
    {now : Int}
    (hClock : camera.clock ≤ now) :
    Tidy cooldown (camera.rearm now) := by
  apply tidy_of_append (camera.rearm now) hTidy
    hClock rfl rfl rfl
  · intro text hText
    cases hText
    exact ⟨now, rfl, Int.le_refl now⟩
  · intro e hMem start hStart hAfter
    cases hStart
    have hPast := hTidy.timestamp_le e hMem
    omega
  · intro start hStart hAfter
    cases hStart
    exact absurd hAfter (Int.lt_irrefl now)

theorem tidy_close
    (hTidy : Tidy cooldown camera)
    {now start : Int}
    (hClock : camera.clock ≤ now)
    (hAnchor : camera.anchor = some (.stamped start)) :
    Tidy cooldown (camera.close cooldown start now) := by
  constructor
  · intro text hText
    cases hText
  · intro e hMem
    exact Int.le_trans (hTidy.timestamp_le e hMem) hClock
  · exact hTidy.seq_lt
  · intro d hDigest e hCounted
    change d ∈ emitDigest cooldown start _ _ at hDigest
    unfold emitDigest at hDigest
    split at hDigest
    · rcases List.mem_append.mp hDigest with hOld | hNew
      · exact hTidy.counted_mem d hOld e hCounted
      · rw [List.mem_singleton.mp hNew] at hCounted
        exact (mem_extraEvents.mp hCounted).1
    · exact hTidy.counted_mem d hDigest e hCounted
  · intro e hMem other hOther
    cases hOther
  · intro e hMem hSilenced
    rw [timesCounted_close camera hMem]
    split
    · rename_i hWindow
      rw [(hTidy.live e hMem start hAnchor hWindow.1).2.2]
    · exact hTidy.settled e hMem hSilenced

theorem tidy_step
    (camera : Camera)
    (op : Op)
    (hTidy : Tidy cooldown camera)
    (hOrder : InOrder camera op) :
    Tidy cooldown (step cooldown camera op) := by
  cases op with
  | motion now =>
      rcases motion_cases hTidy now with
        ⟨start, hAnchor, hOpen, hStep⟩ | ⟨_, hStep⟩
      · rw [hStep]
        exact tidy_silence hTidy hOrder hAnchor hOpen
      · rw [hStep]
        exact tidy_rearm hTidy hOrder
  | tick now =>
      rcases tick_cases hTidy now with
        ⟨_, hStep⟩ | ⟨start, hAnchor, _, hStep⟩
      · rw [hStep]
        exact tidy_idle hTidy hOrder
      · rw [hStep]
        exact tidy_close hTidy hOrder hAnchor

--------------------
-- Lost Events
--------------------

/- No silenced event went uncounted past its window. -/
def NothingLost (camera : Camera) : Prop :=
  ∀ e, ¬ camera.Lost e

/- A past event is not live once `now` is the anchor. -/
theorem not_live_rearm
    (hTidy : Tidy cooldown camera)
    {now : Int}
    (hClock : camera.clock ≤ now)
    {e : MotionEvent}
    (hMem : e ∈ camera.events) :
    ¬ (camera.rearm now).Live e := by
  rintro ⟨start, hAnchor, hAfter⟩
  cases hAnchor
  have hPast := hTidy.timestamp_le e hMem
  omega

/- What is lost before a step is lost after it. -/
theorem lost_step
    (hTidy : Tidy cooldown camera)
    {op : Op}
    (hOrder : InOrder camera op)
    {e : MotionEvent}
    (hLost : camera.Lost e) :
    (step cooldown camera op).Lost e := by
  rcases hLost with ⟨hMem, hSilenced, hDead, hCount⟩
  cases op with
  | motion now =>
      rcases motion_cases hTidy now with
        ⟨start, _, _, hStep⟩ | ⟨_, hStep⟩
      · rw [hStep]
        exact
          ⟨List.mem_append_left _ hMem, hSilenced, hDead,
            hCount⟩
      · rw [hStep]
        exact
          ⟨List.mem_append_left _ hMem, hSilenced,
            not_live_rearm hTidy hOrder hMem, hCount⟩
  | tick now =>
      rcases tick_cases hTidy now with
        ⟨_, hStep⟩ | ⟨start, hAnchor, _, hStep⟩
      · rw [hStep]
        exact ⟨hMem, hSilenced, hDead, hCount⟩
      · rw [hStep]
        have hOutside : ¬ start < e.timestamp := by
          intro hAfter
          exact hDead ⟨start, hAnchor, hAfter⟩
        refine ⟨hMem, hSilenced, ?_, ?_⟩
        · rintro ⟨_, hNone, _⟩
          cases hNone
        · rw [timesCounted_close camera hMem, hCount]
          simp [hOutside]

/- A step that loses nothing leaves nothing lost. -/
theorem nothingLost_step
    (hTidy : Tidy cooldown camera)
    {op : Op}
    (hKept : LosesNothing cooldown camera op)
    (hNone : NothingLost camera) :
    NothingLost (step cooldown camera op) := by
  intro e hLost
  cases op with
  | motion now =>
      rcases motion_cases hTidy now with
        ⟨start, hAnchor, hOpen, hStep⟩ | ⟨hOver, hStep⟩
      · rw [hStep] at hLost
        rcases hLost with ⟨hMem, hSilenced, hDead, hCount⟩
        rcases List.mem_append.mp hMem with hOld | hNew
        · exact hNone e ⟨hOld, hSilenced, hDead, hCount⟩
        · have hAfter : start < now := by
            simpa [hOpen] using hKept start hAnchor
          apply hDead
          rw [List.mem_singleton.mp hNew]
          exact ⟨start, hAnchor, hAfter⟩
      · rw [hStep] at hLost
        rcases hLost with ⟨hMem, hSilenced, _, hCount⟩
        rcases List.mem_append.mp hMem with hOld | hNew
        · by_cases hLive : camera.Live e
          · rcases hLive with ⟨start, hAnchor, hAfter⟩
            have hEnd :=
              (hTidy.live e hOld start hAnchor hAfter).2.1
            have hWaiting := hKept start hAnchor
            rw [hOver start hAnchor] at hWaiting
            exact hWaiting e hOld ⟨hAfter, hEnd⟩
          · exact hNone e ⟨hOld, hSilenced, hLive, hCount⟩
        · rw [List.mem_singleton.mp hNew] at hSilenced
          cases hSilenced
  | tick now =>
      rcases tick_cases hTidy now with
        ⟨_, hStep⟩ | ⟨start, hAnchor, _, hStep⟩
      · rw [hStep] at hLost
        exact hNone e hLost
      · rw [hStep] at hLost
        rcases hLost with ⟨hMem, hSilenced, _, hCount⟩
        rw [timesCounted_close camera hMem] at hCount
        by_cases hLive : camera.Live e
        · rcases hLive with ⟨other, hOther, hAfter⟩
          have hSame : start = other := by
            simpa [hAnchor] using hOther
          subst hSame
          have hEnd :=
            (hTidy.live e hMem start hAnchor hAfter).2.1
          simp [hAfter, hEnd] at hCount
        · exact
            hNone e
              ⟨hMem, hSilenced, hLive,
                Nat.eq_zero_of_add_eq_zero_right hCount⟩

/- A step that fails the condition loses an event. -/
theorem lost_of_not_losesNothing
    (hTidy : Tidy cooldown camera)
    {op : Op}
    (hOrder : InOrder camera op)
    (hFails : ¬ LosesNothing cooldown camera op) :
    ∃ e, (step cooldown camera op).Lost e := by
  cases op with
  | tick now => exact absurd trivial hFails
  | motion now =>
      simp only [LosesNothing, not_forall] at hFails
      rcases hFails with ⟨start, hAnchor, hFails⟩
      have hPast : start ≤ camera.clock := by
        rcases hTidy.anchor_stamped _ hAnchor with
          ⟨other, hText, hOther⟩
        cases hText
        exact hOther
      rcases motion_cases hTidy now with
        ⟨other, hOther, hOpen, hStep⟩ | ⟨hOver, hStep⟩
      · have hSame : start = other := by
          simpa [hAnchor] using hOther
        subst hSame
        rw [if_pos hOpen] at hFails
        refine ⟨⟨camera.events.length, now, true⟩, ?_⟩
        rw [hStep]
        refine ⟨?_, rfl, ?_, timesCounted_fresh hTidy _ _⟩
        · exact
            List.mem_append_right _ (List.mem_singleton_self _)
        · rintro ⟨other, hOther, hAfter⟩
          have hSame : start = other := by
            simpa [hAnchor] using
              (hAnchor.symm.trans hOther :
                some (AnchorText.stamped start) =
                  some (.stamped other))
          subst hSame
          exact hFails hAfter
      · rw [if_neg (by simp [hOver start hAnchor])] at hFails
        simp only [not_forall, not_not] at hFails
        rcases hFails with ⟨e, hMem, hAfter, _⟩
        rcases hTidy.live e hMem start hAnchor hAfter with
          ⟨hSilenced, _, hCount⟩
        refine ⟨e, ?_⟩
        rw [hStep]
        exact
          ⟨List.mem_append_left _ hMem, hSilenced,
            not_live_rearm hTidy hOrder hMem, hCount⟩

/- A step keeps nothing lost exactly under the condition. -/
theorem nothingLost_step_iff
    (hTidy : Tidy cooldown camera)
    {op : Op}
    (hOrder : InOrder camera op) :
    NothingLost (step cooldown camera op) ↔
      NothingLost camera ∧
        LosesNothing cooldown camera op := by
  constructor
  · intro hNone
    constructor
    · intro e hLost
      exact hNone e (lost_step hTidy hOrder hLost)
    · by_contra hFails
      rcases lost_of_not_losesNothing hTidy hOrder hFails
        with ⟨e, hLost⟩
      exact hNone e hLost
  · rintro ⟨hNone, hKept⟩
    exact nothingLost_step hTidy hKept hNone

--------------------
-- Final Tick
--------------------

/- The window of the anchor, if any, is over at `now`. -/
def Camera.Expired
    (cooldown : Cooldown)
    (camera : Camera)
    (now : Int) : Prop :=
  ∀ start, camera.anchor = some (.stamped start) →
    windowOpen cooldown start now = false

/- A tick past every window leaves no anchor. -/
theorem anchor_tick_of_expired
    (hTidy : Tidy cooldown camera)
    {now : Int}
    (hExpired : camera.Expired cooldown now) :
    (step cooldown camera (.tick now)).anchor = none := by
  rcases tick_cases hTidy now with
    ⟨hOpen, hStep⟩ | ⟨start, _, _, hStep⟩
  · rw [hStep]
    cases hAnchor : camera.anchor with
    | none => exact hAnchor
    | some text =>
        rcases hTidy.anchor_stamped text hAnchor with
          ⟨start, rfl, _⟩
        have hBoth := hOpen start hAnchor
        rw [hExpired start hAnchor] at hBoth
        cases hBoth
  · rw [hStep]
    rfl

/- With no anchor left, accounting is losing nothing. -/
theorem allCountedOnce_iff_nothingLost
    (hTidy : Tidy cooldown camera)
    (hAnchor : camera.anchor = none) :
    AllCountedOnce camera ↔ NothingLost camera := by
  constructor
  · rintro hAll e ⟨hMem, hSilenced, _, hCount⟩
    rw [hAll e hMem hSilenced] at hCount
    cases hCount
  · intro hNone e hMem hSilenced
    have hSome : camera.timesCounted e ≠ 0 := by
      intro hCount
      refine hNone e ⟨hMem, hSilenced, ?_, hCount⟩
      rintro ⟨start, hStart, _⟩
      rw [hAnchor] at hStart
      cases hStart
    have hOnce := hTidy.settled e hMem hSilenced
    omega

/-
  After a final tick past every window, each silenced event
  is in exactly one digest if and only if no motion event on
  the way lost one.
-/
theorem allCountedOnce_iff
    (cooldown : Cooldown)
    (clock : Int)
    (ops : List Op)
    (final : Int)
    (hOrder :
      Run.Meets (step cooldown) InOrder (quiet clock)
        (ops ++ [.tick final]))
    (hExpired :
      (Run.exec (step cooldown) (quiet clock) ops).Expired
        cooldown final) :
    AllCountedOnce
        (Run.exec (step cooldown) (quiet clock)
          (ops ++ [.tick final])) ↔
      Run.Meets (step cooldown) (LosesNothing cooldown)
        (quiet clock) ops := by
  have hInit := tidy_quiet cooldown clock
  have hFresh : NothingLost (quiet clock) := by
    rintro e ⟨hMem, _⟩
    cases hMem
  have hBefore :=
    Run.invariant_of_meets tidy_step hInit
      ((Run.meets_append _ _ _ _ _).mp hOrder).1
  have hAfter :=
    Run.invariant_of_meets tidy_step hInit hOrder
  have hNone := anchor_tick_of_expired hBefore hExpired
  have hRun :=
    Run.good_exec_iff_meets NothingLost tidy_step
      (fun _ _ hTidy hAllowed =>
        nothingLost_step_iff hTidy hAllowed)
      hInit hOrder
  have hLast :
      Run.exec (step cooldown) (quiet clock)
          (ops ++ [.tick final]) =
        step cooldown
          (Run.exec (step cooldown) (quiet clock) ops)
          (.tick final) := by
    rw [Run.exec_append]
    rfl
  rw [allCountedOnce_iff_nothingLost hAfter
    (by rw [hLast]; exact hNone), hRun]
  simp [hFresh, Run.meets_append, LosesNothing]

def quarterHour : Cooldown :=
  { length := 15, pos := by decide }

/- Two alerts in a window that a tick closes. -/
theorem allCountedOnce_iff_closedWindow :
    AllCountedOnce
        (Run.exec (step quarterHour) (quiet 0)
          ([.motion 0, .motion (minutes 1)] ++
            [.tick (minutes 16)])) ↔
      Run.Meets (step quarterHour)
        (LosesNothing quarterHour) (quiet 0)
        [.motion 0, .motion (minutes 1)] :=
  allCountedOnce_iff quarterHour 0
    [.motion 0, .motion (minutes 1)] (minutes 16)
    (by
      simp only [List.cons_append, List.nil_append,
        Run.meets_cons, Run.meets_nil, InOrder]
      decide)
    (by
      intro start hAnchor
      cases hAnchor
      decide)

/-
  Alerts at 0, 1 and 20 minutes with ticks that come too
  late: the third alert re-arms the anchor, and the second
  is in no digest although a tick follows every window.
-/
theorem rearmed_window_is_lost :
    ¬ ∀ (cooldown : Cooldown) (clock : Int)
        (ops : List Op) (final : Int),
        Run.Meets (step cooldown) InOrder (quiet clock)
            (ops ++ [.tick final]) →
          (Run.exec (step cooldown) (quiet clock)
            ops).Expired cooldown final →
          AllCountedOnce
            (Run.exec (step cooldown) (quiet clock)
              (ops ++ [.tick final])) := by
  intro hClaim
  have hAll :=
    hClaim quarterHour 0
      [.motion 0, .motion (minutes 1),
        .motion (minutes 20)]
      (minutes 36)
      (by
        simp only [List.cons_append, List.nil_append,
          Run.meets_cons, Run.meets_nil, InOrder]
        decide)
      (by
        intro start hAnchor
        cases hAnchor
        decide)
  have hOnce :=
    hAll ⟨1, minutes 1, true⟩ (by decide) (by decide)
  revert hOnce
  decide

end MotionCooldown

end SentinelCommand
