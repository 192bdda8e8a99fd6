import SentinelCommand.Hls.ViewerUsage

/-
  What the viewer-second counters add up to over whole runs
  of recordings, warms and flushes in one month.

  Main declarations:
    * `Hls.Accounted`
    * `Hls.TotalsCurrent`
    * `Hls.seconds_accounted`
-/

--------------------
-- Runs
--------------------

namespace SentinelCommand

namespace Hls

/- A process that starts over a table of stored totals. -/
def usageStart (rows : UsageTable) (month : String) : UsageConfig :=
  Calls.initial
    { viewer := { pending := ∅, cached := ∅ }
      rows := rows
      month := month }

def usageAfter
    (rows : UsageTable)
    (month : String)
    (events : List UsageEvent) : UsageConfig :=
  Run.exec usageStep (usageStart rows month) events

/- Recordings, warms and flushes, with no failed statement. -/
def counting : UsageEvent → Bool
| .start (.record _) => true
| .start (.warm _) => true
| .start (.flush _) => true
| .start _ => false
| .resume _ fails => !fails

def records (orgId : String) : UsageEvent → Bool
| .start (.record other) => other == orgId
| _ => false

/- The calls of `record_viewer_second` for an organization. -/
def recordsOf (orgId : String) (events : List UsageEvent) : Nat :=
  events.countP (records orgId)

def Quiescent (c : UsageConfig) : Prop :=
  ∀ call ∈ c.calls, call.finished = true

instance (c : UsageConfig) : Decidable (Quiescent c) :=
  inferInstanceAs
    (Decidable (∀ call ∈ c.calls, call.finished = true))

/-
  With no call in progress a warmed total is the total at
  the start and every second since, and no warm has answered
  less than what the table held when it started.
-/
def Accounted
    (key : UsageKey)
    (rows : UsageTable)
    (events : List UsageEvent) : Prop :=
  let c := usageAfter rows key.2 events
  (Quiescent c →
    ∀ total ∈ cachedViewerSeconds c.shared.viewer key,
      total = rows.count key + recordsOf key.1 events) ∧
  (∀ call ∈ c.calls, ∀ since answer,
    call = .warmed key.1 since answer → since ≤ answer)

/- The flush that wrote this row has yet to cache its total. -/
def Storing (key : UsageKey) (call : UsageCall) : Bool :=
  match call with
  | .storing _ other _ _ => other == key
  | _ => false

/-
  A total goes into the cache while it still is the table's,
  and a warm answers from the cache only when no flush has
  yet to cache a total it has written.
-/
def TotalsCurrent
    (key : UsageKey)
    (c : UsageConfig)
    (event : UsageEvent) : Prop :=
  match event with
  | .start (.warm orgId) =>
      orgId = key.1 → key ∈ c.shared.viewer.cached →
        ∀ call ∈ c.calls, Storing key call = false
  | _ =>
      match Calls.resumed c event with
      | some (.warmRead orgId _ seconds, _) =>
          orgId = key.1 → seconds = c.shared.rows.count key
      | some (.storing _ other total _, _) =>
          other = key → total = c.shared.rows.count key
      | _ => True

instance
    (key : UsageKey)
    (c : UsageConfig)
    (event : UsageEvent) :
    Decidable (TotalsCurrent key c event) := by
  unfold TotalsCurrent
  split
  · infer_instance
  · split <;> infer_instance

--------------------
-- The Invariant
--------------------

/- The rows a flush has drained and not yet written. -/
def UsageCall.unwritten : UsageCall → List (UsageKey × Int)
| .flushing _ rows => rows
| .storing _ _ _ rest => rest
| _ => []

def UsageCall.erases : UsageCall → Bool
| .erasing _ => true
| .deleted _ => true
| _ => false

def inFlight (key : UsageKey) (call : UsageCall) : Int :=
  rowsFor key call.unwritten

/- What a warm of the organization may still answer. -/
def WarmedEnough (key : UsageKey) (rows : UsageTable) :
    UsageCall → Prop
| .warming orgId since => orgId = key.1 → since ≤ rows.count key
| .warmRead orgId since seconds =>
    orgId = key.1 → since ≤ seconds
| .warmed orgId since answer => orgId = key.1 → since ≤ answer
| _ => True

/- A number of seconds is counted since the start. -/
structure UsageInv
    (key : UsageKey)
    (base counted : Int)
    (c : UsageConfig) : Prop where
  month : c.shared.month = key.2
  grown : base ≤ c.shared.rows.count key
  whole :
    c.shared.rows.count key - base +
        c.shared.viewer.pending.count key +
        Calls.held (inFlight key) c.calls = counted
  pendingPos :
    ∀ other seconds,
      c.shared.viewer.pending.lookup other = some seconds →
        0 < seconds
  heldPos :
    ∀ call ∈ c.calls, ∀ row ∈ call.unwritten, 0 < row.2
  current :
    ∀ total,
      c.shared.viewer.cached.lookup key = some total →
        total = c.shared.rows.count key ∨
          ∃ call ∈ c.calls, Storing key call = true
  answers :
    ∀ call ∈ c.calls, WarmedEnough key c.shared.rows call
  noErase : ∀ call ∈ c.calls, call.erases = false

theorem usageInv_start
    (key : UsageKey)
    (rows : UsageTable) :
    UsageInv key (rows.count key) 0
      (usageStart rows key.2) where
  month := rfl
  grown := Int.le_refl _
  whole := by
    simp [usageStart, Calls.initial, UsageTable.count]
  pendingPos := by
    intro other seconds hFound
    simp [usageStart, Calls.initial] at hFound
  heldPos := by
    intro call hCall
    simp [usageStart, Calls.initial] at hCall
  current := by
    intro total hFound
    simp [usageStart, Calls.initial] at hFound
  answers := by
    intro call hCall
    simp [usageStart, Calls.initial] at hCall
  noErase := by
    intro call hCall
    simp [usageStart, Calls.initial] at hCall

theorem pending_nonneg
    {key : UsageKey}
    {base counted : Int}
    {c : UsageConfig}
    (hInv : UsageInv key base counted c) :
    0 ≤ c.shared.viewer.pending.count key := by
  unfold UsageTable.count
  cases hFound : c.shared.viewer.pending.lookup key with
  | none => exact Int.le_refl 0
  | some seconds =>
      exact Int.le_of_lt (hInv.pendingPos key seconds hFound)

theorem clampI32_of_lt
    {delta : Int}
    (hSmall : delta < 2 ^ 31) :
    clampI32 delta = delta := by
  unfold clampI32
  rw [if_pos hSmall]

theorem answerOk_grown
    {key : UsageKey}
    {rows rows' : UsageTable}
    (hGrown : rows.count key ≤ rows'.count key)
    {call : UsageCall}
    (hAnswer : WarmedEnough key rows call) :
    WarmedEnough key rows' call := by
  cases call with
  | warming orgId since =>
      intro hOrg
      exact Int.le_trans (hAnswer hOrg) hGrown
  | warmRead orgId since seconds => exact hAnswer
  | warmed orgId since answer => exact hAnswer
  | flushing touched rows => trivial
  | storing touched other total rest => trivial
  | flushed touched => trivial
  | erasing orgId => trivial
  | deleted orgId => trivial
  | erased orgId => trivial
  | eraseFailed orgId => trivial

--------------------
-- Starts
--------------------

variable {key : UsageKey} {base counted : Int}
variable {c : UsageConfig}

/- A recorded second is counted under its own key. -/
theorem count_recordViewerSecond
    (viewer : ViewerUsage)
    (orgId : String)
    (key : UsageKey) :
    UsageTable.count
        (recordViewerSecond viewer (orgId, key.2)).pending
        key =
      viewer.pending.count key +
        if orgId == key.1 then 1 else 0 := by
  unfold recordViewerSecond
  by_cases hOrg : orgId = key.1
  · subst hOrg
    simp
  · have hKey : key ≠ (orgId, key.2) := by
      intro hSame
      exact hOrg (congrArg Prod.fst hSame).symm
    have hBeq : (orgId == key.1) = false := by
      simpa using hOrg
    rw [hBeq]
    simp [count_insert_of_ne _ _ hKey]

/- And what is pending stays positive. -/
theorem pos_recordViewerSecond
    {viewer : ViewerUsage}
    (hPos :
      ∀ other seconds,
        viewer.pending.lookup other = some seconds →
          0 < seconds)
    (key other : UsageKey)
    (seconds : Int)
    (hFound :
      (recordViewerSecond viewer key).pending.lookup other =
        some seconds) :
    0 < seconds := by
  unfold recordViewerSecond at hFound
  by_cases hSame : other = key
  · subst hSame
    rw [AList.lookup_insert] at hFound
    have hOld : 0 ≤ viewer.pending.count other := by
      unfold UsageTable.count
      cases hBefore : viewer.pending.lookup other with
      | none => exact Int.le_refl 0
      | some before =>
          exact Int.le_of_lt (hPos _ before hBefore)
    have hNew := Option.some.inj hFound
    omega
  · rw [AList.lookup_insert_ne hSame] at hFound
    exact hPos other seconds hFound

theorem usageInv_record
    (orgId : String)
    (hInv : UsageInv key base counted c) :
    UsageInv key base
      (counted + if orgId == key.1 then 1 else 0)
      (usageStep c (.start (.record orgId))) := by
  have hCalls :
      (usageStep c (.start (.record orgId))).calls = c.calls :=
    List.append_nil c.calls
  refine
    { month := hInv.month, grown := hInv.grown, whole := ?_,
      pendingPos := ?_, heldPos := ?_, current := ?_,
      answers := ?_, noErase := ?_ }
  · have hWhole := hInv.whole
    rw [hCalls]
    change
      c.shared.rows.count key - base +
          UsageTable.count
            (recordViewerSecond c.shared.viewer
              (orgId, c.shared.month)).pending key +
          Calls.held (inFlight key) c.calls = _
    rw [hInv.month, count_recordViewerSecond]
    omega
  · intro other seconds hFound
    exact
      pos_recordViewerSecond hInv.pendingPos _ other seconds
        hFound
  · rw [hCalls]
    exact hInv.heldPos
  · rw [hCalls]
    exact hInv.current
  · rw [hCalls]
    exact hInv.answers
  · rw [hCalls]
    exact hInv.noErase

/- A call that starts with nothing in flight. -/
theorem usageInv_started
    {call : UsageCall}
    (hInv : UsageInv key base counted c)
    (hNone : call.unwritten = [])
    (hAnswer : WarmedEnough key c.shared.rows call)
    (hErases : call.erases = false) :
    UsageInv key base counted
      { shared := c.shared, calls := c.calls ++ [call] } := by
  refine
    { month := hInv.month, grown := hInv.grown, whole := ?_,
      pendingPos := hInv.pendingPos, heldPos := ?_,
      current := ?_, answers := ?_, noErase := ?_ }
  · have hWhole := hInv.whole
    have hZero : inFlight key call = 0 := by
      unfold inFlight
      rw [hNone]
      rfl
    dsimp only
    rw [Calls.held_append, Calls.held_cons, Calls.held_nil,
      hZero]
    omega
  · refine Calls.forall_started hInv.heldPos ?_
    rw [hNone]
    intro row hRow
    exact absurd hRow List.not_mem_nil
  · intro total hFound
    rcases hInv.current total hFound with hNow | hStoring
    · exact Or.inl hNow
    · rcases hStoring with ⟨other, hOther, hKey⟩
      exact Or.inr
        ⟨other, List.mem_append_left [call] hOther, hKey⟩
  · exact Calls.forall_started hInv.answers hAnswer
  · exact Calls.forall_started hInv.noErase hErases

theorem usageInv_warm
    (orgId : String)
    (hInv : UsageInv key base counted c)
    (hOk : TotalsCurrent key c (.start (.warm orgId))) :
    UsageInv key base counted
      (usageStep c (.start (.warm orgId))) := by
  cases hLookup :
      cachedViewerSeconds c.shared.viewer
        (orgId, c.shared.month) with
  | none =>
      have hStep :
          usageStep c (.start (.warm orgId)) =
            { shared := c.shared
              calls :=
                c.calls ++
                  [.warming orgId
                    (c.shared.rows.count
                      (orgId, c.shared.month))] } := by
        simp [usageStep, Calls.step, usageProgram, beginUsage,
          hLookup]
      rw [hStep]
      refine usageInv_started hInv rfl ?_ rfl
      intro hOrg
      rw [hInv.month, hOrg]
  | some answer =>
      have hStep :
          usageStep c (.start (.warm orgId)) =
            { shared := c.shared
              calls :=
                c.calls ++
                  [.warmed orgId
                    (c.shared.rows.count
                      (orgId, c.shared.month)) answer] } := by
        simp [usageStep, Calls.step, usageProgram, beginUsage,
          hLookup]
      rw [hStep]
      refine usageInv_started hInv rfl ?_ rfl
      intro hOrg
      -- No total is on its way, so the cached one is current.
      unfold cachedViewerSeconds at hLookup
      rw [hInv.month, hOrg] at hLookup ⊢
      rcases Option.map_eq_some_iff.mp hLookup with
        ⟨total, hFound, rfl⟩
      have hThere : key ∈ c.shared.viewer.cached :=
        AList.lookup_isSome.mp
          (Option.isSome_iff_exists.mpr ⟨total, hFound⟩)
      have hPending := pending_nonneg hInv
      rcases hInv.current total hFound with hNow | hStoring
      · rw [hNow]
        change
          c.shared.rows.count key ≤
            c.shared.rows.count key +
              c.shared.viewer.pending.count key
        omega
      · rcases hStoring with ⟨call, hCall, hKey⟩
        have hNot := hOk hOrg hThere call hCall
        rw [hKey] at hNot
        contradiction

theorem usageInv_flush
    (rank : UsageKey → Nat)
    (hInv : UsageInv key base counted c) :
    UsageInv key base counted
      (usageStep c (.start (.flush rank))) := by
  by_cases hEmpty :
      c.shared.viewer.pending.entries.isEmpty = true
  · have hStep :
        usageStep c (.start (.flush rank)) =
          { shared := c.shared
            calls := c.calls ++ [.flushed 0] } := by
      simp [usageStep, Calls.step, usageProgram, beginUsage,
        hEmpty]
    rw [hStep]
    exact usageInv_started hInv rfl trivial rfl
  · have hStep :
        usageStep c (.start (.flush rank)) =
          { shared :=
              { c.shared with
                viewer :=
                  { c.shared.viewer with pending := ∅ } }
            calls :=
              c.calls ++
                [.flushing
                  (drained c.shared.viewer rank).length
                  (drained c.shared.viewer rank)] } := by
      simp [usageStep, Calls.step, usageProgram, beginUsage,
        hEmpty]
    rw [hStep]
    refine
      { month := hInv.month, grown := hInv.grown, whole := ?_,
        pendingPos := ?_, heldPos := ?_, current := ?_,
        answers := ?_, noErase := ?_ }
    · have hWhole := hInv.whole
      have hDrained :
          inFlight key
              (.flushing (drained c.shared.viewer rank).length
                (drained c.shared.viewer rank)) =
            c.shared.viewer.pending.count key :=
        rowsFor_drained c.shared.viewer rank key
      have hNone :
          UsageTable.count (∅ : UsageTable) key = 0 := by
        simp [UsageTable.count]
      dsimp only
      rw [Calls.held_append, Calls.held_cons, Calls.held_nil,
        hDrained, hNone]
      omega
    · intro other seconds hFound
      simp at hFound
    · refine Calls.forall_started hInv.heldPos ?_
      intro row hRow
      exact hInv.pendingPos row.1 row.2 (mem_drained hRow)
    · intro total hFound
      rcases hInv.current total hFound with hNow | hStoring
      · exact Or.inl hNow
      · rcases hStoring with ⟨other, hOther, hKey⟩
        exact Or.inr
          ⟨other, List.mem_append_left _ hOther, hKey⟩
    · exact Calls.forall_started hInv.answers trivial
    · exact Calls.forall_started hInv.noErase rfl

--------------------
-- Resumptions
--------------------

/- A call goes on, and moves rows to the table at most. -/
theorem usageInv_resumed
    {id : Nat}
    {call next : UsageCall}
    {s : Usage}
    (hInv : UsageInv key base counted c)
    (hCall : c.calls[id]? = some call)
    (hMonth : s.month = c.shared.month)
    (hPending :
      s.viewer.pending = c.shared.viewer.pending)
    (hGrown : c.shared.rows.count key ≤ s.rows.count key)
    (hMoved :
      s.rows.count key + inFlight key next =
        c.shared.rows.count key + inFlight key call)
    (hRows : ∀ row ∈ next.unwritten, 0 < row.2)
    (hCurrent :
      ∀ total, s.viewer.cached.lookup key = some total →
        total = s.rows.count key ∨
          ∃ other ∈ c.calls.set id next,
            Storing key other = true)
    (hAnswer : WarmedEnough key s.rows next)
    (hErases : next.erases = false) :
    UsageInv key base counted
      { shared := s, calls := c.calls.set id next } where
  month := hMonth.trans hInv.month
  grown := Int.le_trans hInv.grown hGrown
  whole := by
    have hWhole := hInv.whole
    have hHeld :=
      Calls.held_resume (inFlight key) next hCall
    dsimp only
    rw [hPending, hHeld]
    omega
  pendingPos := by
    dsimp only
    rw [hPending]
    exact hInv.pendingPos
  heldPos := Calls.forall_resumed hInv.heldPos hRows
  current := hCurrent
  answers :=
    Calls.forall_resumed
      (fun other hOther =>
        answerOk_grown hGrown (hInv.answers other hOther))
      hAnswer
  noErase := Calls.forall_resumed hInv.noErase hErases

/- The cached total stays, while nobody stores this key. -/
theorem current_kept
    {id : Nat}
    {call next : UsageCall}
    {s : Usage}
    (hInv : UsageInv key base counted c)
    (hCall : c.calls[id]? = some call)
    (hOther : Storing key call = false)
    (hCached :
      s.viewer.cached.lookup key =
        c.shared.viewer.cached.lookup key)
    (hRows : s.rows.count key = c.shared.rows.count key)
    (total : Int)
    (hFound : s.viewer.cached.lookup key = some total) :
    total = s.rows.count key ∨
      ∃ other ∈ c.calls.set id next,
        Storing key other = true := by
  rw [hCached] at hFound
  rw [hRows]
  rcases hInv.current total hFound with hNow | hStoring
  · exact Or.inl hNow
  · rcases hStoring with ⟨other, hIn, hKey⟩
    refine Or.inr ⟨other, ?_, hKey⟩
    apply Calls.mem_resume_of_ne hCall hIn
    rintro rfl
    rw [hKey] at hOther
    contradiction

/- A step that leaves the counters and the table alone. -/
theorem usageInv_quiet
    {id : Nat}
    {call next : UsageCall}
    (hInv : UsageInv key base counted c)
    (hCall : c.calls[id]? = some call)
    (hOther : Storing key call = false)
    (hHeld : inFlight key next = inFlight key call)
    (hRows : ∀ row ∈ next.unwritten, 0 < row.2)
    (hAnswer : WarmedEnough key c.shared.rows next)
    (hErases : next.erases = false) :
    UsageInv key base counted
      { shared := c.shared, calls := c.calls.set id next } := by
  refine usageInv_resumed hInv hCall rfl rfl (Int.le_refl _)
    ?_ hRows ?_ hAnswer hErases
  · rw [hHeld]
  · exact current_kept hInv hCall hOther rfl rfl

theorem usageInv_warmRead
    {id : Nat}
    {orgId : String}
    {since seconds : Int}
    (hInv : UsageInv key base counted c)
    (hCall :
      c.calls[id]? = some (.warmRead orgId since seconds))
    (hOk :
      orgId = key.1 → seconds = c.shared.rows.count key) :
    UsageInv key base counted
      { shared :=
          (resumeUsage c.shared
            (.warmRead orgId since seconds) false).1
        calls :=
          c.calls.set id
            (resumeUsage c.shared
              (.warmRead orgId since seconds) false).2 } := by
  have hPending := pending_nonneg hInv
  refine usageInv_resumed hInv hCall rfl rfl (Int.le_refl _)
    rfl ?_ ?_ ?_ rfl
  · intro row hRow
    exact absurd hRow List.not_mem_nil
  · by_cases hOrg : orgId = key.1
    · intro total hFound
      left
      change
        (c.shared.viewer.cached.insert
          (orgId, c.shared.month) seconds).lookup key =
          some total at hFound
      rw [hInv.month, hOrg, AList.lookup_insert] at hFound
      rw [← Option.some.inj hFound]
      exact hOk hOrg
    · have hKey : key ≠ (orgId, c.shared.month) := by
        intro hSame
        exact hOrg (congrArg Prod.fst hSame).symm
      exact current_kept hInv hCall rfl
        (AList.lookup_insert_ne hKey) rfl
  · intro hOrg
    have hRead :=
      hInv.answers _ (List.mem_of_getElem? hCall) hOrg
    change
      since ≤
        seconds +
          c.shared.viewer.pending.count
            (orgId, c.shared.month)
    rw [hInv.month, hOrg]
    change since ≤ seconds + c.shared.viewer.pending.count key
    omega

theorem usageInv_upsert
    {id touched : Nat}
    {other : UsageKey}
    {delta : Int}
    {rest : List (UsageKey × Int)}
    (hInv : UsageInv key base counted c)
    (hFew : counted < 2 ^ 31)
    (hCall :
      c.calls[id]? =
        some (.flushing touched ((other, delta) :: rest)))
    (hDelta : 0 < delta) :
    UsageInv key base counted
      { shared :=
          { c.shared with
            rows :=
              c.shared.rows.insert other
                (c.shared.rows.count other + clampI32 delta) }
        calls :=
          c.calls.set id
            (.storing touched other
              (c.shared.rows.count other + clampI32 delta)
              rest) } := by
  have hCallMem := List.mem_of_getElem? hCall
  have hRest : ∀ row ∈ rest, 0 < row.2 := fun row hRow =>
    hInv.heldPos _ hCallMem row (List.mem_cons_of_mem _ hRow)
  by_cases hKey : key = other
  · subst hKey
    have hHeld :
        inFlight key
            (.flushing touched ((key, delta) :: rest)) ≤
          Calls.held (inFlight key) c.calls :=
      Calls.le_held
        (fun call hIn => rowsFor_nonneg (hInv.heldPos call hIn))
        hCallMem
    have hCallHeld :
        inFlight key (.flushing touched ((key, delta) :: rest)) =
          delta + rowsFor key rest := by
      simp [inFlight, UsageCall.unwritten]
    have hPending := pending_nonneg hInv
    have hRestNonneg : 0 ≤ rowsFor key rest :=
      rowsFor_nonneg hRest
    have hClamp : clampI32 delta = delta := by
      apply clampI32_of_lt
      have hWhole := hInv.whole
      have hGrown := hInv.grown
      omega
    refine usageInv_resumed hInv hCall rfl rfl ?_ ?_ hRest ?_
      trivial rfl
    · rw [count_insert_self, hClamp]
      omega
    · rw [count_insert_self, hClamp, hCallHeld]
      change
        c.shared.rows.count key + delta + rowsFor key rest = _
      omega
    · intro total _
      right
      refine ⟨_, Calls.mem_resume_self _ hCall, ?_⟩
      simp [Storing]
  · have hSame :
        UsageTable.count
            (c.shared.rows.insert other
              (c.shared.rows.count other + clampI32 delta))
            key =
          c.shared.rows.count key :=
      count_insert_of_ne _ _ hKey
    have hCallHeld :
        inFlight key
            (.flushing touched ((other, delta) :: rest)) =
          rowsFor key rest := by
      have hOther : other ≠ key := fun h => hKey h.symm
      simp [inFlight, UsageCall.unwritten, hOther]
    refine usageInv_resumed hInv hCall rfl rfl ?_ ?_ hRest ?_
      trivial rfl
    · rw [hSame]
    · rw [hSame, hCallHeld]
      rfl
    · exact current_kept hInv hCall rfl rfl hSame

theorem usageInv_storing
    {id touched : Nat}
    {other : UsageKey}
    {total : Int}
    {rest : List (UsageKey × Int)}
    (hInv : UsageInv key base counted c)
    (hCall :
      c.calls[id]? = some (.storing touched other total rest))
    (hOk : other = key → total = c.shared.rows.count key) :
    UsageInv key base counted
      { shared :=
          { c.shared with
            viewer :=
              { c.shared.viewer with
                cached :=
                  c.shared.viewer.cached.insert other total } }
        calls := c.calls.set id (.flushing touched rest) } := by
  have hCallMem := List.mem_of_getElem? hCall
  have hRest : ∀ row ∈ rest, 0 < row.2 :=
    hInv.heldPos _ hCallMem
  refine usageInv_resumed hInv hCall rfl rfl (Int.le_refl _)
    rfl hRest ?_ trivial rfl
  by_cases hKey : other = key
  · intro stored hFound
    left
    dsimp only at hFound
    rw [hKey, AList.lookup_insert] at hFound
    rw [← Option.some.inj hFound]
    exact hOk hKey
  · have hNot : Storing key (.storing touched other total rest) =
        false := by
      simpa [Storing] using hKey
    exact current_kept hInv hCall hNot
      (AList.lookup_insert_ne (fun h => hKey h.symm)) rfl

theorem usageInv_resume
    {id : Nat}
    {call : UsageCall}
    (hInv : UsageInv key base counted c)
    (hFew : counted < 2 ^ 31)
    (hCall : c.calls[id]? = some call)
    (hOk : TotalsCurrent key c (.resume id false)) :
    UsageInv key base counted
      { shared := (resumeUsage c.shared call false).1
        calls :=
          c.calls.set id
            (resumeUsage c.shared call false).2 } := by
  have hCallMem := List.mem_of_getElem? hCall
  have hNoRows :
      ∀ row ∈ ([] : List (UsageKey × Int)), 0 < row.2 :=
    fun row hRow => absurd hRow List.not_mem_nil
  simp only [TotalsCurrent, Calls.resumed, hCall,
    Option.map_some] at hOk
  cases call with
  | warming orgId since =>
      refine usageInv_quiet hInv hCall rfl rfl hNoRows ?_ rfl
      intro hOrg
      have hSince := hInv.answers _ hCallMem hOrg
      rw [if_neg Bool.false_ne_true, hInv.month, hOrg]
      exact hSince
  | warmRead orgId since seconds =>
      exact usageInv_warmRead hInv hCall hOk
  | warmed orgId since answer =>
      exact usageInv_quiet hInv hCall rfl rfl hNoRows
        (hInv.answers _ hCallMem) rfl
  | flushing touched rows =>
      cases rows with
      | nil =>
          exact usageInv_quiet hInv hCall rfl rfl hNoRows
            trivial rfl
      | cons row rest =>
          rcases row with ⟨other, delta⟩
          have hDelta : 0 < delta :=
            hInv.heldPos _ hCallMem (other, delta)
              List.mem_cons_self
          have hNot : ¬ delta ≤ 0 := by omega
          simp only [resumeUsage, hNot, if_false,
            Bool.false_eq_true]
          exact usageInv_upsert hInv hFew hCall hDelta
  | storing touched other total rest =>
      exact usageInv_storing hInv hCall hOk
  | flushed touched =>
      exact usageInv_quiet hInv hCall rfl rfl hNoRows trivial
        rfl
  | erasing orgId =>
      have hErases : true = false := hInv.noErase _ hCallMem
      contradiction
  | deleted orgId =>
      have hErases : true = false := hInv.noErase _ hCallMem
      contradiction
  | erased orgId =>
      exact usageInv_quiet hInv hCall rfl rfl hNoRows trivial
        rfl
  | eraseFailed orgId =>
      exact usageInv_quiet hInv hCall rfl rfl hNoRows trivial
        rfl

--------------------
-- Seconds over Runs
--------------------

variable {key : UsageKey}

theorem usageInv_step
    {base counted : Int}
    {c : UsageConfig}
    {event : UsageEvent}
    (hInv : UsageInv key base counted c)
    (hFew : counted < 2 ^ 31)
    (hCounting : counting event = true)
    (hOk : TotalsCurrent key c event) :
    UsageInv key base
      (counted + if records key.1 event then 1 else 0)
      (usageStep c event) := by
  cases event with
  | start what =>
      cases what with
      | record orgId => exact usageInv_record orgId hInv
      | warm orgId =>
          simpa [records] using usageInv_warm orgId hInv hOk
      | flush rank =>
          simpa [records] using usageInv_flush rank hInv
      | erase orgId => simp [counting] at hCounting
      | turn month => simp [counting] at hCounting
  | resume id fails =>
      have hWell : fails = false := by
        simpa [counting] using hCounting
      subst hWell
      cases hCall : c.calls[id]? with
      | none => simpa [usageStep, Calls.step, hCall, records]
          using hInv
      | some call =>
          have hNext := usageInv_resume hInv hFew hCall hOk
          simpa [usageStep, Calls.step, hCall, records,
            usageProgram] using hNext

/- The invariant holds after every run that meets it all. -/
theorem usageInv_usageAfter
    (key : UsageKey)
    {rows : UsageTable}
    {events : List UsageEvent}
    (hCounting : ∀ event ∈ events, counting event = true)
    (hFew : recordsOf key.1 events < 2 ^ 31)
    (hOk :
      Run.Meets usageStep (TotalsCurrent key)
        (usageStart rows key.2) events) :
    UsageInv key (rows.count key) (recordsOf key.1 events)
      (usageAfter rows key.2 events) := by
  induction events using List.reverseRecOn with
  | nil => exact usageInv_start key rows
  | append_singleton events event ih =>
      have hCount :
          recordsOf key.1 (events ++ [event]) =
            recordsOf key.1 events +
              if records key.1 event then 1 else 0 := by
        unfold recordsOf
        rw [List.countP_append, List.countP_singleton]
      rw [hCount] at hFew
      have hBefore : recordsOf key.1 events < 2 ^ 31 := by
        omega
      rcases (Run.meets_append _ _ _ _ _).mp hOk with
        ⟨hPast, hLast, -⟩
      have hInv :=
        ih
          (fun past hIn =>
            hCounting past (List.mem_append_left [event] hIn))
          hBefore hPast
      have hStep :=
        usageInv_step hInv (by exact_mod_cast hBefore)
          (hCounting event
            (List.mem_append_right events
              (List.mem_singleton.mpr rfl)))
          hLast
      have hAfter :
          usageAfter rows key.2 (events ++ [event]) =
            usageStep (usageAfter rows key.2 events) event := by
        unfold usageAfter
        rw [Run.exec_append]
        rfl
      rw [hCount, hAfter]
      push_cast
      exact hStep

theorem accounted_of_usageInv
    {rows : UsageTable}
    {events : List UsageEvent}
    (hInv :
      UsageInv key (rows.count key) (recordsOf key.1 events)
        (usageAfter rows key.2 events)) :
    Accounted key rows events := by
  constructor
  · intro hQuiet total hTotal
    have hIdle (call : UsageCall)
        (hCall : call ∈ (usageAfter rows key.2 events).calls) :
        call.unwritten = [] ∧ Storing key call = false := by
      have hFinished := hQuiet call hCall
      cases call <;>
        simp_all [UsageCall.finished, UsageCall.unwritten,
          Storing]
    have hNothing :
        Calls.held (inFlight key)
          (usageAfter rows key.2 events).calls = 0 := by
      apply Calls.held_eq_zero
      intro call hCall
      unfold inFlight
      rw [(hIdle call hCall).1]
      rfl
    have hWhole := hInv.whole
    rcases Option.map_eq_some_iff.mp hTotal with
      ⟨cached, hFound, rfl⟩
    have hNow :
        cached =
          (usageAfter rows key.2 events).shared.rows.count
            key := by
      rcases hInv.current cached hFound with hNow | hStoring
      · exact hNow
      · rcases hStoring with ⟨call, hCall, hKey⟩
        rw [(hIdle call hCall).2] at hKey
        contradiction
    omega
  · intro call hCall since answer hWarmed
    have hAnswer := hInv.answers call hCall
    rw [hWarmed] at hAnswer
    exact hAnswer rfl

/-
  With fewer than 2^31 seconds and no failed statement, the
  seconds are accounted for in every state of a run whose
  cached totals are current when they are stored and used.
-/
theorem seconds_accounted
    (orgId month : String)
    (rows : UsageTable)
    (events : List UsageEvent)
    (hCounting : ∀ event ∈ events, counting event = true)
    (hFew : recordsOf orgId events < 2 ^ 31)
    (hOk :
      Run.Meets usageStep (TotalsCurrent (orgId, month))
        (usageStart rows month) events) :
    ∀ past, past <+: events →
      Accounted (orgId, month) rows past := by
  rintro past ⟨later, rfl⟩
  have hShort :
      recordsOf orgId past ≤
        recordsOf orgId (past ++ later) :=
    (List.sublist_append_left past later).countP_le
  apply accounted_of_usageInv
  apply usageInv_usageAfter (orgId, month)
  · intro event hEvent
    exact hCounting event (List.mem_append_left later hEvent)
  · exact Nat.lt_of_le_of_lt hShort hFew
  · exact ((Run.meets_append _ _ _ _ _).mp hOk).1

def flushOrder : UsageKey → Nat :=
  fun _ => 0

/- One viewer, warmed, flushed and warmed again. -/
def warmedFlush : List UsageEvent :=
  [.start (.record "org"), .start (.warm "org"),
    .resume 0 false, .resume 0 false,
    .start (.flush flushOrder), .resume 1 false,
    .resume 1 false, .resume 1 false, .start (.warm "org")]

theorem seconds_accounted_warmedFlush :
    Accounted ("org", "2026-09") ∅ warmedFlush :=
  seconds_accounted "org" "2026-09" ∅ warmedFlush
    (by decide) (by decide) (by decide) warmedFlush
    (List.prefix_refl _)

/-
  A warm reads the table before a flush writes it and caches
  what it read after the flush has cached its total.
-/
def staleWarm : List UsageEvent :=
  [.start (.record "org"), .start (.warm "org"),
    .resume 0 false, .start (.flush flushOrder),
    .resume 1 false, .resume 1 false, .resume 1 false,
    .resume 0 false, .start (.warm "org")]

theorem seconds_lost_to_stale_warm :
    ¬ (∀ past, past <+: staleWarm →
      Accounted ("org", "2026-09") ∅ past) := by
  intro hAll
  have hWhole :=
    (hAll staleWarm (List.prefix_refl _)).1 (by decide) 0
      (by decide)
  exact absurd hWhole (by decide)

end Hls

end SentinelCommand
