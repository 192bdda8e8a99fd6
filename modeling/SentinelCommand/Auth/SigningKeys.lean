import SentinelCommand.Auth.Jwks

/-
  What the signing-key cache keeps to, whatever its calls,
  its background tasks and Clerk do.

  A key stays until a fetched set is without it, and fetches
  are apart by the rate limit, in every run. That a key is
  unknown is said after a fetch only while no call takes an
  earlier set for fresh.

  Main declarations:
    * `Jwks.KeysKept`, `Jwks.FetchesApart`
    * `Jwks.UnknownAfterFetch`
    * `Jwks.signing_keys`
-/

--------------------
-- Moves
--------------------

namespace SentinelCommand

namespace Jwks

variable {Key : Type}
variable {fromRsaComponents : String → String → Option Key}
variable {s after : Shared Key}

/- What a part of a call can do to the shared state. -/
inductive SharedMove (s : Shared Key) : Shared Key → Prop where
  | quiet
      (after : Shared Key)
      (hNow : s.now ≤ after.now)
      (hCached : after.cached = s.cached)
      (hFetched : after.fetched = s.fetched)
      (hLast : after.lastFetch = s.lastFetch)
      (hFetches : after.fetches = s.fetches) :
      SharedMove s after
  | fetch
      (hApart :
        minForcedRefreshInterval ≤ s.now - s.lastFetch) :
      SharedMove s
        { s with
          lastFetch := s.now
          locked := true
          fetches := s.now :: s.fetches }
  | install (keys : KeySet Key) :
      SharedMove s
        { s with
          locked := false
          cached := some { keys := keys, fetchedAt := s.now }
          fetched := keys :: s.fetched }

theorem sharedMove_same (s : Shared Key) : SharedMove s s :=
  .quiet s (Int.le_refl _) rfl rfl rfl rfl

theorem sharedMove_begin
    (s : Shared Key)
    (what : Start) :
    SharedMove s (begin s what).1 := by
  cases what with
  | tick elapsed =>
      refine .quiet _ ?_ rfl rfl rfl rfl
      simp only [begin]
      omega
  | warm => exact sharedMove_same s
  | refreshBehind =>
      simp only [begin]
      split
      · exact sharedMove_same s
      · split
        · exact .quiet _ (Int.le_refl _) rfl rfl rfl rfl
        · exact .quiet _ (Int.le_refl _) rfl rfl rfl rfl
  | keyFor kid =>
      simp only [begin]
      split
      · dsimp only
        split
        · exact sharedMove_same s
        · exact .quiet _ (Int.le_refl _) rfl rfl rfl rfl
      · exact sharedMove_same s

theorem sharedMove_lockedRefresh (s : Shared Key) :
    SharedMove s (lockedRefresh s).1 := by
  unfold lockedRefresh
  split
  · exact sharedMove_same s
  · split
    · exact sharedMove_same s
    · rename_i hLate
      exact .fetch (by omega)

theorem sharedMove_finishFetch
    (s : Shared Key)
    (answer : Except String (List Jwk)) :
    SharedMove s
      (finishFetch fromRsaComponents s answer).1 := by
  cases answer with
  | error message =>
      exact .quiet _ (Int.le_refl _) rfl rfl rfl rfl
  | ok jwks =>
      simp only [finishFetch]
      split
      · exact .quiet _ (Int.le_refl _) rfl rfl rfl rfl
      · exact .install _

theorem sharedMove_resume
    (fromRsaComponents : String → String → Option Key)
    (s : Shared Key)
    (call : KeyCall Key)
    (reply : Reply) :
    SharedMove s
      (resume fromRsaComponents s call reply).1 := by
  rcases call with ⟨purpose, stage⟩
  cases stage with
  | locking =>
      cases reply with
      | go =>
          simp only [resume]
          split
          · exact sharedMove_same s
          · exact sharedMove_lockedRefresh s
      | answer jwks => exact sharedMove_same s
      | drop => exact sharedMove_same s
  | fetching =>
      cases reply with
      | go => exact sharedMove_same s
      | answer jwks => exact sharedMove_finishFetch s jwks
      | drop => exact .quiet _ (Int.le_refl _) rfl rfl rfl rfl
  | refreshed result =>
      cases reply <;> exact sharedMove_same s
  | answered result => exact sharedMove_same s
  | done => exact sharedMove_same s
  | dropped => exact sharedMove_same s

--------------------
-- The Held Set and the Fetches
--------------------

variable {c : Config Key}

/-
  The set held is the last that was fetched, and each fetch
  began the interval after the one before it, or later.
-/
structure SharedOk (s : Shared Key) : Prop where
  newest : s.cached.map (·.keys) = s.fetched.head?
  apart :
    s.fetches.Pairwise
      (fun later earlier =>
        earlier + minForcedRefreshInterval ≤ later)
  last : ∀ began ∈ s.fetches, began ≤ s.lastFetch

theorem sharedOk_move
    (hMove : SharedMove s after)
    (hOk : SharedOk s) :
    SharedOk after := by
  cases hMove with
  | quiet after hNow hCached hFetched hLast hFetches =>
      constructor
      · rw [hCached, hFetched]
        exact hOk.newest
      · rw [hFetches]
        exact hOk.apart
      · rw [hFetches, hLast]
        exact hOk.last
  | fetch hApart =>
      have hEarlier :
          ∀ began ∈ s.fetches,
            began + minForcedRefreshInterval ≤ s.now := by
        intro began hBegan
        have hLe := hOk.last began hBegan
        omega
      constructor
      · exact hOk.newest
      · exact List.pairwise_cons.mpr ⟨hEarlier, hOk.apart⟩
      · intro began hBegan
        have hPositive : 0 ≤ minForcedRefreshInterval := by
          decide
        rcases List.mem_cons.mp hBegan with rfl | hOld
        · exact Int.le_refl _
        · have hLe := hEarlier began hOld
          dsimp only
          omega
  | install keys =>
      exact ⟨rfl, hOk.apart, hOk.last⟩

theorem sharedOk_step
    (c : Config Key)
    (e : Event)
    (hOk : SharedOk c.shared) :
    SharedOk (step fromRsaComponents c e).shared := by
  cases e with
  | start what =>
      exact sharedOk_move (sharedMove_begin c.shared what) hOk
  | resume id reply =>
      simp only [step, Calls.step]
      cases hCall : c.calls[id]? with
      | none => exact hOk
      | some call =>
          exact
            sharedOk_move
              (sharedMove_resume fromRsaComponents c.shared call
                reply)
              hOk

theorem sharedOk_newCache
    (now : Int)
    (upLongEnough : Bool) :
    SharedOk
      (newCache now upLongEnough : Config Key).shared where
  newest := rfl
  apart := List.Pairwise.nil
  last := by
    intro began hBegan
    cases hBegan

/-
  A key of a fetched set, that no later set is without, is
  what `key_for` returns at once.
-/
def KeysKept (c : Config Key) : Prop :=
  ∀ later set older kid key,
    c.shared.fetched = later ++ set :: older →
      set.lookup kid = some key →
        (∀ newer ∈ later, newer.lookup kid = some key) →
          (begin c.shared (.keyFor kid)).2.map (·.stage) =
            some (.answered (.ok key))

/- Of the fetches, at most one began in any such interval. -/
def FetchesApart (c : Config Key) : Prop :=
  ∀ start : Int,
    (c.shared.fetches.filter
      (fun began =>
        start ≤ began &&
          began < start + minForcedRefreshInterval)).length ≤ 1

theorem keysKept_of_sharedOk (hOk : SharedOk c.shared) :
    KeysKept c := by
  intro later set older kid key hFetched hSet hLater
  have hNewest : ∃ newest,
      c.shared.fetched.head? = some newest ∧
        newest.lookup kid = some key := by
    cases later with
    | nil => exact ⟨set, by rw [hFetched]; rfl, hSet⟩
    | cons newest later =>
        exact
          ⟨newest, by rw [hFetched]; rfl,
            hLater newest List.mem_cons_self⟩
  rcases hNewest with ⟨newest, hHead, hKey⟩
  have hCached := hOk.newest.trans hHead
  rcases Option.map_eq_some_iff.mp hCached with
    ⟨cached, hSome, rfl⟩
  have hHeld : c.shared.held kid = some key := by
    simp [Shared.held, hSome, hKey]
  simp [begin, hHeld]

/- Two beginnings an interval apart are not both inside. -/
theorem fetchesApart_of_sharedOk (hOk : SharedOk c.shared) :
    FetchesApart c := by
  intro start
  have hApart :=
    hOk.apart.sublist
      (List.filter_sublist
        (p := fun began =>
          start ≤ began &&
            began < start + minForcedRefreshInterval))
  cases hInside :
      c.shared.fetches.filter
        (fun began =>
          start ≤ began &&
            began < start + minForcedRefreshInterval) with
  | nil => simp
  | cons later rest =>
      cases rest with
      | nil => simp
      | cons earlier rest =>
          rw [hInside] at hApart
          have hGap :=
            (List.pairwise_cons.mp hApart).1 earlier
              List.mem_cons_self
          have hLater :
              later ∈
                c.shared.fetches.filter
                  (fun began =>
                    start ≤ began &&
                      began <
                        start + minForcedRefreshInterval) := by
            rw [hInside]
            exact List.mem_cons_self
          have hEarlier :
              earlier ∈
                c.shared.fetches.filter
                  (fun began =>
                    start ≤ began &&
                      began <
                        start + minForcedRefreshInterval) := by
            rw [hInside]
            exact List.mem_cons_of_mem _ List.mem_cons_self
          simp only [List.mem_filter, Bool.and_eq_true,
            decide_eq_true_eq] at hLater hEarlier
          omega

--------------------
-- Unknown Keys
--------------------

/- The sets fetched after the first `since`. -/
def Shared.fetchedAfter
    (s : Shared Key)
    (since : Nat) : List (KeySet Key) :=
  s.fetched.take (s.fetched.length - since)

/-
  A call that says its key is unknown began before some set
  without the key was fetched.
-/
def UnknownAfterFetch (c : Config Key) : Prop :=
  ∀ kid unknown since,
    { purpose := .keyFor kid since
      stage := .answered (.error (.unknownKey unknown)) } ∈
        c.calls →
      ∃ set ∈ c.shared.fetchedAfter since,
        set.lookup kid = none

/-
  If the event is a call's refresh that finds a set younger
  than the rate limit, the set was fetched after the call
  began, or it has the key.
-/
def FreshForCall (c : Config Key) (e : Event) : Prop :=
  match Calls.resumed c e with
  | some (⟨.keyFor kid since, .locking⟩, .go) =>
      c.shared.locked = false →
        c.shared.cached.any
            (fun cached =>
              c.shared.now - cached.fetchedAt <
                minForcedRefreshInterval) = true →
          since < c.shared.fetched.length ∨
            c.shared.held kid ≠ none
  | _ => True

/- What a call knows once its refresh is over. -/
def RefreshedOk
    (s : Shared Key)
    (purpose : Purpose) : Except JwksError Unit → Prop
| .ok _ =>
    ∀ kid since, purpose = .keyFor kid since →
      since < s.fetched.length ∨ s.held kid ≠ none
| .error err => ∀ kid, err ≠ .unknownKey kid

def AnsweredOk
    (s : Shared Key)
    (purpose : Purpose) : Except JwksError Key → Prop
| .error (.unknownKey _) =>
    ∀ kid since, purpose = .keyFor kid since →
      ∃ set ∈ s.fetchedAfter since, set.lookup kid = none
| _ => True

def StageOk
    (s : Shared Key)
    (purpose : Purpose) : Stage Key → Prop
| .refreshed result => RefreshedOk s purpose result
| .answered result => AnsweredOk s purpose result
| _ => True

/- No call began after more sets than there are. -/
def PurposeOk (s : Shared Key) (purpose : Purpose) : Prop :=
  ∀ kid since, purpose = .keyFor kid since →
    since ≤ s.fetched.length

structure CallOk (s : Shared Key) (call : KeyCall Key) : Prop where
  purpose : PurposeOk s call.purpose
  stage : StageOk s call.purpose call.stage

theorem purposeOk_move
    {purpose : Purpose}
    (hMove : SharedMove s after)
    (hOk : PurposeOk s purpose) :
    PurposeOk after purpose := by
  intro kid since hPurpose
  have hLe := hOk kid since hPurpose
  cases hMove with
  | quiet after hNow hCached hFetched hLast hFetches =>
      rwa [hFetched]
  | fetch hApart => exact hLe
  | install keys =>
      simp only [List.length_cons]
      omega

/- The sets fetched since are still there. -/
theorem fetchedAfter_move
    {since : Nat}
    {set : KeySet Key}
    (hMove : SharedMove s after)
    (hSince : since ≤ s.fetched.length)
    (hSet : set ∈ s.fetchedAfter since) :
    set ∈ after.fetchedAfter since := by
  cases hMove with
  | quiet after hNow hCached hFetched hLast hFetches =>
      rw [Shared.fetchedAfter, hFetched]
      exact hSet
  | fetch hApart => exact hSet
  | install keys =>
      have hMore :
          s.fetched.length + 1 - since =
            s.fetched.length - since + 1 := by
        omega
      simp only [Shared.fetchedAfter, List.length_cons, hMore,
        List.take_succ_cons]
      exact List.mem_cons_of_mem _ hSet

theorem refreshedOk_move
    {purpose : Purpose}
    {result : Except JwksError Unit}
    (hMove : SharedMove s after)
    (hPurpose : PurposeOk s purpose)
    (hOk : RefreshedOk s purpose result) :
    RefreshedOk after purpose result := by
  cases result with
  | error err => exact hOk
  | ok done =>
      intro kid since hFor
      have hSince := hPurpose kid since hFor
      have hEither := hOk kid since hFor
      cases hMove with
      | quiet after hNow hCached hFetched hLast hFetches =>
          rw [hFetched, Shared.held, hCached]
          exact hEither
      | fetch hApart => exact hEither
      | install keys =>
          left
          simp only [List.length_cons]
          omega

theorem stageOk_move
    {purpose : Purpose}
    {stage : Stage Key}
    (hMove : SharedMove s after)
    (hPurpose : PurposeOk s purpose)
    (hOk : StageOk s purpose stage) :
    StageOk after purpose stage := by
  cases stage with
  | locking => trivial
  | fetching => trivial
  | done => trivial
  | dropped => trivial
  | refreshed result =>
      exact refreshedOk_move hMove hPurpose hOk
  | answered result =>
      cases result with
      | ok key => trivial
      | error err =>
          cases err with
          | fetch message => trivial
          | rateLimited => trivial
          | unknownKey unknown =>
              intro kid since hFor
              rcases hOk kid since hFor with
                ⟨set, hSet, hWithout⟩
              exact
                ⟨set,
                  fetchedAfter_move hMove
                    (hPurpose kid since hFor) hSet,
                  hWithout⟩

theorem callOk_move
    {call : KeyCall Key}
    (hMove : SharedMove s after)
    (hOk : CallOk s call) :
    CallOk after call :=
  ⟨purposeOk_move hMove hOk.purpose,
    stageOk_move hMove hOk.purpose hOk.stage⟩

theorem callOk_behind
    (s : Shared Key)
    (stage : Stage Key)
    (hStage : StageOk s .behind stage) :
    CallOk s { purpose := .behind, stage := stage } where
  purpose := by
    intro kid since hFor
    cases hFor
  stage := hStage

/- A call that begins has not been refused. -/
theorem callOk_begun
    (s : Shared Key)
    (what : Start) :
    ∀ call ∈ (begin s what).2, CallOk (begin s what).1 call := by
  intro call hCall
  cases what with
  | tick elapsed => cases hCall
  | warm =>
      cases hCall
      exact callOk_behind _ _ trivial
  | refreshBehind =>
      simp only [begin] at hCall
      split at hCall
      · cases hCall
      · split at hCall
        · cases hCall
        · cases hCall
          exact callOk_behind _ _ trivial
  | keyFor kid =>
      have hSame :
          (begin s (.keyFor kid)).1.fetched = s.fetched := by
        simp only [begin]
        split
        · dsimp only
          split <;> rfl
        · rfl
      have hPurpose :
          PurposeOk (begin s (.keyFor kid)).1
            (.keyFor kid s.fetched.length) := by
        intro _ _ hFor
        cases hFor
        rw [hSame]
      simp only [begin] at hCall
      split at hCall
      · cases hCall
        exact ⟨hPurpose, trivial⟩
      · cases hCall
        exact ⟨hPurpose, trivial⟩

/- The last set fetched is without a key that is not held. -/
theorem exists_fetchedAfter
    (hOk : SharedOk s)
    {kid : String}
    {since : Nat}
    (hSince : since < s.fetched.length)
    (hNone : s.held kid = none) :
    ∃ set ∈ s.fetchedAfter since, set.lookup kid = none := by
  cases hFetched : s.fetched with
  | nil => simp [hFetched] at hSince
  | cons newest older =>
      have hCached := hOk.newest
      rw [hFetched, List.head?_cons] at hCached
      rcases Option.map_eq_some_iff.mp hCached with
        ⟨cached, hSome, hKeys⟩
      refine ⟨newest, ?_, ?_⟩
      · have hMore :
            s.fetched.length - since =
              (s.fetched.length - since - 1) + 1 := by
          omega
        rw [Shared.fetchedAfter, hMore, hFetched,
          List.take_succ_cons]
        exact List.mem_cons_self
      · rw [← hKeys]
        simpa [Shared.held, hSome] using hNone

/- What a call knows when it has the lock. -/
theorem stageOk_lockedRefresh
    {purpose : Purpose}
    (hFresh :
      ∀ kid since, purpose = .keyFor kid since →
        s.cached.any
            (fun cached =>
              s.now - cached.fetchedAt <
                minForcedRefreshInterval) = true →
          since < s.fetched.length ∨ s.held kid ≠ none) :
    StageOk (lockedRefresh s).1 purpose
      (lockedRefresh s).2 := by
  unfold lockedRefresh
  split
  · rename_i hYoung
    exact fun kid since hFor => hFresh kid since hFor hYoung
  · split
    · intro kid hSame
      cases hSame
    · trivial

theorem stageOk_finishFetch
    {purpose : Purpose}
    (hPurpose : PurposeOk s purpose)
    (answer : Except String (List Jwk)) :
    StageOk (finishFetch fromRsaComponents s answer).1 purpose
      (finishFetch fromRsaComponents s answer).2 := by
  cases answer with
  | error message =>
      intro kid hSame
      cases hSame
  | ok jwks =>
      simp only [finishFetch]
      split
      · intro kid hSame
        cases hSame
      · intro kid since hFor
        left
        have hLe := hPurpose kid since hFor
        simp only [List.length_cons]
        omega

theorem stageOk_afterRefresh
    {purpose : Purpose}
    {result : Except JwksError Unit}
    (hShared : SharedOk s)
    (hOk : RefreshedOk s purpose result) :
    StageOk s purpose (afterRefresh s purpose result) := by
  cases purpose with
  | behind => trivial
  | keyFor kid since =>
      simp only [afterRefresh]
      cases hHeld : s.held kid with
      | some key => trivial
      | none =>
          cases result with
          | ok done =>
              intro kid' since' hFor
              cases hFor
              rcases hOk kid since rfl with hSince | hHas
              · exact exists_fetchedAfter hShared hSince hHeld
              · exact absurd hHeld hHas
          | error err =>
              cases err with
              | fetch message => trivial
              | rateLimited => trivial
              | unknownKey unknown =>
                  exact absurd rfl (hOk unknown)

/- What the call that went on knows. -/
theorem callOk_resumed
    {call : KeyCall Key}
    {reply : Reply}
    (hShared : SharedOk s)
    (hOk : CallOk s call)
    (hFresh :
      ∀ kid since,
        call = { purpose := .keyFor kid since,
                 stage := .locking } →
          reply = .go → s.locked = false →
            s.cached.any
                (fun cached =>
                  s.now - cached.fetchedAt <
                    minForcedRefreshInterval) = true →
              since < s.fetched.length ∨ s.held kid ≠ none) :
    CallOk (resume fromRsaComponents s call reply).1
      (resume fromRsaComponents s call reply).2 := by
  have hMove :=
    sharedMove_resume fromRsaComponents s call reply
  have hSame :
      (resume fromRsaComponents s call reply).2.purpose =
        call.purpose := by
    unfold resume
    dsimp only
    split
    · split <;> rfl
    all_goals rfl
  constructor
  · rw [hSame]
    exact purposeOk_move hMove hOk.purpose
  · rcases call with ⟨purpose, stage⟩
    cases stage with
    | locking =>
        cases reply with
        | go =>
            simp only [resume]
            split
            · trivial
            · rename_i hFree
              apply stageOk_lockedRefresh
              rintro kid since rfl
              exact
                hFresh kid since rfl rfl
                  (Bool.eq_false_iff.mpr hFree)
        | answer jwks => trivial
        | drop => trivial
    | fetching =>
        cases reply with
        | go => trivial
        | answer jwks =>
            exact stageOk_finishFetch hOk.purpose jwks
        | drop => trivial
    | refreshed result =>
        cases reply with
        | go => exact stageOk_afterRefresh hShared hOk.stage
        | answer jwks => exact hOk.stage
        | drop => trivial
    | answered result => exact hOk.stage
    | done => trivial
    | dropped => trivial

structure CacheOk (c : Config Key) : Prop where
  shared : SharedOk c.shared
  calls : ∀ call ∈ c.calls, CallOk c.shared call

theorem cacheOk_step
    (c : Config Key)
    (e : Event)
    (hOk : CacheOk c)
    (hFresh : FreshForCall c e) :
    CacheOk (step fromRsaComponents c e) := by
  refine ⟨sharedOk_step c e hOk.shared, ?_⟩
  cases e with
  | start what =>
      have hMove := sharedMove_begin c.shared what
      intro call hCall
      simp only [step, Calls.step, program] at hCall ⊢
      rcases List.mem_append.mp hCall with hOld | hNew
      · exact callOk_move hMove (hOk.calls call hOld)
      · exact
          callOk_begun c.shared what call
            (Option.mem_toList.mp hNew)
  | resume id reply =>
      simp only [step, Calls.step]
      cases hCall : c.calls[id]? with
      | none => exact hOk.calls
      | some call =>
          have hMove :=
            sharedMove_resume fromRsaComponents c.shared call
              reply
          apply Calls.forall_resumed
          · exact fun other hOther =>
              callOk_move hMove (hOk.calls other hOther)
          · apply callOk_resumed hOk.shared
              (hOk.calls call (List.mem_of_getElem? hCall))
            rintro kid since rfl rfl
            simpa only [FreshForCall, Calls.resumed, hCall,
              Option.map_some] using hFresh

theorem cacheOk_newCache
    (now : Int)
    (upLongEnough : Bool) :
    CacheOk (newCache now upLongEnough : Config Key) where
  shared := sharedOk_newCache now upLongEnough
  calls := by
    intro call hCall
    exact absurd hCall List.not_mem_nil

theorem unknownAfterFetch_of_cacheOk
    (hOk : CacheOk c) :
    UnknownAfterFetch c := by
  intro kid unknown since hCall
  exact (hOk.calls _ hCall).stage kid since rfl

/-
  Whatever happens, keys are kept and fetches are apart. And
  while no call takes for fresh a set that was fetched
  before it began and is without its key, a key is called
  unknown only after a fetch.
-/
theorem signing_keys
    (fromRsaComponents : String → String → Option Key)
    (now : Int)
    (upLongEnough : Bool)
    (events : List Event)
    (hFresh :
      Run.Meets (step fromRsaComponents) FreshForCall
        (newCache now upLongEnough) events) :
    ∀ past, past <+: events →
      let c :=
        Run.exec (step fromRsaComponents)
          (newCache now upLongEnough) past
      KeysKept c ∧ FetchesApart c ∧ UnknownAfterFetch c := by
  intro past hPrefix c
  have hOk : CacheOk c :=
    Run.invariant_of_prefix cacheOk_step
      (cacheOk_newCache now upLongEnough) hFresh hPrefix
  exact
    ⟨keysKept_of_sharedOk hOk.shared,
      fetchesApart_of_sharedOk hOk.shared,
      unknownAfterFetch_of_cacheOk hOk⟩

/- The first two hold in every run. -/
theorem kept_and_apart
    (fromRsaComponents : String → String → Option Key)
    (now : Int)
    (upLongEnough : Bool)
    (events : List Event) :
    let c :=
      Run.exec (step fromRsaComponents)
        (newCache now upLongEnough) events
    KeysKept c ∧ FetchesApart c := by
  intro c
  have hStep :
      ∀ (c : Config Key) (e : Event),
        SharedOk c.shared →
          SharedOk (step fromRsaComponents c e).shared :=
    sharedOk_step
  have hOk : SharedOk c.shared :=
    Run.invariant_exec hStep events
      (sharedOk_newCache now upLongEnough)
  exact
    ⟨keysKept_of_sharedOk hOk, fetchesApart_of_sharedOk hOk⟩

/- The key of an RSA signing key is its modulus. -/
def modulus (n _ : String) : Option String :=
  some n

def signingKey (kid : String) : Jwk where
  kid := kid
  kty := "RSA"
  alg := some "RS256"
  n := some kid
  e := some "AQAB"

/- The first request of the day fetches the set. -/
def firstFetch : List Event :=
  [.start (.keyFor "k1"), .resume 0 .go,
    .resume 0 (.answer (.ok [signingKey "k1"])),
    .resume 0 .go]

/- The keys are rotated, and a token names the new one. -/
def rotated (wait : Nat) : List Event :=
  firstFetch ++
    [.start (.tick (wait * 1000000)), .start (.keyFor "k2"),
      .resume 1 .go]

def rotatedLater : List Event :=
  rotated 20 ++
    [.resume 1 (.answer (.ok [signingKey "k2"])),
      .resume 1 .go]

theorem signing_keys_rotatedLater :
    let c :=
      Run.exec (step modulus) (newCache 0 true) rotatedLater
    KeysKept c ∧ FetchesApart c ∧ UnknownAfterFetch c :=
  signing_keys modulus 0 true rotatedLater
    ⟨trivial, fun _ hYoung => absurd hYoung (by decide),
      trivial, trivial, trivial, trivial,
      fun _ hYoung => absurd hYoung (by decide), trivial,
      trivial, trivial⟩
    rotatedLater (List.prefix_refl _)

/- Two seconds after the fetch, the new key is refused. -/
theorem rotated_key_is_unknown :
    ¬ ∀ events : List Event,
      let c := Run.exec (step modulus) (newCache 0 true) events
      KeysKept c ∧ FetchesApart c ∧ UnknownAfterFetch c := by
  intro hAll
  have hUnknown :
      (Run.exec (step modulus) (newCache 0 true)
          (rotated 2 ++ [.resume 1 .go])).calls[1]? =
        some
          { purpose := .keyFor "k2" 1
            stage := .answered (.error (.unknownKey "k2")) } :=
    rfl
  rcases hAll (rotated 2 ++ [.resume 1 .go]) with
    ⟨-, -, hAfter⟩
  rcases
    hAfter "k2" "k2" 1 (List.mem_of_getElem? hUnknown) with
    ⟨set, hSet, -⟩
  exact absurd hSet List.not_mem_nil

/-
  A call that takes such a set for fresh goes on to say that
  its key is unknown, and no set was fetched since it began.
-/
theorem stale_set_refuses
    {e : Event}
    (hStale : ¬ FreshForCall c e) :
    ∃ id,
      ¬ UnknownAfterFetch
        (step fromRsaComponents (step fromRsaComponents c e)
          (.resume id .go)) := by
  unfold FreshForCall at hStale
  split at hStale
  · rename_i kid since hResumed
    simp only [Classical.not_imp, not_or, not_lt, not_not]
      at hStale
    rcases hStale with ⟨hFree, hYoung, hOld, hNone⟩
    cases e with
    | start what => cases hResumed
    | resume id reply =>
        rcases Option.map_eq_some_iff.mp hResumed with
          ⟨call, hCall, hSame⟩
        cases hSame
        have hLt := (List.getElem?_eq_some_iff.mp hCall).1
        have hTaken :
            step fromRsaComponents c (.resume id .go) =
              { shared := c.shared
                calls :=
                  c.calls.set id
                    { purpose := .keyFor kid since
                      stage := .refreshed (.ok ()) } } := by
          simp [step, Calls.step, hCall, program, resume, hFree,
            lockedRefresh, hYoung]
        have hRefused :
            (step fromRsaComponents
                (step fromRsaComponents c (.resume id .go))
                (.resume id .go)) =
              { shared := c.shared
                calls :=
                  c.calls.set id
                    { purpose := .keyFor kid since
                      stage :=
                        .answered
                          (.error (.unknownKey kid)) } } := by
          rw [hTaken]
          simp [step, Calls.step, hLt, program, resume,
            afterRefresh, hNone]
        refine ⟨id, fun hAfter => ?_⟩
        rw [hRefused] at hAfter
        rcases
          hAfter kid kid since (List.mem_set hLt _) with
          ⟨set, hSet, -⟩
        have hEmpty : c.shared.fetched.length - since = 0 := by
          omega
        simp only [Shared.fetchedAfter, hEmpty,
          List.take_zero] at hSet
        exact absurd hSet List.not_mem_nil
  · exact absurd trivial hStale

end Jwks

end SentinelCommand
