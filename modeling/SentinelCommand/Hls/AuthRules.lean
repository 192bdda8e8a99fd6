import SentinelCommand.Hls.AuthCache

/-
  The invariant of the auth cache and a rule for each of its
  operations, over any system that uses it.

  Every cached entry is a true answer of the version it was
  read from, and that version is no older than the commit of
  any write whose invalidation the cache has already seen. A
  reader's tag gives the same for what it is about to cache.

  Key definitions include:
    * `Hls.EntryOk`
    * `Hls.AuthInv`, `Hls.AuthGuar`

  Key theorems include:
    * `Hls.valid_lookup`
    * `Hls.valid_store`
-/

--------------------
-- The invariant
--------------------

namespace SentinelCommand

namespace Hls

open Interleaving

variable {X Label : Type}

/- What a cached entry of each map asserts. -/
def nodeHolds
    (db : Db)
    (keyHash : String)
    (node : PushNode) : Prop :=
  selectPushNode db keyHash = some node

def cameraHolds
    (db : Db)
    (key : Int × String)
    (camera : PushCamera) : Prop :=
  ∃ orgId, selectPushCamera db key.1 orgId key.2 = some camera

def viewableHolds
    (db : Db)
    (key : String × String)
    (nodeId : String) : Prop :=
  selectViewable db key.1 key.2 = some (some nodeId)

/- What a lookup's answer asserts. -/
def Fact.HoldsIn : Fact → Db → Prop
| .node keyHash found, db => nodeHolds db keyHash found
| .camera nodePk cameraId found, db =>
    cameraHolds db (nodePk, cameraId) found
| .viewable orgId cameraId nodeId, db =>
    viewableHolds db (orgId, cameraId) nodeId

/- A true answer of the version it was read from. -/
structure Recorded
    {K V : Type}
    (holds : Db → K → V → Prop)
    (s : Shared X)
    (key : K)
    (value : V)
    (readAt : Nat) : Prop where
  past : readAt ≤ s.commits
  holds : holds (s.versions readAt) key value

/-
  A recorded answer, no older than the writes that had been
  invalidated by generation `tag`.
-/
structure EntryOk
    {K V : Type}
    (holds : Db → K → V → Prop)
    (s : Shared X)
    (tag : Nat)
    (key : K)
    (value : V)
    (readAt : Nat) : Prop where
  recorded : Recorded holds s key value readAt
  fresh :
    ∀ w ∈ s.returned, w.generation ≤ tag → w.commit ≤ readAt

def TableOk
    {K V : Type}
    [DecidableEq K]
    (holds : Db → K → V → Prop)
    (s : Shared X)
    (tag : Nat)
    (table : Table K V) : Prop :=
  ∀ key entry, table.lookup key = some entry →
    EntryOk holds s tag key entry.value entry.readAt

/-
  An answer is true of the version that was read, and that
  version is no older than the writes whose invalidation had
  returned when the lookup began.
-/
structure AnswerOk
    (s : Shared X)
    (a : Answer) : Prop where
  past : a.readAt ≤ s.commits
  holds : a.fact.HoldsIn (s.versions a.readAt)
  fresh : ∀ w ∈ a.before, w.commit ≤ a.readAt

structure AuthInv (s : Shared X) : Prop where
  returned :
    ∀ w ∈ s.returned,
      w.generation ≤ s.generation ∧ w.commit ≤ s.commits
  synced : s.cache.generation ≤ s.generation
  nodes :
    TableOk nodeHolds s s.cache.generation s.cache.nodes
  cameras :
    TableOk cameraHolds s s.cache.generation s.cache.cameras
  viewable :
    TableOk viewableHolds s s.cache.generation
      s.cache.viewable
  answers : ∀ a ∈ s.answers, AnswerOk s a

/- What a step of any thread keeps. -/
structure AuthGuar
    (id : Nat)
    (s s' : Shared X) : Prop where
  generation : s.generation ≤ s'.generation
  commits : s.commits ≤ s'.commits
  versions :
    ∀ m ≤ s.commits, s'.versions m = s.versions m
  returned : s.returned ⊆ s'.returned
  added :
    ∀ w ∈ s'.returned,
      w ∈ s.returned ∨ s.generation < w.generation
  locked :
    ∀ other, other ≠ id → s.holder = some other →
      s'.holder = some other ∧ s'.cache = s.cache

--------------------
-- Systems over the cache
--------------------

/-
  What a system adds: an invariant and a preorder that its
  steps keep, neither of which looks at the cache.
-/
structure Setting (X : Type) where
  Extra : Shared X → Prop
  Keeps : Shared X → Shared X → Prop
  keeps_refl : ∀ s, Keeps s s
  keeps_trans :
    ∀ s₁ s₂ s₃, Keeps s₁ s₂ → Keeps s₂ s₃ → Keeps s₁ s₃
  extra_cache :
    ∀ (s : Shared X) holder cache answers, Extra s →
      Extra
        { s with
          holder := holder, cache := cache
          answers := answers }
  keeps_cache :
    ∀ (s : Shared X) holder cache answers,
      Keeps s
        { s with
          holder := holder, cache := cache
          answers := answers }

variable (σ : Setting X)

structure Setting.Inv (s : Shared X) : Prop where
  auth : AuthInv s
  extra : σ.Extra s

structure Setting.Guar
    (id : Nat)
    (s s' : Shared X) : Prop where
  auth : AuthGuar id s s'
  keeps : σ.Keeps s s'

/- What a thread knows of a later state. -/
structure Later
    (s s' : Shared X) : Prop where
  generation : s.generation ≤ s'.generation
  commits : s.commits ≤ s'.commits
  versions :
    ∀ m ≤ s.commits, s'.versions m = s.versions m
  returned : s.returned ⊆ s'.returned
  added :
    ∀ w ∈ s'.returned,
      w ∈ s.returned ∨ s.generation < w.generation
  keeps : σ.Keeps s s'

variable {σ}

theorem later_refl (s : Shared X) : Later σ s s where
  generation := Nat.le_refl _
  commits := Nat.le_refl _
  versions _ _ := rfl
  returned _ hMem := hMem
  added _ hMem := Or.inl hMem
  keeps := σ.keeps_refl s

theorem later_trans
    {s₁ s₂ s₃ : Shared X}
    (hFirst : Later σ s₁ s₂)
    (hSecond : Later σ s₂ s₃) :
    Later σ s₁ s₃ where
  generation :=
    Nat.le_trans hFirst.generation hSecond.generation
  commits := Nat.le_trans hFirst.commits hSecond.commits
  versions m hm := by
    rw [hSecond.versions m (Nat.le_trans hm hFirst.commits)]
    exact hFirst.versions m hm
  returned _ hMem := hSecond.returned (hFirst.returned hMem)
  added w hMem := by
    rcases hSecond.added w hMem with hOld | hNew
    · exact hFirst.added w hOld
    · exact Or.inr
        (Nat.lt_of_le_of_lt hFirst.generation hNew)
  keeps := σ.keeps_trans _ _ _ hFirst.keeps hSecond.keeps

theorem later_of_guar
    {id : Nat}
    {s s' : Shared X}
    (hGuar : σ.Guar id s s') :
    Later σ s s' where
  generation := hGuar.auth.generation
  commits := hGuar.auth.commits
  versions := hGuar.auth.versions
  returned := hGuar.auth.returned
  added := hGuar.auth.added
  keeps := hGuar.keeps

theorem later_of_rely
    {id : Nat}
    {s s' : Shared X}
    (hRely : Rely σ.Guar id s s') :
    Later σ s s' := by
  induction hRely with
  | refl => exact later_refl s
  | tail _ hLast ih =>
      rcases hLast with ⟨other, -, hGuar⟩
      exact later_trans ih (later_of_guar hGuar)

/- While a thread holds the mutex the cache is its own. -/
theorem locked_of_rely
    {id : Nat}
    {s s' : Shared X}
    (hRely : Rely σ.Guar id s s')
    (hHeld : s.holder = some id) :
    s'.holder = some id ∧ s'.cache = s.cache := by
  refine rely_stable
    (P := fun now =>
      now.holder = some id ∧ now.cache = s.cache)
    ?_ hRely ⟨hHeld, rfl⟩
  rintro other now next hOther hGuar ⟨hNow, hCache⟩
  rcases hGuar.auth.locked id hOther.symm hNow with
    ⟨hNext, hSame⟩
  exact ⟨hNext, hSame.trans hCache⟩

/- A recorded answer stays recorded. -/
theorem recorded_later
    {K V : Type}
    {holds : Db → K → V → Prop}
    {s s' : Shared X}
    {key : K}
    {value : V}
    {readAt : Nat}
    (hRecorded : Recorded holds s key value readAt)
    (hLater : Later σ s s') :
    Recorded holds s' key value readAt where
  past := Nat.le_trans hRecorded.past hLater.commits
  holds := by
    rw [hLater.versions readAt hRecorded.past]
    exact hRecorded.holds

/- Later invalidations are past the tag. -/
theorem entryOk_later
    {K V : Type}
    {holds : Db → K → V → Prop}
    {s s' : Shared X}
    {tag : Nat}
    {key : K}
    {value : V}
    {readAt : Nat}
    (hEntry : EntryOk holds s tag key value readAt)
    (hTag : tag ≤ s.generation)
    (hLater : Later σ s s') :
    EntryOk holds s' tag key value readAt where
  recorded := recorded_later hEntry.recorded hLater
  fresh w hMem hGeneration := by
    rcases hLater.added w hMem with hOld | hNew
    · exact hEntry.fresh w hOld hGeneration
    · omega

/- What a query has just read. -/
theorem entryOk_query
    {K V : Type}
    {holds : Db → K → V → Prop}
    {s : Shared X}
    {key : K}
    {value : V}
    (hInv : AuthInv s)
    (hHolds : holds s.db key value)
    (tag : Nat) :
    EntryOk holds s tag key value s.commits where
  recorded := ⟨Nat.le_refl _, hHolds⟩
  fresh w hMem _ := (hInv.returned w hMem).2

--------------------
-- Steps inside the mutex
--------------------

variable {X Label : Type} {σ : Setting X}

@[simp] theorem sync_generation
    (cache : AuthCache)
    (now : Nat) :
    (cache.sync now).generation = now := by
  unfold AuthCache.sync
  by_cases hSame : cache.generation = now
  · simp [hSame]
  · simp [hSame]

/- An empty map asserts nothing. -/
theorem tableOk_empty
    {K V : Type}
    [DecidableEq K]
    (holds : Db → K → V → Prop)
    (s : Shared X)
    (tag : Nat) :
    TableOk holds s tag (∅ : Table K V) := by
  intro key entry hLookup
  simp at hLookup

/- The entries look at the versions and at what returned. -/
theorem entryOk_frame
    {K V : Type}
    {holds : Db → K → V → Prop}
    {s s' : Shared X}
    {tag : Nat}
    {key : K}
    {value : V}
    {readAt : Nat}
    (hEntry : EntryOk holds s tag key value readAt)
    (hVersions : s'.versions = s.versions)
    (hCommits : s'.commits = s.commits)
    (hReturned : s'.returned = s.returned) :
    EntryOk holds s' tag key value readAt where
  recorded :=
    { past := by
        rw [hCommits]
        exact hEntry.recorded.past
      holds := by
        rw [hVersions]
        exact hEntry.recorded.holds }
  fresh := by
    rw [hReturned]
    exact hEntry.fresh

theorem tableOk_frame
    {K V : Type}
    [DecidableEq K]
    {holds : Db → K → V → Prop}
    {s s' : Shared X}
    {tag : Nat}
    {table : Table K V}
    (hTable : TableOk holds s tag table)
    (hVersions : s'.versions = s.versions)
    (hCommits : s'.commits = s.commits)
    (hReturned : s'.returned = s.returned) :
    TableOk holds s' tag table := by
  intro key entry hLookup
  exact entryOk_frame (hTable key entry hLookup) hVersions
    hCommits hReturned

theorem answerOk_frame
    {s s' : Shared X}
    {a : Answer}
    (hAnswer : AnswerOk s a)
    (hVersions : s'.versions = s.versions)
    (hCommits : s'.commits = s.commits) :
    AnswerOk s' a where
  past := by
    rw [hCommits]
    exact hAnswer.past
  holds := by
    rw [hVersions]
    exact hAnswer.holds
  fresh := hAnswer.fresh

/- The mutex is not asserted about. -/
theorem authInv_locked
    {s : Shared X}
    (hInv : AuthInv s)
    (holder : Option Nat)
    {answers : List Answer}
    (hAnswers : ∀ a ∈ answers, AnswerOk s a) :
    AuthInv
      { s with holder := holder, answers := answers } where
  returned := hInv.returned
  synced := hInv.synced
  nodes := tableOk_frame hInv.nodes rfl rfl rfl
  cameras := tableOk_frame hInv.cameras rfl rfl rfl
  viewable := tableOk_frame hInv.viewable rfl rfl rfl
  answers a hMem := answerOk_frame (hAnswers a hMem) rfl rfl

theorem authInv_sync
    {s : Shared X}
    (hInv : AuthInv s)
    {now : Nat}
    (hNow : now ≤ s.generation) :
    AuthInv { s with cache := s.cache.sync now } := by
  by_cases hSame : s.cache.generation = now
  · have hCache : s.cache.sync now = s.cache := by
      simp [AuthCache.sync, hSame]
    rw [hCache]
    exact hInv
  · have hCache :
        s.cache.sync now =
          { AuthCache.empty with generation := now } := by
      simp [AuthCache.sync, hSame]
    rw [hCache]
    exact
      { hInv with
        synced := hNow
        nodes := tableOk_empty nodeHolds _ _
        cameras := tableOk_empty cameraHolds _ _
        viewable := tableOk_empty viewableHolds _ _
        answers := fun a hMem =>
          answerOk_frame (hInv.answers a hMem) rfl rfl }

/- The mutex has one holder. -/
theorem ne_holder_of_holder
    {id : Nat}
    {s : Shared X}
    (hHeld : s.holder = some id)
    (other : Nat)
    (hOther : other ≠ id) :
    s.holder ≠ some other := by
  intro hOwner
  rw [hHeld] at hOwner
  exact hOther (Option.some.inj hOwner).symm

/- A step on the cache by the thread in its mutex. -/
theorem guar_cacheStep
    {id : Nat}
    {s : Shared X}
    (hMine : ∀ other, other ≠ id → s.holder ≠ some other)
    (holder : Option Nat)
    (cache : AuthCache)
    (answers : List Answer) :
    σ.Guar id s
      { s with
        holder := holder, cache := cache
        answers := answers } where
  auth :=
    { generation := Nat.le_refl _
      commits := Nat.le_refl _
      versions := fun _ _ => rfl
      returned := fun _ hMem => hMem
      added := fun _ hMem => Or.inl hMem
      locked := fun other hOther hHeld =>
        absurd hHeld (hMine other hOther) }
  keeps := σ.keeps_cache s holder cache answers

theorem guar_refl
    (id : Nat)
    (s : Shared X) :
    σ.Guar id s s where
  auth :=
    { generation := Nat.le_refl _
      commits := Nat.le_refl _
      versions := fun _ _ => rfl
      returned := fun _ hMem => hMem
      added := fun _ hMem => Or.inl hMem
      locked := fun _ _ hHeld => ⟨hHeld, rfl⟩ }
  keeps := σ.keeps_refl s

/- The cache asserts nothing of the clock or of the rest. -/
theorem authInv_outside
    {s : Shared X}
    (hInv : AuthInv s)
    (clock : Nat)
    (rest : X) :
    AuthInv { s with clock := clock, rest := rest } where
  returned := hInv.returned
  synced := hInv.synced
  nodes := tableOk_frame hInv.nodes rfl rfl rfl
  cameras := tableOk_frame hInv.cameras rfl rfl rfl
  viewable := tableOk_frame hInv.viewable rfl rfl rfl
  answers a hMem := answerOk_frame (hInv.answers a hMem) rfl rfl

theorem guarAuth_outside
    (id : Nat)
    (s : Shared X)
    (clock : Nat)
    (rest : X) :
    AuthGuar id s { s with clock := clock, rest := rest } where
  generation := Nat.le_refl _
  commits := Nat.le_refl _
  versions _ _ := rfl
  returned _ hMem := hMem
  added _ hMem := Or.inl hMem
  locked _ _ hHeld := ⟨hHeld, rfl⟩

/- A read of the generation changes nothing. -/
theorem valid_authGeneration
    {ok : Label → Shared X → Prop}
    {id : Nat}
    {label : Label}
    {s : Shared X}
    {next : Nat → Program X Label}
    (hNext :
      ∀ now, Rely σ.Guar id s now → σ.Inv now →
        Valid σ.Inv σ.Guar ok id now (next now.generation)) :
    Valid σ.Inv σ.Guar ok id s (authGeneration label next) := by
  refine valid_atomic ?_
  intro now hRely hInv _
  exact ⟨hInv, guar_refl id now, hNext now hRely hInv⟩

/- The operation's own part, which ends with the unlock. -/
theorem valid_unlock
    {α : Type}
    {ok : Label → Shared X → Prop}
    {id : Nat}
    {label : Label}
    {start s : Shared X}
    {body : Shared X → Outcome α}
    {next : α → Program X Label}
    (hMine : s.holder = some id)
    (hReached : Later σ start s)
    (hSynced : start.generation ≤ s.cache.generation)
    (hBody :
      ∀ now, Later σ start now → σ.Inv now →
        start.generation ≤ now.cache.generation →
          AuthInv
            { now with
              holder := none
              cache := (body now).cache
              answers := (body now).answers })
    (hNext :
      ∀ now, Later σ start now → σ.Inv now →
        start.generation ≤ now.cache.generation →
          ∀ after, Later σ now after → σ.Inv after →
            Valid σ.Inv σ.Guar ok id after
              (next (body now).result)) :
    Valid σ.Inv σ.Guar ok id s
      (atomic label
        (fun s =>
          ({ s with
              holder := none
              cache := (body s).cache
              answers := (body s).answers },
            (body s).result))
        next) := by
  refine valid_atomic ?_
  intro now hNow hNowInv _
  rcases locked_of_rely hNow hMine with ⟨hStill, hCache⟩
  have hGeneration :
      start.generation ≤ now.cache.generation := by
    rw [hCache]
    exact hSynced
  have hReach : Later σ start now :=
    later_trans hReached (later_of_rely hNow)
  have hGuar :
      σ.Guar id now
        { now with
          holder := none
          cache := (body now).cache
          answers := (body now).answers } :=
    guar_cacheStep (ne_holder_of_holder hStill) none _ _
  have hAfter :
      σ.Inv
        { now with
          holder := none
          cache := (body now).cache
          answers := (body now).answers } :=
    ⟨hBody now hReach hNowInv hGeneration,
      σ.extra_cache now none _ _ hNowInv.extra⟩
  exact ⟨hAfter, hGuar,
    hNext now hReach hNowInv hGeneration _
      (later_of_guar hGuar) hAfter⟩

/-
  An operation under the mutex. When its own part runs, the
  cache has been synced with a generation at least as late
  as the operation's start.
-/
theorem valid_withCache
    {α : Type}
    {ok : Label → Shared X → Prop}
    {id : Nat}
    {label : Label}
    {s : Shared X}
    {body : Shared X → Outcome α}
    {next : α → Program X Label}
    (hBody :
      ∀ now, Later σ s now → σ.Inv now →
        s.generation ≤ now.cache.generation →
          AuthInv
            { now with
              holder := none
              cache := (body now).cache
              answers := (body now).answers })
    (hNext :
      ∀ now, Later σ s now → σ.Inv now →
        s.generation ≤ now.cache.generation →
          ∀ after, Later σ now after → σ.Inv after →
            Valid σ.Inv σ.Guar ok id after
              (next (body now).result)) :
    Valid σ.Inv σ.Guar ok id s
      (withCache id label body next) := by
  refine valid_await ?_
  intro free hFree hFreeInv _ hUnlocked
  have hNobody : free.holder = none := by
    simpa using hUnlocked
  refine
    ⟨⟨authInv_locked hFreeInv.auth (some id)
      hFreeInv.auth.answers, ?_⟩, ?_, ?_⟩
  · exact σ.extra_cache free (some id) free.cache
      free.answers hFreeInv.extra
  · refine guar_cacheStep ?_ (some id) free.cache
      free.answers
    intro other _
    simp [hNobody]
  -- The generation is loaded with the mutex held.
  refine valid_authGeneration ?_
  intro loaded hLoaded hLoadedInv
  have hLater : Later σ s loaded := by
    refine later_trans (later_of_rely hFree) ?_
    refine later_trans ?_ (later_of_rely hLoaded)
    have hLock :
        σ.Guar id free { free with holder := some id } :=
      guar_cacheStep (by simp [hNobody]) (some id)
        free.cache free.answers
    exact later_of_guar hLock
  have hHeld := (locked_of_rely hLoaded rfl).1
  refine valid_atomic ?_
  intro synced hSynced hSyncedInv _
  have hMine := (locked_of_rely hSynced hHeld).1
  have hOthers := ne_holder_of_holder hMine
  have hAge : loaded.generation ≤ synced.generation :=
    (later_of_rely hSynced).generation
  have hGuar :
      σ.Guar id synced
        { synced with
          cache := synced.cache.sync loaded.generation } :=
    guar_cacheStep hOthers synced.holder _ synced.answers
  refine ⟨⟨authInv_sync hSyncedInv.auth hAge, ?_⟩, hGuar, ?_⟩
  · exact σ.extra_cache synced synced.holder _
      synced.answers hSyncedInv.extra
  · have hReached :
        Later σ s
          { synced with
            cache := synced.cache.sync loaded.generation } := by
      refine later_trans hLater ?_
      exact
        later_trans (later_of_rely hSynced)
          (later_of_guar hGuar)
    refine valid_unlock hMine hReached ?_ hBody hNext
    simpa using hLater.generation

--------------------
-- Lookups and stores
--------------------

variable {ok : Label → Shared X → Prop}
variable {id : Nat} {label : Label}

/- A step that changes nothing. -/
theorem valid_read
    {α : Type}
    {s : Shared X}
    {read : Shared X → α}
    {next : α → Program X Label}
    (hNext :
      ∀ now, Later σ s now → σ.Inv now →
        Valid σ.Inv σ.Guar ok id now (next (read now))) :
    Valid σ.Inv σ.Guar ok id s
      (atomic label (fun s => (s, read s)) next) := by
  refine valid_atomic ?_
  intro now hRely hInv _
  exact
    ⟨hInv, guar_refl id now,
      hNext now (later_of_rely hRely) hInv⟩

theorem get_mem
    {K V : Type}
    [DecidableEq K]
    {ttl clock : Nat}
    {table : Table K V}
    {key : K}
    {entry : Entry V}
    (hGet : get ttl clock table key = some entry) :
    table.lookup key = some entry := by
  rw [get, Option.filter_eq_some_iff] at hGet
  exact hGet.1

/-
  A lookup yields a true answer of a version no older than
  the writes whose invalidation had returned.
-/
theorem valid_lookup
    {K V : Type}
    [DecidableEq K]
    {holds : Db → K → V → Prop}
    {table : AuthCache → Table K V}
    {fact : V → Fact}
    {key : K}
    {s : Shared X}
    {next : Option (Entry V) → Program X Label}
    (hFact :
      ∀ db value, holds db key value → (fact value).HoldsIn db)
    (hTable :
      ∀ now : Shared X, AuthInv now →
        TableOk holds now now.cache.generation
          (table now.cache))
    {past : List Invalidation}
    (hPast : past ⊆ s.returned)
    (hMiss :
      ∀ after, Later σ s after → σ.Inv after →
        Valid σ.Inv σ.Guar ok id after (next none))
    (hHit :
      ∀ after entry, Later σ s after → σ.Inv after →
        Recorded holds after key entry.value entry.readAt →
          (∀ w ∈ past, w.commit ≤ entry.readAt) →
            Valid σ.Inv σ.Guar ok id after
              (next (some entry))) :
    Valid σ.Inv σ.Guar ok id s
      (lookup table fact id label key next) := by
  refine valid_read ?_
  intro began hBegan hBeganInv
  -- What had returned by now has been seen by the sync.
  have hFresh
      (now : Shared X)
      (hLater : Later σ began now)
      (hInv : σ.Inv now)
      (hSynced : began.generation ≤ now.cache.generation)
      (entry : Entry V)
      (hGet :
        get now.ttl now.clock (table now.cache) key =
          some entry) :
      Recorded holds now key entry.value entry.readAt ∧
        ∀ w ∈ began.returned, w.commit ≤ entry.readAt := by
    have hEntry :=
      hTable now hInv.auth key entry (get_mem hGet)
    refine ⟨hEntry.recorded, ?_⟩
    intro w hMem
    have hOld := (hBeganInv.auth.returned w hMem).1
    exact hEntry.fresh w (hLater.returned hMem)
      (Nat.le_trans hOld hSynced)
  refine valid_withCache ?_ ?_
  · intro now hLater hInv hSynced
    refine authInv_locked hInv.auth none ?_
    intro a hAnswer
    rcases List.mem_append.mp hAnswer with hOld | hNew
    · exact hInv.auth.answers a hOld
    · cases hGet :
        get now.ttl now.clock (table now.cache) key with
      | none => simp [hGet, noteAnswer] at hNew
      | some entry =>
          simp only [hGet, noteAnswer,
            List.mem_singleton] at hNew
          subst hNew
          rcases hFresh now hLater hInv hSynced entry hGet with
            ⟨hRecorded, hRecent⟩
          exact
            { past := hRecorded.past
              holds := hFact _ _ hRecorded.holds
              fresh := hRecent }
  · intro now hLater hInv hSynced after hAfter hAfterInv
    have hReach : Later σ s after :=
      later_trans hBegan (later_trans hLater hAfter)
    dsimp only
    cases hGet :
      get now.ttl now.clock (table now.cache) key with
    | none => exact hMiss after hReach hAfterInv
    | some entry =>
        rcases hFresh now hLater hInv hSynced entry hGet with
          ⟨hRecorded, hRecent⟩
        refine hHit after entry hReach hAfterInv
          (recorded_later hRecorded hAfter) ?_
        intro w hMem
        exact hRecent w (hBegan.returned (hPast hMem))

/- A put keeps the map's entries in order. -/
theorem tableOk_put
    {K V : Type}
    [DecidableEq K]
    {holds : Db → K → V → Prop}
    {s : Shared X}
    {current seen : Nat}
    {table : Table K V}
    {key : K}
    (ttl : Nat)
    (entry : Entry V)
    (hTable : TableOk holds s current table)
    (hEntry :
      EntryOk holds s seen key entry.value entry.readAt) :
    TableOk holds s current
      (put ttl current seen table key entry) := by
  have hInsert
      (base : Table K V)
      (hBase : TableOk holds s current base)
      (hSame : seen = current) :
      TableOk holds s current (base.insert key entry) := by
    intro other found hLookup
    by_cases hKey : other = key
    · subst hKey
      rw [AList.lookup_insert, Option.some.injEq] at hLookup
      subst hLookup
      rw [← hSame]
      exact hEntry
    · rw [AList.lookup_insert_ne hKey] at hLookup
      exact hBase other found hLookup
  unfold put
  split
  · exact hTable
  · rename_i hPut
    simp only [not_or, not_not] at hPut
    split
    · exact hInsert ∅ (tableOk_empty holds s current) hPut.1
    · exact hInsert table hTable hPut.1

/- Storing what a tagged query read keeps the invariant. -/
theorem valid_store
    {K V : Type}
    [DecidableEq K]
    {holds : Db → K → V → Prop}
    {table : AuthCache → Table K V}
    {setTable : AuthCache → Table K V → AuthCache}
    {seen : Nat}
    {key : K}
    {value : V}
    {readAt : Nat}
    {s : Shared X}
    {next : Program X Label}
    (hTable :
      ∀ now : Shared X, AuthInv now →
        TableOk holds now now.cache.generation
          (table now.cache))
    (hSet :
      ∀ now : Shared X, ∀ updated, AuthInv now →
        TableOk holds now now.cache.generation updated →
          AuthInv
            { now with
              cache := setTable now.cache updated })
    (hSeen : seen ≤ s.generation)
    (hEntry : EntryOk holds s seen key value readAt)
    (hNext :
      ∀ after, Later σ s after → σ.Inv after →
        Valid σ.Inv σ.Guar ok id after next) :
    Valid σ.Inv σ.Guar ok id s
      (store table setTable id label seen key value readAt
        next) := by
  refine valid_withCache ?_ ?_
  · intro now hLater hInv _
    have hNow := entryOk_later hEntry hSeen hLater
    have hPut :=
      tableOk_put now.ttl
        { value := value
          storedAt := now.clock
          readAt := readAt }
        (hTable now hInv.auth) hNow
    have hUpdated := hSet now _ hInv.auth hPut
    exact authInv_locked hUpdated none hUpdated.answers
  · intro now hLater _ _ after hAfter hAfterInv
    exact hNext after (later_trans hLater hAfter) hAfterInv

--------------------
-- The six operations
--------------------

variable {s : Shared X}

theorem valid_cachedPushNode
    {keyHash : String}
    {next : Option (Entry PushNode) → Program X Label}
    (hNext :
      ∀ after found, Later σ s after → σ.Inv after →
        Valid σ.Inv σ.Guar ok id after (next found)) :
    Valid σ.Inv σ.Guar ok id s
      (cachedPushNode id label keyHash next) := by
  refine valid_lookup (fun _ _ hHolds => hHolds)
    (fun now hInv => hInv.nodes) (List.nil_subset _) ?_ ?_
  · intro after hLater hInv
    exact hNext after none hLater hInv
  · intro after entry hLater hInv _ _
    exact hNext after (some entry) hLater hInv

theorem valid_cachedPushCamera
    {nodePk : Int}
    {cameraId : String}
    {next : Option (Entry PushCamera) → Program X Label}
    {past : List Invalidation}
    (hPast : past ⊆ s.returned)
    (hMiss :
      ∀ after, Later σ s after → σ.Inv after →
        Valid σ.Inv σ.Guar ok id after (next none))
    (hHit :
      ∀ after entry, Later σ s after → σ.Inv after →
        Recorded cameraHolds after (nodePk, cameraId)
            entry.value entry.readAt →
          (∀ w ∈ past, w.commit ≤ entry.readAt) →
            Valid σ.Inv σ.Guar ok id after
              (next (some entry))) :
    Valid σ.Inv σ.Guar ok id s
      (cachedPushCamera id label nodePk cameraId next) :=
  valid_lookup (fun _ _ hHolds => hHolds)
    (fun _ hInv => hInv.cameras) hPast hMiss hHit

theorem valid_cachedViewable
    {orgId cameraId : String}
    {next : Option (Entry String) → Program X Label}
    (hNext :
      ∀ after found, Later σ s after → σ.Inv after →
        Valid σ.Inv σ.Guar ok id after (next found)) :
    Valid σ.Inv σ.Guar ok id s
      (cachedViewable id label orgId cameraId next) := by
  refine valid_lookup (fun _ _ hHolds => hHolds)
    (fun now hInv => hInv.viewable) (List.nil_subset _) ?_ ?_
  · intro after hLater hInv
    exact hNext after none hLater hInv
  · intro after entry hLater hInv _ _
    exact hNext after (some entry) hLater hInv

theorem valid_cachePushNode
    {seen : Nat}
    {keyHash : String}
    {node : PushNode}
    {readAt : Nat}
    {next : Program X Label}
    (hSeen : seen ≤ s.generation)
    (hEntry : EntryOk nodeHolds s seen keyHash node readAt)
    (hNext :
      ∀ after, Later σ s after → σ.Inv after →
        Valid σ.Inv σ.Guar ok id after next) :
    Valid σ.Inv σ.Guar ok id s
      (cachePushNode id label seen keyHash node readAt
        next) := by
  refine valid_store (fun _ hInv => hInv.nodes) ?_ hSeen
    hEntry hNext
  intro now updated hInv hUpdated
  exact
    { returned := hInv.returned
      synced := hInv.synced
      nodes := tableOk_frame hUpdated rfl rfl rfl
      cameras := tableOk_frame hInv.cameras rfl rfl rfl
      viewable := tableOk_frame hInv.viewable rfl rfl rfl
      answers := fun a hMem =>
        answerOk_frame (hInv.answers a hMem) rfl rfl }

theorem valid_cachePushCamera
    {seen : Nat}
    {nodePk : Int}
    {cameraId : String}
    {camera : PushCamera}
    {readAt : Nat}
    {next : Program X Label}
    (hSeen : seen ≤ s.generation)
    (hEntry :
      EntryOk cameraHolds s seen (nodePk, cameraId) camera
        readAt)
    (hNext :
      ∀ after, Later σ s after → σ.Inv after →
        Valid σ.Inv σ.Guar ok id after next) :
    Valid σ.Inv σ.Guar ok id s
      (cachePushCamera id label seen nodePk cameraId camera
        readAt next) := by
  refine valid_store (fun _ hInv => hInv.cameras) ?_ hSeen
    hEntry hNext
  intro now updated hInv hUpdated
  exact
    { returned := hInv.returned
      synced := hInv.synced
      nodes := tableOk_frame hInv.nodes rfl rfl rfl
      cameras := tableOk_frame hUpdated rfl rfl rfl
      viewable := tableOk_frame hInv.viewable rfl rfl rfl
      answers := fun a hMem =>
        answerOk_frame (hInv.answers a hMem) rfl rfl }

theorem valid_cacheViewable
    {seen : Nat}
    {orgId cameraId nodeId : String}
    {readAt : Nat}
    {next : Program X Label}
    (hSeen : seen ≤ s.generation)
    (hEntry :
      EntryOk viewableHolds s seen (orgId, cameraId) nodeId
        readAt)
    (hNext :
      ∀ after, Later σ s after → σ.Inv after →
        Valid σ.Inv σ.Guar ok id after next) :
    Valid σ.Inv σ.Guar ok id s
      (cacheViewable id label seen orgId cameraId nodeId
        readAt next) := by
  refine valid_store (fun _ hInv => hInv.viewable) ?_ hSeen
    hEntry hNext
  intro now updated hInv hUpdated
  exact
    { returned := hInv.returned
      synced := hInv.synced
      nodes := tableOk_frame hInv.nodes rfl rfl rfl
      cameras := tableOk_frame hInv.cameras rfl rfl rfl
      viewable := tableOk_frame hUpdated rfl rfl rfl
      answers := fun a hMem =>
        answerOk_frame (hInv.answers a hMem) rfl rfl }

--------------------
-- Queries and writes
--------------------

/-
  A query tagged with a generation read before it. What it
  finds may be cached under that tag.
-/
theorem valid_taggedQuery
    {α : Type}
    {select : Db → α}
    {next : Nat → α → Nat → Program X Label}
    (hNext :
      ∀ seen now, Later σ s now → σ.Inv now →
        seen ≤ now.generation →
          Valid σ.Inv σ.Guar ok id now
            (next seen (select now.db) now.commits)) :
    Valid σ.Inv σ.Guar ok id s
      (authGeneration label
        (fun seen => query label select (next seen))) := by
  refine valid_authGeneration ?_
  intro tagged hTagged _
  refine valid_read ?_
  intro now hNow hInv
  exact hNext tagged.generation now
    (later_trans (later_of_rely hTagged) hNow) hInv
    hNow.generation

/- The earlier versions stay. -/
theorem committed_versions
    {now : Shared X}
    {m : Nat}
    (hm : m ≤ now.commits)
    (db : Db) :
    (now.committed db).versions m = now.versions m := by
  refine Function.update_of_ne ?_ _ _
  omega

@[simp] theorem committed_db
    (now : Shared X)
    (db : Db) :
    (now.committed db).db = db := by
  simp [Shared.db, Shared.committed]

/- A commit makes a version and keeps the earlier ones. -/
theorem guarAuth_commit
    (id : Nat)
    (now : Shared X)
    (db : Db) :
    AuthGuar id now (now.committed db) where
  generation := Nat.le_refl _
  commits := Nat.le_succ _
  versions _ hm := committed_versions hm db
  returned _ hMem := hMem
  added _ hMem := Or.inl hMem
  locked _ _ hHeld := ⟨hHeld, rfl⟩

theorem tableOk_commit
    {K V : Type}
    [DecidableEq K]
    {holds : Db → K → V → Prop}
    {now : Shared X}
    {tag : Nat}
    {table : Table K V}
    (hTable : TableOk holds now tag table)
    (db : Db) :
    TableOk holds (now.committed db) tag table := by
  intro key entry hLookup
  rcases hTable key entry hLookup with
    ⟨⟨hPast, hHolds⟩, hFresh⟩
  refine ⟨⟨Nat.le_succ_of_le hPast, ?_⟩, hFresh⟩
  rw [committed_versions hPast]
  exact hHolds

theorem answerOk_commit
    {now : Shared X}
    {a : Answer}
    (hAnswer : AnswerOk now a)
    (db : Db) :
    AnswerOk (now.committed db) a := by
  have hPast := hAnswer.past
  refine ⟨Nat.le_succ_of_le hPast, ?_, hAnswer.fresh⟩
  rw [committed_versions hPast]
  exact hAnswer.holds

theorem authInv_commit
    {now : Shared X}
    (hInv : AuthInv now)
    (db : Db) :
    AuthInv (now.committed db) where
  returned w hMem :=
    ⟨(hInv.returned w hMem).1,
      Nat.le_succ_of_le (hInv.returned w hMem).2⟩
  synced := hInv.synced
  nodes := tableOk_commit hInv.nodes db
  cameras := tableOk_commit hInv.cameras db
  viewable := tableOk_commit hInv.viewable db
  answers a hMem := answerOk_commit (hInv.answers a hMem) db

/- An invalidation bumps the generation and returns. -/
theorem guarAuth_invalidate
    (id : Nat)
    (now : Shared X)
    (committed : Nat) :
    AuthGuar id now (now.invalidated committed) where
  generation := Nat.le_succ _
  commits := Nat.le_refl _
  versions _ _ := rfl
  returned _ hMem := List.mem_append_left _ hMem
  added w hMem := by
    rcases List.mem_append.mp hMem with hOld | hNew
    · exact Or.inl hOld
    · rw [List.mem_singleton.mp hNew]
      exact Or.inr (Nat.lt_succ_self _)
  locked _ _ hHeld := ⟨hHeld, rfl⟩

/- No entry is tagged with a generation yet to come. -/
theorem tableOk_invalidate
    {K V : Type}
    [DecidableEq K]
    {holds : Db → K → V → Prop}
    {now : Shared X}
    {tag : Nat}
    {table : Table K V}
    (hTable : TableOk holds now tag table)
    (hTag : tag ≤ now.generation)
    (committed : Nat) :
    TableOk holds (now.invalidated committed) tag table := by
  intro key entry hLookup
  rcases hTable key entry hLookup with
    ⟨⟨hPast, hHolds⟩, hFresh⟩
  refine ⟨⟨hPast, hHolds⟩, ?_⟩
  intro w hMem hGeneration
  rcases List.mem_append.mp hMem with hOld | hNew
  · exact hFresh w hOld hGeneration
  · rw [List.mem_singleton.mp hNew] at hGeneration
    dsimp only at hGeneration
    omega

theorem authInv_invalidate
    {now : Shared X}
    (hInv : AuthInv now)
    {committed : Nat}
    (hCommitted : committed ≤ now.commits) :
    AuthInv (now.invalidated committed) where
  returned w hMem := by
    rcases List.mem_append.mp hMem with hOld | hNew
    · rcases hInv.returned w hOld with ⟨hGeneration, hCommit⟩
      exact ⟨Nat.le_succ_of_le hGeneration, hCommit⟩
    · rw [List.mem_singleton.mp hNew]
      exact ⟨Nat.le_refl _, hCommitted⟩
  synced := Nat.le_succ_of_le hInv.synced
  nodes := tableOk_invalidate hInv.nodes hInv.synced committed
  cameras :=
    tableOk_invalidate hInv.cameras hInv.synced committed
  viewable :=
    tableOk_invalidate hInv.viewable hInv.synced committed
  answers a hMem := answerOk_frame (hInv.answers a hMem) rfl rfl

/- A commit: the version it made is the latest one. -/
theorem valid_commit
    {change : Db → Db}
    {next : Nat → Program X Label}
    (hExtra :
      ∀ now, Later σ s now → σ.Inv now → ok label now →
        σ.Extra (now.committed (change now.db)) ∧
          σ.Keeps now (now.committed (change now.db)))
    (hNext :
      ∀ now, Later σ s now → σ.Inv now →
        σ.Inv (now.committed (change now.db)) →
          Later σ s (now.committed (change now.db)) →
            Valid σ.Inv σ.Guar ok id
              (now.committed (change now.db))
              (next (now.commits + 1))) :
    Valid σ.Inv σ.Guar ok id s
      (commit label change next) := by
  refine valid_atomic ?_
  intro now hRely hInv hOk
  have hLater : Later σ s now := later_of_rely hRely
  rcases hExtra now hLater hInv hOk with ⟨hHolds, hKeeps⟩
  have hGuar :
      σ.Guar id now (now.committed (change now.db)) :=
    ⟨guarAuth_commit id now _, hKeeps⟩
  have hAfter : σ.Inv (now.committed (change now.db)) :=
    ⟨authInv_commit hInv.auth _, hHolds⟩
  exact ⟨hAfter, hGuar,
    hNext now hLater hInv hAfter
      (later_trans hLater (later_of_guar hGuar))⟩

/- An invalidation of a version that was made. -/
theorem valid_invalidateAuthCache
    {committed : Nat}
    {next : Program X Label}
    (hCommitted : committed ≤ s.commits)
    (hExtra :
      ∀ now, Later σ s now → σ.Inv now → ok label now →
        σ.Extra (now.invalidated committed) ∧
          σ.Keeps now (now.invalidated committed))
    (hNext :
      ∀ now, Later σ s now → σ.Inv now →
        σ.Inv (now.invalidated committed) →
          Later σ s (now.invalidated committed) →
            Valid σ.Inv σ.Guar ok id
              (now.invalidated committed) next) :
    Valid σ.Inv σ.Guar ok id s
      (invalidateAuthCache label committed next) := by
  refine valid_atomic ?_
  intro now hRely hInv hOk
  have hLater : Later σ s now := later_of_rely hRely
  rcases hExtra now hLater hInv hOk with ⟨hHolds, hKeeps⟩
  have hMade : committed ≤ now.commits :=
    Nat.le_trans hCommitted hLater.commits
  have hGuar :
      σ.Guar id now (now.invalidated committed) :=
    ⟨guarAuth_invalidate id now _, hKeeps⟩
  have hAfter : σ.Inv (now.invalidated committed) :=
    ⟨authInv_invalidate hInv.auth hMade, hHolds⟩
  exact ⟨hAfter, hGuar,
    hNext now hLater hInv hAfter
      (later_trans hLater (later_of_guar hGuar))⟩

--------------------
-- The requests
--------------------

/-
  A push is authorised by a camera row of some version no
  older than the writes that had been invalidated before it
  began.
-/
theorem valid_resolvePushCamera
    {node : PushNode}
    {cameraId : String}
    {next : Except PushError PushTarget → Program X Label}
    {past : List Invalidation}
    (hPast : past ⊆ s.returned)
    (hRefused :
      ∀ after error, Later σ s after → σ.Inv after →
        Valid σ.Inv σ.Guar ok id after (next (.error error)))
    (hTarget :
      ∀ after target camera, Later σ s after → σ.Inv after →
        Recorded cameraHolds after (node.pk, cameraId) camera
            target.readAt →
          (∀ w ∈ past, w.commit ≤ target.readAt) →
            Valid σ.Inv σ.Guar ok id after
              (next (.ok target))) :
    Valid σ.Inv σ.Guar ok id s
      (resolvePushCamera id label node cameraId next) := by
  refine valid_cachedPushCamera hPast ?_ ?_
  · intro missed hMissed _
    refine valid_taggedQuery ?_
    intro seen now hNow hInv hSeen
    have hReach : Later σ s now := later_trans hMissed hNow
    cases hRow :
      selectPushCamera now.db node.pk node.orgId cameraId with
    | none => exact hRefused now .cameraNotFound hReach hInv
    | some camera =>
        have hEntry :
            EntryOk cameraHolds now seen (node.pk, cameraId)
              camera now.commits :=
          entryOk_query hInv.auth ⟨node.orgId, hRow⟩ seen
        refine valid_cachePushCamera hSeen hEntry ?_
        intro after hAfter hAfterInv
        refine hTarget after _ camera
          (later_trans hReach hAfter) hAfterInv
          (recorded_later hEntry.recorded hAfter) ?_
        intro w hMem
        exact (hInv.auth.returned w
          (hReach.returned (hPast hMem))).2
  · intro after entry hLater hInv hRecorded hRecent
    exact hTarget after _ entry.value hLater hInv hRecorded
      hRecent

theorem valid_resolvePushTarget
    {keyHash : Option String}
    {cameraId : String}
    {next : Except PushError PushTarget → Program X Label}
    {past : List Invalidation}
    (hPast : past ⊆ s.returned)
    (hRefused :
      ∀ after error, Later σ s after → σ.Inv after →
        Valid σ.Inv σ.Guar ok id after (next (.error error)))
    (hTarget :
      ∀ after target nodePk camera,
        Later σ s after → σ.Inv after →
          Recorded cameraHolds after (nodePk, cameraId) camera
              target.readAt →
            (∀ w ∈ past, w.commit ≤ target.readAt) →
              Valid σ.Inv σ.Guar ok id after
                (next (.ok target)))
    (hStart : σ.Inv s) :
    Valid σ.Inv σ.Guar ok id s
      (resolvePushTarget id label keyHash cameraId next) := by
  -- Whatever node was found, the camera decides.
  have hCamera
      (after : Shared X)
      (node : PushNode)
      (hLater : Later σ s after) :
      Valid σ.Inv σ.Guar ok id after
        (resolvePushCamera id label node cameraId next) := by
    refine valid_resolvePushCamera
      (fun _ hMem => hLater.returned (hPast hMem)) ?_ ?_
    · intro last error hLast hInv
      exact hRefused last error (later_trans hLater hLast) hInv
    · intro last target camera hLast hInv hRecorded hRecent
      exact hTarget last target node.pk camera
        (later_trans hLater hLast) hInv hRecorded hRecent
  cases keyHash with
  | none => exact hRefused s .missingKey (later_refl s) hStart
  | some keyHash =>
      refine valid_cachedPushNode ?_
      intro looked found hLooked _
      cases found with
      | some entry => exact hCamera looked entry.value hLooked
      | none =>
          refine valid_taggedQuery ?_
          intro seen now hNow hInv hSeen
          have hReach : Later σ s now :=
            later_trans hLooked hNow
          cases hRow : selectPushNode now.db keyHash with
          | none => exact hRefused now .invalidKey hReach hInv
          | some node =>
              have hEntry :
                  EntryOk nodeHolds now seen keyHash node
                    now.commits :=
                entryOk_query hInv.auth hRow seen
              refine valid_cachePushNode hSeen hEntry ?_
              intro after hAfter _
              exact hCamera after node
                (later_trans hReach hAfter)

theorem valid_viewableCameraNode
    {orgId cameraId : String}
    {next : Except ViewError String → Program X Label}
    (hNext :
      ∀ after result, Later σ s after → σ.Inv after →
        Valid σ.Inv σ.Guar ok id after (next result)) :
    Valid σ.Inv σ.Guar ok id s
      (viewableCameraNode id label orgId cameraId next) := by
  refine valid_cachedViewable ?_
  intro looked found hLooked hLookedInv
  cases found with
  | some entry => exact hNext looked _ hLooked hLookedInv
  | none =>
      refine valid_taggedQuery ?_
      intro seen now hNow hInv hSeen
      have hReach : Later σ s now := later_trans hLooked hNow
      cases hRow : selectViewable now.db orgId cameraId with
      | none => exact hNext now _ hReach hInv
      | some nodeId =>
          cases hNode : nodeId.filter (· ≠ "") with
          | none =>
              simp only [hNode]
              exact hNext now _ hReach hInv
          | some named =>
              simp only [hNode]
              have hSame : nodeId = some named :=
                (Option.filter_eq_some_iff.mp hNode).1
              have hEntry :
                  EntryOk viewableHolds now seen
                    (orgId, cameraId) named now.commits :=
                entryOk_query hInv.auth
                  (hRow.trans (congrArg some hSame)) seen
              refine valid_cacheViewable hSeen hEntry ?_
              intro after hAfter hAfterInv
              exact hNext after _ (later_trans hReach hAfter)
                hAfterInv

end Hls

end SentinelCommand
