import SentinelCommand.Clock
import SentinelCommand.Json
import SentinelCommand.Lib.Calls

/-
  Who an e-mail goes to: `recipient_emails` and its cache,
  beside membership changes that are each followed by
  `invalidate_org`.

  A fetch asks Clerk between the miss and the insert. Clerk
  answers with the membership it has at that instant, and
  the list is stored when the answer has arrived.

  Main declarations:
    * `Recipients.addresses`
    * `Recipients.RecipientCall`, `Recipients.program`
    * `Recipients.lists_current`
-/

--------------------
-- Addresses
--------------------

namespace SentinelCommand

namespace Recipients

def cacheTtl : Int :=
  seconds 300

def adminRoles : List String :=
  ["org:admin", "admin"]

def pageLimit : Nat :=
  100

/- `member.get("role")`, empty when it is no text. -/
def role (member : Json) : String :=
  ((member.asObject.bind (·.lookup "role")).bind
    Json.asStr).getD ""

/- `extract_email`. -/
def extractEmail (member : Json) : Option String := do
  let fields ← member.asObject
  let publicData ← (← fields.lookup "public_user_data").asObject
  let identifier ← (← publicData.lookup "identifier").asStr
  if '@' ∈ identifier.toList then some identifier else none

/- The member gets mail for this audience. -/
def inAudience (audience : String) (member : Json) : Bool :=
  audience ≠ "admin" || adminRoles.contains (role member)

/- The scan over the members, with the texts seen so far. -/
def addressesFrom
    (toLowercase : String → String)
    (audience : String) :
    List String → List Json → List String
| _, [] => []
| seen, member :: rest =>
    if inAudience audience member then
      match extractEmail member with
      | none => addressesFrom toLowercase audience seen rest
      | some address =>
          if seen.contains (toLowercase address) then
            addressesFrom toLowercase audience seen rest
          else
            address ::
              addressesFrom toLowercase audience
                (toLowercase address :: seen) rest
    else
      addressesFrom toLowercase audience seen rest

/- What `fetch_from_clerk` makes of a page of members. -/
def addresses
    (toLowercase : String → String)
    (audience : String)
    (members : List Json) : List String :=
  addressesFrom toLowercase audience [] members

/- An unknown audience is `all`. -/
def knownAudience (audience : String) : String :=
  if audience = "admin" then "admin" else "all"

--------------------
-- Calls
--------------------

/-
  A stored list, until when it is served, and beside it how
  many changes the organization had seen when Clerk gave it.
-/
structure Entry where
  expiresAt : Int
  addrs : List String
  asOf : Nat
  deriving DecidableEq, Repr

/-
  The clock, the cache and Clerk's members of each
  organization. Beside them the changes of its membership so
  far, and the latest whose `invalidate_org` has returned.
-/
structure World where
  now : Int
  cache : String → String → Option Entry
  members : String → List Json
  changes : String → Nat
  settled : String → Nat

/- Lower-casing, and the admin of a self-hosted install. -/
structure Lookup where
  toLowercase : String → String
  localAdminEmail : Option String

/-
  How far a call has come. `since` is the latest change that
  had been invalidated when `recipient_emails` was called;
  `cachedAsOf` is there when the list is from the cache.
-/
inductive RecipientCall where
  | fetching (orgId audience : String) (since : Nat)
  | answered
      (orgId audience : String)
      (since : Nat)
      (answer : Option (List String))
      (asOf : Nat)
  | returned
      (orgId : String)
      (since : Nat)
      (addrs : List String)
      (cachedAsOf : Option Nat)
  | invalidating (orgId : String) (change : Nat)
  | invalidated (orgId : String)
  deriving DecidableEq, Repr

inductive Start where
  | recipientEmails (orgId audience : String)
  | changeMembers (orgId : String) (members : List Json)
  | tick (elapsed : Nat)

/- The list the cache holds and may still serve. -/
def lookupCache
    (w : World)
    (orgId audience : String) : Option Entry :=
  (w.cache orgId audience).filter (fun e => w.now < e.expiresAt)

/- The call up to its first wait. -/
def begin
    (lookup : Lookup)
    (w : World) :
    Start → World × Option RecipientCall
| .recipientEmails orgId audience =>
    let since := w.settled orgId
    match lookup.localAdminEmail with
    | some admin =>
        (w,
          some (.returned orgId since
            (if admin = "" then [] else [admin]) none))
    | none =>
        match lookupCache w orgId (knownAudience audience) with
        | some entry =>
            (w,
              some (.returned orgId since entry.addrs
                (some entry.asOf)))
        | none =>
            (w,
              some (.fetching orgId (knownAudience audience)
                since))
| .changeMembers orgId members =>
    ({ w with
        members := fun org =>
          if org = orgId then members else w.members org
        changes := fun org =>
          if org = orgId then w.changes org + 1
          else w.changes org },
      some (.invalidating orgId (w.changes orgId + 1)))
| .tick elapsed => ({ w with now := w.now + elapsed }, none)

/- The list is stored for five minutes. -/
def insertEntry
    (w : World)
    (orgId audience : String)
    (addrs : List String)
    (asOf : Nat) : World :=
  { w with
    cache := fun org aud =>
      if org = orgId ∧ aud = audience then
        some
          { expiresAt := w.now + cacheTtl
            addrs := addrs
            asOf := asOf }
      else
        w.cache org aud }

/- `invalidate_org`, after the change with this number. -/
def invalidateOrg
    (w : World)
    (orgId : String)
    (change : Nat) : World :=
  { w with
    cache := fun org aud =>
      if org = orgId then none else w.cache org aud
    settled := fun org =>
      if org = orgId then max (w.settled org) change
      else w.settled org }

/-
  A call goes on. `fails` is whether the request to Clerk
  came back with anything but a list of members.
-/
def resume
    (lookup : Lookup)
    (w : World)
    (call : RecipientCall)
    (fails : Bool) : World × RecipientCall :=
  match call with
  | .fetching orgId audience since =>
      if fails then
        (w, .answered orgId audience since none 0)
      else
        (w,
          .answered orgId audience since
            (some
              (addresses lookup.toLowercase audience
                ((w.members orgId).take pageLimit)))
            (w.changes orgId))
  | .answered orgId _ since none _ =>
      (w, .returned orgId since [] none)
  | .answered orgId audience since (some addrs) asOf =>
      (insertEntry w orgId audience addrs asOf,
        .returned orgId since addrs none)
  | .invalidating orgId change =>
      (invalidateOrg w orgId change, .invalidated orgId)
  | .returned orgId since addrs cachedAsOf =>
      (w, .returned orgId since addrs cachedAsOf)
  | .invalidated orgId => (w, .invalidated orgId)

def program
    (lookup : Lookup) :
    Calls.Program World RecipientCall Start Bool where
  begin := begin lookup
  resume := resume lookup

abbrev Config : Type :=
  Calls.Config World RecipientCall

abbrev Event : Type :=
  Calls.Event Start Bool

def step (lookup : Lookup) : Config → Event → Config :=
  Calls.step (program lookup)

/- A new process: the cache is empty. -/
def fresh (members : String → List Json) : Config :=
  Calls.initial
    { now := 0
      cache := fun _ _ => none
      members := members
      changes := fun _ => 0
      settled := fun _ => 0 }

--------------------
-- Current Lists
--------------------

variable {lookup : Lookup}
variable {w : World}
variable {c : Config}

/-
  If the event stores a list, every change that has been
  invalidated was made before Clerk gave the list.
-/
def InsertsCurrent (c : Config) (e : Event) : Prop :=
  match Calls.resumed c e with
  | some (.answered orgId _ _ (some _) asOf, _) =>
      c.shared.settled orgId ≤ asOf
  | _ => True

/-
  A call answered from the cache got a list that Clerk gave
  after every change invalidated before the call.
-/
def ListsCurrent (c : Config) : Prop :=
  ∀ orgId since addrs asOf,
    .returned orgId since addrs (some asOf) ∈ c.calls →
      since ≤ asOf

/- No stored list is older than an invalidated change. -/
def CacheCurrent (w : World) : Prop :=
  ∀ orgId audience entry,
    w.cache orgId audience = some entry →
      w.settled orgId ≤ entry.asOf

theorem cacheCurrent_insert
    (hCurrent : CacheCurrent w)
    {orgId audience : String}
    {addrs : List String}
    {asOf : Nat}
    (hInsert : w.settled orgId ≤ asOf) :
    CacheCurrent (insertEntry w orgId audience addrs asOf) := by
  intro org aud entry hEntry
  simp only [insertEntry] at hEntry
  split at hEntry
  · rename_i hSame
    cases hEntry
    rw [hSame.1]
    exact hInsert
  · exact hCurrent org aud entry hEntry

theorem cacheCurrent_invalidate
    (hCurrent : CacheCurrent w)
    (orgId : String)
    (change : Nat) :
    CacheCurrent (invalidateOrg w orgId change) := by
  intro org aud entry hEntry
  simp only [invalidateOrg] at hEntry ⊢
  split at hEntry
  · cases hEntry
  · rename_i hOther
    simp only [hOther, if_false]
    exact hCurrent org aud entry hEntry

/- A call that has just begun found a current list. -/
theorem current_begin
    (hCurrent : CacheCurrent w)
    (what : Start)
    {orgId : String}
    {since asOf : Nat}
    {addrs : List String}
    (hCall :
      (begin lookup w what).2 =
        some (.returned orgId since addrs (some asOf))) :
    since ≤ asOf := by
  cases what with
  | tick elapsed => cases hCall
  | changeMembers org members => cases hCall
  | recipientEmails org audience =>
      simp only [begin] at hCall
      split at hCall
      · cases hCall
      · split at hCall
        · rename_i entry hEntry
          rcases Option.filter_eq_some_iff.mp hEntry with
            ⟨hStored, -⟩
          cases hCall
          exact hCurrent orgId _ entry hStored
        · cases hCall

theorem cacheCurrent_begin
    (hCurrent : CacheCurrent w)
    (what : Start) :
    CacheCurrent (begin lookup w what).1 := by
  cases what with
  | tick elapsed => exact hCurrent
  | changeMembers org members => exact hCurrent
  | recipientEmails org audience =>
      simp only [begin]
      split
      · exact hCurrent
      · split
        · exact hCurrent
        · exact hCurrent

/- A call that goes on is never answered from the cache. -/
theorem cachedAsOf_resume
    {call : RecipientCall}
    {fails : Bool}
    {orgId : String}
    {since asOf : Nat}
    {addrs : List String}
    (hNext :
      (resume lookup w call fails).2 =
        .returned orgId since addrs (some asOf)) :
    call = .returned orgId since addrs (some asOf) := by
  cases call with
  | fetching org audience since' =>
      simp only [resume] at hNext
      split at hNext
      · cases hNext
      · cases hNext
  | answered org audience since' answer asOf' =>
      cases answer with
      | none => cases hNext
      | some addrs' => cases hNext
  | returned org since' addrs' cached => exact hNext
  | invalidating org change => cases hNext
  | invalidated org => cases hNext

theorem cacheCurrent_resume
    {call : RecipientCall}
    (hCurrent : CacheCurrent w)
    (fails : Bool)
    (hInsert :
      ∀ orgId audience since addrs asOf,
        call = .answered orgId audience since (some addrs)
            asOf →
          w.settled orgId ≤ asOf) :
    CacheCurrent (resume lookup w call fails).1 := by
  cases call with
  | fetching org audience since =>
      simp only [resume]
      split
      · exact hCurrent
      · exact hCurrent
  | answered org audience since answer asOf =>
      cases answer with
      | none => exact hCurrent
      | some addrs =>
          exact
            cacheCurrent_insert hCurrent
              (hInsert org audience since addrs asOf rfl)
  | returned org since addrs cached => exact hCurrent
  | invalidating org change =>
      exact cacheCurrent_invalidate hCurrent org change
  | invalidated org => exact hCurrent

/- One event keeps the cache and the answers current. -/
theorem current_step
    (c : Config)
    (e : Event)
    (hNow : CacheCurrent c.shared ∧ ListsCurrent c)
    (hInsert : InsertsCurrent c e) :
    CacheCurrent (step lookup c e).shared ∧
      ListsCurrent (step lookup c e) := by
  rcases hNow with ⟨hCache, hLists⟩
  cases e with
  | start what =>
      refine ⟨cacheCurrent_begin hCache what, ?_⟩
      intro orgId since addrs asOf hCall
      simp only [step, Calls.step, program] at hCall
      rcases List.mem_append.mp hCall with hOld | hNew
      · exact hLists orgId since addrs asOf hOld
      · exact
          current_begin hCache what
            (Option.mem_toList.mp hNew)
  | resume id fails =>
      simp only [step, Calls.step]
      cases hCall : c.calls[id]? with
      | none => exact ⟨hCache, hLists⟩
      | some call =>
          constructor
          · apply cacheCurrent_resume hCache fails
            rintro orgId audience since addrs asOf rfl
            simpa only [InsertsCurrent, Calls.resumed, hCall,
              Option.map_some] using hInsert
          · intro orgId since addrs asOf hIn
            rcases List.mem_or_eq_of_mem_set hIn with
              hOld | hNext
            · exact hLists orgId since addrs asOf hOld
            · have hSame := cachedAsOf_resume hNext.symm
              rw [hSame] at hCall
              exact
                hLists orgId since addrs asOf
                  (List.mem_of_getElem? hCall)

/-
  While no list is stored that Clerk gave before a change
  already invalidated, no call is answered from the cache
  with a list older than a change invalidated before it.
-/
theorem lists_current
    (lookup : Lookup)
    (members : String → List Json)
    (events : List Event)
    (hInserts :
      Run.Meets (step lookup) InsertsCurrent (fresh members)
        events) :
    ∀ past, past <+: events →
      ListsCurrent
        (Run.exec (step lookup) (fresh members) past) := by
  intro past hPrefix
  have hStart :
      CacheCurrent (fresh members).shared ∧
        ListsCurrent (fresh members) := by
    constructor
    · intro orgId audience entry hEntry
      cases hEntry
    · intro orgId since addrs asOf hCall
      exact absurd hCall List.not_mem_nil
  exact
    (Run.invariant_of_prefix current_step hStart hInserts
      hPrefix).2

/- Lower-casing of ASCII, and Clerk for the members. -/
def clerkLookup : Lookup where
  toLowercase text :=
    String.ofList (text.toList.map Char.toLower)
  localAdminEmail := none

def member (email : String) : Json :=
  .object
    [("role", .string "org:admin"),
      ("public_user_data",
        .object [("identifier", .string email)])]

/- One organization with two admins. -/
def twoAdmins (orgId : String) : List Json :=
  if orgId = "org" then
    [member "ann@example.test", member "bob@example.test"]
  else
    []

/- Bob is removed, and the list is asked for twice. -/
def bobRemoved : List Event :=
  [.start (.recipientEmails "org" "admin"), .resume 0 false,
    .start (.changeMembers "org" [member "ann@example.test"])]

/- The list is stored before the invalidation. -/
def storedFirst : List Event :=
  bobRemoved ++
    [.resume 0 false, .resume 1 false,
      .start (.recipientEmails "org" "admin")]

theorem lists_current_storedFirst :
    ListsCurrent
      (Run.exec (step clerkLookup) (fresh twoAdmins)
        storedFirst) :=
  lists_current clerkLookup twoAdmins storedFirst
    ⟨trivial, trivial, trivial, Nat.le_refl 0, trivial, trivial,
      trivial⟩
    storedFirst (List.prefix_refl _)

/- The answer is slow: it is stored after the invalidation. -/
def storedLate : List Event :=
  bobRemoved ++
    [.resume 1 false, .resume 0 false,
      .start (.recipientEmails "org" "admin")]

/- Bob is still on the list of a call made afterwards. -/
theorem removed_member_is_served :
    ¬ ∀ (lookup : Lookup)
        (members : String → List Json)
        (events : List Event),
      ListsCurrent
        (Run.exec (step lookup) (fresh members) events) := by
  intro hAll
  have hServed :
      .returned "org" 1
          ["ann@example.test", "bob@example.test"] (some 0) ∈
        (Run.exec (step clerkLookup) (fresh twoAdmins)
          storedLate).calls := by
    decide
  have hLe :=
    hAll clerkLookup twoAdmins storedLate "org" 1 _ 0 hServed
  exact absurd hLe (by decide)

--------------------
-- What a List Stands For
--------------------

/-
  A list dated with the last change is the list of the
  members there are.
-/
def Dated
    (lookup : Lookup)
    (w : World)
    (orgId audience : String)
    (addrs : List String)
    (asOf : Nat) : Prop :=
  asOf ≤ w.changes orgId ∧
    (asOf = w.changes orgId →
      addrs =
        addresses lookup.toLowercase audience
          ((w.members orgId).take pageLimit))

/- The stored lists and those on their way are dated. -/
structure AllDated (lookup : Lookup) (c : Config) : Prop where
  stored :
    ∀ orgId audience entry,
      c.shared.cache orgId audience = some entry →
        Dated lookup c.shared orgId audience entry.addrs
          entry.asOf
  known :
    ∀ orgId audience since answer asOf,
      .answered orgId audience since answer asOf ∈ c.calls →
        knownAudience audience = audience ∧
          ∀ addrs, answer = some addrs →
            Dated lookup c.shared orgId audience addrs asOf
  asked :
    ∀ orgId audience since,
      .fetching orgId audience since ∈ c.calls →
        knownAudience audience = audience

@[simp] theorem knownAudience_idem (audience : String) :
    knownAudience (knownAudience audience) =
      knownAudience audience := by
  unfold knownAudience
  split
  · rfl
  · rfl

/- A change dates every list of its organization. -/
theorem dated_begin
    {orgId audience : String}
    {addrs : List String}
    {asOf : Nat}
    (what : Start)
    (hDated : Dated lookup w orgId audience addrs asOf) :
    Dated lookup (begin lookup w what).1 orgId audience addrs
      asOf := by
  cases what with
  | tick elapsed => exact hDated
  | recipientEmails org aud =>
      simp only [begin]
      split
      · exact hDated
      · split
        · exact hDated
        · exact hDated
  | changeMembers org members =>
      rcases hDated with ⟨hLe, hSame⟩
      by_cases hOrg : orgId = org
      · simp only [Dated, begin, hOrg, if_true]
        rw [hOrg] at hLe
        exact ⟨by omega, fun hEq => absurd hEq (by omega)⟩
      · simp only [Dated, begin, hOrg, if_false]
        exact ⟨hLe, hSame⟩

/- A call that goes on leaves the membership alone. -/
theorem membership_resume
    (lookup : Lookup)
    (w : World)
    (call : RecipientCall)
    (fails : Bool) :
    (resume lookup w call fails).1.members = w.members ∧
      (resume lookup w call fails).1.changes = w.changes := by
  cases call with
  | fetching org audience since =>
      simp only [resume]
      split <;> exact ⟨rfl, rfl⟩
  | answered org audience since answer asOf =>
      cases answer <;> exact ⟨rfl, rfl⟩
  | returned org since addrs cached => exact ⟨rfl, rfl⟩
  | invalidating org change => exact ⟨rfl, rfl⟩
  | invalidated org => exact ⟨rfl, rfl⟩

theorem dated_resume
    {orgId audience : String}
    {addrs : List String}
    {asOf : Nat}
    (call : RecipientCall)
    (fails : Bool)
    (hDated : Dated lookup w orgId audience addrs asOf) :
    Dated lookup (resume lookup w call fails).1 orgId audience
      addrs asOf := by
  rcases membership_resume lookup w call fails with
    ⟨hMembers, hChanges⟩
  unfold Dated
  rw [hMembers, hChanges]
  exact hDated

/- The lists in the cache after a call went on. -/
theorem stored_resume
    {call : RecipientCall}
    {fails : Bool}
    {orgId audience : String}
    {entry : Entry}
    (hEntry :
      (resume lookup w call fails).1.cache orgId audience =
        some entry) :
    w.cache orgId audience = some entry ∨
      ∃ since,
        call =
          .answered orgId audience since (some entry.addrs)
            entry.asOf := by
  cases call with
  | fetching org aud since =>
      simp only [resume] at hEntry
      split at hEntry <;> exact Or.inl hEntry
  | answered org aud since answer asOf =>
      cases answer with
      | none => exact Or.inl hEntry
      | some addrs =>
          simp only [resume, insertEntry] at hEntry
          split at hEntry
          · rename_i hSame
            rcases hSame with ⟨rfl, rfl⟩
            cases hEntry
            exact Or.inr ⟨since, rfl⟩
          · exact Or.inl hEntry
  | returned org since addrs cached => exact Or.inl hEntry
  | invalidating org change =>
      simp only [resume, invalidateOrg] at hEntry
      split at hEntry
      · cases hEntry
      · exact Or.inl hEntry
  | invalidated org => exact Or.inl hEntry

/- What Clerk answered was asked for just before. -/
theorem answered_resume
    {call : RecipientCall}
    {fails : Bool}
    {orgId audience : String}
    {since asOf : Nat}
    {answer : Option (List String)}
    (hNext :
      (resume lookup w call fails).2 =
        .answered orgId audience since answer asOf) :
    call = .fetching orgId audience since ∧
      ∀ addrs, answer = some addrs →
        Dated lookup w orgId audience addrs asOf := by
  cases call with
  | fetching org aud since' =>
      simp only [resume] at hNext
      split at hNext
      · cases hNext
        exact ⟨rfl, by simp⟩
      · cases hNext
        refine ⟨rfl, fun addrs hAddrs => ?_⟩
        cases hAddrs
        exact ⟨Nat.le_refl _, fun _ => rfl⟩
  | answered org aud since' answer' asOf' =>
      cases answer' <;> cases hNext
  | returned org since' addrs cached => cases hNext
  | invalidating org change => cases hNext
  | invalidated org => cases hNext

theorem cache_begin
    (lookup : Lookup)
    (w : World)
    (what : Start) :
    (begin lookup w what).1.cache = w.cache := by
  cases what with
  | tick elapsed => rfl
  | changeMembers org members => rfl
  | recipientEmails org aud =>
      simp only [begin]
      split
      · rfl
      · split
        · rfl
        · rfl

/- A call does not begin with an answer of Clerk's. -/
theorem begin_ne_answered
    (what : Start)
    (orgId audience : String)
    (since asOf : Nat)
    (answer : Option (List String)) :
    (begin lookup w what).2 ≠
      some (.answered orgId audience since answer asOf) := by
  cases what with
  | tick elapsed => exact nofun
  | changeMembers org members => exact nofun
  | recipientEmails org aud =>
      simp only [begin]
      split
      · exact nofun
      · split
        · exact nofun
        · exact nofun

theorem asked_begin
    {what : Start}
    {orgId audience : String}
    {since : Nat}
    (hCall :
      (begin lookup w what).2 =
        some (.fetching orgId audience since)) :
    knownAudience audience = audience := by
  cases what with
  | tick elapsed => cases hCall
  | changeMembers org members => cases hCall
  | recipientEmails org aud =>
      simp only [begin] at hCall
      split at hCall
      · cases hCall
      · split at hCall
        · cases hCall
        · cases hCall
          exact knownAudience_idem aud

/- A call that goes on does not ask Clerk again. -/
theorem resume_ne_fetching
    (call : RecipientCall)
    (fails : Bool)
    (orgId audience : String)
    (since : Nat) :
    (resume lookup w call fails).2 ≠
      .fetching orgId audience since := by
  cases call with
  | fetching org aud since' =>
      simp only [resume]
      split
      · exact nofun
      · exact nofun
  | answered org aud since' answer asOf =>
      cases answer with
      | none => exact nofun
      | some addrs => exact nofun
  | returned org since' addrs cached => exact nofun
  | invalidating org change => exact nofun
  | invalidated org => exact nofun

theorem allDated_start
    (what : Start)
    (hDated : AllDated lookup c) :
    AllDated lookup (step lookup c (.start what)) := by
  simp only [step, Calls.step, program]
  constructor
  · intro orgId audience entry hEntry
    dsimp only at hEntry
    rw [cache_begin] at hEntry
    exact
      dated_begin what
        (hDated.stored orgId audience entry hEntry)
  · intro orgId audience since answer asOf hCall
    rcases List.mem_append.mp hCall with hOld | hLast
    · rcases hDated.known orgId audience since answer asOf
        hOld with ⟨hKnown, hGiven⟩
      exact
        ⟨hKnown, fun addrs hAddrs =>
          dated_begin what (hGiven addrs hAddrs)⟩
    · exact
        absurd (Option.mem_toList.mp hLast)
          (begin_ne_answered what orgId audience since asOf
            answer)
  · intro orgId audience since hCall
    rcases List.mem_append.mp hCall with hOld | hLast
    · exact hDated.asked orgId audience since hOld
    · exact asked_begin (Option.mem_toList.mp hLast)

theorem allDated_resumed
    {id : Nat}
    {call : RecipientCall}
    (hCall : c.calls[id]? = some call)
    (fails : Bool)
    (hDated : AllDated lookup c) :
    AllDated lookup (step lookup c (.resume id fails)) := by
  have hIn := List.mem_of_getElem? hCall
  simp only [step, Calls.step, hCall]
  constructor
  · intro orgId audience entry hEntry
    apply dated_resume
    rcases stored_resume hEntry with hOld | ⟨since, rfl⟩
    · exact hDated.stored orgId audience entry hOld
    · exact (hDated.known _ _ _ _ _ hIn).2 entry.addrs rfl
  · intro orgId audience since answer asOf hNext
    rcases List.mem_or_eq_of_mem_set hNext with hOld | hSame
    · rcases hDated.known orgId audience since answer asOf
        hOld with ⟨hKnown, hGiven⟩
      exact
        ⟨hKnown, fun addrs hAddrs =>
          dated_resume call fails (hGiven addrs hAddrs)⟩
    · rcases answered_resume hSame.symm with ⟨rfl, hGiven⟩
      exact
        ⟨hDated.asked orgId audience since hIn,
          fun addrs hAddrs =>
            dated_resume _ fails (hGiven addrs hAddrs)⟩
  · intro orgId audience since hNext
    rcases List.mem_or_eq_of_mem_set hNext with hOld | hSame
    · exact hDated.asked orgId audience since hOld
    · exact
        absurd hSame.symm
          (resume_ne_fetching call fails orgId audience since)

theorem allDated_step
    (c : Config)
    (e : Event)
    (hDated : AllDated lookup c) :
    AllDated lookup (step lookup c e) := by
  cases e with
  | start what => exact allDated_start what hDated
  | resume id fails =>
      cases hCall : c.calls[id]? with
      | some call => exact allDated_resumed hCall fails hDated
      | none =>
          simp only [step, Calls.step, hCall]
          exact hDated

/- Every list a run stores is dated. -/
theorem allDated_run
    (members : String → List Json)
    (events : List Event) :
    AllDated lookup
      (Run.exec (step lookup) (fresh members) events) := by
  apply Run.invariant_exec allDated_step
  constructor
  · intro orgId audience entry hEntry
    cases hEntry
  · intro orgId audience since answer asOf hCall
    exact absurd hCall List.not_mem_nil
  · intro orgId audience since hCall
    exact absurd hCall List.not_mem_nil

/- A list that has just been stored is served. -/
theorem lookup_insertEntry
    (w : World)
    (orgId audience : String)
    (addrs : List String)
    (asOf : Nat) :
    lookupCache (insertEntry w orgId audience addrs asOf) orgId
        audience =
      some
        { expiresAt := w.now + cacheTtl
          addrs := addrs
          asOf := asOf } := by
  have hTtl : 0 < cacheTtl := by decide
  have hFuture : w.now < w.now + cacheTtl := by omega
  have hStored :
      (insertEntry w orgId audience addrs asOf).cache orgId
          audience =
        some
          { expiresAt := w.now + cacheTtl
            addrs := addrs
            asOf := asOf } := by
    simp [insertEntry]
  rw [lookupCache, hStored, Option.filter_some]
  exact if_pos (decide_eq_true hFuture)

/-
  A list stored too late is served: the next call for it is
  answered with members from before the change.
-/
theorem late_insert_is_served
    (hClerk : lookup.localAdminEmail = none)
    (hDated : AllDated lookup c)
    {e : Event}
    (hLate : ¬ InsertsCurrent c e) :
    ∃ orgId audience,
      ¬ ListsCurrent
        (step lookup (step lookup c e)
          (.start (.recipientEmails orgId audience))) := by
  unfold InsertsCurrent at hLate
  split at hLate
  · rename_i orgId audience since addrs asOf fails hResumed
    cases e with
    | start what => cases hResumed
    | resume id choice =>
        rcases Option.map_eq_some_iff.mp hResumed with
          ⟨call, hCall, hSame⟩
        cases hSame
        have hKnown :=
          (hDated.known _ _ _ _ _
            (List.mem_of_getElem? hCall)).1
        refine ⟨orgId, audience, fun hCurrent => hLate ?_⟩
        apply hCurrent orgId (c.shared.settled orgId) addrs asOf
        simp only [step, Calls.step, hCall, program, resume,
          begin, hClerk, hKnown, lookup_insertEntry]
        exact List.mem_append_right _ (List.mem_singleton_self _)
  · exact absurd trivial hLate

end Recipients

end SentinelCommand
