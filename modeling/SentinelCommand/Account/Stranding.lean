import SentinelCommand.Account.Deletion

/-
  What deleting accounts does to organizations: when no
  organization is deleted under another member or left with
  members and no admin, and a run in which one is.

  Main declarations:
    * `Account.Change.SparesOthers`
    * `Account.nobody_stranded`
    * `Account.members_stranded`
-/

--------------------
-- Properties of a Deletion
--------------------

namespace SentinelCommand

namespace Account

def hasAdmin
    (memberships : List Membership)
    (orgId : String) : Bool :=
  memberships.any (fun m => m.orgId == orgId && m.admin)

/- A deleted organization had no member but the account. -/
def Change.SparesOthers (change : Change) : Prop :=
  ∀ m ∈ change.before,
    change.deletion.deletedOrg = some m.orgId →
      m.userId = change.deletion.userId

/- Where members are left, so is an admin if there was one. -/
def Change.KeepsAdmin (change : Change) : Prop :=
  ∀ m ∈ change.after,
    hasAdmin change.before m.orgId = true →
      hasAdmin change.after m.orgId = true

instance Change.decidableSparesOthers
    (change : Change) : Decidable change.SparesOthers :=
  inferInstanceAs
    (Decidable
      (∀ m ∈ change.before,
        change.deletion.deletedOrg = some m.orgId →
          m.userId = change.deletion.userId))

instance Change.decidableKeepsAdmin
    (change : Change) : Decidable change.KeepsAdmin :=
  inferInstanceAs
    (Decidable
      (∀ m ∈ change.after,
        hasAdmin change.before m.orgId = true →
          hasAdmin change.after m.orgId = true))

/-
  When an organization is deleted, nobody who joined it since
  its members were read is still a member. When the user is
  deleted, each organization the user is an admin of was on
  the page that was read, with the user on its own page, and
  none of the admins on that page has gone.
-/
def undisturbed : AccountLabel → AccountState → Prop
| .free, _ => True
| .deleteOrganization _ entry, s =>
    ∀ m ∈ s.joins.drop entry.joined,
      m.orgId = entry.org.id → m ∉ s.directory.memberships
| .deleteUser userId plan, s =>
    ∀ m ∈ s.directory.memberships,
      m.userId = userId → m.admin = true →
        ∃ entry ∈ plan.deleted ++ plan.left,
          entry.org.id = m.orgId ∧
            (userId, true) ∈ entry.page ∧
              ∀ seen ∈ entry.page, seen.2 = true →
                ⟨seen.1, m.orgId, true⟩ ∈
                  s.directory.memberships

instance decidableUndisturbed :
    (label : AccountLabel) → (s : AccountState) →
      Decidable (undisturbed label s)
| .free, _ => isTrue trivial
| .deleteOrganization _ entry, s =>
    inferInstanceAs
      (Decidable
        (∀ m ∈ s.joins.drop entry.joined,
          m.orgId = entry.org.id →
            m ∉ s.directory.memberships))
| .deleteUser userId plan, s =>
    inferInstanceAs
      (Decidable
        (∀ m ∈ s.directory.memberships,
          m.userId = userId → m.admin = true →
            ∃ entry ∈ plan.deleted ++ plan.left,
              entry.org.id = m.orgId ∧
                (userId, true) ∈ entry.page ∧
                  ∀ seen ∈ entry.page, seen.2 = true →
                    ⟨seen.1, m.orgId, true⟩ ∈
                      s.directory.memberships))

theorem hasAdmin_of_mem
    {memberships : List Membership}
    {m : Membership}
    (hMem : m ∈ memberships)
    (hAdmin : m.admin = true) :
    hasAdmin memberships m.orgId = true := by
  apply List.any_eq_true.mpr
  refine ⟨m, hMem, ?_⟩
  rw [Bool.and_eq_true]
  exact ⟨beq_self_eq_true _, hAdmin⟩

theorem mem_of_hasAdmin
    {memberships : List Membership}
    {orgId : String}
    (hAdmin : hasAdmin memberships orgId = true) :
    ∃ m ∈ memberships, m.orgId = orgId ∧ m.admin = true := by
  rcases List.any_eq_true.mp hAdmin with ⟨m, hMem, hBoth⟩
  rw [Bool.and_eq_true] at hBoth
  exact ⟨m, hMem, eq_of_beq hBoth.1, hBoth.2⟩

--------------------
-- Classification
--------------------

/- Nobody else is on the page. -/
theorem page_of_classify_deleted
    {userId : String}
    {page : List (String × Bool)}
    (hDeleted : classify userId page = .deleted) :
    ∀ m ∈ page, m.1 = userId := by
  intro m hMem
  unfold classify at hDeleted
  dsimp only at hDeleted
  split at hDeleted
  · rename_i hNone
    by_contra hOther
    have hFound :
        m ∈ page.filter (fun m => m.1 != userId) :=
      List.mem_filter.mpr ⟨hMem, bne_iff_ne.mpr hOther⟩
    rw [List.isEmpty_iff.mp hNone] at hFound
    exact List.not_mem_nil hFound
  · split at hDeleted
    · contradiction
    · contradiction

/- An admin leaves only where the page shows another one. -/
theorem admin_of_classify_left
    {userId : String}
    {page : List (String × Bool)}
    (hLeft : classify userId page = .left)
    (hSelf : (userId, true) ∈ page) :
    ∃ other, other ≠ userId ∧ (other, true) ∈ page := by
  have hAdmin :
      page.any (fun m => m.1 == userId && m.2) = true := by
    apply List.any_eq_true.mpr
    refine ⟨_, hSelf, ?_⟩
    rw [Bool.and_eq_true]
    exact ⟨beq_self_eq_true _, rfl⟩
  unfold classify at hLeft
  dsimp only at hLeft
  rw [hAdmin, Bool.true_and] at hLeft
  split at hLeft
  · contradiction
  · split at hLeft
    · contradiction
    · rename_i hOthers
      rw [Bool.not_eq_true', Bool.not_eq_false] at hOthers
      rcases List.any_eq_true.mp hOthers with
        ⟨m, hMem, hRole⟩
      rcases List.mem_filter.mp hMem with ⟨hPage, hOther⟩
      refine ⟨m.1, bne_iff_ne.mp hOther, ?_⟩
      rw [← hRole]
      exact hPage

/- Two memberships of one user are not in one organization. -/
theorem length_of_page_alone
    {userId orgId : String}
    {memberships : List Membership}
    (hUnique : (memberships.map Membership.key).Nodup)
    (hOrg : ∀ m ∈ memberships, m.orgId = orgId)
    (hUser : ∀ m ∈ memberships, m.userId = userId) :
    memberships.length ≤ 1 := by
  cases memberships with
  | nil => exact Nat.zero_le 1
  | cons first rest =>
      cases rest with
      | nil => exact Nat.le_refl 1
      | cons second rest =>
          have hSame : first.key = second.key := by
            unfold Membership.key
            rw [hOrg first (by simp), hOrg second (by simp),
              hUser first (by simp), hUser second (by simp)]
          rw [List.map_cons, List.map_cons, List.nodup_cons,
            hSame] at hUnique
          exact absurd List.mem_cons_self hUnique.1

/- A page that shows one user alone shows every member. -/
theorem users_of_page_alone
    {clerk : Clerk}
    {userId orgId : String}
    {rows : List Membership}
    (hUnique : (rows.map Membership.key).Nodup)
    (hOrg : ∀ m ∈ rows, m.orgId = orgId)
    (hAlone : ∀ m ∈ clerk.page rows, m.userId = userId)
    (m : Membership)
    (hMem : m ∈ rows) :
    m.userId = userId := by
  have hPerm := clerk.perm rows
  have hPageUnique :
      ((clerk.page rows).map Membership.key).Nodup := by
    have hOrdered :=
      (hPerm.map Membership.key).nodup_iff.mpr hUnique
    exact hOrdered.sublist ((List.take_sublist _ _).map _)
  have hPageOrg : ∀ m ∈ clerk.page rows, m.orgId = orgId := by
    intro other hOther
    exact hOrg other
      (hPerm.mem_iff.mp (List.mem_of_mem_take hOther))
  have hShort :=
    length_of_page_alone hPageUnique hPageOrg hAlone
  apply hAlone m
  unfold Clerk.page at hShort ⊢
  rw [List.length_take] at hShort
  rw [List.take_of_length_le (by omega)]
  exact hPerm.mem_iff.mpr hMem

theorem members_of_page_alone
    {clerk : Clerk}
    {directory : Directory}
    {userId orgId : String}
    {page : List (String × Bool)}
    (hPage : clerk.members directory orgId = some page)
    (hAlone : ∀ m ∈ page, m.1 = userId)
    (m : Membership)
    (hMem : m ∈ directory.memberships)
    (hOrg : m.orgId = orgId) :
    m.userId = userId := by
  unfold Clerk.members at hPage
  split at hPage
  · contradiction
  · have hRows := Option.some.inj hPage
    have hUnique :
        ((directory.memberships.filter
          (fun m => m.orgId == orgId)).map
            Membership.key).Nodup :=
      directory.unique.sublist (List.filter_sublist.map _)
    apply users_of_page_alone hUnique
    · intro other hOther
      exact eq_of_beq (List.mem_filter.mp hOther).2
    · intro other hOther
      apply hAlone (other.userId, other.admin)
      rw [← hRows]
      exact List.mem_map_of_mem hOther
    · exact List.mem_filter.mpr ⟨hMem, beq_iff_eq.mpr hOrg⟩

--------------------
-- Guarantees
--------------------

open Interleaving

/-
  Members are only added by joining, which is noted, and what
  is deleted stays deleted.
-/
structure AccountGuar (s s' : AccountState) : Prop where
  joins : s.joins <+: s'.joins
  members :
    ∀ m ∈ s'.directory.memberships,
      m ∈ s.directory.memberships ∨
        m ∈ s'.joins.drop s.joins.length
  deletedOrgs :
    ∀ orgId ∈ s.directory.deletedOrgs,
      orgId ∈ s'.directory.deletedOrgs

structure AccountInv (s : AccountState) : Prop where
  changes :
    ∀ change ∈ s.changes,
      change.SparesOthers ∧ change.KeepsAdmin

theorem accountGuar_of_same
    {s s' : AccountState}
    (hDirectory : s'.directory = s.directory)
    (hJoins : s'.joins = s.joins) :
    AccountGuar s s' where
  joins := ⟨[], (List.append_nil _).trans hJoins.symm⟩
  members := by
    intro m hMem
    rw [hDirectory] at hMem
    exact Or.inl hMem
  deletedOrgs := by
    intro orgId hDeleted
    rw [hDirectory]
    exact hDeleted

theorem accountGuar_deleteUser
    (s : AccountState)
    (userId : String) :
    AccountGuar s (s.deleteUser userId) := by
  unfold AccountState.deleteUser
  split
  · exact accountGuar_of_same rfl rfl
  · refine ⟨⟨[], List.append_nil _⟩, ?_, ?_⟩
    · intro m hMem
      exact Or.inl (List.mem_filter.mp hMem).1
    · exact fun _ hDeleted => hDeleted

theorem accountGuar_deleteOrganization
    (s : AccountState)
    (userId orgId : String) :
    AccountGuar s (s.deleteOrganization userId orgId) := by
  unfold AccountState.deleteOrganization
  split
  · exact accountGuar_of_same rfl rfl
  · refine ⟨⟨[], List.append_nil _⟩, ?_, ?_⟩
    · intro m hMem
      exact Or.inl (List.mem_filter.mp hMem).1
    · exact fun _ hDeleted => List.mem_cons_of_mem _ hDeleted

theorem accountGuar_join
    (s : AccountState)
    (m : Membership) :
    AccountGuar s (s.join m) := by
  unfold AccountState.join
  split
  · refine ⟨⟨[m], rfl⟩, ?_, fun _ hDeleted => hDeleted⟩
    intro other hMem
    rcases List.mem_append.mp hMem with hOld | hNew
    · exact Or.inl hOld
    · right
      dsimp only
      rw [List.drop_left]
      exact hNew
  · exact accountGuar_of_same rfl rfl

/- The same for every request. -/
abbrev accountGuar
    (_ : Nat) : AccountState → AccountState → Prop :=
  AccountGuar

/- Nobody but the user, or who joined since, is a member. -/
structure Alone
    (userId : String)
    (entry : Classified)
    (s : AccountState) : Prop where
  past : entry.joined ≤ s.joins.length
  members :
    ∀ m ∈ s.directory.memberships, m.orgId = entry.org.id →
      m.userId = userId ∨ m ∈ s.joins.drop entry.joined

theorem mem_drop_of_longer
    {joins joins' : List Membership}
    {seen : Nat}
    {m : Membership}
    (hLonger : joins <+: joins')
    (hMem : m ∈ joins.drop seen) :
    m ∈ joins'.drop seen := by
  rcases hLonger with ⟨more, rfl⟩
  rw [List.drop_append]
  exact List.mem_append_left _ hMem

theorem mem_drop_of_le
    {joins : List Membership}
    {seen later : Nat}
    {m : Membership}
    (hLater : seen ≤ later)
    (hMem : m ∈ joins.drop later) :
    m ∈ joins.drop seen :=
  (List.drop_sublist_drop_left joins hLater).subset hMem

theorem alone_of_guar
    {userId : String}
    {entry : Classified}
    {s s' : AccountState}
    (hGuar : AccountGuar s s')
    (hAlone : Alone userId entry s) :
    Alone userId entry s' := by
  constructor
  · exact Nat.le_trans hAlone.past hGuar.joins.length_le
  · intro m hMem hOrg
    rcases hGuar.members m hMem with hOld | hNew
    · rcases hAlone.members m hOld hOrg with hUser | hJoined
      · exact Or.inl hUser
      · exact Or.inr
          (mem_drop_of_longer hGuar.joins hJoined)
    · exact Or.inr (mem_drop_of_le hAlone.past hNew)

theorem alone_of_rely
    {id : Nat}
    {userId : String}
    {entry : Classified}
    {s s' : AccountState}
    (hRely : Rely accountGuar id s s')
    (hAlone : Alone userId entry s) :
    Alone userId entry s' := by
  apply rely_stable (P := Alone userId entry) ?_ hRely hAlone
  intro _ before after _ hGuar hBefore
  exact alone_of_guar hGuar hBefore

theorem deletedOrgs_of_rely
    {id : Nat}
    {orgId : String}
    {s s' : AccountState}
    (hRely : Rely accountGuar id s s')
    (hDeleted : orgId ∈ s.directory.deletedOrgs) :
    orgId ∈ s'.directory.deletedOrgs := by
  apply rely_stable
    (P := fun now => orgId ∈ now.directory.deletedOrgs) ?_
    hRely hDeleted
  intro _ before after _ hGuar hBefore
  exact hGuar.deletedOrgs orgId hBefore

--------------------
-- Deletions
--------------------

/- An organization nobody else joined goes with its member. -/
theorem accountInv_deleteOrganization
    {s : AccountState}
    {userId : String}
    {entry : Classified}
    (hInv : AccountInv s)
    (hAlone : Alone userId entry s)
    (hOk :
      undisturbed (.deleteOrganization userId entry) s) :
    AccountInv (s.deleteOrganization userId entry.org.id) := by
  unfold AccountState.deleteOrganization
  split
  · exact hInv
  · constructor
    intro change hChange
    rcases List.mem_append.mp hChange with hOld | hNew
    · exact hInv.changes change hOld
    · rw [List.mem_singleton.mp hNew]
      constructor
      · intro m hMem hDeletes
        have hOrg : m.orgId = entry.org.id :=
          (Option.some.inj hDeletes).symm
        rcases hAlone.members m hMem hOrg with hUser | hJoined
        · exact hUser
        · exact absurd hMem (hOk m hJoined hOrg)
      · intro m hMem hAdmin
        rcases mem_of_hasAdmin hAdmin with
          ⟨admin, hBefore, hOrg, hRole⟩
        rw [← hOrg]
        apply hasAdmin_of_mem _ hRole
        apply List.mem_filter.mpr
        refine ⟨hBefore, ?_⟩
        rw [hOrg]
        exact (List.mem_filter.mp hMem).2

/- Where the user was an admin, another one stays. -/
theorem accountInv_deleteUser
    {s : AccountState}
    {userId : String}
    {plan : Plan}
    (hInv : AccountInv s)
    (hDeleted :
      ∀ entry ∈ plan.deleted,
        entry.org.id ∈ s.directory.deletedOrgs)
    (hLeft :
      ∀ entry ∈ plan.left,
        classify userId entry.page = .left)
    (hOk : undisturbed (.deleteUser userId plan) s) :
    AccountInv (s.deleteUser userId) := by
  unfold AccountState.deleteUser
  split
  · exact hInv
  · constructor
    intro change hChange
    rcases List.mem_append.mp hChange with hOld | hNew
    · exact hInv.changes change hOld
    · rw [List.mem_singleton.mp hNew]
      constructor
      · intro m _ hDeletes
        contradiction
      · intro m hMem hAdmin
        rcases mem_of_hasAdmin hAdmin with
          ⟨admin, hBefore, hOrg, hRole⟩
        rw [← hOrg]
        by_cases hSelf : admin.userId = userId
        · rcases hOk admin hBefore hSelf hRole with
            ⟨entry, hEntry, hEntryOrg, hSeen, hThere⟩
          rcases List.mem_append.mp hEntry with hGone | hStays
          · have hLive := s.directory.live admin hBefore
            rw [← hEntryOrg] at hLive
            exact absurd (hDeleted entry hGone) hLive.2
          · rcases admin_of_classify_left (hLeft entry hStays)
              hSeen with ⟨other, hOther, hPage⟩
            have hStill := hThere (other, true) hPage rfl
            exact hasAdmin_of_mem
              (m := ⟨other, admin.orgId, true⟩)
              (List.mem_filter.mpr
                ⟨hStill, bne_iff_ne.mpr hOther⟩) rfl
        · exact hasAdmin_of_mem
            (List.mem_filter.mpr
              ⟨hBefore, bne_iff_ne.mpr hSelf⟩) hRole

variable {α : Type} {id : Nat} {s : AccountState}

abbrev AccountValid
    (id : Nat) : AccountState → AccountThread → Prop :=
  Valid AccountInv accountGuar undisturbed id

theorem valid_fetch
    {fate : Fate}
    {f : AccountState → Option α}
    {next : Option α → AccountThread}
    (hNone : ∀ now, AccountValid id now (next none))
    (hSome :
      ∀ now answer, Rely accountGuar id s now →
        f now = some answer →
          AccountValid id now (next (some answer))) :
    AccountValid id s (fetch fate f next) := by
  apply valid_atomic
  intro now hRely hInv _
  refine ⟨hInv, accountGuar_of_same rfl rfl, ?_⟩
  dsimp only
  split
  · cases hAnswer : f now with
    | none => exact hNone now
    | some answer => exact hSome now answer hRely hAnswer
  · exact hNone now

theorem valid_respond
    (answer : Except AccountError AccountAnswer) :
    AccountValid id s (respond id answer) := by
  apply valid_atomic
  intro now _ hInv _
  exact ⟨⟨hInv.changes⟩, accountGuar_of_same rfl rfl,
    Valid.done _⟩

theorem valid_send
    {fate : Fate}
    {label : AccountLabel}
    {effect : AccountState → AccountState}
    {next : Bool → AccountThread}
    (hEffect :
      ∀ now, Rely accountGuar id s now → AccountInv now →
        undisturbed label now →
          AccountInv (effect now) ∧
            AccountGuar now (effect now))
    (hLost : ∀ now, AccountValid id now (next false))
    (hDone :
      ∀ now, Rely accountGuar id s now →
        AccountValid id (effect now) (next true)) :
    AccountValid id s (send fate label effect next) := by
  unfold send
  cases fate with
  | failed =>
      apply valid_atomic
      intro now _ hInv _
      exact ⟨hInv, accountGuar_of_same rfl rfl, hLost now⟩
  | done =>
      apply valid_atomic
      intro now hRely hInv hOk
      rcases hEffect now hRely hInv hOk with ⟨hKept, hGuar⟩
      exact ⟨hKept, hGuar, hDone now hRely⟩
  | unanswered =>
      apply valid_atomic
      intro now hRely hInv hOk
      rcases hEffect now hRely hInv hOk with ⟨hKept, hGuar⟩
      exact ⟨hKept, hGuar, hLost _⟩

--------------------
-- Requests
--------------------

variable {id : Nat} {s : AccountState}

/- A plan, with what its entries are based on. -/
structure Prepared
    (userId : String)
    (plan : Plan)
    (s : AccountState) : Prop where
  deleted : ∀ entry ∈ plan.deleted, Alone userId entry s
  left :
    ∀ entry ∈ plan.left, classify userId entry.page = .left

theorem prepared_empty
    (userId : String)
    (s : AccountState) :
    Prepared userId Plan.empty s where
  deleted := fun _ hEntry => absurd hEntry List.not_mem_nil
  left := fun _ hEntry => absurd hEntry List.not_mem_nil

theorem prepared_of_rely
    {userId : String}
    {plan : Plan}
    {s' : AccountState}
    (hRely : Rely accountGuar id s s')
    (hPrepared : Prepared userId plan s) :
    Prepared userId plan s' where
  deleted := fun entry hEntry =>
    alone_of_rely hRely (hPrepared.deleted entry hEntry)
  left := hPrepared.left

theorem prepared_add
    {userId : String}
    {plan : Plan}
    {entry : Classified}
    (hPrepared : Prepared userId plan s)
    (hNew :
      classify userId entry.page = .deleted →
        Alone userId entry s) :
    Prepared userId (plan.add userId entry) s := by
  unfold Plan.add
  split
  · rename_i hDeleted
    refine ⟨?_, hPrepared.left⟩
    intro other hOther
    rcases List.mem_append.mp hOther with hOld | hLast
    · exact hPrepared.deleted other hOld
    · rw [List.mem_singleton.mp hLast]
      exact hNew hDeleted
  · rename_i hLeft
    refine ⟨hPrepared.deleted, ?_⟩
    intro other hOther
    rcases List.mem_append.mp hOther with hOld | hLast
    · exact hPrepared.left other hOld
    · rw [List.mem_singleton.mp hLast]
      exact hLeft
  · exact ⟨hPrepared.deleted, hPrepared.left⟩

theorem valid_classifyAll
    {clerk : Clerk}
    {fates : Fates}
    {userId : String}
    {next : Option Plan → AccountThread}
    (hNone : ∀ now, AccountValid id now (next none))
    (hSome :
      ∀ now plan, Prepared userId plan now →
        AccountValid id now (next (some plan)))
    (orgIds : List String)
    (plan : Plan)
    (hPrepared : Prepared userId plan s) :
    AccountValid id s
      (classifyAll clerk fates userId next orgIds plan) := by
  induction orgIds generalizing plan s with
  | nil => exact hSome s plan hPrepared
  | cons orgId rest ih =>
      apply valid_fetch
      · exact hNone
      · rintro now ⟨page, joined⟩ hRely hAnswer
        rcases Option.map_eq_some_iff.mp hAnswer with
          ⟨seen, hPage, hBoth⟩
        cases hBoth
        apply ih
        apply prepared_add (prepared_of_rely hRely hPrepared)
        intro hDeleted
        refine ⟨Nat.le_refl _, ?_⟩
        intro m hMem hOrg
        left
        exact members_of_page_alone hPage
          (page_of_classify_deleted hDeleted) m hMem hOrg

theorem valid_plan
    {clerk : Clerk}
    {fates : Fates}
    {userId : String}
    {next : Option Plan → AccountThread}
    (hNone : ∀ now, AccountValid id now (next none))
    (hSome :
      ∀ now plan, Prepared userId plan now →
        AccountValid id now (next (some plan))) :
    AccountValid id s
      (Account.plan clerk fates userId next) := by
  apply valid_fetch
  · exact hNone
  · intro now orgIds _ _
    exact valid_classifyAll hNone hSome orgIds Plan.empty
      (prepared_empty userId now)

theorem mem_deletedOrgs
    (s : AccountState)
    (userId orgId : String) :
    orgId ∈
      (s.deleteOrganization userId
        orgId).directory.deletedOrgs := by
  unfold AccountState.deleteOrganization
  split
  · rename_i hDeleted
    exact hDeleted
  · exact List.mem_cons_self

/- Each organization is gone when the next one is deleted. -/
theorem valid_deleteOrganizations
    {fates : Fates}
    {userId : String}
    {next : Option AccountError → AccountThread}
    (todo gone : List Classified)
    (hFailed :
      ∀ now err, AccountValid id now (next (some err)))
    (hNext :
      ∀ now,
        (∀ entry ∈ gone ++ todo,
          entry.org.id ∈ now.directory.deletedOrgs) →
            AccountValid id now (next none))
    (hAlone : ∀ entry ∈ todo, Alone userId entry s)
    (hGone :
      ∀ entry ∈ gone,
        entry.org.id ∈ s.directory.deletedOrgs) :
    AccountValid id s
      (deleteOrganizations fates userId next todo) := by
  induction todo generalizing gone s with
  | nil =>
      apply hNext
      rw [List.append_nil]
      exact hGone
  | cons entry rest ih =>
      apply valid_send
      · intro now hRely hInv hOk
        refine ⟨?_, accountGuar_deleteOrganization _ _ _⟩
        exact accountInv_deleteOrganization hInv
          (alone_of_rely hRely
            (hAlone entry List.mem_cons_self)) hOk
      · exact fun now => hFailed now .clerkFailed
      · intro now hRely
        split
        · exact hFailed _ .clerkFailed
        · split
          · exact hFailed _ .eraseFailed
          · have hGuar :=
              accountGuar_deleteOrganization now userId
                entry.org.id
            apply ih (gone ++ [entry])
            · intro later hLater
              apply hNext
              rw [List.append_assoc] at hLater
              exact hLater
            · intro other hOther
              exact alone_of_guar hGuar
                (alone_of_rely hRely
                  (hAlone other
                    (List.mem_cons_of_mem entry hOther)))
            · intro other hOther
              rcases List.mem_append.mp hOther with hOld | hLast
              · exact hGuar.deletedOrgs _
                  (deletedOrgs_of_rely hRely
                    (hGone other hOld))
              · rw [List.mem_singleton.mp hLast]
                exact mem_deletedOrgs now userId entry.org.id

theorem valid_deleteUser
    {fates : Fates}
    {userId : String}
    {plan : Plan}
    (hDeleted :
      ∀ entry ∈ plan.deleted,
        entry.org.id ∈ s.directory.deletedOrgs)
    (hLeft :
      ∀ entry ∈ plan.left,
        classify userId entry.page = .left) :
    AccountValid id s
      (deleteUser fates userId plan id) := by
  apply valid_send
  · intro now hRely hInv hOk
    refine ⟨?_, accountGuar_deleteUser _ _⟩
    exact accountInv_deleteUser hInv
      (fun entry hEntry =>
        deletedOrgs_of_rely hRely (hDeleted entry hEntry))
      hLeft hOk
  · exact fun _ => valid_respond _
  · intro now _
    split
    · exact valid_respond _
    · split
      · exact valid_respond _
      · exact valid_respond _

theorem valid_deleteAccount
    {clerk : Clerk}
    {fates : Fates}
    {userId : String}
    {confirm : Option String} :
    AccountValid id s
      (deleteAccount clerk fates userId confirm id) := by
  unfold deleteAccount
  split
  · exact valid_respond _
  · apply valid_plan
    · exact fun _ => valid_respond _
    · intro planned plan hPrepared
      dsimp only
      split
      · exact valid_respond _
      · apply valid_fetch
        · exact fun _ => valid_respond _
        · intro now _ hRely _
          apply valid_deleteOrganizations plan.deleted []
          · exact fun _ _ => valid_respond _
          · intro later hGone
            exact valid_deleteUser hGone hPrepared.left
          · intro entry hEntry
            exact alone_of_rely hRely
              (hPrepared.deleted entry hEntry)
          · exact fun _ hEntry =>
              absurd hEntry List.not_mem_nil

theorem valid_startAccount
    (clerk : Clerk)
    (task : AccountTask)
    (id : Nat)
    (s : AccountState) :
    AccountValid id s (startAccount clerk task id) := by
  cases task with
  | delete fates userId confirm => exact valid_deleteAccount
  | preview fates userId =>
      unfold startAccount deletionPreview
      apply valid_plan
      · exact fun _ => valid_respond _
      · exact fun _ _ _ => valid_respond _
  | join m =>
      unfold startAccount
      apply valid_atomic
      intro now _ hInv _
      refine ⟨⟨?_⟩, accountGuar_join now m, Valid.done _⟩
      dsimp only
      unfold AccountState.join
      split
      · exact hInv.changes
      · exact hInv.changes

/-
  Where deletions are undisturbed, no organization is deleted
  under another member or left with members and no admin.
-/
theorem nobody_stranded
    (clerk : Clerk)
    (directory : Directory)
    (events : List (Event AccountTask))
    (hMeets :
      Run.Meets (step (startAccount clerk))
        (EventOk undisturbed)
        (initial (AccountState.start directory)) events) :
    ∀ change ∈ (accountsAfter clerk directory events).changes,
      change.SparesOthers ∧ change.KeepsAdmin := by
  have hStart : AccountInv (AccountState.start directory) :=
    ⟨fun _ hChange => absurd hChange List.not_mem_nil⟩
  have hInv :=
    sound (fun task id s _ => valid_startAccount clerk task id s)
      hStart hMeets
  exact hInv.changes

/- Lists in the order they are kept in. -/
def plainClerk : Clerk where
  order := fun memberships => memberships
  perm := fun memberships => List.Perm.refl memberships
  orgName := fun _ => "Acme"

/- Two admins and a member. -/
def threeMembers : Directory where
  memberships :=
    [⟨"user_a", "org_1", true⟩, ⟨"user_b", "org_1", true⟩,
      ⟨"user_c", "org_1", false⟩]
  deletedUsers := []
  deletedOrgs := []
  unique := by decide
  live := by
    intro m _
    exact ⟨List.not_mem_nil, List.not_mem_nil⟩

def deleteTask (userId : String) : AccountTask :=
  .delete Fates.allDone userId (some "delete my account")

/- One admin leaves; the other is then refused. -/
def inTurn : List (Event AccountTask) :=
  List.flatten
    [[.spawn (deleteTask "user_a"),
        .spawn (deleteTask "user_b")],
      List.replicate 5 (.run 0), List.replicate 5 (.run 1)]

theorem nobody_stranded_in_turn :
    (accountsAfter plainClerk threeMembers
        inTurn).changes.length = 1 ∧
      ∀ change ∈
          (accountsAfter plainClerk threeMembers
            inTurn).changes,
        change.SparesOthers ∧ change.KeepsAdmin :=
  ⟨by decide +kernel,
    nobody_stranded plainClerk threeMembers inTurn
      (by decide +kernel)⟩

/- Both admins read the members before either leaves. -/
def together : List (Event AccountTask) :=
  List.flatten
    [[.spawn (deleteTask "user_a"),
        .spawn (deleteTask "user_b")],
      List.replicate 3 (.run 0), List.replicate 3 (.run 1),
      [.run 0, .run 1]]

theorem members_stranded :
    ¬ ∀ change ∈
      (accountsAfter plainClerk threeMembers
        together).changes,
      change.SparesOthers ∧ change.KeepsAdmin := by
  decide +kernel

end Account

end SentinelCommand
