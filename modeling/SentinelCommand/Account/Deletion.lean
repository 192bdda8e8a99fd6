import Mathlib.Data.List.Nodup
import SentinelCommand.Lib.Interleaving
import SentinelCommand.Text

/-
  Deleting an account: the memberships Clerk keeps, the plan
  `account.rs` makes of one user's organizations, and the
  requests as threads of Clerk calls.

  A call is one action. It may fail before it does anything,
  or be done and its answer lost.

  Key definitions include:
    * `Account.Directory`
    * `Account.classify`, `Account.Plan`
    * `Account.plan`
-/

--------------------
-- Memberships
--------------------

namespace SentinelCommand

namespace Account

structure Membership where
  userId : String
  orgId : String
  admin : Bool
  deriving DecidableEq, Repr

def Membership.key (m : Membership) : String × String :=
  (m.userId, m.orgId)

/-
  A user is a member of an organization at most once, and
  nothing that was deleted has members or memberships.
-/
structure Directory where
  memberships : List Membership
  deletedUsers : List String
  deletedOrgs : List String
  unique : (memberships.map Membership.key).Nodup
  live :
    ∀ m ∈ memberships,
      m.userId ∉ deletedUsers ∧ m.orgId ∉ deletedOrgs

/- Deleting a user removes all of the user's memberships. -/
def Directory.deleteUser
    (directory : Directory)
    (userId : String) : Directory where
  memberships :=
    directory.memberships.filter (fun m => m.userId != userId)
  deletedUsers := userId :: directory.deletedUsers
  deletedOrgs := directory.deletedOrgs
  unique :=
    directory.unique.sublist (List.filter_sublist.map _)
  live := by
    intro m hMem
    rcases List.mem_filter.mp hMem with ⟨hOld, hOther⟩
    have hLive := directory.live m hOld
    refine ⟨?_, hLive.2⟩
    intro hDeleted
    rcases List.mem_cons.mp hDeleted with hUser | hUser
    · exact bne_iff_ne.mp hOther hUser
    · exact hLive.1 hUser

def Directory.deleteOrganization
    (directory : Directory)
    (orgId : String) : Directory where
  memberships :=
    directory.memberships.filter (fun m => m.orgId != orgId)
  deletedUsers := directory.deletedUsers
  deletedOrgs := orgId :: directory.deletedOrgs
  unique :=
    directory.unique.sublist (List.filter_sublist.map _)
  live := by
    intro m hMem
    rcases List.mem_filter.mp hMem with ⟨hOld, hOther⟩
    have hLive := directory.live m hOld
    refine ⟨hLive.1, ?_⟩
    intro hDeleted
    rcases List.mem_cons.mp hDeleted with hOrg | hOrg
    · exact bne_iff_ne.mp hOther hOrg
    · exact hLive.2 hOrg

/- Whether Clerk accepts a new membership. -/
structure Directory.Admits
    (directory : Directory)
    (m : Membership) : Prop where
  user : m.userId ∉ directory.deletedUsers
  org : m.orgId ∉ directory.deletedOrgs
  new : m.key ∉ directory.memberships.map Membership.key

instance Directory.decidableAdmits
    (directory : Directory)
    (m : Membership) : Decidable (directory.Admits m) :=
  decidable_of_iff
    (m.userId ∉ directory.deletedUsers ∧
      m.orgId ∉ directory.deletedOrgs ∧
        m.key ∉ directory.memberships.map Membership.key)
    ⟨fun h => ⟨h.1, h.2.1, h.2.2⟩,
      fun h => ⟨h.user, h.org, h.new⟩⟩

def Directory.join
    (directory : Directory)
    (m : Membership)
    (hAdmits : directory.Admits m) : Directory where
  memberships := directory.memberships ++ [m]
  deletedUsers := directory.deletedUsers
  deletedOrgs := directory.deletedOrgs
  unique := by
    rw [List.map_append, List.nodup_append]
    refine ⟨directory.unique, List.nodup_singleton _, ?_⟩
    intro key hOld other hNew hSame
    rw [List.map_singleton, List.mem_singleton] at hNew
    rw [hSame, hNew] at hOld
    exact hAdmits.new hOld
  live := by
    intro other hMem
    rcases List.mem_append.mp hMem with hOld | hNew
    · exact directory.live other hOld
    · rw [List.mem_singleton.mp hNew]
      exact ⟨hAdmits.user, hAdmits.org⟩

--------------------
-- Plans
--------------------

/- The order of Clerk's lists, and the names it answers. -/
structure Clerk where
  order : List Membership → List Membership
  perm : ∀ memberships, (order memberships).Perm memberships
  orgName : String → String

/- `limit=100`, and no second page. -/
def Clerk.page
    (clerk : Clerk)
    (memberships : List Membership) : List Membership :=
  (clerk.order memberships).take 100

/- Nothing is answered about a user who is gone. -/
def Clerk.userOrganizations
    (clerk : Clerk)
    (directory : Directory)
    (userId : String) : Option (List String) :=
  if userId ∈ directory.deletedUsers then
    none
  else
    some
      ((clerk.page
        (directory.memberships.filter
          (fun m => m.userId == userId))).map
            Membership.orgId)

def Clerk.members
    (clerk : Clerk)
    (directory : Directory)
    (orgId : String) : Option (List (String × Bool)) :=
  if orgId ∈ directory.deletedOrgs then
    none
  else
    some
      ((clerk.page
        (directory.memberships.filter
          (fun m => m.orgId == orgId))).map
            (fun m => (m.userId, m.admin)))

inductive Outcome where
  | deleted
  | left
  | blocking
  deriving DecidableEq, Repr

/- One organization's fate, from its members. -/
def classify
    (userId : String)
    (members : List (String × Bool)) : Outcome :=
  let isAdmin := members.any (fun m => m.1 == userId && m.2)
  let others := members.filter (fun m => m.1 != userId)
  if others.isEmpty then
    .deleted
  else if isAdmin && !others.any (fun m => m.2) then
    .blocking
  else
    .left

structure Org where
  id : String
  name : String
  deriving DecidableEq, Repr

/-
  An organization of a plan, with the members it was
  classified by and how many had joined anything by then.
-/
structure Classified where
  org : Org
  page : List (String × Bool)
  joined : Nat
  deriving DecidableEq, Repr

structure Plan where
  deleted : List Classified
  left : List Classified
  blocking : List Classified
  deriving DecidableEq, Repr

def Plan.empty : Plan :=
  ⟨[], [], []⟩

def Plan.add
    (plan : Plan)
    (userId : String)
    (entry : Classified) : Plan :=
  match classify userId entry.page with
  | .deleted =>
      { plan with deleted := plan.deleted ++ [entry] }
  | .left => { plan with left := plan.left ++ [entry] }
  | .blocking =>
      { plan with blocking := plan.blocking ++ [entry] }

--------------------
-- States
--------------------

open Interleaving

inductive AccountError where
  | unconfirmed
  | lastAdmin (organizations : List Org)
  | clerkFailed
  | eraseFailed
  deriving DecidableEq, Repr

inductive AccountAnswer where
  | preview (plan : Plan)
  | deleted (organizations : Nat)
  deriving DecidableEq, Repr

/- What a request deleted at Clerk. -/
inductive Deletion where
  | user (userId : String)
  | organization (userId orgId : String)
  deriving DecidableEq, Repr

def Deletion.userId : Deletion → String
| .user userId => userId
| .organization userId _ => userId

def Deletion.deletedOrg : Deletion → Option String
| .user _ => none
| .organization _ orgId => some orgId

/- The memberships around a deletion. -/
structure Change where
  deletion : Deletion
  before : List Membership
  after : List Membership
  deriving DecidableEq, Repr

/- The notes are every membership added and every deletion. -/
structure AccountState where
  directory : Directory
  joins : List Membership
  changes : List Change
  answers : List (Nat × Except AccountError AccountAnswer)

def AccountState.start
    (directory : Directory) : AccountState where
  directory := directory
  joins := []
  changes := []
  answers := []

/- A deletion, with what the request had seen. -/
inductive AccountLabel where
  | free
  | deleteOrganization (userId : String) (entry : Classified)
  | deleteUser (userId : String) (plan : Plan)

abbrev AccountThread : Type :=
  Thread AccountState AccountLabel

/- How a call ends. -/
inductive Fate where
  | done
  | failed
  | unanswered
  deriving DecidableEq, Repr

/- How the calls and the erasures of a request end. -/
structure Fates where
  organizations : Fate
  members : String → Fate
  emails : Fate
  deleteOrganization : String → Fate
  eraseOrg : String → Bool
  deleteUser : Fate
  eraseUserData : Bool

def Fates.allDone : Fates where
  organizations := .done
  members := fun _ => .done
  emails := .done
  deleteOrganization := fun _ => .done
  eraseOrg := fun _ => true
  deleteUser := .done
  eraseUserData := true

variable {α : Type}

/- A call that reads. -/
def fetch
    (fate : Fate)
    (f : AccountState → Option α)
    (next : Option α → AccountThread) : AccountThread :=
  atomic .free
    (fun s => (s, if fate = .done then f s else none))
    next

def respond
    (request : Nat)
    (answer : Except AccountError AccountAnswer) :
    AccountThread :=
  atomic .free
    (fun s =>
      ({ s with answers := s.answers ++ [(request, answer)] },
        ()))
    (fun _ => .done)

/- A user that is not found is deleted already. -/
def AccountState.deleteUser
    (s : AccountState)
    (userId : String) : AccountState :=
  if userId ∈ s.directory.deletedUsers then
    s
  else
    { s with
      directory := s.directory.deleteUser userId
      changes :=
        s.changes ++
          [{ deletion := .user userId
             before := s.directory.memberships
             after :=
              (s.directory.deleteUser userId).memberships }] }

def AccountState.deleteOrganization
    (s : AccountState)
    (userId orgId : String) : AccountState :=
  if orgId ∈ s.directory.deletedOrgs then
    s
  else
    { s with
      directory := s.directory.deleteOrganization orgId
      changes :=
        s.changes ++
          [{ deletion := .organization userId orgId
             before := s.directory.memberships
             after :=
              (s.directory.deleteOrganization
                orgId).memberships }] }

/- A call that writes, and whether it was answered. -/
def send
    (fate : Fate)
    (label : AccountLabel)
    (effect : AccountState → AccountState)
    (next : Bool → AccountThread) : AccountThread :=
  match fate with
  | .failed => atomic .free (fun s => (s, false)) next
  | .done => atomic label (fun s => (effect s, true)) next
  | .unanswered =>
      atomic label (fun s => (effect s, false)) next

--------------------
-- Requests
--------------------

/- The members of each organization are read in turn. -/
def classifyAll
    (clerk : Clerk)
    (fates : Fates)
    (userId : String)
    (next : Option Plan → AccountThread) :
    List String → Plan → AccountThread
| [], plan => next (some plan)
| orgId :: rest, plan =>
    fetch (fates.members orgId)
      (fun s =>
        (clerk.members s.directory orgId).map
          (fun page => (page, s.joins.length)))
      (fun
        | none => next none
        | some (page, joined) =>
            classifyAll clerk fates userId next rest
              (plan.add userId
                { org := ⟨orgId, clerk.orgName orgId⟩
                  page := page
                  joined := joined }))

def plan
    (clerk : Clerk)
    (fates : Fates)
    (userId : String)
    (next : Option Plan → AccountThread) : AccountThread :=
  fetch fates.organizations
    (fun s => clerk.userOrganizations s.directory userId)
    (fun
      | none => next none
      | some orgIds =>
          classifyAll clerk fates userId next orgIds Plan.empty)

def deletionPreview
    (clerk : Clerk)
    (fates : Fates)
    (userId : String)
    (request : Nat) : AccountThread :=
  plan clerk fates userId (fun
    | none => respond request (.error .clerkFailed)
    | some plan => respond request (.ok (.preview plan)))

/- What the person has to type, in any case. -/
def confirmPhrase : String := "delete my account"

def asciiLower (c : Char) : Char :=
  if 'A' ≤ c ∧ c ≤ 'Z' then
    Char.ofNat (c.toNat + 32)
  else
    c

def confirmed (confirm : Option String) : Bool :=
  confirm.any
    (fun text =>
      (Text.trim text.toList).map asciiLower ==
        confirmPhrase.toList)

/- Each organization is deleted, then erased. -/
def deleteOrganizations
    (fates : Fates)
    (userId : String)
    (next : Option AccountError → AccountThread) :
    List Classified → AccountThread
| [] => next none
| entry :: rest =>
    send (fates.deleteOrganization entry.org.id)
      (.deleteOrganization userId entry)
      (fun s => s.deleteOrganization userId entry.org.id)
      (fun answered =>
        if !answered then
          next (some .clerkFailed)
        else if !fates.eraseOrg entry.org.id then
          next (some .eraseFailed)
        else
          deleteOrganizations fates userId next rest)

/- The account itself goes last. -/
def deleteUser
    (fates : Fates)
    (userId : String)
    (plan : Plan)
    (request : Nat) : AccountThread :=
  send fates.deleteUser (.deleteUser userId plan)
    (fun s => s.deleteUser userId)
    (fun answered =>
      if !answered then
        respond request (.error .clerkFailed)
      else if !fates.eraseUserData then
        respond request (.error .eraseFailed)
      else
        respond request (.ok (.deleted plan.deleted.length)))

def deleteAccount
    (clerk : Clerk)
    (fates : Fates)
    (userId : String)
    (confirm : Option String)
    (request : Nat) : AccountThread :=
  if !confirmed confirm then
    respond request (.error .unconfirmed)
  else
    Account.plan clerk fates userId (fun
      | none => respond request (.error .clerkFailed)
      | some plan =>
          if !plan.blocking.isEmpty then
            respond request
              (.error
                (.lastAdmin
                  (plan.blocking.map Classified.org)))
          else
            fetch fates.emails
              (fun s =>
                if userId ∈ s.directory.deletedUsers then
                  none
                else
                  some ())
              (fun
                | none => respond request (.error .clerkFailed)
                | some _ =>
                    deleteOrganizations fates userId
                      (fun
                        | some err =>
                            respond request (.error err)
                        | none =>
                            deleteUser fates userId plan request)
                      plan.deleted))

/- A membership that Clerk accepts is added. -/
def AccountState.join
    (s : AccountState)
    (m : Membership) : AccountState :=
  if hAdmits : s.directory.Admits m then
    { s with
      directory := s.directory.join m hAdmits
      joins := s.joins ++ [m] }
  else
    s

inductive AccountTask where
  | delete
      (fates : Fates)
      (userId : String)
      (confirm : Option String)
  | preview (fates : Fates) (userId : String)
  | join (m : Membership)

def startAccount
    (clerk : Clerk) :
    AccountTask → Nat → AccountThread
| .delete fates userId confirm, request =>
    deleteAccount clerk fates userId confirm request
| .preview fates userId, request =>
    deletionPreview clerk fates userId request
| .join m, _ =>
    atomic .free (fun s => (s.join m, ())) (fun _ => .done)

/- The requests after any events. -/
def accountsAfter
    (clerk : Clerk)
    (directory : Directory)
    (events : List (Event AccountTask)) : AccountState :=
  (Run.exec (step (startAccount clerk))
    (initial (AccountState.start directory)) events).shared

end Account

end SentinelCommand
