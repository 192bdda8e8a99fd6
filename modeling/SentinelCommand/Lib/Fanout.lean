import Mathlib.Data.List.Basic
import SentinelCommand.Lib.Run

/-
  A group whose members are fed through bounded queues.

  A message is offered to the members that may see it. A
  member whose queue is full is let go: it keeps what it was
  offered before and is offered nothing more. Members join
  up to a cap, take from their queues and leave, in any
  order.

  Key definitions include:
    * `Fanout.Member`, `Fanout.Turn`, `Fanout.Member.turn`
    * `Fanout.Op`, `Fanout.step`
    * `Fanout.shown`
    * `Fanout.Follows`

  Key theorems include:
    * `Fanout.follows_exec`
    * `Fanout.exec_member`
    * `Fanout.member_joined`, `Fanout.joined_member`
    * `Fanout.liveCount_le`, `Fanout.liveCount_leave`
-/

--------------------
-- Members
--------------------

namespace Fanout

/-
  A member with what waits for it and what it has taken. It
  is live while it is offered messages, and at its end once
  it found nothing after being let go.
-/
structure Member (Role Message : Type) where
  role : Role
  queue : List Message
  received : List Message
  live : Bool
  ended : Bool
  left : Bool
  deriving DecidableEq, Repr

variable {Role Audience Message : Type}

def fresh (role : Role) : Member Role Message where
  role := role
  queue := []
  received := []
  live := true
  ended := false
  left := false

/- What happens to one member. -/
inductive Turn (Message : Type) where
  | offer (message : Message)
  | take
  | letGo
  | leave
  deriving DecidableEq, Repr

namespace Member

def offer
    (depth : Nat)
    (x : Member Role Message)
    (message : Message) : Member Role Message :=
  if x.live then
    if x.queue.length < depth then
      { x with queue := x.queue ++ [message] }
    else
      { x with live := false }
  else
    x

def take (x : Member Role Message) : Member Role Message :=
  if x.left then x else
    match x.queue with
    | message :: rest =>
        { x with
          queue := rest
          received := x.received ++ [message] }
    | [] => if x.live then x else { x with ended := true }

def letGo (x : Member Role Message) : Member Role Message :=
  { x with live := false }

def leave (x : Member Role Message) : Member Role Message :=
  { x with queue := [], live := false, left := true }

def turn
    (depth : Nat)
    (x : Member Role Message) :
    Turn Message → Member Role Message
| .offer message => x.offer depth message
| .take => x.take
| .letGo => x.letGo
| .leave => x.leave

end Member

/- The messages among the turns of a member. -/
def shown (turns : List (Turn Message)) : List Message :=
  turns.filterMap
    (fun turn =>
      match turn with
      | .offer message => some message
      | _ => none)

/- The turns after which a live member is live no more. -/
def Releases
    (depth : Nat)
    (x : Member Role Message) : Turn Message → Prop
| .offer _ => x.queue.length = depth
| .take => False
| .letGo => True
| .leave => True

end Fanout

--------------------
-- What a Member Has Received
--------------------

namespace Fanout

variable {Role Message : Type}
variable {depth : Nat}
variable {role : Role}

theorem shown_append
    (first second : List (Turn Message)) :
    shown (first ++ second) = shown first ++ shown second := by
  simp [shown]

theorem offer_of_room
    {x : Member Role Message}
    {message : Message}
    (hLive : x.live = true)
    (hRoom : x.queue.length < depth) :
    x.offer depth message =
      { x with queue := x.queue ++ [message] } := by
  rw [Member.offer, if_pos hLive, if_pos hRoom]

theorem offer_of_full
    {x : Member Role Message}
    {message : Message}
    (hLive : x.live = true)
    (hFull : ¬ x.queue.length < depth) :
    x.offer depth message = { x with live := false } := by
  rw [Member.offer, if_pos hLive, if_neg hFull]

theorem offer_of_released
    {x : Member Role Message}
    {message : Message}
    (hLive : x.live = false) :
    x.offer depth message = x := by
  rw [Member.offer, hLive]
  rfl

theorem take_of_left
    {x : Member Role Message}
    (hLeft : x.left = true) :
    x.take = x := by
  rw [Member.take, if_pos hLeft]

theorem take_cons
    {x : Member Role Message}
    {message : Message}
    {rest : List Message}
    (hLeft : x.left = false)
    (hQueue : x.queue = message :: rest) :
    x.take =
      { x with
        queue := rest
        received := x.received ++ [message] } := by
  rw [Member.take, hLeft, hQueue]
  rfl

theorem take_nil
    {x : Member Role Message}
    (hLeft : x.left = false)
    (hQueue : x.queue = []) :
    x.take = if x.live then x else { x with ended := true } := by
  rw [Member.take, hLeft, hQueue]
  rfl

/- A member that is live has lost nothing so far. -/
structure KeepsUp
    (depth : Nat)
    (turns : List (Turn Message))
    (x : Member Role Message) : Prop where
  live : x.live = true
  notEnded : x.ended = false
  notLeft : x.left = false
  all : x.received ++ x.queue = shown turns
  bounded : x.queue.length ≤ depth

/-
  A member that is live no more was released by one turn. Of
  what it was shown before that turn it has lost nothing,
  unless it left; and it is at its end only after all of it.
-/
structure Released
    (depth : Nat)
    (role : Role)
    (turns : List (Turn Message))
    (x : Member Role Message)
    (before : List (Turn Message))
    (turn : Turn Message)
    (after : List (Turn Message)) : Prop where
  split : turns = before ++ turn :: after
  keptUp :
    KeepsUp depth before
      (Run.exec (Member.turn depth) (fresh role) before)
  releases :
    Releases depth
      (Run.exec (Member.turn depth) (fresh role) before) turn
  live : x.live = false
  sound : x.received ++ x.queue <+: shown before
  all : x.left = false → x.received ++ x.queue = shown before
  ended : x.ended = true → x.received = shown before
  leaves : turn = .leave → x.left = true ∧ x.ended = false

def Follows
    (depth : Nat)
    (role : Role)
    (turns : List (Turn Message))
    (x : Member Role Message) : Prop :=
  KeepsUp depth turns x ∨
    ∃ before turn after,
      Released depth role turns x before turn after

theorem keepsUp_fresh :
    KeepsUp depth [] (fresh role : Member Role Message) where
  live := rfl
  notEnded := rfl
  notLeft := rfl
  all := rfl
  bounded := Nat.zero_le _

/- The first turn a live member does not survive. -/
theorem released_now
    {turns : List (Turn Message)}
    {x next : Member Role Message}
    (turn : Turn Message)
    (hExec :
      x = Run.exec (Member.turn depth) (fresh role) turns)
    (hUp : KeepsUp depth turns x)
    (hReleases : Releases depth x turn)
    (hLive : next.live = false)
    (hEnded : next.ended = false)
    (hReceived : next.received = x.received)
    (hQueue :
      next.queue = x.queue ∨
        next.queue = [] ∧ next.left = true)
    (hLeave : turn = .leave → next.left = true) :
    Released depth role (turns ++ [turn]) next turns turn []
    where
  split := rfl
  keptUp := hExec ▸ hUp
  releases := hExec ▸ hReleases
  live := hLive
  sound := by
    rw [← hUp.all, hReceived]
    rcases hQueue with hSame | ⟨hNone, -⟩
    · exact hSame ▸ List.prefix_refl _
    · rw [hNone, List.append_nil]
      exact List.prefix_append _ _
  all := by
    intro hStays
    rcases hQueue with hSame | ⟨-, hLeft⟩
    · rw [hReceived, hSame, hUp.all]
    · rw [hLeft] at hStays
      contradiction
  ended := by
    intro hIs
    rw [hEnded] at hIs
    contradiction
  leaves := by
    intro hIs
    exact ⟨hLeave hIs, hEnded⟩

theorem follows_of_keepsUp
    {turns : List (Turn Message)}
    {x : Member Role Message}
    (hExec :
      x = Run.exec (Member.turn depth) (fresh role) turns)
    (hUp : KeepsUp depth turns x)
    (turn : Turn Message) :
    Follows depth role (turns ++ [turn]) (x.turn depth turn) := by
  cases turn with
  | offer message =>
      rw [Member.turn]
      by_cases hRoom : x.queue.length < depth
      · left
        rw [offer_of_room hUp.live hRoom]
        exact
          { live := hUp.live
            notEnded := hUp.notEnded
            notLeft := hUp.notLeft
            all := by
              rw [shown_append, ← hUp.all, List.append_assoc]
              rfl
            bounded := by
              rw [List.length_append]
              exact hRoom }
      · right
        rw [offer_of_full hUp.live hRoom]
        have hFull : x.queue.length = depth :=
          Nat.le_antisymm hUp.bounded (Nat.le_of_not_lt hRoom)
        exact
          ⟨turns, .offer message, [],
            released_now (.offer message) hExec hUp hFull rfl
              hUp.notEnded rfl (Or.inl rfl) nofun⟩
  | take =>
      left
      rw [Member.turn]
      have hShown :
          shown (turns ++ [.take]) = shown turns := by
        simp [shown]
      cases hQueue : x.queue with
      | nil =>
          rw [take_nil hUp.notLeft hQueue, if_pos hUp.live]
          exact { hUp with all := hShown ▸ hUp.all }
      | cons message rest =>
          rw [take_cons hUp.notLeft hQueue]
          exact
            { live := hUp.live
              notEnded := hUp.notEnded
              notLeft := hUp.notLeft
              all := by
                rw [hShown, ← hUp.all, hQueue,
                  List.append_assoc]
                rfl
              bounded := by
                have hBound := hUp.bounded
                rw [hQueue, List.length_cons] at hBound
                exact Nat.le_of_succ_le hBound }
  | letGo =>
      right
      exact
        ⟨turns, .letGo, [],
          released_now .letGo hExec hUp trivial rfl
            hUp.notEnded rfl (Or.inl rfl) nofun⟩
  | leave =>
      right
      exact
        ⟨turns, .leave, [],
          released_now .leave hExec hUp trivial rfl
            hUp.notEnded rfl (Or.inr ⟨rfl, rfl⟩)
            (fun _ => rfl)⟩

/- After its release a member only takes what it has. -/
theorem released_turn
    {turns before after : List (Turn Message)}
    {released : Turn Message}
    {x : Member Role Message}
    (hRel :
      Released depth role turns x before released after)
    (turn : Turn Message) :
    Released depth role (turns ++ [turn]) (x.turn depth turn)
      before released (after ++ [turn]) := by
  have hSplit :
      turns ++ [turn] =
        before ++ released :: (after ++ [turn]) := by
    rw [hRel.split, List.append_assoc, List.cons_append]
  cases turn with
  | offer message =>
      rw [Member.turn, offer_of_released hRel.live]
      exact { hRel with split := hSplit }
  | take =>
      rw [Member.turn]
      cases hLeft : x.left with
      | true =>
          rw [take_of_left hLeft]
          exact { hRel with split := hSplit }
      | false =>
          have hAll := hRel.all hLeft
          cases hQueue : x.queue with
          | nil =>
              rw [hQueue, List.append_nil] at hAll
              rw [take_nil hLeft hQueue, if_neg
                (by rw [hRel.live]; exact Bool.false_ne_true)]
              exact
                { hRel with
                  split := hSplit
                  ended := fun _ => hAll
                  leaves := by
                    intro hIs
                    rw [(hRel.leaves hIs).1] at hLeft
                    contradiction }
          | cons message rest =>
              rw [take_cons hLeft hQueue]
              have hMoved :
                  (x.received ++ [message]) ++ rest =
                    shown before := by
                rw [← hAll, hQueue, List.append_assoc]
                rfl
              exact
                { hRel with
                  split := hSplit
                  sound := hMoved ▸ List.prefix_refl _
                  all := fun _ => hMoved
                  ended := by
                    intro hIs
                    have hNone := hRel.ended hIs
                    rw [← hAll, hQueue,
                      List.self_eq_append_right] at hNone
                    contradiction }
  | letGo => exact { hRel with split := hSplit, live := rfl }
  | leave =>
      exact
        { hRel with
          split := hSplit
          live := rfl
          sound := by
            rw [Member.turn, Member.leave, List.append_nil]
            exact
              (List.prefix_append _ _).trans hRel.sound
          all := nofun
          leaves := fun hIs => ⟨rfl, (hRel.leaves hIs).2⟩ }

/-
  A member after any turns: by induction on them, from the
  last one.
-/
theorem follows_exec
    (depth : Nat)
    (role : Role)
    (turns : List (Turn Message)) :
    Follows depth role turns
      (Run.exec (Member.turn depth) (fresh role) turns) := by
  induction turns using List.reverseRecOn with
  | nil => exact Or.inl keepsUp_fresh
  | append_singleton turns turn ih =>
      rw [Run.exec_append]
      rcases ih with hUp | ⟨before, released, after, hRel⟩
      · exact follows_of_keepsUp rfl hUp turn
      · exact
          Or.inr
            ⟨before, released, after ++ [turn],
              released_turn hRel turn⟩

/- How long the queues are and who may see what. -/
structure Rules (Role Audience : Type) where
  depth : Nat
  sees : Role → Audience → Bool

inductive Op (Role Audience Message : Type) where
  | join (role : Role) (cap : Nat)
  | publish (audience : Audience) (message : Message)
  | take (n : Nat)
  | leave (n : Nat)
  | clear
  deriving DecidableEq, Repr

variable {Role Audience Message : Type}

abbrev Group (Role Message : Type) : Type :=
  List (Member Role Message)

def liveCount (group : Group Role Message) : Nat :=
  group.countP Member.live

def step
    (rules : Rules Role Audience)
    (group : Group Role Message) :
    Op Role Audience Message → Group Role Message
| .join role cap =>
    if liveCount group < cap then group ++ [fresh role] else
      group
| .publish audience message =>
    group.map
      (fun x =>
        if rules.sees x.role audience then
          x.offer rules.depth message
        else
          x)
| .take n => group.modify n Member.take
| .leave n => group.modify n Member.leave
| .clear => group.map Member.letGo

/- What an operation does to the `n`-th member. -/
def turnOf
    (rules : Rules Role Audience)
    (role : Role)
    (n : Nat) :
    Op Role Audience Message → Option (Turn Message)
| .join _ _ => none
| .publish audience message =>
    if rules.sees role audience then some (.offer message) else
      none
| .take k => if k = n then some .take else none
| .leave k => if k = n then some .leave else none
| .clear => some .letGo

/- The turns of the `n`-th member in a run. -/
def turnsOf
    (rules : Rules Role Audience)
    (role : Role)
    (n : Nat)
    (ops : List (Op Role Audience Message)) :
    List (Turn Message) :=
  ops.filterMap (turnOf rules role n)

def capOf : Op Role Audience Message → Option Nat
| .join _ cap => some cap
| _ => none

--------------------
-- Members of a Group
--------------------

variable {rules : Rules Role Audience}
variable {group : Group Role Message}
variable {x : Member Role Message}
variable {n : Nat}

@[simp] theorem role_turn
    (depth : Nat)
    (x : Member Role Message)
    (turn : Turn Message) :
    (x.turn depth turn).role = x.role := by
  cases turn with
  | offer message =>
      simp only [Member.turn, Member.offer]
      split
      · split <;> rfl
      · rfl
  | take =>
      simp only [Member.turn, Member.take]
      split
      · rfl
      · split
        · rfl
        · split <;> rfl
  | letGo => rfl
  | leave => rfl

/- A member of the group takes its own turns. -/
theorem step_member
    (hMember : group[n]? = some x)
    (op : Op Role Audience Message) :
    (step rules group op)[n]? =
      some
        (Run.exec (Member.turn rules.depth) x
          (turnOf rules x.role n op).toList) := by
  cases op with
  | join role cap =>
      simp only [step]
      split
      · rw [List.getElem?_append_left
          (List.getElem?_eq_some_iff.mp hMember).1, hMember]
        rfl
      · exact hMember
  | publish audience message =>
      rw [step, List.getElem?_map, hMember, Option.map_some,
        turnOf]
      split <;> rfl
  | take k =>
      rw [step, List.getElem?_modify, hMember, turnOf]
      by_cases hIs : k = n <;> simp [hIs, Member.turn]
  | leave k =>
      rw [step, List.getElem?_modify, hMember, turnOf]
      by_cases hIs : k = n <;> simp [hIs, Member.turn]
  | clear =>
      rw [step, List.getElem?_map, hMember]
      rfl

theorem role_exec
    (depth : Nat)
    (x : Member Role Message)
    (turns : List (Turn Message)) :
    (Run.exec (Member.turn depth) x turns).role = x.role := by
  induction turns generalizing x with
  | nil => rfl
  | cons turn turns ih => rw [Run.exec_cons, ih, role_turn]

/- A member after a run is one after its own turns. -/
theorem exec_member
    (hMember : group[n]? = some x)
    (ops : List (Op Role Audience Message)) :
    (Run.exec (step rules) group ops)[n]? =
      some
        (Run.exec (Member.turn rules.depth) x
          (turnsOf rules x.role n ops)) := by
  induction ops generalizing group x with
  | nil => exact hMember
  | cons op ops ih =>
      rw [Run.exec_cons, ih (step_member hMember op), role_exec,
        turnsOf, turnsOf, List.filterMap_cons]
      cases turnOf rules x.role n op with
      | none => rfl
      | some turn => rfl

/- Only joining makes the group longer. -/
theorem step_new
    {op : Op Role Audience Message}
    (hNew : group[n]? = none)
    (hMember : (step rules group op)[n]? = some x) :
    ∃ role cap, op = .join role cap ∧
      liveCount group < cap ∧ group.length = n ∧
      x = fresh role := by
  have hLong := List.getElem?_eq_none_iff.mp hNew
  have hLt := (List.getElem?_eq_some_iff.mp hMember).1
  cases op with
  | join role cap =>
      simp only [step] at hMember hLt
      split at hMember
      · rename_i hRoom
        rw [if_pos hRoom, List.length_append,
          List.length_singleton] at hLt
        have hN : group.length = n := by omega
        refine ⟨role, cap, rfl, hRoom, hN, ?_⟩
        rw [← hN, List.getElem?_concat_length] at hMember
        exact (Option.some.inj hMember).symm
      · rw [hNew] at hMember
        contradiction
  | publish audience message =>
      rw [step, List.length_map] at hLt
      omega
  | take k =>
      rw [step, List.length_modify] at hLt
      omega
  | leave k =>
      rw [step, List.length_modify] at hLt
      omega
  | clear =>
      rw [step, List.length_map] at hLt
      omega

/- A member that joined has taken its turns since. -/
theorem joined_member
    (role : Role)
    {cap : Nat}
    {before : List (Op Role Audience Message)}
    (hRoom :
      liveCount (Run.exec (step rules) [] before) < cap)
    (after : List (Op Role Audience Message)) :
    (Run.exec (step rules) []
        (before ++ .join role cap :: after))[(Run.exec
          (step rules) [] before).length]? =
      some
        (Run.exec (Member.turn rules.depth) (fresh role)
          (turnsOf rules role
            (Run.exec (step rules) [] before).length after)) := by
  rw [Run.exec_append, Run.exec_cons]
  refine exec_member ?_ after
  rw [step, if_pos hRoom, List.getElem?_concat_length]

/-
  Every member joined at some point of the run, below the
  cap.
-/
theorem member_joined
    (ops : List (Op Role Audience Message))
    (hMember : (Run.exec (step rules) [] ops)[n]? = some x) :
    ∃ before role cap after,
      ops = before ++ .join role cap :: after ∧
        liveCount (Run.exec (step rules) [] before) < cap ∧
        (Run.exec (step rules) [] before).length = n := by
  induction ops using List.reverseRecOn generalizing x with
  | nil => simp at hMember
  | append_singleton ops op ih =>
      rw [Run.exec_append] at hMember
      cases hOld : (Run.exec (step rules) [] ops)[n]? with
      | none =>
          rcases step_new hOld hMember with
            ⟨role, cap, rfl, hRoom, hLength, -⟩
          exact ⟨ops, role, cap, [], rfl, hRoom, hLength⟩
      | some old =>
          rcases ih hOld with
            ⟨before, role, cap, after, rfl, hRoom, hLength⟩
          refine
            ⟨before, role, cap, after ++ [op], ?_, hRoom,
              hLength⟩
          rw [List.append_assoc, List.cons_append]

--------------------
-- Places
--------------------

/- Nothing makes a member live again. -/
theorem live_turn
    (depth : Nat)
    {x : Member Role Message}
    (hLive : x.live = false)
    (turn : Turn Message) :
    (x.turn depth turn).live = false := by
  cases turn with
  | offer message =>
      rw [Member.turn, offer_of_released hLive, hLive]
  | take =>
      rw [Member.turn]
      cases hLeft : x.left with
      | true => rw [take_of_left hLeft, hLive]
      | false =>
          cases hQueue : x.queue with
          | nil =>
              rw [take_nil hLeft hQueue, hLive]
              rfl
          | cons message rest =>
              rw [take_cons hLeft hQueue]
              exact hLive
  | letGo => rfl
  | leave => rfl

theorem liveCount_append
    (first second : Group Role Message) :
    liveCount (first ++ second) =
      liveCount first + liveCount second :=
  List.countP_append ..

/- A change that makes no member live adds no live member. -/
theorem liveCount_map_le
    {f : Member Role Message → Member Role Message}
    (hLive : ∀ x, x.live = false → (f x).live = false)
    (group : Group Role Message) :
    liveCount (group.map f) ≤ liveCount group := by
  rw [liveCount, List.countP_map]
  apply List.countP_mono_left
  intro x _ hNow
  by_contra hOld
  rw [Bool.not_eq_true] at hOld
  rw [Function.comp_apply, hLive x hOld] at hNow
  contradiction

theorem liveCount_modify_le
    {f : Member Role Message → Member Role Message}
    (hLive : ∀ x, x.live = false → (f x).live = false)
    (group : Group Role Message)
    (n : Nat) :
    liveCount (group.modify n f) ≤ liveCount group := by
  induction group generalizing n with
  | nil => simp
  | cons x group ih =>
      cases n with
      | zero =>
          have hHead :
              liveCount ([x].map f) ≤ liveCount [x] :=
            liveCount_map_le hLive [x]
          simpa [liveCount, List.countP_cons] using hHead
      | succ n =>
          have hTail := ih n
          simp only [liveCount, List.modify_succ_cons,
            List.countP_cons] at hTail ⊢
          omega

/- A live member that leaves makes room for one. -/
theorem liveCount_leave
    {group : Group Role Message}
    {n : Nat}
    {x : Member Role Message}
    (hMember : group[n]? = some x) :
    liveCount (group.modify n Member.leave) +
        (if x.live then 1 else 0) =
      liveCount group := by
  induction group generalizing n with
  | nil => simp at hMember
  | cons y group ih =>
      cases n with
      | zero =>
          rcases Option.some.inj hMember with rfl
          simp [liveCount, List.countP_cons, Member.leave]
      | succ n =>
          have hTail := ih hMember
          simp only [liveCount, List.modify_succ_cons,
            List.countP_cons] at hTail ⊢
          omega

theorem liveCount_step
    {bound : Nat}
    {group : Group Role Message}
    (op : Op Role Audience Message)
    (hCap : ∀ cap, capOf op = some cap → cap ≤ bound)
    (hBound : liveCount group ≤ bound) :
    liveCount (step rules group op) ≤ bound := by
  cases op with
  | join role cap =>
      simp only [step]
      split
      · rename_i hRoom
        have hLe := hCap cap rfl
        have hOne :
            liveCount [(fresh role : Member Role Message)] = 1 :=
          rfl
        rw [liveCount_append, hOne]
        omega
      · exact hBound
  | publish audience message =>
      refine Nat.le_trans (liveCount_map_le ?_ _) hBound
      intro x hLive
      split
      · exact live_turn rules.depth hLive (.offer message)
      · exact hLive
  | take n =>
      exact Nat.le_trans
        (liveCount_modify_le
          (fun x hLive =>
            live_turn rules.depth hLive .take) _ _)
        hBound
  | leave n =>
      exact Nat.le_trans
        (liveCount_modify_le (fun _ _ => rfl) _ _) hBound
  | clear =>
      exact Nat.le_trans
        (liveCount_map_le (fun _ _ => rfl) _) hBound

/- The caps bound the live members. -/
theorem liveCount_le
    {bound : Nat}
    {group : Group Role Message}
    {ops : List (Op Role Audience Message)}
    (hCaps :
      ∀ op ∈ ops, ∀ cap, capOf op = some cap → cap ≤ bound)
    (hBound : liveCount group ≤ bound) :
    liveCount (Run.exec (step rules) group ops) ≤ bound := by
  induction ops generalizing group with
  | nil => exact hBound
  | cons op ops ih =>
      apply ih
      · intro other hOther
        exact hCaps other (List.mem_cons_of_mem op hOther)
      · exact liveCount_step op (hCaps op List.mem_cons_self)
          hBound

end Fanout
