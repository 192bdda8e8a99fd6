import Mathlib.Algebra.BigOperators.Group.List.Basic
import Mathlib.Algebra.Ring.Int.Defs
import SentinelCommand.Lib.Run

/-
  Calls in progress over a shared state.

  A call is a value that says how far it has come. It starts
  with a first atomic part and is resumed one part at a time,
  so that a run is a list of starts and resumptions. What all
  calls hold together is the sum of a weight over them.

  Key definitions include:
    * `Calls.Program`, `Calls.step`
    * `Calls.held`

  Key theorems include:
    * `Calls.held_resume`
    * `Calls.le_held`
    * `Calls.forall_started`, `Calls.forall_resumed`
    * `Calls.exec_startAll`, `Calls.exec_resumeAll`
-/

--------------------
-- Calls
--------------------

namespace Calls

/- The parts of the calls, up to the next suspension. -/
structure Program
    (Shared Call Start Choice : Type) where
  begin : Shared → Start → Shared × Option Call
  resume : Shared → Call → Choice → Shared × Call

structure Config (Shared Call : Type) where
  shared : Shared
  calls : List Call

/-
  Something starts, which may leave a call in progress, or a
  call goes on with what its statement came back with.
-/
inductive Event (Start Choice : Type) where
  | start (what : Start)
  | resume (id : Nat) (choice : Choice)
  deriving DecidableEq, Repr

variable {Shared Call Start Choice : Type}

def step
    (program : Program Shared Call Start Choice)
    (c : Config Shared Call) :
    Event Start Choice → Config Shared Call
| .start what =>
    { shared := (program.begin c.shared what).1
      calls :=
        c.calls ++ (program.begin c.shared what).2.toList }
| .resume id choice =>
    match c.calls[id]? with
    | none => c
    | some call =>
        { shared := (program.resume c.shared call choice).1
          calls :=
            c.calls.set id
              (program.resume c.shared call choice).2 }

/- No call is in progress. -/
def initial (s : Shared) : Config Shared Call where
  shared := s
  calls := []

/- The call that an event takes further, if any. -/
def resumed
    (c : Config Shared Call) :
    Event Start Choice → Option (Call × Choice)
| .start _ => none
| .resume id choice =>
    (c.calls[id]?).map (fun call => (call, choice))

/- What holds of the calls so far and of a new one. -/
theorem forall_started
    {P : Call → Prop}
    {calls : List Call}
    {call : Call}
    (hOld : ∀ other ∈ calls, P other)
    (hNew : P call) :
    ∀ other ∈ calls ++ [call], P other := by
  intro other hOther
  rcases List.mem_append.mp hOther with hIn | hLast
  · exact hOld other hIn
  · rw [List.mem_singleton.mp hLast]
    exact hNew

/- What holds of the calls and of the one that went on. -/
theorem forall_resumed
    {P : Call → Prop}
    {calls : List Call}
    {id : Nat}
    {next : Call}
    (hOld : ∀ other ∈ calls, P other)
    (hNext : P next) :
    ∀ other ∈ calls.set id next, P other := by
  intro other hOther
  rcases List.mem_or_eq_of_mem_set hOther with hIn | rfl
  · exact hOld other hIn
  · exact hNext

/- The call at a place, once one of them went on. -/
theorem cases_of_resumed
    {calls : List Call}
    {id place : Nat}
    {next other : Call}
    (hOther : (calls.set id next)[place]? = some other) :
    (place = id ∧ other = next) ∨
      (place ≠ id ∧ calls[place]? = some other) := by
  by_cases hSame : place = id
  · subst hSame
    rw [List.getElem?_set] at hOther
    split at hOther
    · split at hOther
      · exact Or.inl ⟨rfl, (Option.some.inj hOther).symm⟩
      · cases hOther
    · exact absurd rfl ‹_›
  · rw [List.getElem?_set_ne (Ne.symm hSame)] at hOther
    exact Or.inr ⟨hSame, hOther⟩

/- The call at a place, once another was started. -/
theorem cases_of_started
    {calls : List Call}
    {new other : Call}
    {place : Nat}
    (hOther : (calls ++ [new])[place]? = some other) :
    calls[place]? = some other ∨ other = new := by
  rcases Nat.lt_or_ge place calls.length with hLt | hGe
  · rw [List.getElem?_append_left hLt] at hOther
    exact Or.inl hOther
  · rw [List.getElem?_append_right hGe,
      List.getElem?_singleton] at hOther
    split at hOther
    · exact Or.inr (Option.some.inj hOther).symm
    · cases hOther

theorem getElem?_started
    {calls : List Call}
    {call : Call}
    {place : Nat}
    (hCall : calls[place]? = some call)
    (new : Call) :
    (calls ++ [new])[place]? = some call := by
  rcases List.getElem?_eq_some_iff.mp hCall with ⟨hLt, -⟩
  rw [List.getElem?_append_left hLt]
  exact hCall

/- What holds of the other calls and of the one that went on. -/
theorem forall_resumed_of_ne
    {P : Call → Prop}
    {calls : List Call}
    {id : Nat}
    {next : Call}
    (hOld :
      ∀ place other, place ≠ id →
        calls[place]? = some other → P other)
    (hNext : P next) :
    ∀ other ∈ calls.set id next, P other := by
  intro other hOther
  rcases List.getElem?_of_mem hOther with ⟨place, hPlace⟩
  rcases cases_of_resumed hPlace with
    ⟨-, rfl⟩ | ⟨hNe, hCall⟩
  · exact hNext
  · exact hOld place other hNe hCall

/- A started call is one more to look at. -/
theorem exists_started_iff
    {P : Call → Bool}
    {calls : List Call}
    {call : Call} :
    (∃ other ∈ calls ++ [call], P other = true) ↔
      (∃ other ∈ calls, P other = true) ∨ P call = true := by
  constructor
  · rintro ⟨other, hOther, hHolds⟩
    rcases List.mem_append.mp hOther with hIn | hLast
    · exact Or.inl ⟨other, hIn, hHolds⟩
    · rw [List.mem_singleton.mp hLast] at hHolds
      exact Or.inr hHolds
  · rintro (⟨other, hIn, hHolds⟩ | hHolds)
    · exact ⟨other, List.mem_append_left _ hIn, hHolds⟩
    · exact
        ⟨call,
          List.mem_append_right _ (List.mem_singleton.mpr rfl),
          hHolds⟩

/- The others are still there. -/
theorem mem_resume_of_ne
    {calls : List Call}
    {id : Nat}
    {call other next : Call}
    (hCall : calls[id]? = some call)
    (hOther : other ∈ calls)
    (hNe : other ≠ call) :
    other ∈ calls.set id next := by
  rcases List.getElem?_of_mem hOther with ⟨at', hAt⟩
  have hPlace : id ≠ at' := by
    rintro rfl
    rw [hCall] at hAt
    exact hNe (Option.some.inj hAt).symm
  apply List.mem_of_getElem? (i := at')
  rw [List.getElem?_set_ne hPlace, hAt]

theorem mem_resume_self
    {calls : List Call}
    {id : Nat}
    {call : Call}
    (next : Call)
    (hCall : calls[id]? = some call) :
    next ∈ calls.set id next := by
  rcases List.getElem?_eq_some_iff.mp hCall with ⟨hLt, -⟩
  exact List.mem_set hLt next

/- A call that goes on and looks the same as before. -/
theorem exists_resumed_iff
    {P : Call → Bool}
    {calls : List Call}
    {id : Nat}
    {call next : Call}
    (hCall : calls[id]? = some call)
    (hSame : P next = P call) :
    (∃ other ∈ calls.set id next, P other = true) ↔
      ∃ other ∈ calls, P other = true := by
  constructor
  · rintro ⟨other, hOther, hHolds⟩
    rcases List.mem_or_eq_of_mem_set hOther with hIn | rfl
    · exact ⟨other, hIn, hHolds⟩
    · exact
        ⟨call, List.mem_of_getElem? hCall, hSame ▸ hHolds⟩
  · rintro ⟨other, hIn, hHolds⟩
    by_cases hIs : other = call
    · refine ⟨next, mem_resume_self next hCall, ?_⟩
      rw [hSame, ← hIs]
      exact hHolds
    · exact
        ⟨other, mem_resume_of_ne hCall hIn hIs, hHolds⟩

--------------------
-- What Calls Hold Together
--------------------

variable {Call : Type}

def held (weight : Call → Int) (calls : List Call) : Int :=
  (calls.map weight).sum

@[simp] theorem held_nil (weight : Call → Int) :
    held weight [] = 0 := by
  rfl

@[simp] theorem held_cons
    (weight : Call → Int)
    (call : Call)
    (rest : List Call) :
    held weight (call :: rest) =
      weight call + held weight rest := by
  simp [held]

theorem held_append
    (weight : Call → Int)
    (first second : List Call) :
    held weight (first ++ second) =
      held weight first + held weight second := by
  simp [held]

/- A resumed call changes the sum by its own weight. -/
theorem held_resume
    (weight : Call → Int)
    {calls : List Call}
    {id : Nat}
    {call : Call}
    (next : Call)
    (hCall : calls[id]? = some call) :
    held weight (calls.set id next) =
      held weight calls - weight call + weight next := by
  induction calls generalizing id with
  | nil => simp at hCall
  | cons first rest ih =>
      cases id with
      | zero =>
          have hFirst : first = call := by simpa using hCall
          rw [List.set_cons_zero, held_cons, held_cons, hFirst]
          omega
      | succ id =>
          have hRest : rest[id]? = some call := by
            simpa using hCall
          rw [List.set_cons_succ, held_cons, held_cons,
            ih hRest]
          omega

theorem held_nonneg
    {weight : Call → Int}
    {calls : List Call}
    (hNonneg : ∀ call ∈ calls, 0 ≤ weight call) :
    0 ≤ held weight calls := by
  induction calls with
  | nil => exact Int.le_refl 0
  | cons first rest ih =>
      have hFirst := hNonneg first List.mem_cons_self
      have hRest :=
        ih (fun call hCall =>
          hNonneg call (List.mem_cons_of_mem first hCall))
      rw [held_cons]
      omega

/- What one call holds is part of what all of them hold. -/
theorem le_held
    {weight : Call → Int}
    {calls : List Call}
    (hNonneg : ∀ call ∈ calls, 0 ≤ weight call)
    {call : Call}
    (hCall : call ∈ calls) :
    weight call ≤ held weight calls := by
  induction calls with
  | nil => exact absurd hCall List.not_mem_nil
  | cons first rest ih =>
      have hFirst := hNonneg first List.mem_cons_self
      have hOthers :
          ∀ other ∈ rest, 0 ≤ weight other :=
        fun other hOther =>
          hNonneg other (List.mem_cons_of_mem first hOther)
      rw [held_cons]
      rcases List.mem_cons.mp hCall with rfl | hIn
      · have hRest := held_nonneg hOthers
        omega
      · have hLe := ih hOthers hIn
        omega

/- Two different calls hold what they hold side by side. -/
theorem add_le_held
    {weight : Call → Int}
    {calls : List Call}
    (hNonneg : ∀ call ∈ calls, 0 ≤ weight call)
    {call other : Call}
    (hCall : call ∈ calls)
    (hOther : other ∈ calls)
    (hNe : other ≠ call) :
    weight call + weight other ≤ held weight calls := by
  induction calls with
  | nil => exact absurd hCall List.not_mem_nil
  | cons first rest ih =>
      have hRest :
          ∀ next ∈ rest, 0 ≤ weight next :=
        fun next hNext =>
          hNonneg next (List.mem_cons_of_mem first hNext)
      have hFirst := hNonneg first List.mem_cons_self
      rw [held_cons]
      rcases List.mem_cons.mp hCall with hHere | hIn
      · rcases List.mem_cons.mp hOther with hAlso | hThere
        · exact absurd (hAlso.trans hHere.symm) hNe
        · have hLe := le_held hRest hThere
          rw [hHere]
          omega
      · rcases List.mem_cons.mp hOther with hHere | hThere
        · have hLe := le_held hRest hIn
          rw [hHere]
          omega
        · have hLe := ih hRest hIn hThere
          omega

/- Calls that hold nothing add nothing. -/
theorem held_eq_zero
    {weight : Call → Int}
    {calls : List Call}
    (hNone : ∀ call ∈ calls, weight call = 0) :
    held weight calls = 0 := by
  induction calls with
  | nil => rfl
  | cons first rest ih =>
      rw [held_cons, hNone first List.mem_cons_self,
        ih (fun call hCall =>
          hNone call (List.mem_cons_of_mem first hCall))]
      rfl

end Calls

--------------------
-- Rounds
--------------------

namespace Calls

variable {Shared Call Start Choice : Type}
variable {program : Program Shared Call Start Choice}
variable {s : Shared}

/- Calls start one after another, and wait at one point. -/
theorem exec_startAll
    {what : Start}
    {call : Call}
    (hBegin : program.begin s what = (s, some call))
    (n : Nat)
    (calls : List Call) :
    Run.exec (step program) { shared := s, calls := calls }
        (List.replicate n (.start what)) =
      { shared := s, calls := calls ++ List.replicate n call } := by
  induction n generalizing calls with
  | zero => simp
  | succ n ih =>
      have hStep :
          step program { shared := s, calls := calls }
              (.start what) =
            { shared := s, calls := calls ++ [call] } := by
        simp [step, hBegin]
      rw [List.replicate_succ, Run.exec_cons, hStep, ih,
        List.append_assoc, List.singleton_append,
        ← List.replicate_succ]

section Resumed

variable {f : Shared → Shared}
variable {call next : Call}
variable {choice : Choice}

/- The calls from one place on go on in turn. -/
theorem exec_resumeFrom
    {Inv : Shared → Prop}
    (hResume :
      ∀ s, Inv s → program.resume s call choice = (f s, next))
    (hInv : ∀ s, Inv s → Inv (f s))
    (hStart : Inv s)
    (done n : Nat) :
    Run.exec (step program)
        { shared := s
          calls :=
            List.replicate done next ++ List.replicate n call }
        ((List.range' done n).map
          (fun id => .resume id choice)) =
      { shared := f^[n] s
        calls := List.replicate (done + n) next } := by
  induction n generalizing s done with
  | zero => simp
  | succ n ih =>
      have hCall :
          (List.replicate done next ++
              List.replicate (n + 1) call)[done]? =
            some call := by
        rw [List.getElem?_append_right (by simp)]
        simp
      have hSet :
          (List.replicate done next ++
              List.replicate (n + 1) call).set done next =
            List.replicate (done + 1) next ++
              List.replicate n call := by
        rw [List.set_append_right _ _ (by simp),
          List.length_replicate, Nat.sub_self,
          List.replicate_succ (n := n), List.set_cons_zero,
          List.replicate_succ' (n := done), List.append_assoc,
          List.singleton_append]
      have hStep :
          step program
              { shared := s
                calls :=
                  List.replicate done next ++
                    List.replicate (n + 1) call }
              (.resume done choice) =
            { shared := f s
              calls :=
                List.replicate (done + 1) next ++
                  List.replicate n call } := by
        simp only [step, hCall, hResume s hStart, hSet]
      rw [List.range'_succ, List.map_cons, Run.exec_cons, hStep,
        ih (hInv s hStart), Function.iterate_succ_apply,
        Nat.add_right_comm, Nat.add_assoc]

/- Calls that wait at one point go on, each once. -/
theorem exec_resumeAll
    (Inv : Shared → Prop)
    (hResume :
      ∀ s, Inv s → program.resume s call choice = (f s, next))
    (hInv : ∀ s, Inv s → Inv (f s))
    (hStart : Inv s)
    (n : Nat) :
    Run.exec (step program)
        { shared := s, calls := List.replicate n call }
        ((List.range n).map (fun id => .resume id choice)) =
      { shared := f^[n] s, calls := List.replicate n next } := by
  have hAll := exec_resumeFrom hResume hInv hStart 0 n
  rw [Nat.zero_add, ← List.range_eq_range'] at hAll
  exact hAll

end Resumed

end Calls
