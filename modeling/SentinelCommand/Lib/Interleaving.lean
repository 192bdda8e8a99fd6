import Mathlib.Logic.Relation
import SentinelCommand.Lib.Run

/-
  Threads over shared state, and the rely-guarantee method
  for them.

  A thread is a program of labelled atomic actions; a run
  interleaves any number of threads, which start at any
  time. A proof gives an invariant and, for each thread, the
  steps it guarantees to take. A thread is valid when, at
  each of its actions, whatever the others did in between,
  it keeps the invariant and its guarantee. Valid threads
  keep the invariant along every interleaving.

  Key definitions include:
    * `Interleaving.Thread`
    * `Interleaving.step`
    * `Interleaving.Rely`
    * `Interleaving.Valid`
    * `Interleaving.Alone`

  Key theorems include:
    * `Interleaving.rely_stable`
    * `Interleaving.valid_atomic`
    * `Interleaving.valid_await`
    * `Interleaving.guar_step`
    * `Interleaving.sound`
    * `Interleaving.soundFresh_exec`
-/

--------------------
-- Threads
--------------------

namespace Interleaving

/-
  A program of atomic actions. An action that yields nothing
  is not enabled: the thread waits.
-/
inductive Thread (Shared Label : Type) : Type where
  | done
  | act
      (label : Label)
      (effect : Shared → Option (Shared × Thread Shared Label))

variable {Shared Label Task α : Type}

def Thread.isDone : Thread Shared Label → Bool
| .done => true
| .act _ _ => false

/- An action that is always enabled, then the rest. -/
def atomic
    (label : Label)
    (effect : Shared → Shared × α)
    (rest : α → Thread Shared Label) :
    Thread Shared Label :=
  .act label
    (fun s => some ((effect s).1, rest (effect s).2))

/- An action that waits for its guard. -/
def await
    (label : Label)
    (guard : Shared → Bool)
    (effect : Shared → Shared)
    (rest : Thread Shared Label) :
    Thread Shared Label :=
  .act label
    (fun s => if guard s then some (effect s, rest) else none)

structure Config (Shared Label : Type) where
  shared : Shared
  threads : List (Thread Shared Label)

/- A task starts, or a thread takes its next action. -/
inductive Event (Task : Type) where
  | spawn (task : Task)
  | run (id : Nat)
  deriving DecidableEq, Repr

def stepThread
    (c : Config Shared Label)
    (id : Nat) : Config Shared Label :=
  match c.threads[id]? with
  | some (.act _ effect) =>
      match effect c.shared with
      | some (shared, next) =>
          { shared := shared
            threads := c.threads.set id next }
      | none => c
  | _ => c

/- A task learns its thread's id when it starts. -/
def step
    (start : Task → Nat → Thread Shared Label)
    (c : Config Shared Label) :
    Event Task → Config Shared Label
| .spawn task =>
    { c with
      threads := c.threads ++ [start task c.threads.length] }
| .run id => stepThread c id

/- No thread yet. -/
def initial (s : Shared) : Config Shared Label where
  shared := s
  threads := []

/- The action an event takes meets `ok`. -/
def EventOk
    (ok : Label → Shared → Prop)
    (c : Config Shared Label) :
    Event Task → Prop
| .spawn _ => True
| .run id =>
    match c.threads[id]? with
    | some (.act label _) => ok label c.shared
    | _ => True

instance decidableEventOk
    (ok : Label → Shared → Prop)
    [∀ label s, Decidable (ok label s)]
    (c : Config Shared Label) :
    (event : Event Task) → Decidable (EventOk ok c event)
| .spawn _ => isTrue trivial
| .run id => by
    unfold EventOk
    dsimp only
    split <;> infer_instance

end Interleaving

--------------------
-- Rely and guarantee
--------------------

namespace Interleaving

variable {Shared Label : Type}

/- What the other threads may have done in the meantime. -/
def Rely
    (Guar : Nat → Shared → Shared → Prop)
    (id : Nat) : Shared → Shared → Prop :=
  Relation.ReflTransGen
    (fun s s' => ∃ other, other ≠ id ∧ Guar other s s')

theorem rely_refl
    (Guar : Nat → Shared → Shared → Prop)
    (id : Nat)
    (s : Shared) :
    Rely Guar id s s :=
  Relation.ReflTransGen.refl

/- What one foreign step keeps, all of them keep. -/
theorem rely_stable
    {Guar : Nat → Shared → Shared → Prop}
    {id : Nat}
    {P : Shared → Prop}
    (hStable :
      ∀ other s s', other ≠ id → Guar other s s' →
        P s → P s')
    {s s' : Shared}
    (hRely : Rely Guar id s s')
    (hHolds : P s) :
    P s' := by
  induction hRely with
  | refl => exact hHolds
  | tail _ hLast ih =>
      rcases hLast with ⟨other, hOther, hGuar⟩
      exact hStable other _ _ hOther hGuar ih

/-
  A thread that keeps the invariant and its guarantee from
  here on, whatever the others do.
-/
inductive Valid
    (Inv : Shared → Prop)
    (Guar : Nat → Shared → Shared → Prop)
    (ok : Label → Shared → Prop)
    (id : Nat) :
    Shared → Thread Shared Label → Prop where
  | done (s : Shared) : Valid Inv Guar ok id s .done
  | act
      {s : Shared}
      {label : Label}
      {effect : Shared → Option (Shared × Thread Shared Label)}
      (hKeeps :
        ∀ now, Rely Guar id s now → Inv now → ok label now →
          ∀ after next, effect now = some (after, next) →
            Inv after ∧ Guar id now after)
      (hNext :
        ∀ now, Rely Guar id s now → Inv now → ok label now →
          ∀ after next, effect now = some (after, next) →
            Valid Inv Guar ok id after next) :
      Valid Inv Guar ok id s (.act label effect)

variable {Inv : Shared → Prop}
variable {Guar : Nat → Shared → Shared → Prop}
variable {ok : Label → Shared → Prop}
variable {id : Nat} {α : Type}

theorem valid_rely
    {s s' : Shared}
    {t : Thread Shared Label}
    (hValid : Valid Inv Guar ok id s t)
    (hRely : Rely Guar id s s') :
    Valid Inv Guar ok id s' t := by
  cases hValid with
  | done => exact Valid.done s'
  | act hKeeps hNext =>
      refine Valid.act ?_ ?_
      · intro now hNow
        exact hKeeps now (hRely.trans hNow)
      · intro now hNow
        exact hNext now (hRely.trans hNow)

/- The rule for an action that is always enabled. -/
theorem valid_atomic
    {s : Shared}
    {label : Label}
    {effect : Shared → Shared × α}
    {rest : α → Thread Shared Label}
    (hAct :
      ∀ now, Rely Guar id s now → Inv now → ok label now →
        Inv (effect now).1 ∧ Guar id now (effect now).1 ∧
          Valid Inv Guar ok id (effect now).1
            (rest (effect now).2)) :
    Valid Inv Guar ok id s (atomic label effect rest) := by
  refine Valid.act ?_ ?_
  · intro now hRely hInv hOk after next hEffect
    simp only [Option.some.injEq, Prod.mk.injEq] at hEffect
    rcases hEffect with ⟨rfl, rfl⟩
    rcases hAct now hRely hInv hOk with ⟨hInv', hGuar, -⟩
    exact ⟨hInv', hGuar⟩
  · intro now hRely hInv hOk after next hEffect
    simp only [Option.some.injEq, Prod.mk.injEq] at hEffect
    rcases hEffect with ⟨rfl, rfl⟩
    exact (hAct now hRely hInv hOk).2.2

/- The rule for an action that waits. -/
theorem valid_await
    {s : Shared}
    {label : Label}
    {guard : Shared → Bool}
    {effect : Shared → Shared}
    {rest : Thread Shared Label}
    (hAct :
      ∀ now, Rely Guar id s now → Inv now → ok label now →
        guard now = true →
          Inv (effect now) ∧ Guar id now (effect now) ∧
            Valid Inv Guar ok id (effect now) rest) :
    Valid Inv Guar ok id s
      (await label guard effect rest) := by
  have hEnabled
      (now after : Shared)
      (next : Thread Shared Label)
      (hEffect :
        (if guard now then some (effect now, rest) else none) =
          some (after, next)) :
      guard now = true ∧ effect now = after ∧ rest = next := by
    by_cases hGuard : guard now = true
    · simpa [hGuard] using hEffect
    · simp [hGuard] at hEffect
  refine Valid.act ?_ ?_
  · intro now hRely hInv hOk after next hEffect
    rcases hEnabled now after next hEffect with
      ⟨hGuard, rfl, rfl⟩
    rcases hAct now hRely hInv hOk hGuard with
      ⟨hInv', hGuar, -⟩
    exact ⟨hInv', hGuar⟩
  · intro now hRely hInv hOk after next hEffect
    rcases hEnabled now after next hEffect with
      ⟨hGuard, rfl, rfl⟩
    exact (hAct now hRely hInv hOk hGuard).2.2

end Interleaving

--------------------
-- Soundness
--------------------

namespace Interleaving

variable {Shared Label Task : Type}
variable {Inv : Shared → Prop}
variable {Guar : Nat → Shared → Shared → Prop}
variable {ok : Label → Shared → Prop}
variable {start : Task → Nat → Thread Shared Label}

/- The invariant, and every thread valid from here on. -/
structure Sound
    (Inv : Shared → Prop)
    (Guar : Nat → Shared → Shared → Prop)
    (ok : Label → Shared → Prop)
    (c : Config Shared Label) : Prop where
  inv : Inv c.shared
  threads :
    ∀ id t, c.threads[id]? = some t →
      Valid Inv Guar ok id c.shared t

theorem sound_stepThread
    {c : Config Shared Label}
    (hSound : Sound Inv Guar ok c)
    (id : Nat)
    (hOk :
      ∀ label effect,
        c.threads[id]? = some (.act label effect) →
          ok label c.shared) :
    Sound Inv Guar ok (stepThread c id) := by
  cases hThread : c.threads[id]? with
  | none => simpa [stepThread, hThread] using hSound
  | some t =>
      cases t with
      | done => simpa [stepThread, hThread] using hSound
      | act label effect =>
          cases hEffect : effect c.shared with
          | none =>
              simpa [stepThread, hThread, hEffect] using hSound
          | some result =>
              rcases result with ⟨after, next⟩
              have hValid := hSound.threads id _ hThread
              cases hValid with
              | act hKeeps hRest =>
                  have hLabel := hOk label effect hThread
                  have hNext :=
                    hRest c.shared (rely_refl Guar id _)
                      hSound.inv hLabel after next hEffect
                  rcases hKeeps c.shared (rely_refl Guar id _)
                    hSound.inv hLabel after next hEffect with
                    ⟨hInv, hGuar⟩
                  simp only [stepThread, hThread, hEffect]
                  refine ⟨hInv, ?_⟩
                  intro other t hOther
                  rw [List.getElem?_set] at hOther
                  by_cases hSame : id = other
                  · subst hSame
                    split at hOther
                    · split at hOther
                      · rw [← Option.some.inj hOther]
                        exact hNext
                      · simp at hOther
                    · contradiction
                  · rw [if_neg hSame] at hOther
                    -- One foreign step.
                    refine valid_rely
                      (hSound.threads other t hOther) ?_
                    exact Relation.ReflTransGen.single
                      ⟨id, hSame, hGuar⟩

theorem sound_step
    (hStart :
      ∀ task id s, Inv s →
        Valid Inv Guar ok id s (start task id))
    {c : Config Shared Label}
    (event : Event Task)
    (hSound : Sound Inv Guar ok c)
    (hOk : EventOk ok c event) :
    Sound Inv Guar ok (step start c event) := by
  cases event with
  | run id =>
      refine sound_stepThread hSound id ?_
      intro label effect hThread
      simpa only [EventOk, hThread] using hOk
  | spawn task =>
      refine ⟨hSound.inv, ?_⟩
      intro id t hThread
      simp only [step, List.getElem?_append] at hThread
      split at hThread
      · exact hSound.threads id t hThread
      · rename_i hLast
        have hId : id = c.threads.length := by
          have hBound := List.getElem?_eq_some_iff.mp hThread
          rcases hBound with ⟨hShort, -⟩
          simp only [List.length_singleton] at hShort
          omega
        subst hId
        simp only [Nat.sub_self, List.getElem?_cons_zero,
          Option.some.injEq] at hThread
        rw [← hThread]
        exact hStart task _ _ hSound.inv

/- A step is one its thread guarantees, or changes nothing. -/
theorem guar_stepThread
    {c : Config Shared Label}
    (hSound : Sound Inv Guar ok c)
    (id : Nat)
    (hOk :
      ∀ label effect,
        c.threads[id]? = some (.act label effect) →
          ok label c.shared) :
    (stepThread c id).shared = c.shared ∨
      Guar id c.shared (stepThread c id).shared := by
  cases hThread : c.threads[id]? with
  | none => left; simp [stepThread, hThread]
  | some t =>
      cases t with
      | done => left; simp [stepThread, hThread]
      | act label effect =>
          cases hEffect : effect c.shared with
          | none => left; simp [stepThread, hThread, hEffect]
          | some result =>
              rcases result with ⟨after, next⟩
              right
              have hValid := hSound.threads id _ hThread
              cases hValid with
              | act hKeeps _ =>
                  have hStep :=
                    hKeeps c.shared (rely_refl Guar id _)
                      hSound.inv (hOk label effect hThread)
                      after next hEffect
                  simpa [stepThread, hThread, hEffect]
                    using hStep.2

theorem guar_step
    {c : Config Shared Label}
    (event : Event Task)
    (hSound : Sound Inv Guar ok c)
    (hOk : EventOk ok c event) :
    (step start c event).shared = c.shared ∨
      ∃ id, Guar id c.shared (step start c event).shared := by
  cases event with
  | spawn task => exact Or.inl rfl
  | run id =>
      have hStep :
          (stepThread c id).shared = c.shared ∨
            Guar id c.shared (stepThread c id).shared := by
        apply guar_stepThread hSound id
        intro label effect hThread
        simpa only [EventOk, hThread] using hOk
      rcases hStep with hSame | hGuar
      · exact Or.inl hSame
      · exact Or.inr ⟨id, hGuar⟩

/-
  If every task starts a valid thread, all of the threads
  are valid at the end of a run whose actions meet `ok`.
-/
theorem sound_exec
    (hStart :
      ∀ task id s, Inv s →
        Valid Inv Guar ok id s (start task id))
    {s : Shared}
    (hInit : Inv s)
    {events : List (Event Task)}
    (hMeets :
      Run.Meets (step start) (EventOk ok) (initial s) events) :
    Sound Inv Guar ok
      (Run.exec (step start) (initial s) events) := by
  have hInitial : Sound Inv Guar ok (initial s) :=
    ⟨hInit, by simp [initial]⟩
  exact Run.invariant_of_meets
    (fun c event hSound hOk =>
      sound_step hStart event hSound hOk)
    hInitial hMeets

/-
  If every task starts a valid thread, every run whose
  actions meet `ok` keeps the invariant.
-/
theorem sound
    (hStart :
      ∀ task id s, Inv s →
        Valid Inv Guar ok id s (start task id))
    {s : Shared}
    (hInit : Inv s)
    {events : List (Event Task)}
    (hMeets :
      Run.Meets (step start) (EventOk ok) (initial s) events) :
    Inv (Run.exec (step start) (initial s) events).shared :=
  (sound_exec hStart hInit hMeets).inv

/- A condition that always holds is met by every run. -/
theorem meets_of_forall
    (hOk : ∀ label s, ok label s)
    (c : Config Shared Label)
    (events : List (Event Task)) :
    Run.Meets (step start) (EventOk ok) c events := by
  induction events generalizing c with
  | nil => trivial
  | cons event rest ih =>
      refine ⟨?_, ih _⟩
      cases event with
      | spawn task => trivial
      | run id =>
          simp only [EventOk]
          split
          · exact hOk _ _
          · trivial

end Interleaving

--------------------
-- Threads that start fresh
--------------------

namespace Interleaving

variable {Shared Label Task : Type}
variable {Inv : Shared → Prop}
variable {Guar : Nat → Shared → Shared → Prop}
variable {ok : Label → Shared → Prop}
variable {Fresh : Nat → Shared → Prop}
variable {start : Task → Nat → Thread Shared Label}

/-
  Sound, and what no thread but `id` undoes holds of every
  id that is still to come.
-/
structure SoundFresh
    (Inv : Shared → Prop)
    (Guar : Nat → Shared → Shared → Prop)
    (ok : Label → Shared → Prop)
    (Fresh : Nat → Shared → Prop)
    (c : Config Shared Label) : Prop where
  sound : Sound Inv Guar ok c
  fresh : ∀ id, c.threads.length ≤ id → Fresh id c.shared

theorem length_stepThread
    (c : Config Shared Label)
    (id : Nat) :
    (stepThread c id).threads.length = c.threads.length := by
  unfold stepThread
  split
  · split
    · exact List.length_set
    · rfl
  · rfl

theorem stepThread_of_le
    {c : Config Shared Label}
    {id : Nat}
    (hNone : c.threads.length ≤ id) :
    stepThread c id = c := by
  unfold stepThread
  rw [List.getElem?_eq_none hNone]

theorem soundFresh_stepThread
    (hKept :
      ∀ other id s s', other ≠ id → Guar other s s' →
        Fresh id s → Fresh id s')
    {c : Config Shared Label}
    (hSound : SoundFresh Inv Guar ok Fresh c)
    (id : Nat)
    (hOk :
      ∀ label effect,
        c.threads[id]? = some (.act label effect) →
          ok label c.shared) :
    SoundFresh Inv Guar ok Fresh (stepThread c id) where
  sound := sound_stepThread hSound.sound id hOk
  fresh := by
    intro later hLater
    rw [length_stepThread] at hLater
    rcases Nat.lt_or_ge id c.threads.length with hIn | hOut
    · have hFresh := hSound.fresh later hLater
      rcases guar_stepThread hSound.sound id hOk
        with hSame | hGuar
      · rw [hSame]
        exact hFresh
      · exact hKept id later _ _ (by omega) hGuar hFresh
    · rw [stepThread_of_le hOut]
      exact hSound.fresh later hLater

theorem soundFresh_step
    (hKept :
      ∀ other id s s', other ≠ id → Guar other s s' →
        Fresh id s → Fresh id s')
    (hStart :
      ∀ task id s, Inv s → Fresh id s →
        Valid Inv Guar ok id s (start task id))
    {c : Config Shared Label}
    (event : Event Task)
    (hSound : SoundFresh Inv Guar ok Fresh c)
    (hOk : EventOk ok c event) :
    SoundFresh Inv Guar ok Fresh (step start c event) := by
  cases event with
  | run id =>
      refine soundFresh_stepThread hKept hSound id ?_
      intro label effect hThread
      simpa only [EventOk, hThread] using hOk
  | spawn task =>
      have hNew :
          Valid Inv Guar ok c.threads.length c.shared
            (start task c.threads.length) :=
        hStart task _ _ hSound.sound.inv
          (hSound.fresh _ (Nat.le_refl _))
      refine ⟨⟨hSound.sound.inv, ?_⟩, ?_⟩
      · intro id t hThread
        rcases Nat.lt_trichotomy id c.threads.length
          with hOld | rfl | hNone
        · rw [step, List.getElem?_append_left hOld] at hThread
          exact hSound.sound.threads id t hThread
        · rw [step, List.getElem?_concat_length] at hThread
          rw [← Option.some.inj hThread]
          exact hNew
        · rw [step, List.getElem?_eq_none] at hThread
          · cases hThread
          · rw [List.length_append, List.length_singleton]
            exact hNone
      · intro id hLater
        rw [step, List.length_append] at hLater
        exact
          hSound.fresh id (Nat.le_of_add_right_le hLater)

/-
  As `sound_exec`, where a thread may count on what no other
  thread undoes and the initial state has for every id.
-/
theorem soundFresh_exec
    (hKept :
      ∀ other id s s', other ≠ id → Guar other s s' →
        Fresh id s → Fresh id s')
    (hStart :
      ∀ task id s, Inv s → Fresh id s →
        Valid Inv Guar ok id s (start task id))
    {s : Shared}
    (hInit : Inv s)
    (hFresh : ∀ id, Fresh id s)
    {events : List (Event Task)}
    (hMeets :
      Run.Meets (step start) (EventOk ok) (initial s) events) :
    SoundFresh Inv Guar ok Fresh
      (Run.exec (step start) (initial s) events) := by
  have hInitial :
      SoundFresh Inv Guar ok Fresh (initial s) :=
    ⟨⟨hInit, by simp [initial]⟩, fun id _ => hFresh id⟩
  exact Run.invariant_of_meets
    (fun c event hSound hOk =>
      soundFresh_step hKept hStart event hSound hOk)
    hInitial hMeets

end Interleaving

--------------------
-- A thread alone
--------------------

namespace Interleaving

variable {Shared Label α : Type}

/- The state a thread ends in that nothing comes between. -/
inductive Alone :
    Shared → Thread Shared Label → Shared → Prop where
  | done (s : Shared) : Alone s .done s
  | act
      {s after last : Shared}
      {label : Label}
      {effect : Shared → Option (Shared × Thread Shared Label)}
      {next : Thread Shared Label}
      (hEffect : effect s = some (after, next))
      (hRest : Alone after next last) :
      Alone s (.act label effect) last

theorem alone_done_iff (s last : Shared) :
    Alone s (.done : Thread Shared Label) last ↔ last = s := by
  constructor
  · intro hAlone
    cases hAlone
    rfl
  · rintro rfl
    exact Alone.done _

theorem alone_atomic_iff
    (s last : Shared)
    (label : Label)
    (effect : Shared → Shared × α)
    (rest : α → Thread Shared Label) :
    Alone s (atomic label effect rest) last ↔
      Alone (effect s).1 (rest (effect s).2) last := by
  constructor
  · intro hAlone
    cases hAlone with
    | act hEffect hRest =>
        cases hEffect
        exact hRest
  · exact Alone.act rfl

end Interleaving
