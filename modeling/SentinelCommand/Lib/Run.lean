import Mathlib.Data.List.Induction

/-
  Finite runs of a deterministic machine.

  A machine is a function that takes a state and an action
  to the next state. A run is a list of actions, and a run
  meets a side condition when every action meets it in the
  state it is taken in.

  Key definitions include:
    * `Run.exec`
    * `Run.Meets`
    * `Run.stateAt`
    * `Run.HeldSince`, `Run.BeganBefore`

  Key theorems include:
    * `Run.exec_append`
    * `Run.meets_append`, `Run.meets_and`
    * `Run.meets_of_forall`
    * `Run.meets_iff_forall_prefix`
    * `Run.invariant_exec`
    * `Run.invariant_of_meets`, `Run.meets_of_invariant`
    * `Run.invariant_of_prefix`
    * `Run.good_exec_iff_meets`
    * `Run.kept_prefixes_iff_meets`
    * `Run.meets_iff_of_invariant`
    * `Run.good_prefixes_iff_meets`
    * `Run.countP_le_of_variant`
    * `Run.invariant_stateAt`, `Run.stays`
    * `Run.exists_change`
    * `Run.existsUnique_heldSince`, `Run.holds_exec_iff`
-/

--------------------
-- Runs
--------------------

namespace Run

variable {State Action : Type}

/- Play the actions in order. -/
def exec
    (step : State → Action → State)
    (s : State)
    (actions : List Action) : State :=
  actions.foldl step s

/- Every action meets `ok` in the state it is taken in. -/
def Meets
    (step : State → Action → State)
    (ok : State → Action → Prop) :
    State → List Action → Prop
| _, [] => True
| s, a :: rest => ok s a ∧ Meets step ok (step s a) rest

instance decidableMeets
    (step : State → Action → State)
    (ok : State → Action → Prop)
    [∀ s a, Decidable (ok s a)] :
    (s : State) → (actions : List Action) →
      Decidable (Meets step ok s actions)
| _, [] => isTrue trivial
| s, a :: rest =>
    match decidableMeets step ok (step s a) rest with
    | isTrue hRest =>
        if hHead : ok s a then
          isTrue ⟨hHead, hRest⟩
        else
          isFalse (fun h => hHead h.1)
    | isFalse hRest => isFalse (fun h => hRest h.2)

@[simp] theorem exec_nil
    (step : State → Action → State)
    (s : State) :
    exec step s [] = s := by
  rfl

@[simp] theorem exec_cons
    (step : State → Action → State)
    (s : State)
    (a : Action)
    (rest : List Action) :
    exec step s (a :: rest) = exec step (step s a) rest := by
  rfl

theorem exec_append
    (step : State → Action → State)
    (s : State)
    (first second : List Action) :
    exec step s (first ++ second) =
      exec step (exec step s first) second := by
  simp [exec, List.foldl_append]

@[simp] theorem meets_nil
    (step : State → Action → State)
    (ok : State → Action → Prop)
    (s : State) :
    Meets step ok s [] := by
  trivial

@[simp] theorem meets_cons
    (step : State → Action → State)
    (ok : State → Action → Prop)
    (s : State)
    (a : Action)
    (rest : List Action) :
    Meets step ok s (a :: rest) ↔
      ok s a ∧ Meets step ok (step s a) rest := by
  rfl

/- A run meets a condition when both of its halves do. -/
theorem meets_append
    (step : State → Action → State)
    (ok : State → Action → Prop)
    (s : State)
    (first second : List Action) :
    Meets step ok s (first ++ second) ↔
      Meets step ok s first ∧
        Meets step ok (exec step s first) second := by
  induction first generalizing s with
  | nil => simp
  | cons a first ih => simp [ih, and_assoc]

/- Two conditions at once. -/
theorem meets_and
    {step : State → Action → State}
    {ok ok' : State → Action → Prop}
    {s : State}
    {actions : List Action}
    (hLeft : Meets step ok s actions)
    (hRight : Meets step ok' s actions) :
    Meets step (fun s a => ok s a ∧ ok' s a) s actions := by
  induction actions generalizing s with
  | nil => trivial
  | cons a rest ih =>
      exact ⟨⟨hLeft.1, hRight.1⟩, ih hLeft.2 hRight.2⟩

/- What holds of each action in every state. -/
theorem meets_of_forall
    {step : State → Action → State}
    {ok : State → Action → Prop}
    {actions : List Action}
    (hAll : ∀ a ∈ actions, ∀ s, ok s a)
    (s : State) :
    Meets step ok s actions := by
  induction actions generalizing s with
  | nil => trivial
  | cons a rest ih =>
      exact
        ⟨hAll a List.mem_cons_self s,
          ih (fun b hIn => hAll b (List.mem_cons_of_mem a hIn))
            (step s a)⟩

/- A run meets a condition when each of its steps does. -/
theorem meets_iff_forall_prefix
    (step : State → Action → State)
    (ok : State → Action → Prop)
    (s : State)
    (actions : List Action) :
    Meets step ok s actions ↔
      ∀ past a, past ++ [a] <+: actions →
        ok (exec step s past) a := by
  constructor
  · rintro hMeets past a ⟨future, rfl⟩
    have hPast :=
      ((meets_append step ok s _ _).mp hMeets).1
    exact ((meets_append step ok s _ _).mp hPast).2.1
  · intro hSteps
    induction actions using List.reverseRecOn with
    | nil => trivial
    | append_singleton actions a ih =>
        apply (meets_append step ok s _ _).mpr
        constructor
        · apply ih
          intro past b hPrefix
          exact hSteps past b
            (hPrefix.trans (List.prefix_append _ _))
        · exact
            ⟨hSteps actions a (List.prefix_refl _), trivial⟩

--------------------
-- Invariants
--------------------

variable {step : State → Action → State}
variable {ok : State → Action → Prop}
variable {Inv : State → Prop}

/-
  An invariant kept by every step that meets `ok` holds at
  the end of every run that meets `ok`.
-/
theorem invariant_of_meets
    (hStep :
      ∀ s a, Inv s → ok s a → Inv (step s a))
    {s : State}
    {actions : List Action}
    (hInit : Inv s)
    (hMeets : Meets step ok s actions) :
    Inv (exec step s actions) := by
  induction actions generalizing s with
  | nil => exact hInit
  | cons a rest ih =>
      exact ih (hStep s a hInit hMeets.1) hMeets.2

/- A condition that an invariant ensures is always met. -/
theorem meets_of_invariant
    (hStep : ∀ s a, Inv s → Inv (step s a))
    (hOk : ∀ s a, Inv s → ok s a)
    {s : State}
    (actions : List Action)
    (hInit : Inv s) :
    Meets step ok s actions := by
  induction actions generalizing s with
  | nil => trivial
  | cons a rest ih =>
      exact ⟨hOk s a hInit, ih (hStep s a hInit)⟩

/- An invariant kept by every step holds at the end. -/
theorem invariant_exec
    (hStep : ∀ s a, Inv s → Inv (step s a))
    {s : State}
    (actions : List Action)
    (hInit : Inv s) :
    Inv (exec step s actions) := by
  induction actions generalizing s with
  | nil => exact hInit
  | cons a rest ih => exact ih (hStep s a hInit)

/-
  An invariant kept by every step that meets `ok` holds in
  every state along a run that meets `ok`.
-/
theorem invariant_of_prefix
    (hStep :
      ∀ s a, Inv s → ok s a → Inv (step s a))
    {s : State}
    {actions past : List Action}
    (hInit : Inv s)
    (hMeets : Meets step ok s actions)
    (hPrefix : past <+: actions) :
    Inv (exec step s past) := by
  rcases hPrefix with ⟨future, rfl⟩
  exact invariant_of_meets hStep hInit
    ((meets_append step ok s past future).mp hMeets).1

/-
  When a step of an allowed run keeps `Good` exactly when it
  meets `ok`, and never restores it, the run ends in a good
  state exactly when all of its steps met `ok`.
-/
theorem good_exec_iff_meets
    {allowed : State → Action → Prop}
    (Good : State → Prop)
    (hStep :
      ∀ s a, Inv s → allowed s a → Inv (step s a))
    (hGood :
      ∀ s a, Inv s → allowed s a →
        (Good (step s a) ↔ Good s ∧ ok s a))
    {s : State}
    {actions : List Action}
    (hInit : Inv s)
    (hAllowed : Meets step allowed s actions) :
    Good (exec step s actions) ↔
      Good s ∧ Meets step ok s actions := by
  induction actions generalizing s with
  | nil => simp
  | cons a rest ih =>
      rcases hAllowed with ⟨hHead, hRest⟩
      have hTail := ih (hStep s a hInit hHead) hRest
      rw [exec_cons, hTail, hGood s a hInit hHead, meets_cons,
        and_assoc]

/-
  When a step out of a good state keeps it good exactly when
  it meets `ok`, and the invariant lasts as long as the state
  is good, every state along a run is good exactly when the
  run meets `ok`.
-/
theorem kept_prefixes_iff_meets
    (Good : State → Prop)
    (hInv :
      ∀ s a, Inv s → Good s → ok s a → Inv (step s a))
    (hGood :
      ∀ s a, Inv s → Good s → (Good (step s a) ↔ ok s a))
    {s : State}
    (actions : List Action)
    (hStart : Inv s)
    (hInit : Good s) :
    (∀ past, past <+: actions → Good (exec step s past)) ↔
      Meets step ok s actions := by
  constructor
  · intro hAll
    induction actions generalizing s with
    | nil => trivial
    | cons a rest ih =>
        have hNext : Good (step s a) := by
          simpa using hAll [a] ⟨rest, rfl⟩
        have hOk := (hGood s a hStart hInit).mp hNext
        refine
          ⟨hOk, ih (hInv s a hStart hInit hOk) hNext ?_⟩
        intro past hPast
        have hLonger : a :: past <+: a :: rest :=
          (List.prefix_cons_inj a).mpr hPast
        simpa using hAll (a :: past) hLonger
  · intro hMeets past hPrefix
    have hBoth :
        ∀ s a, Inv s ∧ Good s → ok s a →
          Inv (step s a) ∧ Good (step s a) :=
      fun s a hNow hOk =>
        ⟨hInv s a hNow.1 hNow.2 hOk,
          (hGood s a hNow.1 hNow.2).mpr hOk⟩
    have hEnd :=
      invariant_of_prefix hBoth ⟨hStart, hInit⟩ hMeets hPrefix
    exact hEnd.2

/-
  Two conditions that agree wherever the invariant holds, one
  of which keeps it, are met by the same runs.
-/
theorem meets_iff_of_invariant
    {ok' : State → Action → Prop}
    (hStep :
      ∀ s a, Inv s → ok s a → Inv (step s a))
    (hSame : ∀ s a, Inv s → (ok' s a ↔ ok s a))
    {s : State}
    (actions : List Action)
    (hInit : Inv s) :
    Meets step ok' s actions ↔ Meets step ok s actions := by
  induction actions generalizing s with
  | nil => exact Iff.rfl
  | cons a rest ih =>
      constructor
      · rintro ⟨hHead, hRest⟩
        have hOk := (hSame s a hInit).mp hHead
        exact ⟨hOk, (ih (hStep s a hInit hOk)).mp hRest⟩
      · rintro ⟨hHead, hRest⟩
        exact
          ⟨(hSame s a hInit).mpr hHead,
            (ih (hStep s a hInit hHead)).mpr hRest⟩

/- The same when no invariant is needed. -/
theorem good_prefixes_iff_meets
    (Good : State → Prop)
    (hGood :
      ∀ s a, Good s → (Good (step s a) ↔ ok s a))
    {s : State}
    (actions : List Action)
    (hInit : Good s) :
    (∀ past, past <+: actions → Good (exec step s past)) ↔
      Meets step ok s actions := by
  have hNone : ∀ s a, True → Good s → ok s a → True :=
    fun _ _ _ _ _ => trivial
  exact
    kept_prefixes_iff_meets Good hNone
      (fun s a _ => hGood s a) actions trivial hInit

variable {Inv P : State → Prop}

/-
  While `P` lasts, the actions that each cost the variant
  one are no more than the variant was.
-/
theorem countP_le_of_variant
    (variant : State → Nat)
    (costs : Action → Bool)
    (hStep :
      ∀ s a, Inv s → ok s a → Inv (step s a))
    (hCost :
      ∀ s a, Inv s → ok s a → P s → P (step s a) →
        variant (step s a) + (if costs a then 1 else 0) ≤
          variant s)
    {s : State}
    {actions : List Action}
    (hInit : Inv s)
    (hMeets : Meets step ok s actions)
    (hLasts :
      ∀ past, past <+: actions → P (exec step s past)) :
    actions.countP costs ≤ variant s := by
  induction actions generalizing s with
  | nil => exact Nat.zero_le _
  | cons a rest ih =>
      have hNow : P s := hLasts [] (List.nil_prefix)
      have hNext : P (step s a) := hLasts [a] ⟨rest, rfl⟩
      have hRest : rest.countP costs ≤ variant (step s a) := by
        apply ih (hStep s a hInit hMeets.1) hMeets.2
        intro past hPast
        exact hLasts (a :: past)
          ((List.prefix_cons_inj a).mpr hPast)
      have hHead := hCost s a hInit hMeets.1 hNow hNext
      rw [List.countP_cons]
      omega

--------------------
-- Positions
--------------------

/- The state in which the action at a position is taken. -/
def stateAt
    (step : State → Action → State)
    (s : State)
    (actions : List Action)
    (i : Nat) : State :=
  exec step s (actions.take i)

/-
  `P` began to hold with the action at `i`, and has held in
  every state since.
-/
structure HeldSince
    (step : State → Action → State)
    (s : State)
    (actions : List Action)
    (P : State → Prop)
    (i : Nat) : Prop where
  inside : i < actions.length
  before : ¬ P (stateAt step s actions i)
  since :
    ∀ j, i < j → j ≤ actions.length →
      P (stateAt step s actions j)

variable {s : State}
variable {actions : List Action}
variable {i j : Nat}

theorem stateAt_of_length_le
    (hLong : actions.length ≤ i) :
    stateAt step s actions i = exec step s actions := by
  rw [stateAt, List.take_of_length_le hLong]

@[simp] theorem stateAt_length :
    stateAt step s actions actions.length =
      exec step s actions :=
  stateAt_of_length_le (Nat.le_refl _)

/- One more action. -/
theorem stateAt_succ
    {a : Action}
    (hAction : actions[i]? = some a) :
    stateAt step s actions (i + 1) =
      step (stateAt step s actions i) a := by
  rcases List.getElem?_eq_some_iff.mp hAction with ⟨hLt, rfl⟩
  rw [stateAt, List.take_succ_eq_append_getElem hLt,
    exec_append]
  rfl

/- Past the end nothing changes. -/
theorem stateAt_succ_of_none
    (hAction : actions[i]? = none) :
    stateAt step s actions (i + 1) =
      stateAt step s actions i := by
  have hLong := List.getElem?_eq_none_iff.mp hAction
  rw [stateAt_of_length_le hLong,
    stateAt_of_length_le (Nat.le_succ_of_le hLong)]

/- Later actions do not change the states before them. -/
theorem stateAt_append
    {later : List Action}
    (hLe : i ≤ actions.length) :
    stateAt step s (actions ++ later) i =
      stateAt step s actions i := by
  rw [stateAt, stateAt, List.take_append_of_le_length hLe]

theorem invariant_stateAt
    {Inv : State → Prop}
    (hStep : ∀ s a, Inv s → Inv (step s a))
    (hInit : Inv s)
    (i : Nat) :
    Inv (stateAt step s actions i) :=
  invariant_exec hStep (actions.take i) hInit

/-
  What no step undoes in a state that meets the invariant
  still holds later.
-/
theorem stays
    {Inv P : State → Prop}
    (hInv : ∀ s a, Inv s → Inv (step s a))
    (hStep : ∀ s a, Inv s → P s → P (step s a))
    (hInit : Inv s)
    (hLe : i ≤ j)
    (hHolds : P (stateAt step s actions i)) :
    P (stateAt step s actions j) := by
  induction hLe with
  | refl => exact hHolds
  | @step j _ ih =>
      cases hAction : actions[j]? with
      | none => rwa [stateAt_succ_of_none hAction]
      | some a =>
          rw [stateAt_succ hAction]
          exact hStep _ a (invariant_stateAt hInv hInit j) ih

/- Somewhere on the way, what holds at the end began. -/
theorem exists_change
    (P : State → Prop)
    (hBefore : ¬ P s)
    (hNow : P (stateAt step s actions j)) :
    ∃ i, i < j ∧ ¬ P (stateAt step s actions i) ∧
      P (stateAt step s actions (i + 1)) := by
  induction j with
  | zero => exact absurd hNow hBefore
  | succ j ih =>
      by_cases hPrev : P (stateAt step s actions j)
      · rcases ih hPrev with ⟨i, hLt, hChange⟩
        exact ⟨i, Nat.lt_succ_of_lt hLt, hChange⟩
      · exact ⟨j, Nat.lt_succ_self j, hPrev, hNow⟩

--------------------
-- How long something has held
--------------------

variable {P : State → Prop}

theorem heldSince_unique
    (hFirst : HeldSince step s actions P i)
    (hSecond : HeldSince step s actions P j) :
    i = j := by
  rcases Nat.lt_trichotomy i j with hLt | hEq | hLt
  · exact absurd
      (hFirst.since j hLt (Nat.le_of_lt hSecond.inside))
      hSecond.before
  · exact hEq
  · exact absurd
      (hSecond.since i hLt (Nat.le_of_lt hFirst.inside))
      hFirst.before

/- The last action began it. -/
theorem heldSince_last
    {a : Action}
    (hBefore : ¬ P (exec step s actions))
    (hNow : P (exec step s (actions ++ [a]))) :
    HeldSince step s (actions ++ [a]) P actions.length where
  inside := by simp
  before := by
    rw [stateAt_append (Nat.le_refl _), stateAt_length]
    exact hBefore
  since := by
    intro j hLt _
    rw [stateAt_of_length_le (by simp; omega)]
    exact hNow

/- The last action did not end it. -/
theorem heldSince_kept
    {a : Action}
    (hSince : HeldSince step s actions P i)
    (hNow : P (exec step s (actions ++ [a]))) :
    HeldSince step s (actions ++ [a]) P i where
  inside := by
    have hInside := hSince.inside
    simp only [List.length_append, List.length_singleton]
    omega
  before := by
    rw [stateAt_append (Nat.le_of_lt hSince.inside)]
    exact hSince.before
  since := by
    intro j hLt hLe
    by_cases hInside : j ≤ actions.length
    · rw [stateAt_append hInside]
      exact hSince.since j hLt hInside
    · rw [stateAt_of_length_le]
      · exact hNow
      · simp only [List.length_append, List.length_singleton]
        omega

/- What holds now and did not at first has a beginning. -/
theorem existsUnique_heldSince
    (hBefore : ¬ P s)
    (hNow : P (exec step s actions)) :
    ∃! i, HeldSince step s actions P i := by
  suffices hSome : ∃ i, HeldSince step s actions P i by
    rcases hSome with ⟨i, hSince⟩
    exact
      ⟨i, hSince, fun _ hOther =>
        heldSince_unique hOther hSince⟩
  induction actions using List.reverseRecOn with
  | nil => exact absurd hNow hBefore
  | append_singleton actions a ih =>
      by_cases hPrev : P (exec step s actions)
      · rcases ih hPrev with ⟨i, hSince⟩
        exact ⟨i, heldSince_kept hSince hNow⟩
      · exact ⟨_, heldSince_last hPrev hNow⟩

/-
  When each action says what it begins and what it ends, what
  holds after a run is what an action of it began and no
  later one ended.
-/
theorem holds_exec_iff
    {began : State → Action → Prop}
    {ends : Action → Prop}
    (hStep :
      ∀ s a, P (step s a) ↔ began s a ∨ (P s ∧ ¬ ends a))
    (hInit : ¬ P s)
    (actions : List Action) :
    P (exec step s actions) ↔
      ∃ before a after, actions = before ++ a :: after ∧
        began (exec step s before) a ∧
          ∀ later ∈ after, ¬ ends later := by
  induction actions using List.reverseRecOn with
  | nil =>
      constructor
      · intro hNow
        exact absurd hNow hInit
      · rintro ⟨before, a, after, hNil, -⟩
        simp at hNil
  | append_singleton actions a ih =>
      rw [exec_append, exec_cons, exec_nil, hStep, ih]
      constructor
      · rintro (hBegan | ⟨hHeld, hA⟩)
        · exact ⟨actions, a, [], rfl, hBegan, by simp⟩
        · rcases hHeld with ⟨before, b, after, rfl, hB, hNone⟩
          refine ⟨before, b, after ++ [a], by simp, hB, ?_⟩
          intro later hLater
          rcases List.mem_append.mp hLater with hOld | hLast
          · exact hNone later hOld
          · rw [List.mem_singleton.mp hLast]
            exact hA
      · rintro ⟨before, b, after, hSplit, hB, hNone⟩
        rcases List.eq_nil_or_concat after with rfl | ⟨rest, c, rfl⟩
        · rcases List.append_inj' hSplit rfl with ⟨rfl, hLast⟩
          cases hLast
          exact Or.inl hB
        · rw [List.concat_eq_append, ← List.cons_append,
            ← List.append_assoc] at hSplit
          rcases List.append_inj' hSplit rfl with ⟨hOld, hLast⟩
          cases hLast
          refine
            Or.inr
              ⟨⟨before, b, rest, hOld, hB, ?_⟩,
                hNone a (by simp)⟩
          intro later hLater
          exact hNone later (by simp [hLater])

/- `P` began before `Q`, and both have held since. -/
def BeganBefore
    (step : State → Action → State)
    (s : State)
    (actions : List Action)
    (P Q : State → Prop) : Prop :=
  ∃ i j, HeldSince step s actions P i ∧
    HeldSince step s actions Q j ∧ i < j

theorem beganBefore_kept
    {Q : State → Prop}
    {a : Action}
    (hBefore : BeganBefore step s actions P Q)
    (hFirst : P (exec step s (actions ++ [a])))
    (hSecond : Q (exec step s (actions ++ [a]))) :
    BeganBefore step s (actions ++ [a]) P Q := by
  rcases hBefore with ⟨i, j, hP, hQ, hLt⟩
  exact
    ⟨i, j, heldSince_kept hP hFirst, heldSince_kept hQ hSecond,
      hLt⟩

/- What the last action began is the latest. -/
theorem beganBefore_last
    {Q : State → Prop}
    {a : Action}
    (hInit : ¬ P s)
    (hHeld : P (exec step s actions))
    (hStill : P (exec step s (actions ++ [a])))
    (hBefore : ¬ Q (exec step s actions))
    (hNow : Q (exec step s (actions ++ [a]))) :
    BeganBefore step s (actions ++ [a]) P Q := by
  rcases (existsUnique_heldSince hInit hHeld).exists with
    ⟨i, hSince⟩
  exact
    ⟨i, actions.length, heldSince_kept hSince hStill,
      heldSince_last hBefore hNow, hSince.inside⟩

theorem lt_of_beganBefore
    {Q : State → Prop}
    (hBefore : BeganBefore step s actions P Q)
    (hFirst : HeldSince step s actions P i)
    (hSecond : HeldSince step s actions Q j) :
    i < j := by
  rcases hBefore with ⟨i', j', hP, hQ, hLt⟩
  rwa [heldSince_unique hFirst hP, heldSince_unique hSecond hQ]

end Run
