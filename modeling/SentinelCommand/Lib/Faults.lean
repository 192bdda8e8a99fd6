import Mathlib.Data.List.Basic

/-
  Handlers whose database statements may fail.

  A statement is swallowed, when the handler logs its error
  and goes on, or propagated, when the error ends the
  handler. Each kind has its own supply of outcomes, so any
  statement may fail in any combination. A store says which
  effects a database already has and how it takes one on;
  the world logs the effects that took hold.

  Key definitions include:
    * `Faults.Handler`
    * `Faults.Store`
    * `Faults.World.attempted`

  Key theorems include:
    * `Faults.mem_stored_attemptAll`
    * `Faults.mustAll_eq`, `Faults.mustAll_cases`
    * `Faults.keeps_bind`
-/

--------------------
-- Handlers
--------------------

namespace Faults

/- What happens to the statements of each kind, in order. -/
structure Outcomes where
  swallowed : Nat → Bool
  propagated : Nat → Bool

/- A database, the statements so far and the stored effects. -/
structure World (Db Effect : Type) where
  db : Db
  swallows : Nat
  propagates : Nat
  stored : List Effect

/- A world in which no statement has run. -/
def World.start
    {Effect Db : Type}
    (db : Db) : World Db Effect :=
  { db := db, swallows := 0, propagates := 0, stored := [] }

/- A handler answers or fails, and leaves a world. -/
def Handler (Db Effect α : Type) : Type :=
  Outcomes → World Db Effect →
    Except String α × World Db Effect

variable {Db Effect α β : Type}

instance : Monad (Handler Db Effect) where
  pure a := fun _ w => (.ok a, w)
  bind x f := fun o w =>
    match x o w with
    | (.ok a, later) => f a o later
    | (.error message, later) => (.error message, later)

theorem pure_run
    (a : α)
    (o : Outcomes)
    (w : World Db Effect) :
    (pure a : Handler Db Effect α) o w = (.ok a, w) := by
  rfl

theorem bind_run
    (x : Handler Db Effect α)
    (f : α → Handler Db Effect β)
    (o : Outcomes)
    (w : World Db Effect) :
    (x >>= f) o w =
      match x o w with
      | (.ok a, later) => f a o later
      | (.error message, later) => (.error message, later) := by
  rfl

theorem bind_ok
    {x : Handler Db Effect α}
    {f : α → Handler Db Effect β}
    {o : Outcomes}
    {w later : World Db Effect}
    {a : α}
    (hRun : x o w = (.ok a, later)) :
    (x >>= f) o w = f a o later := by
  rw [bind_run, hRun]

theorem bind_error
    {x : Handler Db Effect α}
    {f : α → Handler Db Effect β}
    {o : Outcomes}
    {w later : World Db Effect}
    {message : String}
    (hRun : x o w = (.error message, later)) :
    (x >>= f) o w = (.error message, later) := by
  rw [bind_run, hRun]

/- Read the database. -/
def read (f : Db → α) : Handler Db Effect α :=
  fun _ w => (.ok (f w.db), w)

/- Give up with a message. -/
def refuse (message : String) : Handler Db Effect α :=
  fun _ w => (.error message, w)

theorem read_run
    (f : Db → α)
    (o : Outcomes)
    (w : World Db Effect) :
    (read f : Handler Db Effect α) o w = (.ok (f w.db), w) := by
  rfl

theorem refuse_run
    (message : String)
    (o : Outcomes)
    (w : World Db Effect) :
    (refuse message : Handler Db Effect α) o w =
      (.error message, w) := by
  rfl

--------------------
-- Swallowed Statements
--------------------

variable {Db Effect : Type}

/- When an effect holds already, and how it is applied. -/
structure Store (Db Effect : Type) where
  holds : Effect → Db → Bool
  apply : Effect → Db → Db

/- A world after one swallowed statement. -/
def World.attempted
    (store : Store Db Effect)
    (o : Outcomes)
    (w : World Db Effect)
    (e : Effect) : World Db Effect :=
  if store.holds e w.db then
    { w with
      swallows := w.swallows + 1
      stored := w.stored ++ [e] }
  else if o.swallowed w.swallows then
    { w with
      db := store.apply e w.db
      swallows := w.swallows + 1
      stored := w.stored ++ [e] }
  else
    { w with swallows := w.swallows + 1 }

/- One statement whose error is logged and dropped. -/
def attempt
    (store : Store Db Effect)
    (e : Effect) : Handler Db Effect Unit :=
  fun o w => (.ok (), w.attempted store o e)

/- A swallowed statement that stands for no effect. -/
def swallow (apply : Db → Db) : Handler Db Effect Unit :=
  fun o w =>
    (.ok (),
      { w with
        db :=
          if o.swallowed w.swallows then apply w.db else w.db
        swallows := w.swallows + 1 })

/- The same for a list of effects, in order. -/
def World.attemptedAll
    (store : Store Db Effect)
    (o : Outcomes)
    (w : World Db Effect)
    (effects : List Effect) : World Db Effect :=
  effects.foldl (fun w e => w.attempted store o e) w

theorem attempt_run
    (store : Store Db Effect)
    (e : Effect)
    (o : Outcomes)
    (w : World Db Effect) :
    attempt store e o w = (.ok (), w.attempted store o e) := by
  rfl

@[simp] theorem attempted_swallows
    (store : Store Db Effect)
    (o : Outcomes)
    (w : World Db Effect)
    (e : Effect) :
    (w.attempted store o e).swallows = w.swallows + 1 := by
  unfold World.attempted
  split
  · rfl
  · split <;> rfl

@[simp] theorem attempted_propagates
    (store : Store Db Effect)
    (o : Outcomes)
    (w : World Db Effect)
    (e : Effect) :
    (w.attempted store o e).propagates = w.propagates := by
  unfold World.attempted
  split
  · rfl
  · split <;> rfl

/- A field no effect changes keeps its value. -/
theorem attempted_frame
    (store : Store Db Effect)
    {α : Type}
    (view : Db → α)
    (hFrame : ∀ e db, view (store.apply e db) = view db)
    (o : Outcomes)
    (w : World Db Effect)
    (e : Effect) :
    view (w.attempted store o e).db = view w.db := by
  unfold World.attempted
  split
  · rfl
  · split
    · exact hFrame e w.db
    · rfl

theorem attemptedAll_frame
    (store : Store Db Effect)
    {α : Type}
    (view : Db → α)
    (hFrame : ∀ e db, view (store.apply e db) = view db)
    (o : Outcomes)
    (w : World Db Effect)
    (effects : List Effect) :
    view (w.attemptedAll store o effects).db = view w.db := by
  induction effects generalizing w with
  | nil => rfl
  | cons e rest ih =>
      calc
        view (w.attemptedAll store o (e :: rest)).db
            = view (w.attempted store o e).db :=
          ih (w.attempted store o e)
        _ = view w.db :=
          attempted_frame store view hFrame o w e

theorem attemptedAll_propagates
    (store : Store Db Effect)
    (o : Outcomes)
    (w : World Db Effect)
    (effects : List Effect) :
    (w.attemptedAll store o effects).propagates =
      w.propagates := by
  induction effects generalizing w with
  | nil => rfl
  | cons e rest ih =>
      calc
        (w.attemptedAll store o (e :: rest)).propagates
            = (w.attempted store o e).propagates :=
          ih (w.attempted store o e)
        _ = w.propagates := attempted_propagates store o w e

theorem attemptedAll_swallows
    (store : Store Db Effect)
    (o : Outcomes)
    (w : World Db Effect)
    (effects : List Effect) :
    (w.attemptedAll store o effects).swallows =
      w.swallows + effects.length := by
  induction effects generalizing w with
  | nil => rfl
  | cons e rest ih =>
      calc
        (w.attemptedAll store o (e :: rest)).swallows
            = (w.attempted store o e).swallows + rest.length :=
          ih (w.attempted store o e)
        _ = w.swallows + (e :: rest).length := by
          rw [attempted_swallows, List.length_cons]
          omega

/- An effect takes hold when it held or its statement ran. -/
theorem mem_stored_attempted
    (store : Store Db Effect)
    (o : Outcomes)
    (w : World Db Effect)
    (e other : Effect) :
    other ∈ (w.attempted store o e).stored ↔
      other ∈ w.stored ∨
        (other = e ∧
          (store.holds e w.db = true ∨
            o.swallowed w.swallows = true)) := by
  unfold World.attempted
  by_cases hHolds : store.holds e w.db = true
  · simp [hHolds]
  · by_cases hOk : o.swallowed w.swallows = true
    · simp [hHolds, hOk]
    · simp [hHolds, hOk]

/-
  Whether an effect holds after another one is applied, for
  two effects that do not contend for one place.
-/
def Store.Agrees
    (store : Store Db Effect)
    (effects : List Effect) : Prop :=
  ∀ e ∈ effects, ∀ other ∈ effects, ∀ db,
    store.holds e (store.apply other db) = true ↔
      e = other ∨ store.holds e db = true

theorem holds_attempted
    {store : Store Db Effect}
    {effects : List Effect}
    (hAgrees : store.Agrees effects)
    {e other : Effect}
    (hMem : e ∈ effects)
    (hOther : other ∈ effects)
    (o : Outcomes)
    (w : World Db Effect) :
    store.holds e (w.attempted store o other).db = true ↔
      store.holds e w.db = true ∨
        (e = other ∧ o.swallowed w.swallows = true) := by
  unfold World.attempted
  by_cases hHolds : store.holds other w.db = true
  · rw [if_pos hHolds]
    constructor
    · exact Or.inl
    · rintro (hOld | ⟨rfl, _⟩)
      · exact hOld
      · exact hHolds
  · rw [if_neg hHolds]
    by_cases hOk : o.swallowed w.swallows = true
    · rw [if_pos hOk]
      have hApply := hAgrees e hMem other hOther w.db
      constructor
      · intro hNow
        rcases hApply.mp hNow with hSame | hOld
        · exact Or.inr ⟨hSame, hOk⟩
        · exact Or.inl hOld
      · rintro (hOld | ⟨hSame, _⟩)
        · exact hApply.mpr (Or.inr hOld)
        · exact hApply.mpr (Or.inl hSame)
    · simp [hOk]

/-
  The effects of a list of swallowed statements that took
  hold: those that held at first, and those one of whose
  statements succeeded.
-/
theorem mem_stored_attemptedAll
    {store : Store Db Effect}
    {all : List Effect}
    (hAgrees : store.Agrees all)
    (o : Outcomes)
    (effects : List Effect)
    (hSub : effects ⊆ all)
    (w : World Db Effect)
    (e : Effect) :
    e ∈ (w.attemptedAll store o effects).stored ↔
      e ∈ w.stored ∨
        (e ∈ effects ∧ store.holds e w.db = true) ∨
        ∃ i, effects[i]? = some e ∧
          o.swallowed (w.swallows + i) = true := by
  induction effects generalizing w with
  | nil => simp [World.attemptedAll]
  | cons head rest ih =>
      have hHead : head ∈ all := hSub List.mem_cons_self
      have hRest : rest ⊆ all :=
        fun x hx => hSub (List.mem_cons_of_mem head hx)
      have hStep := ih hRest (w.attempted store o head)
      have hUnfold :
          w.attemptedAll store o (head :: rest) =
            (w.attempted store o head).attemptedAll store o
              rest := rfl
      rw [hUnfold, hStep, mem_stored_attempted,
        attempted_swallows]
      constructor
      · rintro ((hOld | ⟨rfl, hHolds | hOk⟩) |
          ⟨hMem, hHolds⟩ | ⟨i, hAt, hOk⟩)
        · exact Or.inl hOld
        · exact
            Or.inr (Or.inl ⟨List.mem_cons_self, hHolds⟩)
        · exact Or.inr (Or.inr ⟨0, rfl, hOk⟩)
        · rcases
            (holds_attempted hAgrees (hRest hMem) hHead o
              w).mp hHolds with hOld | ⟨rfl, hOk⟩
          · exact
              Or.inr
                (Or.inl ⟨List.mem_cons_of_mem head hMem, hOld⟩)
          · exact Or.inr (Or.inr ⟨0, rfl, hOk⟩)
        · refine Or.inr (Or.inr ⟨i + 1, by simpa using hAt, ?_⟩)
          have hShift :
              w.swallows + (i + 1) = w.swallows + 1 + i := by
            omega
          rw [hShift]
          exact hOk
      · rintro (hOld | ⟨hMem, hHolds⟩ | ⟨i, hAt, hOk⟩)
        · exact Or.inl (Or.inl hOld)
        · rcases List.mem_cons.mp hMem with rfl | hTail
          · exact Or.inl (Or.inr ⟨rfl, Or.inl hHolds⟩)
          · refine Or.inr (Or.inl ⟨hTail, ?_⟩)
            exact
              (holds_attempted hAgrees (hRest hTail) hHead o
                w).mpr (Or.inl hHolds)
        · cases i with
          | zero =>
              cases hAt
              exact Or.inl (Or.inr ⟨rfl, Or.inr hOk⟩)
          | succ i =>
              refine
                Or.inr (Or.inr ⟨i, by simpa using hAt, ?_⟩)
              have hShift :
                  w.swallows + 1 + i =
                    w.swallows + (i + 1) := by
                omega
              rw [hShift]
              exact hOk

--------------------
-- Propagated Statements
--------------------

/- One statement whose error ends the handler. -/
def must
    (apply : Db → Db)
    (message : String) : Handler Db Effect Unit :=
  fun o w =>
    if o.propagated w.propagates then
      (.ok (),
        { w with
          db := apply w.db
          propagates := w.propagates + 1 })
    else
      (.error message,
        { w with propagates := w.propagates + 1 })

/- Such statements in order, up to the first that fails. -/
def mustAll
    (message : String) :
    List (Db → Db) → Handler Db Effect Unit
| [] => pure ()
| apply :: rest => do
    must apply message
    mustAll message rest

/- An effect the handler has brought about. -/
def note (e : Effect) : Handler Db Effect Unit :=
  fun _ w => (.ok (), { w with stored := w.stored ++ [e] })

/- The world after a list of statements that all succeed. -/
def World.applied
    (w : World Db Effect)
    (applies : List (Db → Db)) : World Db Effect :=
  { w with
    db := applies.foldl (fun db apply => apply db) w.db
    propagates := w.propagates + applies.length }

/- A list of propagated statements ends well or fails. -/
theorem mustAll_eq
    (message : String)
    (applies : List (Db → Db))
    (o : Outcomes)
    (w : World Db Effect) :
    ((∀ i, i < applies.length →
        o.propagated (w.propagates + i) = true) ∧
      mustAll message applies o w =
        (.ok (), w.applied applies)) ∨
    ((∃ i, i < applies.length ∧
        o.propagated (w.propagates + i) = false) ∧
      ∃ later, mustAll message applies o w =
          (.error message, later) ∧
        later.stored = w.stored) := by
  induction applies generalizing w with
  | nil =>
      refine Or.inl ⟨?_, rfl⟩
      intro i hi
      cases hi
  | cons apply rest ih =>
      cases hOk : o.propagated w.propagates with
      | false =>
          right
          refine ⟨⟨0, by simp, by simpa using hOk⟩, ?_⟩
          simp [mustAll, bind_run, must, hOk]
      | true =>
          have hRun :
              mustAll message (apply :: rest) o w =
                mustAll message rest o
                  { w with
                    db := apply w.db
                    propagates := w.propagates + 1 } := by
            simp [mustAll, bind_run, must, hOk]
          rw [hRun]
          rcases
            ih
              { w with
                db := apply w.db
                propagates := w.propagates + 1 } with
            ⟨hAll, hEq⟩ | ⟨⟨i, hi, hFails⟩, hEq⟩
          · refine Or.inl ⟨?_, ?_⟩
            · intro i hi
              cases i with
              | zero => simpa using hOk
              | succ i =>
                  have hNext :=
                    hAll i (Nat.lt_of_succ_lt_succ hi)
                  rw [← hNext]
                  congr 1
                  simp only
                  omega
            · rw [hEq]
              simp [World.applied, Nat.add_comm,
                Nat.add_assoc]
          · refine Or.inr ⟨⟨i + 1, by simpa using hi, ?_⟩, hEq⟩
            rw [← hFails]
            congr 1
            simp only
            omega

/- A field no statement changes keeps its value. -/
theorem mustAll_frame
    {α : Type}
    (view : Db → α)
    (message : String)
    (applies : List (Db → Db))
    (hFrame : ∀ apply ∈ applies, ∀ db, view (apply db) = view db)
    (o : Outcomes)
    (w : World Db Effect) :
    view (mustAll message applies o w).2.db = view w.db := by
  induction applies generalizing w with
  | nil => rfl
  | cons apply rest ih =>
      have hRest := ih
        (fun other hMem =>
          hFrame other (List.mem_cons_of_mem _ hMem))
      cases hOk : o.propagated w.propagates with
      | false => simp [mustAll, bind_run, must, hOk]
      | true =>
          simp only [mustAll, bind_run, must, hOk, if_true]
          rw [hRest]
          exact hFrame apply List.mem_cons_self w.db

/-
  A list of propagated statements ends well, or stops at the
  first that fails with what those before it did.
-/
theorem mustAll_cases
    (message : String)
    (applies : List (Db → Db))
    (o : Outcomes)
    (w : World Db Effect) :
    ((∀ i, i < applies.length →
        o.propagated (w.propagates + i) = true) ∧
      mustAll message applies o w =
        (.ok (), w.applied applies)) ∨
    (∃ i, i < applies.length ∧
      (∀ j, j < i → o.propagated (w.propagates + j) = true) ∧
      o.propagated (w.propagates + i) = false ∧
      (mustAll message applies o w).1 = .error message ∧
      (mustAll message applies o w).2.db =
        (w.applied (applies.take i)).db) := by
  induction applies generalizing w with
  | nil => exact Or.inl ⟨fun i hi => absurd hi (by simp), rfl⟩
  | cons apply rest ih =>
      cases hOk : o.propagated w.propagates with
      | false =>
          refine Or.inr ⟨0, by simp, ?_, by simpa using hOk, ?_⟩
          · intro j hj
            exact absurd hj (Nat.not_lt_zero j)
          · simp [mustAll, bind_run, must, hOk, World.applied]
      | true =>
          have hRun :
              mustAll message (apply :: rest) o w =
                mustAll message rest o
                  { w with
                    db := apply w.db
                    propagates := w.propagates + 1 } := by
            simp [mustAll, bind_run, must, hOk]
          have hShift (i : Nat) :
              w.propagates + (i + 1) = w.propagates + 1 + i := by
            omega
          rw [hRun]
          rcases
            ih
              { w with
                db := apply w.db
                propagates := w.propagates + 1 } with
            ⟨hAll, hEq⟩ | ⟨i, hi, hBefore, hFails, hError, hDb⟩
          · refine Or.inl ⟨?_, ?_⟩
            · intro i hi
              cases i with
              | zero => simpa using hOk
              | succ i =>
                  rw [hShift]
                  exact hAll i (Nat.lt_of_succ_lt_succ hi)
            · rw [hEq]
              simp [World.applied, Nat.add_comm,
                Nat.add_assoc]
          · refine Or.inr ⟨i + 1, by simpa using hi, ?_, ?_,
              hError, ?_⟩
            · intro j hj
              cases j with
              | zero => simpa using hOk
              | succ j =>
                  rw [hShift]
                  exact hBefore j (Nat.lt_of_succ_lt_succ hj)
            · rw [hShift]
              exact hFails
            · rw [hDb]
              rfl

--------------------
-- Queries and Transactions
--------------------

variable {Db Effect α : Type}

/- A query whose error ends the handler. -/
def query (f : Db → α) (message : String) : Handler Db Effect α :=
  fun o w =>
    if o.propagated w.propagates then
      (.ok (f w.db), { w with propagates := w.propagates + 1 })
    else
      (.error message,
        { w with propagates := w.propagates + 1 })

theorem query_ok
    {o : Outcomes}
    {w : World Db Effect}
    (f : Db → α)
    (message : String)
    (hOk : o.propagated w.propagates = true) :
    (query f message : Handler Db Effect α) o w =
      (.ok (f w.db),
        { w with propagates := w.propagates + 1 }) :=
  if_pos hOk

theorem query_failed
    {o : Outcomes}
    {w : World Db Effect}
    (f : Db → α)
    (message : String)
    (hFails : o.propagated w.propagates = false) :
    (query f message : Handler Db Effect α) o w =
      (.error message,
        { w with propagates := w.propagates + 1 }) :=
  if_neg (hFails.symm ▸ Bool.false_ne_true)

theorem must_ok
    {o : Outcomes}
    {w : World Db Effect}
    (apply : Db → Db)
    (message : String)
    (hOk : o.propagated w.propagates = true) :
    (must apply message : Handler Db Effect Unit) o w =
      (.ok (),
        { w with
          db := apply w.db
          propagates := w.propagates + 1 }) :=
  if_pos hOk

theorem must_failed
    {o : Outcomes}
    {w : World Db Effect}
    (apply : Db → Db)
    (message : String)
    (hFails : o.propagated w.propagates = false) :
    (must apply message : Handler Db Effect Unit) o w =
      (.error message,
        { w with propagates := w.propagates + 1 }) :=
  if_neg (hFails.symm ▸ Bool.false_ne_true)

/- A step that is not a statement and cannot fail. -/
def update (f : Db → Db) : Handler Db Effect Unit :=
  fun _ w => (.ok (), { w with db := f w.db })

/-
  A begin, so many statements and a commit. The error of any
  of them ends the handler and leaves the database alone.
-/
def transaction
    (message : String)
    (statements : Nat)
    (apply : Db → Db) : Handler Db Effect Unit :=
  fun o w =>
    match
      (List.range (statements + 2)).find?
        (fun i => !o.propagated (w.propagates + i)) with
    | some i =>
        (.error message,
          { w with propagates := w.propagates + i + 1 })
    | none =>
        (.ok (),
          { w with
            db := apply w.db
            propagates := w.propagates + statements + 2 })

--------------------
-- What a Handler Keeps
--------------------

variable {Db Effect α β : Type} {P : Db → Prop}

/- Wherever it ends, the handler leaves `P` as it found it. -/
def Keeps (P : Db → Prop) (x : Handler Db Effect α) : Prop :=
  ∀ o w, P w.db → P (x o w).2.db

theorem keeps_pure (a : α) :
    Keeps P (pure a : Handler Db Effect α) :=
  fun _ _ h => h

theorem keeps_refuse (message : String) :
    Keeps P (refuse message : Handler Db Effect α) :=
  fun _ _ h => h

theorem keeps_bind
    {x : Handler Db Effect α}
    {f : α → Handler Db Effect β}
    (hx : Keeps P x)
    (hf : ∀ a, Keeps P (f a)) :
    Keeps P (x >>= f) := by
  intro o w hP
  have hFirst := hx o w hP
  rw [bind_run]
  rcases hRun : x o w with ⟨answer, later⟩
  rw [hRun] at hFirst
  cases answer with
  | error message => exact hFirst
  | ok a => exact hf a o later hFirst

theorem keeps_query (f : Db → α) (message : String) :
    Keeps P (query f message : Handler Db Effect α) := by
  intro o w hP
  unfold query
  split <;> exact hP

/- A statement that fails changes nothing. -/
theorem keeps_must
    {apply : Db → Db}
    (hApply : ∀ db, P db → P (apply db))
    (message : String) :
    Keeps P (must apply message : Handler Db Effect Unit) := by
  intro o w hP
  unfold must
  split
  · exact hApply w.db hP
  · exact hP

theorem keeps_swallow
    {apply : Db → Db}
    (hApply : ∀ db, P db → P (apply db)) :
    Keeps P (swallow apply : Handler Db Effect Unit) := by
  intro o w hP
  unfold swallow
  dsimp only
  split
  · exact hApply w.db hP
  · exact hP

/- A write and, when it went through, what follows it. -/
theorem keeps_must_update
    {apply after : Db → Db}
    {rest : Handler Db Effect α}
    (hBoth : ∀ db, P db → P (after (apply db)))
    (message : String)
    (hRest : Keeps P rest) :
    Keeps P
      (must apply message >>= fun _ =>
        update after >>= fun _ => rest) := by
  intro o w hP
  rw [bind_run]
  cases hOk : o.propagated w.propagates with
  | false => simpa [must, hOk] using hP
  | true =>
      simp only [must, hOk, if_true]
      exact hRest o _ (hBoth w.db hP)

theorem keeps_transaction_update
    {apply after : Db → Db}
    {rest : Handler Db Effect α}
    (hBoth : ∀ db, P db → P (after (apply db)))
    (message : String)
    (statements : Nat)
    (hRest : Keeps P rest) :
    Keeps P
      (transaction message statements apply >>= fun _ =>
        update after >>= fun _ => rest) := by
  intro o w hP
  rw [bind_run]
  cases hFound :
    (List.range (statements + 2)).find?
      (fun i => !o.propagated (w.propagates + i)) with
  | some i =>
      simp only [transaction, hFound]
      exact hP
  | none =>
      simp only [transaction, hFound]
      exact hRest o _ (hBoth w.db hP)

end Faults
