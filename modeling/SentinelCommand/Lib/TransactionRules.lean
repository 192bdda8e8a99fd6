import SentinelCommand.Lib.Transactions

/-
  Rules for transactions that insert under a lock.

  A policy says under which lock a row may be stored. While a
  transaction holds the lock, the rows behind it are what it
  has read, so that what it commits keeps whatever the policy
  asks of the rows. Each statement has a rule, from what the
  transaction has before to what it has after.

  Key definitions include:
    * `Transactions.Own`
    * `Transactions.Policy`
    * `Transactions.Inv`, `Transactions.Guar`
    * `Transactions.Holding`

  Key theorems include:
    * `Transactions.own_of_rely`
    * `Transactions.holding_of_rely`
    * `Transactions.valid_lockFor`
    * `Transactions.valid_insertRow`
    * `Transactions.valid_commit`
    * `Transactions.inv_exec`
-/

--------------------
-- Policies
--------------------

namespace Transactions

open Interleaving

variable {Row Key Lock Answer : Type}

/- What one transaction has in the store. -/
structure Own (Row Lock Answer : Type) where
  stored : List Row
  writes : List (Nat × Row)
  failed : List Nat
  locks : List Lock
  answers : List Answer

def Own.none : Own Row Lock Answer where
  stored := []
  writes := []
  failed := []
  locks := []
  answers := []

def Store.own
    (s : Store Row Lock Answer)
    (tx : Nat) : Own Row Lock Answer where
  stored := mine tx s.stored
  writes := mine tx s.writes
  failed := mine tx s.failed
  locks := mine tx s.locks
  answers := mine tx s.answers

/-
  The unique key, the lock under which a row is stored, the
  rows there were, what the stored rows are to keep, and
  which answers are right for what a transaction stored.
-/
structure Policy (Row Key Lock Answer : Type) where
  key : Row → Key
  guard : Row → Lock
  initial : List Row
  Keeps : List Row → Prop
  Honest : Answer → List Row → Prop

/- A lock is held by one transaction at a time. -/
def Exclusive (locks : List (Nat × Lock)) : Prop :=
  ∀ lock first second,
    (first, lock) ∈ locks → (second, lock) ∈ locks →
      first = second

structure Inv
    (p : Policy Row Key Lock Answer)
    (s : Store Row Lock Answer) : Prop where
  rows : s.rows = p.initial ++ s.stored.map (·.2)
  unique :
    ((s.rows ++ s.writes.map (·.2.2)).map p.key).Nodup
  exclusive : Exclusive s.locks
  keeps : p.Keeps s.rows
  honest :
    ∀ tx, ∀ answer ∈ (s.own tx).answers,
      p.Honest answer (s.own tx).stored

/-
  A transaction leaves alone what the others have, and stores
  rows only under their locks.
-/
structure Guar
    (p : Policy Row Key Lock Answer)
    (tx : Nat)
    (s s' : Store Row Lock Answer) : Prop where
  others : ∀ other, other ≠ tx → s'.own other = s.own other
  rows :
    ∃ more, s'.rows = s.rows ++ more ∧
      ∀ row ∈ more, p.guard row ∈ (s.own tx).locks
  exclusive : Exclusive s.locks → Exclusive s'.locks

abbrev TxValid
    (p : Policy Row Key Lock Answer)
    (tx : Nat) :
    Store Row Lock Answer → TxThread Row Lock Answer → Prop :=
  Valid (Inv p) (Guar p) (fun _ _ => True) tx

end Transactions

--------------------
-- What a Statement Changes
--------------------

namespace Transactions

variable {Row Key Lock Answer : Type}
variable {tx other : Nat} {s : Store Row Lock Answer}

theorem own_acquire (lock : Lock) :
    (s.acquire tx lock).own tx =
      { s.own tx with
        locks := (s.own tx).locks ++ [lock] } := by
  simp [Store.own, Store.acquire]

theorem own_acquire_ne
    (hOther : other ≠ tx)
    (lock : Lock) :
    (s.acquire tx lock).own other = s.own other := by
  simp [Store.own, Store.acquire, mine_tagged_ne hOther]

theorem own_write (level : Nat) (row : Row) :
    (s.write tx level row).own tx =
      { s.own tx with
        writes := (s.own tx).writes ++ [(level, row)] } := by
  simp [Store.own, Store.write]

theorem own_write_ne
    (hOther : other ≠ tx)
    (level : Nat)
    (row : Row) :
    (s.write tx level row).own other = s.own other := by
  simp [Store.own, Store.write, mine_tagged_ne hOther]

theorem own_fail (level : Nat) :
    (s.fail tx level).own tx =
      { s.own tx with
        failed := (s.own tx).failed ++ [level] } := by
  simp [Store.own, Store.fail]

theorem own_fail_ne
    (hOther : other ≠ tx)
    (level : Nat) :
    (s.fail tx level).own other = s.own other := by
  simp [Store.own, Store.fail, mine_tagged_ne hOther]

/- What is left of what a transaction has. -/
def Own.rollbackTo
    (own : Own Row Lock Answer)
    (level : Nat) : Own Row Lock Answer :=
  { own with
    writes := own.writes.filter (fun w => w.1 < level)
    failed := own.failed.filter (fun l => l < level) }

def Own.release
    (own : Own Row Lock Answer)
    (level : Nat) : Own Row Lock Answer :=
  { own with
    writes :=
      own.writes.map (fun w => (min w.1 (level - 1), w.2)) }

def Own.drop
    (own : Own Row Lock Answer) : Own Row Lock Answer :=
  { own with
    writes := []
    failed := []
    locks := [] }

def Own.commit
    (own : Own Row Lock Answer) : Own Row Lock Answer :=
  { own.drop with stored := own.stored ++ own.writes.map (·.2) }

def Own.answer
    (own : Own Row Lock Answer)
    (answer : Answer) : Own Row Lock Answer :=
  { own with answers := own.answers ++ [answer] }

theorem own_rollbackTo (level : Nat) :
    (s.rollbackTo tx level).own tx =
      (s.own tx).rollbackTo level := by
  simp [Store.own, Store.rollbackTo, Own.rollbackTo]

theorem own_rollbackTo_ne
    (hOther : other ≠ tx)
    (level : Nat) :
    (s.rollbackTo tx level).own other = s.own other := by
  simp [Store.own, Store.rollbackTo, mine_keepMine_ne hOther]

theorem own_release (level : Nat) :
    (s.release tx level).own tx =
      (s.own tx).release level := by
  simp [Store.own, Store.release, Own.release]

theorem own_release_ne
    (hOther : other ≠ tx)
    (level : Nat) :
    (s.release tx level).own other = s.own other := by
  simp [Store.own, Store.release, mine_mapMine_ne hOther]

theorem own_drop : (s.drop tx).own tx = (s.own tx).drop := by
  simp [Store.own, Store.drop, Own.drop]

theorem own_drop_ne (hOther : other ≠ tx) :
    (s.drop tx).own other = s.own other := by
  simp [Store.own, Store.drop, mine_keepMine_ne hOther]

theorem commit_of_failed_nil
    (hFailed : (s.own tx).failed = []) :
    s.commit tx =
      { s.drop tx with
        rows := s.rows ++ s.written tx
        stored := s.stored ++ tagged tx (s.written tx) } := by
  have hNone : mine tx s.failed = [] := hFailed
  simp [Store.commit, hNone]

theorem own_commit (hFailed : (s.own tx).failed = []) :
    (s.commit tx).own tx = (s.own tx).commit := by
  rw [commit_of_failed_nil hFailed]
  simp [Store.own, Store.drop, Own.commit, Own.drop,
    Store.written]

theorem own_commit_ne
    (hOther : other ≠ tx)
    (hFailed : (s.own tx).failed = []) :
    (s.commit tx).own other = s.own other := by
  rw [commit_of_failed_nil hFailed]
  simp [Store.own, Store.drop, mine_keepMine_ne hOther,
    mine_tagged_ne hOther]

theorem own_answer (answer : Answer) :
    (s.answer tx answer).own tx =
      (s.own tx).answer answer := by
  simp [Store.own, Store.answer, Own.answer]

theorem own_answer_ne
    (hOther : other ≠ tx)
    (answer : Answer) :
    (s.answer tx answer).own other = s.own other := by
  simp [Store.own, Store.answer, mine_tagged_ne hOther]

end Transactions

--------------------
-- What the Others Leave
--------------------

namespace Transactions

open Interleaving

variable {Row Key Lock Answer : Type}
variable {p : Policy Row Key Lock Answer} {tx : Nat}
variable {s s' : Store Row Lock Answer}
variable {own : Own Row Lock Answer}

theorem own_of_rely
    (hRely : Rely (Guar p) tx s s')
    (hOwn : s.own tx = own) :
    s'.own tx = own := by
  apply rely_stable (P := fun now => now.own tx = own) ?_ hRely
    hOwn
  intro other before after hOther hGuar hBefore
  rw [hGuar.others tx (Ne.symm hOther)]
  exact hBefore

variable [DecidableEq Lock]

/- The transaction's part, and the rows behind its lock. -/
structure Holding
    (p : Policy Row Key Lock Answer)
    (tx : Nat)
    (own : Own Row Lock Answer)
    (lock : Lock)
    (rows : List Row)
    (s : Store Row Lock Answer) : Prop where
  part : s.own tx = own
  held : lock ∈ own.locks
  exclusive : Exclusive s.locks
  rows : s.rows.filter (fun row => p.guard row = lock) = rows

/- Nobody else stores a row behind a lock that is held. -/
theorem holding_of_rely
    {lock : Lock}
    {rows : List Row}
    (hRely : Rely (Guar p) tx s s')
    (hHolding : Holding p tx own lock rows s) :
    Holding p tx own lock rows s' := by
  apply rely_stable (P := Holding p tx own lock rows) ?_ hRely
    hHolding
  intro other before after hOther hGuar hBefore
  refine
    ⟨?_, hBefore.held, hGuar.exclusive hBefore.exclusive, ?_⟩
  · rw [hGuar.others tx (Ne.symm hOther)]
    exact hBefore.part
  · obtain ⟨more, hRows, hUnder⟩ := hGuar.rows
    have hMine : (tx, lock) ∈ before.locks := by
      have hHeld := hBefore.held
      rw [← hBefore.part] at hHeld
      exact mem_mine.mp hHeld
    have hNone :
        more.filter (fun row => p.guard row = lock) = [] := by
      rw [List.filter_eq_nil_iff]
      intro row hRow hGuarded
      have hTheirs := mem_mine.mp (hUnder row hRow)
      rw [of_decide_eq_true hGuarded] at hTheirs
      exact hOther (hBefore.exclusive _ _ _ hTheirs hMine)
    rw [hRows, List.filter_append, hNone, List.append_nil]
    exact hBefore.rows

end Transactions

--------------------
-- Quiet Statements
--------------------

namespace Transactions

variable {Row Key Lock Answer : Type}
variable {p : Policy Row Key Lock Answer} {tx : Nat}
variable {s s' : Store Row Lock Answer}
variable {own : Own Row Lock Answer}

/- Nothing is stored or answered, written or locked anew. -/
structure Quiet
    (tx : Nat)
    (s s' : Store Row Lock Answer) : Prop where
  rows : s'.rows = s.rows
  stored : s'.stored = s.stored
  answers : s'.answers = s.answers
  writes :
    List.Sublist (s'.writes.map (·.2.2))
      (s.writes.map (·.2.2))
  locks : List.Sublist s'.locks s.locks
  others : ∀ other, other ≠ tx → s'.own other = s.own other

theorem quiet_rollbackTo (level : Nat) :
    Quiet tx s (s.rollbackTo tx level) where
  rows := rfl
  stored := rfl
  answers := rfl
  writes :=
    (keepMine_sublist tx (fun w => w.1 < level) s.writes).map _
  locks := List.Sublist.refl _
  others := fun _ hOther => own_rollbackTo_ne hOther level

theorem quiet_release (level : Nat) :
    Quiet tx s (s.release tx level) where
  rows := rfl
  stored := rfl
  answers := rfl
  writes := by
    have hSame :
        (s.release tx level).writes.map (·.2.2) =
          s.writes.map (·.2.2) :=
      map_mapMine (g := Prod.snd)
        (f := fun w => (min w.1 (level - 1), w.2))
        (fun _ => rfl) s.writes
    rw [hSame]
  locks := List.Sublist.refl _
  others := fun _ hOther => own_release_ne hOther level

theorem quiet_fail (level : Nat) :
    Quiet tx s (s.fail tx level) where
  rows := rfl
  stored := rfl
  answers := rfl
  writes := List.Sublist.refl _
  locks := List.Sublist.refl _
  others := fun _ hOther => own_fail_ne hOther level

theorem quiet_drop : Quiet tx s (s.drop tx) where
  rows := rfl
  stored := rfl
  answers := rfl
  writes :=
    (keepMine_sublist tx (fun _ => false) s.writes).map _
  locks := keepMine_sublist tx (fun _ => false) s.locks
  others := fun _ hOther => own_drop_ne hOther

theorem exclusive_of_sublist
    {locks locks' : List (Nat × Lock)}
    (hLess : List.Sublist locks' locks)
    (hExclusive : Exclusive locks) :
    Exclusive locks' := by
  intro lock first second hFirst hSecond
  exact
    hExclusive lock first second (hLess.subset hFirst)
      (hLess.subset hSecond)

theorem inv_of_quiet
    (hQuiet : Quiet tx s s')
    (hInv : Inv p s) :
    Inv p s' where
  rows := by
    rw [hQuiet.rows, hQuiet.stored]
    exact hInv.rows
  unique := by
    rw [hQuiet.rows]
    refine List.Nodup.sublist ?_ hInv.unique
    exact
      ((List.Sublist.refl s.rows).append hQuiet.writes).map
        p.key
  exclusive := exclusive_of_sublist hQuiet.locks hInv.exclusive
  keeps := by
    rw [hQuiet.rows]
    exact hInv.keeps
  honest := by
    intro tx' answer hAnswer
    have hHonest := hInv.honest tx' answer
    unfold Store.own at hAnswer hHonest ⊢
    rw [hQuiet.answers] at hAnswer
    rw [hQuiet.stored]
    exact hHonest hAnswer

theorem guar_of_quiet (hQuiet : Quiet tx s s') :
    Guar p tx s s' where
  others := hQuiet.others
  rows := ⟨[], by rw [hQuiet.rows, List.append_nil], by simp⟩
  exclusive := exclusive_of_sublist hQuiet.locks

end Transactions

--------------------
-- What Is Still Held
--------------------

namespace Transactions

variable {Row Key Lock Answer : Type} [DecidableEq Lock]
variable {p : Policy Row Key Lock Answer} {tx : Nat}
variable {s s' : Store Row Lock Answer}
variable {own : Own Row Lock Answer}
variable {lock : Lock} {rows : List Row}

theorem holding_of_quiet
    {own' : Own Row Lock Answer}
    (hQuiet : Quiet tx s s')
    (hOwn : s'.own tx = own')
    (hHeld : lock ∈ own'.locks)
    (hHolding : Holding p tx own lock rows s) :
    Holding p tx own' lock rows s' where
  part := hOwn
  held := hHeld
  exclusive :=
    exclusive_of_sublist hQuiet.locks hHolding.exclusive
  rows := by
    rw [hQuiet.rows]
    exact hHolding.rows

theorem holding_fail
    (level : Nat)
    (hHolding : Holding p tx own lock rows s) :
    Holding p tx { own with failed := own.failed ++ [level] }
      lock rows (s.fail tx level) := by
  refine holding_of_quiet (quiet_fail level) ?_ ?_ hHolding
  · rw [own_fail, hHolding.part]
  · exact hHolding.held

theorem holding_write
    (level : Nat)
    (row : Row)
    (hHolding : Holding p tx own lock rows s) :
    Holding p tx
      { own with writes := own.writes ++ [(level, row)] }
      lock rows (s.write tx level row) where
  part := by rw [own_write, hHolding.part]
  held := hHolding.held
  exclusive := hHolding.exclusive
  rows := hHolding.rows

end Transactions

--------------------
-- Rules
--------------------

namespace Transactions

open Interleaving

variable {α Row Key Lock Answer : Type}
variable {p : Policy Row Key Lock Answer} {tx : Nat}
variable {s : Store Row Lock Answer}
variable {own : Own Row Lock Answer}
variable {rest : TxThread Row Lock Answer}

theorem guar_refl (s : Store Row Lock Answer) :
    Guar p tx s s where
  others := fun _ _ => rfl
  rows := ⟨[], (List.append_nil _).symm, by simp⟩
  exclusive := id

theorem valid_run_quiet
    {effect : Store Row Lock Answer → Store Row Lock Answer}
    (hQuiet : ∀ now, Quiet tx now (effect now))
    (hRest :
      ∀ now, Rely (Guar p) tx s now → Inv p now →
        TxValid p tx (effect now) rest) :
    TxValid p tx s (run effect rest) := by
  apply valid_atomic
  intro now hRely hInv _
  exact
    ⟨inv_of_quiet (hQuiet now) hInv, guar_of_quiet (hQuiet now),
      hRest now hRely hInv⟩

theorem valid_drop
    (hOwn : s.own tx = own)
    (hRest :
      ∀ now, now.own tx = own.drop → TxValid p tx now rest) :
    TxValid p tx s (run (·.drop tx) rest) := by
  apply valid_run_quiet (fun now => quiet_drop)
  intro now hRely _
  apply hRest
  rw [own_drop, own_of_rely hRely hOwn]

variable [DecidableEq Lock] {lock : Lock} {rows : List Row}

theorem valid_read
    {f : Store Row Lock Answer → α}
    {next : α → TxThread Row Lock Answer}
    (hHolding : Holding p tx own lock rows s)
    (hNext :
      ∀ now, Holding p tx own lock rows now →
        TxValid p tx now (next (f now))) :
    TxValid p tx s (read f next) := by
  apply valid_atomic
  intro now hRely hInv _
  exact
    ⟨hInv, guar_refl now,
      hNext now (holding_of_rely hRely hHolding)⟩

theorem valid_rollbackTo
    {level : Nat}
    (hHolding : Holding p tx own lock rows s)
    (hRest :
      ∀ now,
        Holding p tx (own.rollbackTo level) lock rows now →
          TxValid p tx now rest) :
    TxValid p tx s (run (·.rollbackTo tx level) rest) := by
  apply valid_run_quiet (fun now => quiet_rollbackTo level)
  intro now hRely _
  have hNow := holding_of_rely hRely hHolding
  apply hRest
  refine holding_of_quiet (quiet_rollbackTo level) ?_ ?_ hNow
  · rw [own_rollbackTo, hNow.part]
  · exact hNow.held

theorem valid_release
    {level : Nat}
    (hHolding : Holding p tx own lock rows s)
    (hRest :
      ∀ now, Holding p tx (own.release level) lock rows now →
        TxValid p tx now rest) :
    TxValid p tx s (run (·.release tx level) rest) := by
  apply valid_run_quiet (fun now => quiet_release level)
  intro now hRely _
  have hNow := holding_of_rely hRely hHolding
  apply hRest
  refine holding_of_quiet (quiet_release level) ?_ ?_ hNow
  · rw [own_release, hNow.part]
  · exact hNow.held

end Transactions

--------------------
-- Answers
--------------------

namespace Transactions

open Interleaving

variable {Row Key Lock Answer : Type}
variable {p : Policy Row Key Lock Answer} {tx : Nat}
variable {s : Store Row Lock Answer}
variable {own : Own Row Lock Answer}
variable {rest : TxThread Row Lock Answer}

theorem inv_answer
    {answer : Answer}
    (hHonest : p.Honest answer (s.own tx).stored)
    (hInv : Inv p s) :
    Inv p (s.answer tx answer) where
  rows := hInv.rows
  unique := hInv.unique
  exclusive := hInv.exclusive
  keeps := hInv.keeps
  honest := by
    intro other given hGiven
    have hSame :
        ((s.answer tx answer).own other).stored =
          (s.own other).stored := rfl
    rw [hSame]
    by_cases hOther : other = tx
    · subst hOther
      rw [own_answer] at hGiven
      rcases List.mem_append.mp hGiven with hOld | hNew
      · exact hInv.honest other given hOld
      · rw [List.mem_singleton.mp hNew]
        exact hHonest
    · rw [own_answer_ne hOther] at hGiven
      exact hInv.honest other given hGiven

theorem valid_answer
    {answer : Answer}
    (hOwn : s.own tx = own)
    (hHonest : p.Honest answer own.stored)
    (hRest :
      ∀ now, now.own tx = own.answer answer →
        TxValid p tx now rest) :
    TxValid p tx s (run (·.answer tx answer) rest) := by
  apply valid_atomic
  intro now hRely hInv _
  have hNow := own_of_rely hRely hOwn
  refine ⟨inv_answer ?_ hInv, ?_, hRest _ ?_⟩
  · rw [hNow]
    exact hHonest
  · exact
      { others := fun _ hOther => own_answer_ne hOther answer
        rows := ⟨[], (List.append_nil _).symm, by simp⟩
        exclusive := id }
  · rw [own_answer, hNow]

end Transactions

--------------------
-- Locks
--------------------

namespace Transactions

open Interleaving

variable {Row Key Lock Answer : Type} [DecidableEq Lock]
variable {p : Policy Row Key Lock Answer} {tx : Nat}
variable {s : Store Row Lock Answer}
variable {own : Own Row Lock Answer}
variable {lock : Lock}
variable {rest : TxThread Row Lock Answer}

theorem freeFor_iff :
    s.freeFor tx lock = true ↔
      ∀ holder, (holder, lock) ∈ s.locks → holder = tx := by
  unfold Store.freeFor
  rw [List.all_eq_true]
  constructor
  · intro hFree holder hHeld
    have hHolder := hFree _ hHeld
    simpa using hHolder
  · rintro hFree ⟨holder, held⟩ hHeld
    by_cases hLock : held = lock
    · subst hLock
      simp [hFree holder hHeld]
    · simp [hLock]

theorem exclusive_acquire
    (hFree : s.freeFor tx lock = true)
    (hExclusive : Exclusive s.locks) :
    Exclusive (s.acquire tx lock).locks := by
  rw [freeFor_iff] at hFree
  have hMem
      (holder : Nat)
      (held : Lock)
      (hHeld : (holder, held) ∈ (s.acquire tx lock).locks) :
      (holder, held) ∈ s.locks ∨ holder = tx ∧ held = lock := by
    simpa [Store.acquire, tagged] using hHeld
  intro held first second hFirst hSecond
  rcases hMem first held hFirst with hOld | ⟨rfl, rfl⟩
  · rcases hMem second held hSecond with hOld' | ⟨rfl, rfl⟩
    · exact hExclusive held first second hOld hOld'
    · exact hFree first hOld
  · rcases hMem second held hSecond with hOld' | ⟨hSame, _⟩
    · exact (hFree second hOld').symm
    · exact hSame.symm

theorem inv_acquire
    (hFree : s.freeFor tx lock = true)
    (hInv : Inv p s) :
    Inv p (s.acquire tx lock) where
  rows := hInv.rows
  unique := hInv.unique
  exclusive := exclusive_acquire hFree hInv.exclusive
  keeps := hInv.keeps
  honest := hInv.honest

theorem guar_acquire (hFree : s.freeFor tx lock = true) :
    Guar p tx s (s.acquire tx lock) where
  others := fun _ hOther => own_acquire_ne hOther lock
  rows := ⟨[], (List.append_nil _).symm, by simp⟩
  exclusive := exclusive_acquire hFree

/- From its lock on the rows behind it are known. -/
theorem valid_lockFor
    (hOwn : s.own tx = own)
    (hRest :
      ∀ rows now,
        Holding p tx { own with locks := own.locks ++ [lock] }
            lock rows now →
          TxValid p tx now rest) :
    TxValid p tx s (lockFor tx lock rest) := by
  apply valid_await
  intro now hRely hInv _ hFree
  have hHolding :
      Holding p tx { own with locks := own.locks ++ [lock] }
        lock
        (now.rows.filter (fun row => p.guard row = lock))
        (now.acquire tx lock) :=
    { part := by rw [own_acquire, own_of_rely hRely hOwn]
      held := List.mem_append_right _ (List.mem_singleton_self _)
      exclusive := exclusive_acquire hFree hInv.exclusive
      rows := rfl }
  exact
    ⟨inv_acquire hFree hInv, guar_acquire hFree,
      hRest _ _ hHolding⟩

end Transactions

--------------------
-- Inserts
--------------------

namespace Transactions

open Interleaving

variable {Row Key Lock Answer : Type}
variable {p : Policy Row Key Lock Answer} {tx : Nat}
variable {s : Store Row Lock Answer}
variable {own : Own Row Lock Answer}

theorem guar_write (level : Nat) (row : Row) :
    Guar p tx s (s.write tx level row) where
  others := fun _ hOther => own_write_ne hOther level row
  rows := ⟨[], (List.append_nil _).symm, by simp⟩
  exclusive := id

variable [DecidableEq Key]

/- Neither waiting nor refused, the key is nowhere. -/
theorem key_free
    {row : Row}
    (hGoes : s.waits p.key tx row = false)
    (hFree : s.taken p.key tx row = false) :
    p.key row ∉
      (s.rows ++ s.writes.map (·.2.2)).map p.key := by
  rw [List.map_append, List.mem_append, not_or]
  unfold Store.waits at hGoes
  unfold Store.taken Store.visible Store.written at hFree
  rw [List.any_eq_false] at hGoes hFree
  constructor
  · intro hRows
    obtain ⟨seen, hSeen, hKey⟩ := List.mem_map.mp hRows
    refine hFree seen (List.mem_append_left _ hSeen) ?_
    exact decide_eq_true hKey
  · intro hWrites
    rw [List.map_map] at hWrites
    obtain ⟨⟨writer, level, seen⟩, hWrite, hKey⟩ :=
      List.mem_map.mp hWrites
    by_cases hMine : writer = tx
    · subst hMine
      have hVisible :
          seen ∈ (mine writer s.writes).map (·.2) :=
        List.mem_map.mpr ⟨(level, seen), mem_mine.mpr hWrite, rfl⟩
      refine hFree seen (List.mem_append_right _ hVisible) ?_
      exact decide_eq_true hKey
    · refine hGoes _ hWrite ?_
      simpa [hMine] using hKey

theorem inv_write
    {level : Nat}
    {row : Row}
    (hGoes : s.waits p.key tx row = false)
    (hFree : s.taken p.key tx row = false)
    (hInv : Inv p s) :
    Inv p (s.write tx level row) where
  rows := hInv.rows
  unique := by
    have hRows :
        (s.write tx level row).rows ++
            (s.write tx level row).writes.map (·.2.2) =
          (s.rows ++ s.writes.map (·.2.2)) ++ [row] := by
      simp [Store.write, tagged]
    rw [hRows, List.map_append, List.map_singleton,
      ← List.concat_eq_append]
    exact hInv.unique.concat (key_free hGoes hFree)
  exclusive := hInv.exclusive
  keeps := hInv.keeps
  honest := hInv.honest

/- What an insert that does not wait has done. -/
theorem insert_cases
    {key : Row → Key}
    {level : Nat}
    {row : Row}
    {fails : Bool}
    {after : Store Row Lock Answer}
    {result : Inserted}
    (hInsert :
      s.insert key tx level row fails = some (after, result)) :
    (result ≠ .done ∧ after = s.fail tx level) ∨
      (result = .done ∧ s.waits key tx row = false ∧
        s.taken key tx row = false ∧
          after = s.write tx level row) := by
  unfold Store.insert at hInsert
  split at hInsert
  · cases hInsert
    exact Or.inl ⟨by simp, rfl⟩
  · split at hInsert
    · cases hInsert
    · rename_i hGoes
      split at hInsert
      · cases hInsert
        exact Or.inl ⟨by simp, rfl⟩
      · rename_i hFree
        cases hInsert
        exact
          Or.inr
            ⟨rfl, Bool.eq_false_iff.mpr hGoes,
              Bool.eq_false_iff.mpr hFree, rfl⟩

variable [DecidableEq Lock] {lock : Lock} {rows : List Row}

/- It is there, or its transaction has failed. -/
theorem valid_insertRow
    {level : Nat}
    {row : Row}
    {fails : Bool}
    {next : Inserted → TxThread Row Lock Answer}
    (hHolding : Holding p tx own lock rows s)
    (hDone :
      ∀ now,
        Holding p tx
            { own with writes := own.writes ++ [(level, row)] }
            lock rows now →
          TxValid p tx now (next .done))
    (hRefused :
      ∀ now result,
        result ≠ .done →
          Holding p tx
              { own with failed := own.failed ++ [level] }
              lock rows now →
            TxValid p tx now (next result)) :
    TxValid p tx s
      (insertRow p.key tx level row fails next) := by
  have hStep
      (now : Store Row Lock Answer)
      (hRely : Rely (Guar p) tx s now)
      (hInv : Inv p now)
      (after : Store Row Lock Answer)
      (rest : TxThread Row Lock Answer)
      (hEffect :
        (now.insert p.key tx level row fails).map
            (fun result => (result.1, next result.2)) =
          some (after, rest)) :
      Inv p after ∧ Guar p tx now after ∧
        TxValid p tx after rest := by
    have hNow := holding_of_rely hRely hHolding
    obtain ⟨⟨after, result⟩, hInsert, hSame⟩ :=
      Option.map_eq_some_iff.mp hEffect
    cases hSame
    rcases insert_cases hInsert with
      ⟨hResult, rfl⟩ | ⟨rfl, hGoes, hFree, rfl⟩
    · exact
        ⟨inv_of_quiet (quiet_fail level) hInv,
          guar_of_quiet (quiet_fail level),
          hRefused _ result hResult (holding_fail level hNow)⟩
    · exact
        ⟨inv_write hGoes hFree hInv, guar_write level row,
          hDone _ (holding_write level row hNow)⟩
  refine Valid.act ?_ ?_
  · intro now hRely hInv _ after rest hEffect
    have hAfter := hStep now hRely hInv after rest hEffect
    exact ⟨hAfter.1, hAfter.2.1⟩
  · intro now hRely hInv _ after rest hEffect
    exact (hStep now hRely hInv after rest hEffect).2.2

end Transactions

--------------------
-- Commits
--------------------

namespace Transactions

open Interleaving

variable {Row Key Lock Answer : Type}
variable {p : Policy Row Key Lock Answer} {tx : Nat}
variable {s : Store Row Lock Answer}
variable {own : Own Row Lock Answer}

/- The written rows are the same, committed or not. -/
theorem commit_perm (hFailed : (s.own tx).failed = []) :
    List.Perm
      ((s.commit tx).rows ++ (s.commit tx).writes.map (·.2.2))
      (s.rows ++ s.writes.map (·.2.2)) := by
  have hSplit := (mine_perm tx s.writes).map Prod.snd
  rw [List.map_append, List.map_map, List.map_map] at hSplit
  rw [commit_of_failed_nil hFailed]
  dsimp only
  rw [List.append_assoc]
  exact List.Perm.append_left s.rows hSplit

theorem exclusive_commit
    (hFailed : (s.own tx).failed = [])
    (hExclusive : Exclusive s.locks) :
    Exclusive (s.commit tx).locks := by
  rw [commit_of_failed_nil hFailed]
  exact
    exclusive_of_sublist
      (keepMine_sublist tx (fun _ => false) s.locks) hExclusive

/- A transaction that has not answered yet may commit. -/
theorem inv_commit
    (hFailed : (s.own tx).failed = [])
    (hAnswers : (s.own tx).answers = [])
    (hKeeps : p.Keeps (s.rows ++ s.written tx))
    (hInv : Inv p s) :
    Inv p (s.commit tx) where
  rows := by
    rw [commit_of_failed_nil hFailed]
    simp [hInv.rows]
  unique :=
    ((commit_perm hFailed).map p.key).nodup_iff.mpr hInv.unique
  exclusive := exclusive_commit hFailed hInv.exclusive
  keeps := by
    rw [commit_of_failed_nil hFailed]
    exact hKeeps
  honest := by
    intro other answer hAnswer
    by_cases hOther : other = tx
    · subst hOther
      have hNone : ((s.commit other).own other).answers = [] := by
        rw [own_commit hFailed]
        exact hAnswers
      rw [hNone] at hAnswer
      cases hAnswer
    · rw [own_commit_ne hOther hFailed] at hAnswer ⊢
      exact hInv.honest other answer hAnswer

theorem guar_commit
    (hFailed : (s.own tx).failed = [])
    (hUnder :
      ∀ row ∈ s.written tx, p.guard row ∈ (s.own tx).locks) :
    Guar p tx s (s.commit tx) where
  others := fun _ hOther => own_commit_ne hOther hFailed
  rows :=
    ⟨s.written tx, by rw [commit_of_failed_nil hFailed], hUnder⟩
  exclusive := exclusive_commit hFailed

variable [DecidableEq Lock] {lock : Lock} {rows : List Row}
variable {rest : TxThread Row Lock Answer}

theorem valid_commit
    (hHolding : Holding p tx own lock rows s)
    (hFailed : own.failed = [])
    (hAnswers : own.answers = [])
    (hUnder : ∀ write ∈ own.writes, p.guard write.2 = lock)
    (hKeeps :
      ∀ now, p.Keeps now.rows →
        Holding p tx own lock rows now →
          p.Keeps (now.rows ++ own.writes.map (·.2)))
    (hRest :
      ∀ now, now.own tx = own.commit → TxValid p tx now rest) :
    TxValid p tx s (run (·.commit tx) rest) := by
  apply valid_atomic
  intro now hRely hInv _
  have hNow := holding_of_rely hRely hHolding
  have hWrites : mine tx now.writes = own.writes :=
    congrArg Own.writes hNow.part
  have hWritten :
      now.written tx = own.writes.map (·.2) := by
    unfold Store.written
    rw [hWrites]
  have hFailed' : (now.own tx).failed = [] := by
    rw [hNow.part]
    exact hFailed
  refine ⟨inv_commit hFailed' ?_ ?_ hInv, ?_, hRest _ ?_⟩
  · rw [hNow.part]
    exact hAnswers
  · rw [hWritten]
    exact hKeeps now hInv.keeps hNow
  · apply guar_commit hFailed'
    intro row hRow
    rw [hWritten] at hRow
    obtain ⟨write, hWrite, rfl⟩ := List.mem_map.mp hRow
    rw [hUnder write hWrite, hNow.part]
    exact hNow.held
  · rw [own_commit hFailed', hNow.part]

end Transactions

--------------------
-- Runs
--------------------

namespace Transactions

open Interleaving

variable {Row Key Lock Answer Task : Type}
variable {p : Policy Row Key Lock Answer}

theorem inv_start
    (hUnique : (p.initial.map p.key).Nodup)
    (hKeeps : p.Keeps p.initial) :
    Inv p (Store.start p.initial) where
  rows := by simp [Store.start]
  unique := by simpa [Store.start] using hUnique
  exclusive := by
    intro lock first second hFirst
    cases hFirst
  keeps := hKeeps
  honest := by
    intro tx answer hAnswer
    cases hAnswer

/-
  If each task starts a valid transaction, every interleaving
  keeps the policy.
-/
theorem inv_exec
    {start : Task → Nat → TxThread Row Lock Answer}
    (hStart :
      ∀ task tx s, s.own tx = Own.none →
        TxValid p tx s (start task tx))
    (hUnique : (p.initial.map p.key).Nodup)
    (hKeeps : p.Keeps p.initial)
    (events : List (Event Task)) :
    Inv p
      (Run.exec (step start) (initial (Store.start p.initial))
        events).shared := by
  have hKept :
      ∀ other tx s s', other ≠ tx → Guar p other s s' →
        s.own tx = Own.none → s'.own tx = Own.none := by
    intro other tx s s' hOther hGuar hNone
    rw [hGuar.others tx (Ne.symm hOther)]
    exact hNone
  have hSound :=
    soundFresh_exec hKept
      (fun task tx s _ hNone => hStart task tx s hNone)
      (inv_start hUnique hKeeps) (fun _ => rfl)
      (meets_of_forall (fun _ _ => trivial) _ events)
  exact hSound.sound.inv

end Transactions
