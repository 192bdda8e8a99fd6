import Mathlib.Data.List.AList
import Mathlib.Order.Defs.LinearOrder
import Mathlib.Order.Lattice
import SentinelCommand.Lib.CallLog

/-
  Sliding windows of stamps.

  A cutoff says which stamps have left the window at an
  instant. A list that was trimmed at some instants stands
  for the whole history as long as both agree on the stamps
  still in the window, now and at any later instant.

  Key definitions include:
    * `Window.Cutoff`, `Window.Cutoff.fresh`
    * `Window.Cutoff.trim`
    * `Window.Stands`
    * `Window.InOrder`
    * `Window.mapValues`, `Window.retain`
    * `Window.TableStands`, `Window.history`

  Key theorems include:
    * `Window.Cutoff.trim_eq_fresh`
    * `Window.Stands.later`, `Window.Stands.trim`
    * `Window.Stands.push`, `Window.Stands.drop`
    * `Window.meets_of_pairwise`, `Window.step_of_moments`
    * `Window.TableStands.retain`
    * `Window.TableStands.refuse`, `Window.TableStands.allow`
    * `Window.exists_entry_of_mem_sweep`
-/

--------------------
-- Cutoffs
--------------------

namespace Window

/-
  Which stamps are old at an instant. An old stamp stays old,
  and so does every stamp before it; the present one is not.
-/
structure Cutoff (T : Type) [LinearOrder T] where
  old : T → T → Bool
  old_of_later :
    ∀ {now later stamp},
      now ≤ later → old now stamp = true →
        old later stamp = true
  old_of_earlier :
    ∀ {now earlier stamp},
      earlier ≤ stamp → old now stamp = true →
        old now earlier = true
  old_self : ∀ now, old now now = false

variable {T : Type} [LinearOrder T]

namespace Cutoff

variable (cutoff : Cutoff T)

/- The stamps still in the window. -/
def fresh (now : T) (stamps : List T) : List T :=
  stamps.filter (fun stamp => !cutoff.old now stamp)

/- Pops the old stamps off the front. -/
def trim (now : T) (stamps : List T) : List T :=
  stamps.dropWhile (cutoff.old now)

theorem fresh_append
    (now : T)
    (stamps more : List T) :
    cutoff.fresh now (stamps ++ more) =
      cutoff.fresh now stamps ++ cutoff.fresh now more := by
  exact List.filter_append _ _

theorem fresh_self (now : T) :
    cutoff.fresh now [now] = [now] := by
  simp [fresh, cutoff.old_self]

/- In order, what trimming leaves is what is still fresh. -/
theorem trim_eq_fresh
    (now : T)
    {stamps : List T}
    (hSorted : stamps.Pairwise (· ≤ ·)) :
    cutoff.trim now stamps = cutoff.fresh now stamps := by
  unfold trim fresh
  induction stamps with
  | nil => rfl
  | cons stamp rest ih =>
      obtain ⟨hFirst, hRest⟩ := List.pairwise_cons.mp hSorted
      cases hOld : cutoff.old now stamp with
      | true =>
          rw [List.dropWhile_cons_of_pos hOld,
            List.filter_cons_of_neg (by simp [hOld])]
          exact ih hRest
      | false =>
          rw [List.dropWhile_cons_of_neg (by simp [hOld])]
          symm
          apply List.filter_eq_self.mpr
          intro other hOther
          rcases List.mem_cons.mp hOther with rfl | hOther
          · simp [hOld]
          · cases hLater : cutoff.old now other with
            | false => rfl
            | true =>
                have hEarlier :=
                  cutoff.old_of_earlier (hFirst other hOther)
                    hLater
                rw [hOld] at hEarlier
                cases hEarlier

/- Of two instants the later one decides. -/
theorem fresh_fresh
    {now later : T}
    (hLater : now ≤ later)
    (stamps : List T) :
    cutoff.fresh later (cutoff.fresh now stamps) =
      cutoff.fresh later stamps := by
  unfold fresh
  rw [List.filter_filter]
  apply List.filter_congr
  intro stamp _
  cases hOld : cutoff.old now stamp with
  | true =>
      rw [cutoff.old_of_later hLater hOld]
      rfl
  | false =>
      simp

theorem fresh_sublist_of_later
    {now later : T}
    {stamps others : List T}
    (hLater : now ≤ later)
    (hSublist :
      (cutoff.fresh now stamps).Sublist
        (cutoff.fresh now others)) :
    (cutoff.fresh later stamps).Sublist
      (cutoff.fresh later others) := by
  rw [← cutoff.fresh_fresh hLater stamps,
    ← cutoff.fresh_fresh hLater others]
  exact hSublist.filter _

/- The last stamp is fresh when any of them is. -/
theorem fresh_eq_nil_of_last
    {now last : T}
    {stamps : List T}
    (hSorted : stamps.Pairwise (· ≤ ·))
    (hLast : stamps.getLast? = some last)
    (hOld : cutoff.old now last = true) :
    cutoff.fresh now stamps = [] := by
  obtain ⟨before, rfl⟩ := List.getLast?_eq_some_iff.mp hLast
  apply List.filter_eq_nil_iff.mpr
  intro stamp hStamp
  have hBefore : stamp ≤ last := by
    rcases List.mem_append.mp hStamp with hStamp | hStamp
    · exact
        (List.pairwise_append.mp hSorted).2.2 stamp hStamp last
          (List.mem_singleton.mpr rfl)
    · exact le_of_eq (List.mem_singleton.mp hStamp)
  simp [cutoff.old_of_earlier hBefore hOld]

end Cutoff

end Window

--------------------
-- Kept Stamps
--------------------

namespace Window

variable {T : Type} [LinearOrder T]
variable {cutoff : Cutoff T}

/-
  The kept stamps are in order, and at `now` they are as good
  as the whole history.
-/
structure Stands
    (cutoff : Cutoff T)
    (now : T)
    (kept history : List T) : Prop where
  sorted : kept.Pairwise (· ≤ ·)
  fresh_eq : cutoff.fresh now kept = cutoff.fresh now history

theorem Stands.nil (now : T) :
    Stands cutoff now [] [] :=
  ⟨List.Pairwise.nil, rfl⟩

theorem Stands.later
    {now later : T}
    {kept history : List T}
    (hStands : Stands cutoff now kept history)
    (hLater : now ≤ later) :
    Stands cutoff later kept history := by
  refine ⟨hStands.sorted, ?_⟩
  calc cutoff.fresh later kept
      = cutoff.fresh later (cutoff.fresh now kept) :=
        (cutoff.fresh_fresh hLater kept).symm
    _ = cutoff.fresh later (cutoff.fresh now history) := by
        rw [hStands.fresh_eq]
    _ = cutoff.fresh later history :=
        cutoff.fresh_fresh hLater history

/- Trimmed kept stamps are the fresh ones of the history. -/
theorem Stands.trim_eq
    {now : T}
    {kept history : List T}
    (hStands : Stands cutoff now kept history) :
    cutoff.trim now kept = cutoff.fresh now history := by
  rw [cutoff.trim_eq_fresh now hStands.sorted,
    hStands.fresh_eq]

theorem Stands.fresh
    {now : T}
    {kept history : List T}
    (hStands : Stands cutoff now kept history) :
    Stands cutoff now (cutoff.fresh now kept) history := by
  refine ⟨hStands.sorted.filter _, ?_⟩
  rw [cutoff.fresh_fresh le_rfl, hStands.fresh_eq]

theorem Stands.trim
    {now : T}
    {kept history : List T}
    (hStands : Stands cutoff now kept history) :
    Stands cutoff now (cutoff.trim now kept) history := by
  rw [cutoff.trim_eq_fresh now hStands.sorted]
  exact hStands.fresh

/- A stamp of now goes on both. -/
theorem Stands.push
    {now : T}
    {kept history : List T}
    (hStands : Stands cutoff now kept history)
    (hPast : ∀ stamp ∈ kept, stamp ≤ now) :
    Stands cutoff now (kept ++ [now]) (history ++ [now]) := by
  constructor
  · apply List.pairwise_append.mpr
    refine
      ⟨hStands.sorted, List.pairwise_singleton _ _, ?_⟩
    intro stamp hStamp other hOther
    rw [List.mem_singleton.mp hOther]
    exact hPast stamp hStamp
  · rw [cutoff.fresh_append, cutoff.fresh_append,
      hStands.fresh_eq]

/- Where nothing is fresh, nothing has to be kept. -/
theorem Stands.drop
    {now : T}
    {kept history : List T}
    (hStands : Stands cutoff now kept history)
    (hOld : cutoff.fresh now kept = []) :
    Stands cutoff now [] history :=
  ⟨List.Pairwise.nil, hOld.symm.trans hStands.fresh_eq⟩

end Window

--------------------
-- Calls In Order
--------------------

namespace Window

variable {T : Type} [LinearOrder T]
variable {C : Type}

/- No call is earlier than one before it. -/
def InOrder
    (time : C → T)
    (earlier : List C)
    (call : C) : Prop :=
  ∀ other ∈ earlier, time other ≤ time call

theorem meets_of_pairwise
    {time : C → T}
    {calls : List C}
    (hSorted : (calls.map time).Pairwise (· ≤ ·)) :
    CallLog.Meets (InOrder time) calls := by
  intro earlier call hPrefix other hOther
  have hShorter :
      ((earlier ++ [call]).map time).Pairwise (· ≤ ·) :=
    hSorted.sublist (hPrefix.map time).sublist
  rw [List.map_append] at hShorter
  exact
    (List.pairwise_append.mp hShorter).2.2 (time other)
      (List.mem_map_of_mem hOther) (time call)
      (List.mem_singleton.mpr rfl)

variable {S A K : Type} [DecidableEq K]
variable {rule : CallLog.Rule C A K}
variable {check : S → C → S × A}

/-
  What a log has at the instant of its last call and at any
  later one, each call keeps when it keeps it at its own.
-/
theorem step_of_moments
    {time : C → T}
    {At : T → S → List (C × A) → Prop}
    (hLater :
      ∀ now later s log, now ≤ later → At now s log →
        At later s log)
    (hSpec :
      ∀ s log call, (∀ entry ∈ log, time entry.1 ≤ time call) →
        At (time call) s log →
          (check s call).2 = rule.expected log call ∧
            At (time call) (check s call).1
              (log ++ [(call, (check s call).2)])) :
    CallLog.Step rule check (InOrder time)
      (fun s log =>
        ∀ now, (∀ entry ∈ log, time entry.1 ≤ now) →
          At now s log) := by
  intro s log call hAt hOrder
  have hPast : ∀ entry ∈ log, time entry.1 ≤ time call :=
    fun entry hEntry =>
      hOrder entry.1 (List.mem_map_of_mem hEntry)
  obtain ⟨hAnswer, hKept⟩ :=
    hSpec s log call hPast (hAt (time call) hPast)
  refine ⟨hAnswer, fun now hNow => hLater _ now _ _ ?_ hKept⟩
  exact hNow _ (List.mem_append_right _ List.mem_cons_self)

/- The calls of a log are the calls that were made. -/
theorem past_record
    {time : C → T}
    {now : T}
    {calls : List C}
    (s : S)
    (hPast : ∀ call ∈ calls, time call ≤ now) :
    ∀ entry ∈ (CallLog.record check s calls).2,
      time entry.1 ≤ now := by
  intro entry hEntry
  apply hPast
  rw [← CallLog.map_fst_record check s calls]
  exact List.mem_map_of_mem hEntry

theorem pairwise_filter
    {time : C → T}
    {calls : List C}
    (keep : C → Bool)
    (hSorted : (calls.map time).Pairwise (· ≤ ·)) :
    ((calls.filter keep).map time).Pairwise (· ≤ ·) :=
  hSorted.sublist (List.filter_sublist.map time)

end Window

--------------------
-- Tables
--------------------

namespace Window

variable {K V : Type} [DecidableEq K]

theorem dlookup_map
    (f : V → V)
    (key : K)
    (entries : List (Sigma (fun _ : K => V))) :
    List.dlookup key
        (entries.map
          (fun entry =>
            (⟨entry.1, f entry.2⟩ : Sigma (fun _ : K => V)))) =
      (List.dlookup key entries).map f := by
  induction entries with
  | nil => rfl
  | cons entry rest ih =>
      obtain ⟨other, value⟩ := entry
      by_cases hKey : key = other
      · subst hKey
        simp [List.dlookup_cons_eq]
      · rw [List.map_cons, List.dlookup_cons_ne _ _ hKey,
          List.dlookup_cons_ne _ _ hKey]
        exact ih

/- Every value of a table replaced in place. -/
def mapValues
    (f : V → V)
    (table : AList (fun _ : K => V)) :
    AList (fun _ : K => V) where
  entries := table.entries.map (fun entry => ⟨entry.1, f entry.2⟩)
  nodupKeys := by
    have hKeys := table.nodupKeys
    unfold List.NodupKeys List.keys at hKeys ⊢
    rw [List.map_map]
    exact hKeys

/- The entries that pass a test, which `retain` leaves. -/
def retain
    (keep : K → V → Bool)
    (table : AList (fun _ : K => V)) :
    AList (fun _ : K => V) where
  entries :=
    table.entries.filter (fun entry => keep entry.1 entry.2)
  nodupKeys :=
    List.NodupKeys.sublist List.filter_sublist table.nodupKeys

theorem lookup_mapValues
    (f : V → V)
    (key : K)
    (table : AList (fun _ : K => V)) :
    (mapValues f table).lookup key =
      (table.lookup key).map f := by
  exact dlookup_map f key table.entries

theorem lookup_retain
    (keep : K → V → Bool)
    (key : K)
    (table : AList (fun _ : K => V)) :
    (retain keep table).lookup key =
      (table.lookup key).filter (keep key) := by
  rw [Option.ext_iff]
  intro value
  rw [← Option.mem_def, ← Option.mem_def,
    AList.mem_lookup_iff, Option.mem_filter_iff,
    AList.mem_lookup_iff]
  exact List.mem_filter

/- The value under a key, the empty list where none is. -/
def held
    {T : Type}
    (table : AList (fun _ : K => List T))
    (key : K) : List T :=
  (table.lookup key).getD []

@[simp]
theorem held_empty {T : Type} (key : K) :
    held (∅ : AList (fun _ : K => List T)) key = [] := by
  simp [held]

@[simp]
theorem held_insert
    {T : Type}
    (table : AList (fun _ : K => List T))
    (key : K)
    (stamps : List T) :
    held (table.insert key stamps) key = stamps := by
  simp [held]

theorem held_insert_ne
    {T : Type}
    (table : AList (fun _ : K => List T))
    {key other : K}
    (hOther : other ≠ key)
    (stamps : List T) :
    held (table.insert key stamps) other =
      held table other := by
  unfold held
  rw [AList.lookup_insert_ne hOther]

@[simp]
theorem held_erase
    {T : Type}
    (table : AList (fun _ : K => List T))
    (key : K) :
    held (table.erase key) key = [] := by
  simp [held]

theorem held_erase_ne
    {T : Type}
    (table : AList (fun _ : K => List T))
    {key other : K}
    (hOther : other ≠ key) :
    held (table.erase key) other = held table other := by
  unfold held
  rw [AList.lookup_erase_ne hOther]

/- A sweep leaves a list or drops it. -/
theorem held_retain
    {T : Type}
    (keep : K → List T → Bool)
    (table : AList (fun _ : K => List T))
    (key : K) :
    held (retain keep table) key = held table key ∨
      held (retain keep table) key = [] ∧
        ∃ stamps, table.lookup key = some stamps ∧
          keep key stamps = false := by
  unfold held
  rw [lookup_retain]
  cases hLookup : table.lookup key with
  | none =>
      exact Or.inl rfl
  | some stamps =>
      cases hKeep : keep key stamps with
      | true =>
          left
          simp [Option.filter, hKeep]
      | false =>
          right
          exact ⟨by simp [Option.filter, hKeep], stamps, rfl, hKeep⟩

end Window

--------------------
-- Tables That Stand
--------------------

namespace Window

variable {K T : Type} [DecidableEq K] [LinearOrder T]
variable {cutoff : Cutoff T}

/- The list under every key stands for its history. -/
def TableStands
    (cutoff : Cutoff T)
    (now : T)
    (table : AList (fun _ : K => List T))
    (history : K → List T) : Prop :=
  ∀ key, Stands cutoff now (held table key) (history key)

theorem TableStands.empty
    (now : T)
    {history : K → List T}
    (hEmpty : ∀ key, history key = []) :
    TableStands cutoff now ∅ history := by
  intro key
  rw [held_empty, hEmpty]
  exact Stands.nil now

theorem TableStands.later
    {now later : T}
    {table : AList (fun _ : K => List T)}
    {history : K → List T}
    (hTable : TableStands cutoff now table history)
    (hLater : now ≤ later) :
    TableStands cutoff later table history :=
  fun key => (hTable key).later hLater

theorem TableStands.trimAll
    {now : T}
    {table : AList (fun _ : K => List T)}
    {history : K → List T}
    (hTable : TableStands cutoff now table history) :
    TableStands cutoff now
      (mapValues (cutoff.trim now) table) history := by
  intro key
  have hKey := hTable key
  unfold held at hKey ⊢
  rw [lookup_mapValues]
  cases hLookup : table.lookup key with
  | none =>
      rw [hLookup] at hKey
      exact hKey
  | some stamps =>
      rw [hLookup] at hKey
      exact hKey.trim

/- A sweep of keys with nothing fresh loses nothing. -/
theorem TableStands.retain
    {now : T}
    {table : AList (fun _ : K => List T)}
    {history : K → List T}
    (hTable : TableStands cutoff now table history)
    {keep : K → List T → Bool}
    (hDrop :
      ∀ key, keep key (held table key) = false →
        cutoff.fresh now (held table key) = []) :
    TableStands cutoff now (Window.retain keep table)
      history := by
  intro key
  rcases held_retain keep table key with
    hSame | ⟨hNone, stamps, hLookup, hKeep⟩
  · rw [hSame]
    exact hTable key
  · have hHeld : held table key = stamps := by
      simp [held, hLookup]
    rw [hNone]
    apply (hTable key).drop
    apply hDrop
    rw [hHeld]
    exact hKeep

theorem TableStands.insert
    {now : T}
    {table : AList (fun _ : K => List T)}
    {history after : K → List T}
    (hTable : TableStands cutoff now table history)
    {key : K}
    {stamps : List T}
    (hKey : Stands cutoff now stamps (after key))
    (hOther : ∀ other, other ≠ key →
      after other = history other) :
    TableStands cutoff now (table.insert key stamps) after := by
  intro other
  by_cases hSame : other = key
  · subst hSame
    rw [held_insert]
    exact hKey
  · rw [held_insert_ne table hSame, hOther other hSame]
    exact hTable other

end Window

--------------------
-- Histories
--------------------

namespace Window

open CallLog

variable {C A K T : Type} [DecidableEq K]

/- When the calls of a log that were let through came. -/
def allowedTimes
    (time : C → T)
    (allowed : A → Bool)
    (log : List (C × A)) : List T :=
  (log.filter (fun entry => allowed entry.2)).map
    (fun entry => time entry.1)

variable (rule : Rule C A K)
variable (time : C → T)
variable (allowed : A → Bool)

/- The instants at which a key was let through. -/
def history
    (log : List (C × A))
    (key : K) : List T :=
  allowedTimes time allowed (rule.entries key log)

theorem exists_entry_of_mem_history
    {log : List (C × A)}
    {key : K}
    {stamp : T}
    (hStamp : stamp ∈ history rule time allowed log key) :
    ∃ entry ∈ log,
      rule.key entry.1 = key ∧ allowed entry.2 = true ∧
        time entry.1 = stamp := by
  unfold history allowedTimes Rule.entries at hStamp
  obtain ⟨entry, hEntry, hTime⟩ := List.mem_map.mp hStamp
  obtain ⟨hOwn, hAllowed⟩ := List.mem_filter.mp hEntry
  obtain ⟨hLog, hKey⟩ := List.mem_filter.mp hOwn
  exact ⟨entry, hLog, by simpa using hKey, hAllowed, hTime⟩

theorem history_other
    (log : List (C × A))
    (entry : C × A)
    {key : K}
    (hKey : key ≠ rule.key entry.1) :
    history rule time allowed (log ++ [entry]) key =
      history rule time allowed log key := by
  unfold history
  rw [entries_append_singleton, if_neg (Ne.symm hKey)]

theorem history_refused
    (log : List (C × A))
    {entry : C × A}
    (hRefused : allowed entry.2 = false) :
    history rule time allowed (log ++ [entry])
        (rule.key entry.1) =
      history rule time allowed log (rule.key entry.1) := by
  unfold history allowedTimes
  rw [entries_append_singleton, if_pos rfl]
  simp [List.filter_append, hRefused]

theorem history_allowed
    (log : List (C × A))
    {entry : C × A}
    (hAllowed : allowed entry.2 = true) :
    history rule time allowed (log ++ [entry])
        (rule.key entry.1) =
      history rule time allowed log (rule.key entry.1) ++
        [time entry.1] := by
  unfold history allowedTimes
  rw [entries_append_singleton, if_pos rfl]
  simp [List.filter_append, hAllowed]

variable [LinearOrder T]

theorem history_past
    {log : List (C × A)}
    {now : T}
    (hPast : ∀ entry ∈ log, time entry.1 ≤ now)
    (key : K) :
    ∀ stamp ∈ history rule time allowed log key,
      stamp ≤ now := by
  intro stamp hStamp
  obtain ⟨entry, hEntry, _, _, rfl⟩ :=
    exists_entry_of_mem_history rule time allowed hStamp
  exact hPast entry hEntry

variable {cutoff : Cutoff T} {rule time allowed}

/- A refused call may trim its key and changes no history. -/
theorem TableStands.refuse
    {table : AList (fun _ : K => List T)}
    {log : List (C × A)}
    {call : C}
    {answer : A}
    {kept : List T}
    (hTable :
      TableStands cutoff (time call) table
        (history rule time allowed log))
    (hKept :
      Stands cutoff (time call) kept
        (history rule time allowed log (rule.key call)))
    (hRefused : allowed answer = false) :
    TableStands cutoff (time call)
      (table.insert (rule.key call) kept)
      (history rule time allowed
        (log ++ [(call, answer)])) := by
  apply hTable.insert
  · have hSame :=
      history_refused rule time allowed log
        (show allowed (call, answer).2 = false from hRefused)
    rw [hSame]
    exact hKept
  · intro other hOther
    exact
      history_other rule time allowed log (call, answer) hOther

/- An allowed call is stamped in the table and the history. -/
theorem TableStands.allow
    {table : AList (fun _ : K => List T)}
    {log : List (C × A)}
    {call : C}
    {answer : A}
    {kept : List T}
    (hTable :
      TableStands cutoff (time call) table
        (history rule time allowed log))
    (hKept :
      Stands cutoff (time call) kept
        (history rule time allowed log (rule.key call)))
    (hPast : ∀ stamp ∈ kept, stamp ≤ time call)
    (hAllowed : allowed answer = true) :
    TableStands cutoff (time call)
      (table.insert (rule.key call) (kept ++ [time call]))
      (history rule time allowed
        (log ++ [(call, answer)])) := by
  apply hTable.insert
  · have hMore :=
      history_allowed rule time allowed log
        (show allowed (call, answer).2 = true from hAllowed)
    rw [hMore]
    exact hKept.push hPast
  · intro other hOther
    exact
      history_other rule time allowed log (call, answer) hOther

end Window

--------------------
-- One Window For Each Key
--------------------

namespace Window

open CallLog

variable {C K T : Type} [LinearOrder T]

/-
  A call is let through when fewer than `limit` of its key
  that were let through are still in the window.
-/
def limitRule
    (key : C → K)
    (time : C → T)
    (cutoff : Cutoff T)
    (limit : Nat) : Rule C Bool K where
  key
  answer call earlier :=
    (cutoff.fresh (time call)
      (allowedTimes time id earlier)).length < limit

/- A sweep leaves the keys whose last stamp is in the window. -/
def Cutoff.lastFresh
    (cutoff : Cutoff T)
    (now : T)
    (stamps : List T) : Bool :=
  stamps.getLast?.any (fun last => !cutoff.old now last)

@[simp]
theorem limitRule_key
    (key : C → K)
    (time : C → T)
    (cutoff : Cutoff T)
    (limit : Nat)
    (call : C) :
    (limitRule key time cutoff limit).key call = key call := by
  rfl

variable [DecidableEq K]
variable {key : C → K}
variable {time : C → T}
variable {cutoff : Cutoff T}
variable {limit : Nat}

theorem fresh_eq_nil_of_lastFresh
    {now : T}
    {stamps : List T}
    (hSorted : stamps.Pairwise (· ≤ ·))
    (hLast : cutoff.lastFresh now stamps = false) :
    cutoff.fresh now stamps = [] := by
  unfold Cutoff.lastFresh at hLast
  cases hBack : stamps.getLast? with
  | none =>
      rw [List.getLast?_eq_none_iff.mp hBack]
      rfl
  | some last =>
      rw [hBack] at hLast
      apply cutoff.fresh_eq_nil_of_last hSorted hBack
      simpa using hLast

/- So the sweep loses nothing. -/
theorem TableStands.sweep
    {now : T}
    {table : AList (fun _ : K => List T)}
    {history : K → List T}
    (hTable : TableStands cutoff now table history) :
    TableStands cutoff now
      (Window.retain (fun _ => cutoff.lastFresh now) table)
      history := by
  apply hTable.retain
  intro key hDrop
  exact
    fresh_eq_nil_of_lastFresh (hTable key).sorted hDrop

/- A key that is left has a stamp in the window. -/
theorem exists_fresh_of_mem_sweep
    {now : T}
    {table : AList (fun _ : K => List T)}
    {history : K → List T}
    (hTable : TableStands cutoff now table history)
    {key : K}
    (hHeld :
      key ∈
        Window.retain (fun _ => cutoff.lastFresh now) table) :
    ∃ stamp ∈ history key, cutoff.old now stamp = false := by
  rw [← AList.lookup_isSome, lookup_retain] at hHeld
  obtain ⟨stamps, hStamps⟩ := Option.isSome_iff_exists.mp hHeld
  obtain ⟨hLookup, hLast⟩ := Option.filter_eq_some_iff.mp hStamps
  unfold Cutoff.lastFresh at hLast
  obtain ⟨last, hBack, hFresh⟩ := (Option.any_eq_true _ _).mp hLast
  have hKept : held table key = stamps := by
    simp [held, hLookup]
  have hMem : last ∈ cutoff.fresh now (held table key) := by
    rw [hKept]
    exact
      List.mem_filter.mpr
        ⟨List.mem_of_getLast? hBack, hFresh⟩
  rw [(hTable key).fresh_eq] at hMem
  exact
    ⟨last, List.mem_of_mem_filter hMem, by simpa using hFresh⟩

/- A swept key has a call that was let through lately. -/
theorem exists_entry_of_mem_sweep
    {A : Type}
    {rule : Rule C A K}
    {allowed : A → Bool}
    {now : T}
    {table : AList (fun _ : K => List T)}
    {log : List (C × A)}
    (hTable :
      TableStands cutoff now table
        (history rule time allowed log))
    {key : K}
    (hHeld :
      key ∈
        Window.retain (fun _ => cutoff.lastFresh now) table) :
    ∃ entry ∈ log,
      rule.key entry.1 = key ∧ allowed entry.2 = true ∧
        cutoff.old now (time entry.1) = false := by
  obtain ⟨stamp, hStamp, hFresh⟩ :=
    exists_fresh_of_mem_sweep hTable hHeld
  obtain ⟨entry, hEntry, hKey, hAllowed, rfl⟩ :=
    exists_entry_of_mem_history _ _ _ hStamp
  exact ⟨entry, hEntry, hKey, hAllowed, hFresh⟩

/-
  A call compares the number of fresh stamps with the limit;
  below it, it is stamped.
-/
theorem TableStands.answer
    {table : AList (fun _ : K => List T)}
    {log : List (C × Bool)}
    {call : C}
    {kept : List T}
    (hPast : ∀ entry ∈ log, time entry.1 ≤ time call)
    (hTable :
      TableStands cutoff (time call) table
        (history (limitRule key time cutoff limit) time id log))
    (hKept :
      kept =
        cutoff.fresh (time call)
          (history (limitRule key time cutoff limit) time id log
            (key call))) :
    decide (kept.length < limit) =
        (limitRule key time cutoff limit).expected log call ∧
      TableStands cutoff (time call)
        (table.insert (key call)
          (if kept.length < limit then kept ++ [time call]
            else kept))
        (history (limitRule key time cutoff limit) time id
          (log ++ [(call, decide (kept.length < limit))])) := by
  have hStands :
      Stands cutoff (time call) kept
        (history (limitRule key time cutoff limit) time id log
          (key call)) := by
    rw [hKept, ← (hTable (key call)).fresh_eq]
    exact (hTable (key call)).fresh
  constructor
  · rw [hKept]
    rfl
  · by_cases hRoom : kept.length < limit
    · rw [if_pos hRoom, decide_eq_true hRoom]
      apply hTable.allow hStands _ rfl
      intro stamp hStamp
      rw [hKept] at hStamp
      exact
        history_past _ time id hPast _ stamp
          (List.mem_of_mem_filter hStamp)
    · rw [if_neg hRoom, decide_eq_false hRoom]
      exact hTable.refuse hStands rfl

/- The count of the rule, over the whole log. -/
theorem expected_limitRule
    (log : List (C × Bool))
    (call : C) :
    (limitRule key time cutoff limit).expected log call =
      decide
        (log.countP
            (fun entry =>
              entry.2 ∧ key entry.1 = key call ∧
                cutoff.old (time call) (time entry.1) = false) <
          limit) := by
  have hCount :
      (cutoff.fresh (time call)
        (allowedTimes time id
          ((limitRule key time cutoff limit).entries (key call)
            log))).length =
        log.countP
          (fun entry =>
            entry.2 ∧ key entry.1 = key call ∧
              cutoff.old (time call) (time entry.1) =
                false) := by
    unfold Cutoff.fresh allowedTimes Rule.entries
    rw [← List.countP_eq_length_filter, List.countP_map,
      List.countP_filter, List.countP_filter]
    apply List.countP_congr
    intro entry _
    simp [and_comm, and_left_comm]
  rw [← hCount]
  rfl

end Window
