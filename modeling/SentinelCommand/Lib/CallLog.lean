import Mathlib.Data.List.Induction

/-
  Calls of an object with a state, and the log of what each
  was answered.

  A rule says what a call is answered from the log of the
  earlier calls of its key. An implementation follows a rule
  when a relation between its state and the log is kept by
  every call; then calls of other keys change no answer, and
  any two implementations of a rule answer alike.

  Key definitions include:
    * `CallLog.record`
    * `CallLog.Rule`, `CallLog.Follows`

  Key theorems include:
    * `CallLog.follows_of_step`
    * `CallLog.eq_of_follows`
    * `CallLog.follows_entries`
    * `CallLog.entries_record`, `CallLog.answer_alone`
    * `CallLog.answer_eq_of_steps`
-/

--------------------
-- Records
--------------------

namespace CallLog

variable {S C A : Type}

/- The state after some calls, and each with its answer. -/
def record
    (check : S → C → S × A)
    (s : S)
    (calls : List C) : S × List (C × A) :=
  calls.foldl
    (fun recorded call =>
      ((check recorded.1 call).1,
        recorded.2 ++ [(call, (check recorded.1 call).2)]))
    (s, [])

theorem record_append_singleton
    (check : S → C → S × A)
    (s : S)
    (calls : List C)
    (call : C) :
    record check s (calls ++ [call]) =
      ((check (record check s calls).1 call).1,
        (record check s calls).2 ++
          [(call, (check (record check s calls).1 call).2)]) := by
  simp [record]

/- The log has the calls in their order. -/
theorem map_fst_record
    (check : S → C → S × A)
    (s : S)
    (calls : List C) :
    (record check s calls).2.map Prod.fst = calls := by
  induction calls using List.reverseRecOn with
  | nil => rfl
  | append_singleton calls call ih =>
      rw [record_append_singleton]
      simp [ih]

--------------------
-- Rules
--------------------

variable {S C A K : Type} [DecidableEq K]

/- An answer from the earlier calls of the same key. -/
structure Rule (C A K : Type) where
  key : C → K
  answer : C → List (C × A) → A

/- The entries of one key. -/
def Rule.entries
    (rule : Rule C A K)
    (key : K)
    (log : List (C × A)) : List (C × A) :=
  log.filter (fun entry => rule.key entry.1 = key)

def Rule.expected
    (rule : Rule C A K)
    (log : List (C × A))
    (call : C) : A :=
  rule.answer call (rule.entries (rule.key call) log)

/- Every entry is answered as the rule says of those before. -/
def Follows
    (rule : Rule C A K)
    (log : List (C × A)) : Prop :=
  ∀ earlier entry, earlier ++ [entry] <+: log →
    entry.2 = rule.expected earlier entry.1

theorem entries_append_singleton
    (rule : Rule C A K)
    (key : K)
    (log : List (C × A))
    (entry : C × A) :
    rule.entries key (log ++ [entry]) =
      if rule.key entry.1 = key then
        rule.entries key log ++ [entry]
      else
        rule.entries key log := by
  unfold Rule.entries
  split <;> rename_i hKey <;> simp [List.filter_append, hKey]

/- The entries of a key, among its own entries. -/
theorem entries_entries
    (rule : Rule C A K)
    (key : K)
    (log : List (C × A)) :
    rule.entries key (rule.entries key log) =
      rule.entries key log := by
  simp [Rule.entries]

theorem follows_nil (rule : Rule C A K) :
    Follows rule [] := by
  intro earlier entry hPrefix
  have hEmpty := List.prefix_nil.mp hPrefix
  simp at hEmpty

theorem follows_append_singleton
    (rule : Rule C A K)
    (log : List (C × A))
    (entry : C × A) :
    Follows rule (log ++ [entry]) ↔
      Follows rule log ∧
        entry.2 = rule.expected log entry.1 := by
  constructor
  · intro hFollows
    exact
      ⟨fun earlier other hPrefix =>
          hFollows earlier other
            (hPrefix.trans (List.prefix_append log [entry])),
        hFollows log entry (List.prefix_refl _)⟩
  · rintro ⟨hFollows, hLast⟩ earlier other hPrefix
    rcases List.prefix_concat_iff.mp hPrefix with
      hWhole | hShorter
    · obtain ⟨hLog, hEntry⟩ :=
        List.append_inj' hWhole rfl
      cases hEntry
      rw [hLog]
      exact hLast
    · exact hFollows earlier other hShorter

/- What a log answers is determined by its calls. -/
theorem eq_of_follows
    {rule : Rule C A K}
    {log other : List (C × A)}
    (hLog : Follows rule log)
    (hOther : Follows rule other)
    (hCalls : log.map Prod.fst = other.map Prod.fst) :
    log = other := by
  induction log using List.reverseRecOn generalizing other with
  | nil =>
      symm
      simpa using hCalls
  | append_singleton log entry ih =>
      cases other using List.reverseRecOn with
      | nil =>
          simp at hCalls
      | append_singleton other last =>
          rw [List.map_append, List.map_append] at hCalls
          obtain ⟨hEarlier, hCall⟩ :=
            List.append_inj' hCalls rfl
          obtain ⟨hLog, hEntry⟩ :=
            (follows_append_singleton rule log entry).mp hLog
          obtain ⟨hOther, hLast⟩ :=
            (follows_append_singleton rule other last).mp hOther
          have hSame := ih hLog hOther hEarlier
          have hFirst : entry.1 = last.1 := by
            simpa using hCall
          have hAnswer : entry.2 = last.2 := by
            rw [hEntry, hLast, hSame, hFirst]
          rw [hSame, Prod.ext hFirst hAnswer]

/- The entries of one key follow the rule by themselves. -/
theorem follows_entries
    {rule : Rule C A K}
    {log : List (C × A)}
    (hLog : Follows rule log)
    (key : K) :
    Follows rule (rule.entries key log) := by
  induction log using List.reverseRecOn with
  | nil =>
      exact follows_nil rule
  | append_singleton log entry ih =>
      obtain ⟨hLog, hEntry⟩ :=
        (follows_append_singleton rule log entry).mp hLog
      rw [entries_append_singleton]
      by_cases hKey : rule.key entry.1 = key
      · rw [if_pos hKey, follows_append_singleton]
        refine ⟨ih hLog, ?_⟩
        rw [hEntry]
        unfold Rule.expected
        rw [hKey, entries_entries]
      · rw [if_neg hKey]
        exact ih hLog

--------------------
-- Implementations
--------------------

/- Every call meets `ok` with the calls before it. -/
def Meets
    (ok : List C → C → Prop)
    (calls : List C) : Prop :=
  ∀ earlier call, earlier ++ [call] <+: calls →
    ok earlier call

theorem meets_of_append_singleton
    {ok : List C → C → Prop}
    {calls : List C}
    {call : C}
    (hMeets : Meets ok (calls ++ [call])) :
    Meets ok calls ∧ ok calls call := by
  constructor
  · intro earlier other hPrefix
    exact hMeets earlier other
      (hPrefix.trans (List.prefix_append calls [call]))
  · exact hMeets calls call (List.prefix_refl _)

/-
  A condition on a call that the calls of its own key decide
  is met by those calls alone.
-/
theorem meets_filter
    {ok : List C → C → Prop}
    {key : C → K}
    {calls : List C}
    (own : K)
    (hOwn :
      ∀ earlier call, key call = own → ok earlier call →
        ok (earlier.filter (fun other => key other = own)) call)
    (hMeets : Meets ok calls) :
    Meets ok (calls.filter (fun call => key call = own)) := by
  induction calls using List.reverseRecOn with
  | nil => exact hMeets
  | append_singleton calls call ih =>
      obtain ⟨hEarlier, hCall⟩ :=
        meets_of_append_singleton hMeets
      rw [List.filter_append]
      by_cases hKey : key call = own
      · have hOne :
            [call].filter (fun other => key other = own) =
              [call] := by
          simp [hKey]
        rw [hOne]
        intro earlier other hPrefix
        rcases List.prefix_concat_iff.mp hPrefix with
          hWhole | hShorter
        · obtain ⟨hCalls, hLast⟩ := List.append_inj' hWhole rfl
          cases hLast
          rw [hCalls]
          exact hOwn calls call hKey hCall
        · exact ih hEarlier earlier other hShorter
      · have hNone :
            [call].filter (fun other => key other = own) =
              [] := by
          simp [hKey]
        rw [hNone, List.append_nil]
        exact ih hEarlier

/-
  One call answers as the rule says and keeps the relation
  between the state and the log.
-/
def Step
    (rule : Rule C A K)
    (check : S → C → S × A)
    (ok : List C → C → Prop)
    (Stands : S → List (C × A) → Prop) : Prop :=
  ∀ s log call, Stands s log → ok (log.map Prod.fst) call →
    (check s call).2 = rule.expected log call ∧
      Stands (check s call).1
        (log ++ [(call, (check s call).2)])

variable {rule : Rule C A K}
variable {check : S → C → S × A}
variable {ok : List C → C → Prop}
variable {Stands : S → List (C × A) → Prop}

/- The relation holds after any calls that are in order. -/
theorem stands_record
    (hStep : Step rule check ok Stands)
    {s : S}
    (hStart : Stands s [])
    {calls : List C}
    (hOk : Meets ok calls) :
    Stands (record check s calls).1
      (record check s calls).2 := by
  induction calls using List.reverseRecOn with
  | nil =>
      exact hStart
  | append_singleton calls call ih =>
      obtain ⟨hEarlier, hCall⟩ := meets_of_append_singleton hOk
      rw [← map_fst_record check s calls] at hCall
      rw [record_append_singleton]
      exact (hStep _ _ call (ih hEarlier) hCall).2

/- So every call is answered as the rule says. -/
theorem answer_of_step
    (hStep : Step rule check ok Stands)
    {s : S}
    (hStart : Stands s [])
    {calls : List C}
    {call : C}
    (hOk : Meets ok (calls ++ [call])) :
    (check (record check s calls).1 call).2 =
      rule.expected (record check s calls).2 call := by
  obtain ⟨hEarlier, hCall⟩ := meets_of_append_singleton hOk
  rw [← map_fst_record check s calls] at hCall
  exact
    (hStep _ _ call (stands_record hStep hStart hEarlier)
      hCall).1

theorem follows_of_step
    (hStep : Step rule check ok Stands)
    {s : S}
    (hStart : Stands s [])
    {calls : List C}
    (hOk : Meets ok calls) :
    Follows rule (record check s calls).2 := by
  induction calls using List.reverseRecOn with
  | nil =>
      exact follows_nil rule
  | append_singleton calls call ih =>
      have hAnswer := answer_of_step hStep hStart hOk
      rw [record_append_singleton, follows_append_singleton]
      exact ⟨ih (meets_of_append_singleton hOk).1, hAnswer⟩

/- The calls of one key are answered as if they were alone. -/
theorem entries_record
    (hStep : Step rule check ok Stands)
    {s other : S}
    (hStart : Stands s [])
    (hOther : Stands other [])
    (key : K)
    {calls : List C}
    (hOk : Meets ok calls)
    (hOwn :
      Meets ok
        (calls.filter (fun call => rule.key call = key))) :
    rule.entries key (record check s calls).2 =
      (record check other
        (calls.filter (fun call => rule.key call = key))).2 := by
  apply eq_of_follows
    (follows_entries (follows_of_step hStep hStart hOk) key)
    (follows_of_step hStep hOther hOwn)
  rw [map_fst_record]
  conv_rhs => rw [← map_fst_record check s calls]
  rw [List.filter_map]
  rfl

/- So is the next call of that key. -/
theorem answer_alone
    (hStep : Step rule check ok Stands)
    {s other : S}
    (hStart : Stands s [])
    (hOther : Stands other [])
    {calls : List C}
    {call : C}
    (hOk : Meets ok (calls ++ [call]))
    (hOwn :
      Meets ok
        ((calls ++ [call]).filter
          (fun earlier => rule.key earlier = rule.key call))) :
    (check (record check s calls).1 call).2 =
      (check
        (record check other
          (calls.filter
            (fun earlier =>
              rule.key earlier = rule.key call))).1
        call).2 := by
  have hFilter :
      (calls ++ [call]).filter
          (fun earlier => rule.key earlier = rule.key call) =
        calls.filter
            (fun earlier => rule.key earlier = rule.key call) ++
          [call] := by
    simp [List.filter_append]
  rw [hFilter] at hOwn
  rw [answer_of_step hStep hStart hOk,
    answer_of_step hStep hOther hOwn,
    ← entries_record hStep hStart hOther (rule.key call)
      (meets_of_append_singleton hOk).1
      (meets_of_append_singleton hOwn).1]
  unfold Rule.expected
  rw [entries_entries]

/- Two implementations of one rule answer alike. -/
theorem answer_eq_of_steps
    {S' : Type}
    {check' : S' → C → S' × A}
    {Stands' : S' → List (C × A) → Prop}
    (hStep : Step rule check ok Stands)
    (hStep' : Step rule check' ok Stands')
    {s : S}
    {s' : S'}
    (hStart : Stands s [])
    (hStart' : Stands' s' [])
    {calls : List C}
    {call : C}
    (hOk : Meets ok (calls ++ [call])) :
    (check (record check s calls).1 call).2 =
      (check' (record check' s' calls).1 call).2 := by
  have hEarlier := (meets_of_append_singleton hOk).1
  have hLogs :
      (record check s calls).2 = (record check' s' calls).2 := by
    apply eq_of_follows
      (follows_of_step hStep hStart hEarlier)
      (follows_of_step hStep' hStart' hEarlier)
    rw [map_fst_record, map_fst_record]
  rw [answer_of_step hStep hStart hOk,
    answer_of_step hStep' hStart' hOk, hLogs]

end CallLog
