import SentinelCommand.Lib.Calls
import SentinelCommand.Plans.SettingsTable

/-
  `settings::set` and `settings::get` of one pair
  (organization, key) as the operations of a register, when
  calls run side by side.

  A set selects and then updates the row it found, or inserts
  when it found none. Nothing makes the pair unique: two sets
  that both find none leave two rows, and `LIMIT 1` without
  an order lets a later reader take either.

  Main declarations:
    * `Register.RegisterCall`, `Register.registerProgram`
    * `Register.register_when_first_alone`
    * `Register.first_writers_duplicate`
-/

--------------------
-- Calls
--------------------

namespace SentinelCommand

namespace Register

open Plans

/- The rows of the pair. -/
def pairRows
    (table : SettingsTable)
    (orgId key : String) : List SettingsRow :=
  table.rows.filter (isSetting orgId key)

/- `LIMIT 1` with no order: some row, if there is one. -/
def selectAny
    (table : SettingsTable)
    (orgId key : String)
    (pick : Nat) : Option SettingsRow :=
  let rows := pairRows table orgId key
  rows[pick % rows.length]?

/- How far a call has come. -/
inductive RegisterCall where
  | selecting (value : String)
  | updating (value : String) (id : Nat)
  | inserting (value : String)
  | stored (value : String)
  | getting (default : Option String)
  | got (value : Option String)
  | failed
  deriving DecidableEq, Repr

inductive RegisterStart where
  | set (value : String)
  | get (default : Option String)
  deriving DecidableEq, Repr

/- Whether the statement fails, and which row it picks. -/
structure Reply where
  fails : Bool
  pick : Nat
  deriving DecidableEq, Repr

def beginRegister
    (table : SettingsTable) :
    RegisterStart → SettingsTable × Option RegisterCall
| .set value => (table, some (.selecting value))
| .get default => (table, some (.getting default))

/- The call goes on with its next statement. -/
def resumeRegister
    (orgId key : String)
    (table : SettingsTable)
    (call : RegisterCall)
    (reply : Reply) : SettingsTable × RegisterCall :=
  match call with
  | .selecting value =>
      if reply.fails then
        (table, .failed)
      else
        match selectAny table orgId key reply.pick with
        | some row =>
            if row.value = some value then
              (table, .stored value)
            else
              (table, .updating value row.id)
        | none => (table, .inserting value)
  | .updating value id =>
      if reply.fails then
        (table, .failed)
      else
        (table.update id value, .stored value)
  | .inserting value =>
      if reply.fails then
        (table, .failed)
      else
        (table.insert orgId key value, .stored value)
  | .getting default =>
      if reply.fails then
        (table, .failed)
      else
        match selectAny table orgId key reply.pick with
        | some row => (table, .got row.value)
        | none => (table, .got default)
  | .stored value => (table, .stored value)
  | .got value => (table, .got value)
  | .failed => (table, .failed)

def registerProgram
    (orgId key : String) :
    Calls.Program SettingsTable RegisterCall RegisterStart
      Reply where
  begin := beginRegister
  resume := resumeRegister orgId key

abbrev RegisterConfig : Type :=
  Calls.Config SettingsTable RegisterCall

abbrev RegisterEvent : Type :=
  Calls.Event RegisterStart Reply

def registerStep
    (orgId key : String) :
    RegisterConfig → RegisterEvent → RegisterConfig :=
  Calls.step (registerProgram orgId key)

/- A set that has not returned. -/
def RegisterCall.sets : RegisterCall → Bool
| .selecting _ => true
| .updating _ _ => true
| .inserting _ => true
| _ => false

def RegisterCall.inserts : RegisterCall → Bool
| .inserting _ => true
| _ => false

def startsSet : RegisterEvent → Bool
| .start (.set _) => true
| _ => false

/-
  If the event is the select of a set that finds no row, no
  other set has found none and has still to insert.
-/
def FirstAlone
    (orgId key : String)
    (c : RegisterConfig)
    (e : RegisterEvent) : Prop :=
  match Calls.resumed c e with
  | some (.selecting _, reply) =>
      reply.fails = false →
        pairRows c.shared orgId key = [] →
          ∀ call ∈ c.calls, call.inserts = false
  | _ => True

/-
  A set of a value starts after `past`, when no other set is
  under way, and has returned before a get starts; no other
  set starts until the end.
-/
structure ReadAfterSet
    (orgId key : String)
    (table : SettingsTable)
    (past during later : List RegisterEvent)
    (value : String) : Prop where
  alone :
    ∀ call ∈
        (Run.exec (registerStep orgId key)
          (Calls.initial table) past).calls,
      call.sets = false
  noneDuring : ∀ e ∈ during, startsSet e = false
  returned :
    (Run.exec (registerStep orgId key) (Calls.initial table)
          (past ++ .start (.set value) :: during)).calls[
        (Run.exec (registerStep orgId key)
          (Calls.initial table) past).calls.length]? =
      some (.stored value)
  noneLater : ∀ e ∈ later, startsSet e = false

/- What the get of such a run has come to. -/
def readOf
    (orgId key : String)
    (table : SettingsTable)
    (past during later : List RegisterEvent)
    (value : String)
    (default : Option String) : Option RegisterCall :=
  let set :=
    Run.exec (registerStep orgId key) (Calls.initial table)
      (past ++ .start (.set value) :: during)
  (Run.exec (registerStep orgId key) set
      (.start (.get default) :: later)).calls[
    set.calls.length]?

variable {orgId key : String}
variable {table : SettingsTable}

theorem pairRows_update
    (id : Nat)
    (value : String) :
    pairRows (table.update id value) orgId key =
      (pairRows table orgId key).map
        (SettingsTable.setValue id value) := by
  simp only [pairRows, SettingsTable.update, List.filter_map,
    isSetting_setValue]

theorem pairRows_insert (value : String) :
    pairRows (table.insert orgId key value) orgId key =
      pairRows table orgId key ++
        [{ id := table.nextId, orgId := orgId, key := key
           value := some value }] := by
  simp [pairRows, SettingsTable.insert, isSetting]

theorem selectAny_eq_none_iff {pick : Nat} :
    selectAny table orgId key pick = none ↔
      pairRows table orgId key = [] := by
  unfold selectAny
  dsimp only
  cases hRows : pairRows table orgId key with
  | nil => simp
  | cons row rest =>
      simp only [reduceCtorEq, iff_false]
      have hLt :
          pick % (row :: rest).length < (row :: rest).length :=
        Nat.mod_lt _ (Nat.succ_pos _)
      rw [List.getElem?_eq_getElem hLt]
      exact Option.some_ne_none _

theorem selectAny_singleton
    {row : SettingsRow}
    (hRows : pairRows table orgId key = [row])
    (pick : Nat) :
    selectAny table orgId key pick = some row := by
  simp [selectAny, hRows, Nat.mod_one]

--------------------
-- Moves
--------------------

variable {table after : SettingsTable}
variable {call next : RegisterCall}
variable {reply : Reply}

/- What a call does with its next statement. -/
inductive RegisterMove
    (orgId key : String)
    (table : SettingsTable)
    (reply : Reply) :
    RegisterCall → SettingsTable → RegisterCall → Prop where
  | fail (call : RegisterCall) :
      RegisterMove orgId key table reply call table .failed
  | same
      (value : String)
      (row : SettingsRow)
      (hRow : selectAny table orgId key reply.pick = some row)
      (hSame : row.value = some value) :
      RegisterMove orgId key table reply (.selecting value)
        table (.stored value)
  | found
      (value : String)
      (row : SettingsRow)
      (hRow :
        selectAny table orgId key reply.pick = some row) :
      RegisterMove orgId key table reply (.selecting value)
        table (.updating value row.id)
  | first
      (value : String)
      (hRuns : reply.fails = false)
      (hNone : pairRows table orgId key = []) :
      RegisterMove orgId key table reply (.selecting value)
        table (.inserting value)
  | update (value : String) (id : Nat) :
      RegisterMove orgId key table reply (.updating value id)
        (table.update id value) (.stored value)
  | insert (value : String) :
      RegisterMove orgId key table reply (.inserting value)
        (table.insert orgId key value) (.stored value)
  | read
      (default : Option String)
      (row : SettingsRow)
      (hRow :
        selectAny table orgId key reply.pick = some row) :
      RegisterMove orgId key table reply (.getting default)
        table (.got row.value)
  | absent
      (default : Option String)
      (hNone : pairRows table orgId key = []) :
      RegisterMove orgId key table reply (.getting default)
        table (.got default)
  | stay
      (call : RegisterCall)
      (hSets : call.sets = false)
      (hGets : ∀ default, call ≠ .getting default) :
      RegisterMove orgId key table reply call table call

theorem move_of_resume
    (orgId key : String)
    (table : SettingsTable)
    (call : RegisterCall)
    (reply : Reply) :
    RegisterMove orgId key table reply call
      (resumeRegister orgId key table call reply).1
      (resumeRegister orgId key table call reply).2 := by
  cases call with
  | selecting value =>
      cases hFails : reply.fails with
      | true =>
          simp only [resumeRegister, hFails, if_true]
          exact .fail _
      | false =>
          simp only [resumeRegister, hFails,
            Bool.false_eq_true, if_false]
          cases hRow :
              selectAny table orgId key reply.pick with
          | none =>
              exact
                .first value hFails
                  (selectAny_eq_none_iff.mp hRow)
          | some row =>
              by_cases hSame : row.value = some value
              · simp only [hSame, if_true]
                exact .same value row hRow hSame
              · simp only [hSame, if_false]
                exact .found value row hRow
  | updating value id =>
      cases hFails : reply.fails with
      | true =>
          simp only [resumeRegister, hFails, if_true]
          exact .fail _
      | false =>
          simp only [resumeRegister, hFails,
            Bool.false_eq_true, if_false]
          exact .update value id
  | inserting value =>
      cases hFails : reply.fails with
      | true =>
          simp only [resumeRegister, hFails, if_true]
          exact .fail _
      | false =>
          simp only [resumeRegister, hFails,
            Bool.false_eq_true, if_false]
          exact .insert value
  | getting default =>
      cases hFails : reply.fails with
      | true =>
          simp only [resumeRegister, hFails, if_true]
          exact .fail _
      | false =>
          simp only [resumeRegister, hFails,
            Bool.false_eq_true, if_false]
          cases hRow :
              selectAny table orgId key reply.pick with
          | none =>
              exact
                .absent default (selectAny_eq_none_iff.mp hRow)
          | some row => exact .read default row hRow
  | stored value => exact .stay _ rfl (fun _ => nofun)
  | got value => exact .stay _ rfl (fun _ => nofun)
  | failed => exact .stay _ rfl (fun _ => nofun)

/- A call that sets nothing leaves the table alone. -/
theorem reads_move
    (hMove : RegisterMove orgId key table reply call after next)
    (hSets : call.sets = false) :
    after = table ∧ next.sets = false := by
  cases hMove with
  | fail => exact ⟨rfl, rfl⟩
  | same => cases hSets
  | found => cases hSets
  | first => cases hSets
  | update => cases hSets
  | insert => cases hSets
  | read => exact ⟨rfl, rfl⟩
  | absent => exact ⟨rfl, rfl⟩
  | stay => exact ⟨rfl, hSets⟩

--------------------
-- One Row
--------------------

variable {c : RegisterConfig}

/- One for a set that has still to insert. -/
def pendingInsert (call : RegisterCall) : Int :=
  if call.inserts then 1 else 0

/- The rows of the pair and those to come are one at most. -/
def OneRow
    (orgId key : String)
    (c : RegisterConfig) : Prop :=
  ((pairRows c.shared orgId key).length : Int) +
      Calls.held pendingInsert c.calls ≤
    1

theorem pendingInsert_nonneg (call : RegisterCall) :
    0 ≤ pendingInsert call := by
  unfold pendingInsert
  split <;> decide

theorem held_pendingInsert_nonneg
    (calls : List RegisterCall) :
    0 ≤ Calls.held pendingInsert calls :=
  Calls.held_nonneg (fun call _ => pendingInsert_nonneg call)

theorem length_le_of_oneRow
    (hOne : OneRow orgId key c) :
    (pairRows c.shared orgId key).length ≤ 1 := by
  have hHeld := held_pendingInsert_nonneg c.calls
  unfold OneRow at hOne
  omega

theorem oneRow_resumed
    {id : Nat}
    {call next : RegisterCall}
    {after : SettingsTable}
    {reply : Reply}
    (hOne : OneRow orgId key c)
    (hCall : c.calls[id]? = some call)
    (hMove :
      RegisterMove orgId key c.shared reply call after next)
    (hFirst : FirstAlone orgId key c (.resume id reply)) :
    OneRow orgId key
      { shared := after, calls := c.calls.set id next } := by
  have hHeld := Calls.held_resume pendingInsert next hCall
  have hOwn := pendingInsert_nonneg call
  unfold OneRow at hOne ⊢
  dsimp only
  rw [hHeld]
  cases hMove with
  | fail =>
      have hNone : pendingInsert .failed = 0 := rfl
      omega
  | same value =>
      have hNext : pendingInsert (.stored value) = 0 := rfl
      omega
  | found value row =>
      have hNext :
          pendingInsert (.updating value row.id) = 0 := rfl
      omega
  | first value hRuns hNone =>
      simp only [FirstAlone, Calls.resumed, hCall,
        Option.map_some] at hFirst
      have hZero : Calls.held pendingInsert c.calls = 0 := by
        apply Calls.held_eq_zero
        intro other hOther
        simp [pendingInsert, hFirst hRuns hNone other hOther]
      have hThis : pendingInsert (.selecting value) = 0 := rfl
      have hNext : pendingInsert (.inserting value) = 1 := rfl
      rw [hNone, hZero, hThis, hNext]
      decide
  | update value row =>
      have hNext : pendingInsert (.stored value) = 0 := rfl
      rw [pairRows_update, List.length_map]
      omega
  | insert value =>
      have hThis : pendingInsert (.inserting value) = 1 := rfl
      have hNext : pendingInsert (.stored value) = 0 := rfl
      rw [pairRows_insert, List.length_append, hThis, hNext]
      rw [List.length_singleton]
      omega
  | read default row =>
      have hNext : pendingInsert (.got row.value) = 0 := rfl
      omega
  | absent default =>
      have hNext : pendingInsert (.got default) = 0 := rfl
      omega
  | stay => omega

theorem oneRow_step
    (hOne : OneRow orgId key c)
    {e : RegisterEvent}
    (hFirst : FirstAlone orgId key c e) :
    OneRow orgId key (registerStep orgId key c e) := by
  cases e with
  | start what =>
      cases what with
      | set value =>
          simpa [OneRow, registerStep, Calls.step,
            registerProgram, beginRegister, Calls.held_append,
            pendingInsert, RegisterCall.inserts] using hOne
      | get default =>
          simpa [OneRow, registerStep, Calls.step,
            registerProgram, beginRegister, Calls.held_append,
            pendingInsert, RegisterCall.inserts] using hOne
  | resume id reply =>
      cases hCall : c.calls[id]? with
      | none =>
          simpa [registerStep, Calls.step, hCall] using hOne
      | some call =>
          simp only [registerStep, Calls.step, hCall,
            registerProgram]
          exact
            oneRow_resumed hOne hCall
              (move_of_resume orgId key c.shared call reply)
              hFirst

--------------------
-- A Set on Its Own
--------------------

variable {orgId key value : String}
variable {place : Nat}

/- The pair has one row, and it holds the value. -/
def Holds
    (orgId key : String)
    (table : SettingsTable)
    (value : String) : Prop :=
  ∃ row, pairRows table orgId key = [row] ∧
    row.value = some value

/- How the table looks to a set that no other set disturbs. -/
def SetAt
    (orgId key : String)
    (table : SettingsTable)
    (value : String) : RegisterCall → Prop
| .selecting asked => asked = value
| .updating asked id =>
    asked = value ∧
      ∃ row, pairRows table orgId key = [row] ∧ row.id = id
| .inserting asked =>
    asked = value ∧ pairRows table orgId key = []
| .stored asked => asked = value ∧ Holds orgId key table value
| .failed => True
| _ => False

/- The set at a place is the only one under way. -/
structure OnlySet
    (orgId key value : String)
    (place : Nat)
    (c : RegisterConfig) : Prop where
  one : OneRow orgId key c
  own :
    ∃ call, c.calls[place]? = some call ∧
      SetAt orgId key c.shared value call
  others :
    ∀ i call, i ≠ place → c.calls[i]? = some call →
      call.sets = false

theorem pairRows_of_selectAny
    {table : SettingsTable}
    {pick : Nat}
    {row : SettingsRow}
    (hLength : (pairRows table orgId key).length ≤ 1)
    (hRow : selectAny table orgId key pick = some row) :
    pairRows table orgId key = [row] := by
  cases hRows : pairRows table orgId key with
  | nil =>
      rw [selectAny_eq_none_iff.mpr hRows] at hRow
      cases hRow
  | cons first rest =>
      rw [hRows] at hLength
      have hRest : rest = [] := by
        apply List.eq_nil_of_length_eq_zero
        simp only [List.length_cons] at hLength
        omega
      subst hRest
      rw [selectAny_singleton hRows] at hRow
      rw [Option.some.inj hRow]

/- The set itself goes on. -/
theorem setAt_move
    {table after : SettingsTable}
    {call next : RegisterCall}
    {reply : Reply}
    (hLength : (pairRows table orgId key).length ≤ 1)
    (hAt : SetAt orgId key table value call)
    (hMove :
      RegisterMove orgId key table reply call after next) :
    SetAt orgId key after value next := by
  cases hMove with
  | fail => trivial
  | same asked row hRow hSame =>
      have hAsked : asked = value := hAt
      exact
        ⟨hAsked, row, pairRows_of_selectAny hLength hRow,
          hAsked ▸ hSame⟩
  | found asked row hRow =>
      exact
        ⟨hAt, row, pairRows_of_selectAny hLength hRow, rfl⟩
  | first asked hRuns hNone => exact ⟨hAt, hNone⟩
  | update asked id =>
      rcases hAt with ⟨hAsked, row, hRows, hId⟩
      refine
        ⟨hAsked, SettingsTable.setValue id asked row, ?_, ?_⟩
      · rw [pairRows_update, hRows]
        rfl
      · simp [SettingsTable.setValue, hId, hAsked]
  | insert asked =>
      rcases hAt with ⟨hAsked, hNone⟩
      have hRows := @pairRows_insert orgId key table asked
      rw [hNone, List.nil_append] at hRows
      exact ⟨hAsked, _, hRows, congrArg some hAsked⟩
  | read => exact hAt.elim
  | absent => exact hAt.elim
  | stay => exact hAt

/- The set stays where it is, as far as it has come. -/
theorem own_step
    (hOnly : OnlySet orgId key value place c)
    {e : RegisterEvent}
    (hNoSet : startsSet e = false) :
    ∃ call,
      (registerStep orgId key c e).calls[place]? = some call ∧
        SetAt orgId key (registerStep orgId key c e).shared
          value call := by
  rcases hOnly.own with ⟨own, hOwn, hAt⟩
  cases e with
  | start what =>
      cases what with
      | set => cases hNoSet
      | get => exact ⟨own, Calls.getElem?_started hOwn _, hAt⟩
  | resume id reply =>
      cases hCall : c.calls[id]? with
      | none =>
          simpa [registerStep, Calls.step, hCall] using
            hOnly.own
      | some call =>
          have hMove :=
            move_of_resume orgId key c.shared call reply
          simp only [registerStep, Calls.step, hCall,
            registerProgram]
          by_cases hPlace : id = place
          · subst hPlace
            rw [hOwn] at hCall
            cases hCall
            rcases List.getElem?_eq_some_iff.mp hOwn with
              ⟨hLt, -⟩
            exact
              ⟨_, List.getElem?_set_self hLt,
                setAt_move (length_le_of_oneRow hOnly.one) hAt
                  hMove⟩
          · have hSets := hOnly.others id call hPlace hCall
            refine ⟨own, ?_, ?_⟩
            · rw [List.getElem?_set_ne hPlace]
              exact hOwn
            · rw [(reads_move hMove hSets).1]
              exact hAt

/- And no other call becomes a set. -/
theorem others_step
    (hOnly : OnlySet orgId key value place c)
    {e : RegisterEvent}
    (hNoSet : startsSet e = false)
    {i : Nat}
    {other : RegisterCall}
    (hNe : i ≠ place)
    (hOther :
      (registerStep orgId key c e).calls[i]? = some other) :
    other.sets = false := by
  cases e with
  | start what =>
      cases what with
      | set => cases hNoSet
      | get default =>
          rcases Calls.cases_of_started hOther with
            hOld | rfl
          · exact hOnly.others i other hNe hOld
          · rfl
  | resume id reply =>
      cases hCall : c.calls[id]? with
      | none =>
          simp only [registerStep, Calls.step, hCall] at hOther
          exact hOnly.others i other hNe hOther
      | some call =>
          have hMove :=
            move_of_resume orgId key c.shared call reply
          simp only [registerStep, Calls.step, hCall,
            registerProgram] at hOther
          rcases Calls.cases_of_resumed hOther with
            ⟨rfl, rfl⟩ | ⟨-, hOld⟩
          · exact
              (reads_move hMove
                (hOnly.others i call hNe hCall)).2
          · exact hOnly.others i other hNe hOld

theorem onlySet_step
    (hOnly : OnlySet orgId key value place c)
    {e : RegisterEvent}
    (hNoSet : startsSet e = false)
    (hFirst : FirstAlone orgId key c e) :
    OnlySet orgId key value place
      (registerStep orgId key c e) where
  one := oneRow_step hOnly.one hFirst
  own := own_step hOnly hNoSet
  others := fun _ _ hNe hOther =>
    others_step hOnly hNoSet hNe hOther

--------------------
-- Readers After a Set
--------------------

variable {first : Nat}

/-
  The value is stored, no set is under way, and the gets
  from a place on read the value.
-/
structure Stored
    (orgId key value : String)
    (first : Nat)
    (c : RegisterConfig) : Prop where
  holds : Holds orgId key c.shared value
  none : ∀ call ∈ c.calls, call.sets = false
  reads :
    ∀ i call, first ≤ i → c.calls[i]? = some call →
      ∀ result, call = .got result → result = some value

/- A get that reads now reads the value. -/
theorem got_move
    {table after : SettingsTable}
    {call : RegisterCall}
    {reply : Reply}
    {result : Option String}
    (hHolds : Holds orgId key table value)
    (hMove :
      RegisterMove orgId key table reply call after
        (.got result))
    (hBefore :
      ∀ earlier, call = .got earlier → earlier = some value) :
    result = some value := by
  rcases hHolds with ⟨row, hRows, hValue⟩
  cases hMove with
  | read default other hOther =>
      rw [selectAny_singleton hRows] at hOther
      cases hOther
      exact hValue
  | absent default hNone =>
      rw [hRows] at hNone
      cases hNone
  | stay => exact hBefore result rfl

theorem stored_of_onlySet
    {place : Nat}
    (hOnly : OnlySet orgId key value place c)
    (hReturned : c.calls[place]? = some (.stored value)) :
    Stored orgId key value c.calls.length c := by
  rcases hOnly.own with ⟨own, hOwn, hAt⟩
  rw [hReturned] at hOwn
  cases hOwn
  refine ⟨hAt.2, ?_, ?_⟩
  · intro call hIn
    rcases List.getElem?_of_mem hIn with ⟨i, hCall⟩
    by_cases hPlace : i = place
    · subst hPlace
      rw [hReturned] at hCall
      cases hCall
      rfl
    · exact hOnly.others i call hPlace hCall
  · intro i call hLe hCall
    rcases List.getElem?_eq_some_iff.mp hCall with ⟨hLt, -⟩
    omega

theorem stored_step
    (hStored : Stored orgId key value first c)
    {e : RegisterEvent}
    (hNoSet : startsSet e = false) :
    Stored orgId key value first
      (registerStep orgId key c e) := by
  cases e with
  | start what =>
      cases what with
      | set => cases hNoSet
      | get default =>
          refine
            ⟨hStored.holds,
              Calls.forall_started hStored.none rfl, ?_⟩
          intro i call hLe hCall result hGot
          rcases Calls.cases_of_started hCall with
            hOld | hNew
          · exact hStored.reads i call hLe hOld result hGot
          · rw [hNew] at hGot
            cases hGot
  | resume id reply =>
      cases hCall : c.calls[id]? with
      | none =>
          simpa [registerStep, Calls.step, hCall] using hStored
      | some call =>
          have hMove :=
            move_of_resume orgId key c.shared call reply
          have hSets :=
            hStored.none call (List.mem_of_getElem? hCall)
          rcases reads_move hMove hSets with ⟨hAfter, hNext⟩
          simp only [registerStep, Calls.step, hCall,
            registerProgram]
          refine
            ⟨hAfter.symm ▸ hStored.holds,
              Calls.forall_resumed hStored.none hNext, ?_⟩
          intro i other hLe hOther result hGot
          rcases Calls.cases_of_resumed hOther with
            ⟨rfl, rfl⟩ | ⟨-, hOld⟩
          · rw [hGot] at hMove
            exact
              got_move hStored.holds hMove
                (hStored.reads i call hLe hCall)
          · exact hStored.reads i other hLe hOld result hGot

--------------------
-- Every Interleaving
--------------------

theorem oneRow_initial
    (hNone : pairRows table orgId key = []) :
    OneRow orgId key (Calls.initial table) := by
  unfold OneRow Calls.initial
  dsimp only
  rw [hNone]
  decide

/- The run of a set and a get after it. -/
def readRun
    (past during later : List RegisterEvent)
    (value : String)
    (default : Option String) : List RegisterEvent :=
  (past ++ .start (.set value) :: during) ++
    .start (.get default) :: later

/- A set that starts when no other is under way. -/
theorem onlySet_start
    {c : RegisterConfig}
    (hOne : OneRow orgId key c)
    (hAlone : ∀ call ∈ c.calls, call.sets = false)
    (value : String) :
    OnlySet orgId key value c.calls.length
      (registerStep orgId key c (.start (.set value))) where
  one := oneRow_step hOne trivial
  own :=
    ⟨.selecting value, List.getElem?_concat_length, rfl⟩
  others := by
    intro i call hNe hCall
    rcases List.getElem?_eq_some_iff.mp hCall with ⟨hLt, -⟩
    simp only [registerStep, Calls.step, registerProgram,
      beginRegister, Option.toList_some, List.length_append,
      List.length_singleton] at hLt hCall
    rw [List.getElem?_append_left (by omega)] at hCall
    exact hAlone call (List.mem_of_getElem? hCall)

/- A run without another set keeps a stored value. -/
theorem read_of_stored
    {c : RegisterConfig}
    {value : String}
    {later : List RegisterEvent}
    (hStored :
      Stored orgId key value c.calls.length c)
    (hNoneLater : ∀ e ∈ later, startsSet e = false)
    (default : Option String)
    {result : Option String}
    (hRead :
      (Run.exec (registerStep orgId key) c
          (.start (.get default) :: later)).calls[
        c.calls.length]? = some (.got result)) :
    result = some value := by
  have hMeets :
      Run.Meets (registerStep orgId key)
        (fun _ e => startsSet e = false) c
        (.start (.get default) :: later) :=
    ⟨rfl,
      Run.meets_of_forall
        (fun e hIn _ => hNoneLater e hIn) _⟩
  have hStep :
      ∀ d e, Stored orgId key value c.calls.length d →
        startsSet e = false →
          Stored orgId key value c.calls.length
            (registerStep orgId key d e) :=
    fun _ _ hNow hNoSet => stored_step hNow hNoSet
  have hEnd := Run.invariant_of_meets hStep hStored hMeets
  exact
    hEnd.reads _ _ (Nat.le_refl _) hRead result rfl

/-
  While no set finds the pair absent beside another that did
  and has still to insert, the pair has one row at most, and
  a get that starts after a set has returned, no other set
  being under way or following, reads that set's value.
-/
theorem register_when_first_alone
    (orgId key : String)
    (table : SettingsTable)
    (hNone : pairRows table orgId key = []) :
    (∀ events : List RegisterEvent,
      Run.Meets (registerStep orgId key) (FirstAlone orgId key)
          (Calls.initial table) events →
        (pairRows
            (Run.exec (registerStep orgId key)
              (Calls.initial table) events).shared
            orgId key).length ≤ 1) ∧
      ∀ (past during later : List RegisterEvent)
        (value : String) (default result : Option String),
        Run.Meets (registerStep orgId key)
            (FirstAlone orgId key) (Calls.initial table)
            (readRun past during later value default) →
          ReadAfterSet orgId key table past during later
              value →
            readOf orgId key table past during later value
                default = some (.got result) →
              result = some value := by
  have hStep :
      ∀ c e, OneRow orgId key c → FirstAlone orgId key c e →
        OneRow orgId key (registerStep orgId key c e) :=
    fun _ _ hOne hFirst => oneRow_step hOne hFirst
  constructor
  · intro events hMeets
    exact
      length_le_of_oneRow
        (Run.invariant_of_meets hStep (oneRow_initial hNone)
          hMeets)
  · intro past during later value default result hMeets hSet
      hRead
    have hBefore := ((Run.meets_append _ _ _ _ _).mp hMeets).1
    rcases (Run.meets_append _ _ _ _ _).mp hBefore with
      ⟨hPast, -, hDuring⟩
    have hOne :=
      Run.invariant_of_meets hStep (oneRow_initial hNone) hPast
    have hOnly := onlySet_start hOne hSet.alone value
    have hOnlyStep :
        ∀ c e,
          OnlySet orgId key value
              (Run.exec (registerStep orgId key)
                (Calls.initial table) past).calls.length c →
            startsSet e = false ∧ FirstAlone orgId key c e →
              OnlySet orgId key value
                (Run.exec (registerStep orgId key)
                  (Calls.initial table) past).calls.length
                (registerStep orgId key c e) :=
      fun _ _ hNow hOk => onlySet_step hNow hOk.1 hOk.2
    have hQuiet :
        Run.Meets (registerStep orgId key)
          (fun _ e => startsSet e = false)
          (registerStep orgId key
            (Run.exec (registerStep orgId key)
              (Calls.initial table) past)
            (.start (.set value)))
          during :=
      Run.meets_of_forall
        (fun e hIn _ => hSet.noneDuring e hIn) _
    have hReturned :=
      Run.invariant_of_meets hOnlyStep hOnly
        (Run.meets_and hQuiet hDuring)
    rw [← Run.exec_cons, ← Run.exec_append] at hReturned
    exact
      read_of_stored
        (stored_of_onlySet hReturned hSet.returned)
        hSet.noneLater default hRead

/- The table of a new installation. -/
def noSettings : SettingsTable where
  rows := []
  nextId := 1
  unique := List.nodup_nil
  fresh := SettingsTable.fresh_nil

/- The statement runs, on the row at a place. -/
def picks (place : Nat) : Reply where
  fails := false
  pick := place

def firstSet : List RegisterEvent :=
  [.start (.set "monthly"), .resume 0 (picks 0),
    .resume 0 (picks 0)]

def secondSet : List RegisterEvent :=
  [.resume 1 (picks 0), .resume 1 (picks 0)]

/- One set after another, and a get. -/
theorem register_of_two_sets :
    (pairRows
        (Run.exec (registerStep "org" "plan")
          (Calls.initial noSettings)
          (readRun firstSet secondSet [.resume 2 (picks 0)]
            "yearly" none)).shared
        "org" "plan").length ≤ 1 ∧
      ∀ result : Option String,
        readOf "org" "plan" noSettings firstSet secondSet
            [.resume 2 (picks 0)] "yearly" none =
          some (.got result) →
          result = some "yearly" :=
  have hAlone :
      Run.Meets (registerStep "org" "plan")
        (FirstAlone "org" "plan") (Calls.initial noSettings)
        (readRun firstSet secondSet [.resume 2 (picks 0)]
          "yearly" none) :=
    ⟨trivial, fun _ _ => by decide, trivial, trivial,
      fun _ _ => by decide, trivial, trivial, trivial,
      trivial⟩
  have hBoth :=
    register_when_first_alone "org" "plan" noSettings rfl
  ⟨hBoth.1 _ hAlone, fun result =>
    hBoth.2 firstSet secondSet [.resume 2 (picks 0)] "yearly"
      none result hAlone
      ⟨by decide, by decide, by decide, by decide⟩⟩

/- Two sets that both find no row. -/
def firstWriters : List RegisterEvent :=
  [.start (.set "monthly"), .start (.set "yearly"),
    .resume 0 (picks 0), .resume 1 (picks 0),
    .resume 0 (picks 0), .resume 1 (picks 0)]

/-
  They leave two rows; a later set updates one of them, and
  a get may take the other.
-/
theorem first_writers_duplicate :
    (¬ ∀ events : List RegisterEvent,
      (pairRows
          (Run.exec (registerStep "org" "plan")
            (Calls.initial noSettings) events).shared
          "org" "plan").length ≤ 1) ∧
      ¬ ∀ (past during later : List RegisterEvent)
        (value : String) (default result : Option String),
        ReadAfterSet "org" "plan" noSettings past during later
            value →
          readOf "org" "plan" noSettings past during later
              value default = some (.got result) →
            result = some value := by
  constructor
  · intro hAll
    exact absurd (hAll firstWriters) (by decide)
  · intro hAll
    have hRead :=
      hAll firstWriters
        [.resume 2 (picks 0), .resume 2 (picks 0)]
        [.resume 3 (picks 1)] "none" none (some "yearly")
        ⟨by decide, by decide, by decide, by decide⟩
        (by decide)
    exact absurd hRead (by decide)

end Register

end SentinelCommand
