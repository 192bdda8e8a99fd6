import Mathlib.Data.List.Count
import SentinelCommand.Json
import SentinelCommand.Lib.Run

/-
  `process_pending_runs`: the agent works through the queue of
  pending runs, several at a time.

  The queue is the service's, oldest run first, and changes
  whenever it likes: runs are added at the place their trigger
  time gives them and leave for good. The runs in flight are
  polled only while the drain waits for one of them.

  Main declarations:
    * `Agent.Drain`, `Agent.fill`, `Agent.finish`
    * `Agent.Config`, `Agent.step`
-/

--------------------
-- Runs and Options
--------------------

namespace SentinelCommand

namespace Agent

structure DrainOptions where
  maxRuns : Nat
  maxConcurrent : Nat
  maxPerOrg : Nat
  deriving DecidableEq, Repr

/- `DrainOptions::new`. -/
def DrainOptions.new : DrainOptions where
  maxRuns := 20
  maxConcurrent := 4
  maxPerOrg := 2

/- Runs that may be in flight together. -/
def DrainOptions.slots (options : DrainOptions) : Nat :=
  max options.maxConcurrent 1

/- Of those, runs of one org. -/
def DrainOptions.share (options : DrainOptions) : Nat :=
  max options.maxPerOrg 1

/- `run.get(name)`. -/
def field (run : Json) (name : String) : Option Json :=
  run.asObject.bind (·.lookup name)

def runIdOf (run : Json) : String :=
  match field run "id" with
  | some (.string id) => id
  | some (.integer id) => toString id
  | some (.float spelling) => spelling
  | _ => "?"

def orgOf (run : Json) : Option String :=
  match field run "org_id" with
  | some (.string org) => if org = "" then none else some org
  | some (.integer org) => some (toString org)
  | some (.float spelling) => some spelling
  | _ => none

--------------------
-- The Drain
--------------------

/- An item of `results`; `error` is the reason of a failure. -/
structure RunResult where
  runId : String
  error : Option String
  deriving DecidableEq, Repr

structure Summary where
  fetched : Nat
  processed : Nat
  errored : Nat
  skippedNoOrg : Nat
  results : List RunResult
  fetchedError : Option String
  deriving DecidableEq, Repr

/-
  The summary, the ids the drain remembers, the count for
  each org and the runs in flight, with their orgs. Beside
  them the ids it has started and the listings that failed.
-/
structure Drain where
  summary : Summary
  seen : List String
  finished : List String
  failed : List String
  inFlight : List String
  perOrg : String → Nat
  active : List (String × String)
  started : List String
  failedListings : Nat

def Drain.new : Drain where
  summary :=
    { fetched := 0
      processed := 0
      errored := 0
      skippedNoOrg := 0
      results := []
      fetchedError := none }
  seen := []
  finished := []
  failed := []
  inFlight := []
  perOrg := fun _ => 0
  active := []
  started := []
  failedListings := 0

/- The runs that have come to an end. -/
def Drain.ended (d : Drain) : List String :=
  d.summary.results.map (·.runId)

/- The drain must not start the run now, or again. -/
def Drain.remembers (d : Drain) (runId : String) : Bool :=
  d.failed.contains runId || d.finished.contains runId ||
    d.inFlight.contains runId

/- Only ids that are still listed need remembering. -/
def retain (d : Drain) (listed : List String) : Drain :=
  { d with
    finished := d.finished.filter (fun id => listed.contains id)
    failed := d.failed.filter (fun id => listed.contains id)
    seen := d.seen.filter
      (fun id => listed.contains id || d.inFlight.contains id) }

/- A run counts as fetched when it is seen first. -/
def sight (d : Drain) (runId : String) (hasOrg : Bool) : Drain :=
  if d.seen.contains runId then
    d
  else
    { d with
      seen := runId :: d.seen
      summary :=
        { d.summary with
          fetched := d.summary.fetched + 1
          skippedNoOrg :=
            if hasOrg then d.summary.skippedNoOrg
            else d.summary.skippedNoOrg + 1 } }

/- `active.push(run_with_timeout(…))`. -/
def launch (d : Drain) (runId org : String) : Drain :=
  { d with
    perOrg := fun other =>
      if other = org then d.perOrg other + 1
      else d.perOrg other
    inFlight := runId :: d.inFlight
    active := d.active ++ [(runId, org)]
    started := d.started ++ [runId] }

/- One round of the loop over the listed runs. -/
def offer
    (options : DrainOptions)
    (d : Drain)
    (run : Json) : Drain :=
  if d.remembers (runIdOf run) then
    d
  else
    let d' := sight d (runIdOf run) (orgOf run).isSome
    match orgOf run with
    | none => d'
    | some org =>
        if options.share ≤ d'.perOrg org then
          d'
        else
          launch d' (runIdOf run) org

/- The loop, which breaks when every slot is taken. -/
def offerAll
    (options : DrainOptions) :
    Drain → List Json → Drain
| d, [] => d
| d, run :: rest =>
    if options.slots ≤ d.active.length then
      d
    else
      offerAll options (offer options d run) rest

/- Fill free slots from what was listed. -/
def fill
    (options : DrainOptions)
    (d : Drain)
    (pending : List Json) : Drain :=
  offerAll options (retain d (pending.map runIdOf)) pending

/- The listing failed. -/
def listingFailed (d : Drain) (reason : String) : Drain :=
  { d with
    summary :=
      { d.summary with
        errored := d.summary.errored + 1
        fetchedError := some reason }
    failedListings := d.failedListings + 1 }

/- A run in flight has come to an end. -/
def finish
    (d : Drain)
    (place : Nat)
    (runId org : String)
    (error : Option String) : Drain :=
  { d with
    inFlight := d.inFlight.filter (· ≠ runId)
    perOrg := fun other =>
      if other = org then d.perOrg other - 1
      else d.perOrg other
    active := d.active.eraseIdx place
    finished :=
      if error.isSome then d.finished else runId :: d.finished
    failed :=
      if error.isSome then runId :: d.failed else d.failed
    summary :=
      { d.summary with
        processed :=
          if error.isSome then d.summary.processed
          else d.summary.processed + 1
        errored :=
          if error.isSome then d.summary.errored + 1
          else d.summary.errored
        results :=
          d.summary.results ++
            [{ runId := runId, error := error }] } }

--------------------
-- Steps
--------------------

/-
  Where the drain is: at the top of its loop, waiting for the
  listing, with a listing in hand, waiting for a run in
  flight, or done.
-/
inductive Phase where
  | top
  | listing
  | filling (pending : List Json)
  | waiting
  | returned

/-
  The queue, the ids that have ever been in it, the stop flag
  and the drain. Beside them whether the drain has seen the
  flag, and the ids that were on a listing.
-/
structure Config where
  queue : List Json
  known : List String
  stop : Bool
  drain : Drain
  phase : Phase
  observed : Bool
  listed : List String

/-
  The queue changes or the flag is set, whatever the drain
  does; or the drain takes its next step. A run that has been
  in the queue is not added to it again.
-/
inductive Event where
  | insert (place : Nat) (run : Json)
  | leave (runId : String)
  | stop
  | look
  | list (failure : Option String)
  | fill
  | finish (place : Nat) (error : Option String)
  | tick

/- What `list_pending` answers. -/
def listing (options : DrainOptions) (c : Config) : List Json :=
  c.queue.take options.maxRuns

/- With nothing running and nothing started, it is over. -/
def goOn (d : Drain) : Phase :=
  if d.active.isEmpty then .returned else .waiting

def step
    (options : DrainOptions)
    (c : Config) : Event → Config
| .insert place run =>
    if c.known.contains (runIdOf run) then
      c
    else
      { c with
        queue :=
          c.queue.take place ++ run :: c.queue.drop place
        known := runIdOf run :: c.known }
| .leave runId =>
    { c with
      queue := c.queue.filter (fun run => runIdOf run ≠ runId) }
| .stop => { c with stop := true }
| .look =>
    match c.phase with
    | .top =>
        if c.stop then
          { c with observed := true, phase := goOn c.drain }
        else if c.drain.active.length < options.slots then
          { c with phase := .listing }
        else
          { c with phase := goOn c.drain }
    | _ => c
| .list failure =>
    match c.phase, failure with
    | .listing, none =>
        { c with
          phase := .filling (listing options c)
          listed :=
            (listing options c).map runIdOf ++ c.listed }
    | .listing, some reason =>
        { c with
          drain := listingFailed c.drain reason
          phase := goOn c.drain }
    | _, _ => c
| .fill =>
    match c.phase with
    | .filling pending =>
        { c with
          drain := fill options c.drain pending
          phase := goOn (fill options c.drain pending) }
    | _ => c
| .finish place error =>
    match c.phase, c.drain.active[place]? with
    | .waiting, some (runId, org) =>
        { c with
          drain := finish c.drain place runId org error
          phase := .top }
    | _, _ => c
| .tick =>
    match c.phase with
    | .waiting => { c with phase := .top }
    | _ => c

/- A run that is known is not inserted again. -/
theorem step_insert_cases
    (options : DrainOptions)
    (c : Config)
    (place : Nat)
    (run : Json) :
    step options c (.insert place run) = c ∨
      runIdOf run ∉ c.known ∧
        step options c (.insert place run) =
          { c with
            queue :=
              c.queue.take place ++ run :: c.queue.drop place
            known := runIdOf run :: c.known } := by
  simp only [step]
  split
  · exact Or.inl rfl
  · rename_i hNew
    exact
      Or.inr
        ⟨fun hIn => hNew (List.contains_iff_mem.mpr hIn), rfl⟩

/- A drain that has just begun on a queue. -/
def newDrain (queue : List Json) : Config where
  queue := queue
  known := queue.map runIdOf
  stop := false
  drain := Drain.new
  phase := .top
  observed := false
  listed := []

end Agent

end SentinelCommand
