import SentinelCommand.Clock
import SentinelCommand.Lib.Run

/-
  The motion email cooldown: `notifications.rs` claims a
  window for a camera's first alert and silences the rest,
  and the digest loop of `loops.rs` closes expired windows.

  The model follows one camera of one organization. Its
  anchor is the `motion_email_cooldown_start:` row of the
  camera, whose text is split by what the readers make of
  it. A digest keeps the motion rows its COUNT selected, and
  every motion row remembers what the claim answered for it;
  the code reads neither record.

  Key definitions include:
    * `MotionCooldown.claimMotionCooldownOrSilence`
    * `MotionCooldown.runMotionDigest`
    * `MotionCooldown.step`
-/

--------------------
-- Windows
--------------------

namespace SentinelCommand

namespace MotionCooldown

/- `parse_cooldown_minutes` never goes below one minute. -/
structure Cooldown where
  length : Int
  pos : 1 ≤ length

/- What the readers make of the text of an anchor row. -/
inductive AnchorText where
  | blank
  | malformed
  | aware (clock : Int)
  | stamped (start : Int)
  deriving DecidableEq, Repr

/- `TimeDelta::num_seconds` truncates toward zero. -/
def numSeconds (span : Int) : Int :=
  span.tdiv (seconds 1)

/- The window that starts at `start` is still open. -/
def windowOpen
    (cooldown : Cooldown)
    (start now : Int) : Bool :=
  numSeconds (now - start) < cooldown.length * 60

/- The last instant a digest of the window counts. -/
def windowEnd
    (cooldown : Cooldown)
    (start : Int) : Int :=
  start + minutes cooldown.length

/- An event inside an open window is counted at its end. -/
theorem le_windowEnd_of_open
    {cooldown : Cooldown}
    {start now : Int}
    (hStart : start ≤ now)
    (hOpen : windowOpen cooldown start now = true) :
    now ≤ windowEnd cooldown start := by
  have hSeconds :
      (now - start) / 1000000 < cooldown.length * 60 := by
    have hTrunc := of_decide_eq_true hOpen
    rw [numSeconds,
      Int.tdiv_eq_ediv_of_nonneg (by omega)] at hTrunc
    simpa [seconds] using hTrunc
  unfold windowEnd minutes seconds
  omega

--------------------
-- Events and Digests
--------------------

/- A `motion_events` row with its arrival number. -/
structure MotionEvent where
  seq : Nat
  timestamp : Int
  silenced : Bool
  deriving DecidableEq, Repr

/- An emitted `motion_digest` notification. -/
structure Digest where
  windowStart : Int
  windowEnd : Int
  counted : List MotionEvent
  deriving DecidableEq, Repr

/- The `event_count` a digest reports. -/
def Digest.eventCount (digest : Digest) : Nat :=
  digest.counted.length

/- One camera: its anchor row, motion rows and digests. -/
structure Camera where
  anchor : Option AnchorText
  events : List MotionEvent
  digests : List Digest
  clock : Int
  deriving DecidableEq, Repr

/- A camera no motion was ever reported for. -/
def quiet (clock : Int) : Camera :=
  { anchor := none, events := [], digests := [],
    clock := clock }

/-
  `claim_motion_cooldown_or_silence` with every settings
  statement succeeding: the new anchor row and whether to
  email now.
-/
def claimMotionCooldownOrSilence
    (cooldown : Cooldown)
    (anchor : Option AnchorText)
    (now : Int) : Option AnchorText × Bool :=
  match anchor with
  | some (.aware _) => (anchor, false)
  | some (.stamped start) =>
      if windowOpen cooldown start now then
        (anchor, false)
      else
        (some (.stamped now), true)
  | _ => (some (.stamped now), true)

/-
  One motion event of an organization with motion email on:
  the row is inserted, then `create_notification` claims.
-/
def motion
    (cooldown : Cooldown)
    (camera : Camera)
    (now : Int) : Camera :=
  let claim :=
    claimMotionCooldownOrSilence cooldown camera.anchor now
  { camera with
    anchor := claim.1
    events := camera.events ++
      [ { seq := camera.events.length
          timestamp := now
          silenced := !claim.2 } ]
    clock := now }

/- The rows the COUNT of a window selects. -/
def extraEvents
    (cooldown : Cooldown)
    (events : List MotionEvent)
    (start : Int) : List MotionEvent :=
  events.filter (fun e =>
    start < e.timestamp ∧
      e.timestamp ≤ windowEnd cooldown start)

/- Emit one digest when the window silenced anything. -/
def emitDigest
    (cooldown : Cooldown)
    (start : Int)
    (extra : List MotionEvent)
    (digests : List Digest) : List Digest :=
  if extra.length > 0 then
    digests ++
      [ { windowStart := start
          windowEnd := windowEnd cooldown start
          counted := extra } ]
  else
    digests

/- The naive half of a stamp the digest loop can parse. -/
def AnchorText.parsed : AnchorText → Option Int
| .blank => none
| .malformed => none
| .aware clock => some clock
| .stamped start => some start

/-
  One tick of `run_motion_digest` over the camera's anchor.
  No event lands inside a tick, so the guarded DELETE always
  finds the value it read.
-/
def runMotionDigest
    (cooldown : Cooldown)
    (camera : Camera)
    (now : Int) : Camera :=
  match camera.anchor with
  | none => { camera with clock := now }
  | some text =>
      match text.parsed with
      | none => { camera with anchor := none, clock := now }
      | some start =>
          if windowOpen cooldown start now then
            { camera with clock := now }
          else
            { camera with
              anchor := none
              digests :=
                emitDigest cooldown start
                  (extraEvents cooldown camera.events start)
                  camera.digests
              clock := now }

/- What reaches a camera, with the server clock it reads. -/
inductive Op where
  | motion (now : Int)
  | tick (now : Int)
  deriving DecidableEq, Repr

def Op.now : Op → Int
| .motion now => now
| .tick now => now

def step
    (cooldown : Cooldown)
    (camera : Camera) : Op → Camera
| .motion now => motion cooldown camera now
| .tick now => runMotionDigest cooldown camera now

end MotionCooldown

end SentinelCommand
