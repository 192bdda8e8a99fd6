import Mathlib.Data.Int.Basic

/-
  Instants and spans of time.

  The program stores timestamps to the microsecond, so an
  instant is an integer: microseconds since the epoch. Spans
  of time are integers in the same unit.

  Key definitions include:
    * `seconds`, `minutes`, `hours`
-/

--------------------
-- Spans
--------------------

namespace SentinelCommand

def seconds (n : Int) : Int :=
  n * 1000000

def minutes (n : Int) : Int :=
  seconds (n * 60)

def hours (n : Int) : Int :=
  minutes (n * 60)

end SentinelCommand
