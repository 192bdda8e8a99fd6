import SentinelCommand.Json

/-
  How a tool reads its arguments: a value of another type, or
  null, is read as if it were not there.

  Key definitions include:
    * `Mcp.optStr`, `Mcp.reqStr`
    * `Mcp.optI64`, `Mcp.intOr`
    * `Mcp.optCameraId`
-/

--------------------
-- Arguments
--------------------

namespace SentinelCommand

namespace Mcp

def optStr (args : Fields) (key : String) : Option String :=
  (args.lookup key).bind Json.asStr

def reqStr (args : Fields) (key : String) : String :=
  (optStr args key).getD ""

/- An integer beyond 64 bits is none. -/
def optI64 (args : Fields) (key : String) : Option Int :=
  match args.lookup key with
  | some (.integer n) =>
      if -9223372036854775808 ≤ n ∧ n ≤ 9223372036854775807 then
        some n
      else
        none
  | _ => none

def intOr
    (args : Fields)
    (key : String)
    (default : Int) : Int :=
  (optI64 args key).getD default

/- An empty text is no camera. -/
def optCameraId (args : Fields) : Option String :=
  (optStr args "camera_id").filter (· ≠ "")

end Mcp

end SentinelCommand
