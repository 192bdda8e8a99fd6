import Mathlib.Data.List.Infix
import SentinelCommand.Agent.Conversation

/-
  The messages of one run: what `run_agent` sends to the
  model, appends after each turn and prunes of its images.

  The model and the tools are a script. The model answers by
  the iteration and the messages it is sent, and the tools by
  how many calls came before; both may fail as they like.

  Key definitions include:
    * `Agent.Message`, `Agent.Script`
    * `Agent.pruneImages`
    * `Agent.takeTurn`
-/

--------------------
-- Messages
--------------------

namespace SentinelCommand

namespace Agent

/- A tool call of a turn; a result is keyed back to it. -/
structure Call extends ToolCall where
  id : String

inductive UserPart where
  | text (text : String)
  | image (data : String)
  | toolResult (call : Call) (text : String)

/- `other` is replayed as it came, and not looked into. -/
inductive AssistantPart where
  | text (text : String)
  | toolCall (call : Call)
  | other (raw : Json)

structure AssistantTurn where
  content : List AssistantPart

inductive Message where
  | system (content : String)
  | user (content : List UserPart)
  | assistant (content : List AssistantPart)

def AssistantPart.asCall : AssistantPart → Option Call
| .toolCall call => some call
| _ => none

def AssistantPart.asText : AssistantPart → Option String
| .text said => some said
| _ => none

def AssistantTurn.toolCalls (turn : AssistantTurn) : List Call :=
  turn.content.filterMap AssistantPart.asCall

/- The text parts, concatenated. -/
def AssistantTurn.text (turn : AssistantTurn) : String :=
  String.join (turn.content.filterMap AssistantPart.asText)

def assistantMessage (turn : AssistantTurn) : Message :=
  .assistant turn.content

def toolResultMessage (call : Call) (text : String) : Message :=
  .user [.toolResult call text]

def imageMessage
    (toolName : String)
    (images : List String) : Message :=
  .user
    (.text ("[Visual output from " ++ toolName ++ "]") ::
      images.map .image)

def UserPart.isImage : UserPart → Bool
| .image _ => true
| _ => false

def hasImages : Message → Bool
| .user content => content.any UserPart.isImage
| _ => false

def prunedNote : String :=
  "[frames pruned — superseded by newer visual output]"

/- A text part that is not empty. -/
def UserPart.nonEmptyText : UserPart → Option String
| .text said => if said = "" then none else some said
| _ => none

/- The text a message with images collapses to. -/
def prunedText (content : List UserPart) : String :=
  let joined :=
    Privacy.trimText
      (" ".intercalate
        (content.filterMap UserPart.nonEmptyText))
  if prunedNote.toList <:+: joined.toList then
    joined
  else
    Privacy.trimText (joined ++ " " ++ prunedNote)

def pruneImages : Message → Message
| .user content =>
    if content.any UserPart.isImage then
      .user [.text (prunedText content)]
    else
      .user content
| message => message

/- The loop prunes what has images. -/
def pruneStale (message : Message) : Message :=
  if hasImages message then pruneImages message else message

--------------------
-- The Loop
--------------------

structure ToolOutput where
  text : String
  images : List String

inductive LlmError where
  | timeout
  | failed (reason : String)

/-
  The prompts of the run, the model and the tools.
  `timeoutText` is the model's budget, in whole seconds.
-/
structure Script where
  systemPrompt : String
  initialMessage : String
  chat : Nat → List Message → Except LlmError AssistantTurn
  call : Nat → String → Fields → ToolOutput
  timeoutText : String

structure Loop where
  messages : List Message
  convo : Convo

/- While the calls of one turn are made. -/
structure Batch where
  messages : List Message
  frames : List Message
  convo : Convo

/- What came of the run, and each list the model was sent. -/
structure Outcome where
  completion : Completion
  sent : List (List Message)

variable (fromStr : String → Option Json)
variable (script : Script)

def Script.opening : List Message :=
  [.system script.systemPrompt,
    .user [.text script.initialMessage]]

def callTool (batch : Batch) (call : Call) : Batch :=
  let result :=
    script.call batch.convo.toolTrace.length call.name
      (toolCallArguments fromStr call.toToolCall)
  { messages :=
      batch.messages ++ [toolResultMessage call result.text]
    frames :=
      if result.images.isEmpty then
        batch.frames
      else
        batch.frames ++ [imageMessage call.name result.images]
    convo :=
      absorb fromStr batch.convo
        { call := call.toToolCall, text := result.text } }

/-
  The turn, all its results and then its frames; what stood
  before the batch is pruned.
-/
def takeTurn (state : Loop) (turn : AssistantTurn) : Loop :=
  let pushed := state.messages ++ [assistantMessage turn]
  let batchStart := pushed.length
  let batch :=
    turn.toolCalls.foldl (callTool fromStr script)
      { messages := pushed, frames := [], convo := state.convo }
  let messages := batch.messages ++ batch.frames
  { messages :=
      (messages.take batchStart).map pruneStale ++
        messages.drop batchStart
    convo := batch.convo }

def timedOutSummary (iteration : Nat) : String :=
  "LLM call timed out after " ++ script.timeoutText ++
    "s at iteration " ++ toString iteration ++
    ". Investigation incomplete."

def maxIterationsSummary (maxIterations : Nat) : String :=
  "Reached max iterations (" ++ toString maxIterations ++
    ") without a terminal answer. " ++
    "Investigation may be incomplete."

/- From this iteration on, with so many left. -/
def iterate
    (maxIterations : Nat) :
    Nat → Nat → Loop → Outcome
| 0, _, state =>
    { completion :=
        truncatedResult state.convo
          (maxIterationsSummary maxIterations)
      sent := [] }
| left + 1, iteration, state =>
    match script.chat iteration state.messages with
    | .error .timeout =>
        { completion :=
            truncatedResult state.convo
              (timedOutSummary script iteration)
          sent := [state.messages] }
    | .error (.failed reason) =>
        { completion :=
            truncatedResult state.convo
              ("LLM call failed: " ++ reason)
          sent := [state.messages] }
    | .ok turn =>
        if turn.toolCalls.isEmpty then
          { completion := answered state.convo turn.text
            sent := [state.messages] }
        else
          let rest :=
            iterate maxIterations left (iteration + 1)
              (takeTurn fromStr script state turn)
          { rest with sent := state.messages :: rest.sent }

def runAgent (maxIterations : Nat) : Outcome :=
  iterate fromStr script maxIterations maxIterations 0
    { messages := script.opening, convo := Convo.new }

--------------------
-- Rounds
--------------------

/- A turn with its tool calls, and what the tools answered. -/
structure Round where
  turn : AssistantTurn
  outputs : List ToolOutput

/- The results, in the order of the calls. -/
def Round.results (round : Round) : List Message :=
  List.zipWith
    (fun call (output : ToolOutput) =>
      toolResultMessage call output.text)
    round.turn.toolCalls round.outputs

/- The images of each call that has some. -/
def Round.frames (round : Round) : List Message :=
  ((round.turn.toolCalls.zip round.outputs).filter
    (fun made => !made.2.images.isEmpty)).map
      (fun made => imageMessage made.1.name made.2.images)

def Round.batch (round : Round) : List Message :=
  round.results ++ round.frames

/- The batch once a later turn has been taken. -/
def Round.prunedBatch (round : Round) : List Message :=
  round.results ++ round.frames.map pruneImages

def Round.images (round : Round) : List String :=
  round.outputs.flatMap ToolOutput.images

def Round.returns (round : Round) : List ToolReturn :=
  List.zipWith
    (fun (call : Call) (output : ToolOutput) =>
      { call := call.toToolCall, text := output.text })
    round.turn.toolCalls round.outputs

def returnsOf (rounds : List Round) : List ToolReturn :=
  rounds.flatMap Round.returns

/- Each earlier round pruned, and the latest one whole. -/
def history : List Round → List Message
| [] => []
| [latest] => assistantMessage latest.turn :: latest.batch
| earlier :: next :: rest =>
    assistantMessage earlier.turn :: earlier.prunedBatch ++
      history (next :: rest)

/- The answers of the tools to the calls of one turn. -/
def outputsFrom
    (fromStr : String → Option Json)
    (script : Script) :
    Nat → List Call → List ToolOutput
| _, [] => []
| made, call :: rest =>
    script.call made call.name
        (toolCallArguments fromStr call.toToolCall) ::
      outputsFrom fromStr script (made + 1) rest

/- The rounds of the script, from the first one on. -/
inductive Ran
    (fromStr : String → Option Json)
    (script : Script) : List Round → Prop
  | start : Ran fromStr script []
  | turn
      {rounds : List Round}
      {turn : AssistantTurn}
      (hRounds : Ran fromStr script rounds)
      (hChat :
        script.chat rounds.length
            (script.opening ++ history rounds) = .ok turn)
      (hCalls : turn.toolCalls ≠ []) :
      Ran fromStr script
        (rounds ++
          [{ turn := turn
             outputs :=
               outputsFrom fromStr script
                 (returnsOf rounds).length turn.toolCalls }])

/- The images that a message holds. -/
def UserPart.asImage : UserPart → Option String
| .image data => some data
| _ => none

def imagesOf : Message → List String
| .user content => content.filterMap UserPart.asImage
| _ => []

end Agent

end SentinelCommand
