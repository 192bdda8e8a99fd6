import SentinelCommand.Agent.Messages

/-
  What the messages of a run look like each time the model is
  called, and where the run's incident id comes from.

  The invariant of the loop is that its messages are the
  history of the rounds so far, and that what it keeps is
  what these rounds' tool results leave.

  Main declarations:
    * `Agent.WellFormed`
    * `Agent.follows_takeTurn`, `Agent.follows_iterate`
    * `Agent.conversation_well_formed`
-/

--------------------
-- Images
--------------------

namespace SentinelCommand

namespace Agent

@[simp] theorem hasImages_toolResultMessage
    (call : Call)
    (text : String) :
    hasImages (toolResultMessage call text) = false := by
  rfl

@[simp] theorem hasImages_assistantMessage
    (turn : AssistantTurn) :
    hasImages (assistantMessage turn) = false := by
  rfl

theorem hasImages_imageMessage
    (toolName : String)
    {images : List String}
    (hImages : images ≠ []) :
    hasImages (imageMessage toolName images) = true := by
  cases images with
  | nil => contradiction
  | cons first rest => rfl

@[simp] theorem hasImages_pruneImages (message : Message) :
    hasImages (pruneImages message) = false := by
  cases message with
  | user content =>
      change
        hasImages
            (if content.any UserPart.isImage then _ else _) =
          false
      by_cases hSome : content.any UserPart.isImage = true
      · rw [if_pos hSome]
        rfl
      · rw [if_neg hSome]
        exact Bool.eq_false_iff.mpr hSome
  | _ => rfl

theorem pruneStale_of_not
    {message : Message}
    (hNone : hasImages message = false) :
    pruneStale message = message :=
  if_neg (Bool.eq_false_iff.mp hNone)

/- Without an image part there is no image. -/
theorem imagesOf_of_not
    {message : Message}
    (hNone : hasImages message = false) :
    imagesOf message = [] := by
  cases message with
  | user content =>
      apply List.filterMap_eq_nil_iff.mpr
      intro part hPart
      have hPlain := List.any_eq_false.mp hNone part hPart
      cases part with
      | image data => exact absurd rfl hPlain
      | _ => rfl
  | _ => rfl

theorem imagesOf_imageMessage
    (toolName : String)
    (images : List String) :
    imagesOf (imageMessage toolName images) = images := by
  unfold imagesOf imageMessage
  dsimp only
  rw [List.filterMap_cons_none rfl, List.filterMap_map]
  exact List.filterMap_some

/- Messages without images have none together. -/
theorem flatMap_imagesOf_eq_nil
    {messages : List Message}
    (hNone : ∀ message ∈ messages, hasImages message = false) :
    messages.flatMap imagesOf = [] := by
  rw [List.flatMap_eq_nil_iff]
  intro message hMessage
  exact imagesOf_of_not (hNone message hMessage)

theorem map_pruneStale_eq_self
    {messages : List Message}
    (hNone : ∀ message ∈ messages, hasImages message = false) :
    messages.map pruneStale = messages := by
  refine (List.map_congr_left ?_).trans (List.map_id _)
  intro message hMessage
  exact pruneStale_of_not (hNone message hMessage)

--------------------
-- Rounds
--------------------

/- The messages of rounds that later ones have followed. -/
def past (rounds : List Round) : List Message :=
  rounds.flatMap
    (fun round =>
      assistantMessage round.turn :: round.prunedBatch)

theorem history_concat
    (rounds : List Round)
    (latest : Round) :
    history (rounds ++ [latest]) =
      past rounds ++
        assistantMessage latest.turn :: latest.batch := by
  induction rounds with
  | nil => rfl
  | cons round rest ih =>
      cases rest with
      | nil => simp [history, past]
      | cons next rest =>
          rw [List.cons_append, List.cons_append] at *
          unfold history
          rw [ih]
          simp [past]

theorem mem_results
    {round : Round}
    {message : Message}
    (hIn : message ∈ round.results) :
    hasImages message = false := by
  unfold Round.results at hIn
  rw [← List.map_uncurry_zip_eq_zipWith] at hIn
  rcases List.mem_map.mp hIn with ⟨made, -, rfl⟩
  exact hasImages_toolResultMessage made.1 made.2.text

theorem mem_frames
    {round : Round}
    {message : Message}
    (hIn : message ∈ round.frames) :
    hasImages message = true := by
  rcases List.mem_map.mp hIn with ⟨made, hMade, rfl⟩
  apply hasImages_imageMessage
  have hSome := (List.mem_filter.mp hMade).2
  rw [Bool.not_eq_true', List.isEmpty_eq_false_iff] at hSome
  exact hSome

/- No message of an earlier batch has an image. -/
theorem mem_prunedBatch
    {round : Round}
    {message : Message}
    (hIn : message ∈ round.prunedBatch) :
    hasImages message = false := by
  rcases List.mem_append.mp hIn with hResult | hFrame
  · exact mem_results hResult
  · rcases List.mem_map.mp hFrame with ⟨frame, -, rfl⟩
    exact hasImages_pruneImages frame

theorem mem_past
    {rounds : List Round}
    {message : Message}
    (hIn : message ∈ past rounds) :
    hasImages message = false := by
  rcases List.mem_flatMap.mp hIn with ⟨round, -, hRound⟩
  rcases List.mem_cons.mp hRound with rfl | hBatch
  · rfl
  · exact mem_prunedBatch hBatch

/- The pass over a batch leaves its results. -/
theorem map_pruneStale_batch (round : Round) :
    round.batch.map pruneStale = round.prunedBatch := by
  have hResults :
      round.results.map pruneStale = round.results :=
    map_pruneStale_eq_self (fun _ => mem_results)
  have hFrames :
      round.frames.map pruneStale =
        round.frames.map pruneImages := by
    apply List.map_congr_left
    intro frame hFrame
    exact if_pos (mem_frames hFrame)
  unfold Round.batch Round.prunedBatch
  rw [List.map_append, hResults, hFrames]

/- What the next turn makes of the history. -/
theorem map_pruneStale_history (rounds : List Round) :
    (history rounds).map pruneStale = past rounds := by
  induction rounds using List.reverseRecOn with
  | nil => rfl
  | append_singleton rounds latest ih =>
      have hPast :
          (past rounds).map pruneStale = past rounds :=
        map_pruneStale_eq_self (fun _ => mem_past)
      rw [history_concat, List.map_append, hPast,
        List.map_cons, map_pruneStale_batch]
      simp [past, pruneStale_of_not]

/- The images of a whole batch are those of its outputs. -/
theorem flatMap_imagesOf_batch
    {round : Round}
    (hLength :
      round.outputs.length = round.turn.toolCalls.length) :
    round.batch.flatMap imagesOf = round.images := by
  have hFrames (made : List (Call × ToolOutput)) :
      ((made.filter (fun one => !one.2.images.isEmpty)).map
          (fun one =>
            imageMessage one.1.name one.2.images)).flatMap
          imagesOf =
        made.flatMap (fun one => one.2.images) := by
    induction made with
    | nil => rfl
    | cons one rest ih =>
        rw [List.flatMap_cons, ← ih, List.filter_cons]
        cases hImages : one.2.images with
        | nil => rfl
        | cons first others =>
            rw [← hImages, if_pos (by rw [hImages]; rfl),
              List.map_cons, List.flatMap_cons,
              imagesOf_imageMessage]
  have hOutputs :
      (round.turn.toolCalls.zip round.outputs).map Prod.snd =
        round.outputs :=
    List.map_snd_zip hLength.le
  unfold Round.batch Round.frames Round.images
  rw [List.flatMap_append,
    flatMap_imagesOf_eq_nil (fun _ => mem_results),
    List.nil_append, hFrames, ← hOutputs, List.flatMap_map,
    hOutputs]

--------------------
-- One Turn
--------------------

variable {fromStr : String → Option Json}
variable {script : Script}

theorem outputsFrom_cons
    (made : Nat)
    (call : Call)
    (rest : List Call) :
    outputsFrom fromStr script made (call :: rest) =
      script.call made call.name
          (toolCallArguments fromStr call.toToolCall) ::
        outputsFrom fromStr script (made + 1) rest := by
  rfl

theorem length_outputsFrom
    (made : Nat)
    (calls : List Call) :
    (outputsFrom fromStr script made calls).length =
      calls.length := by
  induction calls generalizing made with
  | nil => rfl
  | cons call rest ih =>
      rw [outputsFrom_cons, List.length_cons,
        List.length_cons, ih]

theorem toolTrace_noteAsked
    (ret : ToolReturn)
    (convo : Convo) :
    (noteAsked fromStr ret convo).toolTrace =
      convo.toolTrace := by
  unfold noteAsked
  split
  · rfl
  · rfl

theorem toolTrace_absorb
    (convo : Convo)
    (ret : ToolReturn) :
    (absorb fromStr convo ret).toolTrace =
      convo.toolTrace ++ [traceEntry fromStr ret] := by
  unfold absorb
  dsimp only
  split
  · exact toolTrace_noteAsked _ _
  · split
    · exact toolTrace_noteAsked _ _
    · exact toolTrace_noteAsked _ _

/- The trace has an entry for each result. -/
theorem toolTrace_converse
    (returns : List ToolReturn) :
    (converse fromStr returns).toolTrace =
      returns.map (traceEntry fromStr) := by
  induction returns using List.reverseRecOn with
  | nil => rfl
  | append_singleton returns ret ih =>
      rw [converse_snoc, toolTrace_absorb, ih,
        List.map_append, List.map_singleton]

theorem length_toolTrace_converse
    (returns : List ToolReturn) :
    (converse fromStr returns).toolTrace.length =
      returns.length := by
  rw [toolTrace_converse, List.length_map]

theorem converse_append
    (returns later : List ToolReturn) :
    converse fromStr (returns ++ later) =
      later.foldl (absorb fromStr)
        (converse fromStr returns) := by
  unfold converse
  rw [List.foldl_append]

/- All calls of a turn, one after the other. -/
theorem callTool_foldl
    (calls : List Call)
    (batch : Batch) :
    let outputs :=
      outputsFrom fromStr script batch.convo.toolTrace.length
        calls
    calls.foldl (callTool fromStr script) batch =
      { messages :=
          batch.messages ++
            List.zipWith
              (fun call (output : ToolOutput) =>
                toolResultMessage call output.text)
              calls outputs
        frames :=
          batch.frames ++
            ((calls.zip outputs).filter
              (fun made => !made.2.images.isEmpty)).map
                (fun made =>
                  imageMessage made.1.name made.2.images)
        convo :=
          (List.zipWith
            (fun (call : Call) (output : ToolOutput) =>
              ({ call := call.toToolCall
                 text := output.text } : ToolReturn))
            calls outputs).foldl
              (absorb fromStr) batch.convo } := by
  induction calls generalizing batch with
  | nil =>
      intro outputs
      simp [outputs, outputsFrom]
  | cons call rest ih =>
      intro outputs
      have hLength :
          (callTool fromStr script batch
            call).convo.toolTrace.length =
            batch.convo.toolTrace.length + 1 := by
        unfold callTool
        dsimp only
        rw [toolTrace_absorb, List.length_append,
          List.length_singleton]
      have hRest := ih (callTool fromStr script batch call)
      dsimp only at hRest
      rw [hLength] at hRest
      rw [List.foldl_cons, hRest]
      unfold outputs
      rw [outputsFrom_cons, List.zipWith_cons_cons,
        List.zipWith_cons_cons, List.zip_cons_cons,
        List.filter_cons, List.foldl_cons,
        List.append_cons batch.messages]
      unfold callTool
      dsimp only
      by_cases hImages :
          (script.call batch.convo.toolTrace.length call.name
            (toolCallArguments fromStr
              call.toToolCall)).images.isEmpty = true
      · rw [if_pos hImages, hImages]
        rfl
      · rw [if_neg hImages, if_pos (by simpa using hImages),
          List.map_cons, List.append_assoc batch.frames,
          List.singleton_append]

/- The round that a turn makes of this script. -/
def nextRound
    (fromStr : String → Option Json)
    (script : Script)
    (rounds : List Round)
    (turn : AssistantTurn) : Round where
  turn := turn
  outputs :=
    outputsFrom fromStr script (returnsOf rounds).length
      turn.toolCalls

/-
  The loop after these rounds: its messages are their
  history, and it keeps what their results leave.
-/
structure Follows
    (fromStr : String → Option Json)
    (script : Script)
    (rounds : List Round)
    (state : Loop) : Prop where
  ran : Ran fromStr script rounds
  messages : state.messages = script.opening ++ history rounds
  convo : state.convo = converse fromStr (returnsOf rounds)

theorem mem_opening
    {message : Message}
    (hIn : message ∈ script.opening) :
    hasImages message = false := by
  rcases List.mem_cons.mp hIn with rfl | hRest
  · rfl
  · rw [List.mem_singleton.mp hRest]
    rfl

/- A turn with tool calls adds its round. -/
theorem follows_takeTurn
    {rounds : List Round}
    {state : Loop}
    {turn : AssistantTurn}
    (hFollows : Follows fromStr script rounds state)
    (hChat :
      script.chat rounds.length state.messages = .ok turn)
    (hCalls : turn.toolCalls ≠ []) :
    Follows fromStr script
      (rounds ++ [nextRound fromStr script rounds turn])
      (takeTurn fromStr script state turn) where
  ran := by
    rw [hFollows.messages] at hChat
    exact Ran.turn hFollows.ran hChat hCalls
  messages := by
    have hOpening :
        script.opening.map pruneStale = script.opening :=
      map_pruneStale_eq_self (fun _ => mem_opening)
    unfold takeTurn
    dsimp only
    rw [callTool_foldl]
    dsimp only
    rw [hFollows.convo, length_toolTrace_converse,
      List.nil_append, List.append_assoc,
      List.take_left, List.drop_left, List.map_append,
      hFollows.messages, List.map_append, hOpening,
      map_pruneStale_history, history_concat]
    simp only [List.append_assoc]
    rfl
  convo := by
    unfold takeTurn
    dsimp only
    rw [callTool_foldl]
    dsimp only
    rw [hFollows.convo, length_toolTrace_converse]
    have hReturns :
        returnsOf
            (rounds ++
              [nextRound fromStr script rounds turn]) =
          returnsOf rounds ++
            (nextRound fromStr script rounds turn).returns := by
      unfold returnsOf
      rw [List.flatMap_append, List.flatMap_singleton]
    rw [hReturns, converse_append]
    rfl

--------------------
-- A Run
--------------------

/-
  Messages that are these rounds: after the opening, each
  turn is followed by the results of its calls, in their
  order, and then by its frames. The images are those of the
  latest batch, and an earlier one has none.
-/
structure WellFormed
    (opening : List Message)
    (rounds : List Round)
    (messages : List Message) : Prop where
  follows : messages = opening ++ history rounds
  calls : ∀ round ∈ rounds, round.turn.toolCalls ≠ []
  results :
    ∀ round ∈ rounds,
      round.results.length = round.turn.toolCalls.length
  images :
    messages.flatMap imagesOf =
      rounds.getLast?.toList.flatMap Round.images
  earlier :
    ∀ round ∈ rounds.dropLast, ∀ message ∈ round.prunedBatch,
      hasImages message = false

theorem ran_calls
    {rounds : List Round}
    (hRan : Ran fromStr script rounds) :
    ∀ round ∈ rounds, round.turn.toolCalls ≠ [] ∧
      round.outputs.length = round.turn.toolCalls.length := by
  induction hRan with
  | start => exact nofun
  | turn hRounds hChat hCalls ih =>
      intro round hRound
      rcases List.mem_append.mp hRound with hEarlier | hLatest
      · exact ih round hEarlier
      · rw [List.mem_singleton.mp hLatest]
        exact ⟨hCalls, length_outputsFrom _ _⟩

theorem length_results
    {round : Round}
    (hLength :
      round.outputs.length = round.turn.toolCalls.length) :
    round.results.length = round.turn.toolCalls.length := by
  unfold Round.results
  rw [List.length_zipWith, hLength, Nat.min_self]

/- The images of a history are those of its latest batch. -/
theorem flatMap_imagesOf_history
    {rounds : List Round}
    (hLength :
      ∀ round ∈ rounds,
        round.outputs.length = round.turn.toolCalls.length) :
    (script.opening ++ history rounds).flatMap imagesOf =
      rounds.getLast?.toList.flatMap Round.images := by
  rw [List.flatMap_append,
    flatMap_imagesOf_eq_nil (fun _ => mem_opening),
    List.nil_append]
  induction rounds using List.reverseRecOn with
  | nil => rfl
  | append_singleton rounds latest ih =>
      have hLatest :=
        hLength latest
          (List.mem_append_right rounds List.mem_cons_self)
      rw [history_concat, List.flatMap_append,
        flatMap_imagesOf_eq_nil (fun _ => mem_past),
        List.nil_append, List.flatMap_cons,
        imagesOf_of_not (hasImages_assistantMessage _),
        List.nil_append, flatMap_imagesOf_batch hLatest,
        List.getLast?_concat]
      exact (List.flatMap_singleton _ _).symm

/- The messages after any number of the rounds that ran. -/
theorem wellFormed_take
    {rounds : List Round}
    (hRan : Ran fromStr script rounds)
    (k : Nat) :
    WellFormed script.opening (rounds.take k)
      (script.opening ++ history (rounds.take k)) where
  follows := rfl
  calls := by
    intro round hRound
    exact (ran_calls hRan round (List.mem_of_mem_take hRound)).1
  results := by
    intro round hRound
    exact
      length_results
        (ran_calls hRan round (List.mem_of_mem_take hRound)).2
  images := by
    apply flatMap_imagesOf_history
    intro round hRound
    exact (ran_calls hRan round (List.mem_of_mem_take hRound)).2
  earlier := fun _ _ _ => mem_prunedBatch

theorem incidentId_truncatedResult
    (convo : Convo)
    (summary : String) :
    (truncatedResult convo summary).incidentId =
      convo.incidentId := by
  unfold truncatedResult
  cases convo.incidentId <;> rfl

/- A run ends with an answer, or it is cut short. -/
inductive Ended (convo : Convo) : Completion → Prop
  | answered (text : String) :
      Ended convo (Agent.answered convo text)
  | truncated (summary : String) :
      Ended convo (truncatedResult convo summary)

theorem incidentId_of_ended
    {convo : Convo}
    {c : Completion}
    (hEnded : Ended convo c) :
    c.incidentId = convo.incidentId := by
  cases hEnded with
  | answered text => rfl
  | truncated summary =>
      exact incidentId_truncatedResult convo summary

/-
  The rounds that ran from here on, with the messages that
  were sent before each of them and after the last one.
-/
structure Carried
    (fromStr : String → Option Json)
    (script : Script)
    (before : Nat)
    (rounds : List Round)
    (outcome : Outcome) : Prop where
  ran : Ran fromStr script rounds
  sent :
    ∀ k messages, outcome.sent[k]? = some messages →
      before + k ≤ rounds.length ∧
        messages =
          script.opening ++ history (rounds.take (before + k))
  spent : rounds.length ≤ before + outcome.sent.length
  ended :
    Ended (converse fromStr (returnsOf rounds))
      outcome.completion

/- The last call of the model, or one too many. -/
theorem carried_last
    {rounds : List Round}
    {state : Loop}
    {outcome : Outcome}
    (hFollows : Follows fromStr script rounds state)
    (hSent :
      outcome.sent = [] ∨ outcome.sent = [state.messages])
    (hEnded : Ended state.convo outcome.completion) :
    Carried fromStr script rounds.length rounds outcome where
  ran := hFollows.ran
  sent := by
    intro k messages hMessages
    rcases hSent with hNone | hOne
    · rw [hNone] at hMessages
      cases hMessages
    · rw [hOne, List.getElem?_singleton] at hMessages
      split at hMessages
      · rename_i hFirst
        rw [← Option.some.inj hMessages, hFollows.messages,
          hFirst, Nat.add_zero, List.take_length]
        exact ⟨le_rfl, rfl⟩
      · cases hMessages
  spent := Nat.le_add_right rounds.length _
  ended := by
    rw [← hFollows.convo]
    exact hEnded

/- The messages before a round, and then what follows it. -/
theorem carried_cons
    {rounds more : List Round}
    {state : Loop}
    {rest : Outcome}
    (hFollows : Follows fromStr script rounds state)
    (hRest :
      Carried fromStr script (rounds.length + 1)
        (rounds ++ more) rest) :
    Carried fromStr script rounds.length (rounds ++ more)
      { rest with sent := state.messages :: rest.sent } where
  ran := hRest.ran
  sent := by
    intro k messages hMessages
    cases k with
    | zero =>
        rw [← Option.some.inj hMessages, hFollows.messages,
          Nat.add_zero, List.take_left]
        exact
          ⟨by rw [List.length_append]; exact Nat.le_add_right _ _,
            rfl⟩
    | succ k =>
        have hSent := hRest.sent k messages hMessages
        rw [Nat.add_right_comm] at hSent
        exact hSent
  spent := by
    rw [List.length_cons, Nat.add_comm _ 1, ← Nat.add_assoc]
    exact hRest.spent
  ended := hRest.ended

theorem follows_iterate
    (maxIterations left : Nat)
    {rounds : List Round}
    {state : Loop}
    (hFollows : Follows fromStr script rounds state) :
    ∃ more,
      Carried fromStr script rounds.length (rounds ++ more)
        (iterate fromStr script maxIterations left rounds.length
          state) := by
  induction left generalizing rounds state with
  | zero =>
      refine ⟨[], ?_⟩
      rw [List.append_nil]
      exact
        carried_last hFollows (Or.inl rfl)
          (Ended.truncated _)
  | succ left ih =>
      unfold iterate
      cases hChat :
          script.chat rounds.length state.messages with
      | error err =>
          refine ⟨[], ?_⟩
          rw [List.append_nil]
          cases err with
          | timeout =>
              exact
                carried_last hFollows (Or.inr rfl)
                  (Ended.truncated _)
          | failed reason =>
              exact
                carried_last hFollows (Or.inr rfl)
                  (Ended.truncated _)
      | ok turn =>
          dsimp only
          by_cases hCalls : turn.toolCalls.isEmpty = true
          · rw [if_pos hCalls]
            refine ⟨[], ?_⟩
            rw [List.append_nil]
            exact
              carried_last hFollows (Or.inr rfl)
                (Ended.answered turn.text)
          · rw [if_neg hCalls]
            have hNext :=
              follows_takeTurn hFollows hChat
                (by simpa using hCalls)
            obtain ⟨more, hMore⟩ := ih hNext
            rw [List.append_assoc, List.length_append] at hMore
            exact ⟨_, carried_cons hFollows hMore⟩

theorem carried_runAgent
    (fromStr : String → Option Json)
    (script : Script)
    (maxIterations : Nat) :
    ∃ rounds,
      Carried fromStr script 0 rounds
        (runAgent fromStr script maxIterations) :=
  follows_iterate maxIterations maxIterations
    { ran := Ran.start
      messages := (List.append_nil _).symm
      convo := rfl }

/-
  Each list of messages that the model is sent is well formed
  for the rounds before it, with the images of the latest
  batch alone; and the incident id of the run is the last one
  that a write tool returned, so there is none without one.
-/
theorem conversation_well_formed
    (fromStr : String → Option Json)
    (script : Script)
    (maxIterations : Nat) :
    let outcome := runAgent fromStr script maxIterations
    ∃ rounds,
      Ran fromStr script rounds ∧
        rounds.length ≤ outcome.sent.length ∧
        (∀ k messages, outcome.sent[k]? = some messages →
          k ≤ rounds.length ∧
            WellFormed script.opening (rounds.take k)
              messages) ∧
        outcome.completion.incidentId =
          lastNamed (namedId fromStr) (returnsOf rounds) ∧
        ((∀ ret ∈ returnsOf rounds,
            namedId fromStr ret = none) →
          outcome.completion.incidentId = none) := by
  intro outcome
  obtain ⟨rounds, hRounds⟩ :=
    carried_runAgent fromStr script maxIterations
  have hIncident :
      outcome.completion.incidentId =
        lastNamed (namedId fromStr) (returnsOf rounds) :=
    (incidentId_of_ended hRounds.ended).trans
      (incidentId_converse _)
  have hSpent : rounds.length ≤ 0 + outcome.sent.length :=
    hRounds.spent
  rw [Nat.zero_add] at hSpent
  refine ⟨rounds, hRounds.ran, hSpent, ?_, hIncident, ?_⟩
  · intro k messages hMessages
    obtain ⟨hFits, hHistory⟩ :=
      hRounds.sent k messages hMessages
    rw [Nat.zero_add] at hFits hHistory
    refine ⟨hFits, ?_⟩
    rw [hHistory]
    exact wellFormed_take hRounds.ran k
  · intro hNone
    rw [hIncident]
    exact lastNamed_eq_none_iff.mpr hNone

end Agent

end SentinelCommand
