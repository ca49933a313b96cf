import Centaeris.Live.Writer
import Centaeris.Session.Record

/-!
# Turn updates

The text of an answer is accumulated twice. `AssistantTextProjection` has it in memory, one response
for every turn; this is what the run commits in the end. The stream has it for whoever looks on, and
every model request opens it anew.

`LiveRun.handle` is what the run does with an update of its turn and with a commit. The first live
error makes the stream `live_degraded`, and then no update goes to it any more. Errors of a seal are
only reported.
-/

namespace Centaeris.Live

open Session (CommittedSessionRecord SessionRecordType)

/-! ### The text in memory -/

/-- `AssistantResponse`. -/
structure AssistantResponse where
  turnId : String
  text : String
  hasToolCall : Bool
  done : Bool
  deriving DecidableEq

/-- `AssistantTextProjection`: the responses, the newest last. -/
structure AssistantTextProjection where
  responses : List AssistantResponse
  deriving DecidableEq

namespace AssistantTextProjection

variable (p : AssistantTextProjection)

/-- `begin_model_request`: a second request of a turn goes on with its response. -/
def beginModelRequest (turnId initialContent : String) : Except String AssistantTextProjection :=
  if p.responses.getLast?.any fun response ↦ decide (response.turnId = turnId) then .ok p
  else if p.responses.getLast?.any fun response ↦ !response.done then
    .error "model request started before the previous response completed"
  else .ok ⟨p.responses ++ [⟨turnId, initialContent, false, false⟩]⟩

/-- `current_mut`, and what is done with it. -/
def updateCurrent (turnId : String) (f : AssistantResponse → AssistantResponse) :
    Except String AssistantTextProjection :=
  match p.responses.getLast? with
  | some response =>
    if response.turnId = turnId then .ok ⟨p.responses.dropLast ++ [f response]⟩
    else .error ("assistant response turn mismatch: " ++ turnId)
  | none => .error ("assistant response turn mismatch: " ++ turnId)

/-- `push_token`. -/
def pushToken (turnId content : String) : Except String AssistantTextProjection :=
  p.updateCurrent turnId fun response ↦ { response with text := response.text ++ content }

/-- `replace_content`. -/
def replaceContent (turnId content : String) : Except String AssistantTextProjection :=
  p.updateCurrent turnId fun response ↦ { response with text := content }

/-- `mark_tool_call`. -/
def markToolCall (turnId : String) : Except String AssistantTextProjection :=
  p.updateCurrent turnId fun response ↦ { response with hasToolCall := true }

/-- `finish_model_request`. -/
def finishModelRequest (turnId : String) : Except String AssistantTextProjection :=
  p.updateCurrent turnId fun response ↦ { response with done := true }

/-- The text of the last response. -/
def memoryText : String := (p.responses.getLast?.map AssistantResponse.text).getD ""

end AssistantTextProjection

/-! ### The run -/

/-- What the environment does while an update is handled: the clock and the answers of Redis. -/
structure HandlerEnv where
  call : CallEnv
  second : Delivery
  /-- The commit wake was published. -/
  wake : Bool
  deriving DecidableEq

/-- What a run has to do with the text of its answer. -/
structure LiveRun where
  assistantText : AssistantTextProjection
  stream : Option TransientAgentRunStream
  redis : LiveRedis
  committedSessionSequence : Nat
  liveDegraded : Bool
  streamError : Option String
  /-- The live errors that were printed. -/
  reported : List LiveTextError
  deriving DecidableEq

/-- What comes in: the variants of `TurnUpdate`, and commits. -/
inductive TurnEvent
  | reasoning (turnId requestId text : String)
  | modelRequestStart (turnId initialContent : String)
  | toolCallReady (turnId : String)
  | token (turnId content : String)
  | replaceContent (turnId content : String)
  | modelDone (turnId : String)
  | runtimeError (message : String)
  /-- A runtime event or a safe point, before its commit. -/
  | flush
  /-- A commit with its receipt: `accept_session_commit`. -/
  | commit (receipt : List CommittedSessionRecord)
  /-- `persist_model_process_phase` after its commit, with the position of the phase record. -/
  | phase (turnId : String) (committedSequence : Nat) (receipt : List CommittedSessionRecord)
  deriving DecidableEq

/-- `assistant_message_id`. -/
def assistantMessageId (turnId : String) : String := "message:" ++ turnId ++ ":assistant"

/-- A call with both of its scripts, when no other worker comes in between. -/
def TransientAgentRunStream.perform (tonumber : Nat → Nat) (w : TransientAgentRunStream)
    (r : LiveRedis) (env : HandlerEnv) (call : LiveCall) :
    TransientAgentRunStream × LiveRedis × Except LiveTextError Unit :=
  match w.firstScript tonumber r env.call call with
  | (w, r, .returned result) => (w, r, result)
  | (w, r, .continues (.open args)) => w.openScript tonumber r env.second args
  | (w, r, .continues (.sealBefore turnId messageId committedSequence)) =>
    let (w, r, result) := w.sealScript tonumber r env.second turnId messageId committedSequence
    (w, r, result.map fun _ ↦ ())

/-- `committed_assistant_supersession`: the last assistant message of a receipt. -/
def committedAssistantSupersession (receipt : List CommittedSessionRecord) : Option (String × Nat) :=
  (receipt.filter fun record ↦ decide (record.event.eventType = .assistantMessage)).foldl
    (fun best record ↦
      match record.event.turnId with
      | none => best
      | some turnId =>
        if best.any fun found ↦ decide (record.sequence < found.2) then best
        else some (turnId, record.sequence))
    none

/-- `projected_commit_high_water`. -/
def projectedCommitHighWater (projects : SessionRecordType → Bool)
    (receipt : List CommittedSessionRecord) : Option Nat :=
  ((receipt.filter fun record ↦ projects record.event.eventType).map
    CommittedSessionRecord.sequence).max?

namespace LiveRun

/-- A run that has settled what an earlier one has left behind. -/
def start (committedSessionSequence : Nat) (signals : List LiveSignal) : LiveRun where
  assistantText := ⟨[]⟩
  stream := some .connect
  redis := ⟨none, none, signals⟩
  committedSessionSequence
  liveDegraded := false
  streamError := none
  reported := []

/-- The new text in memory, or the first error. -/
def note (s : LiveRun) : Except String AssistantTextProjection → LiveRun
  | .ok assistantText => { s with assistantText }
  | .error error => { s with streamError := s.streamError.or (some error) }

/-- A live call, and its error. -/
def callStream (tonumber : Nat → Nat) (s : LiveRun) (env : HandlerEnv) (call : LiveCall) :
    LiveRun × Option LiveTextError :=
  match s.stream with
  | none => (s, none)
  | some w =>
    match w.perform tonumber s.redis env call with
    | (w, redis, .ok _) => ({ s with stream := some w, redis }, none)
    | (w, redis, .error error) =>
      ({ s with stream := some w, redis, reported := s.reported ++ [error] }, some error)

/-- A live call of an update, with `latch_live_error`. -/
def live (tonumber : Nat → Nat) (s : LiveRun) (env : HandlerEnv) (call : LiveCall) : LiveRun :=
  if s.liveDegraded then s
  else
    let (s, error) := s.callStream tonumber env call
    { s with liveDegraded := error.isSome }

/-- `settle_live_before_sequence_or_log`. -/
def settleLiveBeforeSequence (tonumber : Nat → Nat) (s : LiveRun) (env : HandlerEnv) (turnId : String)
    (committedSequence : Nat) : LiveRun :=
  (s.callStream tonumber env (.sealBefore turnId (assistantMessageId turnId) committedSequence)).1

/-- `publish_commit_wake_or_log`. -/
def publishCommitWake (projects : SessionRecordType → Bool) (s : LiveRun) (env : HandlerEnv)
    (receipt : List CommittedSessionRecord) : LiveRun :=
  if (projectedCommitHighWater projects receipt).all fun sequence ↦ decide (sequence ≠ 0) && env.wake then
    s
  else { s with stream := none }

/-- `accept_session_commit_position`. -/
def acceptPosition (s : LiveRun) (lastSequence : Nat) : LiveRun :=
  { s with committedSessionSequence := max s.committedSessionSequence lastSequence }

/-- `accept_session_commit`. A receipt without records has no last position, and is refused. -/
def acceptSessionCommit (tonumber : Nat → Nat) (projects : SessionRecordType → Bool) (s : LiveRun)
    (env : HandlerEnv) (receipt : List CommittedSessionRecord) : LiveRun :=
  match receipt.getLast? with
  | none => s
  | some last =>
    let s := s.acceptPosition last.sequence
    let s := match committedAssistantSupersession receipt with
      | none => s
      | some (turnId, committedSequence) =>
        s.settleLiveBeforeSequence tonumber env turnId committedSequence
    s.publishCommitWake projects env receipt

/-- **One update.** -/
def handle (tonumber : Nat → Nat) (projects : SessionRecordType → Bool) (s : LiveRun)
    (env : HandlerEnv) : TurnEvent → LiveRun
  | .reasoning turnId requestId text => s.live tonumber env (.reasoning turnId requestId text)
  | .modelRequestStart turnId initialContent =>
    (s.note (s.assistantText.beginModelRequest turnId initialContent)).live tonumber env
      (.open ⟨turnId, assistantMessageId turnId, s.committedSessionSequence, initialContent⟩)
  | .toolCallReady turnId =>
    (s.live tonumber env .flush).note (s.assistantText.markToolCall turnId)
  | .token turnId content =>
    match s.assistantText.pushToken turnId content with
    | .ok assistantText => { s with assistantText }.live tonumber env
        (.appendDelta turnId (assistantMessageId turnId) content)
    | .error error => s.note (.error error)
  | .replaceContent turnId content =>
    (s.note (s.assistantText.replaceContent turnId content)).live tonumber env
      (.replace turnId (assistantMessageId turnId) content)
  | .modelDone turnId =>
    (s.note (s.assistantText.finishModelRequest turnId)).live tonumber env .flush
  | .runtimeError message => (s.live tonumber env .flush).note (.error message)
  | .flush => s.live tonumber env .flush
  | .commit receipt => s.acceptSessionCommit tonumber projects env receipt
  | .phase turnId committedSequence receipt =>
    match receipt.getLast? with
    | none => s
    | some last =>
      ((s.acceptPosition last.sequence).settleLiveBeforeSequence tonumber env turnId
        committedSequence).publishCommitWake projects env receipt

end LiveRun

end Centaeris.Live
