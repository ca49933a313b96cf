import Centaeris.Jobs.Record
import Centaeris.Base.Except
import Mathlib.Logic.Function.Basic

/-!
# Session records and checkpoints

The records of the session log, with the fields that the log looks at, and the rows of `checkpoints`. The
library that defines the record format is not part of the repository; the record types that the code tells
apart are known by their names on the wire.
-/

namespace Centaeris.Session

open Jobs (JobStore RuntimeEvent)

/-- The record types that the log tells apart, by their names on the wire. -/
def distinguishedNames : List String :=
  ["agent_run_started", "user_message", "assistant_message", "agent_run_completed",
    "agent_run_failed", "agent_run_interrupted", "tombstone", "tool_call_closure",
    "model_request_started"]

/-- `SessionRecordType`. The types that the log does not tell apart are `other`. -/
inductive SessionRecordType
  | agentRunStarted
  | userMessage
  | assistantMessage
  | agentRunCompleted
  | agentRunFailed
  | agentRunInterrupted
  | tombstone
  | toolCallClosure
  | modelRequestStarted
  | other (name : { name : String // name ∉ distinguishedNames })
  deriving DecidableEq

/-- `SessionLogRecord`: the fields that the log looks at. -/
structure SessionLogRecord where
  eventId : String
  eventType : SessionRecordType
  sessionId : String
  turnId : Option String
  agentRunId : Option String
  createdAtMs : Int
  payload : Json
  deriving DecidableEq

/-- `CommittedSessionRecord`: a record with its position in the session. A commit's receipt is the
list of its records. -/
structure CommittedSessionRecord where
  sequence : Nat
  event : SessionLogRecord
  deriving DecidableEq

/-- `CheckpointKindV1`. -/
inductive CheckpointKind
  | wait | recovery
  deriving DecidableEq

/-- A row of `checkpoints`. -/
structure CheckpointRecord where
  checkpointId : String
  kind : CheckpointKind
  sessionId : String
  turnId : String
  status : String
  doneReason : Option String
  updatedAtMs : Int
  payloadJson : String
  deriving DecidableEq

end Centaeris.Session
