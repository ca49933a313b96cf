import Centaeris.Base.Json
import Centaeris.Base.Machine
import Mathlib.Logic.Function.Basic

/-!
# Writers of live text

While an AgentRun answers, its worker keeps the text so far in Redis: the text under one key, and
under another a hash of what the text belongs to, with the number of its revision. Every change goes
through one Lua script, which Redis runs atomically, and every replacement of the text is appended
to the signals of the run.

A worker has a `TransientAgentRunStream`. It buffers the text and flushes it at intervals. A call may
need two scripts, a flush and then its own; they are separate, and other workers may come between
them. `LiveStep` interleaves scripts.

An answer of Redis may be lost. The script may have run or not; the source calls the outcome
indeterminate. Keys expire.
-/

namespace Centaeris.Live

open Machine

/-! ### Redis -/

/-- The hash `live:meta`. -/
structure LiveMeta where
  turnId : String
  messageId : String
  afterSequence : Nat
  revision : Nat
  reasoning : Option Json
  deriving DecidableEq

/-- The fields of a live signal that are not fixed for the run. -/
structure LiveSignal where
  afterSequence : Nat
  revision : Nat
  turnId : String
  messageId : String
  text : String
  reasoning : Json
  deriving DecidableEq

/-- The keys of one AgentRun. -/
structure LiveRedis where
  text : Option String
  liveMeta : Option LiveMeta
  /-- The live signals, the newest last. -/
  signals : List LiveSignal
  deriving DecidableEq

/-- The arguments of `LIVE_TEXT_MUTATE_SCRIPT`. -/
inductive LiveMutation
  | «open» (turnId messageId : String) (afterSequence : Nat) (initialText : String)
  | replace (fullText turnId messageId : String) (expectedRevision newRevision : Nat)
      (signal : LiveSignal) (reasoning : Json)
  | seal (turnId messageId : String) (expectedRevision : Nat)
  | sealBefore (turnId messageId : String) (expectedRevision committedSequence : Nat)
  deriving DecidableEq

/-- What the script returns. -/
inductive LiveReply
  | ok | cursor | missing | retained | deleted
  deriving DecidableEq

/-- `LIVE_TEXT_MUTATE_SCRIPT`. `tonumber` is Lua's: a number of Lua is a double. -/
def liveTextMutate (tonumber : Nat → Nat) (r : LiveRedis) :
    LiveMutation → Except String (LiveRedis × LiveReply)
  | .open turnId messageId afterSequence initialText =>
    if r.liveMeta.any fun m ↦ decide (tonumber afterSequence ≤ tonumber m.afterSequence) then
      .error "live open durable position is not newer"
    else
      .ok ({ r with text := some initialText,
                    liveMeta := some ⟨turnId, messageId, afterSequence, 0, none⟩ }, .ok)
  | .replace fullText turnId messageId expectedRevision newRevision signal reasoning =>
    match r.liveMeta with
    | none => .error "live meta message identity mismatch"
    | some m =>
      if m.messageId ≠ messageId then .error "live meta message identity mismatch"
      else if m.turnId ≠ turnId then .error "live meta turn identity mismatch"
      else if m.revision ≠ expectedRevision then .error "live revision mismatch"
      else
        .ok ({ text := some fullText,
               liveMeta := some { m with revision := newRevision, reasoning := some reasoning },
               signals := r.signals ++ [signal] }, .cursor)
  | .seal turnId messageId expectedRevision =>
    match r.liveMeta with
    | none => .ok (r, .ok)
    | some m =>
      if m.messageId ≠ messageId then .error "live meta message identity mismatch"
      else if m.turnId ≠ turnId then .error "live meta turn identity mismatch"
      else if m.revision ≠ expectedRevision then .error "live revision mismatch"
      else .ok ({ r with text := none, liveMeta := none }, .ok)
  | .sealBefore turnId messageId expectedRevision committedSequence =>
    match r.liveMeta with
    | none => .ok (r, .missing)
    | some m =>
      if m.messageId ≠ messageId ∨ m.turnId ≠ turnId ∨ m.revision ≠ expectedRevision then
        .ok (r, .retained)
      else if tonumber committedSequence ≤ tonumber m.afterSequence then .ok (r, .retained)
      else .ok ({ r with text := none, liveMeta := none }, .deleted)

/-- `LiveTextError`. -/
inductive LiveTextError
  | indeterminate
  | fatal (message : String)
  deriving DecidableEq

/-- What becomes of a script and its answer. -/
inductive Delivery
  | answered
  /-- The answer is lost; the script ran, or did not. -/
  | lost (executed : Bool)
  deriving DecidableEq

/-- `invoke`, with `classify_live_error`. -/
def invoke (tonumber : Nat → Nat) (delivery : Delivery) (r : LiveRedis) (m : LiveMutation) :
    LiveRedis × Except LiveTextError LiveReply :=
  match delivery, liveTextMutate tonumber r m with
  | .answered, .ok (r', reply) => (r', .ok reply)
  | .answered, .error message => (r, .error (.fatal message))
  | .lost true, .ok (r', _) => (r', .error .indeterminate)
  | .lost _, _ => (r, .error .indeterminate)

/-! ### Streams -/

/-- `TransientAgentRunStream`. -/
structure TransientAgentRunStream where
  liveRevision : Nat
  liveAfterSequence : Nat
  liveText : String
  liveReasoning : Option Json
  /-- The turn and the message of the text that is not flushed yet. -/
  pendingLive : Option (String × String)
  lastLiveFlush : Option Nat
  deriving DecidableEq

/-- The clock and the answer of Redis during a call. -/
structure CallEnv where
  now : Nat
  flushedAt : Nat
  delivery : Delivery
  deriving DecidableEq

/-- `LIVE_FLUSH_INTERVAL` in milliseconds. -/
def liveFlushInterval : Nat := 75

/-- `live_flush_is_due`. -/
def liveFlushIsDue (lastFlush : Option Nat) (now : Nat) : Bool :=
  lastFlush.all fun flushedAt ↦ decide (liveFlushInterval ≤ now - flushedAt)

namespace TransientAgentRunStream

/-- `connect`. -/
def connect : TransientAgentRunStream := ⟨0, 0, "", none, none, none⟩

/-- The script of a flush of the text under a turn and a message. -/
def replacement (w : TransientAgentRunStream) (pending : String × String) : LiveMutation :=
  .replace w.liveText pending.1 pending.2 w.liveRevision (w.liveRevision + 1)
    ⟨w.liveAfterSequence, w.liveRevision + 1, pending.1, pending.2, w.liveText,
      w.liveReasoning.getD .null⟩
    (w.liveReasoning.getD .null)

/-- `live_flush`. -/
def liveFlush (tonumber : Nat → Nat) (w : TransientAgentRunStream) (r : LiveRedis) (env : CallEnv) :
    TransientAgentRunStream × LiveRedis × Except LiveTextError Unit :=
  match w.pendingLive with
  | none => (w, r, .ok ())
  | some pending =>
    if u64Max < w.liveRevision + 1 then (w, r, .error (.fatal "live revision exhausted"))
    else
      match invoke tonumber env.delivery r (w.replacement pending) with
      | (r', .error e) => ({ w with pendingLive := none }, r', .error e)
      | (r', .ok _) =>
        ({ w with liveRevision := w.liveRevision + 1, pendingLive := none,
                  lastLiveFlush := some env.flushedAt }, r', .ok ())

/-- `flush_live_if_due`. -/
def flushLiveIfDue (tonumber : Nat → Nat) (w : TransientAgentRunStream) (r : LiveRedis)
    (env : CallEnv) : TransientAgentRunStream × LiveRedis × Except LiveTextError Unit :=
  if liveFlushIsDue w.lastLiveFlush env.now then w.liveFlush tonumber r env else (w, r, .ok ())

/-- The stream after its `open`. -/
def opened (afterSequence : Nat) (initialText : String) : TransientAgentRunStream :=
  ⟨0, afterSequence, initialText, none, none, none⟩

/-- The stream after its text was deleted. -/
def sealed (w : TransientAgentRunStream) : TransientAgentRunStream :=
  { w with liveText := "", pendingLive := none, lastLiveFlush := none }

end TransientAgentRunStream

/-! ### Calls -/

/-- The arguments of `live_open`. -/
structure LiveOpen where
  turnId : String
  messageId : String
  afterSequence : Nat
  initialText : String
  deriving DecidableEq

/-- The script of an `open`. -/
def LiveOpen.mutation (o : LiveOpen) : LiveMutation :=
  .open o.turnId o.messageId o.afterSequence o.initialText

/-- What the text belongs to. -/
def LiveOpen.identity (o : LiveOpen) : String × String := (o.turnId, o.messageId)

@[inherit_doc LiveOpen.identity]
def LiveMeta.identity (m : LiveMeta) : String × String := (m.turnId, m.messageId)

/-- A call of a stream. -/
inductive LiveCall
  /-- `live_flush` -/
  | flush
  /-- `live_replace` -/
  | replace (turnId messageId fullText : String)
  /-- `live_append_delta` -/
  | appendDelta (turnId messageId delta : String)
  /-- `live_reasoning` -/
  | reasoning (turnId requestId text : String)
  /-- `live_open` -/
  | «open» (args : LiveOpen)
  /-- `live_seal_before_sequence` -/
  | sealBefore (turnId messageId : String) (committedSequence : Nat)
  /-- `settle_live_meta` -/
  | settle (turnId messageId : String) (revision : Nat)
  deriving DecidableEq

/-- The script that a call runs after its flush. -/
inductive SecondScript
  | «open» (args : LiveOpen)
  | sealBefore (turnId messageId : String) (committedSequence : Nat)
  deriving DecidableEq

/-- Where a call is after its first script. -/
inductive CallOutcome
  | returned (result : Except LiveTextError Unit)
  | continues (second : SecondScript)
  deriving DecidableEq

/-- The JSON of a reasoning block. -/
def reasoningBlock (requestId text : String) : Json :=
  .obj [("blockId", .str ("reasoning:" ++ requestId)), ("requestId", .str requestId),
    ("text", .str text)]

namespace TransientAgentRunStream

/-- The stream with text or reasoning that waits to be flushed. -/
def buffered (w : TransientAgentRunStream) : LiveCall → TransientAgentRunStream
  | .replace turnId messageId fullText =>
    { w with liveText := fullText, pendingLive := some (turnId, messageId) }
  | .appendDelta turnId messageId delta =>
    { w with liveText := w.liveText ++ delta, pendingLive := some (turnId, messageId) }
  | .reasoning turnId requestId text =>
    { w with liveReasoning := some (reasoningBlock requestId text),
             pendingLive := some (turnId, "message:" ++ turnId ++ ":assistant") }
  | _ => w

/-- The identities of the call are refused. -/
def refused : LiveCall → Option String
  | .replace turnId messageId _ =>
    if isBlank turnId || isBlank messageId then
      some "live replacement requires non-empty turnId and messageId"
    else none
  | .appendDelta turnId messageId _ =>
    if isBlank turnId || isBlank messageId then
      some "live delta requires non-empty turnId and messageId"
    else none
  | .open args =>
    if isBlank args.turnId || isBlank args.messageId then
      some "live_open requires non-empty turnId and messageId"
    else none
  | .sealBefore turnId messageId committedSequence =>
    if isBlank turnId || isBlank messageId || decide (committedSequence = 0) then
      some "live_seal_before_sequence requires non-empty identities and a committed sequence"
    else none
  | .flush | .reasoning _ _ _ | .settle _ _ _ => none

/-- A call up to its first script: the flush, for all but `settle_live_meta`. -/
def firstScript (tonumber : Nat → Nat) (w : TransientAgentRunStream) (r : LiveRedis)
    (env : CallEnv) (call : LiveCall) : TransientAgentRunStream × LiveRedis × CallOutcome :=
  match refused call with
  | some message => (w, r, .returned (.error (.fatal message)))
  | none =>
    match call with
    | .flush =>
      let (w, r, result) := w.liveFlush tonumber r env
      (w, r, .returned result)
    | .replace _ _ _ | .appendDelta _ _ _ | .reasoning _ _ _ =>
      let (w, r, result) := (w.buffered call).flushLiveIfDue tonumber r env
      (w, r, .returned result)
    | .open args =>
      match w.liveFlush tonumber r env with
      | (w, r, .ok _) => (w, r, .continues (.open args))
      | (w, r, .error e) => (w, r, .returned (.error e))
    | .sealBefore turnId messageId committedSequence =>
      match w.liveFlush tonumber r env with
      | (w, r, .ok _) => (w, r, .continues (.sealBefore turnId messageId committedSequence))
      | (w, r, .error e) => (w, r, .returned (.error e))
    | .settle turnId messageId revision =>
      match invoke tonumber env.delivery r (.seal turnId messageId revision) with
      | (r, .ok _) => (w, r, .returned (.ok ()))
      | (r, .error e) => (w, r, .returned (.error e))

/-- `live_open` after its flush. -/
def openScript (tonumber : Nat → Nat) (w : TransientAgentRunStream) (r : LiveRedis)
    (delivery : Delivery) (args : LiveOpen) :
    TransientAgentRunStream × LiveRedis × Except LiveTextError Unit :=
  match invoke tonumber delivery r args.mutation with
  | (r, .ok _) => (opened args.afterSequence args.initialText, r, .ok ())
  | (r, .error e) => (w, r, .error e)

/-- `live_seal_before_sequence` after its flush. The answer is whether the text was deleted. -/
def sealScript (tonumber : Nat → Nat) (w : TransientAgentRunStream) (r : LiveRedis)
    (delivery : Delivery) (turnId messageId : String) (committedSequence : Nat) :
    TransientAgentRunStream × LiveRedis × Except LiveTextError Bool :=
  match invoke tonumber delivery r
      (.sealBefore turnId messageId w.liveRevision committedSequence) with
  | (r, .ok .deleted) => (w.sealed, r, .ok true)
  | (r, .ok .missing) | (r, .ok .retained) => (w, r, .ok false)
  | (r, .ok _) => (w, r, .error (.fatal "live supersession returned an unknown outcome"))
  | (r, .error e) => (w, r, .error e)

end TransientAgentRunStream

/-! ### Interleaved scripts -/

/-- The keys of the run, the streams of the workers `ι`, and the calls between two scripts. -/
structure LiveState (ι : Type) where
  redis : LiveRedis
  streams : ι → TransientAgentRunStream
  second : ι → Option SecondScript
  /-- Who ran the last `open` that took effect, and with what; this is in no key. -/
  lastOpen : Option (ι × LiveOpen)

/-- What can happen next. -/
inductive LiveOp (ι : Type)
  | call (i : ι) (call : LiveCall) (env : CallEnv)
  | openScript (i : ι) (args : LiveOpen) (delivery : Delivery) (result : Except LiveTextError Unit)
  | sealScript (i : ι) (turnId messageId : String) (committedSequence : Nat) (delivery : Delivery)
  | expire

section Steps

variable {ι : Type} [DecidableEq ι]

/-- The state when the worker `i` has run a script. -/
def LiveState.set (σ : LiveState ι) (i : ι) (w : TransientAgentRunStream) (r : LiveRedis)
    (second : Option SecondScript) : LiveState ι :=
  { σ with
    redis := r
    streams := Function.update σ.streams i w
    second := Function.update σ.second i second }

@[simp] theorem LiveState.set_streams_self (σ : LiveState ι) (i : ι) (w : TransientAgentRunStream)
    (r : LiveRedis) (second : Option SecondScript) : (σ.set i w r second).streams i = w :=
  Function.update_self ..

theorem LiveState.set_streams_of_ne (σ : LiveState ι) {i j : ι} (h : j ≠ i)
    (w : TransientAgentRunStream) (r : LiveRedis) (second : Option SecondScript) :
    (σ.set i w r second).streams j = σ.streams j := Function.update_of_ne h ..

/-- What a call waits to run. -/
def CallOutcome.second : CallOutcome → Option SecondScript
  | .returned _ => none
  | .continues second => some second

/-- The `open` took effect in Redis. -/
def opens (tonumber : Nat → Nat) (r : LiveRedis) (delivery : Delivery) (args : LiveOpen) : Bool :=
  decide (delivery ≠ .lost false) &&
    (liveTextMutate tonumber r args.mutation).isOk

/-- One script of one worker, or the end of a key. -/
inductive LiveStep (tonumber : Nat → Nat) : LiveState ι → LiveOp ι → LiveState ι → Prop
  | call {σ : LiveState ι} {i : ι} {call : LiveCall} {env : CallEnv}
      {w : TransientAgentRunStream} {r : LiveRedis} {outcome : CallOutcome}
      (hidle : σ.second i = none)
      (h : (σ.streams i).firstScript tonumber σ.redis env call = (w, r, outcome)) :
      LiveStep tonumber σ (.call i call env) (σ.set i w r outcome.second)
  | openScript {σ : LiveState ι} {i : ι} {args : LiveOpen} {delivery : Delivery}
      {w : TransientAgentRunStream} {r : LiveRedis} {result : Except LiveTextError Unit}
      (hsecond : σ.second i = some (.open args))
      (h : (σ.streams i).openScript tonumber σ.redis delivery args = (w, r, result)) :
      LiveStep tonumber σ (.openScript i args delivery result)
        { σ.set i w r none with
          lastOpen := if opens tonumber σ.redis delivery args then some (i, args) else σ.lastOpen }
  | sealScript {σ : LiveState ι} {i : ι} {turnId messageId : String} {committedSequence : Nat}
      {delivery : Delivery} {w : TransientAgentRunStream} {r : LiveRedis}
      {result : Except LiveTextError Bool}
      (hsecond : σ.second i = some (.sealBefore turnId messageId committedSequence))
      (h : (σ.streams i).sealScript tonumber σ.redis delivery turnId messageId committedSequence =
        (w, r, result)) :
      LiveStep tonumber σ (.sealScript i turnId messageId committedSequence delivery)
        (σ.set i w r none)
  /-- Keys expire. -/
  | expire {σ : LiveState ι} {text : Option String} {m : Option LiveMeta}
      (htext : text = σ.redis.text ∨ text = none) (hmeta : m = σ.redis.liveMeta ∨ m = none) :
      LiveStep tonumber σ .expire { σ with redis := { σ.redis with text, liveMeta := m } }

/-- No key, no text, no call. -/
def LiveState.initial : LiveState ι where
  redis := ⟨none, none, []⟩
  streams _ := .connect
  second _ := none
  lastOpen := none

end Steps

end Centaeris.Live
