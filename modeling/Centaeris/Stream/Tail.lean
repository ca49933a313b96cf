import Centaeris.Live.Writer
import Centaeris.Relational.Run
import Centaeris.Stream.Log

/-!
# The stream of an AgentRun

`_stream_agent_run_session_items_async` sends the committed records of a run, as they appear in
PostgreSQL, and between them the live text from Redis. It waits at every query. What runs between two
waits is one step here, and anything may happen to the tables and to Redis between two steps.

* `Connection.next` are the steps of `_drain_postgres` and `_stream_live_candidate`, which talk to
  PostgreSQL.
* `ConnStep` adds the main loop, where Redis decides what comes next: its signals, its failures and
  the timers.
* `StreamStep` interleaves a connection with appends, rewrites and writers of live text.

A connection that the client or the server closes takes no further step. An exception ends it, too.
-/

namespace Centaeris.Stream

open Machine

/-! ### Live text -/

/-- A live state as the stream sends it. -/
structure LiveOverlay where
  messageId : String
  turnId : String
  afterSequence : Nat
  revision : Nat
  text : String
  reasoning : Option Json
  deriving DecidableEq

/-- The turn and the message. -/
def LiveOverlay.identity (o : LiveOverlay) : String × String := (o.turnId, o.messageId)

/-- `_validate_reasoning`. -/
def validReasoning : Json → Bool
  | .null => true
  | .obj fields =>
    Json.Fields.keysAre fields ["blockId", "requestId", "text"] &&
      match Json.Fields.get? fields "requestId", Json.Fields.get? fields "text" with
      | some (.str requestId), some (.str _) => !isBlank requestId &&
          decide (Json.Fields.get? fields "blockId" = some (.str ("reasoning:" ++ requestId)))
      | _, _ => false
  | _ => false

/-- `_live_state`. -/
def liveState (r : Live.LiveRedis) : Except String (Option LiveOverlay) :=
  match r.liveMeta with
  | none => .ok none
  | some m =>
    if m.messageId = "" ∨ m.turnId = "" then .error "agent_run_live_state_invalid"
    else if m.revision = 0 then .ok none
    else if m.reasoning.all validReasoning then
      .ok (some ⟨m.messageId, m.turnId, m.afterSequence, m.revision, r.text.getD "", m.reasoning⟩)
    else .error "agent_run_live_reasoning_invalid"

/-! ### The state of a connection -/

/-- `_new_tail_state`. -/
structure TailState where
  sourceSequence : Nat
  sessionHighWater : Nat := 0
  terminal : Bool := false
  sealedLiveIdentities : List (String × String) := []
  checkedLiveIdentities : List (String × String) := []
  overlayBarriers : String → Nat := fun _ ↦ 0
  liveIdentity : Option (String × String) := none
  liveRevision : Nat := 0

/-- What follows a `_drain_postgres`. -/
inductive Resume
  /-- The run had ended when the client connected. -/
  | final
  | first
  /-- Redis is not available. -/
  | polling
  /-- Redis answers again. -/
  | reattach
  | reconcile
  | signals (sawLive : Bool)
  /-- The drain of a `_stream_live_candidate`. -/
  | candidate (overlay : LiveOverlay)

/-- Where a `_drain_postgres` is. -/
inductive DrainPoint
  | highWater
  | records (highWater : Nat)
  /-- The page is sent, one record at a time. -/
  | items (full : Bool) (rest : List SessionEvent)
  | terminalSequence
  | terminalStatus
  | terminalMessage

/-- Where a `_stream_live_candidate` is. -/
inductive CandidatePoint
  | position
  /-- After its own drain. -/
  | recheck
  | barrier
  | sealedRows (barrier : Nat)

/-- Where a connection is. -/
inductive Phase
  | start
  | capture
  | drain (resume : Resume) (point : DrainPoint)
  | load
  | candidate (overlay : LiveOverlay) (point : CandidatePoint)
  | loop
  | recapture
  /-- The generator has returned. -/
  | ended
  /-- The generator has raised. -/
  | failed

/-- A connection. -/
structure Connection where
  tail : TailState
  redisAvailable : Bool
  phase : Phase

/-- A connection from a cursor. -/
def Connection.connect (sourceSequence : Nat) : Connection := ⟨{ sourceSequence }, true, .start⟩

/-- The tables and keys that the connection reads. -/
structure Env where
  log : EventLog
  /-- The status of the run is `failed` or `cancelled`. -/
  runFailed : Bool
  redis : Live.LiveRedis

/-- What can happen next. -/
inductive StreamOp
  /-- A committed item is sent. -/
  | committed (e : SessionEvent)
  /-- A live item is sent. -/
  | live (overlay : LiveOverlay)
  /-- The connection takes a step without output. -/
  | silent
  | append (e : SessionEvent)
  | hide (eventIds : List String)
  | status (failed : Bool)
  | redis (r : Live.LiveRedis)
  deriving DecidableEq

/-! ### Committed records -/

/-- `_committed_item` accepts the record. -/
def bindsRecord (run : AgentRunRef) (e : SessionEvent) : Prop :=
  0 < e.sequence ∧ e.payload.get? "sequence" = some (.ofInt e.sequence) ∧
    e.payload.get? "eventId" = some (.str e.eventId) ∧
    e.payload.get? "sessionId" = some (.str run.sessionId) ∧
    e.payload.get? "agentRunId" = some (.str run.id)

instance (run : AgentRunRef) (e : SessionEvent) : Decidable (bindsRecord run e) := by
  unfold bindsRecord; infer_instance

/-- A text of the payload that is not empty. -/
def nonEmptyText (value : Option Json) : Option String :=
  (value.bind Json.asStr?).filter fun s ↦ decide (s ≠ "")

namespace TailState

/-- `barriers[turn_id] = max(barriers.get(turn_id, 0), sequence)`. -/
def raiseBarrier (s : TailState) (turnId : String) (sequence : Nat) : TailState :=
  { s with overlayBarriers :=
      Function.update s.overlayBarriers turnId (max (s.overlayBarriers turnId) sequence) }

/-- `advance_overlay_barrier`; `none` is an exception. -/
def advanceOverlayBarrier (s : TailState) (e : SessionEvent) : Option TailState :=
  if e.isBarrier then
    (nonEmptyText (e.payload.get? "turnId")).map fun turnId ↦ s.raiseBarrier turnId e.sequence
  else some s

/-- The identity that an assistant message closes is noted; `none` is an exception. -/
def sealIdentity (s : TailState) (e : SessionEvent) : Option TailState :=
  if e.isAssistantMessage then do
    let turnId ← nonEmptyText (e.payload.get? "turnId")
    let messageId ← nonEmptyText (e.payload.pointer ["payload", "messageId"])
    return { s with sealedLiveIdentities := (turnId, messageId) :: s.sealedLiveIdentities }
  else some s

/-- What `_drain_postgres` does with a record before it sends it; `none` is an exception. -/
def commitRecord (run : AgentRunRef) (s : TailState) (e : SessionEvent) : Option TailState := do
  guard (bindsRecord run e)
  guard (s.sourceSequence < e.sequence)
  let s ← { s with sourceSequence := e.sequence }.advanceOverlayBarrier e
  s.sealIdentity e

/-- `live_overlay_is_superseded`. -/
def supersedes (s : TailState) (o : LiveOverlay) : Bool :=
  decide (o.afterSequence < s.overlayBarriers o.turnId)

end TailState

/-! ### The steps that talk to PostgreSQL -/

namespace Connection

/-- Where the connection goes when a live candidate is done. -/
def leave (c : Connection) : Connection :=
  { c with phase := if c.tail.terminal then .ended else .loop }

/-- Where the connection goes when a drain is done. -/
def drained (c : Connection) (resume : Resume) : Connection :=
  { c with phase :=
      match resume with
      | .final => .ended
      | resume =>
        if c.tail.terminal then .ended
        else match resume with
          | .final => .ended
          | .first => if c.redisAvailable then .load else .loop
          | .polling => .recapture
          | .reattach => .load
          | .reconcile => .loop
          | .signals sawLive => if sawLive then .load else .loop
          | .candidate overlay => .candidate overlay .recheck }

/-- The end of a drain that has set `terminal`. -/
def setTerminal (c : Connection) (resume : Resume) (terminal : Bool) : Connection :=
  { c with tail := { c.tail with terminal } }.drained resume

/-- One step of `_drain_postgres`. -/
def drainStep (run : AgentRunRef) (env : Env) (c : Connection) (resume : Resume) :
    DrainPoint → Connection × StreamOp
  | .highWater => ({ c with phase := .drain resume (.records env.log.highWater) }, .silent)
  | .records highWater =>
    let records := env.log.page run c.tail.sourceSequence
    ({ c with
        tail := { c.tail with
          sessionHighWater := max highWater (Sequenced.position SessionEvent.sequence records 0) }
        phase := .drain resume (.items (decide (records.length = postgresBatchSize)) records) },
      .silent)
  | .items full [] =>
    ({ c with phase := .drain resume (if full then .highWater else .terminalSequence) }, .silent)
  | .items full (e :: rest) =>
    match c.tail.commitRecord run e with
    | none => ({ c with phase := .failed }, .silent)
    | some tail =>
      if e.isTerminal then ({ c with tail }.setTerminal resume true, .committed e)
      else ({ c with tail, phase := .drain resume (.items full rest) }, .committed e)
  | .terminalSequence =>
    match env.log.terminalSequence run with
    | some n => (c.setTerminal resume (decide (n ≤ c.tail.sourceSequence)), .silent)
    | none => ({ c with phase := .drain resume .terminalStatus }, .silent)
  | .terminalStatus =>
    if env.runFailed then ({ c with phase := .drain resume .terminalMessage }, .silent)
    else (c.setTerminal resume false, .silent)
  | .terminalMessage => (c.setTerminal resume (!env.log.hasUserMessage run), .silent)

/-- The last test of a live candidate: it is sent unless its revision was sent before. -/
def offer (c : Connection) (o : LiveOverlay) : Connection × StreamOp :=
  if c.tail.liveIdentity = some o.identity ∧ o.revision ≤ c.tail.liveRevision then (c.leave, .silent)
  else
    ({ c with tail := { c.tail with liveIdentity := some o.identity,
                                    liveRevision := o.revision } }.leave, .live o)

/-- Identities are compared by their parts. -/
local instance lawfulBEqIdentity : LawfulBEq (String × String) := inferInstance

/-- The tests of a live candidate that come before its queries. -/
def screen (c : Connection) (o : LiveOverlay) : Connection × StreamOp :=
  if c.tail.supersedes o then (c.leave, .silent)
  else if c.tail.terminal ∨ o.identity ∈ c.tail.sealedLiveIdentities then (c.leave, .silent)
  else if o.identity ∈ c.tail.checkedLiveIdentities then c.offer o
  else ({ c with phase := .candidate o .barrier }, .silent)

/-- The tests of a live candidate that come after its queries. -/
def checkCommitted (c : Connection) (o : LiveOverlay) (barrier : Nat) (rows : List SessionEvent) :
    Connection × StreamOp :=
  if 1 < rows.length ∨ (rows.any fun e ↦ !e.hasTurn o.turnId) then ({ c with phase := .failed }, .silent)
  else
    let tail := c.tail.raiseBarrier o.turnId barrier
    if tail.supersedes o then ({ c with tail }.leave, .silent)
    else if rows ≠ [] then
      ({ c with tail := { tail with
        sealedLiveIdentities := o.identity :: tail.sealedLiveIdentities } }.leave, .silent)
    else
      { c with tail := { tail with
        checkedLiveIdentities := o.identity :: tail.checkedLiveIdentities } }.offer o

/-- One step of `_stream_live_candidate`. -/
def candidateStep (run : AgentRunRef) (env : Env) (c : Connection) (o : LiveOverlay) :
    CandidatePoint → Connection × StreamOp
  | .position =>
    if c.tail.sessionHighWater < o.afterSequence then
      ({ c with phase := .drain (.candidate o) .highWater }, .silent)
    else c.screen o
  | .recheck =>
    if c.tail.sessionHighWater < o.afterSequence then ({ c with phase := .failed }, .silent)
    else c.screen o
  | .barrier =>
    ({ c with phase := .candidate o (.sealedRows (env.log.barrier run o.turnId)) }, .silent)
  | .sealedRows barrier => c.checkCommitted o barrier (env.log.sealedRows run o.messageId)

end Connection

/-! ### The main loop -/

/-- One step of a connection. -/
inductive ConnStep (run : AgentRunRef) (env : Env) :
    Connection → StreamOp → Connection → Prop
  | start {c : Connection} (h : c.phase = .start) (statusEnded : Bool) :
      ConnStep run env c .silent
        { c with phase := if statusEnded then .drain .final .highWater else .capture }
  /-- `_capture_signal_tail` before the first drain. -/
  | capture {c : Connection} (h : c.phase = .capture) (redisAvailable : Bool) :
      ConnStep run env c .silent { c with redisAvailable, phase := .drain .first .highWater }
  | drain {c : Connection} {resume : Resume} {point : DrainPoint}
      (h : c.phase = .drain resume point) :
      ConnStep run env c (c.drainStep run env resume point).2 (c.drainStep run env resume point).1
  | candidate {c : Connection} {o : LiveOverlay} {point : CandidatePoint}
      (h : c.phase = .candidate o point) :
      ConnStep run env c (c.candidateStep run env o point).2 (c.candidateStep run env o point).1
  /-- `_load_live_text_state_async`. -/
  | load {c : Connection} {o : Option LiveOverlay} (h : c.phase = .load)
      (hlive : liveState env.redis = .ok o) :
      ConnStep run env c .silent
        { c with redisAvailable := true, phase := o.elim .loop fun o ↦ .candidate o .position }
  | loadInvalid {c : Connection} {message : String} (h : c.phase = .load)
      (hlive : liveState env.redis = .error message) :
      ConnStep run env c .silent { c with phase := .failed }
  | loadLost {c : Connection} (h : c.phase = .load) :
      ConnStep run env c .silent { c with redisAvailable := false, phase := .loop }
  /-- Redis is not available; PostgreSQL is polled. -/
  | poll {c : Connection} (h : c.phase = .loop) (hredis : c.redisAvailable = false) :
      ConnStep run env c .silent { c with phase := .drain .polling .highWater }
  /-- `_capture_signal_tail` after a poll. -/
  | recapture {c : Connection} (h : c.phase = .recapture) (available : Bool) :
      ConnStep run env c .silent
        { c with phase := if available then .drain .reattach .highWater else .loop }
  /-- `POSTGRES_RECONCILE_SECONDS` have passed. -/
  | reconcile {c : Connection} (h : c.phase = .loop) (hredis : c.redisAvailable) :
      ConnStep run env c .silent { c with phase := .drain .reconcile .highWater }
  /-- `xread` returns signals. -/
  | signals {c : Connection} (h : c.phase = .loop) (hredis : c.redisAvailable) (sawLive : Bool) :
      ConnStep run env c .silent { c with phase := .drain (.signals sawLive) .highWater }
  | signalsInvalid {c : Connection} (h : c.phase = .loop) (hredis : c.redisAvailable) :
      ConnStep run env c .silent { c with phase := .failed }
  | signalsLost {c : Connection} (h : c.phase = .loop) (hredis : c.redisAvailable) :
      ConnStep run env c .silent { c with redisAvailable := false }

/-- One step of the rest of the system. -/
inductive EnvStep : Env → StreamOp → Env → Prop
  | append {env : Env} {e : SessionEvent} (h : env.log.highWater < e.sequence) :
      EnvStep env (.append e) { env with log := env.log.append e h }
  | hide {env : Env} (eventIds : List String) :
      EnvStep env (.hide eventIds) { env with log := env.log.hide eventIds }
  | status {env : Env} (runFailed : Bool) : EnvStep env (.status runFailed) { env with runFailed }
  | redis {env : Env} (redis : Live.LiveRedis) : EnvStep env (.redis redis) { env with redis }

/-- A connection and what it reads. -/
structure StreamState where
  env : Env
  conn : Connection

/-- One step. -/
inductive StreamStep (run : AgentRunRef) : StreamState → StreamOp → StreamState → Prop
  | conn {σ : StreamState} {a : StreamOp} {c : Connection} (h : ConnStep run σ.env σ.conn a c) :
      StreamStep run σ a { σ with conn := c }
  | env {σ : StreamState} {a : StreamOp} {env : Env} (h : EnvStep σ.env a env) :
      StreamStep run σ a { σ with env }

/-! ### What a record changes -/

/-- What `commitRecord` does to the state, field by field. -/
structure Commits (s : TailState) (e : SessionEvent) (s' : TailState) : Prop where
  advance : s.sourceSequence < e.sequence
  sourceSequence : s'.sourceSequence = e.sequence
  sessionHighWater : s'.sessionHighWater = s.sessionHighWater
  terminal : s'.terminal = s.terminal
  checked : s'.checkedLiveIdentities = s.checkedLiveIdentities
  liveIdentity : s'.liveIdentity = s.liveIdentity
  liveRevision : s'.liveRevision = s.liveRevision
  barriers : ∀ t, s'.overlayBarriers t =
    if e.isBarrier ∧ e.hasTurn t then max (s.overlayBarriers t) e.sequence else s.overlayBarriers t
  mem_sealed : ∀ t m, (t, m) ∈ s'.sealedLiveIdentities ↔
    (t, m) ∈ s.sealedLiveIdentities ∨ (e.isAssistantMessage ∧ e.hasTurn t ∧ e.hasMessage m)

theorem nonEmptyText_eq_some {value : Option Json} {s : String} :
    nonEmptyText value = some s ↔ value = some (.str s) ∧ s ≠ "" := by
  unfold nonEmptyText
  rw [Option.filter_eq_some_iff, decide_eq_true_eq]
  refine and_congr_left fun _ ↦ ?_
  rcases value with _ | (_ | _ | _ | _ | _ | _) <;> simp [Json.asStr?]

theorem hasTurn_iff {e : SessionEvent} {turnId t : String}
    (h : e.payload.get? "turnId" = some (.str turnId)) : e.hasTurn t ↔ t = turnId := by
  rw [SessionEvent.hasTurn, decide_eq_true_eq, h, Option.some.injEq, Json.str.injEq]
  exact eq_comm

theorem hasMessage_iff {e : SessionEvent} {messageId m : String}
    (h : e.payload.pointer ["payload", "messageId"] = some (.str messageId)) :
    e.hasMessage m ↔ m = messageId := by
  rw [SessionEvent.hasMessage, decide_eq_true_eq, h, Option.some.injEq, Json.str.injEq]
  exact eq_comm

namespace TailState

theorem raiseBarrier_apply (s : TailState) (turnId t : String) (n : Nat) :
    (s.raiseBarrier turnId n).overlayBarriers t =
      if t = turnId then max (s.overlayBarriers t) n else s.overlayBarriers t := by
  unfold raiseBarrier
  by_cases ht : t = turnId
  · rw [if_pos ht, ht]
    exact Function.update_self ..
  · rw [if_neg ht]
    exact Function.update_of_ne ht ..

theorem advanceOverlayBarrier_eq_some {s s' : TailState} {e : SessionEvent}
    (h : s.advanceOverlayBarrier e = some s') :
    ∃ barriers : String → Nat, s' = { s with overlayBarriers := barriers } ∧
      ∀ t, barriers t = if e.isBarrier ∧ e.hasTurn t then max (s.overlayBarriers t) e.sequence
        else s.overlayBarriers t := by
  unfold advanceOverlayBarrier at h
  by_cases hb : e.isBarrier
  · rw [if_pos hb] at h
    obtain ⟨turnId, hturn, rfl⟩ := Option.map_eq_some_iff.1 h
    refine ⟨_, rfl, fun t ↦ (s.raiseBarrier_apply turnId t e.sequence).trans ?_⟩
    simp only [hb, hasTurn_iff (nonEmptyText_eq_some.1 hturn).1, true_and]
  · rw [if_neg hb] at h
    refine ⟨s.overlayBarriers, (Option.some.inj h).symm, fun t ↦ ?_⟩
    rw [if_neg fun hcond ↦ hb hcond.1]

theorem sealIdentity_eq_some {s s' : TailState} {e : SessionEvent}
    (h : s.sealIdentity e = some s') :
    ∃ identities, s' = { s with sealedLiveIdentities := identities } ∧
      ∀ t m, (t, m) ∈ identities ↔ (t, m) ∈ s.sealedLiveIdentities ∨
        (e.isAssistantMessage ∧ e.hasTurn t ∧ e.hasMessage m) := by
  unfold sealIdentity at h
  by_cases ha : e.isAssistantMessage
  · rw [if_pos ha] at h
    obtain ⟨turnId, hturn, h⟩ := Option.bind_eq_some_iff.1 h
    obtain ⟨messageId, hmessage, h⟩ := Option.bind_eq_some_iff.1 h
    refine ⟨_, (Option.some.inj h).symm, fun t m ↦ ?_⟩
    rw [hasTurn_iff (nonEmptyText_eq_some.1 hturn).1,
      hasMessage_iff (nonEmptyText_eq_some.1 hmessage).1, List.mem_cons, Prod.mk.injEq]
    simp only [ha, true_and]
    exact or_comm
  · rw [if_neg ha] at h
    refine ⟨s.sealedLiveIdentities, (Option.some.inj h).symm, fun t m ↦ ?_⟩
    simp [ha]

theorem commitRecord_commits {run : AgentRunRef} {s s' : TailState} {e : SessionEvent}
    (h : s.commitRecord run e = some s') : Commits s e s' := by
  obtain ⟨-, h⟩ := guard_bind.1 h
  obtain ⟨hadvance, h⟩ := guard_bind.1 h
  obtain ⟨s₁, h₁, h⟩ := Option.bind_eq_some_iff.1 h
  obtain ⟨barriers, rfl, hbarriers⟩ := advanceOverlayBarrier_eq_some h₁
  obtain ⟨identities, rfl, hidentities⟩ := sealIdentity_eq_some h
  exact ⟨hadvance, rfl, rfl, rfl, rfl, rfl, rfl, hbarriers, hidentities⟩

end TailState

/-! ### The steps by what they do -/

/-- Phases without a page in hand and without a live candidate. -/
def Phase.Idle : Phase → Prop
  | .drain (.candidate _) _ => False
  | .drain _ .highWater => True
  | .drain _ _ | .candidate _ _ => False
  | _ => True

/-- The live state that the connection has in hand. -/
def Phase.candidate? : Phase → Option LiveOverlay
  | .candidate o _ | .drain (.candidate o) _ => some o
  | _ => none

/-- A step of a connection: one of the two functions, a live state that was loaded, or a step of the
loop that only moves on. -/
inductive MainStep (run : AgentRunRef) (env : Env) (c : Connection) : StreamOp → Connection → Prop
  | drain {resume : Resume} {point : DrainPoint} (h : c.phase = .drain resume point) :
      MainStep run env c (c.drainStep run env resume point).2 (c.drainStep run env resume point).1
  | candidate {o : LiveOverlay} {point : CandidatePoint} (h : c.phase = .candidate o point) :
      MainStep run env c (c.candidateStep run env o point).2 (c.candidateStep run env o point).1
  | loaded {o : LiveOverlay} {c' : Connection} (hload : c.phase = .load)
      (hlive : liveState env.redis = .ok (some o)) (htail : c'.tail = c.tail)
      (hphase : c'.phase = .candidate o .position) :
      MainStep run env c .silent c'
  | idle {c' : Connection} (htail : c'.tail = c.tail) (hphase : c'.phase.Idle)
      (hfrom : c.phase ≠ .ended ∧ c.phase.candidate? = none) : MainStep run env c .silent c'

theorem connStep_main {run : AgentRunRef} {env : Env} {c c' : Connection} {a : StreamOp}
    (h : ConnStep run env c a c') : MainStep run env c a c' := by
  cases h with
  | start h statusEnded => exact .idle rfl (by cases statusEnded <;> trivial) (h ▸ ⟨nofun, rfl⟩)
  | capture h available => exact .idle rfl trivial (h ▸ ⟨nofun, rfl⟩)
  | drain h => exact .drain h
  | candidate h => exact .candidate h
  | @load o h hlive =>
    cases o with
    | none => exact .idle rfl trivial (h ▸ ⟨nofun, rfl⟩)
    | some o => exact .loaded h hlive rfl rfl
  | loadInvalid h hlive => exact .idle rfl trivial (h ▸ ⟨nofun, rfl⟩)
  | loadLost h => exact .idle rfl trivial (h ▸ ⟨nofun, rfl⟩)
  | poll h hredis => exact .idle rfl trivial (h ▸ ⟨nofun, rfl⟩)
  | recapture h available => exact .idle rfl (by cases available <;> trivial) (h ▸ ⟨nofun, rfl⟩)
  | reconcile h hredis => exact .idle rfl trivial (h ▸ ⟨nofun, rfl⟩)
  | signals h hredis sawLive => exact .idle rfl trivial (h ▸ ⟨nofun, rfl⟩)
  | signalsInvalid h hredis => exact .idle rfl trivial (h ▸ ⟨nofun, rfl⟩)
  | signalsLost h hredis =>
    refine .idle rfl ?_ (h ▸ ⟨nofun, rfl⟩)
    show c.phase.Idle
    rw [h]
    trivial

/-! ### A connection that Redis serves at once -/

/-- The next step of a connection when Redis answers and has a live signal. -/
def Connection.prompt (run : AgentRunRef) (env : Env) (c : Connection) :
    Option (Connection × StreamOp) :=
  match c.phase with
  | .start => some ({ c with phase := .capture }, .silent)
  | .capture => some ({ c with redisAvailable := true, phase := .drain .first .highWater }, .silent)
  | .drain resume point => some (c.drainStep run env resume point)
  | .candidate o point => some (c.candidateStep run env o point)
  | .load =>
    match liveState env.redis with
    | .ok o => some ({ c with redisAvailable := true,
                              phase := o.elim .loop fun o ↦ .candidate o .position }, .silent)
    | .error _ => some ({ c with phase := .failed }, .silent)
  | .loop =>
    if c.redisAvailable then some ({ c with phase := .drain (.signals true) .highWater }, .silent)
    else none
  | .recapture | .ended | .failed => none

/-- The next `n` steps, with their labels. -/
def Connection.prompts (run : AgentRunRef) (env : Env) : Nat → Connection → Connection × List StreamOp
  | 0, c => (c, [])
  | n + 1, c =>
    match c.prompt run env with
    | none => (c, [])
    | some (c, a) => ((c.prompts run env n).1, a :: (c.prompts run env n).2)

theorem connStep_of_prompt {run : AgentRunRef} {env : Env} {c c' : Connection} {a : StreamOp}
    (h : c.prompt run env = some (c', a)) : ConnStep run env c a c' := by
  unfold Connection.prompt at h
  split at h
  · rename_i hphase
    cases h
    exact .start hphase false
  · rename_i hphase
    cases h
    exact .capture hphase true
  · rename_i hphase
    rw [← (Prod.mk.inj (Option.some.inj h)).1, ← (Prod.mk.inj (Option.some.inj h)).2]
    exact .drain hphase
  · rename_i hphase
    rw [← (Prod.mk.inj (Option.some.inj h)).1, ← (Prod.mk.inj (Option.some.inj h)).2]
    exact .candidate hphase
  · rename_i hphase
    split at h
    · rename_i hlive
      cases h
      exact .load hphase hlive
    · rename_i hlive
      cases h
      exact .loadInvalid hphase hlive
  · rename_i hphase
    split at h
    · rename_i hredis
      cases h
      exact .signals hphase hredis true
    · cases h
  · cases h
  · cases h
  · cases h

theorem run_prompts (run : AgentRunRef) (env : Env)
    {step : StreamState → StreamOp → StreamState → Prop}
    (hstep : ∀ c a c', ConnStep run env c a c' → step ⟨env, c⟩ a ⟨env, c'⟩) (n : Nat)
    (c : Connection) :
    Run step ⟨env, c⟩ (c.prompts run env n).2 ⟨env, (c.prompts run env n).1⟩ := by
  induction n generalizing c with
  | zero => exact .nil
  | succ n ih =>
    unfold Connection.prompts
    split
    · exact .nil
    · rename_i c' a h
      exact (Run.single (hstep c a c' (connStep_of_prompt h))).trans (ih c')

/-- The run of the tests. -/
def sampleRun : AgentRunRef := ⟨"r", "s"⟩

/-- A record of the run, on the stream. -/
def sampleEvent (eventId : String) (sequence : Nat) (type : String) (fields : List (String × Json)) :
    SessionEvent :=
  ⟨eventId, sequence, "r", true, .obj ([("sequence", .ofInt sequence), ("eventId", .str eventId),
    ("sessionId", .str "s"), ("agentRunId", .str "r"), ("type", .str type)] ++ fields)⟩

end Centaeris.Stream
