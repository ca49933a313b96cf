import Centaeris.Base.Json
import Centaeris.Base.Machine
import Centaeris.Relational.Sequenced

/-!
# The session log as the stream reads it

The rows of one session, the queries of `agent_run_stream.py` on them, and the cursor that a client
sends back as `Last-Event-ID`.

Rows are kept in the order of their sequences. Appends hold the lock of the session head, so rows
become visible in that order. A row is never deleted; a rewrite may take it off the stream.
-/

namespace Centaeris.Stream

/-! ### Rows -/

/-- A row of `app_core_sessionevent`. -/
structure SessionEvent where
  eventId : String
  sequence : Nat
  agentRunId : String
  /-- `projects_to_agent_run_stream`. -/
  projects : Bool
  payload : Json
  deriving DecidableEq

/-- The run whose stream is read. -/
structure AgentRunRef where
  id : String
  sessionId : String
  deriving DecidableEq

/-- `TERMINAL_EVENT_TYPES`. -/
def terminalEventTypes : List String :=
  ["agent_run_completed", "agent_run_failed", "agent_run_interrupted"]

/-- `OVERLAY_BARRIER_EVENT_TYPES`. -/
def overlayBarrierEventTypes : List String := ["phase_event", "assistant_message"]

/-- `POSTGRES_BATCH_SIZE`. -/
def postgresBatchSize : Nat := 100

namespace SessionEvent

/-- `payload.type` is one of the types. -/
def hasType (e : SessionEvent) (types : List String) : Bool :=
  types.any fun t ↦ decide (e.payload.get? "type" = some (.str t))

/-- The event ends its run. -/
def isTerminal (e : SessionEvent) : Bool := e.hasType terminalEventTypes

/-- The event is a barrier for live text. -/
def isBarrier (e : SessionEvent) : Bool := e.hasType overlayBarrierEventTypes

/-- The event is the message that live text becomes. -/
def isAssistantMessage (e : SessionEvent) : Bool := e.hasType ["assistant_message"]

/-- `payload.turnId` is the text. -/
def hasTurn (e : SessionEvent) (turnId : String) : Bool :=
  decide (e.payload.get? "turnId" = some (.str turnId))

/-- `payload.payload.messageId` is the text. -/
def hasMessage (e : SessionEvent) (messageId : String) : Bool :=
  decide (e.payload.pointer ["payload", "messageId"] = some (.str messageId))

/-- The event is on the stream of the run. -/
def isOn (run : AgentRunRef) (e : SessionEvent) : Bool :=
  decide (e.agentRunId = run.id) && e.projects

end SessionEvent

/-- The rows of the session, in the order of their sequences. -/
structure EventLog where
  rows : List SessionEvent
  increasing : Sequenced.Increasing SessionEvent.sequence rows
  deriving DecidableEq

namespace EventLog

/-- `load_session_high_water`. -/
def highWater (log : EventLog) : Nat := Sequenced.position SessionEvent.sequence log.rows 0

/-- The rows on the stream of a run. -/
def streamRows (log : EventLog) (run : AgentRunRef) : List SessionEvent :=
  log.rows.filter (SessionEvent.isOn run)

/-- The rows on the stream of a run after a sequence. -/
def rowsAfter (log : EventLog) (run : AgentRunRef) (n : Nat) : List SessionEvent :=
  Sequenced.after SessionEvent.sequence (log.streamRows run) n

/-- The records of `_load_postgres_page`. -/
def page (log : EventLog) (run : AgentRunRef) (n : Nat) : List SessionEvent :=
  (log.rowsAfter run n).take postgresBatchSize

/-- The first query of `_load_terminal_sequence`. -/
def terminalSequence (log : EventLog) (run : AgentRunRef) : Option Nat :=
  ((log.streamRows run).find? SessionEvent.isTerminal).map SessionEvent.sequence

/-- The last query of `_load_terminal_sequence`: the run has a user message. -/
def hasUserMessage (log : EventLog) (run : AgentRunRef) : Bool :=
  log.rows.any fun e ↦ decide (e.agentRunId = run.id) && e.hasType ["user_message"]

/-- The barrier of `_load_committed_overlay_projection`. -/
def barrier (log : EventLog) (run : AgentRunRef) (turnId : String) : Nat :=
  Sequenced.position SessionEvent.sequence
    ((log.streamRows run).filter fun e ↦ e.hasTurn turnId && e.isBarrier) 0

/-- The rows that close a message, from `_load_committed_overlay_projection`. -/
def sealedRows (log : EventLog) (run : AgentRunRef) (messageId : String) : List SessionEvent :=
  ((log.streamRows run).filter fun e ↦ e.isAssistantMessage && e.hasMessage messageId).take 2

theorem increasing_streamRows (log : EventLog) (run : AgentRunRef) :
    Sequenced.Increasing SessionEvent.sequence (log.streamRows run) :=
  log.increasing.sublist List.filter_sublist

theorem le_highWater {log : EventLog} {e : SessionEvent} (h : e ∈ log.rows) :
    e.sequence ≤ log.highWater := Sequenced.le_position log.increasing h

theorem mem_streamRows {log : EventLog} {run : AgentRunRef} {e : SessionEvent} :
    e ∈ log.streamRows run ↔ e ∈ log.rows ∧ e.isOn run := List.mem_filter

/-- The barrier is at or after every barrier event of the turn. -/
theorem le_barrier {log : EventLog} {run : AgentRunRef} {turnId : String} {e : SessionEvent}
    (he : e ∈ log.streamRows run) (hturn : e.hasTurn turnId) (hbarrier : e.isBarrier) :
    e.sequence ≤ log.barrier run turnId := by
  refine Sequenced.le_position ((log.increasing_streamRows run).sublist List.filter_sublist) ?_
  exact List.mem_filter.2 ⟨he, by rw [hturn, hbarrier]; rfl⟩

/-- The barrier is a barrier event of the turn, unless there is none. -/
theorem barrier_mem {log : EventLog} {run : AgentRunRef} {turnId : String}
    (h : log.barrier run turnId ≠ 0) : ∃ e ∈ log.streamRows run, e.hasTurn turnId ∧ e.isBarrier ∧
      e.sequence = log.barrier run turnId := by
  have hne : ((log.streamRows run).filter fun e ↦ e.hasTurn turnId && e.isBarrier) ≠ [] := by
    intro hnil
    rw [barrier, hnil] at h
    exact h rfl
  obtain ⟨e, he, hseq⟩ : ∃ e ∈ (log.streamRows run).filter fun e ↦ e.hasTurn turnId && e.isBarrier,
      e.sequence = log.barrier run turnId := Sequenced.position_mem hne
  obtain ⟨hmem, hcond⟩ := List.mem_filter.1 he
  rw [Bool.and_eq_true] at hcond
  exact ⟨e, hmem, hcond.1, hcond.2, hseq⟩

theorem not_hasMessage_of_sealedRows_eq_nil {log : EventLog} {run : AgentRunRef} {messageId : String}
    (h : log.sealedRows run messageId = []) {e : SessionEvent} (he : e ∈ log.streamRows run)
    (hassistant : e.isAssistantMessage) : ¬ e.hasMessage messageId := by
  intro hmessage
  have hnone : ((log.streamRows run).filter fun e ↦ e.isAssistantMessage && e.hasMessage messageId) = [] :=
    (List.take_eq_nil_iff.1 h).resolve_left (by decide)
  exact List.filter_eq_nil_iff.1 hnone e he (by rw [hassistant, hmessage]; rfl)

theorem mem_sealedRows {log : EventLog} {run : AgentRunRef} {messageId : String} {e : SessionEvent}
    (h : e ∈ log.sealedRows run messageId) :
    e ∈ log.streamRows run ∧ e.isAssistantMessage ∧ e.hasMessage messageId := by
  obtain ⟨hmem, hcond⟩ := List.mem_filter.1 (List.mem_of_mem_take h)
  exact ⟨hmem, Bool.and_eq_true_iff.1 hcond⟩

/-- `append`: a new row at the end. -/
def append (log : EventLog) (e : SessionEvent) (h : log.highWater < e.sequence) : EventLog where
  rows := log.rows ++ [e]
  increasing := by
    refine List.pairwise_append.2 ⟨log.increasing, List.pairwise_singleton _ _, fun r hr e' he' ↦ ?_⟩
    rw [List.mem_singleton.1 he']
    exact lt_of_le_of_lt (le_highWater hr) h

/-- A rewrite takes rows off the stream. -/
def hide (log : EventLog) (eventIds : List String) : EventLog where
  rows := log.rows.map fun e ↦ if e.eventId ∈ eventIds then { e with projects := false } else e
  increasing := by
    refine List.pairwise_map.2 (log.increasing.imp fun {r r'} h ↦ ?_)
    split <;> split <;> exact h

/-! ### The log changes -/

theorem streamRows_append (log : EventLog) (run : AgentRunRef) {e : SessionEvent}
    (h : log.highWater < e.sequence) :
    (log.append e h).streamRows run = log.streamRows run ++ [e].filter (SessionEvent.isOn run) :=
  List.filter_append ..

@[simp] theorem highWater_append (log : EventLog) {e : SessionEvent}
    (h : log.highWater < e.sequence) : (log.append e h).highWater = e.sequence :=
  Sequenced.position_concat log.rows e 0

@[simp] theorem highWater_hide (log : EventLog) (eventIds : List String) :
    (log.hide eventIds).highWater = log.highWater := by
  unfold highWater Sequenced.position hide
  rw [List.getLast?_map, Option.map_map]
  congr 2
  funext e
  show SessionEvent.sequence (if _ then _ else _) = e.sequence
  split <;> rfl

/-- A row that is on the stream after a rewrite was on it before. -/
theorem mem_of_mem_streamRows_hide {log : EventLog} {run : AgentRunRef} {eventIds : List String}
    {e : SessionEvent} (h : e ∈ (log.hide eventIds).streamRows run) : e ∈ log.streamRows run := by
  obtain ⟨hrow, hon⟩ := mem_streamRows.1 h
  obtain ⟨r, hr, rfl⟩ := List.mem_map.1 hrow
  split at hon
  · simp [SessionEvent.isOn] at hon
  · rename_i hkeep
    rw [if_neg hkeep]
    exact mem_streamRows.2 ⟨hr, hon⟩

/-- A rewrite that takes no row of the run off the stream leaves the stream as it is. -/
theorem streamRows_hide {log : EventLog} {run : AgentRunRef} {eventIds : List String}
    (h : ∀ e ∈ log.streamRows run, e.eventId ∉ eventIds) :
    (log.hide eventIds).streamRows run = log.streamRows run := by
  unfold streamRows hide
  rw [List.filter_map]
  have hfilter : log.rows.filter (SessionEvent.isOn run ∘ fun e ↦
      if e.eventId ∈ eventIds then { e with projects := false } else e) = log.streamRows run := by
    refine List.filter_congr fun e he ↦ ?_
    by_cases hid : e.eventId ∈ eventIds
    · -- a hidden row was not on the stream
      have hoff : SessionEvent.isOn run e = false := by
        refine Bool.eq_false_iff.2 fun hon ↦ h e (mem_streamRows.2 ⟨he, hon⟩) hid
      rw [hoff]
      simp [SessionEvent.isOn, hid]
    · simp [hid]
  rw [hfilter]
  refine (List.map_congr_left fun e he ↦ if_neg (h e he)).trans (List.map_id' _)

/-- `_load_terminal_sequence` finds the first record that ends the run. -/
theorem terminalSequence_le {log : EventLog} {run : AgentRunRef} {e : SessionEvent}
    (he : e ∈ log.streamRows run) (hterminal : e.isTerminal) :
    ∃ n, log.terminalSequence run = some n ∧ n ≤ e.sequence := by
  obtain ⟨first, hfirst⟩ : ∃ first, (log.streamRows run).find? SessionEvent.isTerminal = some first :=
    Option.isSome_iff_exists.1 (List.find?_isSome.2 ⟨e, he, hterminal⟩)
  refine ⟨first.sequence, by rw [terminalSequence, hfirst, Option.map_some], ?_⟩
  obtain ⟨-, before, rest, hsplit, hbefore⟩ := List.find?_eq_some_iff_append.1 hfirst
  have hinc := log.increasing_streamRows run
  rw [hsplit] at he hinc
  rcases List.mem_append.1 he with he | he
  · exact absurd hterminal (by simpa using hbefore e he)
  · rcases List.mem_cons.1 he with rfl | he
    · exact le_refl _
    · exact ((List.pairwise_cons.1 (List.pairwise_append.1 hinc).2.1).1 e he).le

end EventLog

/-! ### Cursors -/

/-- What the cursor uses of the libraries: JSON text in URL-safe base64 without padding. -/
structure CursorCodec where
  dumps : Json → String
  loads : String → Option Json

/-- `CURSOR_SCHEMA`. -/
def cursorSchema : String := "session.stream.cursor.v1"

/-- `CURSOR_PREFIX`. -/
def cursorPrefix : List Char := ['v', '1', '.']

/-- `CURSOR_MAX_LENGTH`. -/
def cursorMaxLength : Nat := 512

/-- A character of `CURSOR_PAYLOAD`. -/
def isPayloadChar (c : Char) : Bool := c.isAlphanum || c == '_' || c == '-'

/-- The payload of a cursor, with its keys sorted. -/
def cursorPayload (agentRunId : String) (sourceSequence : Nat) : Json :=
  .obj [("agentRunId", .str agentRunId), ("schema", .str cursorSchema),
    ("sourceSequence", .ofInt sourceSequence)]

/-- A cursor that was written can be read. -/
def CursorCodec.Sound (codec : CursorCodec) : Prop :=
  ∀ agentRunId sourceSequence, codec.loads (codec.dumps (cursorPayload agentRunId sourceSequence)) =
    some (cursorPayload agentRunId sourceSequence)

/-- `encode_stream_cursor`. -/
def encodeStreamCursor (codec : CursorCodec) (agentRunId : String) (sourceSequence : Nat) : String :=
  if sourceSequence = 0 then "0-0"
  else String.ofList (cursorPrefix ++ (codec.dumps (cursorPayload agentRunId sourceSequence)).toList)

/-- The source sequence of a decoded cursor. -/
def cursorSequence (agentRunId : String) (payload : Json) : Option Nat := do
  let fields ← payload.asObject?
  guard (Json.Fields.keysAre fields ["schema", "agentRunId", "sourceSequence"])
  guard (Json.Fields.get? fields "schema" = some (.str cursorSchema))
  guard (Json.Fields.get? fields "agentRunId" = some (.str agentRunId))
  let sequence ← (Json.Fields.get? fields "sourceSequence").bind Json.asU64?
  guard (sequence ≠ 0)
  return sequence

/-- `parse_last_event_cursor`; `none` stands for `last_event_id_invalid`. -/
def parseLastEventCursor (codec : CursorCodec) (value agentRunId : String) : Option Nat :=
  if value = "" ∨ value = "0-0" then some 0
  else do
    let encoded := value.toList.drop cursorPrefix.length
    guard (value.length ≤ cursorMaxLength ∧ cursorPrefix.isPrefixOf value.toList ∧
      encoded ≠ [] ∧ encoded.all isPayloadChar)
    let payload ← codec.loads (String.ofList encoded)
    let sequence ← cursorSequence agentRunId payload
    guard (encodeStreamCursor codec agentRunId sequence = value)
    return sequence

theorem guard_bind {p : Prop} [Decidable p] {α : Type} {f : Unit → Option α} {a : α} :
    (guard p >>= f) = some a ↔ p ∧ f () = some a := by
  by_cases hp : p <;> simp [guard, hp]

theorem cursorSequence_ne_zero {agentRunId : String} {payload : Json} {n : Nat}
    (h : cursorSequence agentRunId payload = some n) : n ≠ 0 := by
  obtain ⟨fields, -, h⟩ := Option.bind_eq_some_iff.1 h
  obtain ⟨-, h⟩ := guard_bind.1 h
  obtain ⟨-, h⟩ := guard_bind.1 h
  obtain ⟨-, h⟩ := guard_bind.1 h
  obtain ⟨sequence, -, h⟩ := Option.bind_eq_some_iff.1 h
  obtain ⟨hne, h⟩ := guard_bind.1 h
  exact Option.some.inj h ▸ hne

/-- A cursor of a position after the start. -/
theorem encodeStreamCursor_pos (codec : CursorCodec) (agentRunId : String) {n : Nat} (hn : n ≠ 0) :
    (encodeStreamCursor codec agentRunId n).toList =
      cursorPrefix ++ (codec.dumps (cursorPayload agentRunId n)).toList := by
  rw [encodeStreamCursor, if_neg hn, String.toList_ofList]

/-- A cursor of a position after the start is not that of the start. -/
theorem encodeStreamCursor_ne (codec : CursorCodec) (agentRunId : String) {n : Nat} (hn : n ≠ 0) :
    encodeStreamCursor codec agentRunId n ≠ "" ∧ encodeStreamCursor codec agentRunId n ≠ "0-0" := by
  have hlist := encodeStreamCursor_pos codec agentRunId hn
  constructor
  · intro h
    rw [h] at hlist
    cases hlist
  · intro h
    rw [h] at hlist
    have hhead : '0' = 'v' := (List.cons.inj hlist).1
    exact absurd hhead (by decide)

/-- A cursor of a position after the start has one run and one position. -/
theorem encodeStreamCursor_inj {codec : CursorCodec} (hcodec : codec.Sound) {agentRunId agentRunId' : String}
    {m n : Nat} (hm : m ≠ 0) (hn : n ≠ 0)
    (h : encodeStreamCursor codec agentRunId m = encodeStreamCursor codec agentRunId' n) :
    agentRunId = agentRunId' ∧ m = n := by
  have hlist := congrArg String.toList h
  rw [encodeStreamCursor_pos codec agentRunId hm, encodeStreamCursor_pos codec agentRunId' hn] at hlist
  have htext := String.toList_inj.1 (List.append_cancel_left hlist)
  have hjson := Option.some.inj
    ((hcodec _ _).symm.trans ((congrArg codec.loads htext).trans (hcodec _ _)))
  obtain ⟨hrun, hcast⟩ : agentRunId = agentRunId' ∧ (m : Int) = n := by
    simpa [cursorPayload, Json.ofInt] using hjson
  exact ⟨hrun, by exact_mod_cast hcast⟩

/-- **A cursor that is accepted is the position it was made from.** -/
theorem parseLastEventCursor_encode {codec : CursorCodec} (hcodec : codec.Sound)
    {agentRunId : String} {m n : Nat}
    (h : parseLastEventCursor codec (encodeStreamCursor codec agentRunId m) agentRunId = some n) :
    n = m := by
  unfold parseLastEventCursor at h
  by_cases hm : m = 0
  · rw [if_pos (.inr (by rw [encodeStreamCursor, if_pos hm]))] at h
    rw [hm, ← Option.some.inj h]
  · obtain ⟨hempty, hzero⟩ := encodeStreamCursor_ne codec agentRunId hm
    rw [if_neg (by rw [not_or]; exact ⟨hempty, hzero⟩)] at h
    obtain ⟨-, h⟩ := guard_bind.1 h
    obtain ⟨payload, -, h⟩ := Option.bind_eq_some_iff.1 h
    obtain ⟨sequence, hsequence, h⟩ := Option.bind_eq_some_iff.1 h
    obtain ⟨hvalue, h⟩ := guard_bind.1 h
    obtain rfl : sequence = n := Option.some.inj h
    exact (encodeStreamCursor_inj hcodec (cursorSequence_ne_zero hsequence) hm hvalue).2

end Centaeris.Stream
