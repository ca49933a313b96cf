import Centaeris.Stream.Tail

/-!
# Committed records reach the client once, in order

A client watches one run. It receives the items of its connection in the order in which they were
sent; a connection can be lost at any moment, with everything that was sent and not received. The
client then connects again with the last SSE id it has received.

Nothing is rewritten while it watches (`Unrewritten`). Then, over any schedule and any number of
connections,

* the records received are a beginning of the records of the run after the first cursor;
* a stream that ends at the record that ends the run has delivered all records up to it;
* after that record, nothing is received on the same connection, and no live text on a later one.

The proof reads one thing off each step of a connection: the page in hand is sent in order, and a
page is asked for at the place where the last one ended (`connStep_delivery`).
-/

namespace Centaeris.Stream

/-! ### One connection -/

/-- The records of the page in hand that are still to be sent. -/
def Connection.pending (c : Connection) : List SessionEvent :=
  match c.phase with
  | .drain _ (.items _ rest) => rest
  | _ => []

/-- What a connection is about to do with committed records. -/
inductive Delivers (run : AgentRunRef) (log : EventLog) (c : Connection) :
    StreamOp → Connection → Prop
  /-- The next record of the page is sent. The connection ends at a terminal record. -/
  | send {e : SessionEvent} {rest : List SessionEvent} {c' : Connection}
      (hpending : c.pending = e :: rest) (hrest : c'.pending <+: rest)
      (hsource : c'.tail.sourceSequence = e.sequence) (hended : e.isTerminal → c'.phase = .ended) :
      Delivers run log c (.committed e) c'
  /-- No record is sent. A page that is loaded begins after the last record sent. -/
  | keep {a : StreamOp} {c' : Connection} (ha : ∀ e, a ≠ .committed e)
      (hpending : c'.pending <+: log.rowsAfter run c.tail.sourceSequence)
      (hsource : c'.tail.sourceSequence = c.tail.sourceSequence) : Delivers run log c a c'

section Delivers

variable {run : AgentRunRef} {env : Env} {c c' : Connection} {a : StreamOp}

/-- A step that neither sends a record nor takes up a page. -/
theorem Delivers.idle {log : EventLog} (ha : ∀ e, a ≠ .committed e) (hpending : c'.pending = [])
    (hsource : c'.tail.sourceSequence = c.tail.sourceSequence) : Delivers run log c a c' :=
  .keep ha (hpending ▸ List.nil_prefix) hsource

theorem pending_drained (c : Connection) (resume : Resume) : (c.drained resume).pending = [] := by
  unfold Connection.drained Connection.pending
  cases resume <;> cases c.tail.terminal <;> cases c.redisAvailable <;> first | rfl | skip
  all_goals rename_i sawLive
  all_goals cases sawLive <;> rfl

theorem pending_leave (c : Connection) : c.leave.pending = [] := by
  unfold Connection.leave Connection.pending
  cases c.tail.terminal <;> rfl

theorem pending_of_idle (h : c.phase.Idle) : c.pending = [] := by
  unfold Connection.pending
  split
  · rename_i resume full rest hphase
    rw [hphase] at h
    cases resume <;> exact h.elim
  · rfl

/-- A live candidate that is offered: sent, or dropped. -/
theorem offer_delivers {log : EventLog} {c₀ : Connection} {o : LiveOverlay}
    (h : c.tail.sourceSequence = c₀.tail.sourceSequence) :
    Delivers run log c₀ (c.offer o).2 (c.offer o).1 := by
  unfold Connection.offer
  split
  · exact .idle (fun _ ↦ nofun) (pending_leave _) h
  · exact .idle (fun _ ↦ nofun) (pending_leave _) h

theorem screen_delivers (log : EventLog) (c : Connection) (o : LiveOverlay) :
    Delivers run log c (c.screen o).2 (c.screen o).1 := by
  unfold Connection.screen
  split
  · exact .idle (fun _ ↦ nofun) (pending_leave _) rfl
  split
  · exact .idle (fun _ ↦ nofun) (pending_leave _) rfl
  split
  · exact offer_delivers rfl
  · exact .idle (fun _ ↦ nofun) rfl rfl

theorem candidateStep_delivers (c : Connection) (o : LiveOverlay) (point : CandidatePoint) :
    Delivers run env.log c (c.candidateStep run env o point).2 (c.candidateStep run env o point).1 := by
  cases point with
  | position =>
    dsimp only [Connection.candidateStep]
    split
    · exact .idle (fun _ ↦ nofun) rfl rfl
    · exact screen_delivers env.log c o
  | recheck =>
    dsimp only [Connection.candidateStep]
    split
    · exact .idle (fun _ ↦ nofun) rfl rfl
    · exact screen_delivers env.log c o
  | barrier => exact .idle (fun _ ↦ nofun) rfl rfl
  | sealedRows barrier =>
    dsimp only [Connection.candidateStep, Connection.checkCommitted]
    split
    · exact .idle (fun _ ↦ nofun) rfl rfl
    split
    · exact .idle (fun _ ↦ nofun) (pending_leave _) rfl
    split
    · exact .idle (fun _ ↦ nofun) (pending_leave _) rfl
    · exact offer_delivers rfl

theorem drainStep_delivers {resume : Resume} {point : DrainPoint}
    (h : c.phase = .drain resume point) :
    Delivers run env.log c (c.drainStep run env resume point).2
      (c.drainStep run env resume point).1 := by
  cases point with
  | highWater => exact .idle (fun _ ↦ nofun) rfl rfl
  | records highWater => exact .keep (fun _ ↦ nofun) (List.take_prefix _ _) rfl
  | items full rest =>
    cases rest with
    | nil => exact .idle (fun _ ↦ nofun) (by cases full <;> rfl) rfl
    | cons e rest =>
      have hpending : c.pending = e :: rest := by rw [Connection.pending, h]
      dsimp only [Connection.drainStep]
      cases hcommit : c.tail.commitRecord run e with
      | none => exact .idle (fun _ ↦ nofun) rfl rfl
      | some tail =>
        have hsource := (TailState.commitRecord_commits hcommit).sourceSequence
        dsimp only
        split
        · refine .send hpending ?_ hsource fun _ ↦ ?_
          · exact (pending_drained _ resume).symm ▸ List.nil_prefix
          · cases resume <;> rfl
        · rename_i hterminal
          exact .send hpending List.prefix_rfl hsource fun ht ↦ absurd ht hterminal
  | terminalSequence =>
    dsimp only [Connection.drainStep]
    split
    · exact .idle (fun _ ↦ nofun) (pending_drained _ resume) rfl
    · exact .idle (fun _ ↦ nofun) rfl rfl
  | terminalStatus =>
    dsimp only [Connection.drainStep]
    split
    · exact .idle (fun _ ↦ nofun) rfl rfl
    · exact .idle (fun _ ↦ nofun) (pending_drained _ resume) rfl
  | terminalMessage => exact .idle (fun _ ↦ nofun) (pending_drained _ resume) rfl

/-- **A connection sends its page in order and asks for the next one where it ended.** -/
theorem connStep_delivery (h : ConnStep run env c a c') : Delivers run env.log c a c' := by
  cases connStep_main h with
  | drain hphase => exact drainStep_delivers hphase
  | candidate => exact candidateStep_delivers _ _ _
  | loaded _ _ htail hphase =>
    exact .idle (fun _ ↦ nofun) (by rw [Connection.pending, hphase]) (by rw [htail])
  | idle htail hphase =>
    exact .idle (fun _ ↦ nofun) (pending_of_idle hphase) (by rw [htail])

/-- A connection that has ended takes no step. -/
theorem not_connStep_of_ended (hended : c.phase = .ended) : ¬ ConnStep run env c a c' := by
  intro h
  cases h <;> simp_all

end Delivers

/-! ### A client -/

/-- What a client receives. -/
inductive Item
  | committed (e : SessionEvent)
  | live (overlay : LiveOverlay)
  deriving DecidableEq

/-- The item that a step sends. -/
def StreamOp.item? : StreamOp → Option Item
  | .committed e => some (.committed e)
  | .live o => some (.live o)
  | _ => none

/-- The record of an item. -/
def Item.record? : Item → Option SessionEvent
  | .committed e => some e
  | .live _ => none

/-- The SSE id of an item. `_encode_sse` gives live items none. -/
def Item.eventId? (codec : CursorCodec) (run : AgentRunRef) : Item → Option String
  | .committed e => some (encodeStreamCursor codec run.id e.sequence)
  | .live _ => none

/-- A client and its connection. -/
structure WatchState where
  env : Env
  conn : Connection
  /-- Sent, and not received yet. -/
  inFlight : List Item
  /-- The last SSE id that the client has. -/
  lastEventId : String

/-- A client that has just connected. -/
def WatchState.connect (env : Env) (lastEventId : String) (sourceSequence : Nat) : WatchState :=
  ⟨env, .connect sourceSequence, [], lastEventId⟩

/-- What can happen next. -/
inductive WatchOp
  | stream (a : StreamOp)
  | receive (i : Item)
  | reconnect

/-- One step. -/
inductive WatchStep (codec : CursorCodec) (run : AgentRunRef) :
    WatchState → WatchOp → WatchState → Prop
  | conn {σ : WatchState} {a : StreamOp} {c : Connection} (h : ConnStep run σ.env σ.conn a c) :
      WatchStep codec run σ (.stream a)
        { σ with conn := c, inFlight := σ.inFlight ++ a.item?.toList }
  | env {σ : WatchState} {a : StreamOp} {env : Env} (h : EnvStep σ.env a env) :
      WatchStep codec run σ (.stream a) { σ with env }
  | receive {σ : WatchState} {i : Item} {rest : List Item} (h : σ.inFlight = i :: rest) :
      WatchStep codec run σ (.receive i)
        { σ with inFlight := rest, lastEventId := (i.eventId? codec run).getD σ.lastEventId }
  /-- The connection is lost. The client connects with its last id; the view checks the cursor
  (`require_cursor_not_future`). -/
  | reconnect {σ : WatchState} {n : Nat}
      (hcursor : parseLastEventCursor codec σ.lastEventId run.id = some n)
      (hfuture : n ≤ σ.env.log.highWater) :
      WatchStep codec run σ .reconnect (.connect σ.env σ.lastEventId n)

/-- The step takes no record of the run off the stream. -/
def Unrewritten (run : AgentRunRef) (σ : WatchState) : WatchOp → Prop
  | .stream (.hide eventIds) => ∀ e ∈ σ.env.log.streamRows run, e.eventId ∉ eventIds
  | _ => True

/-- The records that the client has received, oldest first. -/
def delivered (l : List WatchOp) : List SessionEvent :=
  l.filterMap fun
    | .receive i => i.record?
    | _ => none

/-- The records that are in flight. -/
def WatchState.records (σ : WatchState) : List SessionEvent := σ.inFlight.filterMap Item.record?

section Watch

variable {codec : CursorCodec} {run : AgentRunRef} {n : Nat} {l : List WatchOp} {σ τ : WatchState}
  {a : WatchOp}

theorem delivered_concat (l : List WatchOp) (a : WatchOp) :
    delivered (l ++ [a]) = delivered l ++ delivered [a] := List.filterMap_append ..

@[simp] theorem delivered_receive (i : Item) : delivered [.receive i] = i.record?.toList := by
  cases i <;> rfl

@[simp] theorem delivered_stream (a : StreamOp) : delivered [.stream a] = [] := rfl

@[simp] theorem delivered_reconnect : delivered [.reconnect] = [] := rfl

/-- What holds between the client, its connection and the log. -/
structure WatchInv (codec : CursorCodec) (run : AgentRunRef) (n : Nat) (l : List WatchOp)
    (σ : WatchState) : Prop where
  sent : delivered l ++ σ.records ++ σ.conn.pending <+: σ.env.log.rowsAfter run n
  source : σ.conn.tail.sourceSequence =
    Sequenced.position SessionEvent.sequence (delivered l ++ σ.records) n
  cursor : ∀ m, parseLastEventCursor codec σ.lastEventId run.id = some m →
    m = Sequenced.position SessionEvent.sequence (delivered l) n
  /-- A record that ends the run is the last item of its connection. -/
  closed : ∀ before e after, σ.inFlight = before ++ .committed e :: after → e.isTerminal →
    after = [] ∧ σ.conn.phase = .ended

/-- The rest of the system only adds to the stream. -/
theorem envStep_streamRows {env env' : Env} {a : StreamOp} (h : EnvStep env a env')
    (hkeep : ∀ eventIds, a = .hide eventIds → ∀ e ∈ env.log.streamRows run, e.eventId ∉ eventIds) :
    env.log.streamRows run <+: env'.log.streamRows run := by
  cases h with
  | append h =>
    rw [EventLog.streamRows_append]
    exact List.prefix_append _ _
  | hide eventIds =>
    rw [EventLog.streamRows_hide (hkeep eventIds rfl)]
  | status => exact List.prefix_rfl
  | redis => exact List.prefix_rfl

theorem envStep_item {env env' : Env} {a : StreamOp} (h : EnvStep env a env') : a.item? = none := by
  cases h <;> rfl

theorem watchInv_env {env : Env} {a : StreamOp} (hi : WatchInv codec run n l σ)
    (h : EnvStep σ.env a env) (hkeep : Unrewritten run σ (.stream a)) :
    WatchInv codec run n (l ++ [.stream a]) { σ with env } where
  sent := by
    rw [delivered_concat, delivered_stream, List.append_nil]
    refine hi.sent.trans (List.IsPrefix.filter _ (envStep_streamRows h ?_))
    rintro eventIds rfl
    exact hkeep
  source := by
    rw [delivered_concat, delivered_stream, List.append_nil]
    exact hi.source
  cursor := by
    rw [delivered_concat, delivered_stream, List.append_nil]
    exact hi.cursor
  closed := hi.closed

/-- Once an item that ends the run is in flight, its connection sends nothing more. -/
theorem WatchInv.closed_send {a : StreamOp} {c : Connection} (hi : WatchInv codec run n l σ)
    (h : ConnStep run σ.env σ.conn a c)
    (hended : ∀ e, a = .committed e → e.isTerminal → c.phase = .ended) :
    ∀ before e after, σ.inFlight ++ a.item?.toList = before ++ .committed e :: after →
      e.isTerminal → after = [] ∧ c.phase = .ended := by
  intro before e after hsplit hterminal
  rcases List.eq_nil_or_concat after with rfl | ⟨after, i, rfl⟩
  · cases hitem : a.item? with
    | none =>
      rw [hitem, Option.toList_none, List.append_nil] at hsplit
      exact absurd h (not_connStep_of_ended (hi.closed before e [] hsplit hterminal).2)
    | some i =>
      rw [hitem, Option.toList_some] at hsplit
      obtain ⟨-, hlast⟩ := List.append_inj' hsplit rfl
      obtain rfl := List.singleton_inj.1 hlast
      refine ⟨rfl, hended e ?_ hterminal⟩
      cases a <;> simp_all [StreamOp.item?]
  · -- the item was in flight before the step, so the connection had ended
    rw [List.concat_eq_append, ← List.cons_append, ← List.append_assoc] at hsplit
    have hold : ∃ after', σ.inFlight = before ++ .committed e :: after' := by
      cases hitem : a.item? with
      | none =>
        rw [hitem, Option.toList_none, List.append_nil] at hsplit
        exact ⟨after ++ [i], by rw [hsplit, List.append_assoc, List.cons_append]⟩
      | some j =>
        rw [hitem, Option.toList_some] at hsplit
        exact ⟨after, (List.append_inj' hsplit rfl).1⟩
    obtain ⟨after', hold⟩ := hold
    exact absurd h (not_connStep_of_ended (hi.closed before e after' hold hterminal).2)

theorem watchInv_conn {a : StreamOp} {c : Connection} (hi : WatchInv codec run n l σ)
    (h : ConnStep run σ.env σ.conn a c) :
    WatchInv codec run n (l ++ [.stream a])
      { σ with conn := c, inFlight := σ.inFlight ++ a.item?.toList } := by
  have hdelivered : delivered (l ++ [.stream a]) = delivered l := by
    rw [delivered_concat, delivered_stream, List.append_nil]
  have hrecords : WatchState.records { σ with conn := c, inFlight := σ.inFlight ++ a.item?.toList } =
      σ.records ++ a.item?.toList.filterMap Item.record? := List.filterMap_append ..
  cases connStep_delivery h with
  | @send e rest _ hpending hrest hsource hended =>
    have hnew : [Item.committed e].filterMap Item.record? = [e] := rfl
    refine ⟨?_, ?_, by rw [hdelivered]; exact hi.cursor,
      hi.closed_send h fun e' he' ↦ by cases he'; exact hended⟩
    · rw [hdelivered, hrecords]
      refine List.IsPrefix.trans ?_ hi.sent
      show delivered l ++ (σ.records ++ [e]) ++ c.pending <+: _
      rw [hpending, ← List.append_assoc, List.append_assoc _ [e]]
      exact (List.prefix_append_right_inj _).2 ((List.prefix_append_right_inj [e]).2 hrest)
    · rw [hdelivered, hrecords]
      show c.tail.sourceSequence = Sequenced.position _ (delivered l ++ (σ.records ++ [e])) n
      rw [hsource, ← List.append_assoc, Sequenced.position_concat]
  | keep ha hpending hsource =>
    have hnone : a.item?.toList.filterMap Item.record? = [] := by
      cases a <;> first | rfl | exact absurd rfl (ha _)
    rw [hnone, List.append_nil] at hrecords
    refine ⟨?_, ?_, by rw [hdelivered]; exact hi.cursor,
      hi.closed_send h fun e' he' ↦ absurd he' (ha e')⟩
    · rw [hdelivered, hrecords]
      refine Sequenced.append_prefix (σ.env.log.increasing_streamRows run)
        ((List.prefix_append _ _).trans hi.sent) ?_
      rw [← hi.source]
      exact hpending
    · rw [hdelivered, hrecords]
      exact hsource.trans hi.source

theorem watchInv_receive {i : Item} {rest : List Item} (hcodec : codec.Sound)
    (hi : WatchInv codec run n l σ) (h : σ.inFlight = i :: rest) :
    WatchInv codec run n (l ++ [.receive i])
      { σ with inFlight := rest, lastEventId := (i.eventId? codec run).getD σ.lastEventId } := by
  have hmoved : delivered (l ++ [.receive i]) ++ rest.filterMap Item.record? =
      delivered l ++ σ.records := by
    rw [delivered_concat, delivered_receive, List.append_assoc, WatchState.records, h]
    cases i <;> rfl
  refine ⟨?_, ?_, ?_, fun before e after hsplit ↦ ?_⟩
  · show delivered (l ++ [.receive i]) ++ rest.filterMap Item.record? ++ _ <+: _
    rw [hmoved]
    exact hi.sent
  · show _ = Sequenced.position _ (delivered (l ++ [.receive i]) ++ rest.filterMap Item.record?) n
    rw [hmoved]
    exact hi.source
  · intro m hm
    rw [delivered_concat, delivered_receive]
    cases i with
    | committed e =>
      rw [parseLastEventCursor_encode hcodec hm]
      exact (Sequenced.position_concat (delivered l) e n).symm
    | live o => exact (hi.cursor m hm).trans (by rw [Item.record?, Option.toList_none, List.append_nil])
  · exact hi.closed (i :: before) e after (by rw [h, List.cons_append]; exact congrArg _ hsplit)

theorem watchInv_reconnect {m : Nat} (hi : WatchInv codec run n l σ)
    (hm : parseLastEventCursor codec σ.lastEventId run.id = some m) :
    WatchInv codec run n (l ++ [.reconnect]) (.connect σ.env σ.lastEventId m) := by
  have hdelivered : delivered (l ++ [.reconnect]) ++ [] = delivered l := by
    rw [delivered_concat, delivered_reconnect, List.append_nil, List.append_nil]
  refine ⟨?_, ?_, ?_, fun before e after hsplit ↦ ?_⟩
  · show delivered (l ++ [.reconnect]) ++ [] ++ [] <+: _
    rw [hdelivered, List.append_nil]
    refine List.IsPrefix.trans ?_ hi.sent
    rw [List.append_assoc]
    exact List.prefix_append _ _
  · show m = Sequenced.position _ (delivered (l ++ [.reconnect]) ++ []) n
    rw [hdelivered]
    exact hi.cursor m hm
  · rw [← List.append_nil (delivered _), hdelivered]
    exact hi.cursor
  · exact absurd hsplit (by simp [WatchState.connect])

/-- A run in which nothing is rewritten. -/
abbrev WatchRun (codec : CursorCodec) (run : AgentRunRef) : WatchState → List WatchOp → WatchState → Prop :=
  Run fun σ a τ ↦ WatchStep codec run σ a τ ∧ Unrewritten run σ a

theorem watchInv_step (hcodec : codec.Sound) (hi : WatchInv codec run n l σ)
    (h : WatchStep codec run σ a τ) (hkeep : Unrewritten run σ a) :
    WatchInv codec run n (l ++ [a]) τ := by
  cases h with
  | conn h => exact watchInv_conn hi h
  | env h => exact watchInv_env hi h hkeep
  | receive h => exact watchInv_receive hcodec hi h
  | reconnect hcursor _ => exact watchInv_reconnect hi hcursor

theorem watchInv_of_run (hcodec : codec.Sound) {env : Env} {lastEventId : String}
    (hcursor : parseLastEventCursor codec lastEventId run.id = some n)
    (h : WatchRun codec run (.connect env lastEventId n) l σ) : WatchInv codec run n l σ := by
  refine h.invariant_history (I := fun l σ ↦ WatchInv codec run n l σ) ?_
    fun l σ a τ _ hi ha ↦ watchInv_step hcodec hi ha.1 ha.2
  refine ⟨List.nil_prefix, rfl, fun m hm ↦ ?_, fun before e after hsplit ↦ ?_⟩
  · exact Option.some.inj (hm.symm.trans hcursor)
  · exact absurd hsplit (by simp [WatchState.connect])

/-- What the client has received and what lies after it is the stream. -/
theorem WatchInv.rowsAfter_eq (hi : WatchInv codec run n l σ) :
    σ.env.log.rowsAfter run n = delivered l ++ σ.records ++
      σ.env.log.rowsAfter run σ.conn.tail.sourceSequence := by
  rw [hi.source]
  exact Sequenced.after_eq_append (σ.env.log.increasing_streamRows run)
    ((List.prefix_append _ _).trans hi.sent)

theorem WatchInv.delivered_prefix (hi : WatchInv codec run n l σ) :
    delivered l <+: σ.env.log.rowsAfter run n := by
  rw [hi.rowsAfter_eq, List.append_assoc]
  exact List.prefix_append _ _

theorem WatchInv.increasing (hi : WatchInv codec run n l σ) :
    Sequenced.Increasing SessionEvent.sequence (delivered l) :=
  ((σ.env.log.increasing_streamRows run).after n).sublist hi.delivered_prefix.sublist

/-! ### After the record that ends the run -/

/-- A drain that has not yet asked how the run ended without a terminal record. -/
def DrainPoint.BeforeStatus : DrainPoint → Prop
  | .terminalStatus | .terminalMessage => False
  | _ => True

/-- A connection that sends no live text if its run has ended: it is in its first drain, or done. -/
def Phase.Opening : Phase → Prop
  | .drain .first point | .drain .final point => point.BeforeStatus
  | .start | .capture | .ended | .failed => True
  | _ => False

theorem opening_setTerminal {c : Connection} (resume : Resume) :
    (c.setTerminal resume true).phase.Opening := by
  cases resume <;> exact trivial

theorem drainStep_opening {env : Env} {c : Connection} {resume : Resume} {point : DrainPoint}
    {e : SessionEvent} (he : e ∈ env.log.streamRows run) (hterminal : e.isTerminal)
    (hle : e.sequence ≤ c.tail.sourceSequence) (hopening : (Phase.drain resume point).Opening) :
    (c.drainStep run env resume point).1.phase.Opening ∧
      ∀ o, (c.drainStep run env resume point).2 ≠ .live o := by
  cases point with
  | highWater => exact ⟨by cases resume <;> exact hopening, fun _ ↦ nofun⟩
  | records highWater => exact ⟨by cases resume <;> exact hopening, fun _ ↦ nofun⟩
  | items full rest =>
    cases rest with
    | nil => exact ⟨by cases resume <;> cases full <;> exact hopening, fun _ ↦ nofun⟩
    | cons e rest =>
      dsimp only [Connection.drainStep]
      split
      · exact ⟨trivial, fun _ ↦ nofun⟩
      split
      · exact ⟨opening_setTerminal resume, fun _ ↦ nofun⟩
      · exact ⟨by cases resume <;> exact hopening, fun _ ↦ nofun⟩
  | terminalSequence =>
    -- the query finds the record, and the connection is at or after it
    obtain ⟨m, hm, hme⟩ := EventLog.terminalSequence_le he hterminal
    dsimp only [Connection.drainStep]
    rw [hm]
    dsimp only
    rw [decide_eq_true (hme.trans hle)]
    exact ⟨opening_setTerminal resume, fun _ ↦ nofun⟩
  | terminalStatus => cases resume <;> exact hopening.elim
  | terminalMessage => cases resume <;> exact hopening.elim

theorem connStep_opening {env : Env} {c c' : Connection} {a : StreamOp} {e : SessionEvent}
    (h : ConnStep run env c a c') (he : e ∈ env.log.streamRows run) (hterminal : e.isTerminal)
    (hle : e.sequence ≤ c.tail.sourceSequence) (hopening : c.phase.Opening) :
    c'.phase.Opening ∧ ∀ o, a ≠ .live o := by
  cases h with
  | start h statusEnded => exact ⟨by cases statusEnded <;> exact trivial, fun _ ↦ nofun⟩
  | capture h available => exact ⟨trivial, fun _ ↦ nofun⟩
  | drain h => exact drainStep_opening he hterminal hle (h ▸ hopening)
  | candidate h => exact absurd hopening (by rw [h]; exact id)
  | load h => exact absurd hopening (by rw [h]; exact id)
  | loadInvalid h => exact absurd hopening (by rw [h]; exact id)
  | loadLost h => exact absurd hopening (by rw [h]; exact id)
  | poll h => exact absurd hopening (by rw [h]; exact id)
  | recapture h => exact absurd hopening (by rw [h]; exact id)
  | reconcile h => exact absurd hopening (by rw [h]; exact id)
  | signals h => exact absurd hopening (by rw [h]; exact id)
  | signalsInvalid h => exact absurd hopening (by rw [h]; exact id)
  | signalsLost h => exact absurd hopening (by rw [h]; exact id)

/-- What holds from the receipt of a record `e` that ends the run. -/
structure AfterEnd (run : AgentRunRef) (e : SessionEvent) (l : List WatchOp) (σ : WatchState) :
    Prop where
  mem : e ∈ σ.env.log.streamRows run
  opening : σ.conn.phase.Opening
  committed : ∀ i ∈ σ.inFlight, ∃ r, i = .committed r
  /-- The connection that delivered the record has ended. -/
  ended : WatchOp.reconnect ∉ l → σ.conn.phase = .ended ∧ σ.inFlight = []
  received : ∀ i, WatchOp.receive i ∈ l → WatchOp.reconnect ∈ l ∧ ∃ r, i = .committed r

/-- A step that receives nothing and does not connect again. -/
theorem AfterEnd.stream {e : SessionEvent} {a : StreamOp} {l : List WatchOp} {σ τ : WatchState}
    (hi : AfterEnd run e l σ) (hmem : e ∈ τ.env.log.streamRows run) (hopening : τ.conn.phase.Opening)
    (hcommitted : ∀ i ∈ τ.inFlight, ∃ r, i = .committed r)
    (hended : σ.conn.phase = .ended → σ.inFlight = [] → τ.conn.phase = .ended ∧ τ.inFlight = []) :
    AfterEnd run e (l ++ [.stream a]) τ where
  mem := hmem
  opening := hopening
  committed := hcommitted
  ended hnone := by
    obtain ⟨hphase, hempty⟩ := hi.ended fun hl ↦ hnone (List.mem_append_left _ hl)
    exact hended hphase hempty
  received i hmem := by
    rcases List.mem_append.1 hmem with hl | hl
    · exact (hi.received i hl).imp_left (List.mem_append_left _)
    · cases List.mem_singleton.1 hl

theorem afterEnd_step {e : SessionEvent} (hterminal : e.isTerminal) (hi : AfterEnd run e l σ)
    (hle : e.sequence ≤ σ.conn.tail.sourceSequence)
    (h : WatchStep codec run σ a τ) (hkeep : Unrewritten run σ a) : AfterEnd run e (l ++ [a]) τ := by
  cases h with
  | @conn a c h =>
    obtain ⟨hopening, hlive⟩ := connStep_opening h hi.mem hterminal hle hi.opening
    refine hi.stream hi.mem hopening (fun i hmem ↦ ?_) fun hphase _ ↦
      absurd h (not_connStep_of_ended hphase)
    rcases List.mem_append.1 hmem with hmem | hmem
    · exact hi.committed i hmem
    · cases a with
      | committed r => exact ⟨r, List.mem_singleton.1 hmem⟩
      | live o => exact absurd rfl (hlive o)
      | silent => cases hmem
      | append => cases hmem
      | hide => cases hmem
      | status => cases hmem
      | redis => cases hmem
  | @env a env h =>
    refine hi.stream ((envStep_streamRows h ?_).subset hi.mem) hi.opening hi.committed
      fun hphase hempty ↦ ⟨hphase, hempty⟩
    rintro eventIds rfl
    exact hkeep
  | @receive i rest h =>
    have hreconnect : WatchOp.reconnect ∈ l := by
      by_contra hnone
      rw [(hi.ended hnone).2] at h
      cases h
    refine ⟨hi.mem, hi.opening, fun j hj ↦ hi.committed j (h ▸ List.mem_cons_of_mem i hj),
      fun hnone ↦ absurd (List.mem_append_left _ hreconnect) hnone, fun j hj ↦ ?_⟩
    refine ⟨List.mem_append_left _ hreconnect, ?_⟩
    rcases List.mem_append.1 hj with hj | hj
    · exact (hi.received j hj).2
    · cases List.mem_singleton.1 hj
      exact hi.committed i (h ▸ List.mem_cons_self)
  | @reconnect m hcursor hfuture =>
    have hmem : WatchOp.reconnect ∈ l ++ [WatchOp.reconnect] := by simp
    refine ⟨hi.mem, trivial, fun i hi ↦ (by cases hi), fun hnone ↦ absurd hmem hnone, fun i hl ↦ ?_⟩
    refine ⟨hmem, (hi.received i ?_).2⟩
    rcases List.mem_append.1 hl with hl | hl
    · exact hl
    · cases List.mem_singleton.1 hl

theorem WatchInv.le_source {e : SessionEvent} (hi : WatchInv codec run n l σ)
    (he : e ∈ delivered l) : e.sequence ≤ σ.conn.tail.sourceSequence := by
  rw [hi.source]
  refine Sequenced.le_position ?_ (List.mem_append_left _ he)
  exact ((σ.env.log.increasing_streamRows run).after n).sublist
    ((List.prefix_append _ _).trans hi.sent).sublist

theorem WatchInv.mem_streamRows {e : SessionEvent} (hi : WatchInv codec run n l σ)
    (he : e ∈ delivered l) : e ∈ σ.env.log.streamRows run :=
  (Sequenced.mem_after.1 (hi.delivered_prefix.subset he)).1

/-- The receipt of the record that ends the run. -/
theorem afterEnd_receive {e : SessionEvent} (hi : WatchInv codec run n l σ)
    (hi' : WatchInv codec run n (l ++ [.receive (.committed e)]) τ)
    (h : WatchStep codec run σ (.receive (.committed e)) τ) (hterminal : e.isTerminal) :
    AfterEnd run e [] τ := by
  cases h with
  | @receive _ rest h =>
    obtain ⟨rfl, hphase⟩ := hi.closed [] e rest h hterminal
    refine ⟨hi'.mem_streamRows (by simp [delivered_concat, Item.record?]), ?_,
      fun i hi ↦ (by cases hi), fun _ ↦ ⟨hphase, rfl⟩, fun i hi ↦ (by cases hi)⟩
    show σ.conn.phase.Opening
    rw [hphase]
    trivial

theorem afterEnd_of_run (hcodec : codec.Sound) {env : Env} {lastEventId : String}
    (hcursor : parseLastEventCursor codec lastEventId run.id = some n) {l₂ : List WatchOp}
    {e : SessionEvent} (hterminal : e.isTerminal)
    (h : WatchRun codec run (.connect env lastEventId n) (l ++ .receive (.committed e) :: l₂) σ) :
    AfterEnd run e l₂ σ := by
  rw [← List.singleton_append, ← List.append_assoc] at h
  obtain ⟨σ₂, hto, hfrom⟩ := h.split
  obtain ⟨σ₁, hto₁, hreceive⟩ := hto.of_concat
  have hstart := afterEnd_receive (watchInv_of_run hcodec hcursor hto₁)
    (watchInv_of_run hcodec hcursor hto) hreceive.1 hterminal
  refine hfrom.invariant_history (I := fun l₂ σ ↦ AfterEnd run e l₂ σ) hstart
    fun l₂ σ a τ hrun hi ha ↦ afterEnd_step hterminal hi ?_ ha.1 ha.2
  -- the record has been received, so every later connection starts at or after it
  refine (watchInv_of_run hcodec hcursor (hto.trans hrun)).le_source ?_
  simp [delivered, Item.record?]

/-- A connection that has ended stays so, and sends nothing, until the client connects again. -/
theorem ended_step (hended : σ.conn.phase = .ended) (h : WatchStep codec run σ a τ)
    (hconnected : a ≠ .reconnect) :
    τ.conn.phase = .ended ∧ ∀ b, a = .stream b → b.item? = none := by
  cases h with
  | conn h => exact absurd h (not_connStep_of_ended hended)
  | env h =>
    refine ⟨hended, fun b hb ↦ ?_⟩
    cases hb
    exact envStep_item h
  | receive h => exact ⟨hended, fun _ hb ↦ (by cases hb)⟩
  | reconnect => exact absurd rfl hconnected

/-- A connection that has sent the record that ends the run sends nothing more. -/
theorem silent_of_sent {e : SessionEvent} {s : WatchState} {l₂ : List WatchOp}
    (hterminal : e.isTerminal)
    (h : WatchRun codec run s (l ++ .stream (.committed e) :: l₂) σ)
    (hconnected : WatchOp.reconnect ∉ l₂) (b : StreamOp) (hb : WatchOp.stream b ∈ l₂) :
    b.item? = none := by
  rw [← List.singleton_append, ← List.append_assoc] at h
  obtain ⟨σ₂, hto, hfrom⟩ := h.split
  obtain ⟨σ₁, -, hsend⟩ := hto.of_concat
  have hended : σ₂.conn.phase = .ended := by
    cases hsend.1 with
    | conn h =>
      cases connStep_delivery h with
      | send _ _ _ hended => exact hended hterminal
      | keep ha => exact absurd rfl (ha e)
    | env h => cases h
  have hall : WatchOp.reconnect ∉ l₂ →
      σ.conn.phase = .ended ∧ ∀ b, WatchOp.stream b ∈ l₂ → b.item? = none := by
    refine hfrom.invariant_history (I := fun l₂ σ ↦ WatchOp.reconnect ∉ l₂ →
      σ.conn.phase = .ended ∧ ∀ b, WatchOp.stream b ∈ l₂ → b.item? = none)
      (fun _ ↦ ⟨hended, fun _ hb ↦ (by cases hb)⟩) fun l₂ σ a τ _ hi ha hnone ↦ ?_
    obtain ⟨hold, hlast⟩ := not_or.1 (List.mem_append.not.1 hnone)
    obtain ⟨hphase, hsilent⟩ := hi hold
    obtain ⟨hphase, hstep⟩ := ended_step hphase ha.1 fun heq ↦ hlast (heq ▸ List.mem_singleton_self _)
    refine ⟨hphase, fun b hb ↦ ?_⟩
    rcases List.mem_append.1 hb with hb | hb
    · exact hsilent b hb
    · exact hstep b (List.mem_singleton.1 hb).symm
  exact (hall hconnected).2 b hb

/-! ### Delivery -/

/-- The stream has ended at the record `e`, which ends the run, and the client has received what was
sent. -/
structure WatchState.EndedAt (run : AgentRunRef) (σ : WatchState) (e : SessionEvent) : Prop where
  ended : σ.conn.phase = .ended
  received : σ.inFlight = []
  mem : e ∈ σ.env.log.streamRows run
  terminal : e.isTerminal
  reached : e.sequence ≤ σ.conn.tail.sourceSequence

theorem WatchInv.mem_delivered {e r : SessionEvent} (hi : WatchInv codec run n l σ)
    (he : σ.EndedAt run e) (hr : r ∈ σ.env.log.rowsAfter run n) (hle : r.sequence ≤ e.sequence) :
    r ∈ delivered l := by
  rw [hi.rowsAfter_eq, WatchState.records, he.received, List.filterMap_nil, List.append_nil] at hr
  rcases List.mem_append.1 hr with hr | hr
  · exact hr
  · have := (Sequenced.mem_after.1 hr).2
    have := he.reached
    omega

theorem WatchInv.delivered_eq {e : SessionEvent} (hi : WatchInv codec run n l σ)
    (he : σ.EndedAt run e) (hlast : ∀ r ∈ σ.env.log.streamRows run, r.sequence ≤ e.sequence) :
    delivered l = σ.env.log.rowsAfter run n := by
  have hnone : σ.env.log.rowsAfter run σ.conn.tail.sourceSequence = [] := by
    refine List.eq_nil_iff_forall_not_mem.2 fun r hr ↦ ?_
    obtain ⟨hmem, hlt⟩ := Sequenced.mem_after.1 hr
    have := hlast r hmem
    have := he.reached
    omega
  rw [hi.rowsAfter_eq, hnone, WatchState.records, he.received, List.filterMap_nil, List.append_nil,
    List.append_nil]

/-- Records are received in order. -/
theorem lt_of_received {e r : SessionEvent} {l₂ : List WatchOp}
    (hi : WatchInv codec run n (l ++ .receive (.committed e) :: l₂) σ)
    (hr : WatchOp.receive (.committed r) ∈ l₂) : e.sequence < r.sequence := by
  have hinc := hi.increasing
  have hsplit : delivered (l ++ .receive (.committed e) :: l₂) = delivered l ++ e :: delivered l₂ := by
    simp [delivered, Item.record?]
  rw [hsplit] at hinc
  refine (List.pairwise_cons.1 (List.pairwise_append.1 hinc).2.1).1 r ?_
  exact List.mem_filterMap.2 ⟨_, hr, rfl⟩

/-- **Records are delivered once, in order, up to the record that ends the run.** A client connects
with a cursor, reads, loses its connections at any point and connects again with the last id it has;
nothing of the run is rewritten. What it has received is a beginning of the records of the run after
the cursor. Once a stream has ended at the record that ends the run, it has received all records up to
there, and all records of the run if that is the last one. Nothing is sent after that record on its
connection; on a later one, only records that the log has after it. -/
theorem records_delivered_once (hcodec : codec.Sound) {env : Env} {lastEventId : String}
    (hcursor : parseLastEventCursor codec lastEventId run.id = some n)
    (h : WatchRun codec run (.connect env lastEventId n) l σ) :
    (delivered l <+: σ.env.log.rowsAfter run n ∧
      Sequenced.Increasing SessionEvent.sequence (delivered l)) ∧
    (∀ e, σ.EndedAt run e →
      (∀ r ∈ σ.env.log.rowsAfter run n, r.sequence ≤ e.sequence → r ∈ delivered l) ∧
      ((∀ r ∈ σ.env.log.streamRows run, r.sequence ≤ e.sequence) →
        delivered l = σ.env.log.rowsAfter run n)) ∧
    (∀ l₁ e l₂, l = l₁ ++ .stream (.committed e) :: l₂ → e.isTerminal → WatchOp.reconnect ∉ l₂ →
      ∀ b, WatchOp.stream b ∈ l₂ → b.item? = none) ∧
    (∀ l₁ e l₂, l = l₁ ++ .receive (.committed e) :: l₂ → e.isTerminal →
      ∀ i, WatchOp.receive i ∈ l₂ → WatchOp.reconnect ∈ l₂ ∧
        ∃ r ∈ σ.env.log.streamRows run, i = .committed r ∧ e.sequence < r.sequence) := by
  have hi := watchInv_of_run hcodec hcursor h
  refine ⟨⟨hi.delivered_prefix, hi.increasing⟩,
    fun e he ↦ ⟨fun r hr hle ↦ hi.mem_delivered he hr hle, hi.delivered_eq he⟩, ?_, ?_⟩
  · rintro l₁ e l₂ rfl hterminal hconnected
    exact silent_of_sent hterminal h hconnected
  · rintro l₁ e l₂ rfl hterminal i hreceive
    obtain ⟨hreconnect, r, rfl⟩ :=
      (afterEnd_of_run hcodec hcursor hterminal h).received i hreceive
    refine ⟨hreconnect, r, hi.mem_streamRows ?_, rfl, lt_of_received hi hreceive⟩
    exact List.mem_filterMap.2 ⟨_, List.mem_append_right _ (List.mem_cons_of_mem _ hreceive), rfl⟩

end Watch

/-- A codec that writes the sequence as that many letters. -/
def letterCodec : CursorCodec where
  dumps
    | .obj [(_, .str agentRunId), _, (_, .num n _)] =>
      String.ofList (List.replicate n.toNat 'a' ++ '-' :: agentRunId.toList)
    | _ => ""
  loads text := some (cursorPayload (String.ofList (text.toList.dropWhile (· == 'a')).tail)
    (text.toList.takeWhile (· == 'a')).length)

theorem letterCodec_sound : letterCodec.Sound := by
  intro agentRunId n
  have htext : (letterCodec.dumps (cursorPayload agentRunId n)).toList =
      List.replicate n 'a' ++ '-' :: agentRunId.toList := String.toList_ofList
  show some (cursorPayload _ _) = _
  rw [htext, List.takeWhile_append_of_pos (by simp), List.dropWhile_append_of_pos (by simp)]
  simp

/-- The record that ends the run. -/
def sampleEnd : SessionEvent := sampleEvent "e1" 1 "agent_run_completed" []

/-- A log with the record that ends the run. -/
def sampleEnv : Env where
  log := ⟨[sampleEnd], List.pairwise_singleton _ _⟩
  runFailed := false
  redis := ⟨none, none, []⟩

/-- The client receives the record and connects again. -/
def sampleWatch : List WatchOp :=
  [.stream .silent, .stream .silent, .stream .silent, .stream (.committed sampleEnd),
    .receive (.committed sampleEnd), .reconnect]

/-- The client while its connection is in a phase. -/
def sampleState (tail : TailState) (phase : Phase) : WatchState :=
  ⟨sampleEnv, ⟨tail, true, phase⟩, [], ""⟩

theorem sampleWatch_run :
    ∃ σ, WatchRun letterCodec sampleRun (.connect sampleEnv "" 0) sampleWatch σ := by
  have hstart : WatchStep letterCodec sampleRun (.connect sampleEnv "" 0) (.stream .silent)
      (sampleState { sourceSequence := 0 } (.drain .final .highWater)) := .conn (.start rfl true)
  have hhighWater : WatchStep letterCodec sampleRun
      (sampleState { sourceSequence := 0 } (.drain .final .highWater)) (.stream .silent)
      (sampleState { sourceSequence := 0 } (.drain .final (.records 1))) :=
    .conn (.drain (show _ = Phase.drain .final .highWater from rfl))
  have hrecords : WatchStep letterCodec sampleRun
      (sampleState { sourceSequence := 0 } (.drain .final (.records 1))) (.stream .silent)
      (sampleState { sourceSequence := 0, sessionHighWater := 1 }
        (.drain .final (.items false [sampleEnd]))) :=
    .conn (.drain (show _ = Phase.drain .final (.records 1) from rfl))
  have hsend : WatchStep letterCodec sampleRun
      (sampleState { sourceSequence := 0, sessionHighWater := 1 }
        (.drain .final (.items false [sampleEnd]))) (.stream (.committed sampleEnd))
      { sampleState { sourceSequence := 1, sessionHighWater := 1, terminal := true } .ended with
        inFlight := [.committed sampleEnd] } :=
    .conn (.drain (show _ = Phase.drain .final (.items false [sampleEnd]) from rfl))
  refine ⟨_, .snoc (l := sampleWatch.dropLast) (.snoc (l := sampleWatch.take 4)
    (.snoc (l := sampleWatch.take 3) (.snoc (l := sampleWatch.take 2) (.snoc (l := sampleWatch.take 1)
      (.snoc (l := []) .nil ⟨hstart, trivial⟩) ⟨hhighWater, trivial⟩) ⟨hrecords, trivial⟩)
      ⟨hsend, trivial⟩) ⟨.receive rfl, trivial⟩) ⟨.reconnect (n := 1) ?_ (le_refl 1), trivial⟩⟩
  decide +kernel

/-- A client that has received the record that ends the run connects again. -/
theorem records_delivered_once_reconnect :
    ∃ σ, WatchRun letterCodec sampleRun (.connect sampleEnv "" 0) sampleWatch σ ∧
      delivered sampleWatch <+: σ.env.log.rowsAfter sampleRun 0 := by
  obtain ⟨σ, h⟩ := sampleWatch_run
  exact ⟨σ, h, (records_delivered_once letterCodec_sound rfl h).1.1⟩

end Centaeris.Stream
