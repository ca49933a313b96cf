import Centaeris.Relational.Run
import Centaeris.Relational.Table

/-!
# Wait checkpoints

A turn that waits is kept as a row of `checkpoints`, saved together with an event that says so and consumed
together with the events that end the wait. A request may be delivered again. While the checkpoint is there,
saving it again changes nothing, and consuming it again never does (`redelivered`); but the save does not
look at its event before it looks at the checkpoint, so that saving again what was consumed brings the
checkpoint back (`save_recreates`).
-/

namespace Centaeris.Waiting

/-- `CheckpointKindV1`. -/
inductive CheckpointKind
  | wait
  | recovery
  deriving DecidableEq

/-- `CheckpointRecord`. -/
structure Checkpoint where
  checkpointId : String
  kind : CheckpointKind
  sessionId : String
  turnId : String
  status : String
  doneReason : Option String
  updatedAtMs : Int
  payloadJson : String
  deriving DecidableEq

/-- `EventVisibility`. -/
inductive EventVisibility
  | internal
  | user
  deriving DecidableEq

/-- `RuntimeEvent`. -/
structure RuntimeEvent where
  eventId : String
  sessionId : String
  taskId : Option String
  eventType : String
  atMs : Int
  visibility : EventVisibility
  payloadJson : String
  deriving DecidableEq

/-- A row of `runtime_job_waiters`. -/
structure Waiter where
  checkpointId : String
  toolCallId : String
  sourceJobId : String
  sourceJobKind : String
  sessionId : String
  agentRunId : String
  deriving DecidableEq

/-- The tables that are written. -/
structure State where
  checkpoints : Table Checkpoint.checkpointId
  events : Table RuntimeEvent.eventId
  waiters : Table fun w : Waiter ↦ (w.checkpointId, w.toolCallId)
  deriving DecidableEq

/-- `SaveWaitCheckpointRequest`. -/
structure SaveRequest where
  checkpoint : Checkpoint
  event : RuntimeEvent

/-- `ConsumeWaitCheckpointRequest`. -/
structure ConsumeRequest where
  checkpoint : Checkpoint
  events : List RuntimeEvent

/-! ### The statements -/

/-- The wait checkpoint of a turn. -/
def ofTurn (sessionId turnId : String) (r : Checkpoint) : Bool :=
  r.sessionId == sessionId && r.turnId == turnId && r.kind != .recovery

/-- `load_checkpoint`; the query fails on a second row. -/
def loadCheckpoint (s : State) (sessionId turnId : String) : Except String (Option Checkpoint) :=
  match s.checkpoints.rows.filter (ofTurn sessionId turnId) with
  | [] => .ok none
  | [r] => .ok (some r)
  | _ => .error "load Postgres checkpoint failed"

/-- One row of `runtime_job_waiters`: its checkpoint has to be there, and its key has to be free. -/
def insertWaiter (s : State) (w : Waiter) : Except String State :=
  match s.checkpoints.get? w.checkpointId, s.waiters.insert? w with
  | some _, some waiters => .ok { s with
      waiters }
  | _, _ => .error "save checkpoint waiter failed"

/-- `save_checkpoint`, where `waitersOf` is `runtime_job_waiters`. -/
def saveCheckpoint (waitersOf : Checkpoint → Except String (List Waiter)) (s : State) (c : Checkpoint) :
    Except String State := do
  let waiters ← waitersOf c
  if c.kind = .recovery then
    match s.checkpoints.insert? c with
    | some checkpoints => return { s with
        checkpoints }
    | none =>
      Except.require (s.checkpoints.get? c.checkpointId = some c) "recovery_checkpoint_idempotency_conflict"
      return s
  else
    let s := { s with
      checkpoints := s.checkpoints.upsert c (fun r ↦ { c with checkpointId := r.checkpointId }) fun _ ↦ rfl
      waiters := s.waiters.delete fun w ↦ w.checkpointId == c.checkpointId }
    waiters.foldlM insertWaiter s

/-- `append_runtime_event_idempotent`: whether the event is new, and the events with it. -/
def appendRuntimeEventIdempotent (events : Table RuntimeEvent.eventId) (e : RuntimeEvent) :
    Except String (Bool × Table RuntimeEvent.eventId) :=
  match events.insert? e with
  | some events => .ok (true, events)
  | none => do
    Except.require (events.get? e.eventId = some e) "runtime_event_idempotency_conflict"
    return (false, events)

/-- The events of a request. -/
def appendEvents (events : Table RuntimeEvent.eventId) :
    List RuntimeEvent → Except String (Bool × Table RuntimeEvent.eventId)
  | [] => .ok (false, events)
  | e :: es => do
    let (inserted, events) ← appendRuntimeEventIdempotent events e
    let (insertedAny, events) ← appendEvents events es
    return (inserted || insertedAny, events)

/-- The scope of an event is that of the checkpoint. -/
def InScope (c : Checkpoint) (e : RuntimeEvent) : Prop := e.sessionId = c.sessionId ∧ e.taskId = some c.turnId

instance (c : Checkpoint) (e : RuntimeEvent) : Decidable (InScope c e) := inferInstanceAs (Decidable (_ ∧ _))

variable (waitersOf : Checkpoint → Except String (List Waiter))

/-- The checkpoint of a save, by the one that is there. -/
def ensureCheckpoint (s : State) (c : Checkpoint) : Option Checkpoint → Except String State
  | some existing => do
    Except.require (existing = c) "save_wait_checkpoint idempotency conflict"
    return s
  | none => saveCheckpoint waitersOf s c

/-- `save_wait_checkpoint`. -/
def saveWaitCheckpoint (req : SaveRequest) (s : State) : Except String State := do
  Except.require (InScope req.checkpoint req.event) "save_wait_checkpoint scope mismatch"
  let existing ← loadCheckpoint s req.checkpoint.sessionId req.checkpoint.turnId
  let s ← ensureCheckpoint waitersOf s req.checkpoint existing
  let (_, events) ← appendRuntimeEventIdempotent s.events req.event
  return { s with
    events }

/-- `DELETE FROM checkpoints` for a turn; the waiters of a checkpoint go with it. -/
def deleteOfTurn (s : State) (sessionId turnId : String) : State where
  checkpoints := s.checkpoints.delete (ofTurn sessionId turnId)
  events := s.events
  waiters := s.waiters.delete fun w ↦
    (s.checkpoints.get? w.checkpointId).any (ofTurn sessionId turnId)

/-- `validate_consume_wait_checkpoint`, after the events with these ids. -/
def validateEvents (c : Checkpoint) : List String → List RuntimeEvent → Except String Unit
  | _, [] => .ok ()
  | seen, e :: es => do
    Except.require (InScope c e) "consume_wait_checkpoint event scope mismatch"
    Except.require (e.eventId ∉ seen) "consume_wait_checkpoint duplicate event id"
    validateEvents c (e.eventId :: seen) es

/-- `consume_wait_checkpoint`. -/
def consumeWaitCheckpoint (req : ConsumeRequest) (s : State) : Except String State := do
  Except.require (req.events ≠ []) "consume_wait_checkpoint requires events"
  validateEvents req.checkpoint [] req.events
  let current ← loadCheckpoint s req.checkpoint.sessionId req.checkpoint.turnId
  Except.require (∀ c ∈ current, c = req.checkpoint) "consume_wait_checkpoint identity conflict"
  let (insertedAny, events) ← appendEvents s.events req.events
  let s := { s with
    events }
  match current with
  | none =>
    Except.require (insertedAny = false) "consume_wait_checkpoint missing checkpoint"
    return s
  | some _ =>
    Except.require (s.checkpoints.count (ofTurn req.checkpoint.sessionId req.checkpoint.turnId) = 1)
      "consume_wait_checkpoint delete mismatch"
    return deleteOfTurn s req.checkpoint.sessionId req.checkpoint.turnId

section Statements

variable {s s' : State} {c : Checkpoint} {sessionId turnId : String}

theorem mem_rows_iff {r : Checkpoint} :
    r ∈ s.checkpoints.rows ↔ s.checkpoints.get? r.checkpointId = some r :=
  ⟨Table.get?_of_mem, Table.mem_of_get?⟩

theorem loadCheckpoint_eq_none :
    loadCheckpoint s sessionId turnId = .ok none ↔
      ∀ r, s.checkpoints.get? r.checkpointId = some r → ofTurn sessionId turnId r = false := by
  have hnil : s.checkpoints.rows.filter (ofTurn sessionId turnId) = [] ↔
      ∀ r, s.checkpoints.get? r.checkpointId = some r → ofTurn sessionId turnId r = false := by
    simp only [List.filter_eq_nil_iff, mem_rows_iff, Bool.not_eq_true]
  rw [← hnil, loadCheckpoint]
  split
  · next h => simp [h]
  · next h => simp [h]
  · next hne _ => exact ⟨fun h ↦ (by cases h), fun h ↦ absurd h hne⟩

theorem loadCheckpoint_eq_some :
    loadCheckpoint s sessionId turnId = .ok (some c) ↔
      (s.checkpoints.get? c.checkpointId = some c ∧ ofTurn sessionId turnId c = true) ∧
      ∀ r, s.checkpoints.get? r.checkpointId = some r → ofTurn sessionId turnId r = true → r = c := by
  have hnodup : (s.checkpoints.rows.filter (ofTurn sessionId turnId)).Nodup :=
    (s.checkpoints.nodup_keys.of_map _).filter _
  have hmem {r : Checkpoint} : r ∈ s.checkpoints.rows.filter (ofTurn sessionId turnId) ↔
      s.checkpoints.get? r.checkpointId = some r ∧ ofTurn sessionId turnId r = true := by
    rw [List.mem_filter, mem_rows_iff]
  rw [← hmem, loadCheckpoint]
  simp only [← and_imp, ← hmem]
  split
  · next h => simp [h]
  · next r h =>
    simp only [h, List.mem_singleton, Except.ok.injEq, Option.some.injEq]
    exact ⟨fun h ↦ ⟨h.symm, fun r' hr' ↦ hr'.trans h⟩, fun h ↦ h.1.symm⟩
  · next hnil hone =>
    refine ⟨fun h ↦ (by cases h), fun ⟨hc, hall⟩ ↦ absurd ?_ (hone c)⟩
    -- all the elements are the same, and there are no two of them
    match hl : s.checkpoints.rows.filter (ofTurn sessionId turnId) with
    | [] => exact absurd hl hnil
    | [r] =>
      rw [hl] at hc
      rw [List.mem_singleton.1 hc]
    | r :: r' :: rest =>
      rw [hl] at hnodup hall
      have hr := hall r List.mem_cons_self
      have hr' := hall r' (List.mem_cons_of_mem _ List.mem_cons_self)
      exact absurd (hr.trans hr'.symm) (List.nodup_cons.1 hnodup |>.1 <| · ▸ List.mem_cons_self)

theorem checkpoints_of_foldlM_insertWaiter {ws : List Waiter} (h : ws.foldlM insertWaiter s = .ok s') :
    s'.checkpoints = s.checkpoints ∧ s'.events = s.events := by
  induction ws generalizing s with
  | nil =>
    obtain rfl := Except.ok.inj h
    exact ⟨rfl, rfl⟩
  | cons w ws ih =>
    rw [List.foldlM_cons] at h
    obtain ⟨t, ht, h⟩ := Except.bind_eq_ok.1 h
    rw [insertWaiter] at ht
    split at ht
    · obtain rfl := Except.ok.inj ht
      have hrest := ih h
      exact hrest
    · cases ht

/-- A checkpoint is saved under its id, and nothing else changes. -/
theorem get?_of_saveCheckpoint (h : saveCheckpoint waitersOf s c = .ok s') :
    s'.events = s.events ∧ ∀ k, s'.checkpoints.get? k =
      if c.checkpointId = k then some c else s.checkpoints.get? k := by
  obtain ⟨waiters, -, h⟩ := Except.bind_eq_ok.1 h
  split at h
  · split at h
    · next hinsert =>
      obtain rfl := Except.ok.inj h
      exact ⟨rfl, Table.get?_of_insert? hinsert⟩
    · obtain ⟨hget, h⟩ := Except.require_bind.1 h
      obtain rfl := Except.ok.inj h
      refine ⟨rfl, fun k ↦ ?_⟩
      split
      · next hk => rw [← hk, hget]
      · rfl
  · obtain ⟨hcheckpoints, hevents⟩ := checkpoints_of_foldlM_insertWaiter h
    refine ⟨hevents, fun k ↦ ?_⟩
    rw [hcheckpoints, Table.get?_upsert]
    split
    · next hk =>
      cases hget : s.checkpoints.get? k with
      | none => rfl
      | some r =>
        have hr : r.checkpointId = c.checkpointId := (Table.key_of_get? hget).trans hk.symm
        simp only [Option.elim_some, hr]
    · rfl

theorem get?_of_appendRuntimeEventIdempotent {events events' : Table RuntimeEvent.eventId} {e : RuntimeEvent}
    {inserted : Bool} (h : appendRuntimeEventIdempotent events e = .ok (inserted, events')) :
    events'.get? e.eventId = some e ∧ (∀ k x, events.get? k = some x → events'.get? k = some x) ∧
      (inserted = false → events' = events) := by
  rw [appendRuntimeEventIdempotent] at h
  split at h
  · next hinsert =>
    obtain ⟨rfl, rfl⟩ := Prod.mk.inj (Except.ok.inj h)
    refine ⟨?_, fun k x hx ↦ Table.get?_of_insert?_of_some hinsert hx, fun h ↦ (by cases h)⟩
    rw [Table.get?_of_insert? hinsert, if_pos rfl]
  · obtain ⟨hget, h⟩ := Except.require_bind.1 h
    obtain ⟨rfl, rfl⟩ := Prod.mk.inj (Except.ok.inj h)
    exact ⟨hget, fun _ _ hx ↦ hx, fun _ ↦ rfl⟩

theorem appendRuntimeEventIdempotent_of_get? {events : Table RuntimeEvent.eventId} {e : RuntimeEvent}
    (h : events.get? e.eventId = some e) : appendRuntimeEventIdempotent events e = .ok (false, events) := by
  have hinsert : events.insert? e = none := Table.insert?_eq_none_iff.2 (by rw [h]; rfl)
  rw [appendRuntimeEventIdempotent, hinsert]
  simp only [Except.require_pos h, Except.ok_bind]
  rfl

theorem get?_of_appendEvents {events events' : Table RuntimeEvent.eventId} {es : List RuntimeEvent}
    {inserted : Bool} (h : appendEvents events es = .ok (inserted, events')) :
    (∀ e ∈ es, events'.get? e.eventId = some e) ∧ ∀ k x, events.get? k = some x → events'.get? k = some x := by
  induction es generalizing events inserted with
  | nil =>
    obtain ⟨-, rfl⟩ := Prod.mk.inj (Except.ok.inj h)
    exact ⟨fun _ he ↦ absurd he List.not_mem_nil, fun _ _ hx ↦ hx⟩
  | cons e es ih =>
    obtain ⟨⟨i, events₁⟩, hfirst, h⟩ := Except.bind_eq_ok.1 h
    obtain ⟨⟨j, events₂⟩, hrest, h⟩ := Except.bind_eq_ok.1 h
    obtain ⟨-, rfl⟩ := Prod.mk.inj (Except.ok.inj h)
    obtain ⟨hget, hkeep, -⟩ := get?_of_appendRuntimeEventIdempotent hfirst
    obtain ⟨hall, hkeep'⟩ := ih hrest
    refine ⟨fun x hx ↦ ?_, fun k x hx ↦ hkeep' k x (hkeep k x hx)⟩
    rcases List.mem_cons.1 hx with rfl | hx
    · exact hkeep' _ _ hget
    · exact hall x hx

theorem appendEvents_of_get? {events : Table RuntimeEvent.eventId} {es : List RuntimeEvent}
    (h : ∀ e ∈ es, events.get? e.eventId = some e) : appendEvents events es = .ok (false, events) := by
  induction es with
  | nil => rfl
  | cons e es ih =>
    simp only [appendEvents, appendRuntimeEventIdempotent_of_get? (h e List.mem_cons_self), Except.ok_bind,
      ih fun x hx ↦ h x (List.mem_cons_of_mem _ hx)]
    rfl

end Statements

/-! ### What the requests leave -/

/-- A request. -/
inductive Request
  | save (req : SaveRequest)
  | consume (req : ConsumeRequest)

/-- The checkpoint that a request is about. -/
def Request.checkpoint : Request → Checkpoint
  | .save req => req.checkpoint
  | .consume req => req.checkpoint

/-- What a request does. -/
def Request.apply (s : State) : Request → Except String State
  | .save req => saveWaitCheckpoint waitersOf req s
  | .consume req => consumeWaitCheckpoint req s

/-- The store after a request; a transaction that fails leaves it. -/
def Delivered (s : State) (r : Request) (s' : State) : Prop := s' = (r.apply waitersOf s).toOption.getD s

section Requests

variable {waitersOf : Checkpoint → Except String (List Waiter)} {s s' : State} {c : Checkpoint}

theorem saveWaitCheckpoint_eq_ok {req : SaveRequest} (h : saveWaitCheckpoint waitersOf req s = .ok s') :
    s'.events.get? req.event.eventId = some req.event ∧
    (∀ k x, s.events.get? k = some x → s'.events.get? k = some x) ∧
    (loadCheckpoint s req.checkpoint.sessionId req.checkpoint.turnId = .ok (some req.checkpoint) ∧
        s'.checkpoints = s.checkpoints ∨
      loadCheckpoint s req.checkpoint.sessionId req.checkpoint.turnId = .ok none ∧
        (∃ ws, waitersOf req.checkpoint = .ok ws) ∧
        ∀ k, s'.checkpoints.get? k =
          if req.checkpoint.checkpointId = k then some req.checkpoint else s.checkpoints.get? k) := by
  obtain ⟨-, h⟩ := Except.require_bind.1 h
  obtain ⟨existing, hload, h⟩ := Except.bind_eq_ok.1 h
  obtain ⟨t, ht, h⟩ := Except.bind_eq_ok.1 h
  obtain ⟨⟨inserted, events⟩, hevents, h⟩ := Except.bind_eq_ok.1 h
  obtain rfl := Except.ok.inj h
  obtain ⟨hget, hkeep, -⟩ := get?_of_appendRuntimeEventIdempotent hevents
  cases existing with
  | some existing =>
    obtain ⟨rfl, hsame⟩ := Except.require_bind.1 ht
    obtain rfl := Except.ok.inj hsame
    exact ⟨hget, hkeep, .inl ⟨hload, rfl⟩⟩
  | none =>
    obtain ⟨hsame, hcheckpoints⟩ := get?_of_saveCheckpoint waitersOf ht
    obtain ⟨ws, hws, -⟩ := Except.bind_eq_ok.1 ht
    exact ⟨hget, fun k x hx ↦ hkeep k x (hsame ▸ hx), .inr ⟨hload, ⟨ws, hws⟩, hcheckpoints⟩⟩

theorem consumeWaitCheckpoint_eq_ok {req : ConsumeRequest} (h : consumeWaitCheckpoint req s = .ok s') :
    (∀ e ∈ req.events, s'.events.get? e.eventId = some e) ∧
    (∀ k x, s.events.get? k = some x → s'.events.get? k = some x) ∧
    (loadCheckpoint s req.checkpoint.sessionId req.checkpoint.turnId = .ok none ∧
        s'.checkpoints = s.checkpoints ∨
      loadCheckpoint s req.checkpoint.sessionId req.checkpoint.turnId = .ok (some req.checkpoint) ∧
        s'.checkpoints =
          s.checkpoints.delete (ofTurn req.checkpoint.sessionId req.checkpoint.turnId)) := by
  obtain ⟨-, h⟩ := Except.require_bind.1 h
  obtain ⟨⟨⟩, -, h⟩ := Except.bind_eq_ok.1 h
  obtain ⟨current, hload, h⟩ := Except.bind_eq_ok.1 h
  obtain ⟨hcurrent, h⟩ := Except.require_bind.1 h
  obtain ⟨⟨inserted, events⟩, hevents, h⟩ := Except.bind_eq_ok.1 h
  obtain ⟨hall, hkeep⟩ := get?_of_appendEvents hevents
  cases current with
  | none =>
    obtain ⟨-, h⟩ := Except.require_bind.1 h
    obtain rfl := Except.ok.inj h
    exact ⟨hall, hkeep, .inl ⟨hload, rfl⟩⟩
  | some current =>
    obtain ⟨-, h⟩ := Except.require_bind.1 h
    obtain rfl := Except.ok.inj h
    obtain rfl := hcurrent current rfl
    exact ⟨hall, hkeep, .inr ⟨hload, rfl⟩⟩

/-- The request is about another turn. -/
def Elsewhere (c : Checkpoint) (r : Request) : Prop :=
  ¬ (r.checkpoint.sessionId = c.sessionId ∧ r.checkpoint.turnId = c.turnId)

theorem ofTurn_eq_true {sessionId turnId : String} {r : Checkpoint} :
    ofTurn sessionId turnId r = true ↔ (r.sessionId = sessionId ∧ r.turnId = turnId) ∧ r.kind ≠ .recovery := by
  simp [ofTurn]

/-- A request about another turn keeps the events, makes no checkpoint of this turn, and keeps the one that is
there unless it takes its id. -/
theorem Delivered.frame {r : Request} (hr : Elsewhere c r) (h : Delivered waitersOf s r s') :
    (∀ k x, s.events.get? k = some x → s'.events.get? k = some x) ∧
    (∀ x, s'.checkpoints.get? x.checkpointId = some x → ofTurn c.sessionId c.turnId x = true →
      s.checkpoints.get? x.checkpointId = some x) ∧
    (r.checkpoint.checkpointId ≠ c.checkpointId → s.checkpoints.get? c.checkpointId = some c →
      s'.checkpoints.get? c.checkpointId = some c) := by
  rw [Delivered] at h
  cases happly : r.apply waitersOf s with
  | error e =>
    rw [happly] at h
    obtain rfl : s' = s := h
    exact ⟨fun _ _ hx ↦ hx, fun _ hx _ ↦ hx, fun _ hx ↦ hx⟩
  | ok t =>
    rw [happly] at h
    obtain rfl : s' = t := h
    cases r with
    | save req =>
      obtain ⟨-, hkeep, hcheckpoints⟩ := saveWaitCheckpoint_eq_ok happly
      refine ⟨hkeep, fun x hx hturn ↦ ?_, fun hne hc ↦ ?_⟩
      · rcases hcheckpoints with ⟨-, hsame⟩ | ⟨-, -, hget⟩
        · rwa [hsame] at hx
        · rw [hget] at hx
          split at hx
          · obtain rfl := Option.some.inj hx
            exact absurd (ofTurn_eq_true.1 hturn).1 hr
          · exact hx
      · rcases hcheckpoints with ⟨-, hsame⟩ | ⟨-, -, hget⟩
        · rwa [hsame]
        · rw [hget, if_neg (show req.checkpoint.checkpointId ≠ c.checkpointId from hne), hc]
    | consume req =>
      obtain ⟨-, hkeep, hcheckpoints⟩ := consumeWaitCheckpoint_eq_ok happly
      refine ⟨hkeep, fun x hx hturn ↦ ?_, fun hne hc ↦ ?_⟩
      · rcases hcheckpoints with ⟨-, hsame⟩ | ⟨-, hsame⟩
        · rwa [hsame] at hx
        · rw [hsame, Table.get?_delete] at hx
          exact (Option.filter_eq_some_iff.1 hx).1
      · rcases hcheckpoints with ⟨-, hsame⟩ | ⟨-, hsame⟩
        · rwa [hsame]
        · rw [hsame, Table.get?_delete]
          refine Option.filter_eq_some_iff.2 ⟨hc, ?_⟩
          rw [Bool.not_eq_true', Bool.eq_false_iff]
          intro hturn
          obtain ⟨⟨hsession, hturn⟩, -⟩ := ofTurn_eq_true.1 hturn
          exact hr ⟨hsession.symm, hturn.symm⟩

end Requests

section Redelivery

variable {waitersOf : Checkpoint → Except String (List Waiter)} {s s' : State} {c : Checkpoint}

/-- The checkpoint is there with the event of its save, and it is the only one that its turn may have. -/
structure Saved (c : Checkpoint) (e : RuntimeEvent) (s : State) : Prop where
  row : s.checkpoints.get? c.checkpointId = some c
  alone : ∀ r, s.checkpoints.get? r.checkpointId = some r → ofTurn c.sessionId c.turnId r = true → r = c
  event : s.events.get? e.eventId = some e

/-- The turn has no wait checkpoint, and the events are there. -/
structure Consumed (c : Checkpoint) (es : List RuntimeEvent) (s : State) : Prop where
  none : ∀ r, s.checkpoints.get? r.checkpointId = some r → ofTurn c.sessionId c.turnId r = false
  events : ∀ e ∈ es, s.events.get? e.eventId = some e

/-- A request about another turn that does not take the id of the checkpoint. -/
theorem Saved.delivered {e : RuntimeEvent} {r : Request} (hs : Saved c e s)
    (hr : Elsewhere c r ∧ r.checkpoint.checkpointId ≠ c.checkpointId) (h : Delivered waitersOf s r s') :
    Saved c e s' := by
  obtain ⟨hevents, hrows, hkeep⟩ := h.frame hr.1
  exact ⟨hkeep hr.2 hs.row, fun x hx hturn ↦ hs.alone x (hrows x hx hturn) hturn, hevents _ _ hs.event⟩

theorem Consumed.delivered {es : List RuntimeEvent} {r : Request} (hs : Consumed c es s)
    (hr : Elsewhere c r) (h : Delivered waitersOf s r s') : Consumed c es s' := by
  obtain ⟨hevents, hrows, -⟩ := h.frame hr
  refine ⟨fun x hx ↦ ?_, fun e he ↦ hevents _ _ (hs.events e he)⟩
  by_contra hturn
  rw [Bool.not_eq_false] at hturn
  exact absurd (hs.none x (hrows x hx hturn)) (by rw [hturn]; decide)

theorem saved_of_save {req : SaveRequest} (h : saveWaitCheckpoint waitersOf req s = .ok s') :
    Saved req.checkpoint req.event s' := by
  obtain ⟨hevent, -, ⟨hload, hsame⟩ | ⟨hload, -, hget⟩⟩ := saveWaitCheckpoint_eq_ok h
  · obtain ⟨⟨hrow, -⟩, halone⟩ := loadCheckpoint_eq_some.1 hload
    exact ⟨hsame ▸ hrow, fun r hr ↦ halone r (hsame ▸ hr), hevent⟩
  · refine ⟨by rw [hget, if_pos rfl], fun r hr hturn ↦ ?_, hevent⟩
    rw [hget] at hr
    split at hr
    · exact (Option.some.inj hr).symm
    · exact absurd (loadCheckpoint_eq_none.1 hload r hr) (by rw [hturn]; decide)

theorem consumed_of_consume {req : ConsumeRequest} (h : consumeWaitCheckpoint req s = .ok s') :
    Consumed req.checkpoint req.events s' := by
  obtain ⟨hevents, -, ⟨hload, hsame⟩ | ⟨-, hsame⟩⟩ := consumeWaitCheckpoint_eq_ok h
  · exact ⟨fun r hr ↦ loadCheckpoint_eq_none.1 hload r (hsame ▸ hr), hevents⟩
  · refine ⟨fun r hr ↦ ?_, hevents⟩
    rw [hsame, Table.get?_delete] at hr
    simpa using (Option.filter_eq_some_iff.1 hr).2

/-- What the first save has checked about the request holds of it again. -/
theorem Saved.save {req : SaveRequest} {s₀ s₁ : State} (hs : Saved req.checkpoint req.event s)
    (h : saveWaitCheckpoint waitersOf req s₀ = .ok s₁) : saveWaitCheckpoint waitersOf req s = .ok s := by
  have hscope := (Except.require_bind.1 h).1
  have hevent := appendRuntimeEventIdempotent_of_get? hs.event
  have hensure : ∃ existing, loadCheckpoint s req.checkpoint.sessionId req.checkpoint.turnId = .ok existing ∧
      ensureCheckpoint waitersOf s req.checkpoint existing = .ok s := by
    by_cases hkind : req.checkpoint.kind = .recovery
    · -- a recovery checkpoint is not looked at by its turn; it is found by its id
      have hturn : ofTurn req.checkpoint.sessionId req.checkpoint.turnId req.checkpoint = false := by
        simp [ofTurn, hkind]
      refine ⟨none, loadCheckpoint_eq_none.2 fun r hr ↦ ?_, ?_⟩
      · by_contra hr'
        rw [Bool.not_eq_false] at hr'
        rw [hs.alone r hr hr', hturn] at hr'
        cases hr'
      · obtain ⟨-, -, ⟨hload, -⟩ | ⟨-, ⟨ws, hws⟩, -⟩⟩ := saveWaitCheckpoint_eq_ok h
        · rw [(loadCheckpoint_eq_some.1 hload).1.2] at hturn
          cases hturn
        · have hinsert : s.checkpoints.insert? req.checkpoint = none :=
            Table.insert?_eq_none_iff.2 (by rw [hs.row]; rfl)
          rw [ensureCheckpoint, saveCheckpoint, hws, Except.ok_bind, if_pos hkind, hinsert]
          simp only [Except.require_pos hs.row, Except.ok_bind]
          rfl
    · refine ⟨some req.checkpoint, loadCheckpoint_eq_some.2 ⟨⟨hs.row, ?_⟩, hs.alone⟩, ?_⟩
      · exact ofTurn_eq_true.2 ⟨⟨rfl, rfl⟩, hkind⟩
      · rw [ensureCheckpoint, Except.require_pos rfl]
        rfl
  obtain ⟨existing, hload, hensure⟩ := hensure
  rw [saveWaitCheckpoint, Except.require_pos hscope, Except.ok_bind, hload, Except.ok_bind, hensure,
    Except.ok_bind, hevent]
  rfl

theorem Consumed.consume {req : ConsumeRequest} {s₀ s₁ : State} (hs : Consumed req.checkpoint req.events s)
    (h : consumeWaitCheckpoint req s₀ = .ok s₁) : consumeWaitCheckpoint req s = .ok s := by
  obtain ⟨hne, h⟩ := Except.require_bind.1 h
  obtain ⟨⟨⟩, hvalid, -⟩ := Except.bind_eq_ok.1 h
  rw [consumeWaitCheckpoint, Except.require_pos hne, Except.ok_bind, hvalid, Except.ok_bind,
    loadCheckpoint_eq_none.2 hs.none, Except.ok_bind, Except.require_pos (fun c hc ↦ by cases hc),
    Except.ok_bind, appendEvents_of_get? hs.events]
  rfl

theorem Saved.run {e : RuntimeEvent} {l : List Request} (hs : Saved c e s) (h : Run (Delivered waitersOf) s l s')
    (hl : ∀ r ∈ l, Elsewhere c r ∧ r.checkpoint.checkpointId ≠ c.checkpointId) : Saved c e s' := by
  induction h with
  | nil => exact hs
  | snoc _ hstep ih =>
    rw [List.forall_mem_append, List.forall_mem_singleton] at hl
    exact (ih hl.1).delivered hl.2 hstep

theorem Consumed.run {es : List RuntimeEvent} {l : List Request} (hs : Consumed c es s)
    (h : Run (Delivered waitersOf) s l s') (hl : ∀ r ∈ l, Elsewhere c r) : Consumed c es s' := by
  induction h with
  | nil => exact hs
  | snoc _ hstep ih =>
    rw [List.forall_mem_append, List.forall_mem_singleton] at hl
    exact (ih hl.1).delivered hl.2 hstep

/-- Consuming keeps a recovery checkpoint. -/
theorem Saved.consumed {e : RuntimeEvent} {req : ConsumeRequest} (hs : Saved c e s) (hkind : c.kind = .recovery)
    (h : consumeWaitCheckpoint req s = .ok s') : Saved c e s' := by
  obtain ⟨-, hevents, ⟨-, hsame⟩ | ⟨-, hsame⟩⟩ := consumeWaitCheckpoint_eq_ok h
  · exact ⟨hsame ▸ hs.row, fun r hr ↦ hs.alone r (hsame ▸ hr), hevents _ _ hs.event⟩
  · refine ⟨?_, fun r hr ↦ ?_, hevents _ _ hs.event⟩
    · rw [hsame, Table.get?_delete, hs.row]
      simp [ofTurn, hkind]
    · rw [hsame, Table.get?_delete] at hr
      exact hs.alone r (Option.filter_eq_some_iff.1 hr).1

/-- **A request that is delivered again changes nothing**: the save as long as the checkpoint has not been
consumed, and the consumption always. The requests in between are about other turns; while a save may come
again, they do not take the id of its checkpoint. A recovery checkpoint is never consumed, and its save may
come at any time. -/
theorem redelivered (waitersOf : Checkpoint → Except String (List Waiter)) (save : SaveRequest)
    (consume : ConsumeRequest) (hcheckpoint : consume.checkpoint = save.checkpoint) {s₀ s₁ s₂ : State}
    {others : List Request} (hsave : saveWaitCheckpoint waitersOf save s₀ = .ok s₁)
    (hothers : Run (Delivered waitersOf) s₁ others s₂)
    (hother : ∀ r ∈ others, Elsewhere save.checkpoint r ∧
      r.checkpoint.checkpointId ≠ save.checkpoint.checkpointId) :
    saveWaitCheckpoint waitersOf save s₂ = .ok s₂ ∧
    ∀ s₃ later s₄, consumeWaitCheckpoint consume s₂ = .ok s₃ → Run (Delivered waitersOf) s₃ later s₄ →
      (∀ r ∈ later, Elsewhere save.checkpoint r) →
      consumeWaitCheckpoint consume s₄ = .ok s₄ ∧
      (save.checkpoint.kind = .recovery →
        (∀ r ∈ later, r.checkpoint.checkpointId ≠ save.checkpoint.checkpointId) →
        saveWaitCheckpoint waitersOf save s₄ = .ok s₄) := by
  have hsaved := (saved_of_save hsave).run hothers hother
  refine ⟨hsaved.save hsave, fun s₃ later s₄ hconsume hlater helse ↦ ⟨?_, fun hkind hids ↦ ?_⟩⟩
  · exact ((consumed_of_consume hconsume).run hlater (hcheckpoint ▸ helse)).consume hconsume
  · exact ((hsaved.consumed hkind hconsume).run hlater fun r hr ↦ ⟨helse r hr, hids r hr⟩).save hsave

end Redelivery

/-! ### A turn that waits -/

/-- A checkpoint of a turn that waits for a job. -/
def waitingCheckpoint : Checkpoint :=
  ⟨"checkpoint", .wait, "session", "turn", "waiting", some "runtime_job", 0, "\x7b\x7d"⟩

/-- Its save. -/
def waitingSave : SaveRequest :=
  ⟨waitingCheckpoint, ⟨"saved", "session", some "turn", "wait_saved", 0, .internal, "\x7b\x7d"⟩⟩

/-- Its consumption. -/
def waitingConsume : ConsumeRequest :=
  ⟨waitingCheckpoint, [⟨"consumed", "session", some "turn", "wait_consumed", 1, .internal, "\x7b\x7d"⟩]⟩

/-- No checkpoint has waiters. -/
def noWaiters : Checkpoint → Except String (List Waiter) := fun _ ↦ .ok []

/-- The store with nothing in it. -/
def State.empty : State := ⟨.empty, .empty, .empty⟩

/-- The store after the save. -/
def savedState : State where
  checkpoints := Table.empty.insertIgnore waitingCheckpoint
  events := Table.empty.insertIgnore waitingSave.event
  waiters := .empty

theorem redelivered_waiting :
    saveWaitCheckpoint noWaiters waitingSave State.empty = .ok savedState ∧
    saveWaitCheckpoint noWaiters waitingSave savedState = .ok savedState ∧
    ∀ s₃ later s₄, consumeWaitCheckpoint waitingConsume savedState = .ok s₃ →
      Run (Delivered noWaiters) s₃ later s₄ → (∀ r ∈ later, Elsewhere waitingCheckpoint r) →
      consumeWaitCheckpoint waitingConsume s₄ = .ok s₄ ∧
      (waitingCheckpoint.kind = .recovery →
        (∀ r ∈ later, r.checkpoint.checkpointId ≠ waitingCheckpoint.checkpointId) →
        saveWaitCheckpoint noWaiters waitingSave s₄ = .ok s₄) :=
  have hsave : saveWaitCheckpoint noWaiters waitingSave State.empty = .ok savedState := by decide +kernel
  ⟨hsave, redelivered noWaiters waitingSave waitingConsume rfl hsave .nil
    fun _ hr ↦ absurd hr List.not_mem_nil⟩

/-- The store after the consumption: the events are there, and no checkpoint. -/
def consumedState : State where
  checkpoints := .empty
  events := waitingConsume.events.foldl Table.insertIgnore savedState.events
  waiters := .empty

/-- Saved, consumed and saved again: every request is accepted, and the turn waits once more. -/
theorem save_recreates :
    saveWaitCheckpoint noWaiters waitingSave State.empty = .ok savedState ∧
    consumeWaitCheckpoint waitingConsume savedState = .ok consumedState ∧
    consumedState.checkpoints.rows = [] ∧
    saveWaitCheckpoint noWaiters waitingSave consumedState =
      .ok { consumedState with
        checkpoints := savedState.checkpoints } ∧
    savedState.checkpoints.rows = [waitingCheckpoint] := by
  decide +kernel

end Centaeris.Waiting
