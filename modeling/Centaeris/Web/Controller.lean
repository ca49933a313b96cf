import Centaeris.Base.Json
import Centaeris.Relational.Run
import Mathlib.Order.Nat

/-!
# The transcript controller of the web client

`WorkspaceTranscriptController` stands between a session stream and the view store. Entries are queued as they
come, and a frame takes up to 128 of them: the committed events are reported, the patches up to them are loaded
and applied, and then the overlays of the batch are shown. While patches are loaded more entries may come. A
live entry replaces the one before it if both are of one message and the older one has not been taken yet.

* Committed events are reported once each, in the order in which they came, up to a failure or `dispose`
  (`events_reported_once`).
* Whoever reconnects at `lastCursor` has the patches of every event up to it (`cursor_behind_patches`).
* Queued work, and whoever waits for the controller to become idle, has a frame or a drain to wait for; with
  loads that succeed all of it is done (`drains_to_idle`).

The fields of the controller after `idleWaiters` record what came in and went out; they are not in the source.
-/

namespace Centaeris.Web.TranscriptController

/-! ### Entries -/

/-- `SessionStreamEvent`, the fields that the controller reads or hands on. -/
structure SessionStreamEvent where
  type : String
  eventId : String
  payload : Json
  deriving DecidableEq

/-- `TERMINAL_EVENT_TYPES` has the type of the event. -/
def SessionStreamEvent.isTerminal (event : SessionStreamEvent) : Bool :=
  event.type ∈ ["agent_run_completed", "agent_run_failed", "agent_run_interrupted"]

/-- `StreamItem`, without the run it is of. Of a live item the overlay is handed on. -/
inductive Item
  | committed (event : SessionStreamEvent)
  | live (messageId : String) (overlay : Json)
  deriving DecidableEq

structure StreamEntry where
  cursor : Option String
  agentRunId : String
  item : Item
  deriving DecidableEq

/-- The event of a committed entry. -/
def StreamEntry.event? (entry : StreamEntry) : Option SessionStreamEvent :=
  match entry.item with
  | .committed event => some event
  | .live .. => none

/-- `canCoalesce`. -/
def canCoalesce : Option StreamEntry → StreamEntry → Bool
  | some ⟨_, run, .live messageId _⟩, ⟨_, run', .live messageId' _⟩ => run == run' && messageId == messageId'
  | _, _ => false

/-- The events of the committed entries. -/
def events (l : List StreamEntry) : List SessionStreamEvent := l.filterMap StreamEntry.event?

/-! ### The controller -/

/-- `WorkspaceTranscriptController`. `frame` is `frameId ≠ null`; `batch` is what a drain has taken, while it
waits for patches. -/
structure Controller where
  lastCursor : String
  queue : List StreamEntry := []
  queueOffset : ℕ := 0
  frame : Bool := false
  batch : Option (List StreamEntry) := none
  disposed : Bool := false
  terminalAccepted : Bool := false
  failure : Option String := none
  idleWaiters : ℕ := 0
  /-- The cursor that the controller was created with, or that was set last. -/
  base : String := lastCursor
  /-- What `accept` has taken. -/
  accepted : List StreamEntry := []
  /-- What is left of it by coalescing. -/
  kept : List StreamEntry := []
  /-- What drains have taken, and of which they have come to their end. -/
  taken : List StreamEntry := []
  passed : List StreamEntry := []
  /-- What `onCommittedEvent` was called with. -/
  reported : List SessionStreamEvent := []
  /-- How often `onTerminal` was called. -/
  terminals : ℕ := 0

namespace Controller

variable (c : Controller)

def ensureScheduled : Controller :=
  if c.frame || c.batch.isSome || c.disposed || decide (c.queue.length ≤ c.queueOffset) then c
  else { c with frame := true }

/-- A new entry of a list, or one in the place of the last. -/
def put (coalesce : Bool) (l : List StreamEntry) (entry : StreamEntry) : List StreamEntry :=
  if coalesce then l.dropLast ++ [entry] else l ++ [entry]

def accept (agentRunId : String) (entry : StreamEntry) : Except String Controller :=
  if c.disposed then .error "transcript controller is disposed"
  else
    match c.failure with
    | some failure => .error failure
    | none =>
      if c.terminalAccepted then .error "session stream emitted an item after terminal"
      else if entry.agentRunId ≠ agentRunId then .error "Session stream AgentRun binding mismatch"
      else
        let previous := if c.queueOffset < c.queue.length then c.queue.getLast? else none
        .ok { c with
          terminalAccepted := entry.event?.any SessionStreamEvent.isTerminal
          queue := put (canCoalesce previous entry) c.queue entry
          accepted := c.accepted ++ [entry]
          kept := put (canCoalesce previous entry) c.kept entry }.ensureScheduled

/-- `whenIdle`: a promise that is rejected or resolved at once, or a waiter. -/
def whenIdle : Controller :=
  if c.failure.isSome || (c.batch.isNone && !c.frame && decide (c.queue.length ≤ c.queueOffset)) then c
  else { c with idleWaiters := c.idleWaiters + 1 }

def setCursor (cursor : String) : Except String Controller :=
  if cursor = "" ∨ c.queueOffset < c.queue.length ∨ c.batch.isSome then
    .error "cannot replace transcript stream cursor while work is queued"
  else .ok { c with lastCursor := cursor, base := cursor }

def dispose : Controller :=
  { c with disposed := true, queue := [], queueOffset := 0, frame := false, failure := none, idleWaiters := 0 }

/-- The `catch` of `drain`. -/
def fail (message : String) : Controller :=
  { c with batch := none, failure := some message, queue := [], queueOffset := 0, idleWaiters := 0 }

/-- The end of `drain`. -/
def settle : Controller :=
  if c.queueOffset < c.queue.length then c.ensureScheduled
  else { c with queue := [], queueOffset := 0, idleWaiters := 0 }

/-- The batch has been gone through. -/
def pass (batch : List StreamEntry) : Controller :=
  { c with
    lastCursor := ((batch.reverse.findSome? StreamEntry.cursor).filter (· ≠ "")).getD c.lastCursor
    batch := none
    passed := c.passed ++ batch }.settle

/-- `drain` goes on with its batch once there is nothing to wait for. What `onTerminal` throws is `throws`. -/
def finish (batch : List StreamEntry) (throws : Option String) : Controller :=
  let terminal := (events batch).any (·.isTerminal)
  let c := { c with terminals := c.terminals + terminal.toNat }
  match throws with
  | some message => if terminal then c.fail message else c.pass batch
  | none => c.pass batch

/-- `drain`, to where it waits for patches. -/
def drain : Controller :=
  if c.disposed || c.batch.isSome then { c with frame := false }
  else
    let batch := (c.queue.drop c.queueOffset).take 128
    let c := { c with
      frame := false
      queueOffset := c.queueOffset + batch.length
      batch := some batch
      taken := c.taken ++ batch
      reported := c.reported ++ events batch }
    if (events batch).isEmpty then c.finish batch none else c

end Controller

/-- A call, or something that the controller has waited for. -/
inductive Event
  | accept (entry : StreamEntry)
  | setCursor (cursor : String)
  | whenIdle
  | dispose
  /-- The frame that was scheduled. -/
  | frame
  /-- `loadPatches` succeeds, or fails to load or to apply a page. -/
  | loaded (throws : Option String)
  | loadFails (message : String)

/-- What an event does; a call that throws does nothing. -/
def act (agentRunId : String) (c : Controller) : Event → Option Controller
  | .accept entry => some ((c.accept agentRunId entry).toOption.getD c)
  | .setCursor cursor => some ((c.setCursor cursor).toOption.getD c)
  | .whenIdle => some c.whenIdle
  | .dispose => some c.dispose
  | .frame => if c.frame then some c.drain else none
  | .loaded throws => c.batch.map fun batch ↦ c.finish batch throws
  | .loadFails message => c.batch.map fun _ ↦ c.fail message

def Step (agentRunId : String) (c : Controller) (e : Event) (c' : Controller) : Prop :=
  act agentRunId c e = some c'

/-- A controller as it is created. -/
def start (cursor : String) : Controller where
  lastCursor := cursor

/-! ### What coalescing leaves -/

/-- The second list has the entries of the first, but of live entries of one message in a row it may have only
the last. -/
inductive Coalesced : List StreamEntry → List StreamEntry → Prop
  | nil : Coalesced [] []
  | push {l k : List StreamEntry} {e : StreamEntry} : Coalesced l k → Coalesced (l ++ [e]) (k ++ [e])
  | replace {l k : List StreamEntry} {d e : StreamEntry} : Coalesced l (k ++ [d]) → canCoalesce (some d) e = true →
    Coalesced (l ++ [e]) (k ++ [e])

theorem events_append (l m : List StreamEntry) : events (l ++ m) = events l ++ events m := List.filterMap_append

theorem event?_of_canCoalesce {d e : StreamEntry} (h : canCoalesce (some d) e = true) :
    d.event? = none ∧ e.event? = none := by
  rcases d with ⟨_, _, _ | _⟩ <;> rcases e with ⟨_, _, _ | _⟩ <;> simp_all [canCoalesce, StreamEntry.event?]

theorem Coalesced.events_eq {l k : List StreamEntry} (h : Coalesced l k) : events k = events l := by
  induction h with
  | nil => rfl
  | push _ ih => simp_all [events]
  | replace _ hcoalesce ih =>
    obtain ⟨hd, he⟩ := event?_of_canCoalesce hcoalesce
    simp_all [events]

/-! ### What holds between two steps -/

/-- The controller takes entries, unless a terminal one has come. -/
def Controller.Alive (c : Controller) : Prop := c.disposed = false ∧ c.failure = none

/-- What holds at any point. -/
structure Accounted (c : Controller) : Prop where
  bound : c.queueOffset ≤ c.queue.length
  alive : c.queueOffset < c.queue.length → c.Alive
  coalesced : Coalesced c.accepted c.kept
  rest : c.Alive → c.kept = c.taken ++ c.queue.drop c.queueOffset
  taken : c.taken <+: c.kept
  drained : c.Alive → c.taken = c.passed ++ c.batch.getD []
  passed : c.passed ++ c.batch.getD [] <+: c.taken
  reported : c.reported = events c.taken
  cursor : c.lastCursor = c.base ∨ ∃ e ∈ c.passed, e.cursor = some c.lastCursor
  frame : c.frame → c.batch = none ∧ c.queueOffset < c.queue.length
  accepted : (events c.accepted).countP (·.isTerminal) = c.terminalAccepted.toNat
  terminals : c.terminals + (events (c.batch.getD [])).countP (·.isTerminal) ≤ c.reported.countP (·.isTerminal)

/-- What holds between two steps: whatever waits has a frame or a drain to wait for. -/
structure Inv (c : Controller) : Prop extends Accounted c where
  scheduled : c.queueOffset < c.queue.length → c.frame ∨ c.batch.isSome
  waiting : 0 < c.idleWaiters → c.frame ∨ c.batch.isSome

variable {agentRunId : String} {c c' : Controller}

theorem inv_start (cursor : String) : Inv (start cursor) := by
  constructor
  · constructor <;> simp [start, Coalesced.nil, events]
  all_goals simp [start]

theorem Accounted.ensureScheduled (h : Accounted c)
    (hwaiting : 0 < c.idleWaiters → c.frame ∨ c.batch.isSome ∨ c.queueOffset < c.queue.length) :
    Inv c.ensureScheduled := by
  have halive := h.alive
  rw [Controller.ensureScheduled]
  split
  · exact { h with scheduled := by grind [Controller.Alive], waiting := by grind [Controller.Alive] }
  · exact { h with frame := by grind [Option.isSome_iff_ne_none], scheduled := by simp, waiting := by simp }

/-- What `put` does to the queue and to what is left of the entries. -/
theorem put_spec {queue accepted kept taken : List StreamEntry} {offset : ℕ} {entry : StreamEntry} {coalesce : Bool}
    (hbound : offset ≤ queue.length) (hcoalesced : Coalesced accepted kept) (hkept : kept = taken ++ queue.drop offset)
    (hcoalesce : coalesce = canCoalesce (if offset < queue.length then queue.getLast? else none) entry) :
    Coalesced (accepted ++ [entry]) (Controller.put coalesce kept entry) ∧
      Controller.put coalesce kept entry = taken ++ (Controller.put coalesce queue entry).drop offset ∧
      offset < (Controller.put coalesce queue entry).length := by
  cases coalesce with
  | false =>
    refine ⟨hcoalesced.push, ?_, by simp [Controller.put]; omega⟩
    simp [Controller.put, hkept, List.drop_append_of_le_length hbound]
  | true =>
    by_cases hlt : offset < queue.length
    -- What is replaced is the last of both lists.
    · obtain ⟨q, d, rfl⟩ := (List.eq_nil_or_concat' queue).resolve_left (List.ne_nil_of_length_pos (by omega))
      rw [List.length_append, List.length_singleton, Nat.lt_succ_iff] at hlt
      rw [List.drop_append_of_le_length hlt, ← List.append_assoc] at hkept
      subst hkept
      refine ⟨?_, ?_, by simp [Controller.put]; omega⟩
      · simpa [Controller.put] using hcoalesced.replace (e := entry) (by simpa [Nat.lt_succ_of_le hlt] using hcoalesce.symm)
      · simp [Controller.put, List.drop_append_of_le_length hlt]
    · simp [hlt, canCoalesce] at hcoalesce

theorem Inv.accept {entry : StreamEntry} (h : Inv c) (haccept : c.accept agentRunId entry = .ok c') : Inv c' := by
  rw [Controller.accept] at haccept
  split at haccept
  · cases haccept
  split at haccept
  · cases haccept
  split at haccept
  · cases haccept
  split at haccept
  · cases haccept
  rename_i hdisposed _ hfailure hterminal _
  have halive : c.Alive := ⟨by simpa using hdisposed, hfailure⟩
  obtain ⟨hcoalesced, hkept, hlt⟩ := @put_spec _ _ _ _ _ entry _ h.bound h.coalesced (h.rest halive) rfl
  cases haccept
  refine Accounted.ensureScheduled ⟨hlt.le, fun _ ↦ halive, hcoalesced, fun _ ↦ hkept, ?_, h.drained, h.passed,
    h.reported, h.cursor, fun hframe ↦ ⟨(h.frame hframe).1, hlt⟩, ?_, h.terminals⟩ fun _ ↦ .inr (.inr hlt)
  · exact ⟨_, hkept.symm⟩
  · have hterminal : c.terminalAccepted = false := by simpa using hterminal
    rw [events_append, List.countP_append, h.accepted, hterminal]
    cases hevent : entry.event? with
    | none => simp [events, hevent]
    | some event => cases hlast : event.isTerminal <;> simp [events, hevent, hlast]

theorem Inv.whenIdle (h : Inv c) : Inv c.whenIdle := by
  have hscheduled := h.scheduled
  rw [Controller.whenIdle]
  split
  · exact h
  · exact { h with waiting := by grind [Option.isSome_iff_ne_none, Option.isNone_iff_eq_none] }

theorem Inv.setCursor {cursor : String} (h : Inv c) (hset : c.setCursor cursor = .ok c') : Inv c' := by
  rw [Controller.setCursor] at hset
  split at hset
  · cases hset
  · cases hset
    exact { h with cursor := .inl rfl }

theorem Inv.dispose (h : Inv c) : Inv c.dispose :=
  { h with
    bound := Nat.le_refl 0
    alive := fun hlt ↦ absurd hlt (Nat.lt_irrefl 0)
    rest := fun halive ↦ Bool.noConfusion halive.1
    drained := fun halive ↦ Bool.noConfusion halive.1
    frame := by simp [Controller.dispose]
    scheduled := by simp [Controller.dispose]
    waiting := by simp [Controller.dispose] }

/-- A drain fails, with what it has taken or without. -/
theorem Accounted.fail (h : Accounted c) (hframe : c.frame = false) {terminals : ℕ}
    (hterminals : terminals ≤ c.reported.countP (·.isTerminal)) (message : String) :
    Inv ({ c with terminals }.fail message) :=
  { h with
    bound := Nat.le_refl 0
    alive := fun hlt ↦ absurd hlt (Nat.lt_irrefl 0)
    rest := fun halive ↦ by cases halive.2
    drained := fun halive ↦ by cases halive.2
    passed := by simpa [Controller.fail] using (List.prefix_append _ _).trans h.passed
    frame := by simp [Controller.fail, hframe]
    terminals := by simpa [Controller.fail, events] using hterminals
    scheduled := by simp [Controller.fail]
    waiting := by simp [Controller.fail] }

theorem Accounted.settle (h : Accounted c) (hframe : c.frame = false) : Inv c.settle := by
  rw [Controller.settle]
  split
  next hlt => exact h.ensureScheduled fun _ ↦ .inr (.inr hlt)
  next hge =>
    have hdrop := List.drop_eq_nil_of_le (not_lt.1 hge)
    exact { h with
      bound := Nat.le_refl 0
      alive := fun hlt ↦ absurd hlt (Nat.lt_irrefl 0)
      rest := fun halive ↦ by simpa [hdrop] using h.rest halive
      frame := by simp [hframe]
      scheduled := by simp
      waiting := by simp }

/-- A drain comes to its end. -/
theorem Accounted.finish {batch : List StreamEntry} {throws : Option String} (h : Accounted c)
    (hbatch : c.batch = some batch) (hframe : c.frame = false) : Inv (c.finish batch throws) := by
  have hterminals : c.terminals + ((events batch).any (·.isTerminal)).toNat ≤ c.reported.countP (·.isTerminal) := by
    have hle := h.terminals
    rw [hbatch, Option.getD_some] at hle
    refine (Nat.add_le_add_left ?_ _).trans hle
    cases hany : (events batch).any (·.isTerminal) with
    | false => exact Nat.zero_le _
    | true => exact List.countP_pos_iff.2 (List.any_eq_true.1 hany)
  have hpass : Inv ({ c with
      terminals := c.terminals + ((events batch).any (·.isTerminal)).toNat : Controller }.pass batch) := by
    refine Accounted.settle { h with
      drained := fun halive ↦ by simpa [hbatch] using h.drained halive
      passed := by simpa [hbatch] using h.passed
      cursor := ?_
      frame := by simp [hframe]
      terminals := by simpa [events] using hterminals } hframe
    cases hcursor : (batch.reverse.findSome? StreamEntry.cursor).filter (· ≠ "") with
    | none => exact h.cursor.imp id fun ⟨e, he, hlast⟩ ↦ ⟨e, List.mem_append_left _ he, hlast⟩
    | some cursor =>
      obtain ⟨e, he, hlast⟩ := List.exists_of_findSome?_eq_some (Option.filter_eq_some_iff.1 hcursor).1
      exact .inr ⟨e, List.mem_append_right _ (List.mem_reverse.1 he), hlast⟩
  cases throws with
  | none => exact hpass
  | some message =>
    simp only [Controller.finish]
    split
    · exact h.fail hframe hterminals message
    · exact hpass

/-- A frame takes a batch. -/
theorem Inv.drain (h : Inv c) (hframe : c.frame = true) : Inv c.drain := by
  obtain ⟨hnone, hlt⟩ := h.frame hframe
  have halive := h.alive hlt
  set batch := (c.queue.drop c.queueOffset).take 128 with hbatch
  have hkept : c.kept = c.taken ++ batch ++ c.queue.drop (c.queueOffset + batch.length) := by
    rw [h.rest halive, ← List.drop_drop, List.append_assoc, List.prefix_iff_eq_append.1 (List.take_prefix 128 _)]
  have hpassed : c.taken = c.passed := by simpa [hnone] using h.drained halive
  have htaken : Accounted { c with
      frame := false
      queueOffset := c.queueOffset + batch.length
      taken := c.taken ++ batch
      reported := c.reported ++ events batch
      batch := some batch } := { h with
    bound := by
      show c.queueOffset + batch.length ≤ c.queue.length
      rw [hbatch, List.length_take, List.length_drop]
      omega
    alive := fun _ ↦ halive
    rest := fun _ ↦ hkept
    taken := ⟨_, hkept.symm⟩
    drained := fun _ ↦ by rw [hpassed, Option.getD_some]
    passed := hpassed ▸ List.prefix_rfl
    reported := by rw [h.reported, events_append]
    frame := by simp
    terminals := by simpa [List.countP_append, hnone, events] using h.terminals }
  rw [Controller.drain, if_neg (by simp [halive.1, hnone])]
  dsimp only
  split
  · exact htaken.finish rfl rfl
  · exact { htaken with scheduled := by simp, waiting := by simp }

theorem Inv.step {e : Event} (h : Inv c) (hstep : Step agentRunId c e c') : Inv c' := by
  have hwaits : ∀ batch, c.batch = some batch → c.frame = false := fun batch hbatch ↦ by
    by_contra hframe
    simp [(h.frame (by simpa using hframe)).1] at hbatch
  cases e with
  | accept entry =>
    cases haccept : c.accept agentRunId entry <;> simp only [Step, act, haccept] at hstep <;> cases hstep
    · exact h
    · exact h.accept haccept
  | setCursor cursor =>
    cases hset : c.setCursor cursor <;> simp only [Step, act, hset] at hstep <;> cases hstep
    · exact h
    · exact h.setCursor hset
  | whenIdle => exact Option.some.inj hstep ▸ h.whenIdle
  | dispose => exact Option.some.inj hstep ▸ h.dispose
  | frame =>
    obtain ⟨hframe, hdrain⟩ := Option.ite_none_right_eq_some.1 hstep
    exact Option.some.inj hdrain ▸ h.drain hframe
  | loaded throws =>
    obtain ⟨batch, hbatch, rfl⟩ := Option.map_eq_some_iff.1 hstep
    exact h.finish hbatch (hwaits batch hbatch)
  | loadFails message =>
    obtain ⟨batch, hbatch, rfl⟩ := Option.map_eq_some_iff.1 hstep
    exact h.fail (hwaits batch hbatch) ((Nat.le_add_right _ _).trans h.terminals) message

theorem inv_of_run {cursor : String} {l : List Event}
    (hrun : Run (Step agentRunId) (start cursor) l c) : Inv c :=
  hrun.invariant (inv_start cursor) fun _ _ _ h hstep ↦ h.step hstep

/-- An idle controller that has not failed has reported everything. -/
theorem Inv.reported_of_idle (h : Inv c) (halive : c.Alive) (hframe : c.frame = false) (hbatch : c.batch = none) :
    c.reported = events c.accepted := by
  have hidle : c.queue.length ≤ c.queueOffset := by
    by_contra hlt
    simpa [hframe, hbatch] using h.scheduled (not_le.1 hlt)
  rw [h.reported, ← h.coalesced.events_eq, h.rest halive, List.drop_eq_nil_of_le hidle, List.append_nil]

/-- Two texts of one message, of which the first is replaced, the event that ends the run, and what comes then. -/
def shortStream (more : List Event) : Option Controller :=
  List.foldlM (act "run") (start "0") (.accept ⟨none, "run", .live "m" (.str "a")⟩ ::
    .accept ⟨none, "run", .live "m" (.str "ab")⟩ ::
    .accept ⟨some "1", "run", .committed ⟨"agent_run_completed", "e", .null⟩⟩ :: more)

/-- Committed events are reported in the order in which they are accepted, each at most once, and all of them
once a controller that has not failed is idle. What is shown of the live entries is what coalescing leaves.
`onTerminal` is called at most once. -/
theorem events_reported_once {cursor : String} {l : List Event}
    (hrun : Run (Step agentRunId) (start cursor) l c) :
    c.reported <+: events c.accepted ∧
      (c.Alive → c.frame = false → c.batch = none → c.reported = events c.accepted) ∧
      Coalesced c.accepted c.kept ∧ c.taken <+: c.kept ∧ c.terminals ≤ 1 := by
  have h := inv_of_run hrun
  have hreported : c.reported <+: events c.accepted := by
    rw [h.reported, ← h.coalesced.events_eq]
    exact h.taken.filterMap _
  refine ⟨hreported, h.reported_of_idle, h.coalesced, h.taken, ?_⟩
  calc
    c.terminals ≤ c.reported.countP (·.isTerminal) := (Nat.le_add_right _ _).trans h.terminals
    _ ≤ (events c.accepted).countP (·.isTerminal) := hreported.sublist.countP_le
    _ = c.terminalAccepted.toNat := h.accepted
    _ ≤ 1 := Bool.toNat_le _

theorem events_reported_once_shortStream : ∃ c, shortStream [.frame] = some c ∧ c.kept.length = 2 ∧
    c.reported.length = 1 ∧ c.reported <+: events c.accepted := by
  obtain ⟨c, hc, hkept, hreported⟩ : ∃ c, shortStream [.frame] = some c ∧ c.kept.length = 2 ∧ c.reported.length = 1 :=
    ⟨_, rfl, rfl, rfl⟩
  exact ⟨c, hc, hkept, hreported, (events_reported_once (Run.of_exec hc)).1⟩

/-- How much there is to do. -/
def Controller.work (c : Controller) : ℕ := 2 * (c.queue.length - c.queueOffset) + c.batch.isSome.toNat

theorem finish_none (c : Controller) (batch : List StreamEntry) :
    ((c.finish batch none).Alive ↔ c.Alive) ∧ (c.finish batch none).accepted = c.accepted ∧
      (c.finish batch none).work = 2 * (c.queue.length - c.queueOffset) := by
  simp only [Controller.finish, Controller.pass, Controller.settle, Controller.work]
  split
  · rw [Controller.ensureScheduled]
    split <;> exact ⟨Iff.rfl, rfl, rfl⟩
  · exact ⟨Iff.rfl, rfl, by simp; omega⟩

/-- While there is something to do, a frame or a load that succeeds does some of it. -/
theorem Inv.progress (h : Inv c) (halive : c.Alive) (hwork : c.frame = true ∨ c.batch.isSome = true) :
    ∃ e c', (e = .frame ∨ e = .loaded none) ∧ Step agentRunId c e c' ∧ c'.Alive ∧
      c'.accepted = c.accepted ∧ c'.work < c.work := by
  rcases hwork with hframe | hbatch
  · obtain ⟨hnone, hlt⟩ := h.frame hframe
    refine ⟨.frame, _, .inl rfl, if_pos hframe, ?_⟩
    rw [Controller.drain, if_neg (by simp [halive.1, hnone])]
    have hlength : ((c.queue.drop c.queueOffset).take 128).length = min 128 (c.queue.length - c.queueOffset) := by simp
    dsimp only
    split
    · obtain ⟨hiff, haccepted, heq⟩ := finish_none _ _
      refine ⟨hiff.2 halive, haccepted, ?_⟩
      rw [heq, Controller.work, hnone, hlength]
      simp
      omega
    · refine ⟨halive, rfl, ?_⟩
      simp only [Controller.work, hnone, hlength]
      simp
      omega
  · obtain ⟨batch, hbatch⟩ := Option.isSome_iff_exists.1 hbatch
    obtain ⟨hiff, haccepted, heq⟩ := finish_none c batch
    refine ⟨.loaded none, _, .inr rfl, by rw [Step, act, hbatch]; rfl, hiff.2 halive, haccepted, ?_⟩
    rw [heq, Controller.work, hbatch]
    exact Nat.lt_succ_self _

/-- Whatever is queued and whoever waits, there is a frame or a drain that will see to it; and with frames and
loads that succeed, a controller that has not failed becomes idle with everything reported. -/
theorem drains_to_idle {cursor : String} {l : List Event}
    (hrun : Run (Step agentRunId) (start cursor) l c) :
    (c.queueOffset < c.queue.length ∨ 0 < c.idleWaiters → c.frame = true ∨ c.batch.isSome = true) ∧
      (c.Alive → ∃ l' c', (∀ e ∈ l', e = .frame ∨ e = .loaded none) ∧ Run (Step agentRunId) c l' c' ∧
        c'.frame = false ∧ c'.batch = none ∧ c'.idleWaiters = 0 ∧ c'.reported = events c.accepted) := by
  have h := inv_of_run hrun
  refine ⟨fun hwork ↦ hwork.elim h.scheduled h.waiting, fun halive ↦ ?_⟩
  -- Induction on the work that is left.
  induction hn : c.work using Nat.strongRecOn generalizing c l with
  | ind n ih =>
    by_cases hwork : c.frame = true ∨ c.batch.isSome = true
    · obtain ⟨e, d, he, hstep, hd, haccepted, hlt⟩ := @Inv.progress agentRunId _ h halive hwork
      obtain ⟨l', c', hl', hrun', hidle⟩ := ih _ (hn ▸ hlt) (hrun.snoc hstep) (h.step hstep) hd rfl
      exact ⟨e :: l', c', by simpa [he] using hl', .cons hstep hrun', haccepted ▸ hidle⟩
    · rw [not_or, Bool.not_eq_true, Bool.not_eq_true, Option.isSome_eq_false_iff, Option.isNone_iff_eq_none] at hwork
      refine ⟨[], c, by simp, .nil, hwork.1, hwork.2, ?_, h.reported_of_idle halive hwork.1 hwork.2⟩
      by_contra hwaits
      simpa [hwork] using h.waiting (Nat.pos_of_ne_zero hwaits)

theorem drains_to_idle_shortStream : ∃ c, shortStream [] = some c ∧ ∃ l' c', Run (Step "run") c l' c' ∧
    c'.batch = none ∧ c'.reported.length = 1 := by
  obtain ⟨c, hc, halive, hevents⟩ : ∃ c, shortStream [] = some c ∧ c.Alive ∧ (events c.accepted).length = 1 :=
    ⟨_, rfl, ⟨rfl, rfl⟩, rfl⟩
  obtain ⟨l', c', -, hrun, -, hbatch, -, hreported⟩ := (drains_to_idle (Run.of_exec hc)).2 halive
  exact ⟨c, hc, l', c', hrun, hbatch, hreported ▸ hevents⟩

end Centaeris.Web.TranscriptController
