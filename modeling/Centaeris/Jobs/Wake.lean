import Centaeris.Jobs.Retry

/-!
# No wake is lost

A job that waits for another is woken when the other ends. The wake may find it queued, running or
ended, and a running job may yield, lose its lease and be claimed again before it notices. The
store keeps a wake as an event; a wake is *pending* while no event has consumed it, and the next
yield that takes effect consumes every pending wake and makes the job runnable at once.

* `EventStep` says what a call can do to the event table; `EventForm` says what the events of the
  protocol look like, so that an event id determines the kind of its event.
* `pending_of_run`: a pending wake of a job stays pending until a yield of that job takes effect.
* `no_wake_lost` is the guarantee as a whole, together with the repeatability of
  `wakeLifecycleWaiter`.
-/

namespace Centaeris.Jobs

open Machine

/-! ### Event ids -/

/-- The text before the job in the id of a yield event. -/
def yieldIdPrefix : String := "runtime_job_yield:"

theorem consumedEventId_append (rest : String) :
    consumedEventId (wakeIdPrefix ++ rest) = wakeConsumedIdPrefix ++ rest := by
  refine String.toList_injective ?_
  simp only [consumedEventId, wakeIdPrefix, wakeConsumedIdPrefix, String.toList_append,
    String.toList_ofList]
  simp [replaceFirst]

theorem queriedConsumedId_append (rest : String) :
    queriedConsumedId (wakeIdPrefix ++ rest) = wakeConsumedIdPrefix ++ rest := by
  have hlen : wakeIdPrefix.length = wakeIdPrefix.toList.length := rfl
  simp [queriedConsumedId, String.toList_append, hlen]

theorem wakeId_ne_consumedId (a b : String) : wakeIdPrefix ++ a ≠ wakeConsumedIdPrefix ++ b :=
  fun h ↦ by simpa [wakeIdPrefix, wakeConsumedIdPrefix] using congrArg String.toList h

theorem yieldId_ne_consumedId (a b : String) : yieldIdPrefix ++ a ≠ wakeConsumedIdPrefix ++ b :=
  fun h ↦ by simpa [yieldIdPrefix, wakeConsumedIdPrefix] using congrArg String.toList h

/-! ### What a call can do to the events -/

theorem consumeWakes_rows {s s' : JobStore} {session : String} {r : YieldRuntimeJobRequest}
    {wakeIds : List String} (h : consumeWakes session r s wakeIds = .ok s') :
    s'.runtimeEvents.rows = s.runtimeEvents.rows ++ wakeIds.map (consumedEvent session r) := by
  induction wakeIds generalizing s with
  | nil => cases h; simp
  | cons w wakeIds ih =>
    rw [consumeWakes, List.foldlM_cons] at h
    obtain ⟨s₁, h₁, h₂⟩ := Except.bind_eq_ok.1 h
    obtain ⟨events, hins, rfl⟩ := insertEvent_ok h₁
    rw [ih h₂, (Table.insert?_eq_some_iff.1 hins).2]
    simp

/-- The events a yield that takes effect inserts: its own, and one for every pending wake. -/
def yieldEvents (s : JobStore) (r : YieldRuntimeJobRequest) (j : RuntimeJobRecord) :
    List RuntimeEvent :=
  yieldEvent r j :: (pendingWakes s r.jobId).map fun w ↦ consumedEvent (eventSession j) r w.eventId

/-- The ways in which a call changes the event table. -/
inductive EventStep (op : JobOp) (s s' : JobStore) : Prop
  | same (hevents : s'.runtimeEvents = s.runtimeEvents) (hyield : ∀ r, op = .yield r → s' = s)
  | woken {r : WakeRuntimeJobRequest} {j : RuntimeJobRecord} (hop : op = .wake r)
      (hrows : s'.runtimeEvents.rows = s.runtimeEvents.rows ++ [r.event j])
  | yielded {r : YieldRuntimeJobRequest} {j : RuntimeJobRecord} (hop : op = .yield r)
      (heff : YieldEffect s s' r j)
      (hrows : s'.runtimeEvents.rows = s.runtimeEvents.rows ++ yieldEvents s r j)

theorem YieldEffect.rows {s s' : JobStore} {r : YieldRuntimeJobRequest} {j : RuntimeJobRecord}
    (h : YieldEffect s s' r j) :
    s'.runtimeEvents.rows = s.runtimeEvents.rows ++ yieldEvents s r j := by
  obtain ⟨s₁, s₂, hupd, h₂, h₃⟩ := h.steps
  obtain ⟨events, hins, rfl⟩ := insertEvent_ok h₂
  rw [consumeWakes_rows h₃, (Table.insert?_eq_some_iff.1 hins).2, hupd.sameTables.runtimeEvents]
  simp [yieldEvents]

theorem recordWake_rows {s s' : JobStore} {r : WakeRuntimeJobRequest} {j : RuntimeJobRecord}
    (h : recordWake s r j = .ok s') :
    (∃ e, s.event? r.eventId = some e ∧ e.payload = r.payload ∧ s' = s) ∨
      (s.event? r.eventId = none ∧
        s'.runtimeEvents.rows = s.runtimeEvents.rows ++ [r.event j]) := by
  unfold recordWake at h
  split at h
  · rename_i e he
    split at h
    · cases h
    · rename_i hp
      cases h
      exact .inl ⟨e, he, not_not.1 hp, rfl⟩
  · rename_i hnone
    obtain ⟨events, hins, rfl⟩ := insertEvent_ok h
    exact .inr ⟨hnone, (Table.insert?_eq_some_iff.1 hins).2⟩

/-- The events after a wake: those before, or one more. -/
theorem wakeRuntimeJob_rows {s s' : JobStore} {r : WakeRuntimeJobRequest}
    {d : WakeRuntimeJobDisposition} (h : wakeRuntimeJob s r = .ok (s', d)) :
    (∃ e, s.event? r.eventId = some e ∧ e.payload = r.payload ∧
        s'.runtimeEvents = s.runtimeEvents) ∨
      (s.event? r.eventId = none ∧
        ∃ j, s'.runtimeEvents.rows = s.runtimeEvents.rows ++ [r.event j]) := by
  obtain ⟨j, s₁, -, h₁, hupd⟩ := wakeRuntimeJob_ok h
  have hsame : s'.runtimeEvents = s₁.runtimeEvents := by
    obtain ⟨-, -, hupd⟩ | ⟨rfl, -⟩ := hupd
    · exact hupd.sameTables.runtimeEvents
    · rfl
  obtain ⟨e, he, hp, rfl⟩ | ⟨hnone, hrows⟩ := recordWake_rows h₁
  · exact .inl ⟨e, he, hp, hsame⟩
  · exact .inr ⟨hnone, j, by rw [hsame, hrows]⟩

theorem run_eventStep {s s' : JobStore} {op : JobOp} (h : op.run s = .ok s') :
    EventStep op s s' := by
  by_cases hyield : ∃ r, op = .yield r
  · obtain ⟨r, rfl⟩ := hyield
    obtain ⟨rfl, -⟩ | ⟨j, heff⟩ := yieldRuntimeJob_ok h
    · exact .same rfl fun _ _ ↦ rfl
    · exact .yielded rfl heff heff.rows
  · have hyield : ∀ r, op ≠ .yield r := fun r hr ↦ hyield ⟨r, hr⟩
    by_cases hwake : ∃ r, op = .wake r
    · obtain ⟨r, rfl⟩ := hwake
      obtain ⟨⟨t, d⟩, hok, rfl⟩ := Except.map_eq_ok.1 h
      obtain ⟨e, -, -, hsame⟩ | ⟨-, j, hrows⟩ := wakeRuntimeJob_rows hok
      · exact .same hsame fun r hr ↦ absurd hr (hyield r)
      · exact .woken rfl hrows
    · exact .same ((run_frame h).runtimeEvents hyield fun r hr ↦ hwake ⟨r, hr⟩)
        fun r hr ↦ absurd hr (hyield r)

theorem exec_eventStep (s : JobStore) (op : JobOp) : EventStep op s (exec s op) := by
  unfold exec
  split
  · rename_i h
    exact run_eventStep h
  · exact .same rfl fun _ _ ↦ rfl

/-- Events are never deleted. -/
theorem mem_events_of_exec {s : JobStore} {e : RuntimeEvent} (op : JobOp)
    (h : e ∈ s.runtimeEvents.rows) : e ∈ (exec s op).runtimeEvents.rows := by
  cases exec_eventStep s op with
  | same hevents => rw [hevents]; exact h
  | woken _ hrows => rw [hrows]; exact List.mem_append_left _ h
  | yielded _ _ hrows => rw [hrows]; exact List.mem_append_left _ h

/-! ### The events of the protocol -/

/-- The events of the yield and wake protocol; a consuming event names a stored wake. -/
inductive EventForm (rows : List RuntimeEvent) : RuntimeEvent → Prop
  | wake (r : WakeRuntimeJobRequest) (j : RuntimeJobRecord) : EventForm rows (r.event j)
  | yielded (r : YieldRuntimeJobRequest) (j : RuntimeJobRecord) : EventForm rows (yieldEvent r j)
  | consumed (session : String) (y : YieldRuntimeJobRequest) {r : WakeRuntimeJobRequest}
      {j : RuntimeJobRecord} (hw : r.event j ∈ rows) :
      EventForm rows (consumedEvent session y r.eventId)

theorem EventForm.mono {rows rows' : List RuntimeEvent} {e : RuntimeEvent}
    (h : EventForm rows e) (hsub : rows ⊆ rows') : EventForm rows' e := by
  cases h with
  | wake r j => exact .wake r j
  | yielded r j => exact .yielded r j
  | consumed session y hw => exact .consumed session y (hsub hw)

/-- Every stored event has one of the three forms. -/
def EventsFormed (s : JobStore) : Prop :=
  ∀ e ∈ s.runtimeEvents.rows, EventForm s.runtimeEvents.rows e

theorem eventId_eq_append (r : WakeRuntimeJobRequest) :
    r.eventId = wakeIdPrefix ++ (r.jobId ++ ":" ++ r.sourceJobId) := by
  simp [WakeRuntimeJobRequest.eventId, String.append_assoc]

theorem consumedEventId_wake (r : WakeRuntimeJobRequest) :
    consumedEventId r.eventId = queriedConsumedId r.eventId := by
  rw [eventId_eq_append, consumedEventId_append, queriedConsumedId_append]

theorem queriedConsumedId_inj {r r' : WakeRuntimeJobRequest}
    (h : queriedConsumedId r.eventId = queriedConsumedId r'.eventId) : r.eventId = r'.eventId := by
  rw [eventId_eq_append, eventId_eq_append] at h ⊢
  rw [queriedConsumedId_append, queriedConsumedId_append] at h
  rw [(String.append_right_inj _).1 h]

theorem wake_eventId_ne (r r' : WakeRuntimeJobRequest) :
    r.eventId ≠ queriedConsumedId r'.eventId := by
  rw [eventId_eq_append, eventId_eq_append, queriedConsumedId_append]
  exact wakeId_ne_consumedId _ _

theorem yield_eventId_ne (y : YieldRuntimeJobRequest) (r : WakeRuntimeJobRequest) :
    y.eventId ≠ queriedConsumedId r.eventId := by
  have hy : y.eventId = yieldIdPrefix ++ (y.jobId ++ ":" ++ y.leaseOwner ++ ":" ++
      toString y.yieldedAtMs) := by
    delta YieldRuntimeJobRequest.eventId yieldIdPrefix
    simp only [String.append_assoc]
  rw [hy, eventId_eq_append, queriedConsumedId_append]
  exact yieldId_ne_consumedId _ _

/-- An event under the id that a wake's consumption would have is a consuming event of a stored
wake with the same id. -/
theorem EventForm.consumed_of_eventId {rows : List RuntimeEvent} {e : RuntimeEvent}
    {r : WakeRuntimeJobRequest} (h : EventForm rows e)
    (hid : e.eventId = queriedConsumedId r.eventId) :
    ∃ (r' : WakeRuntimeJobRequest) (j : RuntimeJobRecord),
      r'.event j ∈ rows ∧ r'.eventId = r.eventId := by
  cases h with
  | wake r' j => exact absurd hid (wake_eventId_ne r' r)
  | yielded y j => exact absurd hid (yield_eventId_ne y r)
  | @consumed session y r' j hw =>
    exact ⟨r', j, hw, queriedConsumedId_inj ((consumedEventId_wake r').symm.trans hid)⟩

theorem mem_pendingWakes {s : JobStore} {id : String} {w : RuntimeEvent} :
    w ∈ pendingWakes s id ↔ w ∈ s.runtimeEvents.rows ∧ w.taskId = some id ∧
      w.eventType = wakeRequestedEventType ∧ s.event? (queriedConsumedId w.eventId) = none := by
  simp [pendingWakes, and_assoc]

/-- A pending wake is the event of a wake request. -/
theorem exists_request_of_pending {s : JobStore} {id : String} {w : RuntimeEvent}
    (hf : EventsFormed s) (hw : w ∈ pendingWakes s id) :
    ∃ (r : WakeRuntimeJobRequest) (j : RuntimeJobRecord), w = r.event j := by
  obtain ⟨hmem, -, htype, -⟩ := mem_pendingWakes.1 hw
  cases hf w hmem with
  | wake r j => exact ⟨r, j, rfl⟩
  | yielded y j => exact absurd (show yieldedEventType = wakeRequestedEventType from htype) (by decide)
  | consumed session y hw =>
    exact absurd (show wakeConsumedEventType = wakeRequestedEventType from htype) (by decide)

/-- **Step lemma.** Every call keeps the form of the events. -/
theorem EventsFormed.step {s : JobStore} (hf : EventsFormed s) (op : JobOp) :
    EventsFormed (exec s op) := by
  have old {rows : List RuntimeEvent} {e : RuntimeEvent} (he : e ∈ s.runtimeEvents.rows) :
      EventForm (s.runtimeEvents.rows ++ rows) e := (hf e he).mono (List.subset_append_left _ _)
  unfold EventsFormed
  cases exec_eventStep s op with
  | same hevents => rw [hevents]; exact hf
  | @woken r j _ hrows =>
    rw [hrows]
    intro e he
    rcases List.mem_append.1 he with he | he
    · exact old he
    · obtain rfl := List.mem_singleton.1 he
      exact .wake r j
  | @yielded y j _ _ hrows =>
    rw [hrows]
    intro e he
    rcases List.mem_append.1 he with he | he
    · exact old he
    rcases List.mem_cons.1 he with rfl | he
    · exact .yielded y j
    · obtain ⟨w, hw, rfl⟩ := List.mem_map.1 he
      obtain ⟨r, j', rfl⟩ := exists_request_of_pending hf hw
      exact .consumed _ y (j := j') (List.mem_append_left _ (mem_pendingWakes.1 hw).1)

/-! ### A pending wake waits for its job -/

/-- The call is a yield of `id` that takes effect. -/
def Call.Yields (c : Call) (id : String) : Prop :=
  ∃ r, c.op = .yield r ∧ r.jobId = id ∧ c.Changes id

theorem YieldEffect.changes {s s' : JobStore} {r : YieldRuntimeJobRequest} {j : RuntimeJobRecord}
    (h : YieldEffect s s' r j) :
    s.job? r.jobId = some j ∧
      s'.job? r.jobId = some (yieldedJob (yieldRunAt s r) r.yieldedAtMs j) ∧ s'.job? r.jobId ≠ s.job? r.jobId := by
  obtain ⟨s₁, s₂, hupd, h₂, h₃⟩ := h.steps
  obtain ⟨events, -, rfl⟩ := insertEvent_ok h₂
  obtain ⟨events', rfl⟩ := consumeWakes_ok h₃
  have hafter : s₁.job? r.jobId = some (yieldedJob (yieldRunAt s r) r.yieldedAtMs j) := by
    rw [hupd.after, if_pos rfl]
  refine ⟨hupd.before, hafter, fun heq ↦ ?_⟩
  -- the row was active and is queued now
  have hrow := Option.some.inj (hafter.symm.trans (heq.trans hupd.before))
  have hactive := (RowStep.holdsLease_iff.1 h.holds).1
  rw [← hrow] at hactive
  cases hactive

/-- **Step lemma.** A pending wake of `id` stays pending under every call but a yield of `id` that
takes effect. -/
theorem pending_step {s : JobStore} {id : String} {w : RuntimeEvent} {op : JobOp}
    (hf : EventsFormed s) (hw : w ∈ pendingWakes s id) (hop : ¬ Call.Yields ⟨s, op⟩ id) :
    w ∈ pendingWakes (exec s op) id := by
  obtain ⟨r, j, rfl⟩ := exists_request_of_pending hf hw
  obtain ⟨hmem, htask, htype, hnone⟩ := mem_pendingWakes.1 hw
  refine mem_pendingWakes.2 ⟨mem_events_of_exec op hmem, htask, htype, ?_⟩
  refine Table.get?_eq_none_iff.2 fun e he hid ↦ ?_
  have hold : e ∉ s.runtimeEvents.rows := fun he ↦ Table.get?_eq_none_iff.1 hnone e he hid
  cases exec_eventStep s op with
  | same hevents => exact hold (hevents ▸ he)
  | @woken r' j' _ hrows =>
    rw [hrows, List.mem_append, List.mem_singleton] at he
    obtain rfl := he.resolve_left hold
    exact wake_eventId_ne r' r hid
  | @yielded y j' hop' heff hrows =>
    rw [hrows, List.mem_append, yieldEvents, List.mem_cons] at he
    obtain rfl | he := he.resolve_left hold
    · exact yield_eventId_ne y r hid
    · -- another job's yield consumes only that job's wakes
      obtain ⟨w', hw', rfl⟩ := List.mem_map.1 he
      obtain ⟨r', j'', rfl⟩ := exists_request_of_pending hf hw'
      obtain ⟨hmem', htask', -, -⟩ := mem_pendingWakes.1 hw'
      have hsame : r'.eventId = r.eventId :=
        queriedConsumedId_inj ((consumedEventId_wake r').symm.trans hid)
      have hrow : r'.event j'' = r.event j :=
        List.inj_on_of_nodup_map s.runtimeEvents.nodup_keys hmem' hmem hsame
      have hjob : y.jobId = id := Option.some.inj (htask'.symm.trans (hrow ▸ htask))
      exact hop ⟨y, hop', hjob, hjob ▸ heff.changes.2.2⟩

/-- A wake that is newly recorded is pending. -/
theorem pending_of_wake {s s' : JobStore} {r : WakeRuntimeJobRequest}
    {d : WakeRuntimeJobDisposition} (hf : EventsFormed s) (h : wakeRuntimeJob s r = .ok (s', d))
    (hnew : s.event? r.eventId = none) : ∃ j, r.event j ∈ pendingWakes s' r.jobId := by
  obtain ⟨e, he, -⟩ | ⟨-, j, hrows⟩ := wakeRuntimeJob_rows h
  · rw [hnew] at he
    cases he
  refine ⟨j, mem_pendingWakes.2 ⟨by simp [hrows], rfl, rfl, ?_⟩⟩
  refine Table.get?_eq_none_iff.2 fun e he hid ↦ ?_
  rw [hrows, List.mem_append, List.mem_singleton] at he
  rcases he with he | rfl
  · -- a consuming event would need a wake under the same id, and there is none
    obtain ⟨r', j', hmem, hsame⟩ := (hf e he).consumed_of_eventId hid
    exact Table.get?_eq_none_iff.1 hnew _ hmem hsame
  · exact wake_eventId_ne r r hid

/-- The wakes that events have consumed, as those events name them. -/
def consumedWakes (s : JobStore) : List (Option Json) :=
  (s.runtimeEvents.rows.filter fun e ↦ decide (e.eventType = wakeConsumedEventType)).map
    (·.payload.get? "wakeEventId")

/-- The name of a wake in the events that consume it. -/
def wakeName (id : String) : Option Json := some (.str id)

theorem exists_of_consumed {s : JobStore} {e : RuntimeEvent} (hf : EventsFormed s)
    (he : e ∈ s.runtimeEvents.rows.filter fun e ↦ decide (e.eventType = wakeConsumedEventType)) :
    ∃ (session : String) (y : YieldRuntimeJobRequest) (r : WakeRuntimeJobRequest),
      e = consumedEvent session y r.eventId := by
  obtain ⟨hmem, htype⟩ := List.mem_filter.1 he
  have htype : e.eventType = wakeConsumedEventType := of_decide_eq_true htype
  cases hf e hmem with
  | wake r j =>
    exact absurd (show wakeRequestedEventType = wakeConsumedEventType from htype) (by decide)
  | yielded y j =>
    exact absurd (show yieldedEventType = wakeConsumedEventType from htype) (by decide)
  | @consumed session y r j hw => exact ⟨session, y, r, rfl⟩

/-- The id of a consuming event is determined by the wake it names, so no wake is consumed
twice. -/
theorem nodup_consumedWakes {s : JobStore} (hf : EventsFormed s) : (consumedWakes s).Nodup := by
  refine List.Nodup.map_on (fun e he e' he' heq ↦ ?_)
    ((s.runtimeEvents.nodup_keys.of_map _).filter _)
  obtain ⟨session, y, r, rfl⟩ := exists_of_consumed hf he
  obtain ⟨session', y', r', rfl⟩ := exists_of_consumed hf he'
  have hname : wakeName r.eventId = wakeName r'.eventId := heq
  have hsame : r.eventId = r'.eventId := by simpa [wakeName] using hname
  exact List.inj_on_of_nodup_map s.runtimeEvents.nodup_keys (List.mem_of_mem_filter he)
    (List.mem_of_mem_filter he') (congrArg consumedEventId hsame)

/-- A pending wake has not been consumed. -/
theorem not_mem_consumedWakes {s : JobStore} {r : WakeRuntimeJobRequest} (hf : EventsFormed s)
    (hnone : s.event? (queriedConsumedId r.eventId) = none) :
    wakeName r.eventId ∉ consumedWakes s := by
  intro h
  obtain ⟨e, he, hname⟩ := List.mem_map.1 h
  obtain ⟨session, y, r', rfl⟩ := exists_of_consumed hf he
  have hname : wakeName r'.eventId = wakeName r.eventId := hname
  have hsame : r'.eventId = r.eventId := by simpa [wakeName] using hname
  exact Table.get?_eq_none_iff.1 hnone _ (List.mem_of_mem_filter he)
    ((consumedEventId_wake r').trans (congrArg queriedConsumedId hsame))

/-- A yield that takes effect makes its job runnable at once when a wake is pending, and consumes
that wake. -/
theorem yield_of_pending {s : JobStore} {y : YieldRuntimeJobRequest} {r : WakeRuntimeJobRequest}
    {j : RuntimeJobRecord} (hf : EventsFormed s) (hw : r.event j ∈ pendingWakes s y.jobId)
    (hy : Call.Changes ⟨s, .yield y⟩ y.jobId) :
    (∃ j', (exec s (.yield y)).job? y.jobId = some j' ∧ j'.status = .queued ∧
      j'.runAtMs = y.yieldedAtMs) ∧
    wakeName r.eventId ∉ consumedWakes s ∧
    (consumedWakes (exec s (.yield y))).count (wakeName r.eventId) = 1 := by
  obtain ⟨j', heff, hrows⟩ : ∃ j', YieldEffect s (exec s (.yield y)) y j' ∧
      (exec s (.yield y)).runtimeEvents.rows = s.runtimeEvents.rows ++ yieldEvents s y j' := by
    cases exec_eventStep s (.yield y) with
    | same _ hsame => exact absurd (by rw [hsame y rfl]) hy
    | woken hop => cases hop
    | yielded hop heff hrows => cases hop; exact ⟨_, heff, hrows⟩
  have hrun : yieldRunAt s y = y.yieldedAtMs := by
    simp [yieldRunAt, List.ne_nil_of_mem hw]
  refine ⟨⟨_, heff.changes.2.1, rfl, hrun⟩,
    not_mem_consumedWakes hf (mem_pendingWakes.1 hw).2.2.2, ?_⟩
  refine List.count_eq_one_of_mem (nodup_consumedWakes (hf.step _)) (List.mem_map.2
    ⟨consumedEvent (eventSession j') y r.eventId, List.mem_filter.2 ⟨?_, decide_eq_true rfl⟩, rfl⟩)
  rw [hrows, yieldEvents]
  exact List.mem_append_right _ (List.mem_cons_of_mem _ (List.mem_map.2 ⟨_, hw, rfl⟩))

/-! ### Whole runs -/

theorem eventsFormed_of_run {s t : JobStore} {calls : List Call} (hf : EventsFormed s)
    (h : Run JobStep s calls t) : EventsFormed t :=
  h.invariant hf fun _ c _ hi ⟨_, hu⟩ ↦ hu ▸ hi.step c.op

/-- **Run lemma.** A pending wake stays pending until a yield of its job takes effect. -/
theorem pending_of_run {s t : JobStore} {later : List Call} {id : String} {w : RuntimeEvent}
    (hf : EventsFormed s) (h : Run JobStep s later t) (hw : w ∈ pendingWakes s id)
    (hno : ∀ c ∈ later, ¬ c.Yields id) : w ∈ pendingWakes t id := by
  refine h.invariant_history
    (I := fun l t ↦ (∀ c ∈ l, ¬ c.Yields id) → w ∈ pendingWakes t id) (fun _ ↦ hw) ?_ hno
  rintro l t c u hrun hi ⟨rfl, rfl⟩ hno
  exact pending_step (eventsFormed_of_run hf hrun)
    (hi fun c hc ↦ hno c (List.mem_append_left _ hc)) (hno c (by simp))

/-- What becomes of the row of a job when a wake for it is recorded. -/
theorem wakeRuntimeJob_row {s s' : JobStore} {r : WakeRuntimeJobRequest}
    {d : WakeRuntimeJobDisposition} (h : wakeRuntimeJob s r = .ok (s', d)) :
    ∃ j, s'.job? r.jobId = some j ∧ ((j.status = .queued ∧ j.runAtMs ≤ r.wokenAtMs) ∨
      j.status.isTerminal ∨ j.status.isActive) := by
  obtain ⟨j, s₁, hj, h₁, hupd⟩ := wakeRuntimeJob_ok h
  have hj₁ : s₁.job? r.jobId = some j := by
    obtain ⟨events, rfl⟩ := recordWake_ok h₁
    exact hj
  obtain ⟨hq, -, hupd⟩ | ⟨rfl, hrunnable⟩ := hupd
  · exact ⟨wokenJob r j, by rw [hupd.after, if_pos rfl], .inl ⟨hq, le_rfl⟩⟩
  · refine ⟨j, hj₁, ?_⟩
    cases hs : j.status with
    | queued => exact .inl ⟨rfl, hrunnable hs⟩
    | leased | running => exact .inr (.inr rfl)
    | succeeded | failed | deadLettered | cancelled => exact .inr (.inl rfl)

/-! ### Repeating a wake -/

/-- A row is never deleted, and its kind and session never change. -/
theorem RowStep.identity {op : JobOp} {id : String} {row row' : Row} {j : RuntimeJobRecord}
    (h : RowStep op id row row') (hj : row.job = some j) :
    ∃ j', row'.job = some j' ∧ j'.jobKind = j.jobKind ∧ j'.sessionId = j.sessionId := by
  cases h with
  | same => exact ⟨j, hj, rfl, rfl⟩
  | inserted => cases hj
  | _ => cases hj; exact ⟨_, rfl, rfl, rfl⟩

theorem identity_of_run {s t : JobStore} {calls : List Call} {id : String} {j : RuntimeJobRecord}
    (h : Run JobStep s calls t) (hj : s.job? id = some j) :
    ∃ j', t.job? id = some j' ∧ j'.jobKind = j.jobKind ∧ j'.sessionId = j.sessionId := by
  refine h.invariant (I := fun t ↦ ∃ j', t.job? id = some j' ∧ j'.jobKind = j.jobKind ∧
    j'.sessionId = j.sessionId) ⟨j, hj, rfl, rfl⟩ ?_
  rintro t c u ⟨j₁, hj₁, hkind₁, hsession₁⟩ ⟨-, rfl⟩
  obtain ⟨j₂, hj₂, hkind₂, hsession₂⟩ := (exec_rowStep t c.op id).identity hj₁
  exact ⟨j₂, hj₂, hkind₂.trans hkind₁, hsession₂.trans hsession₁⟩

theorem event?_of_run {s t : JobStore} {calls : List Call} {id : String} {e : RuntimeEvent}
    (h : Run JobStep s calls t) (he : s.event? id = some e) : t.event? id = some e := by
  refine Table.get?_eq_some_iff.2 ⟨?_, Table.key_of_get? he⟩
  exact h.invariant (I := fun t ↦ e ∈ t.runtimeEvents.rows) (Table.mem_of_get? he)
    fun _ c _ hi ⟨_, hu⟩ ↦ hu ▸ mem_events_of_exec c.op hi

/-- The job protocol does nothing to the store but call it. -/
theorem store_run_of_run {core : JobCore} {st st' : ProtocolState} {l : List ProtocolOp}
    (h : Run (ProtocolStep core) st l st') : ∃ calls, Run JobStep st.store calls st'.store := by
  refine h.invariant (I := fun t ↦ ∃ calls, Run JobStep st.store calls t.store) ⟨[], .nil⟩ ?_
  rintro t op u ⟨calls, hrun⟩ hstep
  have snoc (jop : JobOp) {s' : JobStore} (hs' : exec t.store jop = s') :
      ∃ calls, Run JobStep st.store calls s' :=
    ⟨_, hrun.snoc (a := ⟨t.store, jop⟩) ⟨rfl, hs'.symm⟩⟩
  cases hstep with
  | @schedule r now s' h =>
    exact snoc (scheduleOp core r now) (by unfold exec; rw [(RetryInv.schedule_ok h).2])
  | @call op _ _ => exact snoc op rfl
  | @failWrite p s' _ h => exact snoc (failOp core p.request p.job) (by unfold exec; rw [h])
  | _ => exact ⟨calls, hrun⟩

theorem wakeRuntimeJob_valid {s s' : JobStore} {r : WakeRuntimeJobRequest}
    {d : WakeRuntimeJobDisposition} (h : wakeRuntimeJob s r = .ok (s', d)) :
    ¬ (isBlank r.jobId ∨ isBlank r.sourceJobId ∨ isBlank r.transitionReason) := by
  intro hblank
  rw [wakeRuntimeJob, if_pos hblank] at h
  cases h

/-- A wake that is recorded stays recorded with its payload. -/
theorem event?_of_wake {s s' : JobStore} {r : WakeRuntimeJobRequest}
    {d : WakeRuntimeJobDisposition} (h : wakeRuntimeJob s r = .ok (s', d)) :
    ∃ e, s'.event? r.eventId = some e ∧ e.payload = r.payload := by
  obtain ⟨e, he, hp, hsame⟩ | ⟨-, j, hrows⟩ := wakeRuntimeJob_rows h
  · exact ⟨e, by rw [JobStore.event?, hsame]; exact he, hp⟩
  · exact ⟨r.event j, Table.get?_eq_some_iff.2 ⟨by simp [hrows], rfl⟩, rfl⟩

/-- A wake that is recorded can be repeated. -/
theorem wakeRuntimeJob_repeat {s : JobStore} {r : WakeRuntimeJobRequest} {j : RuntimeJobRecord}
    {e : RuntimeEvent}
    (hvalid : ¬ (isBlank r.jobId ∨ isBlank r.sourceJobId ∨ isBlank r.transitionReason))
    (hj : s.job? r.jobId = some j) (he : s.event? r.eventId = some e)
    (hp : e.payload = r.payload) : ∃ s' d, wakeRuntimeJob s r = .ok (s', d) := by
  have hrecord : recordWake s r j = .ok s := by simp [recordWake, he, hp]
  rw [wakeRuntimeJob, if_neg hvalid]
  simp only [hj, hrecord, Except.ok_bind]
  cases hs : j.status with
  | queued =>
    by_cases hlt : r.wokenAtMs < j.runAtMs
    · simp [hlt, updateJob, hj, hs]
    · simp [hlt]
  | leased | running | succeeded | failed | deadLettered | cancelled => exact ⟨s, _, rfl⟩

theorem getRuntimeJob_of_retryRow {s : JobStore} {id : String} {missing : ProtocolError}
    {j : RuntimeJobRecord} {accepted : List Bool} (hj : s.job? id = some j)
    (hr : RetryRow accepted j) : getRuntimeJob s id missing = .ok j := by
  have hcount : ¬ u32Max < j.retryCount := by
    have hbound := hr.bound
    have htotal := hr.total
    simp only [u32Max]
    omega
  have hmax : ¬ u32Max < j.maxRetries := by
    have hbound := hr.bound
    simp only [u32Max]
    omega
  simp [getRuntimeJob, loadJob, hj, rowJob, hcount, hmax, Functor.map, Except.map]

/-- What a waiter's wake has found and done. -/
theorem wakeLifecycleWaiter_ok {core : JobCore} {s s' : JobStore} {session : String}
    {wait : RuntimeJobWaiter} {source : RuntimeJobRecord} {seen seen' : List String}
    {d : WakeRuntimeJobDisposition}
    (h : wakeLifecycleWaiter core s session wait source seen = .ok (s', seen', some d)) :
    source.sessionId.any (fun x ↦ decide (x ≠ session)) = false ∧
      ∃ id j, core.agentRunLifecycleJobId wait.agentRunId = .ok id ∧ s.job? id = some j ∧
        j.jobKind = agentRunLifecycleJobKind ∧ j.sessionId = some session ∧
        wakeRuntimeJob s (waiterWake id source) = .ok (s', d) := by
  unfold wakeLifecycleWaiter at h
  split at h
  · cases h
  rename_i hsession
  refine ⟨by simpa using hsession, ?_⟩
  split at h
  · cases h
  rename_i id hid
  simp only at h
  split at h
  · cases h
  obtain ⟨j, hj, h⟩ := Except.bind_eq_ok.1 h
  split at h
  · cases h
  rename_i hbound
  obtain ⟨hkind, hsess⟩ := not_or.1 hbound
  obtain ⟨⟨t, d'⟩, hwake, h⟩ := Except.bind_eq_ok.1 h
  cases h
  refine ⟨id, j, hid, getRuntimeJob_ok hj, not_not.1 hkind, not_not.1 hsess, ?_⟩
  cases hw : wakeRuntimeJob s (waiterWake id source) with
  | error e => rw [hw] at hwake; cases hwake
  | ok x => rw [hw] at hwake; cases hwake; rfl

/-- A waiter's wake for an ended job can be repeated at any later moment, from any scan: the ended
job has not changed, so the recorded wake has the payload the repetition asks for. -/
theorem wakeLifecycleWaiter_repeat {core : JobCore} {st st' : ProtocolState} {s₁ : JobStore}
    {l later : List ProtocolOp} {session : String} {wait wait' : RuntimeJobWaiter}
    {source source' : RuntimeJobRecord} {seen seen₁ : List String}
    {d : WakeRuntimeJobDisposition} (hrun : Run (ProtocolStep core) .init l st)
    (hsource : st.store.job? source.jobId = some source) (hend : source.status.isTerminal)
    (hwake : wakeLifecycleWaiter core st.store session wait source seen = .ok (s₁, seen₁, some d))
    (hlater : Run (ProtocolStep core) { st with store := s₁ } later st')
    (hsource' : st'.store.job? source.jobId = some source')
    (hwait : wait'.agentRunId = wait.agentRunId) (seen' : List String) :
    ∃ result, wakeLifecycleWaiter core st'.store session wait' source' seen' = .ok result := by
  obtain ⟨hsession, id, j, hid, hj, hkind, hsess, hok⟩ := wakeLifecycleWaiter_ok hwake
  have hexec : exec st.store (.wake (waiterWake id source)) = s₁ := by
    simp [exec, JobOp.run, hok, Functor.map, Except.map]
  -- the wake is a step of the protocol, so the accounting of retries holds afterwards
  have hfirst : ProtocolStep core st (.call (.wake (waiterWake id source)))
      { st with store := s₁ } := hexec ▸ .call rfl fun _ huuid ↦ by cases huuid
  have hretry := retryInv_of_run ((hrun.snoc hfirst).trans hlater)
  have hstore : Run JobStep st.store [⟨st.store, .wake (waiterWake id source)⟩] s₁ :=
    .single ⟨rfl, hexec.symm⟩
  obtain ⟨calls, hcalls⟩ := store_run_of_run hlater
  obtain rfl : source' = source := Option.some.inj
    (hsource'.symm.trans (job?_of_terminal (hstore.trans hcalls) hsource hend))
  obtain ⟨j', hj', hkind', hsess'⟩ := identity_of_run (hstore.trans hcalls) hj
  obtain ⟨e, he, hp⟩ := event?_of_wake hok
  obtain ⟨s₂, d₂, hagain⟩ := wakeRuntimeJob_repeat (wakeRuntimeJob_valid hok) hj'
    (event?_of_run hcalls he) hp
  have hget (missing : ProtocolError) : getRuntimeJob st'.store id missing = .ok j' :=
    getRuntimeJob_of_retryRow hj' (hretry.row id j' hj')
  unfold wakeLifecycleWaiter
  simp only [hsession, Bool.false_eq_true, if_false, hwait, hid]
  split
  · exact ⟨_, rfl⟩
  · simp [hget, hkind', hkind, hsess', hsess, hagain, Except.mapError]

/-- **No wake is lost.** In every run of the job store, when a wake is newly recorded its job is
queued and runnable by the time of the wake, or it has ended, or it is leased or running; in the
last case the next yield of the job that takes effect, whatever happens before it, makes the job
runnable at once whatever it asked for, and consumes the wake, which no event has consumed before
and exactly one event has consumed then. No wake is ever consumed twice. And in every run of the
job protocol, `wakeLifecycleWaiter` returns `Ok` when it repeats the wake of an ended job. -/
theorem no_wake_lost {calls : List Call} {s : JobStore} {core : JobCore} {l : List ProtocolOp}
    {st : ProtocolState} (h : Run JobStep .empty calls s)
    (hp : Run (ProtocolStep core) .init l st) :
    (∀ r s' d, wakeRuntimeJob s r = .ok (s', d) → s.event? r.eventId = none →
      ∃ j, s'.job? r.jobId = some j ∧ ((j.status = .queued ∧ j.runAtMs ≤ r.wokenAtMs) ∨
        j.status.isTerminal ∨ (j.status.isActive ∧ ∀ later t y, Run JobStep s' later t →
          (∀ c ∈ later, ¬ c.Yields r.jobId) → Call.Yields ⟨t, .yield y⟩ r.jobId →
          (∃ j', (exec t (.yield y)).job? r.jobId = some j' ∧ j'.status = .queued ∧
            j'.runAtMs = y.yieldedAtMs) ∧
          wakeName r.eventId ∉ consumedWakes t ∧
          (consumedWakes (exec t (.yield y))).count (wakeName r.eventId) = 1))) ∧
    (consumedWakes s).Nodup ∧
    ∀ session wait wait' source seen s₁ seen₁ d later st' source' seen',
      st.store.job? source.jobId = some source → source.status.isTerminal →
      wakeLifecycleWaiter core st.store session wait source seen = .ok (s₁, seen₁, some d) →
      Run (ProtocolStep core) { st with store := s₁ } later st' →
      st'.store.job? source.jobId = some source' → wait'.agentRunId = wait.agentRunId →
      ∃ result, wakeLifecycleWaiter core st'.store session wait' source' seen' = .ok result := by
  have hf : EventsFormed s := eventsFormed_of_run (fun _ he ↦ by cases he) h
  refine ⟨fun r s' d hok hnew ↦ ?_, nodup_consumedWakes hf, ?_⟩
  · obtain ⟨j, hj, hq | ht | ha⟩ := wakeRuntimeJob_row hok
    · exact ⟨j, hj, .inl hq⟩
    · exact ⟨j, hj, .inr (.inl ht)⟩
    refine ⟨j, hj, .inr (.inr ⟨ha, fun later t y hrun hno hy ↦ ?_⟩)⟩
    obtain ⟨j₀, hw⟩ := pending_of_wake hf hok hnew
    have hexec : exec s (.wake r) = s' := by
      simp [exec, JobOp.run, hok, Functor.map, Except.map]
    have hf' : EventsFormed s' := hexec ▸ hf.step _
    have hwt := pending_of_run hf' hrun hw hno
    obtain ⟨_, ⟨⟩, hid, hch⟩ := hy
    rw [← hid] at hwt hch ⊢
    exact yield_of_pending (eventsFormed_of_run hf' hrun) hwt hch
  · intro session wait wait' source seen s₁ seen₁ d later st' source' seen' hs he hw hl hs' hwait
    exact wakeLifecycleWaiter_repeat hp hs he hw hl hs' hwait seen'

/-! ### A wake that finds its job running -/

/-- A job is claimed and woken; it then yields for a long time. -/
def wakeScript : List JobOp :=
  [.schedule (sampleJob "job_1" "worker.noop") unclaimed_sampleJob,
    .claimDue ⟨1, "worker:0", none, none, none, 1, 1000⟩ ⟨[], fun _ ↦ "owner_1"⟩]

@[inherit_doc wakeScript]
def wakeScriptWake : WakeRuntimeJobRequest := ⟨"job_1", "job_2", 5, "runtime_job_terminal"⟩

@[inherit_doc wakeScript]
def wakeScriptYield : YieldRuntimeJobRequest := ⟨"job_1", "owner_1", 7, 900, "waiting"⟩

/-- The yield asks for 900 and is runnable at 7. -/
theorem no_wake_lost_running :
    ∃ j, (exec (exec (wakeScript.foldl exec .empty) (.wake wakeScriptWake))
      (.yield wakeScriptYield)).job? "job_1" = some j ∧ j.runAtMs = 7 := by
  obtain ⟨hlost, -, -⟩ := no_wake_lost (run_callsOf .empty wakeScript) sampleRun
  obtain ⟨j, hj, ⟨hq, -⟩ | ht | ⟨-, hnext⟩⟩ := hlost wakeScriptWake
    (exec (wakeScript.foldl exec .empty) (.wake wakeScriptWake)) .active rfl rfl
  · obtain rfl := Option.some.inj (hj.symm.trans (by rfl))
    cases hq
  · obtain rfl := Option.some.inj (hj.symm.trans (by rfl))
    cases ht
  · obtain ⟨⟨j', hj', -, hrun⟩, -⟩ := hnext [] _ wakeScriptYield .nil (fun _ hc ↦ by cases hc)
      ⟨wakeScriptYield, rfl, rfl, by decide +kernel⟩
    exact ⟨j', hj', hrun⟩

end Centaeris.Jobs
