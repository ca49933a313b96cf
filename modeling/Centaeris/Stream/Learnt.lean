import Centaeris.Stream.Delivery
import Centaeris.Stream.Overlay

/-!
# What a connection knows comes from the log

The other direction of `Centaeris.Stream.Overlay`: a barrier that a connection holds against live text
is that of a committed record, and a message that it takes for closed has been committed. With that go
the facts that keep a connection from failing in an environment that is consistent:

* the records still to be sent are accepted, one after the other (`PageInv`);
* barriers and closed messages come from records (`LearntInv`);
* a live state in hand was not written ahead of the log that the connection has seen (`PhaseInv`);
* the last live item is noted, and nothing else is (`NotesLive`).

One lemma for each, by the step of the connection.
-/

namespace Centaeris.Stream

/-! ### Records of the run -/

/-- A committed record of the run. A rewrite may have taken it off the stream. -/
def EventLog.Has (log : EventLog) (run : AgentRunRef) (e : SessionEvent) : Prop :=
  e.agentRunId = run.id ∧ ∃ projects, { e with projects } ∈ log.rows

/-- No barrier event of the turn lies after the sequence. -/
def EventLog.BarrierLe (log : EventLog) (run : AgentRunRef) (turnId : String) (n : Nat) : Prop :=
  ∀ e, log.Has run e → e.isBarrier → e.hasTurn turnId → e.sequence ≤ n

theorem has_of_mem_streamRows {log : EventLog} {run : AgentRunRef} {e : SessionEvent}
    (h : e ∈ log.streamRows run) : log.Has run e := by
  obtain ⟨hrow, hon⟩ := EventLog.mem_streamRows.1 h
  exact ⟨of_decide_eq_true (Bool.and_eq_true_iff.1 hon).1, e.projects, hrow⟩

/-- Records stay. -/
theorem EnvStep.has {env env' : Env} {a : StreamOp} (h : EnvStep env a env') {run : AgentRunRef}
    {e : SessionEvent} (he : env.log.Has run e) : env'.log.Has run e := by
  obtain ⟨hrun, projects, hrow⟩ := he
  refine ⟨hrun, ?_⟩
  cases h with
  | append => exact ⟨projects, List.mem_append_left _ hrow⟩
  | hide eventIds =>
    by_cases hid : e.eventId ∈ eventIds
    · exact ⟨false, List.mem_map.2 ⟨_, hrow, if_pos hid⟩⟩
    · exact ⟨projects, List.mem_map.2 ⟨_, hrow, if_neg hid⟩⟩
  | status => exact ⟨projects, hrow⟩
  | redis => exact ⟨projects, hrow⟩

theorem EnvStep.highWater_le {env env' : Env} {a : StreamOp} (h : EnvStep env a env') :
    env.log.highWater ≤ env'.log.highWater :=
  (envStep_mem ⟨"", ""⟩ h (le_refl _)).1

/-- `_drain_postgres` sends the record without an exception. -/
structure Accepts (run : AgentRunRef) (e : SessionEvent) : Prop where
  binds : bindsRecord run e
  turn : e.isBarrier → (nonEmptyText (e.payload.get? "turnId")).isSome
  message : e.isAssistantMessage → (nonEmptyText (e.payload.get? "turnId")).isSome ∧
    (nonEmptyText (e.payload.pointer ["payload", "messageId"])).isSome

/-- The log and the keys do not make a connection fail: records on the stream are accepted, and live
text was written after a committed sequence. -/
structure Env.Consistent (run : AgentRunRef) (env : Env) : Prop where
  accepts : ∀ e ∈ env.log.streamRows run, Accepts run e
  written : ∀ m, env.redis.liveMeta = some m → m.afterSequence ≤ env.log.highWater

theorem commitRecord_of_accepts {run : AgentRunRef} {s : TailState} {e : SessionEvent}
    (h : Accepts run e) (hlt : s.sourceSequence < e.sequence) :
    ∃ s', s.commitRecord run e = some s' := by
  obtain ⟨s₁, h₁⟩ : ∃ s₁, TailState.advanceOverlayBarrier { s with sourceSequence := e.sequence } e =
      some s₁ := by
    unfold TailState.advanceOverlayBarrier
    by_cases hb : e.isBarrier
    · obtain ⟨turnId, hturn⟩ := Option.isSome_iff_exists.1 (h.turn hb)
      rw [if_pos hb, hturn]
      exact ⟨_, rfl⟩
    · exact ⟨_, if_neg hb⟩
  obtain ⟨s₂, h₂⟩ : ∃ s₂, s₁.sealIdentity e = some s₂ := by
    unfold TailState.sealIdentity
    by_cases ha : e.isAssistantMessage
    · obtain ⟨turnId, hturn⟩ := Option.isSome_iff_exists.1 (h.message ha).1
      obtain ⟨messageId, hmessage⟩ := Option.isSome_iff_exists.1 (h.message ha).2
      rw [if_pos ha, hturn, hmessage]
      exact ⟨_, rfl⟩
    · exact ⟨_, if_neg ha⟩
  refine ⟨s₂, guard_bind.2 ⟨h.binds, guard_bind.2 ⟨hlt, ?_⟩⟩⟩
  exact Option.bind_eq_some_iff.2 ⟨s₁, h₁, h₂⟩

/-! ### The page in hand -/

/-- The records still to be sent are accepted, one after the other. -/
structure PageInv (run : AgentRunRef) (log : EventLog) (c : Connection) : Prop where
  accepts : ∀ e ∈ c.pending, Accepts run e
  has : ∀ e ∈ c.pending, log.Has run e
  ascending : Sequenced.Increasing SessionEvent.sequence c.pending
  ahead : ∀ e ∈ c.pending, c.tail.sourceSequence < e.sequence

section Steps

variable {run : AgentRunRef} {env : Env} {log : EventLog} {c c' : Connection} {a : StreamOp}

theorem PageInv.delivers (hi : PageInv run log c) (h : Delivers run log c a c')
    (hlog : ∀ e ∈ log.streamRows run, Accepts run e) : PageInv run log c' := by
  cases h with
  | @send e rest _ hpending hrest hsource hended =>
    have hmem : ∀ r ∈ c'.pending, r ∈ c.pending := fun r hr ↦ by
      rw [hpending]
      exact List.mem_cons_of_mem _ (hrest.subset hr)
    have hinc := hi.ascending
    rw [hpending] at hinc
    obtain ⟨hhead, htail⟩ := List.pairwise_cons.1 hinc
    refine ⟨fun r hr ↦ hi.accepts r (hmem r hr), fun r hr ↦ hi.has r (hmem r hr),
      htail.sublist hrest.sublist, fun r hr ↦ ?_⟩
    rw [hsource]
    exact hhead r (hrest.subset hr)
  | keep ha hpending hsource =>
    have hmem : ∀ r ∈ c'.pending, r ∈ log.streamRows run ∧ c.tail.sourceSequence < r.sequence :=
      fun r hr ↦ Sequenced.mem_after.1 (hpending.subset hr)
    refine ⟨fun r hr ↦ hlog r (hmem r hr).1, fun r hr ↦ has_of_mem_streamRows (hmem r hr).1,
      ((log.increasing_streamRows run).after _).sublist hpending.sublist, fun r hr ↦ ?_⟩
    rw [hsource]
    exact (hmem r hr).2

/-! ### What the connection has learnt -/

/-- Barriers and closed messages come from committed records. -/
structure LearntInv (run : AgentRunRef) (log : EventLog) (s : TailState) : Prop where
  barriers : ∀ t n, log.BarrierLe run t n → s.overlayBarriers t ≤ n
  closed : ∀ t m, (t, m) ∈ s.sealedLiveIdentities →
    ∃ e, log.Has run e ∧ e.isAssistantMessage ∧ e.hasTurn t ∧ e.hasMessage m

theorem LearntInv.of_eq {s s' : TailState} (hi : LearntInv run log s)
    (hbarriers : s'.overlayBarriers = s.overlayBarriers)
    (hclosed : s'.sealedLiveIdentities = s.sealedLiveIdentities) : LearntInv run log s' :=
  ⟨hbarriers ▸ hi.barriers, hclosed ▸ hi.closed⟩

theorem LearntInv.commits {s s' : TailState} {e : SessionEvent} (hi : LearntInv run log s)
    (he : log.Has run e) (h : Commits s e s') : LearntInv run log s' := by
  refine ⟨fun t n hn ↦ ?_, fun t m hmem ↦ ?_⟩
  · rw [h.barriers]
    split
    · rename_i hcond
      exact Nat.max_le.2 ⟨hi.barriers t n hn, hn e he hcond.1 hcond.2⟩
    · exact hi.barriers t n hn
  · rcases (h.mem_sealed t m).1 hmem with hold | hnew
    · exact hi.closed t m hold
    · exact ⟨e, he, hnew⟩

theorem LearntInv.raise {s : TailState} (hi : LearntInv run log s) {turnId : String} {barrier : Nat}
    (hbarrier : ∀ n, log.BarrierLe run turnId n → barrier ≤ n) :
    LearntInv run log (s.raiseBarrier turnId barrier) := by
  refine ⟨fun t n hn ↦ ?_, hi.closed⟩
  rw [TailState.raiseBarrier_apply]
  split
  · rename_i ht
    exact Nat.max_le.2 ⟨hi.barriers t n hn, hbarrier n (ht ▸ hn)⟩
  · exact hi.barriers t n hn

theorem learnt_drain (hi : LearntInv run env.log c.tail) (hpage : PageInv run env.log c)
    {resume : Resume} {point : DrainPoint} (hphase : c.phase = .drain resume point) :
    LearntInv run env.log (c.drainStep run env resume point).1.tail := by
  cases point with
  | highWater => exact hi.of_eq rfl rfl
  | records => exact hi.of_eq rfl rfl
  | items full rest =>
    cases rest with
    | nil => exact hi.of_eq rfl rfl
    | cons e rest =>
      have he : env.log.Has run e := hpage.has e (by rw [Connection.pending, hphase]; exact List.mem_cons_self)
      dsimp only [Connection.drainStep]
      cases hcommit : c.tail.commitRecord run e with
      | none => exact hi.of_eq rfl rfl
      | some tail =>
        have hnew := hi.commits he (TailState.commitRecord_commits hcommit)
        dsimp only
        split
        · exact hnew.of_eq rfl rfl
        · exact hnew
  | terminalSequence =>
    dsimp only [Connection.drainStep]
    split
    · exact hi.of_eq rfl rfl
    · exact hi.of_eq rfl rfl
  | terminalStatus =>
    dsimp only [Connection.drainStep]
    split
    · exact hi.of_eq rfl rfl
    · exact hi.of_eq rfl rfl
  | terminalMessage => exact hi.of_eq rfl rfl

theorem learnt_offer (hi : LearntInv run log c.tail) (o : LiveOverlay) :
    LearntInv run log (c.offer o).1.tail :=
  hi.of_eq (offer_cases c o).1 (offer_cases c o).2.1

theorem learnt_screen (hi : LearntInv run log c.tail) (o : LiveOverlay) :
    LearntInv run log (c.screen o).1.tail := by
  have hscreened := screen_screened c o
  generalize c.screen o = result at hscreened ⊢
  cases hscreened with
  | drop => exact hi.of_eq rfl rfl
  | offer => exact learnt_offer hi o
  | ask => exact hi.of_eq rfl rfl

theorem learnt_candidate (hi : LearntInv run env.log c.tail) {o : LiveOverlay}
    {point : CandidatePoint}
    (hqueried : ∀ barrier, point = .sealedRows barrier →
      ∀ n, env.log.BarrierLe run o.turnId n → barrier ≤ n) :
    LearntInv run env.log (c.candidateStep run env o point).1.tail := by
  cases point with
  | position =>
    dsimp only [Connection.candidateStep]
    split
    · exact hi.of_eq rfl rfl
    · exact learnt_screen hi o
  | recheck =>
    dsimp only [Connection.candidateStep]
    split
    · exact hi.of_eq rfl rfl
    · exact learnt_screen hi o
  | barrier => exact hi.of_eq rfl rfl
  | sealedRows barrier =>
    have hraised := hi.raise (hqueried barrier rfl)
    have hchecked := checkCommitted_checked c o barrier (env.log.sealedRows run o.messageId)
    change LearntInv run env.log
      (c.checkCommitted o barrier (env.log.sealedRows run o.messageId)).1.tail
    generalize c.checkCommitted o barrier (env.log.sealedRows run o.messageId) = result
      at hchecked ⊢
    cases hchecked with
    | conflict => exact hi.of_eq rfl rfl
    | drop => exact hraised.of_eq rfl rfl
    | @closed e he hturn =>
      obtain ⟨hmem, hassistant, hmessage⟩ := EventLog.mem_sealedRows he
      refine ⟨hraised.barriers, fun t m hmem' ↦ ?_⟩
      rcases List.mem_cons.1 hmem' with hnew | hold
      · obtain ⟨rfl, rfl⟩ := Prod.mk.inj hnew
        exact ⟨e, has_of_mem_streamRows hmem, hassistant, hturn, hmessage⟩
      · exact hi.closed t m hold
    | offer =>
      refine learnt_offer ?_ o
      exact hraised.of_eq rfl rfl

/-! ### Where the connection is -/

/-- The high water that a drain has read, or will work with, is at or after the sequence. -/
def DrainPoint.Reaches (s : TailState) (n : Nat) : DrainPoint → Prop
  | .highWater => True
  | .records bound => n ≤ bound
  | _ => n ≤ s.sessionHighWater

/-- What holds of the phase. `failed` says that the run has been seen as failed. -/
structure PhaseInv (run : AgentRunRef) (failed : Prop) (env : Env) (c : Connection) : Prop where
  running : c.tail.terminal → c.phase = .ended
  failed : ∀ resume, c.phase = .drain resume .terminalMessage → failed
  within : ∀ o, c.phase.candidate? = some o → o.afterSequence ≤ env.log.highWater
  reached : ∀ o point, c.phase = .drain (.candidate o) point → point.Reaches c.tail o.afterSequence
  rechecked : ∀ o, c.phase = .candidate o .recheck → o.afterSequence ≤ c.tail.sessionHighWater
  queried : ∀ o barrier, c.phase = .candidate o (.sealedRows barrier) →
    ∀ n, env.log.BarrierLe run o.turnId n → barrier ≤ n

variable {failed : Prop} {o : LiveOverlay}

theorem PhaseInv.terminal_eq_false (hi : PhaseInv run failed env c) (h : c.phase ≠ .ended) :
    c.tail.terminal = false := Bool.eq_false_iff.2 fun hterminal ↦ h (hi.running hterminal)

theorem candidate?_of_idle {phase : Phase} (h : phase.Idle) : phase.candidate? = none := by
  cases phase with
  | drain resume point => cases resume <;> first | rfl | exact h.elim
  | candidate => exact h.elim
  | _ => rfl

theorem phaseInv_of_idle (hidle : c.phase.Idle) (hrunning : c.tail.terminal → c.phase = .ended) :
    PhaseInv run failed env c where
  running := hrunning
  failed resume h := by
    rw [h] at hidle
    cases resume <;> exact hidle.elim
  within o h := by
    rw [candidate?_of_idle hidle] at h
    cases h
  reached o point h := by
    rw [h] at hidle
    exact hidle.elim
  rechecked o h := by
    rw [h] at hidle
    exact hidle.elim
  queried o barrier h := by
    rw [h] at hidle
    exact hidle.elim

/-- Another point of a drain. -/
theorem phaseInv_of_drain {resume : Resume} {point : DrainPoint}
    (hphase : c.phase = .drain resume point) (hrunning : c.tail.terminal = false)
    (hfailed : point = .terminalMessage → failed)
    (hcandidate : ∀ o, resume = .candidate o →
      o.afterSequence ≤ env.log.highWater ∧ point.Reaches c.tail o.afterSequence) :
    PhaseInv run failed env c where
  running h := by
    rw [hrunning] at h
    cases h
  failed resume' h := by
    rw [hphase] at h
    exact hfailed (Phase.drain.inj h).2
  within o h := by
    rw [hphase] at h
    cases resume with
    | candidate o' =>
      obtain rfl : o' = o := Option.some.inj h
      exact (hcandidate o' rfl).1
    | _ => cases h
  reached o point' h := by
    rw [hphase] at h
    obtain ⟨hresume, rfl⟩ := Phase.drain.inj h
    exact (hcandidate o hresume).2
  rechecked o h := by
    rw [hphase] at h
    cases h
  queried o barrier h := by
    rw [hphase] at h
    cases h

/-- Another point of a candidate. -/
theorem phaseInv_of_candidate {point : CandidatePoint} (hphase : c.phase = .candidate o point)
    (hrunning : c.tail.terminal = false) (hwithin : o.afterSequence ≤ env.log.highWater)
    (hrechecked : point = .recheck → o.afterSequence ≤ c.tail.sessionHighWater)
    (hqueried : ∀ barrier, point = .sealedRows barrier →
      ∀ n, env.log.BarrierLe run o.turnId n → barrier ≤ n) : PhaseInv run failed env c where
  running h := by
    rw [hrunning] at h
    cases h
  failed resume h := by
    rw [hphase] at h
    cases h
  within o' h := by
    rw [hphase] at h
    obtain rfl : o = o' := Option.some.inj h
    exact hwithin
  reached o' point' h := by
    rw [hphase] at h
    cases h
  rechecked o' h := by
    rw [hphase] at h
    obtain ⟨rfl, hpoint⟩ := Phase.candidate.inj h
    exact hrechecked hpoint
  queried o' barrier h := by
    rw [hphase] at h
    obtain ⟨rfl, hpoint⟩ := Phase.candidate.inj h
    exact hqueried barrier hpoint

theorem leave_idle (c : Connection) : c.leave.phase.Idle := by
  unfold Connection.leave
  cases c.tail.terminal <;> trivial

theorem phaseInv_leave (hrunning : c.tail.terminal = false) : PhaseInv run failed env c.leave := by
  refine phaseInv_of_idle (leave_idle c) fun h ↦ ?_
  rw [show c.leave.tail.terminal = c.tail.terminal from rfl, hrunning] at h
  cases h

theorem offer_leaves (c : Connection) (o : LiveOverlay) :
    (c.offer o).1.tail.terminal = c.tail.terminal ∧ (c.offer o).1.phase.Idle := by
  unfold Connection.offer
  split
  · exact ⟨rfl, leave_idle _⟩
  · exact ⟨rfl, leave_idle _⟩

theorem phaseInv_offer (hrunning : c.tail.terminal = false) (o : LiveOverlay) :
    PhaseInv run failed env (c.offer o).1 := by
  obtain ⟨hterminal, hidle⟩ := offer_leaves c o
  refine phaseInv_of_idle hidle fun h ↦ ?_
  rw [hterminal, hrunning] at h
  cases h

/-- The end of a drain. -/
theorem phaseInv_drained (resume : Resume) (hcandidate : ∀ o, resume = .candidate o →
      o.afterSequence ≤ env.log.highWater ∧ o.afterSequence ≤ c.tail.sessionHighWater) :
    PhaseInv run failed env (c.drained resume) := by
  cases hterminal : c.tail.terminal with
  | true =>
    have hended : (c.drained resume).phase = .ended := by
      unfold Connection.drained
      cases resume <;> simp [hterminal]
    exact phaseInv_of_idle (by rw [hended]; trivial) fun _ ↦ hended
  | false =>
    have hrunning : (c.drained resume).tail.terminal = false := hterminal
    have hno : (c.drained resume).tail.terminal → (c.drained resume).phase = .ended := fun h ↦ by
      rw [hrunning] at h
      cases h
    cases resume with
    | candidate o =>
      obtain ⟨hwithin, hreached⟩ := hcandidate o rfl
      have hphase : (c.drained (.candidate o)).phase = .candidate o .recheck := by
        simp [Connection.drained, hterminal]
      exact phaseInv_of_candidate hphase hrunning hwithin (fun _ ↦ hreached) fun _ h ↦ by cases h
    | final => exact phaseInv_of_idle trivial hno
    | first =>
      refine phaseInv_of_idle ?_ hno
      unfold Connection.drained
      cases c.redisAvailable <;> simp [hterminal, Phase.Idle]
    | polling => exact phaseInv_of_idle (by simp [Connection.drained, hterminal, Phase.Idle]) hno
    | reattach => exact phaseInv_of_idle (by simp [Connection.drained, hterminal, Phase.Idle]) hno
    | reconcile => exact phaseInv_of_idle (by simp [Connection.drained, hterminal, Phase.Idle]) hno
    | signals sawLive =>
      refine phaseInv_of_idle ?_ hno
      unfold Connection.drained
      cases sawLive <;> simp [hterminal, Phase.Idle]

theorem phaseInv_drain (hi : PhaseInv run failed env c) (hfailed : env.runFailed → failed)
    {resume : Resume} {point : DrainPoint} (hphase : c.phase = .drain resume point) :
    PhaseInv run failed env (c.drainStep run env resume point).1 := by
  have hrunning : c.tail.terminal = false := hi.terminal_eq_false (by rw [hphase]; exact nofun)
  have hwithin : ∀ o, resume = .candidate o → o.afterSequence ≤ env.log.highWater := fun o ho ↦
    hi.within o (by rw [hphase, ho]; rfl)
  have hreached : ∀ o, resume = .candidate o → point.Reaches c.tail o.afterSequence := fun o ho ↦
    hi.reached o point (by rw [hphase, ho])
  cases point with
  | highWater =>
    exact phaseInv_of_drain rfl hrunning (fun h ↦ by cases h) fun o ho ↦ ⟨hwithin o ho, hwithin o ho⟩
  | records bound =>
    refine phaseInv_of_drain rfl hrunning (fun h ↦ by cases h) fun o ho ↦ ⟨hwithin o ho, ?_⟩
    exact (hreached o ho).trans (le_max_left _ _)
  | items full rest =>
    cases rest with
    | nil =>
      cases full with
      | true => exact phaseInv_of_drain rfl hrunning (fun h ↦ by cases h) fun o ho ↦ ⟨hwithin o ho, trivial⟩
      | false =>
        exact phaseInv_of_drain rfl hrunning (fun h ↦ by cases h) fun o ho ↦ ⟨hwithin o ho, hreached o ho⟩
    | cons e rest =>
      dsimp only [Connection.drainStep]
      cases hcommit : c.tail.commitRecord run e with
      | none => exact phaseInv_of_idle trivial fun h ↦ absurd (hi.running h) (by rw [hphase]; exact nofun)
      | some tail =>
        have hcommits := TailState.commitRecord_commits hcommit
        have hkeep : ∀ o, resume = .candidate o → o.afterSequence ≤ tail.sessionHighWater := fun o ho ↦ by
          rw [hcommits.sessionHighWater]
          exact hreached o ho
        dsimp only
        split
        · exact phaseInv_drained resume fun o ho ↦ ⟨hwithin o ho, hkeep o ho⟩
        · exact phaseInv_of_drain rfl (hcommits.terminal.trans hrunning) (fun h ↦ by cases h)
            fun o ho ↦ ⟨hwithin o ho, hkeep o ho⟩
  | terminalSequence =>
    dsimp only [Connection.drainStep]
    split
    · exact phaseInv_drained resume fun o ho ↦ ⟨hwithin o ho, hreached o ho⟩
    · exact phaseInv_of_drain rfl hrunning (fun h ↦ by cases h) fun o ho ↦ ⟨hwithin o ho, hreached o ho⟩
  | terminalStatus =>
    dsimp only [Connection.drainStep]
    split
    · rename_i h
      exact phaseInv_of_drain rfl hrunning (fun _ ↦ hfailed h) fun o ho ↦ ⟨hwithin o ho, hreached o ho⟩
    · exact phaseInv_drained resume fun o ho ↦ ⟨hwithin o ho, hreached o ho⟩
  | terminalMessage => exact phaseInv_drained resume fun o ho ↦ ⟨hwithin o ho, hreached o ho⟩

theorem phaseInv_screen (hrunning : c.tail.terminal = false)
    (hwithin : o.afterSequence ≤ env.log.highWater) : PhaseInv run failed env (c.screen o).1 := by
  have hscreened := screen_screened c o
  generalize c.screen o = result at hscreened ⊢
  cases hscreened with
  | drop => exact phaseInv_leave hrunning
  | offer => exact phaseInv_offer hrunning o
  | ask => exact phaseInv_of_candidate rfl hrunning hwithin (fun h ↦ by cases h) fun _ h ↦ by cases h

theorem phaseInv_candidate (hi : PhaseInv run failed env c) {point : CandidatePoint}
    (hphase : c.phase = .candidate o point) :
    PhaseInv run failed env (c.candidateStep run env o point).1 := by
  have hrunning : c.tail.terminal = false := hi.terminal_eq_false (by rw [hphase]; exact nofun)
  have hwithin : o.afterSequence ≤ env.log.highWater := hi.within o (by rw [hphase]; rfl)
  have hfail : PhaseInv run failed env { c with phase := .failed } :=
    phaseInv_of_idle trivial fun h ↦ absurd (hi.running h) (by rw [hphase]; exact nofun)
  cases point with
  | position =>
    dsimp only [Connection.candidateStep]
    split
    · refine phaseInv_of_drain rfl hrunning (fun h ↦ by cases h) fun o' ho' ↦ ?_
      obtain rfl : o = o' := Resume.candidate.inj ho'
      exact ⟨hwithin, trivial⟩
    · exact phaseInv_screen hrunning hwithin
  | recheck =>
    dsimp only [Connection.candidateStep]
    split
    · exact hfail
    · exact phaseInv_screen hrunning hwithin
  | barrier =>
    refine phaseInv_of_candidate rfl hrunning hwithin (fun h ↦ by cases h) fun barrier h n hn ↦ ?_
    rw [← CandidatePoint.sealedRows.inj h]
    -- the barrier is that of a record
    by_cases hzero : env.log.barrier run o.turnId = 0
    · rw [hzero]
      exact Nat.zero_le n
    · obtain ⟨e, he, hturn, hbarrier, hseq⟩ := EventLog.barrier_mem hzero
      rw [← hseq]
      exact hn e (has_of_mem_streamRows he) hbarrier hturn
  | sealedRows barrier =>
    have hchecked := checkCommitted_checked c o barrier (env.log.sealedRows run o.messageId)
    change PhaseInv run failed env
      (c.checkCommitted o barrier (env.log.sealedRows run o.messageId)).1
    generalize c.checkCommitted o barrier (env.log.sealedRows run o.messageId) = result
      at hchecked ⊢
    cases hchecked with
    | conflict => exact hfail
    | drop => exact phaseInv_leave hrunning
    | closed => exact phaseInv_leave hrunning
    | offer =>
      refine phaseInv_offer ?_ o
      exact hrunning

theorem liveState_eq_some {r : Live.LiveRedis} (h : liveState r = .ok (some o)) :
    ∃ m, r.liveMeta = some m ∧ m.afterSequence = o.afterSequence := by
  unfold liveState at h
  cases hmeta : r.liveMeta with
  | none =>
    rw [hmeta] at h
    cases h
  | some m =>
    rw [hmeta] at h
    dsimp only at h
    split_ifs at h
    · cases h
    · cases h
      exact ⟨m, rfl, rfl⟩

theorem phaseInv_conn (hi : PhaseInv run failed env c) (hfailed : env.runFailed → failed)
    (henv : env.Consistent run) (h : ConnStep run env c a c') : PhaseInv run failed env c' := by
  cases connStep_main h with
  | drain hphase => exact phaseInv_drain hi hfailed hphase
  | candidate hphase => exact phaseInv_candidate hi hphase
  | loaded hload hlive htail hphase =>
    obtain ⟨m, hmeta, hafter⟩ := liveState_eq_some hlive
    refine phaseInv_of_candidate hphase ?_ (hafter ▸ henv.written m hmeta) (fun h ↦ by cases h)
      fun _ h ↦ by cases h
    rw [htail]
    exact hi.terminal_eq_false (by rw [hload]; exact nofun)
  | idle htail hphase hfrom =>
    refine phaseInv_of_idle hphase fun hterminal ↦ ?_
    rw [htail] at hterminal
    exact absurd (hi.running hterminal) hfrom.1

/-! ### The last live item -/

/-- The live item that a step sends. -/
def StreamOp.live? : StreamOp → Option LiveOverlay
  | .live o => some o
  | _ => none

/-- The live items sent, oldest first. -/
def liveItems (l : List StreamOp) : List LiveOverlay := l.filterMap StreamOp.live?

/-- The last live item. -/
def lastLive (l : List StreamOp) : Option LiveOverlay := (liveItems l).getLast?

/-- The last live item of a message. -/
def lastLiveOf (l : List StreamOp) (identity : String × String) : Option LiveOverlay :=
  ((liveItems l).filter fun o ↦ decide (o.identity = identity)).getLast?

theorem lastLive_concat (l : List StreamOp) (a : StreamOp) :
    lastLive (l ++ [a]) = a.live?.or (lastLive l) := by
  unfold lastLive liveItems
  rw [List.filterMap_append]
  cases ha : a.live? with
  | none => simp [ha]
  | some o => simp [ha]

/-- The step notes the live item that it sends, and only that. -/
structure NotesLive (s : TailState) (a : StreamOp) (s' : TailState) : Prop where
  identity : s'.liveIdentity = (a.live?.map LiveOverlay.identity).or s.liveIdentity
  revision : s'.liveRevision = (a.live?.map LiveOverlay.revision).getD s.liveRevision

theorem notesLive_of_eq {s s' : TailState} (ha : a.live? = none)
    (hidentity : s'.liveIdentity = s.liveIdentity) (hrevision : s'.liveRevision = s.liveRevision) :
    NotesLive s a s' := ⟨by rw [ha]; exact hidentity, by rw [ha]; exact hrevision⟩

theorem notesLive_offer {s : TailState} (hidentity : c.tail.liveIdentity = s.liveIdentity)
    (hrevision : c.tail.liveRevision = s.liveRevision) (o : LiveOverlay) :
    NotesLive s (c.offer o).2 (c.offer o).1.tail := by
  unfold Connection.offer
  split
  · exact notesLive_of_eq rfl hidentity hrevision
  · exact ⟨rfl, rfl⟩

theorem notesLive_screen (c : Connection) (o : LiveOverlay) :
    NotesLive c.tail (c.screen o).2 (c.screen o).1.tail := by
  have hscreened := screen_screened c o
  generalize c.screen o = result at hscreened ⊢
  cases hscreened with
  | drop => exact notesLive_of_eq rfl rfl rfl
  | offer => exact notesLive_offer rfl rfl o
  | ask => exact notesLive_of_eq rfl rfl rfl

theorem notesLive_candidate (c : Connection) (o : LiveOverlay) (point : CandidatePoint) :
    NotesLive c.tail (c.candidateStep run env o point).2 (c.candidateStep run env o point).1.tail := by
  cases point with
  | position =>
    dsimp only [Connection.candidateStep]
    split
    · exact notesLive_of_eq rfl rfl rfl
    · exact notesLive_screen c o
  | recheck =>
    dsimp only [Connection.candidateStep]
    split
    · exact notesLive_of_eq rfl rfl rfl
    · exact notesLive_screen c o
  | barrier => exact notesLive_of_eq rfl rfl rfl
  | sealedRows barrier =>
    have hchecked := checkCommitted_checked c o barrier (env.log.sealedRows run o.messageId)
    change NotesLive c.tail (c.checkCommitted o barrier (env.log.sealedRows run o.messageId)).2
      (c.checkCommitted o barrier (env.log.sealedRows run o.messageId)).1.tail
    generalize c.checkCommitted o barrier (env.log.sealedRows run o.messageId) = result
      at hchecked ⊢
    cases hchecked with
    | conflict => exact notesLive_of_eq rfl rfl rfl
    | drop => exact notesLive_of_eq rfl rfl rfl
    | closed => exact notesLive_of_eq rfl rfl rfl
    | offer =>
      refine notesLive_offer ?_ ?_ o
      · rfl
      · rfl

theorem notesLive_drain (c : Connection) (resume : Resume) (point : DrainPoint) :
    NotesLive c.tail (c.drainStep run env resume point).2 (c.drainStep run env resume point).1.tail := by
  cases point with
  | highWater => exact notesLive_of_eq rfl rfl rfl
  | records => exact notesLive_of_eq rfl rfl rfl
  | items full rest =>
    cases rest with
    | nil => exact notesLive_of_eq rfl rfl rfl
    | cons e rest =>
      dsimp only [Connection.drainStep]
      cases hcommit : c.tail.commitRecord run e with
      | none => exact notesLive_of_eq rfl rfl rfl
      | some tail =>
        have hcommits := TailState.commitRecord_commits hcommit
        dsimp only
        split
        · exact notesLive_of_eq rfl hcommits.liveIdentity hcommits.liveRevision
        · exact notesLive_of_eq rfl hcommits.liveIdentity hcommits.liveRevision
  | terminalSequence =>
    dsimp only [Connection.drainStep]
    split
    · exact notesLive_of_eq rfl rfl rfl
    · exact notesLive_of_eq rfl rfl rfl
  | terminalStatus =>
    dsimp only [Connection.drainStep]
    split
    · exact notesLive_of_eq rfl rfl rfl
    · exact notesLive_of_eq rfl rfl rfl
  | terminalMessage => exact notesLive_of_eq rfl rfl rfl

theorem notesLive_conn (h : ConnStep run env c a c') : NotesLive c.tail a c'.tail := by
  cases connStep_main h with
  | drain => exact notesLive_drain _ _ _
  | candidate => exact notesLive_candidate _ _ _
  | loaded _ _ htail => exact notesLive_of_eq rfl (by rw [htail]) (by rw [htail])
  | idle htail => exact notesLive_of_eq rfl (by rw [htail]) (by rw [htail])

end Steps

end Centaeris.Stream
