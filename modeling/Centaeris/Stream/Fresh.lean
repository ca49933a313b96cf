import Centaeris.Live.Fencing
import Centaeris.Stream.Learnt

/-!
# Live text that the stream holds back

A live state that a connection has loaded is new to the client if nothing of its turn has been
committed after it and if it comes after the last live item sent for its message: it was written at a
later sequence, or at the same one with a later revision. `offer` does not look at the sequence. An
`open` starts its revisions again at 0, so the first revisions of a message that is opened again are
held back until their number passes that of the last item (`reopened_overlay_suppressed`).

This is the only case. When the connection is done with a live state that is new, it has sent it if
and only if the last live item was of another message or had a smaller revision (`live_sent_iff`).
The connection must not fail on the way: records name their run, writers do not write ahead of the
log, and no other record claims the message (`Env.Consistent`, `Sole`).
-/

namespace Centaeris.Stream

/-! ### Runs -/

/-- The run had the status `failed` or `cancelled` at some time since the client connected. -/
def FailedSeen (env₀ : Env) (l : List StreamOp) : Prop :=
  env₀.runFailed ∨ StreamOp.status true ∈ l

/-- What holds of a connection in a consistent environment. -/
structure StreamInv (run : AgentRunRef) (env₀ : Env) (l : List StreamOp) (σ : StreamState) : Prop where
  consistent : σ.env.Consistent run
  page : PageInv run σ.env.log σ.conn
  learnt : LearntInv run σ.env.log σ.conn.tail
  phase : PhaseInv run (FailedSeen env₀ l) σ.env σ.conn
  status : σ.env.runFailed → FailedSeen env₀ l
  identity : σ.conn.tail.liveIdentity = (lastLive l).map LiveOverlay.identity
  revision : ∀ o, lastLive l = some o → σ.conn.tail.liveRevision = o.revision

section Runs

variable {run : AgentRunRef} {env₀ : Env} {l : List StreamOp} {σ τ : StreamState} {a : StreamOp}
  {o : LiveOverlay}

theorem FailedSeen.append (h : FailedSeen env₀ l) (a : StreamOp) : FailedSeen env₀ (l ++ [a]) :=
  h.imp_right (List.mem_append_left _)

theorem PhaseInv.imp {failed failed' : Prop} {env : Env} {c : Connection}
    (hi : PhaseInv run failed env c) (h : failed → failed') : PhaseInv run failed' env c :=
  ⟨hi.running, fun resume hphase ↦ h (hi.failed resume hphase), hi.within, hi.reached, hi.rechecked,
    hi.queried⟩

theorem streamInv_conn (hi : StreamInv run env₀ l σ) {c : Connection}
    (h : ConnStep run σ.env σ.conn a c) : StreamInv run env₀ (l ++ [a]) ⟨σ.env, c⟩ := by
  have hnotes := notesLive_conn h
  refine ⟨hi.consistent, hi.page.delivers (connStep_delivery h) hi.consistent.accepts, ?_,
    (phaseInv_conn hi.phase hi.status hi.consistent h).imp fun h ↦ h.append a,
    fun hfailed ↦ (hi.status hfailed).append a, ?_, fun o ho ↦ ?_⟩
  · cases connStep_main h with
    | drain hphase => exact learnt_drain hi.learnt hi.page hphase
    | @candidate o _ hphase =>
      exact learnt_candidate hi.learnt fun barrier hpoint ↦
        hi.phase.queried o barrier (by rw [hphase, hpoint])
    | loaded _ _ htail => exact hi.learnt.of_eq (by rw [htail]) (by rw [htail])
    | idle htail => exact hi.learnt.of_eq (by rw [htail]) (by rw [htail])
  · show c.tail.liveIdentity = _
    rw [hnotes.identity, hi.identity, lastLive_concat]
    cases a.live? <;> rfl
  · show c.tail.liveRevision = _
    rw [lastLive_concat] at ho
    rw [hnotes.revision]
    cases hlive : a.live? with
    | none =>
      rw [hlive] at ho
      exact hi.revision o ho
    | some o' =>
      rw [hlive] at ho
      exact congrArg LiveOverlay.revision (Option.some.inj ho)

theorem EnvStep.barrierLe {env env' : Env} (h : EnvStep env a env') {turnId : String} {n : Nat}
    (hn : env'.log.BarrierLe run turnId n) : env.log.BarrierLe run turnId n :=
  fun e he ↦ hn e (h.has he)

theorem streamInv_env (hi : StreamInv run env₀ l σ) {env : Env} (h : EnvStep σ.env a env)
    (henv : env.Consistent run) : StreamInv run env₀ (l ++ [a]) { σ with env } := by
  have hlive : a.live? = none := by cases h <;> rfl
  have hlast : lastLive (l ++ [a]) = lastLive l := by rw [lastLive_concat, hlive, Option.none_or]
  refine ⟨henv, ⟨hi.page.accepts, fun e he ↦ h.has (hi.page.has e he), hi.page.ascending, hi.page.ahead⟩,
    ⟨fun t n hn ↦ hi.learnt.barriers t n (h.barrierLe hn), fun t m hmem ↦ ?_⟩,
    ⟨hi.phase.running, fun resume hphase ↦ (hi.phase.failed resume hphase).append a,
      fun o ho ↦ (hi.phase.within o ho).trans h.highWater_le, hi.phase.reached, hi.phase.rechecked,
      fun o barrier hphase n hn ↦ hi.phase.queried o barrier hphase n (h.barrierLe hn)⟩, ?_, ?_, ?_⟩
  · obtain ⟨e, he, hrest⟩ := hi.learnt.closed t m hmem
    exact ⟨e, h.has he, hrest⟩
  · intro hfailed
    cases h with
    | append => exact (hi.status hfailed).append _
    | hide => exact (hi.status hfailed).append _
    | status runFailed =>
      obtain rfl : runFailed = true := hfailed
      exact .inr (by simp)
    | redis => exact (hi.status hfailed).append _
  · rw [hlast]
    exact hi.identity
  · rw [hlast]
    exact hi.revision

/-- A step into a consistent environment. -/
def ConsistentStep (run : AgentRunRef) (σ : StreamState) (a : StreamOp) (τ : StreamState) : Prop :=
  StreamStep run σ a τ ∧ τ.env.Consistent run

theorem streamInv_of_run {start : Nat} (henv : env₀.Consistent run)
    (h : Run (ConsistentStep run) ⟨env₀, .connect start⟩ l σ) :
    StreamInv run env₀ l σ := by
  refine h.invariant_history (I := fun l σ ↦ StreamInv run env₀ l σ) ?_ fun l σ a τ _ hi ha ↦ ?_
  · refine ⟨henv, ⟨fun _ h ↦ (by cases h), fun _ h ↦ (by cases h), .nil, fun _ h ↦ (by cases h)⟩,
      ⟨fun _ _ _ ↦ Nat.zero_le _, fun _ _ h ↦ (by cases h)⟩,
      phaseInv_of_idle trivial (fun h ↦ by cases h), .inl, rfl, fun _ h ↦ (by cases h)⟩
  · cases ha.1 with
    | conn h => exact streamInv_conn hi h
    | env h => exact streamInv_env hi h ha.2

/-! ### A live state that is new -/

/-- The live state is new to the client: nothing committed comes after it, its message is open, the run
has not ended, and it comes after the last live item of its message. -/
structure NewOverlay (run : AgentRunRef) (env₀ : Env) (l : List StreamOp) (σ : StreamState)
    (o : LiveOverlay) : Prop where
  current : σ.env.log.BarrierLe run o.turnId o.afterSequence
  unsealed : ∀ e, σ.env.log.Has run e → e.isAssistantMessage → e.hasTurn o.turnId →
    ¬ e.hasMessage o.messageId
  running : ∀ e, σ.env.log.Has run e → ¬ e.isTerminal
  admitted : FailedSeen env₀ l → σ.env.log.hasUserMessage run
  newer : ∀ o', lastLiveOf l o.identity = some o' → o'.afterSequence < o.afterSequence ∨
    (o'.afterSequence = o.afterSequence ∧ o'.revision < o.revision)

/-- No committed message has the id of the live message, whatever its turn. -/
def Sole (run : AgentRunRef) (log : EventLog) (o : LiveOverlay) : Prop :=
  ∀ e, log.Has run e → e.isAssistantMessage → ¬ e.hasMessage o.messageId

/-- The last live item is of another message, or has a smaller revision. -/
def RevisionAdvances (l : List StreamOp) (o : LiveOverlay) : Prop :=
  ∀ o', lastLive l = some o' → o'.identity = o.identity → o'.revision < o.revision

/-- A new live state passes the tests before the queries. -/
theorem StreamInv.admits (hi : StreamInv run env₀ l σ) (hnew : NewOverlay run env₀ l σ o)
    (hended : σ.conn.phase ≠ .ended) : σ.conn.tail.Admits o where
  current := hi.learnt.barriers _ _ hnew.current
  running := hi.phase.terminal_eq_false hended
  unsealed hmem := by
    obtain ⟨e, he, hassistant, hturn, hmessage⟩ := hi.learnt.closed _ _ hmem
    exact hnew.unsealed e he hassistant hturn hmessage

/-- The last test. -/
theorem StreamInv.offer_live (hi : StreamInv run env₀ l σ) {c : Connection}
    (hidentity : c.tail.liveIdentity = σ.conn.tail.liveIdentity)
    (hrevision : c.tail.liveRevision = σ.conn.tail.liveRevision) :
    (c.offer o).2 = .live o ↔ RevisionAdvances l o := by
  have hlive : (c.offer o).2 = .live o ↔
      ¬ (c.tail.liveIdentity = some o.identity ∧ o.revision ≤ c.tail.liveRevision) := by
    unfold Connection.offer
    split
    · rename_i h
      exact ⟨fun hlabel ↦ (by cases hlabel), fun hnot ↦ absurd h hnot⟩
    · rename_i h
      exact ⟨fun _ ↦ h, fun _ ↦ rfl⟩
  rw [hlive, hidentity, hrevision, hi.identity]
  constructor
  · intro hnot o' ho' hsame
    by_contra hle
    refine hnot ⟨by rw [ho', Option.map_some, hsame], ?_⟩
    rw [hi.revision o' ho']
    omega
  · rintro hadvances ⟨hlast, hle⟩
    obtain ⟨o', ho', hsame⟩ := Option.map_eq_some_iff.1 hlast
    have := hadvances o' ho' hsame
    rw [hi.revision o' ho'] at hle
    omega

theorem StreamInv.screen_live (hi : StreamInv run env₀ l σ) (hnew : NewOverlay run env₀ l σ o)
    (hended : σ.conn.phase ≠ .ended) (hdone : (σ.conn.screen o).1.phase.candidate? = none) :
    (σ.conn.screen o).2 = .live o ↔ RevisionAdvances l o := by
  have hscreened := screen_screened σ.conn o
  generalize σ.conn.screen o = result at hscreened hdone ⊢
  cases hscreened with
  | drop h => exact absurd (hi.admits hnew hended) h
  | offer => exact hi.offer_live rfl rfl
  | ask => cases hdone

/-- The drain of a candidate goes on while the run has not ended. -/
theorem StreamInv.drain_goes_on (hi : StreamInv run env₀ l σ) (hnew : NewOverlay run env₀ l σ o)
    {point : DrainPoint} (hphase : σ.conn.phase = .drain (.candidate o) point) :
    (σ.conn.drainStep run σ.env (.candidate o) point).1.phase.candidate? = some o := by
  cases point with
  | highWater => rfl
  | records => rfl
  | items full rest =>
    cases rest with
    | nil => rfl
    | cons e rest =>
      have hmem : e ∈ σ.conn.pending := by
        rw [Connection.pending, hphase]
        exact List.mem_cons_self
      obtain ⟨tail, hcommit⟩ := commitRecord_of_accepts (hi.page.accepts e hmem) (hi.page.ahead e hmem)
      dsimp only [Connection.drainStep]
      rw [hcommit]
      dsimp only
      rw [if_neg (hnew.running e (hi.page.has e hmem))]
      rfl
  | terminalSequence =>
    dsimp only [Connection.drainStep]
    split
    · rename_i n hn
      obtain ⟨e, he, -⟩ := Option.map_eq_some_iff.1 hn
      have hstream := has_of_mem_streamRows (List.mem_of_find?_eq_some he)
      exact absurd (List.find?_some he) (hnew.running e hstream)
    · rfl
  | terminalStatus =>
    dsimp only [Connection.drainStep]
    split <;> rfl
  | terminalMessage =>
    have hmessage := hnew.admitted (hi.phase.failed _ hphase)
    dsimp only [Connection.drainStep]
    rw [hmessage]
    rfl

theorem StreamInv.candidate_live (hi : StreamInv run env₀ l σ) (hnew : NewOverlay run env₀ l σ o)
    (hsole : Sole run σ.env.log o) {point : CandidatePoint} (hphase : σ.conn.phase = .candidate o point)
    (hdone : (σ.conn.candidateStep run σ.env o point).1.phase.candidate? = none) :
    (σ.conn.candidateStep run σ.env o point).2 = .live o ↔ RevisionAdvances l o := by
  have hended : σ.conn.phase ≠ .ended := by rw [hphase]; exact nofun
  cases point with
  | position =>
    dsimp only [Connection.candidateStep] at hdone ⊢
    split at hdone
    · cases hdone
    · rename_i hle
      rw [if_neg hle]
      exact hi.screen_live hnew hended hdone
  | recheck =>
    have hle : ¬ σ.conn.tail.sessionHighWater < o.afterSequence := not_lt.2 (hi.phase.rechecked o hphase)
    dsimp only [Connection.candidateStep] at hdone ⊢
    rw [if_neg hle] at hdone ⊢
    exact hi.screen_live hnew hended hdone
  | barrier => cases hdone
  | sealedRows barrier =>
    have hchecked := checkCommitted_checked σ.conn o barrier (σ.env.log.sealedRows run o.messageId)
    change (σ.conn.checkCommitted o barrier (σ.env.log.sealedRows run o.messageId)).2 = .live o ↔ _
    generalize σ.conn.checkCommitted o barrier (σ.env.log.sealedRows run o.messageId) = result
      at hchecked ⊢
    -- a row that the second query finds would be a committed message of that id
    have hnone : ∀ e, e ∉ σ.env.log.sealedRows run o.messageId := fun e he ↦ by
      obtain ⟨hmem, hassistant, hmessage⟩ := EventLog.mem_sealedRows he
      exact hsole e (has_of_mem_streamRows hmem) hassistant hmessage
    cases hchecked with
    | conflict h =>
      obtain ⟨e, he, -⟩ := h
      exact absurd he (hnone e)
    | drop h =>
      have hknown := hi.learnt.barriers _ _ hnew.current
      have hqueried := hi.phase.queried o barrier hphase _ hnew.current
      exact absurd h (not_lt.2 (Nat.max_le.2 ⟨hknown, hqueried⟩))
    | closed he => exact absurd he (hnone _)
    | offer =>
      refine hi.offer_live ?_ ?_
      · rfl
      · rfl

/-- **A new live state is sent if and only if its revision advances.** In every run of a connection in
a consistent environment, when the connection is done with a live state that is new to the client, it
has sent it, unless the last live item was of the same message and had the same or a larger
revision. -/
theorem live_sent_iff {start : Nat} (henv : env₀.Consistent run)
    (h : Run (ConsistentStep run) ⟨env₀, .connect start⟩ l σ)
    (ho : σ.conn.phase.candidate? = some o) (hstep : StreamStep run σ a τ)
    (hdone : τ.conn.phase.candidate? = none) (hnew : NewOverlay run env₀ l σ o)
    (hsole : Sole run σ.env.log o) : a = .live o ↔ RevisionAdvances l o := by
  have hi := streamInv_of_run henv h
  cases hstep with
  | env => cases hdone.symm.trans ho
  | conn h =>
    cases connStep_main h with
    | @drain resume point hphase =>
      rw [hphase] at ho
      cases resume with
      | candidate o' =>
        obtain rfl : o' = o := Option.some.inj ho
        cases (hi.drain_goes_on hnew hphase).symm.trans hdone
      | _ => cases ho
    | candidate hphase =>
      rw [hphase] at ho
      obtain rfl := Option.some.inj ho
      exact hi.candidate_live hnew hsole hphase hdone
    | loaded hload =>
      rw [hload] at ho
      cases ho
    | idle _ _ hfrom => cases ho.symm.trans hfrom.2

end Runs

/-! ### A message that is opened again -/

/-- A call after the interval between two flushes. -/
def laterEnv : Live.CallEnv := ⟨100, 100, .answered⟩

/-- A worker opens the message `m` of the turn `t` at sequence 1 and writes two revisions. -/
def writtenTwice : Live.LiveState Bool :=
  (Live.openedOnce.afterCall id false Live.oldReplace Live.answeredEnv).afterCall id false
    Live.oldReplace laterEnv

/-- It opens the message again. -/
def openedTwice : Live.LiveState Bool :=
  (writtenTwice.afterCall id false (.open Live.newOpen) laterEnv).afterOpen id false Live.newOpen
    .answered

/-- It writes the first revision of the new text. -/
def writtenAgain : Live.LiveState Bool :=
  openedTwice.afterCall id false (.replace "t" "m" "new text") laterEnv

theorem run_writtenAgain :
    (∃ l, Run (Live.LiveStep id) .initial l writtenTwice) ∧
    Run (Live.LiveStep id) writtenTwice
      [.call false (.open Live.newOpen) laterEnv, .openScript false Live.newOpen .answered (.ok ()),
        .call false (.replace "t" "m" "new text") laterEnv] writtenAgain := by
  constructor
  · exact ⟨_, (Live.run_openedOnce.snoc (Live.liveStep_afterCall _ _ rfl)).snoc
      (Live.liveStep_afterCall _ _ rfl)⟩
  · exact (Live.run_open rfl (by decide +kernel) (by decide +kernel)).snoc
      (Live.liveStep_afterCall _ _ rfl)

/-- The log has a phase of the turn. -/
def firstEnv : Env := { liveEnv with redis := writtenTwice.redis }

/-- The phase before the second text. -/
def laterPhase : SessionEvent := sampleEvent "e2" 2 "phase_event" [("turnId", .str "t")]

/-- The log has the second phase, and the worker has written. -/
def secondEnv : Env where
  log := firstEnv.log.append laterPhase (by decide +kernel)
  runFailed := false
  redis := writtenAgain.redis

/-- The second text. -/
def laterItem : LiveOverlay := ⟨"m", "t", 2, 1, "new text", some .null⟩

theorem accepts_samplePhase : Accepts sampleRun samplePhase :=
  ⟨by decide +kernel, fun _ ↦ by decide +kernel, fun h ↦ absurd h (by decide +kernel)⟩

theorem accepts_laterPhase : Accepts sampleRun laterPhase :=
  ⟨by decide +kernel, fun _ ↦ by decide +kernel, fun h ↦ absurd h (by decide +kernel)⟩

/-- A log with only the first phase. -/
theorem consistent_of_first {env : Env} (hlog : env.log.streamRows sampleRun = [samplePhase])
    (hwritten : env.redis.liveMeta.all fun m ↦ decide (m.afterSequence ≤ env.log.highWater)) :
    env.Consistent sampleRun := by
  refine ⟨fun e he ↦ ?_, fun m hm ↦ ?_⟩
  · rw [hlog] at he
    rw [List.mem_singleton.1 he]
    exact accepts_samplePhase
  · rw [hm] at hwritten
    exact of_decide_eq_true hwritten

/-- A log with both. -/
theorem consistent_of_both {env : Env}
    (hlog : env.log.streamRows sampleRun = [samplePhase, laterPhase])
    (hwritten : env.redis.liveMeta.all fun m ↦ decide (m.afterSequence ≤ env.log.highWater)) :
    env.Consistent sampleRun := by
  refine ⟨fun e he ↦ ?_, fun m hm ↦ ?_⟩
  · rw [hlog] at he
    rcases List.mem_cons.1 he with rfl | he
    · exact accepts_samplePhase
    · rw [List.mem_singleton.1 he]
      exact accepts_laterPhase
  · rw [hm] at hwritten
    exact of_decide_eq_true hwritten

/-- The connection when it has sent the first text. -/
def firstSent : Connection := ((Connection.connect 0).prompts sampleRun firstEnv 12).1

/-- The history until the connection has the second text in hand. -/
def reopenedHistory : List StreamOp :=
  ((Connection.connect 0).prompts sampleRun firstEnv 12).2 ++
    ([.append laterPhase] ++ ([.redis writtenAgain.redis] ++ (firstSent.prompts sampleRun secondEnv 8).2))

/-- The connection with the second text in hand. -/
def reopenedState : StreamState := ⟨secondEnv, (firstSent.prompts sampleRun secondEnv 8).1⟩

theorem consistent_firstEnv : firstEnv.Consistent sampleRun :=
  consistent_of_first (by decide +kernel) (by decide +kernel)

theorem run_reopened :
    Run (ConsistentStep sampleRun) ⟨firstEnv, .connect 0⟩ reopenedHistory reopenedState := by
  have hsecond : secondEnv.Consistent sampleRun := consistent_of_both (by decide +kernel) (by decide +kernel)
  have hbetween : Env.Consistent sampleRun { firstEnv with log := secondEnv.log } :=
    consistent_of_both (by decide +kernel) (by decide +kernel)
  have hto : Run (ConsistentStep sampleRun) ⟨firstEnv, .connect 0⟩ _ ⟨firstEnv, firstSent⟩ :=
    run_prompts sampleRun firstEnv (fun _ _ _ h ↦ ⟨.conn h, consistent_firstEnv⟩) 12 (.connect 0)
  have happend : ConsistentStep sampleRun ⟨firstEnv, firstSent⟩ (.append laterPhase)
      ⟨{ firstEnv with log := secondEnv.log }, firstSent⟩ := ⟨.env (.append (by decide +kernel)), hbetween⟩
  have hwrite : ConsistentStep sampleRun ⟨{ firstEnv with log := secondEnv.log }, firstSent⟩
      (.redis writtenAgain.redis) ⟨secondEnv, firstSent⟩ := ⟨.env (.redis _), hsecond⟩
  have hfrom : Run (ConsistentStep sampleRun) ⟨secondEnv, firstSent⟩ _ reopenedState :=
    run_prompts sampleRun secondEnv (fun _ _ _ h ↦ ⟨.conn h, hsecond⟩) 8 firstSent
  exact hto.trans ((Run.single happend).trans ((Run.single hwrite).trans hfrom))

theorem has_secondEnv {e : SessionEvent} (h : secondEnv.log.Has sampleRun e) :
    e = { samplePhase with projects := e.projects } ∨ e = { laterPhase with projects := e.projects } := by
  obtain ⟨-, projects, hrow⟩ := h
  rcases List.mem_append.1 hrow with hrow | hrow
  · left
    have heq := List.mem_singleton.1 hrow
    rw [← heq]
  · right
    have heq := List.mem_singleton.1 hrow
    rw [← heq]

theorem newOverlay_laterItem :
    NewOverlay sampleRun firstEnv reopenedHistory reopenedState laterItem := by
  refine ⟨fun e he _ _ ↦ ?_, fun e he hassistant ↦ ?_, fun e he hterminal ↦ ?_, fun h ↦ ?_,
    fun o ho ↦ .inl ?_⟩
  · rcases has_secondEnv he with h | h <;> rw [h] <;> cases e.projects <;> decide +kernel
  · refine absurd hassistant ?_
    rcases has_secondEnv he with h | h <;> rw [h] <;> cases e.projects <;> decide +kernel
  · refine absurd hterminal ?_
    rcases has_secondEnv he with h | h <;> rw [h] <;> cases e.projects <;> decide +kernel
  · refine absurd h ?_
    rintro (h | h)
    · cases h
    · revert h
      decide +kernel
  · have hlast : lastLiveOf reopenedHistory laterItem.identity =
        some ⟨"m", "t", 1, 2, "old text", some .null⟩ := by decide +kernel
    rw [← Option.some.inj (hlast.symm.trans ho)]
    decide

theorem sole_laterItem : Sole sampleRun secondEnv.log laterItem := by
  intro e he hassistant
  refine absurd hassistant ?_
  rcases has_secondEnv he with h | h <;> rw [h] <;> cases e.projects <;> decide +kernel

/-- **The text of a message that is opened again is held back.** A worker writes two revisions of a
message, the client receives the second, the worker opens the message again at a later sequence and
writes. The connection loads the new text, which is new to the client, and does not send it. -/
theorem reopened_overlay_suppressed :
    ((∃ l, Run (Live.LiveStep id) .initial l writtenTwice) ∧
      Run (Live.LiveStep id) writtenTwice
        [.call false (.open Live.newOpen) laterEnv, .openScript false Live.newOpen .answered (.ok ()),
          .call false (.replace "t" "m" "new text") laterEnv] writtenAgain) ∧
    firstEnv.redis = writtenTwice.redis ∧ StreamOp.redis writtenAgain.redis ∈ reopenedHistory ∧
    liveState writtenAgain.redis = .ok (some laterItem) ∧
    Run (ConsistentStep sampleRun) ⟨firstEnv, .connect 0⟩ reopenedHistory reopenedState ∧
    reopenedState.conn.phase.candidate? = some laterItem ∧
    NewOverlay sampleRun firstEnv reopenedHistory reopenedState laterItem ∧
    Sole sampleRun reopenedState.env.log laterItem ∧
    ∃ τ, StreamStep sampleRun reopenedState .silent τ ∧ τ.conn.phase.candidate? = none := by
  have hlabel : (reopenedState.conn.prompt sampleRun secondEnv).map
      (fun next ↦ (next.2, next.1.phase.candidate?)) = some (.silent, none) := by decide +kernel
  obtain ⟨⟨c, a⟩, hprompt, hnext⟩ := Option.map_eq_some_iff.1 hlabel
  obtain ⟨rfl, hdone⟩ := Prod.mk.inj hnext
  refine ⟨run_writtenAgain, rfl, by decide +kernel, by decide +kernel, run_reopened, by decide +kernel,
    newOverlay_laterItem, sole_laterItem, ⟨secondEnv, c⟩, ?_, hdone⟩
  exact .conn (connStep_of_prompt hprompt)

/-- The first text. -/
def firstItem : LiveOverlay := ⟨"m", "t", 1, 2, "old text", some .null⟩

/-- The connection with the first text in hand. -/
def firstState : StreamState := ⟨firstEnv, ((Connection.connect 0).prompts sampleRun firstEnv 11).1⟩

theorem has_firstEnv {e : SessionEvent} (h : firstEnv.log.Has sampleRun e) :
    e = { samplePhase with projects := e.projects } := by
  obtain ⟨-, projects, hrow⟩ := h
  rw [← List.mem_singleton.1 hrow]

theorem newOverlay_firstItem : NewOverlay sampleRun firstEnv
    ((Connection.connect 0).prompts sampleRun firstEnv 11).2 firstState firstItem := by
  refine ⟨fun e he _ _ ↦ ?_, fun e he hassistant ↦ ?_, fun e he hterminal ↦ ?_, fun h ↦ ?_,
    fun o ho ↦ ?_⟩
  · rw [has_firstEnv he]
    cases e.projects <;> decide +kernel
  · refine absurd hassistant ?_
    rw [has_firstEnv he]
    cases e.projects <;> decide +kernel
  · refine absurd hterminal ?_
    rw [has_firstEnv he]
    cases e.projects <;> decide +kernel
  · refine absurd h ?_
    rintro (h | h)
    · cases h
    · revert h
      decide +kernel
  · have hnone : lastLiveOf ((Connection.connect 0).prompts sampleRun firstEnv 11).2 firstItem.identity =
        none := by decide +kernel
    cases hnone.symm.trans ho

/-- The first text is sent. -/
theorem live_sent_iff_first : ∃ τ, StreamStep sampleRun firstState (.live firstItem) τ := by
  have hrun : Run (ConsistentStep sampleRun) ⟨firstEnv, .connect 0⟩ _ firstState :=
    run_prompts sampleRun firstEnv (fun _ _ _ h ↦ ⟨.conn h, consistent_firstEnv⟩) 11 (.connect 0)
  have hlabel : (firstState.conn.prompt sampleRun firstEnv).map (fun next ↦ next.1.phase.candidate?) =
      some none := by decide +kernel
  obtain ⟨⟨c, a⟩, hprompt, hdone⟩ := Option.map_eq_some_iff.1 hlabel
  have hstep : StreamStep sampleRun firstState a ⟨firstEnv, c⟩ := .conn (connStep_of_prompt hprompt)
  have hsole : Sole sampleRun firstEnv.log firstItem := fun e he hassistant ↦ by
    refine absurd hassistant ?_
    rw [has_firstEnv he]
    cases e.projects <;> decide +kernel
  have hlast : lastLive ((Connection.connect 0).prompts sampleRun firstEnv 11).2 = none := by
    decide +kernel
  have hlive : a = .live firstItem :=
    (live_sent_iff consistent_firstEnv hrun (by decide +kernel) hstep hdone newOverlay_firstItem
      hsole).2 fun o ho ↦ by cases hlast.symm.trans ho
  exact ⟨_, hlive ▸ hstep⟩

end Centaeris.Stream
