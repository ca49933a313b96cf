import Centaeris.Stream.Tail

/-!
# Live text behind its barrier

A live item is stale when a barrier event of its turn lies after the sequence it was written at, or
when its message has been committed. The connection learns of barriers in two ways. Records that it
sends raise the barrier of their turn, and a query, made once for each message, covers the records
before its cursor.

The two are enough: the query is only remembered, and a record before the cursor cannot appear later,
because the cursor is not in the future (`require_cursor_not_future`).
-/

namespace Centaeris.Stream

/-! ### The tests of a live candidate -/

/-- No test before the queries stops the candidate. -/
structure TailState.Admits (s : TailState) (o : LiveOverlay) : Prop where
  current : s.overlayBarriers o.turnId ≤ o.afterSequence
  running : s.terminal = false
  unsealed : o.identity ∉ s.sealedLiveIdentities

/-- What the tests before the queries lead to. -/
inductive Screened (c : Connection) (o : LiveOverlay) : Connection × StreamOp → Prop
  | drop (h : ¬ c.tail.Admits o) : Screened c o (c.leave, .silent)
  | offer (h : c.tail.Admits o) (hchecked : o.identity ∈ c.tail.checkedLiveIdentities) :
      Screened c o (c.offer o)
  | ask (h : c.tail.Admits o) : Screened c o ({ c with phase := .candidate o .barrier }, .silent)

theorem supersedes_iff {s : TailState} {o : LiveOverlay} :
    s.supersedes o ↔ o.afterSequence < s.overlayBarriers o.turnId := decide_eq_true_iff

theorem screen_screened (c : Connection) (o : LiveOverlay) : Screened c o (c.screen o) := by
  unfold Connection.screen
  split
  · rename_i h
    exact .drop fun hadmits ↦ absurd hadmits.current (not_le.2 (supersedes_iff.1 h))
  rename_i hcurrent
  split
  · rename_i h
    refine .drop fun hadmits ↦ h.elim (fun hterminal ↦ ?_) hadmits.unsealed
    rw [hadmits.running] at hterminal
    cases hterminal
  rename_i hopen
  obtain ⟨hrunning, hunsealed⟩ := not_or.1 hopen
  have hadmits : c.tail.Admits o :=
    ⟨not_lt.1 (supersedes_iff.not.1 hcurrent), Bool.eq_false_iff.2 hrunning, hunsealed⟩
  split
  · rename_i hchecked
    exact .offer hadmits hchecked
  · exact .ask hadmits

/-- What the tests after the queries lead to. -/
inductive Checked (c : Connection) (o : LiveOverlay) (barrier : Nat) (rows : List SessionEvent) :
    Connection × StreamOp → Prop
  | conflict (h : ∃ e ∈ rows, ¬ e.hasTurn o.turnId ∨ 1 < rows.length) :
      Checked c o barrier rows ({ c with phase := .failed }, .silent)
  | drop (h : o.afterSequence < max (c.tail.overlayBarriers o.turnId) barrier) :
      Checked c o barrier rows ({ c with tail := c.tail.raiseBarrier o.turnId barrier }.leave, .silent)
  | closed {e : SessionEvent} (he : e ∈ rows) (hturn : e.hasTurn o.turnId) :
      Checked c o barrier rows
        ({ c with tail := { c.tail.raiseBarrier o.turnId barrier with
            sealedLiveIdentities := o.identity :: c.tail.sealedLiveIdentities } }.leave, .silent)
  | offer (hrows : rows = [])
      (hcurrent : max (c.tail.overlayBarriers o.turnId) barrier ≤ o.afterSequence) :
      Checked c o barrier rows
        ({ c with tail := { c.tail.raiseBarrier o.turnId barrier with
            checkedLiveIdentities := o.identity :: c.tail.checkedLiveIdentities } }.offer o)

theorem raiseBarrier_self (s : TailState) (turnId : String) (n : Nat) :
    (s.raiseBarrier turnId n).overlayBarriers turnId = max (s.overlayBarriers turnId) n := by
  rw [TailState.raiseBarrier_apply, if_pos rfl]

theorem checkCommitted_checked (c : Connection) (o : LiveOverlay) (barrier : Nat)
    (rows : List SessionEvent) : Checked c o barrier rows (c.checkCommitted o barrier rows) := by
  unfold Connection.checkCommitted
  split
  · rename_i h
    refine .conflict ?_
    rcases h with hlong | hother
    · obtain ⟨e, rest, rfl⟩ := List.exists_cons_of_length_pos (lt_trans Nat.zero_lt_one hlong)
      exact ⟨e, List.mem_cons_self, .inr hlong⟩
    · obtain ⟨e, he, hturn⟩ := List.any_eq_true.1 hother
      exact ⟨e, he, .inl (by simpa using hturn)⟩
  rename_i hagree
  dsimp only
  split
  · rename_i h
    refine .drop ?_
    rw [← raiseBarrier_self]
    exact supersedes_iff.1 h
  rename_i hcurrent
  split
  · rename_i hrows
    obtain ⟨e, rest, rfl⟩ := List.exists_cons_of_ne_nil hrows
    refine .closed List.mem_cons_self ?_
    simp only [not_or, List.any_cons, Bool.or_eq_true, Bool.not_eq_true'] at hagree
    exact Bool.not_eq_false _ ▸ hagree.2.1
  · rename_i hrows
    refine .offer (not_not.1 hrows) ?_
    rw [← raiseBarrier_self]
    exact not_lt.1 (supersedes_iff.not.1 hcurrent)

/-- What the last test leads to. -/
theorem offer_cases (c : Connection) (o : LiveOverlay) :
    (c.offer o).1.tail.overlayBarriers = c.tail.overlayBarriers ∧
      (c.offer o).1.tail.sealedLiveIdentities = c.tail.sealedLiveIdentities ∧
      (c.offer o).1.tail.checkedLiveIdentities = c.tail.checkedLiveIdentities ∧
      ((c.offer o).2 = .silent ∨ (c.offer o).2 = .live o) := by
  unfold Connection.offer
  split
  · exact ⟨rfl, rfl, rfl, .inl rfl⟩
  · exact ⟨rfl, rfl, rfl, .inr rfl⟩

/-! ### What the connection knows -/

/-- The candidate whose queries are under way. -/
def Phase.asks : Phase → Option LiveOverlay
  | .candidate o .barrier | .candidate o (.sealedRows _) => some o
  | _ => none

/-- What the connection knows of the records that it has sent, and of those before its cursor. -/
structure OverlayInv (run : AgentRunRef) (start : Nat) (l : List StreamOp) (σ : StreamState) : Prop where
  start_le : start ≤ σ.env.log.highWater
  barriers : ∀ e t, StreamOp.committed e ∈ l → e.isBarrier → e.hasTurn t →
    e.sequence ≤ σ.conn.tail.overlayBarriers t
  closed : ∀ e t m, StreamOp.committed e ∈ l → e.isAssistantMessage → e.hasTurn t → e.hasMessage m →
    (t, m) ∈ σ.conn.tail.sealedLiveIdentities
  /-- The query for a message is remembered. -/
  checked : ∀ t m, (t, m) ∈ σ.conn.tail.checkedLiveIdentities →
    ∀ e ∈ σ.env.log.streamRows run, e.sequence ≤ start →
      (e.isBarrier → e.hasTurn t → e.sequence ≤ σ.conn.tail.overlayBarriers t) ∧
      (e.isAssistantMessage → ¬ e.hasMessage m)
  asks : ∀ o, σ.conn.phase.asks = some o → o.identity ∉ σ.conn.tail.sealedLiveIdentities
  /-- The first query, before the second is made. -/
  queried : ∀ o barrier, σ.conn.phase = .candidate o (.sealedRows barrier) →
    ∀ e ∈ σ.env.log.streamRows run, e.sequence ≤ start → e.isBarrier → e.hasTurn o.turnId →
      e.sequence ≤ barrier

section OverlayInv

variable {run : AgentRunRef} {start : Nat} {l : List StreamOp} {σ : StreamState} {a : StreamOp}

theorem asks_of_sealedRows {phase : Phase} {o : LiveOverlay} {barrier : Nat}
    (h : phase = .candidate o (.sealedRows barrier)) : phase.asks = some o := by
  rw [h]
  rfl

/-- A step that sends no record, forgets nothing and asks nothing. -/
theorem OverlayInv.idle (hi : OverlayInv run start l σ) {c : Connection} (ha : ∀ e, a ≠ .committed e)
    (hbarriers : ∀ t, σ.conn.tail.overlayBarriers t ≤ c.tail.overlayBarriers t)
    (hclosed : σ.conn.tail.sealedLiveIdentities ⊆ c.tail.sealedLiveIdentities)
    (hchecked : c.tail.checkedLiveIdentities = σ.conn.tail.checkedLiveIdentities)
    (hasks : c.phase.asks = none) : OverlayInv run start (l ++ [a]) ⟨σ.env, c⟩ where
  start_le := hi.start_le
  barriers e t hmem hbarrier hturn := by
    rcases List.mem_append.1 hmem with hmem | hmem
    · exact (hi.barriers e t hmem hbarrier hturn).trans (hbarriers t)
    · exact absurd (List.mem_singleton.1 hmem).symm (ha e)
  closed e t m hmem hassistant hturn hmessage := by
    rcases List.mem_append.1 hmem with hmem | hmem
    · exact hclosed (hi.closed e t m hmem hassistant hturn hmessage)
    · exact absurd (List.mem_singleton.1 hmem).symm (ha e)
  checked t m hmem e he hle := by
    rw [hchecked] at hmem
    refine (hi.checked t m hmem e he hle).imp_left fun h hbarrier hturn ↦ ?_
    exact (h hbarrier hturn).trans (hbarriers t)
  asks o ho := by
    rw [hasks] at ho
    cases ho
  queried o barrier ho := by
    rw [asks_of_sealedRows ho] at hasks
    cases hasks

/-- A step that leaves what is known as it is. -/
theorem OverlayInv.keep (hi : OverlayInv run start l σ) {c : Connection} (ha : ∀ e, a ≠ .committed e)
    (htail : c.tail.overlayBarriers = σ.conn.tail.overlayBarriers ∧
      c.tail.sealedLiveIdentities = σ.conn.tail.sealedLiveIdentities ∧
      c.tail.checkedLiveIdentities = σ.conn.tail.checkedLiveIdentities)
    (hasks : c.phase.asks = none) : OverlayInv run start (l ++ [a]) ⟨σ.env, c⟩ :=
  hi.idle ha (fun t ↦ (congrFun htail.1 t).ge) (fun _ h ↦ htail.2.1 ▸ h) htail.2.2 hasks

theorem asks_leave (c : Connection) : c.leave.phase.asks = none := by
  unfold Connection.leave
  cases c.tail.terminal <;> rfl

theorem asks_drained (c : Connection) (resume : Resume) : (c.drained resume).phase.asks = none := by
  unfold Connection.drained
  cases resume <;> cases c.tail.terminal <;> cases c.redisAvailable <;> first | rfl | skip
  all_goals rename_i sawLive
  all_goals cases sawLive <;> rfl

theorem asks_offer (c : Connection) (o : LiveOverlay) : (c.offer o).1.phase.asks = none := by
  unfold Connection.offer
  split <;> exact asks_leave _

theorem offer_ne_committed (c : Connection) (o : LiveOverlay) (e : SessionEvent) :
    (c.offer o).2 ≠ .committed e := by
  rcases (offer_cases c o).2.2.2 with h | h <;> rw [h] <;> exact nofun

theorem asks_of_idle {phase : Phase} (h : phase.Idle) : phase.asks = none := by
  cases phase <;> first | rfl | exact h.elim

/-- A record is sent. -/
theorem OverlayInv.send (hi : OverlayInv run start l σ) {c : Connection} {e : SessionEvent}
    {tail : TailState} (hcommit : Commits σ.conn.tail e tail)
    (htail : c.tail.overlayBarriers = tail.overlayBarriers ∧
      c.tail.sealedLiveIdentities = tail.sealedLiveIdentities ∧
      c.tail.checkedLiveIdentities = tail.checkedLiveIdentities)
    (hasks : c.phase.asks = none) : OverlayInv run start (l ++ [.committed e]) ⟨σ.env, c⟩ := by
  have hgrow : ∀ t, σ.conn.tail.overlayBarriers t ≤ c.tail.overlayBarriers t := by
    intro t
    rw [htail.1, hcommit.barriers]
    split
    · exact le_max_left _ _
    · exact le_refl _
  have hclosed : σ.conn.tail.sealedLiveIdentities ⊆ c.tail.sealedLiveIdentities := by
    rintro ⟨t, m⟩ h
    rw [htail.2.1]
    exact (hcommit.mem_sealed t m).2 (.inl h)
  -- for the records sent before, this is a step that sends none
  have hold := hi.idle (a := .silent) (fun _ ↦ nofun) hgrow hclosed
    (htail.2.2.trans hcommit.checked) hasks
  refine ⟨hold.start_le, fun r t hmem hbarrier hturn ↦ ?_, fun r t m hmem hassistant hturn hmessage ↦ ?_,
    hold.checked, hold.asks, hold.queried⟩
  · rcases List.mem_append.1 hmem with hmem | hmem
    · exact (hi.barriers r t hmem hbarrier hturn).trans (hgrow t)
    · obtain rfl : r = e := by simpa using hmem
      show r.sequence ≤ c.tail.overlayBarriers t
      rw [htail.1, hcommit.barriers, if_pos ⟨hbarrier, hturn⟩]
      exact le_max_right _ _
  · rcases List.mem_append.1 hmem with hmem | hmem
    · exact hclosed (hi.closed r t m hmem hassistant hturn hmessage)
    · obtain rfl : r = e := by simpa using hmem
      show (t, m) ∈ c.tail.sealedLiveIdentities
      rw [htail.2.1]
      exact (hcommit.mem_sealed t m).2 (.inr ⟨hassistant, hturn, hmessage⟩)

theorem overlayInv_drain (hi : OverlayInv run start l σ) (resume : Resume) (point : DrainPoint) :
    OverlayInv run start (l ++ [(σ.conn.drainStep run σ.env resume point).2])
      ⟨σ.env, (σ.conn.drainStep run σ.env resume point).1⟩ := by
  cases point with
  | highWater => exact hi.keep (fun _ ↦ nofun) ⟨rfl, rfl, rfl⟩ rfl
  | records highWater => exact hi.keep (fun _ ↦ nofun) ⟨rfl, rfl, rfl⟩ rfl
  | items full rest =>
    cases rest with
    | nil => exact hi.keep (fun _ ↦ nofun) ⟨rfl, rfl, rfl⟩ rfl
    | cons e rest =>
      dsimp only [Connection.drainStep]
      cases hcommit : σ.conn.tail.commitRecord run e with
      | none => exact hi.keep (fun _ ↦ nofun) ⟨rfl, rfl, rfl⟩ rfl
      | some tail =>
        dsimp only
        split
        · exact hi.send (TailState.commitRecord_commits hcommit) ⟨rfl, rfl, rfl⟩ (asks_drained _ _)
        · exact hi.send (TailState.commitRecord_commits hcommit) ⟨rfl, rfl, rfl⟩ rfl
  | terminalSequence =>
    dsimp only [Connection.drainStep]
    split
    · exact hi.keep (fun _ ↦ nofun) ⟨rfl, rfl, rfl⟩ (asks_drained _ _)
    · exact hi.keep (fun _ ↦ nofun) ⟨rfl, rfl, rfl⟩ rfl
  | terminalStatus =>
    dsimp only [Connection.drainStep]
    split
    · exact hi.keep (fun _ ↦ nofun) ⟨rfl, rfl, rfl⟩ rfl
    · exact hi.keep (fun _ ↦ nofun) ⟨rfl, rfl, rfl⟩ (asks_drained _ _)
  | terminalMessage => exact hi.keep (fun _ ↦ nofun) ⟨rfl, rfl, rfl⟩ (asks_drained _ _)

theorem overlayInv_screen (hi : OverlayInv run start l σ) (o : LiveOverlay) :
    OverlayInv run start (l ++ [(σ.conn.screen o).2]) ⟨σ.env, (σ.conn.screen o).1⟩ := by
  have hscreened := screen_screened σ.conn o
  generalize σ.conn.screen o = result at hscreened ⊢
  cases hscreened with
  | drop => exact hi.keep (fun _ ↦ nofun) ⟨rfl, rfl, rfl⟩ (asks_leave _)
  | offer =>
    obtain ⟨hbarriers, hclosed, hchecked, -⟩ := offer_cases σ.conn o
    exact hi.keep (offer_ne_committed _ _) ⟨hbarriers, hclosed, hchecked⟩ (asks_offer _ _)
  | ask hadmits =>
    have hkeep := hi.keep (a := .silent) (c := { σ.conn with phase := .loop }) (fun _ ↦ nofun)
      ⟨rfl, rfl, rfl⟩ rfl
    refine ⟨hkeep.start_le, hkeep.barriers, hkeep.closed, hkeep.checked, fun o' ho' ↦ ?_, fun _ _ h ↦ ?_⟩
    · obtain rfl : o = o' := Option.some.inj ho'
      exact hadmits.unsealed
    · cases h

theorem le_raiseBarrier (s : TailState) (turnId t : String) (n : Nat) :
    s.overlayBarriers t ≤ (s.raiseBarrier turnId n).overlayBarriers t := by
  rw [TailState.raiseBarrier_apply]
  split
  · exact le_max_left _ _
  · exact le_refl _

/-- The queries have found nothing, and the message is noted as checked. -/
theorem OverlayInv.check (hi : OverlayInv run start l σ) {c : Connection} {o : LiveOverlay}
    {barrier : Nat} (hphase : σ.conn.phase = .candidate o (.sealedRows barrier))
    (ha : ∀ e, a ≠ .committed e) (hrows : σ.env.log.sealedRows run o.messageId = [])
    (hbarriers : c.tail.overlayBarriers = (σ.conn.tail.raiseBarrier o.turnId barrier).overlayBarriers)
    (hclosed : c.tail.sealedLiveIdentities = σ.conn.tail.sealedLiveIdentities)
    (hchecked : c.tail.checkedLiveIdentities = o.identity :: σ.conn.tail.checkedLiveIdentities)
    (hasks : c.phase.asks = none) : OverlayInv run start (l ++ [a]) ⟨σ.env, c⟩ := by
  have hgrow : ∀ t, σ.conn.tail.overlayBarriers t ≤ c.tail.overlayBarriers t := fun t ↦
    hbarriers ▸ le_raiseBarrier _ _ _ _
  -- what was known before is kept as if the message had not been noted
  have hold := hi.idle (a := a)
    (c := { c with tail := { c.tail with checkedLiveIdentities := σ.conn.tail.checkedLiveIdentities } })
    ha hgrow (fun _ h ↦ hclosed ▸ h) rfl hasks
  refine ⟨hold.start_le, hold.barriers, hold.closed, fun t m hmem e he hle ↦ ?_, hold.asks, hold.queried⟩
  rw [show (⟨σ.env, c⟩ : StreamState).conn.tail.checkedLiveIdentities =
    o.identity :: σ.conn.tail.checkedLiveIdentities from hchecked] at hmem
  rcases List.mem_cons.1 hmem with hnew | hmem
  · obtain ⟨rfl, rfl⟩ := Prod.mk.inj hnew
    refine ⟨fun hbarrier hturn ↦ ?_, fun hassistant ↦
      EventLog.not_hasMessage_of_sealedRows_eq_nil hrows he hassistant⟩
    show e.sequence ≤ c.tail.overlayBarriers o.turnId
    rw [hbarriers, raiseBarrier_self]
    exact (hi.queried o barrier hphase e he hle hbarrier hturn).trans (le_max_right _ _)
  · exact hold.checked t m hmem e he hle

theorem overlayInv_check (hi : OverlayInv run start l σ) {o : LiveOverlay} {barrier : Nat}
    (hphase : σ.conn.phase = .candidate o (.sealedRows barrier)) :
    OverlayInv run start
      (l ++ [(σ.conn.checkCommitted o barrier (σ.env.log.sealedRows run o.messageId)).2])
      ⟨σ.env, (σ.conn.checkCommitted o barrier (σ.env.log.sealedRows run o.messageId)).1⟩ := by
  have hchecked := checkCommitted_checked σ.conn o barrier (σ.env.log.sealedRows run o.messageId)
  generalize σ.conn.checkCommitted o barrier (σ.env.log.sealedRows run o.messageId) = result
    at hchecked ⊢
  cases hchecked with
  | conflict => exact hi.keep (fun _ ↦ nofun) ⟨rfl, rfl, rfl⟩ rfl
  | drop => exact hi.idle (fun _ ↦ nofun) (fun t ↦ le_raiseBarrier _ _ t _) (fun _ h ↦ h) rfl (asks_leave _)
  | closed =>
    exact hi.idle (fun _ ↦ nofun) (fun t ↦ le_raiseBarrier _ _ t _) (fun _ h ↦ List.mem_cons_of_mem _ h)
      rfl (asks_leave _)
  | offer hrows =>
    obtain ⟨hbarriers, hclosed, hchecked, -⟩ := offer_cases { σ.conn with
      tail := { σ.conn.tail.raiseBarrier o.turnId barrier with
        checkedLiveIdentities := o.identity :: σ.conn.tail.checkedLiveIdentities } } o
    exact hi.check hphase (offer_ne_committed _ _) hrows hbarriers hclosed hchecked (asks_offer _ _)

theorem overlayInv_candidate (hi : OverlayInv run start l σ) {o : LiveOverlay} {point : CandidatePoint}
    (hphase : σ.conn.phase = .candidate o point) :
    OverlayInv run start (l ++ [(σ.conn.candidateStep run σ.env o point).2])
      ⟨σ.env, (σ.conn.candidateStep run σ.env o point).1⟩ := by
  cases point with
  | position =>
    dsimp only [Connection.candidateStep]
    split
    · exact hi.keep (fun _ ↦ nofun) ⟨rfl, rfl, rfl⟩ rfl
    · exact overlayInv_screen hi o
  | recheck =>
    dsimp only [Connection.candidateStep]
    split
    · exact hi.keep (fun _ ↦ nofun) ⟨rfl, rfl, rfl⟩ rfl
    · exact overlayInv_screen hi o
  | barrier =>
    have hkeep := hi.keep (a := .silent) (c := { σ.conn with phase := .loop }) (fun _ ↦ nofun)
      ⟨rfl, rfl, rfl⟩ rfl
    refine ⟨hkeep.start_le, hkeep.barriers, hkeep.closed, hkeep.checked, fun o' ho' ↦ ?_,
      fun o' barrier h e he _ hbarrier hturn ↦ ?_⟩
    · obtain rfl : o = o' := Option.some.inj ho'
      exact hi.asks o (by rw [hphase]; rfl)
    · obtain ⟨rfl, hpoint⟩ := Phase.candidate.inj h
      rw [← CandidatePoint.sealedRows.inj hpoint]
      exact EventLog.le_barrier he hturn hbarrier
  | sealedRows barrier => exact overlayInv_check hi hphase

theorem overlayInv_conn (hi : OverlayInv run start l σ) {c : Connection}
    (h : ConnStep run σ.env σ.conn a c) : OverlayInv run start (l ++ [a]) ⟨σ.env, c⟩ := by
  cases connStep_main h with
  | drain => exact overlayInv_drain hi _ _
  | candidate hphase => exact overlayInv_candidate hi hphase
  | loaded _ _ htail hphase =>
    exact hi.keep (fun _ ↦ nofun) (htail ▸ ⟨rfl, rfl, rfl⟩) (by rw [hphase]; rfl)
  | idle htail hphase => exact hi.keep (fun _ ↦ nofun) (htail ▸ ⟨rfl, rfl, rfl⟩) (asks_of_idle hphase)

/-- No record before the cursor appears. -/
theorem envStep_mem (run : AgentRunRef) {env env' : Env} (h : EnvStep env a env') (hstart : start ≤ env.log.highWater) :
    start ≤ env'.log.highWater ∧
      ∀ e ∈ env'.log.streamRows run, e.sequence ≤ start → e ∈ env.log.streamRows run := by
  cases h with
  | @append r h =>
    refine ⟨?_, fun e he hle ↦ ?_⟩
    · show start ≤ (env.log.append r h).highWater
      rw [EventLog.highWater_append]
      exact hstart.trans h.le
    · rw [EventLog.streamRows_append] at he
      rcases List.mem_append.1 he with he | he
      · exact he
      · obtain rfl : e = r := by simpa using (List.mem_filter.1 he).1
        omega
  | hide eventIds =>
    refine ⟨?_, fun e he _ ↦ EventLog.mem_of_mem_streamRows_hide he⟩
    show start ≤ (env.log.hide eventIds).highWater
    rw [EventLog.highWater_hide]
    exact hstart
  | status => exact ⟨hstart, fun _ he _ ↦ he⟩
  | redis => exact ⟨hstart, fun _ he _ ↦ he⟩

theorem overlayInv_env (hi : OverlayInv run start l σ) {env : Env} (h : EnvStep σ.env a env) :
    OverlayInv run start (l ++ [a]) { σ with env } := by
  obtain ⟨hstart, hmem⟩ := envStep_mem run h hi.start_le
  have hsame : ∀ e, StreamOp.committed e ∈ l ++ [a] → StreamOp.committed e ∈ l := by
    intro e he
    rcases List.mem_append.1 he with he | he
    · exact he
    · rw [← List.mem_singleton.1 he] at h
      cases h
  exact ⟨hstart, fun e t he ↦ hi.barriers e t (hsame e he), fun e t m he ↦ hi.closed e t m (hsame e he),
    fun t m hc e he hle ↦ hi.checked t m hc e (hmem e he hle) hle, hi.asks,
    fun o barrier hp e he hle ↦ hi.queried o barrier hp e (hmem e he hle) hle⟩

theorem overlayInv_of_run {env : Env} (hstart : start ≤ env.log.highWater)
    (h : Run (StreamStep run) ⟨env, .connect start⟩ l σ) : OverlayInv run start l σ := by
  refine h.invariant_history (I := fun l σ ↦ OverlayInv run start l σ) ?_ fun l σ a τ _ hi ha ↦ ?_
  · exact ⟨hstart, fun _ _ h ↦ (by cases h), fun _ _ _ h ↦ (by cases h), fun _ _ h ↦ (by cases h),
      fun _ h ↦ (by cases h), fun _ _ h ↦ (by cases h)⟩
  · cases ha with
    | conn h => exact overlayInv_conn hi h
    | env h => exact overlayInv_env hi h

end OverlayInv

section Live

variable {run : AgentRunRef} {env : Env} {c c' : Connection} {o : LiveOverlay}

theorem drainStep_ne_live (c : Connection) (resume : Resume) (point : DrainPoint) :
    (c.drainStep run env resume point).2 ≠ .live o := by
  cases point with
  | highWater => exact nofun
  | records => exact nofun
  | items full rest =>
    cases rest with
    | nil => exact nofun
    | cons e rest =>
      dsimp only [Connection.drainStep]
      split
      · exact nofun
      · split <;> exact nofun
  | terminalSequence =>
    dsimp only [Connection.drainStep]
    split <;> exact nofun
  | terminalStatus =>
    dsimp only [Connection.drainStep]
    split <;> exact nofun
  | terminalMessage => exact nofun

theorem eq_of_offer_live {o' : LiveOverlay} (h : (c.offer o').2 = .live o) : o' = o := by
  rcases (offer_cases c o').2.2.2 with hsilent | hlive
  · rw [hsilent] at h
    cases h
  · rw [hlive] at h
    exact StreamOp.live.inj h

/-- What was known of a live item when it was sent: its message was checked before, or the queries for
it have just found nothing. -/
inductive SendsLive (run : AgentRunRef) (env : Env) (c : Connection) (o : LiveOverlay) : Prop
  | checked (h : c.tail.Admits o) (hchecked : o.identity ∈ c.tail.checkedLiveIdentities)
  | found {barrier : Nat} (hphase : c.phase = .candidate o (.sealedRows barrier))
      (hrows : env.log.sealedRows run o.messageId = [])
      (hcurrent : max (c.tail.overlayBarriers o.turnId) barrier ≤ o.afterSequence)

theorem screen_sendsLive {o' : LiveOverlay} (h : (c.screen o').2 = .live o) :
    SendsLive run env c o := by
  have hscreened := screen_screened c o'
  generalize c.screen o' = result at hscreened h
  cases hscreened with
  | drop => cases h
  | offer hadmits hchecked =>
    obtain rfl := eq_of_offer_live h
    exact .checked hadmits hchecked
  | ask => cases h

theorem candidateStep_sendsLive {o' : LiveOverlay} {point : CandidatePoint}
    (hphase : c.phase = .candidate o' point)
    (h : (c.candidateStep run env o' point).2 = .live o) : SendsLive run env c o := by
  cases point with
  | position =>
    dsimp only [Connection.candidateStep] at h
    split at h
    · cases h
    · exact screen_sendsLive h
  | recheck =>
    dsimp only [Connection.candidateStep] at h
    split at h
    · cases h
    · exact screen_sendsLive h
  | barrier => cases h
  | sealedRows barrier =>
    have hchecked := checkCommitted_checked c o' barrier (env.log.sealedRows run o'.messageId)
    change (c.checkCommitted o' barrier (env.log.sealedRows run o'.messageId)).2 = .live o at h
    generalize c.checkCommitted o' barrier (env.log.sealedRows run o'.messageId) = result
      at hchecked h
    cases hchecked with
    | conflict => cases h
    | drop => cases h
    | closed => cases h
    | offer hrows hcurrent =>
      obtain rfl := eq_of_offer_live h
      exact .found hphase hrows hcurrent

theorem connStep_sendsLive (h : ConnStep run env c (.live o) c') : SendsLive run env c o := by
  have hmain := connStep_main h
  generalize hlabel : StreamOp.live o = a at hmain
  cases hmain with
  | drain => exact absurd hlabel.symm (drainStep_ne_live _ _ _)
  | candidate hphase => exact candidateStep_sendsLive hphase hlabel.symm
  | loaded => cases hlabel
  | idle => cases hlabel

/-- **No live item is sent behind its barrier.** A connection starts at a cursor that is not in the
future. Of the records that it has sent, and of those on the stream up to the cursor, none is a barrier
of the item's turn after the sequence it was written at, and none is the message that it became. -/
theorem no_stale_overlay {start : Nat} {l : List StreamOp} {σ τ : StreamState}
    (hstart : start ≤ env.log.highWater) (h : Run (StreamStep run) ⟨env, .connect start⟩ l σ)
    (hlive : StreamStep run σ (.live o) τ) {e : SessionEvent}
    (he : StreamOp.committed e ∈ l ∨ (e ∈ σ.env.log.streamRows run ∧ e.sequence ≤ start)) :
    (e.isBarrier → e.hasTurn o.turnId → e.sequence ≤ o.afterSequence) ∧
      (e.isAssistantMessage → e.hasTurn o.turnId → ¬ e.hasMessage o.messageId) := by
  have hi := overlayInv_of_run hstart h
  have hsends : SendsLive run σ.env σ.conn o := by
    cases hlive with
    | conn h => exact connStep_sendsLive h
    | env h => cases h
  cases hsends with
  | checked hadmits hchecked =>
    rcases he with hsent | ⟨hmem, hle⟩
    · exact ⟨fun hbarrier hturn ↦ (hi.barriers e _ hsent hbarrier hturn).trans hadmits.current,
        fun hassistant hturn hmessage ↦
          hadmits.unsealed (hi.closed e _ _ hsent hassistant hturn hmessage)⟩
    · obtain ⟨hbefore, hunsealed⟩ := hi.checked _ _ hchecked e hmem hle
      exact ⟨fun hbarrier hturn ↦ (hbefore hbarrier hturn).trans hadmits.current,
        fun hassistant _ ↦ hunsealed hassistant⟩
  | @found barrier hphase hrows hcurrent =>
    obtain ⟨hknown, hqueried⟩ := Nat.max_le.1 hcurrent
    rcases he with hsent | ⟨hmem, hle⟩
    · exact ⟨fun hbarrier hturn ↦ (hi.barriers e _ hsent hbarrier hturn).trans hknown,
        fun hassistant hturn hmessage ↦ hi.asks o (asks_of_sealedRows hphase)
          (hi.closed e _ _ hsent hassistant hturn hmessage)⟩
    · exact ⟨fun hbarrier hturn ↦ (hi.queried o barrier hphase e hmem hle hbarrier hturn).trans hqueried,
        fun hassistant _ ↦ EventLog.not_hasMessage_of_sealedRows_eq_nil hrows hmem hassistant⟩

end Live

/-- A phase of the turn `t`. -/
def samplePhase : SessionEvent := sampleEvent "e1" 1 "phase_event" [("turnId", .str "t")]

/-- A log with the phase, and live text of the turn that was written after it. -/
def liveEnv : Env where
  log := ⟨[samplePhase], List.pairwise_singleton _ _⟩
  runFailed := false
  redis := ⟨some "text", some ⟨"t", "m", 1, 2, none⟩, []⟩

/-- The item with the live text. -/
def liveItem : LiveOverlay := ⟨"m", "t", 1, 2, "text", none⟩

/-- A connection sends the phase and then the live text. -/
theorem no_stale_overlay_phase : ∃ l σ τ, Run (StreamStep sampleRun) ⟨liveEnv, .connect 0⟩ l σ ∧
    StreamOp.committed samplePhase ∈ l ∧ StreamStep sampleRun σ (.live liveItem) τ ∧
    samplePhase.sequence ≤ liveItem.afterSequence := by
  have hrun := run_prompts sampleRun liveEnv (fun _ _ _ ↦ StreamStep.conn (σ := ⟨liveEnv, _⟩)) 11
    (.connect 0)
  have hlabel : (((Connection.connect 0).prompts sampleRun liveEnv 11).1.prompt sampleRun liveEnv).map
      Prod.snd = some (.live liveItem) := by decide +kernel
  obtain ⟨⟨c, a⟩, hprompt, rfl⟩ := Option.map_eq_some_iff.1 hlabel
  have hsent : StreamOp.committed samplePhase ∈
      ((Connection.connect 0).prompts sampleRun liveEnv 11).2 := by decide +kernel
  have hlive := StreamStep.conn (σ := ⟨liveEnv, _⟩) (connStep_of_prompt hprompt)
  exact ⟨_, _, _, hrun, hsent, hlive,
    (no_stale_overlay (Nat.zero_le _) hrun hlive (.inl hsent)).1 (by decide +kernel) (by decide +kernel)⟩

end Centaeris.Stream
