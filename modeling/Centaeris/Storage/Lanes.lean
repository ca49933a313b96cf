import Centaeris.Relational.Lending
import Mathlib.Algebra.BigOperators.Group.Finset.Piecewise
import Mathlib.Algebra.Order.BigOperators.Group.Finset
import Mathlib.Algebra.Ring.Nat

/-!
# The lanes of storage streams

A stream of a stored object has a lane, a thread that opens, reads and closes the handle, one after another.
`open_storage_stream` takes the lane from a pool of fixed capacity. It is released if the handle could not be
opened, and otherwise when the stream is closed: by its consumer, at its end, after a failed read, or because
one of the tasks was cancelled. If the handle cannot be closed, then the lane is retired, and a fresh one
takes its place.

Opening and closing are tasks of their own behind `asyncio.shield`, so a cancellation is only noticed by the
one who waits and is raised again in the end.

**A lane is lost** (`lane_lost`). After the first cancellation `_close` waits in a handler, in a loop that
only catches further cancellations. If the handle cannot be closed after all, then the exception leaves
`_close` from there, before the lane is released or retired. Nothing else goes wrong: as long as no close
raises that was cancelled while it was running, the lanes are conserved (`lanes_conserved`).
-/

namespace Centaeris.Storage

/-- Where a call of `open_storage_stream` and its stream are. -/
inductive Phase
  /-- Not called, or without a lane again. -/
  | idle
  /-- `open_task` is running. -/
  | opening (lane : ℕ) (cancelled : Bool)
  /-- `open_task` is done, and the one who waits for it does not know yet. -/
  | opened (lane : ℕ) (cancelled ok : Bool)
  /-- The stream can be read, and some reads are on their way. -/
  | streaming (lane reads : ℕ)
  /-- `close_task` is running, behind the reads. -/
  | closing (lane reads : ℕ) (cancelled : Bool)
  /-- `close_task` is done, and the one who waits for it does not know yet, or is interrupted by a
  cancellation before. -/
  | closed (lane : ℕ) (cancelled interrupted ok : Bool)
  deriving DecidableEq

/-- A call, with the number of handles it has opened and of their `close` that have run, and the lanes it has
taken and given back. -/
structure Call where
  phase : Phase := .idle
  handles : ℕ := 0
  closes : ℕ := 0
  taken : List ℕ := []
  given : List ℕ := []
  deriving DecidableEq

/-- `_StorageLanePool`; a lane is its index. -/
structure LanePool where
  available : List ℕ
  nextIndex : ℕ
  deriving DecidableEq

/-- What happens to a call next. A read that finds the end, or fails, or is cancelled, ends in `aclose`. -/
inductive Event
  | call
  | cancel
  | openEnds (ok : Bool)
  | read
  | readEnds
  | aclose
  | closeEnds (ok : Bool)
  | resume
  deriving DecidableEq

/-- The lane is put back into the queue. -/
def release (l : Call) (s : LanePool) (lane : ℕ) : Call × LanePool :=
  ({ l with phase := .idle, given := l.given ++ [lane] }, { s with available := s.available ++ [lane] })

/-- The lane is shut down, and a new one is put into the queue. -/
def retire (l : Call) (s : LanePool) (lane : ℕ) : Call × LanePool :=
  ({ l with phase := .idle, given := l.given ++ [lane] },
    { available := s.available ++ [s.nextIndex], nextIndex := s.nextIndex + 1 })

/-- A step of a call. Between two of them other tasks may run. -/
def act {ι : Type} (_ : ι) (l : Call) (s : LanePool) (e : Event) : Option (Call × LanePool) :=
  match l.phase, e with
  | .idle, .call =>
    match s.available with
    -- `storage_stream_capacity_exhausted`
    | [] => some (l, s)
    | lane :: available =>
      some ({ l with phase := .opening lane false, handles := 0, closes := 0, taken := l.taken ++ [lane] },
        { s with available })
  | .opening lane _, .cancel => some ({ l with phase := .opening lane true }, s)
  | .opening lane cancelled, .openEnds ok =>
    some ({ l with phase := .opened lane cancelled ok, handles := ok.toNat }, s)
  | .opened lane _ ok, .cancel => some ({ l with phase := .opened lane true ok }, s)
  | .opened lane cancelled ok, .resume =>
    if ok = false then some (release l s lane)
    -- The stream of a cancelled call is closed at once.
    else if cancelled then some ({ l with phase := .closing lane 0 false }, s)
    else some ({ l with phase := .streaming lane 0 }, s)
  | .streaming lane reads, .read => some ({ l with phase := .streaming lane (reads + 1) }, s)
  | .streaming lane reads, .readEnds => some ({ l with phase := .streaming lane (reads - 1) }, s)
  | .streaming lane reads, .aclose => some ({ l with phase := .closing lane reads false }, s)
  | .closing lane reads cancelled, .readEnds => some ({ l with phase := .closing lane (reads - 1) cancelled }, s)
  | .closing lane reads _, .cancel => some ({ l with phase := .closing lane reads true }, s)
  | .closing lane reads cancelled, .closeEnds ok =>
    -- The one thread of a lane has done everything that came before.
    if reads = 0 then some ({ l with phase := .closed lane cancelled false ok, closes := l.closes + 1 }, s)
    else none
  | .closed lane cancelled _ ok, .cancel => some ({ l with phase := .closed lane cancelled true ok }, s)
  | .closed lane cancelled interrupted ok, .resume =>
    if ok then some (release l s lane)
    -- The exception is raised in the handler of the first cancellation.
    else if cancelled && !interrupted then some ({ l with phase := .idle }, s)
    else some (retire l s lane)
  -- `_closed` is set, so there is nothing to read and nothing to close.
  | .idle, .aclose | .closing .., .aclose | .closed .., .aclose | .idle, .read | .closing .., .read
  | .closed .., .read => some (l, s)
  | _, _ => none

/-- The lane of a call. -/
def Phase.lane : Phase → Option ℕ
  | idle => none
  | opening lane _ | opened lane _ _ | streaming lane _ | closing lane _ _ | closed lane _ _ _ => some lane

/-- The call waits for its handle. -/
def Phase.opens : Phase → Bool
  | opening .. | opened .. => true
  | _ => false

/-- There is a stream whose `_close` has not finished. -/
def Phase.streams : Phase → Bool
  | streaming .. | closing .. | closed .. => true
  | _ => false

/-- The handle cannot be closed, and its closing was cancelled before. -/
def Phase.raisesCancelled : Phase → Event → Bool
  | closing _ _ true, .closeEnds false => true
  | _, _ => false

/-- The steps but for a close that raises after it was cancelled. -/
def guardedAct {ι : Type} (i : ι) (l : Call) (s : LanePool) (e : Event) : Option (Call × LanePool) :=
  if l.phase.raisesCancelled e then none else act i l s e

/-- All lanes are available. -/
def start {ι : Type} (capacity : ℕ) : Pool ι Call LanePool := ⟨⟨List.range capacity, capacity⟩, fun _ ↦ {}⟩

/-- The consumer closes the stream and is cancelled, and the handle cannot be closed. -/
def cancelledClose : List (Fin 1 × Event) :=
  [(0, .call), (0, .openEnds true), (0, .resume), (0, .aclose), (0, .cancel), (0, .closeEnds false), (0, .resume)]

/-- **A lane is lost.** The call is over, and its lane is neither released nor replaced: with one lane, no
stream can be opened any more. -/
theorem lane_lost : ∃ p : Pool (Fin 1) Call LanePool, (start 1).exec act cancelledClose = some p ∧
    (p.thread 0).phase = .idle ∧ (p.thread 0).taken = [0] ∧ (p.thread 0).given = [] ∧
    p.shared.available = [] :=
  ⟨_, rfl, rfl, rfl, rfl, rfl⟩

/-! ### What a step can do -/

/-- The moves of a call, as far as the pool is concerned. -/
inductive Moves (s : LanePool) : Option ℕ → Option ℕ → LanePool → Prop
  | stay {lane : Option ℕ} : Moves s lane lane s
  | acquire {lane : ℕ} {available : List ℕ} :
    s.available = lane :: available → Moves s none (some lane) { s with available }
  | release {lane : ℕ} : Moves s (some lane) none { s with available := s.available ++ [lane] }
  | retire {lane : ℕ} :
    Moves s (some lane) none { available := s.available ++ [s.nextIndex], nextIndex := s.nextIndex + 1 }

/-- The number of handles that are open, or of a close that has run. -/
def Phase.unclosed : Phase → ℕ
  | opened _ _ ok => ok.toNat
  | streaming .. | closing .. => 1
  | _ => 0

/-- What a call has counted: it has given back what it has taken, but for its lane, and has closed its handle,
unless it is open. A close that was cancelled has not raised. -/
structure Call.Sound (l : Call) : Prop where
  taken : l.taken = l.given ++ l.phase.lane.toList
  closes : l.handles = l.closes + l.phase.unclosed
  handles : l.handles ≤ 1
  unopened : ∀ lane cancelled, l.phase = .opening lane cancelled → l.closes = 0
  closed : ∀ lane interrupted, l.phase ≠ .closed lane true interrupted false

section Step

variable {ι : Type} {i : ι} {l l' : Call} {s s' : LanePool} {e : Event}

theorem act_of_guardedAct (h : guardedAct i l s e = some (l', s')) :
    act i l s e = some (l', s') ∧ l.phase.raisesCancelled e = false := by
  unfold guardedAct at h
  split at h
  · cases h
  · exact ⟨h, Bool.eq_false_iff.2 ‹_›⟩

/-- **What a step can do.** -/
theorem guardedAct_moves (hl : l.Sound) (h : guardedAct i l s e = some (l', s')) :
    Moves s l.phase.lane l'.phase.lane s' := by
  replace h := (act_of_guardedAct h).1
  have hclosed := hl.closed
  obtain ⟨phase, handles, closes, taken, given⟩ := l
  cases phase <;> cases e <;> simp only [act, reduceCtorEq] at h
  case idle.call =>
    split at h <;> rename_i havailable <;> cases h
    · exact .stay
    · exact .acquire havailable
  case opened.resume lane cancelled ok =>
    split at h
    · cases h
      exact .release
    · split at h <;> cases h <;> exact .stay
  case closing.closeEnds =>
    split at h <;> cases h
    exact .stay
  case closed.resume lane cancelled interrupted ok =>
    split at h
    · cases h
      exact .release
    · split at h <;> rename_i hok hcancelled <;> cases h
      · -- A close that was cancelled has not raised.
        simp only [Bool.and_eq_true] at hcancelled
        exact absurd (by simp_all) (hclosed lane interrupted)
      · exact .retire
  all_goals
    cases h
    exact .stay

/-- The lane is given back, and the handle is not open. -/
theorem Call.Sound.give {lane : ℕ} (hl : l.Sound) (hlane : l.phase.lane = some lane)
    (hunclosed : l.phase.unclosed = 0) :
    Call.Sound { l with phase := .idle, given := l.given ++ [lane] } where
  taken := by rw [hl.taken, hlane]; simp [Phase.lane]
  closes := by rw [hl.closes, hunclosed]; rfl
  handles := hl.handles
  unopened := by simp
  closed := by simp

theorem Call.Sound.guardedAct (hl : l.Sound) (hstep : guardedAct i l s e = some (l', s')) : l'.Sound := by
  obtain ⟨h, hguard⟩ := act_of_guardedAct hstep
  obtain ⟨phase, handles, closes, taken, given⟩ := l
  obtain ⟨htaken, hcloses, hhandles, hunopened, hclosed⟩ := id hl
  cases phase <;> cases e <;> simp only [Storage.act, reduceCtorEq] at h
  case idle.call =>
    split at h <;> cases h
    · exact hl
    · exact ⟨by simpa [Phase.lane] using htaken, rfl, by simp, by simp, by simp⟩
  case opening.openEnds lane cancelled ok =>
    cases h
    obtain rfl : closes = 0 := hunopened _ _ rfl
    exact ⟨htaken, by simp [Phase.unclosed], Bool.toNat_le ok, by simp, by simp⟩
  case opened.resume lane cancelled ok =>
    cases ok
    · cases h
      exact hl.give rfl rfl
    · cases cancelled <;> cases h <;> exact ⟨htaken, hcloses, hhandles, by simp, by simp⟩
  case closing.closeEnds lane reads cancelled ok =>
    split at h <;> cases h
    refine ⟨htaken, hcloses, hhandles, by simp, fun lane' interrupted heq ↦ ?_⟩
    -- This is the step that is ruled out.
    cases heq
    simp [Phase.raisesCancelled] at hguard
  case closed.resume lane cancelled interrupted ok =>
    split at h
    · cases h
      exact hl.give rfl rfl
    · split at h <;> rename_i hok hcancelled <;> cases h
      · simp only [Bool.and_eq_true] at hcancelled
        exact absurd (by simp_all) (hclosed lane interrupted)
      · exact hl.give rfl rfl
  case closed.cancel lane cancelled interrupted ok =>
    cases h
    refine ⟨htaken, hcloses, hhandles, by simp, fun lane' interrupted' heq ↦ ?_⟩
    cases heq
    exact hclosed _ _ rfl
  case opening.cancel lane cancelled =>
    cases h
    exact ⟨htaken, hcloses, hhandles, fun _ _ _ ↦ hunopened _ _ rfl, by simp⟩
  case idle.read | idle.aclose | closing.read | closing.aclose | closed.read | closed.aclose =>
    cases h
    exact hl
  all_goals
    cases h
    exact ⟨htaken, hcloses, hhandles, by simp, by simp⟩

end Step

/-! ### All calls -/

variable {ι : Type} [Fintype ι]

/-- The lanes that are available and those that calls have. -/
abbrev lanes (p : Pool ι Call LanePool) : Multiset ℕ := p.lent (fun l ↦ l.phase.lane) + p.shared.available

/-- There are as many lanes as the capacity says, and no two have the same index. -/
structure Conserved (capacity : ℕ) (p : Pool ι Call LanePool) : Prop where
  card : (lanes p).card = capacity
  nodup : (lanes p).Nodup
  lt_nextIndex : ∀ lane ∈ lanes p, lane < p.shared.nextIndex
  sound : ∀ i, (p.thread i).Sound

variable {capacity : ℕ} {p q : Pool ι Call LanePool} {a : ι × Event}

theorem conserved_start : Conserved capacity (start capacity : Pool ι Call LanePool) := by
  have hlanes : lanes (start capacity : Pool ι Call LanePool) = List.range capacity := by
    simp [start, Pool.lent, Phase.lane]
  refine ⟨by simp [hlanes], by simp [hlanes, List.nodup_range], fun lane hlane ↦ ?_,
    fun _ ↦ ⟨rfl, rfl, by simp [start], by simp [start], by simp [start]⟩⟩
  rw [hlanes] at hlane
  exact List.mem_range.1 hlane

/-- The lanes stay, or one of them is replaced by a fresh one. -/
theorem Moves.lanes {s s' : LanePool} {lane lane' : Option ℕ} (others : Multiset ℕ) (h : Moves s lane lane' s') :
    (lane'.elim 0 ({·}) + others + (s'.available : Multiset ℕ) =
          lane.elim 0 ({·}) + others + (s.available : Multiset ℕ) ∧
        s'.nextIndex = s.nextIndex) ∨
      ∃ old rest, lane.elim 0 ({·}) + others + (s.available : Multiset ℕ) = old ::ₘ rest ∧
        lane'.elim 0 ({·}) + others + (s'.available : Multiset ℕ) = s.nextIndex ::ₘ rest ∧
        s'.nextIndex = s.nextIndex + 1 := by
  have happend (c : ℕ) : others + ((s.available ++ [c] : List ℕ) : Multiset ℕ) = c ::ₘ (others + s.available) := by
    rw [← Multiset.coe_add, ← add_assoc, Multiset.coe_singleton, add_comm, Multiset.singleton_add]
  cases h with
  | stay => exact .inl ⟨rfl, rfl⟩
  | acquire havailable => exact .inl ⟨by simp [havailable, ← Multiset.cons_coe], rfl⟩
  | @release lane => exact .inl ⟨by simp [happend], rfl⟩
  | @retire lane => exact .inr ⟨lane, others + s.available, by simp, by simp [happend], rfl⟩

variable [DecidableEq ι]

/-- **One step.** -/
theorem Conserved.step (hp : Conserved capacity p) (h : Pool.Step guardedAct p a q) : Conserved capacity q := by
  have hsound : ∀ i, (q.thread i).Sound := by
    intro i
    by_cases hi : i = a.1
    · exact hi ▸ (hp.sound a.1).guardedAct h.act
    · exact h.other hi ▸ hp.sound i
  -- The lanes that the other calls have are the same.
  obtain ⟨others, hbefore, hafter⟩ : ∃ others : Multiset ℕ,
      lanes p = (p.thread a.1).phase.lane.elim 0 ({·}) + others + p.shared.available ∧
        lanes q = (q.thread a.1).phase.lane.elim 0 ({·}) + others + q.shared.available :=
    ⟨_, congrArg (· + _) (Pool.sum_eq (fun l : Call ↦ l.phase.lane.elim 0 ({·})) p a.1),
      congrArg (· + _) (Pool.sum_step (fun l : Call ↦ l.phase.lane.elim 0 ({·})) h)⟩
  have hlt := hp.lt_nextIndex
  have hmoves := (guardedAct_moves (hp.sound a.1) h.act).lanes others
  rw [← hbefore, ← hafter] at hmoves
  rcases hmoves with ⟨hlanes, hnext⟩ | ⟨old, rest, hold, hnew, hnext⟩
  · exact ⟨hlanes ▸ hp.card, hlanes ▸ hp.nodup, by rwa [hlanes, hnext], hsound⟩
  · have hcard := hp.card
    have hnodup := hp.nodup
    rw [hold] at hlt hcard hnodup
    rw [Multiset.forall_mem_cons] at hlt
    refine ⟨by rw [hnew, ← hcard, Multiset.card_cons, Multiset.card_cons], ?_, ?_, hsound⟩
    · rw [hnew, Multiset.nodup_cons]
      exact ⟨fun hmem ↦ (hlt.2 _ hmem).false, (Multiset.nodup_cons.1 hnodup).2⟩
    · rw [hnew, hnext, Multiset.forall_mem_cons]
      exact ⟨Nat.lt_succ_self _, fun lane hlane ↦ Nat.lt_succ_of_lt (hlt.2 lane hlane)⟩

/-- **Lanes are conserved**, along every run of any number of calls in which no close raises after it was
cancelled: a call has given back, once each and in this order, the lanes it has taken, but for the one it has;
the available lanes, the calls that are opening and the streams that are not closed make up the capacity; a
call without a lane has run the close of its handle, if it had one, once; and a lane is available or has one
call. A step gives back the lane itself or one with a fresh index. -/
theorem lanes_conserved {l : List (ι × Event)} (hrun : Run (Pool.Step guardedAct) (start capacity) l p) :
    (∀ i, (p.thread i).taken = (p.thread i).given ++ (p.thread i).phase.lane.toList) ∧
      p.shared.available.length + (Finset.univ.filter fun i ↦ (p.thread i).phase.opens).card +
        (Finset.univ.filter fun i ↦ (p.thread i).phase.streams).card = capacity ∧
      (∀ i, (p.thread i).handles ≤ 1 ∧ (p.thread i).closes ≤ (p.thread i).handles ∧
        ((p.thread i).phase.lane = none → (p.thread i).closes = (p.thread i).handles)) ∧
      (p.shared.available.Nodup ∧ ∀ i lane, (p.thread i).phase.lane = some lane →
        lane ∉ p.shared.available ∧ ∀ j, (p.thread j).phase.lane = some lane → j = i) ∧
      (∀ lane, lane ∈ p.shared.available ∨ (∃ i, (p.thread i).phase.lane = some lane) →
        lane < p.shared.nextIndex) ∧
      ∀ {a q}, Pool.Step guardedAct p a q →
        Moves p.shared (p.thread a.1).phase.lane (q.thread a.1).phase.lane q.shared := by
  have hp : Conserved capacity p := hrun.invariant conserved_start fun _ _ _ hp hstep ↦ hp.step hstep
  obtain ⟨hlent, havailable, hdisjoint⟩ := Multiset.nodup_add.1 hp.nodup
  refine ⟨fun i ↦ (hp.sound i).taken, ?_, fun i ↦ ⟨(hp.sound i).handles, ?_, ?_⟩,
    ⟨Multiset.coe_nodup.1 havailable, fun i lane hi ↦ ⟨?_, fun j hj ↦ Pool.eq_of_lent hlent hi hj⟩⟩, ?_,
    fun hstep ↦ guardedAct_moves (hp.sound _) hstep.act⟩
  · have hcount (phase : Phase) : (phase.lane.elim (0 : Multiset ℕ) ({·})).card =
        (if phase.opens then 1 else 0) + if phase.streams then 1 else 0 := by
      cases phase <;> rfl
    have hcard := hp.card
    rw [Multiset.card_add, Pool.lent, Multiset.card_sum, Multiset.coe_card] at hcard
    simp only [hcount, Finset.sum_add_distrib, ← Finset.card_filter] at hcard
    omega
  · exact (hp.sound i).closes ▸ Nat.le_add_right _ _
  · intro hi
    have hidle : (p.thread i).phase = .idle := by
      cases hphase : (p.thread i).phase <;> simp [hphase, Phase.lane] at hi ⊢
    rw [(hp.sound i).closes, hidle]
    rfl
  · exact Multiset.disjoint_left.1 hdisjoint (Pool.mem_lent.2 ⟨i, hi⟩)
  · rintro lane (hmem | hmem)
    · exact hp.lt_nextIndex lane (Multiset.mem_add.2 (.inr hmem))
    · exact hp.lt_nextIndex lane (Multiset.mem_add.2 (.inl (Pool.mem_lent.2 hmem)))

/-- Two calls share one lane, one after the other: the first cannot close its handle and is cancelled too
late to notice, the second is refused and then takes the fresh lane. -/
def twoStreams : List (Bool × Event) :=
  [(false, .call), (true, .call), (false, .openEnds true), (false, .resume), (false, .read), (false, .aclose),
    (false, .readEnds), (false, .closeEnds false), (false, .cancel), (false, .resume), (true, .call)]

/-- The first lane is retired, and no lane is lost. -/
theorem lanes_conserved_twoStreams :
    ((start 1).exec guardedAct twoStreams).map (fun p ↦ (p.thread true).phase) = some (.opening 1 false) ∧
      ∀ p, (start 1).exec guardedAct twoStreams = some p → (p.thread false).taken = (p.thread false).given ++
        (p.thread false).phase.lane.toList :=
  ⟨rfl, fun _ hp ↦ (lanes_conserved (Pool.run_of_exec hp)).1 false⟩

end Centaeris.Storage
