import Centaeris.Relational.Lending
import Mathlib.Algebra.BigOperators.Group.Finset.Piecewise
import Mathlib.Algebra.Order.BigOperators.Group.Finset
import Mathlib.Algebra.Ring.Nat

/-!
# The connection pool

A call takes a connection from the pool, runs its operation on it, and gives it back if nothing went wrong.
It may take an idle connection, which it asks for a sign of life first, or open one while there are fewer
than the maximum. Nearly all of this happens outside of the lock: the pool only has the idle connections and
a number, `total`, which is raised before a connection is opened and lowered after one is dropped.

**What a step can do** (`act_moves`). To the pool, every step of a call is one of seven moves: nothing,
taking an idle connection, reserving a place, opening in it or giving it up, dropping a connection, giving
one back. So the number is right, no two calls have the same connection, and what was dropped is in nobody's
hands (`pool_accounting`).

The outcome of everything that talks to the server, and how time passes, is the event's.
-/

namespace Centaeris.Postgres

/-- Where a call of `with_client_error` is. -/
inductive Phase
  /-- Not called, or returned. -/
  | done
  /-- In the loop of `checkout`. -/
  | waiting
  /-- With an idle connection that has to answer `SELECT 1`. -/
  | checking (c : ℕ)
  /-- In `connect`. -/
  | connecting
  /-- `connect` has failed. -/
  | refused
  /-- `checkout` has returned. -/
  | checkedOut (c : ℕ)
  /-- In the operation. -/
  | operating (c : ℕ)
  /-- The operation has returned `Ok`. -/
  | operated (c : ℕ)
  /-- In `reset_connection`. -/
  | resetting (c : ℕ)
  /-- Before `return_healthy`. -/
  | healthy (c : ℕ)
  /-- The client is dropped, and `discard` comes next; then `checkout` looks again, or the call returns. -/
  | dropping (c : ℕ) (again : Bool)
  deriving DecidableEq

/-- A call, with how often it has run its operation, and the connections it has taken and given back or
discarded. -/
structure Call where
  phase : Phase := .done
  runs : ℕ := 0
  taken : List ℕ := []
  given : List ℕ := []
  deriving DecidableEq

/-- `PostgresConnectionPoolState`, with the number of connections that were ever opened, which names the next
one, and those that were dropped. -/
structure PoolState where
  idle : List ℕ := []
  total : ℕ := 0
  opened : ℕ := 0
  dropped : List ℕ := []
  deriving DecidableEq

/-- How an operation ends. -/
inductive Outcome
  | ok
  | error
  | panicked
  deriving DecidableEq

/-- What happens to a call next. -/
inductive Event
  | call
  | timedOut
  | look
  | answered (ok : Bool)
  | connected (ok : Bool)
  | timeoutApplied (ok : Bool)
  | ran (outcome : Outcome)
  | inTime (ok : Bool)
  | reset (ok : Bool)
  | giveBack
  | discard
  deriving DecidableEq

namespace Call

/-- The connection is the call's from now on. -/
def take (l : Call) (c : ℕ) (phase : Phase) : Call := { l with phase, taken := l.taken ++ [c] }

/-- The connection is no longer the call's. -/
def give (l : Call) (c : ℕ) (phase : Phase) : Call := { l with phase, given := l.given ++ [c] }

end Call

/-- The client of a connection is dropped. -/
def drop (l : Call) (s : PoolState) (c : ℕ) (again : Bool) : Call × PoolState :=
  ({ l with phase := .dropping c again }, { s with dropped := c :: s.dropped })

/-- A step of a call; each is atomic, as what touches the pool is done under its lock. -/
def act (maximum : ℕ) {ι : Type} (_ : ι) (l : Call) (s : PoolState) (e : Event) : Option (Call × PoolState) :=
  match l.phase, e with
  | .done, .call => some ({ phase := .waiting }, s)
  -- The deadline has passed, before the lock is taken or at the end of a wait.
  | .waiting, .timedOut => some ({ l with phase := .done }, s)
  | .waiting, .look =>
    match s.idle with
    | c :: idle => some (l.take c (.checking c), { s with idle })
    | [] =>
      if s.total < maximum then some ({ l with phase := .connecting }, { s with total := s.total + 1 })
      else some (l, s)
  | .checking c, .answered ok => if ok then some ({ l with phase := .checkedOut c }, s) else drop l s c true
  | .connecting, .connected ok =>
    if ok then some (l.take s.opened (.checkedOut s.opened), { s with opened := s.opened + 1 })
    else some ({ l with phase := .refused }, s)
  | .refused, .discard => some ({ l with phase := .done }, { s with total := s.total - 1 })
  | .checkedOut c, .timeoutApplied ok =>
    if ok then some ({ l with phase := .operating c, runs := l.runs + 1 }, s) else drop l s c false
  | .operating c, .ran outcome =>
    if outcome = .ok then some ({ l with phase := .operated c }, s) else drop l s c false
  | .operated c, .inTime ok => if ok then some ({ l with phase := .resetting c }, s) else drop l s c false
  | .resetting c, .reset ok => if ok then some ({ l with phase := .healthy c }, s) else drop l s c false
  | .healthy c, .giveBack => some (l.give c .done, { s with idle := c :: s.idle })
  | .dropping c again, .discard =>
    some (l.give c (if again then .waiting else .done), { s with total := s.total - 1 })
  | _, _ => none

/-- What a call has of the pool. -/
inductive View
  | nothing
  /-- A place for a connection that is not open, up to the end of `discard` if it cannot be opened. -/
  | opening
  | holding (c : ℕ)
  /-- A connection that was dropped, up to the end of `discard`. -/
  | dropping (c : ℕ)
  deriving DecidableEq

/-- What a call has of the pool, by where it is. -/
def Phase.view : Phase → View
  | done | waiting => .nothing
  | connecting | refused => .opening
  | checking c | checkedOut c | operating c | operated c | resetting c | healthy c => .holding c
  | dropping c _ => .dropping c

/-- The connection that a call owns. -/
def View.owns : View → Option ℕ
  | nothing | opening => none
  | holding c | dropping c => some c

/-- The connection that goes wrong in a step: its operation fails, panics or takes too long, or it cannot be
reset. -/
def Phase.spoils : Phase → Event → Option ℕ
  | operating c, .ran .error | operating c, .ran .panicked | operated c, .inTime false
  | resetting c, .reset false => some c
  | _, _ => none

/-! ### What a step can do -/

/-- The moves of a call, as far as the pool is concerned. -/
inductive Moves (maximum : ℕ) (s : PoolState) : View → View → PoolState → Prop
  | stay {v : View} : Moves maximum s v v s
  | drop {c : ℕ} : Moves maximum s (.holding c) (.dropping c) { s with dropped := c :: s.dropped }
  | take {c : ℕ} {idle : List ℕ} : s.idle = c :: idle → Moves maximum s .nothing (.holding c) { s with idle }
  | reserve : s.total < maximum → Moves maximum s .nothing .opening { s with total := s.total + 1 }
  | connect : Moves maximum s .opening (.holding s.opened) { s with opened := s.opened + 1 }
  | giveUp : Moves maximum s .opening .nothing { s with total := s.total - 1 }
  | discard {c : ℕ} : Moves maximum s (.dropping c) .nothing { s with total := s.total - 1 }
  | giveBack {c : ℕ} : Moves maximum s (.holding c) .nothing { s with idle := c :: s.idle }

section Step

variable {ι : Type} {maximum : ℕ} {i : ι} {l l' : Call} {s s' : PoolState} {e : Event}

/-- **What a step can do.** -/
theorem act_moves (h : act maximum i l s e = some (l', s')) :
    Moves maximum s l.phase.view l'.phase.view s' := by
  obtain ⟨phase, runs, taken, given⟩ := l
  cases phase <;> cases e <;> simp only [act, reduceCtorEq] at h
  case waiting.look =>
    split at h
    · rename_i c idle hidle
      cases h
      exact .take hidle
    · split at h
      · rename_i hlt
        cases h
        exact .reserve hlt
      · cases h
        exact .stay
  case connecting.connected ok =>
    split at h <;> cases h
    · exact .connect
    · exact .stay
  case refused.discard =>
    cases h
    exact .giveUp
  case healthy.giveBack =>
    cases h
    exact .giveBack
  case dropping.discard c again =>
    cases h
    cases again <;> exact .discard
  -- The other steps keep what the call has, or drop it.
  case done.call | waiting.timedOut =>
    cases h
    exact .stay
  all_goals
    split at h <;> cases h
    · exact .stay
    · exact .drop

/-- A connection that goes wrong is dropped. -/
theorem act_spoils {c : ℕ} (h : act maximum i l s e = some (l', s')) (hc : l.phase.spoils e = some c) :
    c ∈ s'.dropped := by
  obtain ⟨phase, runs, taken, given⟩ := l
  unfold Phase.spoils at hc
  split at hc <;> cases hc <;> subst_vars <;> simp only [act, drop, reduceCtorEq, if_false] at h <;> cases h <;>
    exact List.mem_cons_self

/-- The call has not come to its operation. -/
def Phase.before : Phase → Bool
  | waiting | checking _ | connecting | refused | checkedOut _ | dropping _ true => true
  | _ => false

/-- What a call has counted: it has given back what it has taken, but for what it owns, and has run its
operation at most once. -/
structure Call.Sound (l : Call) : Prop where
  taken : l.taken = l.given ++ l.phase.view.owns.toList
  runs : l.runs ≤ 1
  before : l.phase.before = true → l.runs = 0

theorem Call.Sound.act (hl : l.Sound) (h : act maximum i l s e = some (l', s')) : l'.Sound := by
  obtain ⟨phase, runs, taken, given⟩ := l
  obtain ⟨htaken, hruns, hbefore⟩ := hl
  cases phase <;> cases e <;> simp only [Postgres.act, drop, reduceCtorEq] at h
  case waiting.look =>
    split at h
    · cases h
      exact ⟨by simpa [take, Phase.view, View.owns] using htaken, hruns, hbefore⟩
    · split at h <;> cases h <;> exact ⟨htaken, hruns, hbefore⟩
  case connecting.connected ok =>
    split at h <;> cases h
    · exact ⟨by simpa [take, Phase.view, View.owns] using htaken, hruns, hbefore⟩
    · exact ⟨htaken, hruns, hbefore⟩
  case checkedOut.timeoutApplied c ok =>
    -- The only step that runs the operation, which has not been run before.
    obtain rfl : runs = 0 := hbefore rfl
    split at h <;> cases h <;> exact ⟨htaken, by simp, by simp [Phase.before]⟩
  case healthy.giveBack c =>
    cases h
    exact ⟨by simpa [give, Phase.view, View.owns] using htaken, hruns, by simp [give, Phase.before]⟩
  case dropping.discard c again =>
    cases h
    cases again
    · exact ⟨by simpa [give, Phase.view, View.owns] using htaken, hruns, by simp [give, Phase.before]⟩
    · exact ⟨by simpa [give, Phase.view, View.owns] using htaken, hruns, fun _ ↦ hbefore rfl⟩
  case done.call =>
    cases h
    exact ⟨rfl, by simp, fun _ ↦ rfl⟩
  case waiting.timedOut | refused.discard =>
    cases h
    exact ⟨htaken, hruns, by simp [Phase.before]⟩
  case checking.answered =>
    split at h <;> cases h <;> exact ⟨htaken, hruns, fun _ ↦ hbefore rfl⟩
  all_goals split at h <;> cases h <;> exact ⟨htaken, hruns, by simp [Phase.before]⟩

end Step

/-! ### The whole pool -/

/-- The connections that a call owns. -/
def View.owned (v : View) : Multiset ℕ := v.owns.elim 0 ({·})

/-- The connections that a call may use. -/
def View.used : View → Multiset ℕ
  | holding c => {c}
  | _ => 0

/-- The places that a call has reserved. -/
def View.places : View → ℕ
  | opening => 1
  | _ => 0

theorem View.used_le_owned (v : View) : v.used ≤ v.owned := by
  cases v <;> simp [used, owned, owns]

/-- The state of the pool against the connections that are idle or owned, those that are idle or in use, and
the reserved places: the number is right, no connection is in two places, and one that was dropped is not
used, and is all that is owned and not used. -/
structure Ledger (maximum : ℕ) (s : PoolState) (owned used : Multiset ℕ) (places : ℕ) : Prop where
  total : s.total = owned.card + places
  bound : s.total ≤ maximum
  nodup : owned.Nodup
  opened : ∀ c ∈ owned, c < s.opened
  dropped : ∀ c ∈ s.dropped, c < s.opened ∧ c ∉ used
  marked : ∀ c ∈ owned, c ∈ used ∨ c ∈ s.dropped
  covered : ∀ c < s.opened, c ∈ owned ∨ c ∈ s.dropped

/-- **One move of one call**, with what the others have. Taking a connection and giving it back only move
it. -/
theorem Ledger.moves {maximum : ℕ} {s s' : PoolState} {v v' : View} {owned used : Multiset ℕ} {places : ℕ}
    (hle : used ≤ owned) (hmoves : Moves maximum s v v' s')
    (h : Ledger maximum s (v.owned + (owned + s.idle)) (v.used + (used + s.idle)) (v.places + places)) :
    Ledger maximum s' (v'.owned + (owned + s'.idle)) (v'.used + (used + s'.idle)) (v'.places + places) := by
  have hsub {c : ℕ} (hc : c ∈ used + s.idle) : c ∈ owned + s.idle :=
    Multiset.mem_of_le (add_le_add_left hle _) hc
  cases hmoves with
  | stay => exact h
  | @drop c =>
    obtain ⟨htotal, hbound, hnodup, hopened, hdropped, hmarked, hcovered⟩ := h
    refine ⟨htotal, hbound, hnodup, hopened, fun c' hc' ↦ ?_, fun c' hc' ↦ ?_,
      fun c' hc' ↦ (hcovered c' hc').imp_right (List.mem_cons_of_mem c)⟩
    · rw [show View.used (.dropping c) = 0 from rfl, zero_add]
      rcases List.mem_cons.1 hc' with rfl | hc'
      · exact ⟨hopened c' (Multiset.mem_cons_self _ _), fun hused ↦ (Multiset.nodup_cons.1 hnodup).1 (hsub hused)⟩
      · exact ⟨(hdropped c' hc').1, fun hused ↦ (hdropped c' hc').2 (Multiset.mem_cons_of_mem hused)⟩
    · rw [show View.used (.dropping c) = 0 from rfl, zero_add]
      rcases hmarked c' hc' with hused | hdrop
      · rcases Multiset.mem_cons.1 hused with rfl | hused
        · exact .inr List.mem_cons_self
        · exact .inl hused
      · exact .inr (List.mem_cons_of_mem c hdrop)
  | @take c idle hidle =>
    have hmoved (rest : Multiset ℕ) : 0 + (rest + s.idle) = {c} + (rest + idle) := by
      rw [hidle, ← Multiset.cons_coe, zero_add, Multiset.add_cons, Multiset.singleton_add]
    simp only [View.owned, View.owns, View.used, Option.elim, hmoved] at h
    exact ⟨h.total, h.bound, h.nodup, h.opened, h.dropped, h.marked, h.covered⟩
  | @giveBack c =>
    have hmoved (rest : Multiset ℕ) : {c} + (rest + s.idle) = 0 + (rest + ((c :: s.idle : List ℕ) : Multiset ℕ)) := by
      rw [← Multiset.cons_coe, zero_add, Multiset.add_cons, Multiset.singleton_add]
    simp only [View.owned, View.owns, View.used, Option.elim, hmoved] at h
    exact ⟨h.total, h.bound, h.nodup, h.opened, h.dropped, h.marked, h.covered⟩
  | reserve hlt =>
    refine ⟨?_, hlt, h.nodup, h.opened, h.dropped, h.marked, h.covered⟩
    have htotal := h.total
    simp only [View.owned, View.owns, View.places] at htotal ⊢
    omega
  | giveUp =>
    refine ⟨?_, (Nat.sub_le _ _).trans h.bound, h.nodup, h.opened, h.dropped, h.marked, h.covered⟩
    have htotal := h.total
    simp only [View.owned, View.owns, View.places] at htotal ⊢
    omega
  | @discard c =>
    obtain ⟨htotal, hbound, hnodup, hopened, hdropped, hmarked, hcovered⟩ := h
    simp only [View.owned, View.owns, View.used, View.places, Option.elim, Multiset.singleton_add, zero_add,
      Multiset.card_cons] at *
    obtain ⟨hc, hnodup⟩ := Multiset.nodup_cons.1 hnodup
    refine ⟨by dsimp only; omega, (Nat.sub_le _ _).trans hbound, hnodup, fun c' hc' ↦ hopened c' (Multiset.mem_cons_of_mem hc'),
      hdropped, fun c' hc' ↦ hmarked c' (Multiset.mem_cons_of_mem hc'), fun c' hc' ↦ ?_⟩
    rcases hcovered c' hc' with howned | hdrop
    · rcases Multiset.mem_cons.1 howned with rfl | howned
      · exact .inr ((hmarked c' howned).resolve_left fun hused ↦ hc (hsub hused))
      · exact .inl howned
    · exact .inr hdrop
  | connect =>
    obtain ⟨htotal, hbound, hnodup, hopened, hdropped, hmarked, hcovered⟩ := h
    simp only [View.owned, View.owns, View.used, View.places, Option.elim, Multiset.singleton_add, zero_add] at *
    -- The new connection has a name that none had before.
    refine ⟨by rw [Multiset.card_cons]; dsimp only; omega, hbound, Multiset.nodup_cons.2 ⟨fun hmem ↦ lt_irrefl _ (hopened _ hmem), hnodup⟩,
      fun c hc ↦ ?_, fun c hc ↦ ⟨(hdropped c hc).1.trans (Nat.lt_succ_self _), fun hused ↦ ?_⟩, fun c hc ↦ ?_,
      fun c hc ↦ ?_⟩
    · rcases Multiset.mem_cons.1 hc with rfl | hc
      · exact Nat.lt_succ_self _
      · exact (hopened c hc).trans (Nat.lt_succ_self _)
    · rcases Multiset.mem_cons.1 hused with rfl | hused
      · exact lt_irrefl _ (hdropped _ hc).1
      · exact (hdropped c hc).2 hused
    · rcases Multiset.mem_cons.1 hc with rfl | hc
      · exact .inl (Multiset.mem_cons_self _ _)
      · exact (hmarked c hc).imp_left Multiset.mem_cons_of_mem
    · rcases Nat.lt_succ_iff_lt_or_eq.1 hc with hc | rfl
      · exact (hcovered c hc).imp_left Multiset.mem_cons_of_mem
      · exact .inl (Multiset.mem_cons_self _ _)

section Pool

variable {ι : Type} [Fintype ι]

/-- What a call has. -/
abbrev viewOf (p : Pool ι Call PoolState) (i : ι) : View := (p.thread i).phase.view

/-- The calls, and what they all have together. -/
structure Accounted (maximum : ℕ) (p : Pool ι Call PoolState) : Prop where
  ledger : Ledger maximum p.shared (∑ i, (viewOf p i).owned + p.shared.idle)
    (∑ i, (viewOf p i).used + p.shared.idle) (∑ i, (viewOf p i).places)
  sound : ∀ i, (p.thread i).Sound

variable [DecidableEq ι] {maximum : ℕ} {p q : Pool ι Call PoolState} {a : ι × Event}

/-- **One step.** -/
theorem Accounted.step (hp : Accounted maximum p) (h : Pool.Step (act maximum) p a q) : Accounted maximum q := by
  refine ⟨?_, fun i ↦ ?_⟩
  · have hledger := hp.ledger
    simp only [viewOf, Pool.sum_eq (fun l : Call ↦ l.phase.view.owned) p a.1,
      Pool.sum_eq (fun l : Call ↦ l.phase.view.used) p a.1,
      Pool.sum_eq (fun l : Call ↦ l.phase.view.places) p a.1, add_assoc] at hledger
    simp only [viewOf, Pool.sum_step (fun l : Call ↦ l.phase.view.owned) h,
      Pool.sum_step (fun l : Call ↦ l.phase.view.used) h,
      Pool.sum_step (fun l : Call ↦ l.phase.view.places) h, add_assoc]
    exact hledger.moves (Finset.sum_le_sum fun i _ ↦ (viewOf p i).used_le_owned) (act_moves h.act)
  · by_cases hi : i = a.1
    · subst hi
      exact (hp.sound _).act h.act
    · rw [h.other hi]
      exact hp.sound i

/-- A pool without connections, and nobody there. -/
def start : Pool ι Call PoolState := ⟨{}, fun _ ↦ {}⟩

omit [DecidableEq ι] in
theorem accounted_start : Accounted maximum (start : Pool ι Call PoolState) := by
  refine ⟨⟨?_, Nat.zero_le _, ?_, ?_, by simp [start], ?_, by simp [start]⟩, fun i ↦ ⟨rfl, Nat.zero_le _, by simp [start]⟩⟩
  all_goals simp [start, viewOf, Phase.view, View.owned, View.owns, View.places]

theorem accounted_of_run {l : List (ι × Event)} (h : Run (Pool.Step (act maximum)) start l p) :
    Accounted maximum p :=
  h.invariant accounted_start fun _ _ _ hp hstep ↦ hp.step hstep

/-! ### Reading the ledger -/

theorem Moves.dropped {s s' : PoolState} {v v' : View} {c : ℕ} (h : Moves maximum s v v' s')
    (hc : c ∈ s.dropped) : c ∈ s'.dropped := by
  cases h with
  | drop => exact List.mem_cons_of_mem _ hc
  | _ => exact hc

omit [Fintype ι] in
/-- A connection that was dropped stays so. -/
theorem dropped_of_run {l : List (ι × Event)} {c : ℕ} (h : Run (Pool.Step (act maximum)) p l q)
    (hc : c ∈ p.shared.dropped) : c ∈ q.shared.dropped :=
  h.invariant (I := fun p ↦ c ∈ p.shared.dropped) hc fun _ _ _ hp hstep ↦ (act_moves hstep.act).dropped hp

/-- **The connection pool.** Along every run of any number of calls: the number counts the connections that
are idle, those that calls own and those that calls are opening, and is at most the maximum; a connection is
idle or owned by one call, unless it was dropped; a call has given back or discarded, once each and in this
order, what it has taken, but for what it owns, and has run its operation at most once. A connection on which
an operation fails, panics or is too late, or that cannot be reset, is never idle or in use again. -/
theorem pool_accounting (maximum : ℕ) {l : List (ι × Event)} (hrun : Run (Pool.Step (act maximum)) start l p) :
    (p.shared.total = p.shared.idle.length + (Finset.univ.filter fun i ↦ (viewOf p i).owns.isSome).card +
        (Finset.univ.filter fun i ↦ viewOf p i = .opening).card ∧ p.shared.total ≤ maximum) ∧
      (p.shared.idle.Nodup ∧
        (∀ i c, (viewOf p i).owns = some c →
          c ∉ p.shared.idle ∧ ∀ j, (viewOf p j).owns = some c → j = i) ∧
        ∀ c < p.shared.opened, c ∈ p.shared.idle ∨ (∃ i, (viewOf p i).owns = some c) ∨ c ∈ p.shared.dropped) ∧
      (∀ i, (p.thread i).taken = (p.thread i).given ++ (viewOf p i).owns.toList ∧ (p.thread i).runs ≤ 1) ∧
      ∀ {a q l' r c}, (p.thread a.1).phase.spoils a.2 = some c → Pool.Step (act maximum) p a q →
        Run (Pool.Step (act maximum)) q l' r → c ∉ r.shared.idle ∧ ∀ i, viewOf r i ≠ .holding c := by
  have hp := accounted_of_run hrun
  have hlent : ∑ i, (viewOf p i).owned = p.lent fun l : Call ↦ l.phase.view.owns := rfl
  refine ⟨⟨?_, hp.ledger.bound⟩, ⟨?_, ?_, ?_⟩, fun i ↦ ⟨(hp.sound i).taken, (hp.sound i).runs⟩, ?_⟩
  · have hplaces (v : View) : v.places = if v = .opening then 1 else 0 := by cases v <;> rfl
    have howned (v : View) : v.owned.card = if v.owns.isSome then 1 else 0 := by cases v <;> rfl
    have htotal := hp.ledger.total
    simp only [Multiset.card_add, Multiset.card_sum, Multiset.coe_card, hplaces, howned] at htotal
    rw [Finset.card_filter, Finset.card_filter, htotal, Nat.add_comm (∑ _, _) p.shared.idle.length]
  · exact Multiset.coe_nodup.1 (Multiset.nodup_add.1 hp.ledger.nodup).2.1
  · intro i c hi
    obtain ⟨hnodup, -, hdisjoint⟩ := Multiset.nodup_add.1 (hlent ▸ hp.ledger.nodup)
    exact ⟨Multiset.disjoint_left.1 hdisjoint (Pool.mem_lent.2 ⟨i, hi⟩), fun j hj ↦ Pool.eq_of_lent hnodup hi hj⟩
  · intro c hc
    rcases hp.ledger.covered c hc with hmem | hdrop
    · rcases Multiset.mem_add.1 hmem with hmem | hmem
      · exact .inr (.inl (Pool.mem_lent.1 (hlent ▸ hmem)))
      · exact .inl hmem
    · exact .inr (.inr hdrop)
  · intro a q l' r c hspoils hstep hafter
    have hr := (hafter.invariant (hp.step hstep) fun _ _ _ hp hstep ↦ hp.step hstep)
    obtain ⟨-, hunused⟩ := hr.ledger.dropped c (dropped_of_run hafter (act_spoils hstep.act hspoils))
    rw [Multiset.mem_add, not_or] at hunused
    refine ⟨hunused.2, fun i hi ↦ hunused.1 (Multiset.mem_sum.2 ⟨i, Finset.mem_univ i, ?_⟩)⟩
    rw [hi]
    exact Multiset.mem_singleton_self c

/-- One call opens the connection and gives it back, another one takes it and fails. -/
def twoCalls : List (Fin 2 × Event) :=
  [(0, .call), (0, .look), (0, .connected true), (0, .timeoutApplied true), (1, .call), (0, .ran .ok),
    (0, .inTime true), (0, .reset true), (0, .giveBack), (1, .look), (1, .answered true),
    (1, .timeoutApplied true)]

/-- The failed connection is not handed out again. -/
theorem pool_accounting_twoCalls : ∃ p : Pool (Fin 2) Call PoolState, start.exec (act 1) twoCalls = some p ∧
    p.shared.total = 1 ∧ (p.thread 1).phase = .operating 0 ∧
      ∀ {q l' r}, Pool.Step (act 1) p (1, .ran .panicked) q → Run (Pool.Step (act 1)) q l' r →
        0 ∉ r.shared.idle := by
  obtain ⟨p, hp, htotal, hphase⟩ : ∃ p : Pool (Fin 2) Call PoolState, start.exec (act 1) twoCalls = some p ∧
      p.shared.total = 1 ∧ (p.thread 1).phase = .operating 0 := ⟨_, rfl, rfl, rfl⟩
  refine ⟨p, hp, htotal, hphase, fun hstep hafter ↦ ?_⟩
  exact ((pool_accounting 1 (Pool.run_of_exec hp)).2.2.2 (by rw [hphase]; rfl) hstep hafter).1

end Pool

end Centaeris.Postgres
