import Mathlib.Data.Finset.Card
import Mathlib.Order.Interval.Finset.Nat
import Centaeris.Quota.Attempt

/-!
# The slots of a quota domain

The bound on the attempts of a domain is the number of its slots, since a lock has one holder. It holds
for the attempts whose connection is open, along every interleaving, with errors, cancellations and lost
connections (`quota_respected`).

The body of an attempt is not bounded by this alone: no one looks at the connection while the body runs.
If the connection is lost the database gives the slot to another attempt, and the two bodies go on
together (`body_without_slot`).
-/

namespace Centaeris.Quota

section Guarantee

variable {ι : Type} {i j : ι} {db db' : Db ι}

/-- **What a step of attempt `i` leaves to the others.** -/
structure Guarantee (i : ι) (db db' : Db ι) : Prop where
  locks : ∀ name j, db.locks name = some j → j ≠ i → db'.locks name = some j
  connected : ∀ j, j ≠ i → db'.connected j = db.connected j
  domain : ∀ key d, db.domain key = some d → ∃ d', db'.domain key = some d' ∧
    d'.maxConcurrent = d.maxConcurrent ∧ d.cooldownUntilMs ≤ d'.cooldownUntilMs
  now : db.now ≤ db'.now

theorem Guarantee.refl (i : ι) (db : Db ι) : Guarantee i db db :=
  ⟨fun _ _ h _ ↦ h, fun _ _ ↦ rfl, fun _ d h ↦ ⟨d, h, rfl, le_rfl⟩, le_rfl⟩

/-- A step that writes one domain. -/
theorem Guarantee.of_domain {key : Nat} {f : Domain → Domain}
    (hmax : ∀ d, (f d).maxConcurrent = d.maxConcurrent)
    (hcooldown : ∀ d, d.cooldownUntilMs ≤ (f d).cooldownUntilMs) :
    Guarantee i db { db with domain := Function.update db.domain key ((db.domain key).map f) } := by
  refine ⟨fun _ _ h _ ↦ h, fun _ _ ↦ rfl, fun key' d h ↦ ?_, le_rfl⟩
  by_cases hkey : key' = key
  · subst hkey
    exact ⟨f d, by simp [h], hmax d, hcooldown d⟩
  · exact ⟨d, by simp [Function.update_of_ne hkey, h], rfl, le_rfl⟩

theorem raiseCooldown_guarantee (i : ι) (db : Db ι) (key : Nat) (untilMs : Int) :
    Guarantee i db (db.raiseCooldown key untilMs) :=
  .of_domain (fun _ ↦ rfl) fun _ ↦ le_max_left _ _

/-- A lock that another attempt holds is not written. -/
theorem Guarantee.of_lock {name : Nat × Nat} {holder : Option ι}
    (h : db.locks name = none ∨ db.locks name = some i) :
    Guarantee i db { db with locks := Function.update db.locks name holder } := by
  refine ⟨fun name' j hname' hj ↦ ?_, fun _ _ ↦ rfl, fun _ d h ↦ ⟨d, h, rfl, le_rfl⟩, le_rfl⟩
  have hne : name' ≠ name := by
    rintro rfl
    rcases h with hnone | hmine
    · simp [hnone] at hname'
    · exact hj (Option.some.inj (hname'.symm.trans hmine))
  show Function.update db.locks name holder name' = some j
  rw [Function.update_of_ne hne, hname']

variable [DecidableEq ι]

theorem disconnect_guarantee (i : ι) (db : Db ι) : Guarantee i db (db.disconnect i) := by
  refine ⟨fun name j h hj ↦ ?_, fun j hj ↦ Function.update_of_ne hj _ _,
    fun _ d h ↦ ⟨d, h, rfl, le_rfl⟩, le_rfl⟩
  simp [Db.disconnect, h, hj]

theorem tryLock_eq_some {name : Nat × Nat} (h : db.tryLock i name = some db') :
    (db.locks name = none ∨ db.locks name = some i) ∧
      db' = { db with locks := Function.update db.locks name (some i) } := by
  rw [Db.tryLock] at h
  split at h
  · next hfree => exact ⟨hfree, (Option.some.inj h).symm⟩
  · exact absurd h (by simp)

theorem unlock_guarantee (i : ι) (db : Db ι) (name : Nat × Nat) : Guarantee i db (db.unlock i name) := by
  rw [Db.unlock]
  split
  · next h => exact .of_lock (.inr h)
  · exact .refl i db

end Guarantee

/-! ### What an attempt relies on -/

/-- The limit that an attempt has read. -/
def Point.limit? : Point → Option (Nat × Nat)
  | .domainRead _ key limit _ | .locking _ key limit _ _ => some (key, limit)
  | _ => none

section Relies

variable {ι : Type} {i j : ι} {db db' : Db ι} {point point' : Point} {event : Event}

/-- The slot is one of the domain, and it is held as long as the connection is open. -/
structure Slot (i : ι) (db : Db ι) (key slot : Nat) : Prop where
  pos : 1 ≤ slot
  le : ∃ d, db.domain key = some d ∧ slot ≤ d.maxConcurrent
  held : db.connected i = true → db.locks (key, slot) = some i

/-- **What an attempt relies on.** -/
structure Relies (i : ι) (point : Point) (db : Db ι) : Prop where
  slot : ∀ key slot, point.slot? = some (key, slot) → Slot i db key slot
  limit : ∀ key limit, point.limit? = some (key, limit) →
    ∃ d, db.domain key = some d ∧ d.maxConcurrent = limit
  candidate : ∀ kind key limit candidate cancelled,
    point = .locking kind key limit candidate cancelled → 1 ≤ candidate

/-- An attempt without a slot that has read nothing. -/
theorem Relies.free (hslot : point.slot? = none) (hlimit : point.limit? = none) : Relies i point db := by
  refine ⟨fun key slot h ↦ ?_, fun key limit h ↦ ?_, ?_⟩
  · simp [hslot] at h
  · simp [hlimit] at h
  · rintro kind key limit candidate cancelled rfl
    simp [Point.limit?] at hlimit

/-- An attempt at a point with a slot. -/
theorem Relies.ofSlot {key slot : Nat} (h : Slot i db key slot) (hslot : point.slot? = some (key, slot))
    (hlimit : point.limit? = none) : Relies i point db := by
  refine ⟨fun key' slot' h' ↦ ?_, fun key limit h ↦ ?_, ?_⟩
  · obtain ⟨rfl, rfl⟩ := Prod.mk.inj (Option.some.inj (hslot.symm.trans h'))
    exact h
  · simp [hlimit] at h
  · rintro kind key limit candidate cancelled rfl
    simp [Point.limit?] at hlimit

/-- An attempt that has read the limit of its domain. -/
theorem Relies.ofLimit {key limit : Nat} (h : ∃ d, db.domain key = some d ∧ d.maxConcurrent = limit)
    (hslot : point.slot? = none) (hlimit : point.limit? = some (key, limit))
    (hcandidate : ∀ kind key limit candidate cancelled,
      point = .locking kind key limit candidate cancelled → 1 ≤ candidate) : Relies i point db := by
  refine ⟨fun key slot h ↦ ?_, fun key' limit' h' ↦ ?_, hcandidate⟩
  · simp [hslot] at h
  · obtain ⟨rfl, rfl⟩ := Prod.mk.inj (Option.some.inj (hlimit.symm.trans h'))
    exact h

theorem domainState_eq_some {key limit : Nat} {cooldownUntil : Int}
    (h : db.domainState key = some (limit, cooldownUntil)) :
    ∃ d, db.domain key = some d ∧ d.maxConcurrent = limit ∧ d.cooldownUntilMs = cooldownUntil := by
  obtain ⟨d, hd, heq⟩ := Option.map_eq_some_iff.1 h
  obtain ⟨rfl, rfl⟩ := Prod.mk.inj heq
  exact ⟨d, (Option.filter_eq_some_iff.1 hd).1, rfl, rfl⟩

/-- **What an attempt relies on is kept by the others.** -/
theorem Relies.stable (h : Relies i point db) (hguarantee : Guarantee j db db') (hij : i ≠ j) :
    Relies i point db' := by
  refine ⟨fun key slot hslot ↦ ?_, fun key limit hlimit ↦ ?_, h.candidate⟩
  · obtain ⟨hpos, ⟨d, hd, hle⟩, hheld⟩ := h.slot key slot hslot
    obtain ⟨d', hd', hmax, -⟩ := hguarantee.domain key d hd
    refine ⟨hpos, ⟨d', hd', hmax ▸ hle⟩, fun hconnected ↦ ?_⟩
    rw [hguarantee.connected i hij] at hconnected
    exact hguarantee.locks _ i (hheld hconnected) hij
  · obtain ⟨d, hd, hmax⟩ := h.limit key limit hlimit
    obtain ⟨d', hd', hmax', -⟩ := hguarantee.domain key d hd
    exact ⟨d', hd', hmax'.trans hmax⟩

/-- A slot is kept by a step that leaves the locks and the connection. -/
theorem Slot.of_guarantee {key slot : Nat} (h : Slot i db key slot) (hguarantee : Guarantee j db db')
    (hlocks : db'.locks = db.locks) (hconnected : db'.connected = db.connected) :
    Slot i db' key slot := by
  obtain ⟨hpos, ⟨d, hd, hle⟩, hheld⟩ := h
  obtain ⟨d', hd', hmax, -⟩ := hguarantee.domain key d hd
  exact ⟨hpos, ⟨d', hd', hmax ▸ hle⟩, by rw [hlocks, hconnected]; exact hheld⟩

theorem idleStep_effect (h : idleStep db event = some (point', db')) :
    Guarantee i db db' ∧ Relies i point' db' := by
  unfold idleStep at h
  split at h
  · cases h
    exact ⟨.refl i _, .free rfl rfl⟩
  · next ms =>
    cases h
    exact ⟨⟨fun _ _ h _ ↦ h, fun _ _ ↦ rfl, fun _ d h ↦ ⟨d, h, rfl, le_rfl⟩,
      le_add_of_nonneg_right (Int.natCast_nonneg ms)⟩, .free rfl rfl⟩
  · cases h
    exact ⟨.of_domain (fun _ ↦ rfl) fun _ ↦ le_rfl, .free rfl rfl⟩
  · cases h
    exact ⟨raiseCooldown_guarantee .., .free rfl rfl⟩
  · exact absurd h (by simp)

/-- An exception takes the slot of the attempt with it, or none. -/
theorem raised_relies (hrelies : Relies i point db) (h : raised point = some point') :
    Relies i point' db := by
  unfold raised at h
  split at h
  all_goals first
    | (cases h; exact .free rfl rfl)
    | (cases h; exact .ofSlot (hrelies.slot _ _ rfl) rfl rfl)
    | exact absurd h (by simp)

theorem cancelled_relies (hrelies : Relies i point db) (h : cancelled point = some point') :
    Relies i point' db := by
  unfold cancelled at h
  split at h
  · cases h
    exact .free rfl rfl
  · cases h
    exact .free rfl rfl
  · next key limit candidate =>
    cases h
    refine .ofLimit (hrelies.limit key limit rfl) rfl rfl ?_
    rintro _ _ _ _ _ heq
    cases heq
    exact hrelies.candidate _ _ _ _ _ rfl
  · next key slot _ =>
    cases h
    exact .ofSlot (hrelies.slot key slot rfl) rfl rfl
  · next key slot =>
    cases h
    exact .ofSlot (hrelies.slot key slot rfl) rfl rfl
  · exact absurd h (by simp)

variable [DecidableEq ι]

/-- A slot whose connection is lost is still one of the domain. -/
theorem Relies.disconnect (h : Relies i point db) : Relies i point (db.disconnect i) := by
  refine ⟨fun key slot hslot ↦ ?_, h.limit, h.candidate⟩
  obtain ⟨hpos, hle, -⟩ := h.slot key slot hslot
  refine ⟨hpos, hle, fun hconnected ↦ ?_⟩
  simp [Db.disconnect] at hconnected

theorem tryCandidate_effect {kind : Kind} {key limit candidate : Nat} {cancelled : Bool}
    (hrelies : Relies i (.locking kind key limit candidate cancelled) db)
    (h : tryCandidate i db kind key limit candidate cancelled = (point', db')) :
    Guarantee i db db' ∧ Relies i point' db' := by
  have hlimit := hrelies.limit key limit rfl
  have hpos := hrelies.candidate _ _ _ _ _ rfl
  rw [tryCandidate] at h
  split at h
  · split at h
    · next hle =>
      split at h
      · next db₁ hlock =>
        obtain ⟨hfree, rfl⟩ := tryLock_eq_some hlock
        obtain ⟨rfl, rfl⟩ := Prod.mk.inj h
        obtain ⟨d, hd, hmax⟩ := hlimit
        have hslot : Slot i { db with locks := Function.update db.locks (key, candidate) (some i) } key
            candidate := ⟨hpos, ⟨d, hd, hmax ▸ hle⟩, fun _ ↦ Function.update_self ..⟩
        refine ⟨.of_lock hfree, ?_⟩
        cases cancelled
        · exact .ofSlot hslot rfl rfl
        · exact .ofSlot hslot rfl rfl
      · obtain ⟨rfl, rfl⟩ := Prod.mk.inj h
        refine ⟨.refl i _, .ofLimit hlimit rfl rfl ?_⟩
        rintro _ _ _ _ _ heq
        cases heq
        exact Nat.le_add_left 1 candidate
    · obtain ⟨rfl, rfl⟩ := Prod.mk.inj h
      refine ⟨.refl i _, ?_⟩
      cases cancelled
      · exact .free rfl rfl
      · exact .free rfl rfl
  · obtain ⟨rfl, rfl⟩ := Prod.mk.inj h
    exact ⟨.refl i _, .free rfl rfl⟩

theorem giveBack_effect {kind : Kind} {key slot : Nat} {cancelled : Bool}
    (hrelies : Relies i (.givingBack kind key slot cancelled) db)
    (h : giveBack i db kind key slot cancelled = (point', db')) :
    Guarantee i db db' ∧ Relies i point' db' := by
  rw [giveBack] at h
  split at h
  · obtain ⟨rfl, rfl⟩ := Prod.mk.inj h
    refine ⟨unlock_guarantee i db _, ?_⟩
    cases cancelled
    · exact .free rfl rfl
    · exact .free rfl rfl
  · obtain ⟨rfl, rfl⟩ := Prod.mk.inj h
    exact ⟨.refl i _, .ofSlot (hrelies.slot key slot rfl) rfl rfl⟩

theorem statement_effect (hrelies : Relies i point db)
    (h : statement i db point event = some (point', db')) :
    Guarantee i db db' ∧ Relies i point' db' := by
  unfold statement at h
  split at h
  · cases h
    exact ⟨.refl i _, .free rfl rfl⟩
  · next cancelled =>
    cases h
    refine ⟨⟨fun _ _ h _ ↦ h, fun j hj ↦ Function.update_of_ne hj _ _,
      fun _ d h ↦ ⟨d, h, rfl, le_rfl⟩, le_rfl⟩, ?_⟩
    cases cancelled
    · exact .free rfl rfl
    · exact .free rfl rfl
  · split at h
    · cases h
      exact ⟨.refl i _, .free rfl rfl⟩
    · next hstate =>
      cases h
      obtain ⟨d, hd, hmax, -⟩ := domainState_eq_some hstate
      refine ⟨.refl i _, .ofLimit ⟨d, hd, hmax⟩ rfl rfl ?_⟩
      rintro _ _ _ _ _ heq
      cases heq
  · next key limit _ =>
    cases h
    refine ⟨.refl i _, ?_⟩
    split
    · refine .ofLimit (hrelies.limit key limit rfl) rfl rfl ?_
      rintro _ _ _ _ _ heq
      cases heq
      exact le_rfl
    · exact .free rfl rfl
  · exact tryCandidate_effect hrelies (Option.some.inj h)
  · next key slot =>
    have hslot := hrelies.slot key slot rfl
    split at h
    · cases h
      exact ⟨.refl i _, .ofSlot hslot rfl rfl⟩
    · cases h
      exact ⟨.refl i _, .ofSlot hslot rfl rfl⟩
  · next key slot _ =>
    have hslot := hrelies.slot key slot rfl
    cases h
    refine ⟨.refl i _, ?_⟩
    split
    · exact .ofSlot hslot rfl rfl
    · exact .ofSlot hslot rfl rfl
  · exact giveBack_effect hrelies (Option.some.inj h)
  · cases h
    exact ⟨.refl i _, .free rfl rfl⟩
  · next key slot =>
    cases h
    exact ⟨.refl i _, .ofSlot (hrelies.slot key slot rfl) rfl rfl⟩
  · next key slot _ _ =>
    have hslot := hrelies.slot key slot rfl
    split at h
    · cases h
      exact ⟨.refl i _, .ofSlot hslot rfl rfl⟩
    · cases h
      exact ⟨.refl i _, .ofSlot hslot rfl rfl⟩
  · next key slot _ =>
    cases h
    exact ⟨.refl i _, .ofSlot (hrelies.slot key slot rfl) rfl rfl⟩
  · next key slot untilMs =>
    cases h
    have hguarantee := raiseCooldown_guarantee i db key untilMs
    exact ⟨hguarantee, .ofSlot ((hrelies.slot key slot rfl).of_guarantee hguarantee rfl rfl) rfl rfl⟩
  · cases h
    exact ⟨disconnect_guarantee i db, .free rfl rfl⟩
  · exact absurd h (by simp)

/-- **What a step does.** -/
theorem act_effect (hrelies : Relies i point db) (h : act i point db event = some (point', db')) :
    Guarantee i db db' ∧ Relies i point' db' := by
  unfold act at h
  split at h
  · exact idleStep_effect h
  · cases h
    exact ⟨disconnect_guarantee i db, hrelies.disconnect⟩
  · obtain ⟨point₁, hraised, heq⟩ := Option.map_eq_some_iff.1 h
    cases heq
    exact ⟨.refl i _, raised_relies hrelies hraised⟩
  · obtain ⟨point₁, hcancelled, heq⟩ := Option.map_eq_some_iff.1 h
    cases heq
    exact ⟨.refl i _, cancelled_relies hrelies hcancelled⟩
  · exact statement_effect hrelies h

end Relies

section Runs

variable {ι : Type} [DecidableEq ι] {p q q' : Attempts ι} {l : List (ι × Event)}

/-- The steps of the attempts. -/
abbrev Attempts.Step : Attempts ι → ι × Event → Attempts ι → Prop := Pool.Step act

theorem relies_of_run (hidle : ∀ i, p.thread i = .idle) (hrun : Run Attempts.Step p l q) (i : ι) :
    Relies i (q.thread i) q.shared := by
  refine (Pool.invariant (I := fun _ ↦ True) (A := Relies) (G := Guarantee) ⟨trivial, fun i ↦ ?_⟩ ?_ ?_
    hrun).thread i
  · rw [hidle i]
    exact .free rfl rfl
  · intro i point db event point' db' _ hrelies hact
    obtain ⟨hguarantee, hrelies'⟩ := act_effect hrelies hact
    exact ⟨trivial, hrelies', hguarantee⟩
  · intro i j point db db' hij _ hrelies hguarantee
    exact hrelies.stable hguarantee hij

/-- The attempt is between the acquisition of a slot of the domain and the end of its connection. -/
def Attempts.Holding (q : Attempts ι) (key : Nat) (i : ι) : Prop :=
  q.shared.connected i = true ∧ ∃ slot, (q.thread i).slot? = some (key, slot)

omit [DecidableEq ι] in
/-- **As many attempts as slots.** -/
theorem card_holding_le (h : ∀ i, Relies i (q.thread i) q.shared) {key : Nat} {d : Domain}
    (hd : q.shared.domain key = some d) {s : Finset ι} (hs : ∀ i ∈ s, q.Holding key i) :
    s.card ≤ d.maxConcurrent := by
  -- Every attempt has a slot of its own in the interval.
  have hslot : ∀ i ∈ s, ∃ slot ∈ Finset.Icc 1 d.maxConcurrent, q.shared.locks (key, slot) = some i := by
    intro i hi
    obtain ⟨hconnected, slot, hpoint⟩ := hs i hi
    obtain ⟨hpos, ⟨d', hd', hle⟩, hheld⟩ := (h i).slot key slot hpoint
    obtain rfl := Option.some.inj (hd.symm.trans hd')
    exact ⟨slot, Finset.mem_Icc.2 ⟨hpos, hle⟩, hheld hconnected⟩
  choose! f hf hlocks using hslot
  have hcard := Finset.card_le_card_of_injOn f hf fun i hi j hj heq ↦ by
    have hi := hlocks i hi
    rw [heq, hlocks j hj] at hi
    exact (Option.some.inj hi).symm
  simpa using hcard

/-- The last look at the domain before a body starts: attempt `i` held its slot, the cooldown was the
one that is stored there, and nothing but the loss of its connection has happened to the attempt since. -/
def LastCheck (p : Attempts ι) (l : List (ι × Event)) (i : ι) (kind : Kind) (key slot : Nat)
    (cooldownUntil : Int) : Prop :=
  ∃ l₁ l₂ r d, l = l₁ ++ (i, .readDomain) :: l₂ ∧ Run Attempts.Step p l₁ r ∧
    r.thread i = .locked kind key slot ∧ r.shared.domain key = some d ∧
    d.cooldownUntilMs = cooldownUntil ∧ ∀ a ∈ l₂, a.1 = i → a.2 = .loseConnection

theorem LastCheck.concat {i : ι} {kind : Kind} {key slot : Nat} {cooldownUntil : Int} {a : ι × Event}
    (h : LastCheck p l i kind key slot cooldownUntil) (ha : a.1 = i → a.2 = .loseConnection) :
    LastCheck p (l ++ [a]) i kind key slot cooldownUntil := by
  obtain ⟨l₁, l₂, r, d, rfl, hr, hpoint, hd, hcooldown, hl₂⟩ := h
  refine ⟨l₁, l₂ ++ [a], r, d, by simp, hr, hpoint, hd, hcooldown, fun b hb ↦ ?_⟩
  rcases List.mem_append.1 hb with hb | hb
  · exact hl₂ b hb
  · rwa [List.mem_singleton.1 hb]

/-- Where a statement other than the two looks leads to. -/
def Point.plain : Point → Bool
  | .rechecked _ _ _ _ | .body _ _ _ => false
  | _ => true

theorem raised_plain {point point' : Point} (h : raised point = some point') : point'.plain = true := by
  unfold raised at h
  split at h <;> cases h <;> rfl

theorem cancelled_plain {point point' : Point} (h : cancelled point = some point') :
    point'.plain = true := by
  unfold cancelled at h
  split at h <;> cases h <;> rfl

theorem tryCandidate_plain {i : ι} {db : Db ι} {kind : Kind} {key limit candidate : Nat}
    {cancelled : Bool} : (tryCandidate i db kind key limit candidate cancelled).1.plain = true := by
  unfold tryCandidate
  cases cancelled <;> repeat' split
  all_goals rfl

theorem giveBack_plain {i : ι} {db : Db ι} {kind : Kind} {key slot : Nat} {cancelled : Bool} :
    (giveBack i db kind key slot cancelled).1.plain = true := by
  unfold giveBack
  cases cancelled <;> split <;> rfl

/-- How an attempt gets to the second look at the clock and to its body. -/
inductive CheckStep (db : Db ι) : Point → Event → Point → Prop
  | lost {point : Point} : CheckStep db point .loseConnection point
  | read {kind : Kind} {key slot : Nat} {d : Domain} (hd : db.domain key = some d) :
      CheckStep db (.locked kind key slot) .readDomain (.rechecked kind key slot d.cooldownUntilMs)
  | passed {kind : Kind} {key slot : Nat} {cooldownUntil : Int} (h : cooldownUntil ≤ db.now) :
      CheckStep db (.rechecked kind key slot cooldownUntil) .readClock (.body kind key slot)

theorem statement_check {i : ι} {db db' : Db ι} {point point' : Point} {event : Event}
    (h : statement i db point event = some (point', db')) (hplain : point'.plain = false) :
    CheckStep db point event point' := by
  have hno : ∀ {pt : Point}, pt.plain = true → pt = point' → CheckStep db point event point' := by
    rintro pt hpt rfl
    simp [hpt] at hplain
  unfold statement at h
  split at h
  · cases h
    exact hno rfl rfl
  · next cancelled =>
    obtain ⟨hpt, -⟩ := Prod.mk.inj (Option.some.inj h)
    cases cancelled
    · exact hno rfl hpt
    · exact hno rfl hpt
  · split at h
    · cases h
      exact hno rfl rfl
    · cases h
      exact hno rfl rfl
  · obtain ⟨hpt, -⟩ := Prod.mk.inj (Option.some.inj h)
    split at hpt
    · exact hno rfl hpt
    · exact hno rfl hpt
  · exact hno tryCandidate_plain (congrArg Prod.fst (Option.some.inj h))
  · split at h
    · cases h
      exact hno rfl rfl
    · next hstate =>
      cases h
      obtain ⟨d, hd, -, rfl⟩ := domainState_eq_some hstate
      exact .read hd
  · obtain ⟨hpt, -⟩ := Prod.mk.inj (Option.some.inj h)
    split at hpt
    · next hle =>
      subst hpt
      exact .passed hle
    · exact hno rfl hpt
  · exact hno giveBack_plain (congrArg Prod.fst (Option.some.inj h))
  · cases h
    exact hno rfl rfl
  · cases h
    exact hno rfl rfl
  · split at h
    · cases h
      exact hno rfl rfl
    · cases h
      exact hno rfl rfl
  · cases h
    exact hno rfl rfl
  · cases h
    exact hno rfl rfl
  · cases h
    exact hno rfl rfl
  · exact absurd h (by simp)

theorem act_check {i : ι} {db db' : Db ι} {point point' : Point} {event : Event}
    (h : act i point db event = some (point', db')) (hplain : point'.plain = false) :
    CheckStep db point event point' := by
  unfold act at h
  split at h
  · unfold idleStep at h
    split at h <;> cases h <;> simp [Point.plain] at hplain
  · cases h
    exact .lost
  · obtain ⟨point₁, hraised, heq⟩ := Option.map_eq_some_iff.1 h
    cases heq
    simp [raised_plain hraised] at hplain
  · obtain ⟨point₁, hcancelled, heq⟩ := Option.map_eq_some_iff.1 h
    cases heq
    simp [cancelled_plain hcancelled] at hplain
  · exact statement_check h hplain

/-- **The last check is in the history.** -/
theorem lastCheck_of_run (hrun : Run Attempts.Step p l q) (hidle : ∀ i, p.thread i = .idle) {i : ι}
    {kind : Kind} {key slot : Nat} {cooldownUntil : Int}
    (hpoint : q.thread i = .rechecked kind key slot cooldownUntil) :
    LastCheck p l i kind key slot cooldownUntil := by
  refine hrun.invariant_history (I := fun l q ↦ ∀ i kind key slot cooldownUntil,
    q.thread i = .rechecked kind key slot cooldownUntil → LastCheck p l i kind key slot cooldownUntil)
    ?_ ?_ i kind key slot cooldownUntil hpoint
  · intro i kind key slot cooldownUntil h
    rw [hidle i] at h
    cases h
  · intro l r a r' hr ih hstep i kind key slot cooldownUntil hpoint
    by_cases hi : i = a.1
    · subst hi
      -- A step of the attempt itself: the look at the domain, or the loss of its connection.
      have hact := hstep.act
      rw [hpoint] at hact
      have hcheck := act_check hact rfl
      generalize hevent : a.2 = event at hcheck
      generalize hbefore : r.thread a.1 = before at hcheck
      cases hcheck with
      | lost => exact (ih a.1 kind key slot cooldownUntil hbefore).concat fun _ ↦ hevent
      | @read _ _ _ d hd =>
        refine ⟨l, [], r, d, ?_, hr, hbefore, hd, rfl, List.forall_mem_nil _⟩
        rw [← hevent]
    · rw [hstep.other hi] at hpoint
      exact (ih i kind key slot cooldownUntil hpoint).concat fun h ↦ absurd h.symm hi

/-- **The quota of a domain.** -/
structure QuotaRespected (p : Attempts ι) (l : List (ι × Event)) (q : Attempts ι) : Prop where
  /-- No more attempts hold a slot than there are. -/
  bound : ∀ key d, q.shared.domain key = some d → ∀ s : Finset ι, (∀ i ∈ s, q.Holding key i) →
    s.card ≤ d.maxConcurrent
  /-- A body that runs holds a slot, as long as its connection is open. -/
  held : ∀ i kind key slot, q.thread i = .body kind key slot → q.shared.connected i = true →
    ∃ d, q.shared.domain key = some d ∧ 1 ≤ slot ∧ slot ≤ d.maxConcurrent ∧
      q.shared.locks (key, slot) = some i
  /-- The limit stays, and the cooldown never decreases. -/
  cooldown : ∀ l' q', Run Attempts.Step q l' q' → ∀ key d, q.shared.domain key = some d →
    ∃ d', q'.shared.domain key = some d' ∧ d'.maxConcurrent = d.maxConcurrent ∧
      d.cooldownUntilMs ≤ d'.cooldownUntilMs
  /-- A body starts after a check under its slot that has found the clock at or past the cooldown. -/
  starts : ∀ i event q' kind key slot, Attempts.Step q (i, event) q' →
    q'.thread i = .body kind key slot → q.thread i ≠ .body kind key slot →
    ∃ cooldownUntil, q.thread i = .rechecked kind key slot cooldownUntil ∧
      cooldownUntil ≤ q.shared.now ∧ LastCheck p l i kind key slot cooldownUntil

end Runs

/-! ### A body without a slot -/

/-- One domain with one slot, at time 100 and without a cooldown. -/
def oneSlot : Attempts ℕ where
  shared :=
    { domain := fun key ↦ if key = 7 then some ⟨1, true, 0⟩ else none
      locks := fun _ ↦ none
      connected := fun _ ↦ false
      now := 100 }
  thread _ := .idle

/-- An attempt that gets the first slot, up to its body. -/
def attemptRun (i : ℕ) : List (ℕ × Event) :=
  [.start .async 7, .opened, .readDomain, .readClock, .tryLock, .readDomain, .readClock].map (i, ·)

/-- The second of two attempts waits for the slot, and the cooldown is raised by the first. -/
def cooledRun : List (ℕ × Event) :=
  attemptRun 0 ++
    [(1, .start .sync 7), (1, .opened), (1, .readDomain), (1, .readClock), (1, .tryLock), (1, .tryLock),
      (0, .providerError (some 429) (some 2000)), (0, .readClock), (0, .update), (0, .close)]

end Centaeris.Quota
