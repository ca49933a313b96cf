import Centaeris.Base.Machine
import Centaeris.Relational.Run
import Centaeris.Relational.Table
import Mathlib.Data.Fintype.Basic

/-!
# Claims of resources

`acquire_resource_claim` reads the row of a resource with `SELECT … FOR UPDATE`, decides, and writes
with `INSERT … ON CONFLICT DO UPDATE`. A row that is there is locked from the read to the commit. A
row that is not there cannot be locked: two calls may both find none, and the second `INSERT` then
overwrites the claim of the first.

`ClaimStep` interleaves the calls at read committed isolation. A write takes effect with its commit,
as no other transaction sees it before, and the lock of a row is held from the read to the commit.
Release and reclaim are single statements. Every call reads the clock, one for all owners, when it
begins.

* `two_owners` are runs in which two owners hold a claim at one time.
* `exclusive_of_disciplined` says when there are none: a call that found no row is alone with the
  resource, the time of a call is that of its read, and a refresh does not shorten a claim.
-/

namespace Centaeris.Resource

open Machine Except

/-! ### The calls -/

/-- `ResourceClaimRecord`, a row of `resource_claims`. -/
structure ResourceClaimRecord where
  resourceKind : String
  resourceKey : String
  owner : String
  ownerKind : String
  sessionId : Option String
  branchId : Option String
  expiresAtMs : Int
  metadataJson : String
  createdAtMs : Int
  updatedAtMs : Int
  deriving DecidableEq

/-- The primary key. -/
def ResourceClaimRecord.resource (c : ResourceClaimRecord) : String × String :=
  (c.resourceKind, c.resourceKey)

/-- `resource_claims`. -/
abbrev ClaimTable := Table ResourceClaimRecord.resource

/-- `AcquireResourceClaimRequest`. -/
structure AcquireResourceClaimRequest where
  resourceKind : String
  resourceKey : String
  owner : String
  ownerKind : String
  sessionId : Option String
  branchId : Option String
  ttlMs : Nat
  metadataJson : String
  nowMs : Int
  deriving DecidableEq

@[inherit_doc ResourceClaimRecord.resource]
def AcquireResourceClaimRequest.resource (r : AcquireResourceClaimRequest) : String × String :=
  (r.resourceKind, r.resourceKey)

/-- The end of the claim. -/
def AcquireResourceClaimRequest.expires (r : AcquireResourceClaimRequest) : Except String Int := do
  let ttl ← okOr (i64TryFrom r.ttlMs) "claim ttl overflow"
  return saturatingAdd r.nowMs ttl

/-- `AcquireResourceClaimDisposition`. -/
inductive AcquireResourceClaimDisposition
  | acquired | alreadyOwned | conflict
  deriving DecidableEq

/-- `AcquireResourceClaimResult`. -/
structure AcquireResourceClaimResult where
  disposition : AcquireResourceClaimDisposition
  claim : ResourceClaimRecord
  deriving DecidableEq

/-- The row of a refreshed claim. -/
def refreshed (r : AcquireResourceClaimRequest) (expires : Int) (x : ResourceClaimRecord) :
    ResourceClaimRecord :=
  { x with expiresAtMs := expires, metadataJson := r.metadataJson, updatedAtMs := r.nowMs }

/-- The row of a new claim. -/
def newClaim (r : AcquireResourceClaimRequest) (expires : Int) : ResourceClaimRecord :=
  ⟨r.resourceKind, r.resourceKey, r.owner, r.ownerKind, r.sessionId, r.branchId, expires,
    r.metadataJson, r.nowMs, r.nowMs⟩

/-- `DO UPDATE SET owner=excluded.owner,…`. -/
def takenOver (r : AcquireResourceClaimRequest) (expires : Int) (x : ResourceClaimRecord) :
    ResourceClaimRecord :=
  { x with owner := r.owner, ownerKind := r.ownerKind, sessionId := r.sessionId,
           branchId := r.branchId, expiresAtMs := expires, metadataJson := r.metadataJson,
           updatedAtMs := r.nowMs }

theorem refreshed_resource (r : AcquireResourceClaimRequest) (expires : Int)
    (x : ResourceClaimRecord) : (refreshed r expires x).resource = x.resource := rfl

theorem takenOver_resource (r : AcquireResourceClaimRequest) (expires : Int)
    (x : ResourceClaimRecord) : (takenOver r expires x).resource = x.resource := rfl

/-- `acquire_resource_claim` after its read. `old` is the row that was read; the statements work on
the table as it is now. -/
def finishAcquire (t : ClaimTable) (r : AcquireResourceClaimRequest) (expires : Int)
    (old : Option ResourceClaimRecord) : Except String (ClaimTable × AcquireResourceClaimResult) :=
  match old.filter fun x ↦ decide (r.nowMs < x.expiresAtMs) with
  | some x =>
    if x.owner ≠ r.owner then .ok (t, ⟨.conflict, x⟩)
    else
      .ok (t.update (fun c ↦ decide (c.resource = r.resource) && decide (c.owner = r.owner))
        (refreshed r expires) (refreshed_resource r expires), ⟨.alreadyOwned, refreshed r expires x⟩)
  | none => do
    let t := t.upsert (newClaim r expires) (takenOver r expires)
      (takenOver_resource r expires)
    let claim ← okOr (t.get? r.resource) "inserted claim missing"
    return (t, ⟨.acquired, claim⟩)

/-- `acquire_resource_claim`, when nothing comes between its statements. -/
def acquireResourceClaim (t : ClaimTable) (r : AcquireResourceClaimRequest) :
    Except String (ClaimTable × AcquireResourceClaimResult) := do
  let expires ← r.expires
  finishAcquire t r expires (t.get? r.resource)

/-- `release_resource_claim`. -/
def releaseResourceClaim (t : ClaimTable) (resource : String × String) (owner : String) :
    ClaimTable :=
  t.delete fun c ↦ decide (c.resource = resource) && decide (c.owner = owner)

/-- `reclaim_expired_resource_claims`. A row that was inserted after the statement began is not
seen. -/
def reclaimExpiredResourceClaims (t : ClaimTable) (now : Int) (seen : List (String × String)) :
    ClaimTable :=
  t.delete fun c ↦ decide (c.expiresAtMs ≤ now) && decide (c.resource ∈ seen)

/-! ### Interleaved calls -/

/-- A call of `acquire_resource_claim` between two of its statements. -/
inductive AcquireCall
  /-- The clock is read. -/
  | begun (r : AcquireResourceClaimRequest) (expires : Int)
  /-- The row is read, and locked if there is one. -/
  | selected (r : AcquireResourceClaimRequest) (expires : Int) (old : Option ResourceClaimRecord)

/-- The clock, the committed rows, and the calls in flight of the clients `ι`. -/
structure ClaimState (ι : Type) where
  clock : Int
  claims : ClaimTable
  calls : ι → Option AcquireCall

/-- What can happen next. A commit is labelled with the answer and with whether the client gets
it. -/
inductive ClaimOp (ι : Type)
  | tick (ms : Int)
  | begin (i : ι) (r : AcquireResourceClaimRequest)
  | select (i : ι)
  | commit (i : ι) (r : AcquireResourceClaimRequest) (result : AcquireResourceClaimResult)
      (answered : Bool)
  | abort (i : ι)
  | release (resource : String × String) (owner : String)
  | reclaim (now : Int) (seen : List (String × String))

variable {ι : Type}

/-- The call has locked the row of the resource. -/
def AcquireCall.Locks (resource : String × String) : AcquireCall → Prop
  | .begun _ _ => False
  | .selected r _ old => r.resource = resource ∧ old ≠ none

instance (resource : String × String) (call : AcquireCall) : Decidable (call.Locks resource) := by
  cases call <;> unfold AcquireCall.Locks <;> infer_instance

/-- No call but that of `i` has locked the row of the resource. -/
def ClaimState.UnlockedFor (σ : ClaimState ι) (i : Option ι) (resource : String × String) : Prop :=
  ∀ j, some j ≠ i → ∀ call ∈ σ.calls j, ¬call.Locks resource

instance [Fintype ι] [DecidableEq ι] (σ : ClaimState ι) (i : Option ι)
    (resource : String × String) : Decidable (σ.UnlockedFor i resource) := by
  unfold ClaimState.UnlockedFor; infer_instance

/-- What the owners of a resource were told and have not released, as owner and end of the claim:
the answers `Acquired` and `AlreadyOwned`. -/
def told (resource : String × String) : List (ClaimOp ι) → List (String × Int) :=
  List.foldl (fun held op ↦ match op with
    | .commit _ r result true =>
      if r.resource = resource ∧ result.disposition ≠ .conflict then
        held ++ [(r.owner, result.claim.expiresAtMs)]
      else held
    | .release resource' owner =>
      if resource' = resource then held.filter fun p ↦ decide (p.1 ≠ owner) else held
    | _ => held) []

section Steps

variable [DecidableEq ι]

/-- The state when the call of `i` is at `call`. -/
def ClaimState.at (σ : ClaimState ι) (i : ι) (call : Option AcquireCall) : ClaimState ι :=
  { σ with calls := Function.update σ.calls i call }

/-- One step. -/
inductive ClaimStep : ClaimState ι → ClaimOp ι → ClaimState ι → Prop
  | tick {σ : ClaimState ι} {ms : Int} (h : σ.clock ≤ ms) :
      ClaimStep σ (.tick ms) { σ with clock := ms }
  /-- The owner reads the clock and calls. -/
  | begin {σ : ClaimState ι} {i : ι} {r : AcquireResourceClaimRequest} {expires : Int}
      (hidle : σ.calls i = none) (hnow : r.nowMs = σ.clock) (hexpires : r.expires = .ok expires) :
      ClaimStep σ (.begin i r) (σ.at i (some (.begun r expires)))
  /-- `SELECT … FOR UPDATE` waits for the lock. -/
  | select {σ : ClaimState ι} {i : ι} {r : AcquireResourceClaimRequest} {expires : Int}
      (hcall : σ.calls i = some (.begun r expires)) (hlock : σ.UnlockedFor (some i) r.resource) :
      ClaimStep σ (.select i) (σ.at i (some (.selected r expires (σ.claims.get? r.resource))))
  /-- The write waits for the lock, too. -/
  | commit {σ : ClaimState ι} {i : ι} {r : AcquireResourceClaimRequest} {expires : Int}
      {old : Option ResourceClaimRecord} {claims : ClaimTable} {result : AcquireResourceClaimResult}
      {answered : Bool} (hcall : σ.calls i = some (.selected r expires old))
      (hlock : σ.UnlockedFor (some i) r.resource)
      (hfinish : finishAcquire σ.claims r expires old = .ok (claims, result)) :
      ClaimStep σ (.commit i r result answered) { σ.at i none with claims }
  /-- The transaction ends without effect. -/
  | abort {σ : ClaimState ι} {i : ι} : ClaimStep σ (.abort i) (σ.at i none)
  | release {σ : ClaimState ι} {resource : String × String} {owner : String}
      (hlock : σ.UnlockedFor none resource) :
      ClaimStep σ (.release resource owner)
        { σ with claims := releaseResourceClaim σ.claims resource owner }
  | reclaim {σ : ClaimState ι} {now : Int} {seen : List (String × String)} (hnow : now ≤ σ.clock)
      (hlock : ∀ resource ∈ seen, σ.UnlockedFor none resource) :
      ClaimStep σ (.reclaim now seen)
        { σ with claims := reclaimExpiredResourceClaims σ.claims now seen }

end Steps

/-! ### What a call writes -/

/-- The answer is not a conflict. -/
def AcquireResourceClaimResult.succeeded (result : AcquireResourceClaimResult) : Prop :=
  result.disposition ≠ .conflict

instance (result : AcquireResourceClaimResult) : Decidable result.succeeded := by
  unfold AcquireResourceClaimResult.succeeded; infer_instance

/-- **The write of a call, taken apart**, for a call that works on the row it has read. -/
inductive Finished (t : ClaimTable) (r : AcquireResourceClaimRequest) (expires : Int) :
    ClaimTable → AcquireResourceClaimResult → Prop
  /-- Another owner holds the claim. -/
  | conflict {x : ResourceClaimRecord} : t.get? r.resource = some x → r.nowMs < x.expiresAtMs →
      x.owner ≠ r.owner → Finished t r expires t ⟨.conflict, x⟩
  /-- The claim is extended. -/
  | refreshed {t' : ClaimTable} {x : ResourceClaimRecord} :
      t.get? r.resource = some x → r.nowMs < x.expiresAtMs → x.owner = r.owner →
      t'.get? r.resource = some (refreshed r expires x) →
      (∀ resource, resource ≠ r.resource → t'.get? resource = t.get? resource) →
      Finished t r expires t' ⟨.alreadyOwned, refreshed r expires x⟩
  /-- There is no claim, or it has ended. -/
  | acquired {t' : ClaimTable} {x : ResourceClaimRecord} :
      (∀ y, t.get? r.resource = some y → y.expiresAtMs ≤ r.nowMs) →
      t'.get? r.resource = some x → x.owner = r.owner → x.expiresAtMs = expires →
      (∀ resource, resource ≠ r.resource → t'.get? resource = t.get? resource) →
      Finished t r expires t' ⟨.acquired, x⟩

theorem finishAcquire_ok {t t' : ClaimTable} {r : AcquireResourceClaimRequest} {expires : Int}
    {result : AcquireResourceClaimResult}
    (h : finishAcquire t r expires (t.get? r.resource) = .ok (t', result)) :
    Finished t r expires t' result := by
  rw [finishAcquire] at h
  split at h
  · rename_i x hx
    obtain ⟨hget, hlive⟩ := Option.filter_eq_some_iff.1 hx
    have hlive := of_decide_eq_true hlive
    split at h
    · rename_i hother
      cases h
      exact .conflict hget hlive hother
    · rename_i hown
      have hown := not_not.1 hown
      have hkey : x.resource = r.resource := Table.key_of_get? hget
      cases h
      refine .refreshed hget hlive hown ?_ fun resource hne ↦ ?_
      · rw [Table.get?_update, hget, Option.map_some, if_pos (by simp [hkey, hown])]
      · rw [Table.get?_update]
        cases hq : t.get? resource with
        | none => rfl
        | some q =>
          have hq' : q.resource ≠ r.resource := by
            rw [Table.key_of_get? hq]
            exact hne
          rw [Option.map_some, if_neg (by simp [hq'])]
  · rename_i hnone
    obtain ⟨claim, hclaim, h⟩ := okOr_bind.1 h
    cases h
    have hstored := hclaim
    rw [Table.get?_upsert, if_pos (show (newClaim r expires).resource = r.resource from rfl)]
      at hstored
    have hended : ∀ y, t.get? r.resource = some y → y.expiresAtMs ≤ r.nowMs := fun y hy ↦ by
      rw [hy, Option.filter_eq_none_iff] at hnone
      exact not_lt.1 fun hlt ↦ hnone y rfl (decide_eq_true hlt)
    obtain ⟨howner, hexpires⟩ : claim.owner = r.owner ∧ claim.expiresAtMs = expires := by
      rw [← Option.some.inj hstored]
      cases t.get? r.resource <;> exact ⟨rfl, rfl⟩
    refine .acquired hended hclaim howner hexpires fun resource hne ↦ ?_
    rw [Table.get?_upsert, if_neg (show (newClaim r expires).resource ≠ resource from hne.symm)]

/-! ### Discipline -/

/-- The condition on a step. A call reads the row at the time it was called for. When a call commits
a claim, no other call on the resource is on its way that has found no row; and a claim that is
extended does not end earlier than before. -/
def ClaimState.Meets (σ : ClaimState ι) : ClaimOp ι → Prop
  | .select i => ∀ r expires, σ.calls i = some (.begun r expires) → r.nowMs = σ.clock
  | .commit i r result _ => result.succeeded →
    (∀ j r' expires, j ≠ i → σ.calls j = some (.selected r' expires none) →
      r'.resource ≠ r.resource) ∧
    ∀ x, σ.claims.get? r.resource = some x → result.disposition = .alreadyOwned →
      x.expiresAtMs ≤ result.claim.expiresAtMs
  | _ => True

/-- The steps that meet the condition. -/
def DisciplinedStep [DecidableEq ι] (σ : ClaimState ι) (op : ClaimOp ι) (τ : ClaimState ι) : Prop :=
  σ.Meets op ∧ ClaimStep σ op τ

/-! ### The invariant

`held` says what the owners of each resource were told. -/

variable {held held' : String × String → List (String × Int)}

/-- What an owner was told is in the table as long as it lasts. -/
def Backed (held : String × String → List (String × Int)) (clock : Int) (claims : ClaimTable) :
    Prop :=
  ∀ resource, ∀ p ∈ held resource, clock < p.2 →
    ∃ x, claims.get? resource = some x ∧ x.owner = p.1 ∧ p.2 ≤ x.expiresAtMs

/-- What a call in flight may rely on. Once it has read the row, the row stays as it was read, and
if the call will succeed then what other owners were told has ended. -/
def Reliable (held : String × String → List (String × Int)) (clock : Int) (claims : ClaimTable) :
    AcquireCall → Prop
  | .begun r _ => r.nowMs ≤ clock
  | .selected r _ old => r.nowMs ≤ clock ∧ claims.get? r.resource = old ∧
    ((∀ x, old = some x → r.nowMs < x.expiresAtMs → x.owner = r.owner) →
      ∀ p ∈ held r.resource, p.1 ≠ r.owner → p.2 ≤ r.nowMs)

/-- The invariant. -/
structure ExclusionInv (held : String × String → List (String × Int)) (σ : ClaimState ι) :
    Prop where
  backed : Backed held σ.clock σ.claims
  reliable : ∀ i call, σ.calls i = some call → Reliable held σ.clock σ.claims call

theorem Reliable.tick {clock ms : Int} {claims : ClaimTable} {call : AcquireCall}
    (hr : Reliable held clock claims call) (h : clock ≤ ms) : Reliable held ms claims call := by
  cases call with
  | begun r expires => exact le_trans hr h
  | selected r expires old => exact ⟨hr.1.trans h, hr.2⟩

/-- A call relies on its own row, and on nothing that an owner is told no longer. -/
theorem Reliable.mono {clock : Int} {claims claims' : ClaimTable} {call : AcquireCall}
    (hr : Reliable held clock claims call) (hrow : ∀ r expires old,
      call = .selected r expires old → claims'.get? r.resource = claims.get? r.resource ∧
        held' r.resource ⊆ held r.resource) : Reliable held' clock claims' call := by
  cases call with
  | begun r expires => exact hr
  | selected r expires old =>
    obtain ⟨hsame, hsub⟩ := hrow r expires old rfl
    exact ⟨hr.1, hsame.trans hr.2.1, fun hwill p hp ↦ hr.2.2 hwill p (hsub hp)⟩

variable {σ : ClaimState ι}

theorem ExclusionInv.tick (h : ExclusionInv held σ) {ms : Int} (hms : σ.clock ≤ ms) :
    ExclusionInv held { σ with clock := ms } where
  backed resource p hp hlive := h.backed resource p hp (hms.trans_lt hlive)
  reliable i call hcall := (h.reliable i call hcall).tick hms

/-- **Deletion** of rows that no call has locked and that no owner still counts on. -/
theorem ExclusionInv.delete (h : ExclusionInv held σ) {gone : ResourceClaimRecord → Bool}
    (hsub : ∀ resource, held' resource ⊆ held resource)
    (hlock : ∀ x, gone x → σ.UnlockedFor none x.resource)
    (hkeep : ∀ resource x, ∀ p ∈ held' resource, σ.clock < p.2 →
      σ.claims.get? resource = some x → x.owner = p.1 → p.2 ≤ x.expiresAtMs → gone x = false) :
    ExclusionInv held' { σ with claims := σ.claims.delete gone } where
  backed resource p hp hlive := by
    obtain ⟨x, hx, howner, hends⟩ := h.backed resource p (hsub resource hp) hlive
    refine ⟨x, (Table.get?_delete_of_not fun y hy ↦ ?_).trans hx, howner, hends⟩
    obtain rfl := Option.some.inj (hx.symm.trans hy)
    exact hkeep resource x p hp hlive hx howner hends
  reliable i call hcall := by
    refine (h.reliable i call hcall).mono fun r expires old heq ↦ ⟨?_, hsub _⟩
    subst heq
    refine Table.get?_delete_of_not fun x hx ↦ Bool.eq_false_of_not_eq_true fun hgone ↦ ?_
    -- The call has read the row, so it has locked it.
    have hread := (h.reliable i _ hcall).2.1
    refine hlock x hgone i (Option.some_ne_none i) _ hcall ⟨(Table.key_of_get? hx).symm, ?_⟩
    rw [← hread, hx]
    exact Option.some_ne_none x

variable [DecidableEq ι]

/-- The calls after a step that changes one of them. -/
theorem calls_at {i j : ι} {call : Option AcquireCall} {call' : AcquireCall}
    (h : (σ.at i call).calls j = some call') :
    j = i ∧ call = some call' ∨ j ≠ i ∧ σ.calls j = some call' := by
  change Function.update σ.calls i call j = some call' at h
  by_cases hj : j = i
  · subst hj
    rw [Function.update_self] at h
    exact .inl ⟨rfl, h⟩
  · rw [Function.update_of_ne hj] at h
    exact .inr ⟨hj, h⟩

/-- A call that goes on or ends without a write. -/
theorem ExclusionInv.at (h : ExclusionInv held σ) (i : ι) {call : Option AcquireCall}
    (hcall : ∀ call', call = some call' → Reliable held σ.clock σ.claims call') :
    ExclusionInv held (σ.at i call) where
  backed := h.backed
  reliable j call' hcall' := by
    rcases calls_at hcall' with ⟨-, hnew⟩ | ⟨-, hold⟩
    · exact hcall call' hnew
    · exact h.reliable j call' hold

/-- **The read.** What other owners were told and has not ended is in the row that is read. -/
theorem ExclusionInv.select (h : ExclusionInv held σ) {i : ι} {r : AcquireResourceClaimRequest}
    {expires : Int} (hnow : r.nowMs = σ.clock) :
    ExclusionInv held (σ.at i (some (.selected r expires (σ.claims.get? r.resource)))) := by
  refine h.at i fun call' hcall' ↦ ?_
  cases hcall'
  refine ⟨hnow.le, rfl, fun hwill p hp hother ↦ not_lt.1 fun hlive ↦ ?_⟩
  obtain ⟨x, hx, howner, hends⟩ := h.backed _ p hp (hnow ▸ hlive)
  exact hother (howner.symm.trans (hwill x hx (hlive.trans_le hends)))

/-- **The write** of a claim, when no other call that found no row is on its way. -/
theorem ExclusionInv.write (h : ExclusionInv held σ) {i : ι} {r : AcquireResourceClaimRequest}
    {expires : Int} {old : Option ResourceClaimRecord}
    (hcall : σ.calls i = some (.selected r expires old))
    (hlock : σ.UnlockedFor (some i) r.resource)
    (halone : ∀ j r' expires', j ≠ i → σ.calls j = some (.selected r' expires' none) →
      r'.resource ≠ r.resource)
    (hwill : ∀ x, old = some x → r.nowMs < x.expiresAtMs → x.owner = r.owner)
    {claims : ClaimTable} {x : ResourceClaimRecord} (hx : claims.get? r.resource = some x)
    (howner : x.owner = r.owner)
    (hrest : ∀ resource, resource ≠ r.resource → claims.get? resource = σ.claims.get? resource)
    (hlonger : ∀ y, σ.claims.get? r.resource = some y → r.nowMs < y.expiresAtMs →
      y.expiresAtMs ≤ x.expiresAtMs)
    (hnew : ∀ p ∈ held' r.resource, p ∈ held r.resource ∨ p = (r.owner, x.expiresAtMs))
    (hsame : ∀ resource, resource ≠ r.resource → held' resource = held resource) :
    ExclusionInv held' { σ.at i none with claims } := by
  obtain ⟨hnow, hread, hended⟩ := h.reliable i _ hcall
  refine ⟨fun resource p hp hlive ↦ ?_, fun j call hj ↦ ?_⟩
  · by_cases hres : resource = r.resource
    · subst hres
      rcases hnew p hp with hold | rfl
      · have hown : p.1 = r.owner := by
          by_contra hother
          exact absurd hlive (not_lt.2 ((hended hwill p hold hother).trans hnow))
        obtain ⟨y, hy, -, hends⟩ := h.backed _ p hold hlive
        have hlonger' := hlonger y hy (hnow.trans_lt (hlive.trans_le hends))
        exact ⟨x, hx, howner.trans hown.symm, hends.trans hlonger'⟩
      · exact ⟨x, hx, howner, le_rfl⟩
    · rw [hsame resource hres] at hp
      obtain ⟨y, hy, hrest'⟩ := h.backed resource p hp hlive
      exact ⟨y, (hrest resource hres).trans hy, hrest'⟩
  · rcases calls_at hj with ⟨-, hnone⟩ | ⟨hne, hj⟩
    · cases hnone
    · refine (h.reliable j call hj).mono fun r' expires' old' heq ↦ ?_
      subst heq
      have hres : r'.resource ≠ r.resource := by
        cases old' with
        | none => exact halone j r' expires' hne hj
        | some y =>
          exact fun hres ↦ hlock j (fun hji ↦ hne (Option.some.inj hji)) _ hj
            ⟨hres, Option.some_ne_none y⟩
      exact ⟨hrest _ hres, hsame _ hres ▸ List.Subset.refl _⟩

/-! ### Runs -/

omit [DecidableEq ι] in
/-- What the owners were told, after one more step. -/
theorem told_concat (resource : String × String) (l : List (ClaimOp ι)) (op : ClaimOp ι) :
    told resource (l ++ [op]) = match op with
      | .commit _ r result true =>
        if r.resource = resource ∧ result.disposition ≠ .conflict then
          told resource l ++ [(r.owner, result.claim.expiresAtMs)]
        else told resource l
      | .release resource' owner =>
        if resource' = resource then (told resource l).filter fun p ↦ decide (p.1 ≠ owner)
        else told resource l
      | _ => told resource l := by
  rw [told, List.foldl_append]
  rfl

omit [DecidableEq ι] in
/-- A commit tells nothing about other resources. -/
theorem told_commit_of_ne {resource : String × String} {l : List (ClaimOp ι)} {i : ι}
    {r : AcquireResourceClaimRequest} {result : AcquireResourceClaimResult} {answered : Bool}
    (h : r.resource ≠ resource ∨ result.disposition = .conflict) :
    told resource (l ++ [.commit i r result answered]) = told resource l := by
  rw [told_concat]
  cases answered with
  | false => rfl
  | true =>
    refine if_neg fun ⟨hres, hd⟩ ↦ ?_
    exact h.elim (fun hne ↦ hne hres) hd

omit [DecidableEq ι] in
theorem mem_told_commit {l : List (ClaimOp ι)} {i : ι} {r : AcquireResourceClaimRequest}
    {result : AcquireResourceClaimResult} {answered : Bool} {p : String × Int}
    (h : p ∈ told r.resource (l ++ [.commit i r result answered])) :
    p ∈ told r.resource l ∨ p = (r.owner, result.claim.expiresAtMs) := by
  rw [told_concat] at h
  cases answered with
  | false => exact .inl h
  | true =>
    simp only at h
    split at h
    · exact (List.mem_append.1 h).imp_right List.mem_singleton.1
    · exact .inl h

/-- **One step.** -/
theorem ExclusionInv.step {τ : ClaimState ι} {l : List (ClaimOp ι)} {op : ClaimOp ι}
    (h : ExclusionInv (told · l) σ) (hstep : DisciplinedStep σ op τ) :
    ExclusionInv (told · (l ++ [op])) τ := by
  obtain ⟨hmeets, hstep⟩ := hstep
  cases hstep with
  | tick hms =>
    simp only [told_concat]
    exact h.tick hms
  | begin hidle hnow hexpires =>
    simp only [told_concat]
    refine h.at _ fun call' hcall' ↦ ?_
    cases hcall'
    exact hnow.le
  | select hcall hlock =>
    simp only [told_concat]
    exact h.select (hmeets _ _ hcall)
  | abort =>
    simp only [told_concat]
    exact h.at _ fun call' hcall' ↦ by cases hcall'
  | @release resource owner hlock =>
    refine h.delete (fun resource' p hp ↦ ?_) (fun x hgone ↦ ?_) fun resource' x p hp _ hx howner _ ↦ ?_
    · simp only [told_concat] at hp
      split at hp
      · exact List.mem_of_mem_filter hp
      · exact hp
    · rw [Bool.and_eq_true, decide_eq_true_eq] at hgone
      exact hgone.1 ▸ hlock
    · refine Bool.eq_false_of_not_eq_true fun hgone ↦ ?_
      simp only [Bool.and_eq_true, decide_eq_true_eq] at hgone
      have hres : resource = resource' := hgone.1.symm.trans (Table.key_of_get? hx)
      simp only [told_concat, if_pos hres] at hp
      exact of_decide_eq_true (List.mem_filter.1 hp).2 (howner.symm.trans hgone.2)
  | @reclaim now seen hnow hlock =>
    simp only [told_concat]
    refine h.delete (fun _ ↦ List.Subset.refl _) (fun x hgone ↦ ?_)
      fun resource x p _ hlive _ _ hends ↦ ?_
    · rw [Bool.and_eq_true, decide_eq_true_eq, decide_eq_true_eq] at hgone
      exact hlock _ hgone.2
    · refine Bool.eq_false_of_not_eq_true fun hgone ↦ ?_
      rw [Bool.and_eq_true, decide_eq_true_eq] at hgone
      exact absurd (hends.trans (hgone.1.trans hnow)) (not_le.2 hlive)
  | @commit i r expires old claims result answered hcall hlock hfinish =>
    have hread := (h.reliable i _ hcall).2.1
    rw [← hread] at hfinish
    cases finishAcquire_ok hfinish with
    | @conflict x =>
      have hsilent : (told · (l ++ [.commit i r ⟨.conflict, x⟩ answered])) = (told · l) :=
        funext fun _ ↦ told_commit_of_ne (.inr rfl)
      rw [hsilent]
      show ExclusionInv _ (σ.at i none)
      exact h.at i fun call' hcall' ↦ by cases hcall'
    | @refreshed _ x hx _ hown hnew hrest =>
      obtain ⟨halone, hlonger⟩ := hmeets (by simp [AcquireResourceClaimResult.succeeded])
      refine h.write hcall hlock halone (fun y hy _ ↦ ?_) hnew hown hrest
        (fun y hy _ ↦ hlonger y hy rfl) (fun p hp ↦ mem_told_commit hp)
        fun resource hne ↦ told_commit_of_ne (.inl hne.symm)
      rw [← hread, hx] at hy
      exact Option.some.inj hy ▸ hown
    | @acquired _ x hended hnew hown _ hrest =>
      obtain ⟨halone, -⟩ := hmeets (by simp [AcquireResourceClaimResult.succeeded])
      refine h.write hcall hlock halone (fun y hy hlive ↦ ?_) hnew hown hrest
        (fun y hy hlive ↦ absurd (hended y hy) (not_le.2 hlive)) (fun p hp ↦ mem_told_commit hp)
        fun resource hne ↦ told_commit_of_ne (.inl hne.symm)
      exact absurd (hended y (hread.trans hy)) (not_le.2 hlive)

/-- A commit that succeeds comes after the end of what other owners were told. -/
theorem ExclusionInv.commit {τ : ClaimState ι} {l : List (ClaimOp ι)} {i : ι}
    {r : AcquireResourceClaimRequest} {result : AcquireResourceClaimResult} {answered : Bool}
    (h : ExclusionInv (told · l) σ) (hstep : ClaimStep σ (.commit i r result answered) τ)
    (hsucceeded : result.succeeded) :
    ∀ p ∈ told r.resource l, p.1 ≠ r.owner → p.2 ≤ r.nowMs := by
  cases hstep with
  | commit hcall hlock hfinish =>
    obtain ⟨-, hread, hended⟩ := h.reliable i _ hcall
    rw [← hread] at hfinish
    refine hended fun x hx hlive ↦ ?_
    have hx := hread.trans hx
    cases finishAcquire_ok hfinish with
    | conflict => exact absurd rfl hsucceeded
    | refreshed hy _ hown => exact Option.some.inj (hx.symm.trans hy) ▸ hown
    | acquired hall => exact absurd (hall x hx) (not_le.2 hlive)

/-- **Claims are exclusive** in runs whose steps meet the condition. An acquire that succeeds comes
after the end of every claim that another owner was told and has not released; so at every instant
at most one owner holds a claim that has not ended. -/
theorem exclusive_of_disciplined {τ : ClaimState ι} (hidle : ∀ i, σ.calls i = none)
    {l : List (ClaimOp ι)} (h : Run DisciplinedStep σ l τ) :
    (∀ l' i r result answered, l = l' ++ [.commit i r result answered] → result.succeeded →
      ∀ p ∈ told r.resource l', p.1 ≠ r.owner → p.2 ≤ r.nowMs) ∧
    ∀ resource, ∀ p ∈ told resource l, ∀ q ∈ told resource l, τ.clock < p.2 → τ.clock < q.2 →
      p.1 = q.1 := by
  have hinit : ExclusionInv (fun resource ↦ told resource ([] : List (ClaimOp ι))) σ :=
    ⟨fun _ _ hp ↦ (List.not_mem_nil hp).elim,
      fun i call hcall ↦ nomatch (hidle i).symm.trans hcall⟩
  have hinv {l : List (ClaimOp ι)} {τ : ClaimState ι} (h : Run DisciplinedStep σ l τ) :
      ExclusionInv (told · l) τ :=
    h.invariant_history (I := fun l τ ↦ ExclusionInv (told · l) τ) hinit
      fun _ _ _ _ _ hσ hstep ↦ hσ.step hstep
  refine ⟨?_, fun resource p hp q hq hp' hq' ↦ ?_⟩
  · rintro l' i r result answered rfl hsucceeded
    obtain ⟨τ', hbefore, -, hstep⟩ := h.of_concat
    exact (hinv hbefore).commit hstep hsucceeded
  · obtain ⟨x, hx, hpx, -⟩ := (hinv h).backed resource p hp hp'
    obtain ⟨y, hy, hqy, -⟩ := (hinv h).backed resource q hq hq'
    rw [← hpx, ← hqy, Option.some.inj (hx.symm.trans hy)]

/-- **A call on its own.** The three steps of a call in a row are `acquire_resource_claim`. -/
theorem run_of_acquireResourceClaim {i : ι} {r : AcquireResourceClaimRequest} {claims : ClaimTable}
    {result : AcquireResourceClaimResult} (hidle : σ.calls i = none) (hnow : r.nowMs = σ.clock)
    (hlock : σ.UnlockedFor (some i) r.resource)
    (h : acquireResourceClaim σ.claims r = .ok (claims, result)) (answered : Bool) :
    Run ClaimStep σ [.begin i r, .select i, .commit i r result answered] { σ with claims } := by
  obtain ⟨expires, hexpires, hfinish⟩ := bind_eq_ok.1 h
  have hothers (call : Option AcquireCall) : (σ.at i call).UnlockedFor (some i) r.resource := by
    intro j hj call' hcall'
    rcases calls_at hcall' with ⟨rfl, -⟩ | ⟨-, hold⟩
    · exact absurd rfl hj
    · exact hlock j hj call' hold
  have hself (call : AcquireCall) : (σ.at i (some call)).calls i = some call :=
    Function.update_self ..
  have hat (call call' : Option AcquireCall) : (σ.at i call).at i call' = σ.at i call' :=
    congrArg (ClaimState.mk σ.clock σ.claims) (Function.update_idem ..)
  have hselect : Run ClaimStep σ [.begin i r, .select i]
      (σ.at i (some (.selected r expires (σ.claims.get? r.resource)))) := by
    rw [← hat (some (.begun r expires))]
    exact .snoc (l := [_]) (.single (.begin hidle hnow hexpires))
      (.select (hself _) (hothers _))
  have hend : { (σ.at i (some (.selected r expires (σ.claims.get? r.resource)))).at i none with
      claims } = { σ with claims } := by
    rw [hat]
    exact congrArg (ClaimState.mk σ.clock claims) (hidle ▸ Function.update_eq_self ..)
  rw [← hend]
  exact .snoc (l := [_, _]) hselect (.commit (hself _) (hothers _) hfinish)

/-! ### Two owners at one time -/

/-- The last step of the history answers an owner with a claim while another owner was told one that
has not ended. -/
def TwoOwners (l : List (ClaimOp ι)) : Prop :=
  ∃ l' i r result, l = l' ++ [.commit i r result true] ∧ result.succeeded ∧
    ∃ p ∈ told r.resource l', p.1 ≠ r.owner ∧ r.nowMs < p.2

/-- A request for one resource. -/
def sampleAcquire (owner : String) (ttlMs : Nat) (nowMs : Int) : AcquireResourceClaimRequest :=
  ⟨"workspace", "main", owner, "agent", none, none, ttlMs, "", nowMs⟩

/-- The answer to a request that finds no row. -/
def sampleAcquired (owner : String) (ttlMs : Nat) (nowMs : Int) : AcquireResourceClaimResult :=
  ⟨.acquired, newClaim (sampleAcquire owner ttlMs nowMs) (nowMs + ttlMs)⟩

/-- The clients `true` and `false`, before their first call. -/
def twoClients : ClaimState Bool := ⟨0, .empty, fun _ ↦ none⟩

/-- Both calls find no row. -/
def raceOps : List (ClaimOp Bool) :=
  [.begin true (sampleAcquire "a" 10 0), .begin false (sampleAcquire "b" 10 0), .select true,
    .select false, .commit true (sampleAcquire "a" 10 0) (sampleAcquired "a" 10 0) true,
    .commit false (sampleAcquire "b" 10 0)
      ⟨.acquired, takenOver (sampleAcquire "b" 10 0) 10 (sampleAcquired "a" 10 0).claim⟩ true]

/-- The call of `b` is made at 5 and executed after the claim of `a` was reclaimed at 20. -/
def lateOps : List (ClaimOp Bool) :=
  [.begin true (sampleAcquire "a" 10 0), .select true,
    .commit true (sampleAcquire "a" 10 0) (sampleAcquired "a" 10 0) true, .tick 5,
    .begin false (sampleAcquire "b" 10 5), .tick 20, .reclaim 20 [("workspace", "main")],
    .select false, .commit false (sampleAcquire "b" 10 5) (sampleAcquired "b" 10 5) true]

/-- The owner `a` shortens its claim. -/
def shortenedOps : List (ClaimOp Bool) :=
  [.begin true (sampleAcquire "a" 10 0), .select true,
    .commit true (sampleAcquire "a" 10 0) (sampleAcquired "a" 10 0) true,
    .begin true (sampleAcquire "a" 5 0), .select true,
    .commit true (sampleAcquire "a" 5 0)
      ⟨.alreadyOwned, refreshed (sampleAcquire "a" 5 0) 5 (sampleAcquired "a" 10 0).claim⟩ true,
    .tick 7, .begin false (sampleAcquire "b" 10 7), .select false,
    .commit false (sampleAcquire "b" 10 7)
      ⟨.acquired, takenOver (sampleAcquire "b" 10 7) 17
        (refreshed (sampleAcquire "a" 5 0) 5 (sampleAcquired "a" 10 0).claim)⟩ true]

/-- The first claim of `a`. -/
theorem run_sampleAcquire : Run ClaimStep twoClients
    [.begin true (sampleAcquire "a" 10 0), .select true,
      .commit true (sampleAcquire "a" 10 0) (sampleAcquired "a" 10 0) true]
    { twoClients with claims := ⟨[(sampleAcquired "a" 10 0).claim], List.nodup_singleton _⟩ } :=
  run_of_acquireResourceClaim rfl rfl (by decide) rfl true

theorem run_raceOps : ∃ τ, Run ClaimStep twoClients raceOps τ :=
  ⟨_, .snoc (l := [_, _, _, _, _]) (.snoc (l := [_, _, _, _]) (.snoc (l := [_, _, _])
    (.snoc (l := [_, _]) (.snoc (l := [_]) (.single (.begin rfl rfl rfl)) (.begin rfl rfl rfl))
    (.select rfl (by decide))) (.select rfl (by decide))) (.commit rfl (by decide) rfl))
    (.commit rfl (by decide) rfl)⟩

theorem run_lateOps : ∃ τ, Run ClaimStep twoClients lateOps τ :=
  ⟨_, run_sampleAcquire.trans (.snoc (l := [_, _, _, _, _]) (.snoc (l := [_, _, _, _])
    (.snoc (l := [_, _, _]) (.snoc (l := [_, _]) (.snoc (l := [_])
    (.single (.tick (by decide))) (.begin rfl rfl rfl)) (.tick (by decide)))
    (.reclaim le_rfl (by decide))) (.select rfl (by decide))) (.commit rfl (by decide) rfl))⟩

theorem run_shortenedOps : ∃ τ, Run ClaimStep twoClients shortenedOps τ :=
  ⟨_, run_sampleAcquire.trans ((run_of_acquireResourceClaim rfl rfl (by decide) rfl true).trans
    ((Run.single (.tick (by decide))).trans
      (run_of_acquireResourceClaim rfl rfl (by decide) rfl true)))⟩

/-- **Two owners at one time.** Two calls that both find no row are both answered with a claim. The
same happens when a call is executed later than it was made, and when a refresh shortens a claim. -/
theorem two_owners :
    (∃ τ, Run ClaimStep twoClients raceOps τ) ∧ TwoOwners raceOps ∧
    (∃ τ, Run ClaimStep twoClients lateOps τ) ∧ TwoOwners lateOps ∧
    (∃ τ, Run ClaimStep twoClients shortenedOps τ) ∧ TwoOwners shortenedOps :=
  ⟨run_raceOps, ⟨raceOps.dropLast, _, _, _, rfl, by decide, ("a", 10), by decide⟩,
    run_lateOps, ⟨lateOps.dropLast, _, _, _, rfl, by decide, ("a", 10), by decide⟩,
    run_shortenedOps, ⟨shortenedOps.dropLast, _, _, _, rfl, by decide, ("a", 10), by decide⟩⟩

/-- The owner `b` takes the claim of `a` over after its end. -/
def takeoverOps : List (ClaimOp Bool) :=
  [.begin true (sampleAcquire "a" 10 0), .select true,
    .commit true (sampleAcquire "a" 10 0) (sampleAcquired "a" 10 0) true, .tick 20,
    .begin false (sampleAcquire "b" 10 20), .select false]

theorem exclusive_of_disciplined_takeover : ∃ τ, Run DisciplinedStep twoClients
    (takeoverOps ++ [.commit false (sampleAcquire "b" 10 20)
      ⟨.acquired, takenOver (sampleAcquire "b" 10 20) 30 (sampleAcquired "a" 10 0).claim⟩ true]) τ ∧
    ∀ p ∈ told ("workspace", "main") takeoverOps, p.1 ≠ "b" → p.2 ≤ 20 := by
  have hrun : ∃ τ, Run DisciplinedStep twoClients
      (takeoverOps ++ [.commit false (sampleAcquire "b" 10 20)
        ⟨.acquired, takenOver (sampleAcquire "b" 10 20) 30 (sampleAcquired "a" 10 0).claim⟩ true])
      τ := by
    refine ⟨_, .snoc (l := takeoverOps) (.snoc (l := [_, _, _, _, _]) (.snoc (l := [_, _, _, _])
      (.snoc (l := [_, _, _]) (.snoc (l := [_, _]) (.snoc (l := [_])
      (.single ⟨trivial, .begin rfl rfl rfl⟩) ⟨?_, .select rfl (by decide)⟩)
      ⟨?_, .commit rfl (by decide) rfl⟩) ⟨trivial, .tick (by decide)⟩)
      ⟨trivial, .begin rfl rfl rfl⟩) ⟨?_, .select rfl (by decide)⟩)
      ⟨?_, .commit rfl (by decide) rfl⟩⟩
    · rintro r expires ⟨⟩
      rfl
    · refine fun _ ↦ ⟨fun j r' expires hj hcall ↦ ?_, fun x _ hd ↦ nomatch hd⟩
      cases j
      · cases hcall
      · exact absurd rfl hj
    · rintro r expires ⟨⟩
      rfl
    · refine fun _ ↦ ⟨fun j r' expires hj hcall ↦ ?_, fun x _ hd ↦ nomatch hd⟩
      cases j
      · exact absurd rfl hj
      · cases hcall
  obtain ⟨τ, hrun⟩ := hrun
  exact ⟨τ, hrun, (exclusive_of_disciplined (fun _ ↦ rfl) hrun).1 _ _ _ _ _ rfl (by decide)⟩

end Centaeris.Resource
