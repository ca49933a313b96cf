import Centaeris.Supplement.Step

/-!
# Delivery of turn supplements

Along every interleaving of the calls on the supplement queue with the calls on the job store:

* sequences and ids are assigned once, in order, and an accepted id is remembered for good
  (`QueueInv`);
* an entry leaves the queue through an acknowledge with the token and the owner that it carries, or
  because the queue is closed (`QueueStep.kept_or_removed`);
* a queue that has stopped accepting is empty and stays closed (`QueueStep.closed_stays`);
* no owner of a lease gets an entry twice (`OwnerInv`). That rests on `gen_random_uuid`: an owner
  that has lost the lease of the job does not come back.

`delivered_of_run` puts them together.
-/

namespace Centaeris.Supplement

open Machine Except
open Jobs (JobStore RuntimeJobRecord RuntimeEvent issuedOwners)

variable {ι : Type}

/-! ### One claim -/

/-- **What the loop of a claim does.** -/
structure Handed (req : ClaimTurnSupplementsRequest)
    (entries entries' claimed : List DurableTurnSupplement) : Prop where
  /-- An entry is left as it is, or marked. The owner of the request did not have it before. -/
  marked : List.Forall₂ (fun e e' ↦ e' = e ∨
    e.claimLeaseOwner ≠ some req.leaseOwner ∧ e' = req.mark e) entries entries'
  /-- The claimed entries are marked, and in the order of the queue. -/
  sublist : claimed.Sublist entries'
  taken : ∀ e' ∈ claimed, ∃ e ∈ entries, e.claimLeaseOwner ≠ some req.leaseOwner ∧ e' = req.mark e

theorem claimEntries_ok {req : ClaimTurnSupplementsRequest} {n : Nat}
    {entries entries' claimed : List DurableTurnSupplement}
    (h : claimEntries req n entries = .ok (entries', claimed)) :
    Handed req entries entries' claimed := by
  induction entries generalizing n entries' claimed with
  | nil => cases h; exact ⟨.nil, .slnil, nofun⟩
  | cons e rest ih =>
    unfold claimEntries at h
    split_ifs at h with htoken howner hlimit
    · -- the entry carries the token of this claim
      obtain ⟨⟨rest', claimed'⟩, hrest, h⟩ := map_eq_ok.1 h
      obtain ⟨rfl, rfl⟩ := Prod.mk.inj h
      have hh := ih hrest
      refine ⟨.cons (.inl rfl) hh.marked, hh.sublist.cons _, fun e' he' ↦ ?_⟩
      obtain ⟨x, hx, h⟩ := hh.taken e' he'
      exact ⟨x, List.mem_cons_of_mem _ hx, h⟩
    · obtain ⟨rfl, rfl⟩ := Prod.mk.inj (Except.ok.inj h)
      refine ⟨.cons (.inr ⟨howner, rfl⟩) (List.forall₂_same.2 fun _ _ ↦ .inl rfl),
        (List.nil_sublist _).cons_cons _, ?_⟩
      intro e' he'
      exact ⟨e, List.mem_cons_self, howner, List.mem_singleton.1 he'⟩
    · obtain ⟨⟨rest', claimed'⟩, hrest, h⟩ := map_eq_ok.1 h
      obtain ⟨rfl, rfl⟩ := Prod.mk.inj h
      have hh := ih hrest
      refine ⟨.cons (.inr ⟨howner, rfl⟩) hh.marked, hh.sublist.cons_cons _, ?_⟩
      intro e' he'
      rcases List.mem_cons.1 he' with rfl | he'
      · exact ⟨e, List.mem_cons_self, howner, rfl⟩
      · obtain ⟨x, hx, h⟩ := hh.taken e' he'
        exact ⟨x, List.mem_cons_of_mem _ hx, h⟩

namespace Handed

variable {req : ClaimTurnSupplementsRequest} {entries entries' claimed : List DurableTurnSupplement}

/-- A claim leaves what the entries say. -/
theorem map_eq {β : Type} (h : Handed req entries entries' claimed) (f : DurableTurnSupplement → β)
    (hf : ∀ e, f (req.mark e) = f e) : entries'.map f = entries.map f := by
  have hmarked := h.marked
  clear h
  induction hmarked with
  | nil => rfl
  | @cons e e' _ _ he _ ih =>
    have : f e' = f e := by
      rcases he with rfl | ⟨-, rfl⟩
      · rfl
      · exact hf e
    rw [List.map_cons, List.map_cons, this, ih]

theorem sequences_eq (h : Handed req entries entries' claimed) :
    entries'.map (·.sequence) = entries.map (·.sequence) := h.map_eq _ fun _ ↦ rfl

end Handed

/-! ### What was accepted -/

/-- The id and the sequence that a step assigns in the queue of a run. -/
def SupplementOp.acceptance (runId : String) : SupplementOp ι → Option (String × Nat)
  | enqueue _ req sequence result =>
    if req.agentRunId = runId ∧ result.disposition = .accepted then
      some (req.supplementId, sequence)
    else none
  | _ => none

/-- The ids and sequences that were assigned in the queue of a run. -/
def accepted (runId : String) (l : List (SupplementOp ι)) : List (String × Nat) :=
  l.filterMap (SupplementOp.acceptance runId)

theorem accepted_concat (runId : String) (l : List (SupplementOp ι)) (a : SupplementOp ι) :
    accepted runId (l ++ [a]) = accepted runId l ++ (a.acceptance runId).toList := by
  rw [accepted, List.filterMap_append, accepted]
  cases h : a.acceptance runId <;> simp [h]

/-- **Invariant of a queue** and of what was accepted in it. -/
structure QueueInv (runId : String) (l : List (SupplementOp ι)) (v : QueueView) : Prop where
  sorted : (v.entries.map (·.sequence)).Pairwise (· < ·)
  entries : ∀ e ∈ v.entries, (e.supplementId, e.sequence) ∈ accepted runId l
  assigned : ((accepted runId l).map Prod.snd).Pairwise (· < ·)
  next : ∀ p ∈ accepted runId l, p.2 < v.nextSequence
  ids : v.dedupe.map Prod.fst = (accepted runId l).map Prod.fst
  nodup : ((accepted runId l).map Prod.fst).Nodup
  closed : v.accepting = false → v.entries = []
  stored : v.stored = false → v = .unopened

theorem lookup_eq_none_iff_notMem {dedupe : List (String × String)} {id : String} :
    dedupe.lookup id = none ↔ id ∉ dedupe.map Prod.fst := by
  rw [List.lookup_eq_none_iff]
  simp only [bne_iff_ne, List.mem_map, not_exists, not_and]
  exact ⟨fun h p hp he ↦ h p hp he.symm, fun h p hp he ↦ h p hp he.symm⟩

theorem SupplementOp.acceptance_of_ne {runId : String} {a : SupplementOp ι}
    (h : a.runId? ≠ some runId) : a.acceptance runId = none := by
  cases a with
  | enqueue i req sequence result =>
    exact if_neg fun hc ↦ h (congrArg some hc.1)
  | _ => rfl

theorem SupplementOp.acceptance_of_duplicate {i : ι} {req : EnqueueTurnSupplementRequest}
    {sequence : Nat} {result : EnqueueTurnSupplementResult} (h : result.disposition = .duplicate)
    (runId : String) : (SupplementOp.enqueue i req sequence result).acceptance runId = none := by
  refine if_neg fun hc ↦ ?_
  rw [h] at hc
  cases hc.2

namespace QueueInv

variable {runId : String} {l : List (SupplementOp ι)} {v v' : QueueView} {a : SupplementOp ι}

/-- Steps that accept nothing. -/
theorem of_none (hi : QueueInv runId l v) (ha : a.acceptance runId = none)
    (hnext : v'.nextSequence = v.nextSequence) (hdedupe : v'.dedupe = v.dedupe)
    (hsorted : (v'.entries.map (·.sequence)).Pairwise (· < ·))
    (hentries : ∀ e' ∈ v'.entries, ∃ e ∈ v.entries,
      e'.supplementId = e.supplementId ∧ e'.sequence = e.sequence)
    (hclosed : v'.accepting = false → v'.entries = [])
    (hstored : v'.stored = false → v' = .unopened) : QueueInv runId (l ++ [a]) v' := by
  have haccepted : accepted runId (l ++ [a]) = accepted runId l := by
    rw [accepted_concat, ha]; exact List.append_nil _
  refine ⟨hsorted, fun e' he' ↦ ?_, ?_, ?_, ?_, ?_, hclosed, hstored⟩
  · obtain ⟨e, he, hid, hseq⟩ := hentries e' he'
    rw [haccepted, hid, hseq]
    exact hi.entries e he
  · rw [haccepted]; exact hi.assigned
  · rw [haccepted, hnext]; exact hi.next
  · rw [haccepted, hdedupe]; exact hi.ids
  · rw [haccepted]; exact hi.nodup

/-- The queue is closed. -/
theorem closed_step (hi : QueueInv runId l v) (ha : a.acceptance runId = none) :
    QueueInv runId (l ++ [a]) v.closed :=
  hi.of_none ha rfl rfl .nil nofun (fun _ ↦ rfl) nofun

/-- A supplement is accepted. -/
theorem push (hi : QueueInv runId l v) {i : ι} {req : EnqueueTurnSupplementRequest}
    {result : EnqueueTurnSupplementResult} {digest : String} (hrun : req.agentRunId = runId)
    (haccepted : result.disposition = .accepted) (hopen : v.accepting)
    (hnew : v.dedupe.lookup req.supplementId = none) :
    QueueInv runId (l ++ [.enqueue i req v.nextSequence result])
      (v.push (req.entry v.nextSequence) digest) := by
  have hacc : accepted runId (l ++ [.enqueue i req v.nextSequence result]) =
      accepted runId l ++ [(req.supplementId, v.nextSequence)] := by
    rw [accepted_concat, SupplementOp.acceptance, if_pos ⟨hrun, haccepted⟩]; rfl
  have hlt : ∀ e ∈ v.entries, e.sequence < v.nextSequence := fun e he ↦ hi.next _ (hi.entries e he)
  refine ⟨?_, fun e he ↦ ?_, ?_, fun p hp ↦ ?_, ?_, ?_, fun hc ↦ ?_, nofun⟩
  · show ((v.entries ++ [req.entry v.nextSequence]).map (·.sequence)).Pairwise (· < ·)
    rw [List.map_append, List.pairwise_append]
    refine ⟨hi.sorted, List.pairwise_singleton _ _, fun n hn m hm ↦ ?_⟩
    obtain ⟨e, he, rfl⟩ := List.mem_map.1 hn
    rw [List.mem_singleton.1 hm]
    exact hlt e he
  · rw [hacc]
    rcases List.mem_append.1 he with he | he
    · exact List.mem_append_left _ (hi.entries e he)
    · rw [List.mem_singleton.1 he]
      exact List.mem_append_right _ (List.mem_singleton_self _)
  · rw [hacc, List.map_append, List.pairwise_append]
    refine ⟨hi.assigned, List.pairwise_singleton _ _, fun n hn m hm ↦ ?_⟩
    obtain ⟨p, hp, rfl⟩ := List.mem_map.1 hn
    rw [List.mem_singleton.1 hm]
    exact hi.next p hp
  · show p.2 < v.nextSequence + 1
    rw [hacc] at hp
    rcases List.mem_append.1 hp with hp | hp
    · exact Nat.lt_succ_of_lt (hi.next p hp)
    · rw [List.mem_singleton.1 hp]
      exact Nat.lt_succ_self _
  · show (v.dedupe ++ [_]).map Prod.fst = _
    rw [hacc, List.map_append, List.map_append, hi.ids]
    rfl
  · rw [hacc, List.map_append, List.nodup_append]
    refine ⟨hi.nodup, List.nodup_singleton _, fun id hid id' hid' ↦ ?_⟩
    rintro rfl
    rw [List.mem_singleton.1 hid'] at hid
    exact lookup_eq_none_iff_notMem.1 hnew (hi.ids ▸ hid)
  · rw [show v.accepting = false from hc] at hopen
    cases hopen

/-- **Every step keeps the invariant.** -/
theorem step (hi : QueueInv runId l v) (h : QueueStep runId a v v') :
    QueueInv runId (l ++ [a]) v' := by
  have same (ha : a.acceptance runId = none) : QueueInv runId (l ++ [a]) v :=
    hi.of_none ha rfl rfl hi.sorted (fun e he ↦ ⟨e, he, rfl, rfl⟩) hi.closed hi.stored
  cases h with
  | other h => exact same (SupplementOp.acceptance_of_ne h)
  | pushed hrun haccepted hopen hnew => exact hi.push hrun haccepted hopen hnew
  | duplicate h => exact same (SupplementOp.acceptance_of_duplicate h runId)
  | notCancelled => exact same rfl
  | safePoint | closed | cancelled => exact hi.closed_step rfl
  | @claimed i req claimed entries _ hrun hclaim =>
    have hh := claimEntries_ok hclaim
    refine hi.of_none rfl rfl rfl ?_ (fun e' he' ↦ ?_) (fun hc ↦ ?_) fun hs ↦ ?_
    · show (entries.map (·.sequence)).Pairwise (· < ·)
      rw [hh.sequences_eq]
      exact hi.sorted
    · obtain ⟨e, he, hmark⟩ := exists_of_forall₂ hh.marked he'
      refine ⟨e, he, ?_⟩
      rcases hmark with rfl | ⟨-, rfl⟩
      · exact ⟨rfl, rfl⟩
      · exact ⟨rfl, rfl⟩
    · show entries = []
      rw [hi.closed hc] at hclaim
      cases hclaim
      rfl
    · rw [hi.stored hs] at hclaim ⊢
      cases hclaim
      rfl
  | acknowledged hrun _ =>
    refine hi.of_none rfl rfl rfl (hi.sorted.sublist (List.filter_sublist.map _)) (fun e he ↦ ?_)
      (fun hc ↦ ?_) fun hs ↦ ?_
    · exact ⟨e, List.mem_of_mem_filter he, rfl, rfl⟩
    · show v.entries.filter _ = []
      rw [hi.closed hc]
      rfl
    · rw [hi.stored hs]
      rfl

theorem init : QueueInv (ι := ι) runId [] .unopened where
  sorted := .nil
  entries := nofun
  assigned := .nil
  next := nofun
  ids := rfl
  nodup := .nil
  closed := nofun
  stored _ := rfl

end QueueInv

/-! ### How entries leave -/

/-- The step may take the entry out of the queue of the run. -/
def SupplementOp.Removes (runId : String) (e : DurableTurnSupplement) : SupplementOp ι → Prop
  | acknowledge _ req =>
    req.agentRunId = runId ∧ e.supplementId ∈ req.supplementIds ∧ req.holds e
  | close req => req.agentRunId = runId
  | cancel req _ => req.agentRunId = runId
  | _ => False

/-- The entry is still there; a claim may have marked it. -/
def QueueView.Keeps (v : QueueView) (e : DurableTurnSupplement) : Prop :=
  ∃ e' ∈ v.entries, e'.supplementId = e.supplementId ∧ e'.sequence = e.sequence ∧
    e'.message = e.message ∧ e'.createdAtMs = e.createdAtMs

theorem QueueView.keeps_of_mem {v : QueueView} {e : DurableTurnSupplement} (h : e ∈ v.entries) :
    v.Keeps e := ⟨e, h, rfl, rfl, rfl, rfl⟩

namespace QueueStep

variable {runId : String} {v v' : QueueView} {a : SupplementOp ι}

/-- **An entry stays until it is acknowledged under its own token and owner**, or the queue is
closed. -/
theorem kept_or_removed (h : QueueStep runId a v v') {e : DurableTurnSupplement}
    (he : e ∈ v.entries) : v'.Keeps e ∨ a.Removes runId e := by
  cases h with
  | other | duplicate | notCancelled => exact .inl (QueueView.keeps_of_mem he)
  | pushed => exact .inl (QueueView.keeps_of_mem (List.mem_append_left _ he))
  | claimed hrun hclaim =>
    obtain ⟨e', he', hmark⟩ := exists_of_forall₂ (claimEntries_ok hclaim).marked.flip he
    refine .inl ⟨e', he', ?_⟩
    rcases hmark with rfl | ⟨-, rfl⟩
    · exact ⟨rfl, rfl, rfl, rfl⟩
    · exact ⟨rfl, rfl, rfl, rfl⟩
  | safePoint _ hempty => rw [hempty] at he; cases he
  | @acknowledged i req _ hrun hholds =>
    by_cases hid : e.supplementId ∈ req.supplementIds
    · exact .inr ⟨hrun, hid, hholds e he hid⟩
    · exact .inl (QueueView.keeps_of_mem (List.mem_filter.2 ⟨he, decide_eq_true hid⟩))
  | closed hrun => exact .inr hrun
  | cancelled hrun => exact .inr hrun

/-- **A closed queue stays closed.** -/
theorem closed_stays (h : QueueStep runId a v v') (hs : v.stored) (hc : v.accepting = false) :
    v'.stored ∧ v'.accepting = false ∧ a.acceptance runId = none := by
  cases h with
  | other h => exact ⟨hs, hc, SupplementOp.acceptance_of_ne h⟩
  | pushed _ _ hopen => rw [hc] at hopen; cases hopen
  | duplicate h => exact ⟨hs, hc, SupplementOp.acceptance_of_duplicate h runId⟩
  | claimed | acknowledged => exact ⟨hs, hc, rfl⟩
  | safePoint | closed | cancelled => exact ⟨rfl, rfl, rfl⟩
  | notCancelled => exact ⟨hs, hc, rfl⟩

end QueueStep

/-! ### Owners of leases -/

/-- The owner of the lease of the job of a run. -/
def SupplementStore.owner (core : SupplementCore) (s : SupplementStore) (runId : String) :
    Option String :=
  (core.agentRunLifecycleJobId runId).toOption.bind fun jobId ↦
    (s.jobs.job? jobId).bind (·.leaseOwner)

/-- The calls on the job store. -/
def jobCalls (l : List (SupplementOp ι)) : List Jobs.Call :=
  l.filterMap fun
    | .jobs call => some call
    | _ => none

/-- The owners and the sequences of the entries that claims of the run got. -/
def SupplementOp.handed (runId : String) : SupplementOp ι → List (String × Nat)
  | claim _ req claimed =>
    if req.agentRunId = runId then claimed.map fun e ↦ (req.leaseOwner, e.sequence) else []
  | _ => []

/-- What was handed out to whom. -/
def handed (runId : String) (l : List (SupplementOp ι)) : List (String × Nat) :=
  l.flatMap (SupplementOp.handed runId)

/-- A call on the job store keeps the owner of a lease, ends the lease, or issues a new owner. -/
theorem owner_exec (c : Jobs.Call) (id : String) :
    ((Jobs.exec c.store c.op).job? id).bind (·.leaseOwner) =
        (c.store.job? id).bind (·.leaseOwner) ∨
      ((Jobs.exec c.store c.op).job? id).bind (·.leaseOwner) = none ∨
      ∃ o ∈ c.issued, ((Jobs.exec c.store c.op).job? id).bind (·.leaseOwner) = some o := by
  by_cases hch : c.Changes id
  · have hnext := (Jobs.exec_rowStep c.store c.op id).owner_eq_next hch
    change ((Jobs.exec c.store c.op).job? id).bind (·.leaseOwner) =
      LeaseEvent.next ((c.store.job? id).bind (·.leaseOwner)) (c.op.leaseEvent id) at hnext
    cases hevent : c.op.leaseEvent id with
    | kept => rw [hevent] at hnext; exact .inl hnext
    | released => rw [hevent] at hnext; exact .inr (.inl hnext)
    | claimed o =>
      rw [hevent] at hnext
      refine .inr (.inr ⟨o, ?_, hnext⟩)
      have hmem : .claimed o ∈ Jobs.leaseHistory [c] id := by
        simp [Jobs.leaseHistory, hch, hevent]
      simpa [issuedOwners] using Jobs.mem_issuedOwners id hmem
  · left
    rw [show (Jobs.exec c.store c.op).job? id = c.store.job? id from not_not.1 hch]

/-- The owner of the request holds the lease. -/
theorem validateActiveJob_owner {s : SupplementStore} {id : SupplementIdentity} {owner : String}
    {nowMs : Int} (h : validateActiveJob s id (some (owner, nowMs)) = .ok ()) :
    (s.jobs.job? id.lifecycleJobId).bind (·.leaseOwner) = some owner := by
  obtain ⟨job, hjob, h⟩ := okOr_bind.1 h
  obtain ⟨-, h⟩ := require_bind.1 h
  have hleased : leasedTo owner nowMs job := by
    simpa using require_eq_ok.1 h
  rw [hjob]
  exact hleased.2.1

theorem insertQueue_jobs {s s' : SupplementStore} {q : StoredQueue} (h : insertQueue s q = .ok s') :
    s'.jobs = s.jobs := (writesQueue_insertQueue h).jobs

theorem updateQueue_jobs {s s' : SupplementStore} {q : StoredQueue} {atMs : Int}
    (h : updateQueue s q atMs = .ok s') : s'.jobs = s.jobs := by
  obtain ⟨_, -, h⟩ := bind_eq_ok.1 h
  obtain ⟨-, h⟩ := require_bind.1 h
  cases h
  rfl

theorem claimLocked_jobs {s s' : SupplementStore} {req : ClaimTurnSupplementsRequest}
    {claimed : List DurableTurnSupplement} (h : claimLocked s req = .ok (s', claimed)) :
    s'.jobs = s.jobs ∧
      (s.jobs.job? req.lifecycleJobId).bind (·.leaseOwner) = some req.leaseOwner := by
  obtain ⟨_, hjob, h⟩ := bind_eq_ok.1 h
  refine ⟨?_, validateActiveJob_owner hjob⟩
  split at h
  · split_ifs at h
    · obtain ⟨s₁, hs₁, h⟩ := bind_eq_ok.1 h
      cases h
      exact insertQueue_jobs hs₁
    · cases h
      rfl
  · obtain ⟨_, -, h⟩ := bind_eq_ok.1 h
    obtain ⟨r, -, h⟩ := bind_eq_ok.1 h
    obtain ⟨s₁, hs₁, h⟩ := bind_eq_ok.1 h
    cases h
    unfold storeClaimed at hs₁
    dsimp only at hs₁
    split at hs₁
    · exact updateQueue_jobs hs₁
    · cases hs₁
      rfl

theorem acknowledgeLocked_jobs {s s' : SupplementStore} {req : AcknowledgeTurnSupplementsRequest}
    (h : acknowledgeLocked s req = .ok s') : s'.jobs = s.jobs := by
  obtain ⟨_, -, h⟩ := bind_eq_ok.1 h
  obtain ⟨q, -, h⟩ := okOr_bind.1 h
  dsimp only at h
  split_ifs at h
  · cases h
    rfl
  · obtain ⟨-, h⟩ := require_bind.1 h
    exact updateQueue_jobs h

theorem closeTurnSupplementQueue_jobs {core : SupplementCore} {s s' : SupplementStore}
    {req : CloseTurnSupplementQueueRequest} (h : closeTurnSupplementQueue core s req = .ok s') :
    s'.jobs = s.jobs := by
  obtain ⟨_, -, h⟩ := bind_eq_ok.1 h
  obtain ⟨-, h⟩ := require_bind.1 h
  obtain ⟨_, -, h⟩ := bind_eq_ok.1 h
  split at h
  · obtain ⟨_, -, h⟩ := bind_eq_ok.1 h
    exact updateQueue_jobs h
  · exact insertQueue_jobs h

theorem enqueueLocked_jobs {core : SupplementCore} {s s' : SupplementStore}
    {req : EnqueueTurnSupplementRequest} {result : EnqueueTurnSupplementResult}
    (h : enqueueLocked core s req = .ok (s', result)) :
    s'.jobs = s.jobs ∨ s'.jobs = makeDue s.jobs req.lifecycleJobId req.createdAtMs := by
  obtain ⟨_, -, h⟩ := bind_eq_ok.1 h
  obtain ⟨_, -, h⟩ := bind_eq_ok.1 h
  generalize hq : (s.queue? req.agentRunId).getD (unopenedQueue req) = q at h
  unfold enqueueInto at h
  split at h
  · obtain ⟨-, h⟩ := require_bind.1 h
    cases h
    exact .inl rfl
  · obtain ⟨-, h⟩ := require_bind.1 h
    obtain ⟨-, h⟩ := require_bind.1 h
    obtain ⟨s₁, hs₁, h⟩ := bind_eq_ok.1 h
    cases h
    obtain ⟨_, -, hs₁⟩ := bind_eq_ok.1 hs₁
    obtain ⟨_, -, hs₁⟩ := bind_eq_ok.1 hs₁
    obtain ⟨s₂, hs₂, hs₁⟩ := bind_eq_ok.1 hs₁
    cases hs₁
    obtain ⟨q', hwrites, -⟩ := writesQueue_writePushed hq.symm hs₂
    show (if _ then s₂.jobs else _) = _ ∨ (if _ then s₂.jobs else _) = _
    rw [hwrites.jobs]
    split
    · exact .inl rfl
    · exact .inr rfl

section Steps

variable [DecidableEq ι] {core : SupplementCore} {σ τ : SupplementState ι} {a : SupplementOp ι}

/-- **The owner of a lease changes only through the job store.** -/
theorem SupplementStep.owner_step (h : SupplementStep core σ a τ) (runId : String) :
    τ.store.owner core runId = σ.store.owner core runId ∨
      ∃ c, a = .jobs c ∧ (τ.store.owner core runId = none ∨
        ∃ o ∈ c.issued, τ.store.owner core runId = some o) := by
  have same {s s' : SupplementStore} (hsame : ∀ id, (s'.jobs.job? id).bind (·.leaseOwner) =
      (s.jobs.job? id).bind (·.leaseOwner)) : s'.owner core runId = s.owner core runId := by
    simp only [SupplementStore.owner, hsame]
  have ofJobs {s s' : SupplementStore} (hjobs : s'.jobs = s.jobs) :
      s'.owner core runId = s.owner core runId := same fun id ↦ by rw [hjobs]
  cases h with
  | enter | abandon | checkpoints => exact .inl rfl
  | event h => exact .inl (same fun _ ↦ rfl)
  | @enqueue _ req s _ _ h =>
    left
    show s.owner core runId = _
    rcases enqueueLocked_jobs h with hjobs | hjobs
    · exact ofJobs hjobs
    · exact same fun id ↦ by rw [hjobs]; exact owner_makeDue _ _ _ _
  | claim _ h => exact .inl (ofJobs (claimLocked_jobs h).1)
  | acknowledge _ h => exact .inl (ofJobs (acknowledgeLocked_jobs h))
  | close h => exact .inl (ofJobs (closeTurnSupplementQueue_jobs h))
  | cancel h => exact .inl (same (requestAgentRunCancellation_ok h).owner)
  | @jobs c hstore =>
    cases hid : core.agentRunLifecycleJobId runId with
    | error e =>
      left
      simp only [SupplementStore.owner, hid, Except.toOption, Option.bind_none]
    | ok jobId =>
      have howner (s : SupplementStore) :
          s.owner core runId = (s.jobs.job? jobId).bind (·.leaseOwner) := by
        simp only [SupplementStore.owner, hid, Except.toOption, Option.bind_some]
      rw [howner, howner, ← hstore]
      rcases owner_exec c jobId with h | h
      · exact .inl h
      · exact .inr ⟨c, rfl, h⟩

/-- The calls in flight have passed their checks. -/
def SupplementState.Checked (core : SupplementCore) (σ : SupplementState ι) : Prop :=
  ∀ i call, σ.calls i = some call → call.Checked core

theorem SupplementState.Checked.step (hi : σ.Checked core) (h : SupplementStep core σ a τ) :
    τ.Checked core := by
  have finish (i : ι) (s : SupplementStore) : (σ.finish i s).Checked core := by
    intro j call hj
    by_cases hji : j = i
    · rw [hji] at hj
      simp [SupplementState.finish] at hj
    · exact hi j call (by simpa [SupplementState.finish, hji] using hj)
  cases h with
  | @enter i call _ hcheck _ =>
    intro j call' hj
    by_cases hji : j = i
    · rw [hji] at hj
      obtain rfl : call = call' := by simpa using hj
      exact hcheck
    · exact hi j call' (by simpa [hji] using hj)
  | enqueue | claim | acknowledge | abandon => exact finish _ _
  | close | cancel | jobs | event | checkpoints => exact hi

/-- A claim is made by the owner of the lease. -/
theorem SupplementStep.owner_of_claim {i : ι} {req : ClaimTurnSupplementsRequest}
    {claimed : List DurableTurnSupplement} (hi : σ.Checked core)
    (h : SupplementStep core σ (.claim i req claimed) τ) :
    σ.store.owner core req.agentRunId = some req.leaseOwner := by
  cases h with
  | claim hcall h =>
    obtain ⟨_, hid, -⟩ := bind_eq_ok.1 (hi i _ hcall)
    obtain ⟨-, hid⟩ := require_bind.1 hid
    obtain ⟨jobId, hjobId, hid⟩ := bind_eq_ok.1 hid
    rw [SupplementStore.owner, hjobId]
    show (σ.store.jobs.job? jobId).bind _ = _
    rw [← require_eq_ok.1 hid]
    exact (claimLocked_jobs h).2

end Steps

theorem jobCalls_concat (l : List (SupplementOp ι)) (a : SupplementOp ι) :
    issuedOwners (jobCalls (l ++ [a])) = issuedOwners (jobCalls l) ++ issuedOwners (jobCalls [a]) := by
  simp [jobCalls, issuedOwners]

theorem nodup_of_concat {l : List (SupplementOp ι)} {a : SupplementOp ι}
    (h : (issuedOwners (jobCalls (l ++ [a]))).Nodup) :
    (issuedOwners (jobCalls l)).Nodup := by
  rw [jobCalls_concat, List.nodup_append] at h
  exact h.1

theorem handed_concat (runId : String) (l : List (SupplementOp ι)) (a : SupplementOp ι) :
    handed runId (l ++ [a]) = handed runId l ++ a.handed runId := by
  simp [handed]

/-- **Where an entry comes from**: it is new, or it was there before; and if it changed, a claim has
marked it. -/
theorem QueueStep.origin {runId : String} {v v' : QueueView} {a : SupplementOp ι}
    (h : QueueStep runId a v v') {e' : DurableTurnSupplement} (he' : e' ∈ v'.entries) :
    e'.sequence = v.nextSequence ∨ ∃ e ∈ v.entries, e.sequence = e'.sequence ∧
      (e' = e ∨ ∃ i req claimed, a = .claim i req claimed ∧ req.agentRunId = runId ∧
        e'.claimLeaseOwner = some req.leaseOwner) := by
  cases h with
  | other | duplicate | notCancelled => exact .inr ⟨e', he', rfl, .inl rfl⟩
  | pushed =>
    rcases List.mem_append.1 he' with he' | he'
    · exact .inr ⟨e', he', rfl, .inl rfl⟩
    · rw [List.mem_singleton.1 he']
      exact .inl rfl
  | claimed hrun hclaim =>
    obtain ⟨e, he, hmark⟩ := exists_of_forall₂ (claimEntries_ok hclaim).marked he'
    right
    rcases hmark with rfl | ⟨-, rfl⟩
    · exact ⟨_, he, rfl, .inl rfl⟩
    · exact ⟨e, he, rfl, .inr ⟨_, _, _, rfl, hrun, rfl⟩⟩
  | safePoint | closed | cancelled => cases he'
  | acknowledged => exact .inr ⟨e', List.mem_of_mem_filter he', rfl, .inl rfl⟩

/-- **Invariant of what was handed out.** -/
structure OwnerInv (core : SupplementCore) (runId : String) (l : List (SupplementOp ι))
    (σ : SupplementState ι) : Prop where
  issued (o : String) : σ.store.owner core runId = some o → o ∈ issuedOwners (jobCalls l)
  /-- Who got an entry still has it, or has lost the lease for good. -/
  held : ∀ p ∈ handed runId l, p.1 ∈ issuedOwners (jobCalls l) ∧
    p.2 ∈ (accepted runId l).map Prod.snd ∧
    ∀ e ∈ (σ.store.view runId).entries, e.sequence = p.2 →
      e.claimLeaseOwner = some p.1 ∨ σ.store.owner core runId ≠ some p.1
  nodup : (handed runId l).Nodup

namespace OwnerInv

variable [DecidableEq ι] {core : SupplementCore} {runId : String} {l : List (SupplementOp ι)}
  {σ τ : SupplementState ι} {a : SupplementOp ι}

/-- An owner that has lost the lease does not come back. -/
theorem owner_ne (h : SupplementStep core σ a τ)
    (huuid : (issuedOwners (jobCalls (l ++ [a]))).Nodup) {o : String}
    (hissued : o ∈ issuedOwners (jobCalls l)) (hne : σ.store.owner core runId ≠ some o) :
    τ.store.owner core runId ≠ some o := by
  rcases h.owner_step runId with howner | ⟨c, rfl, hnone | ⟨o', ho', hsome⟩⟩
  · rw [howner]
    exact hne
  · rw [hnone]
    nofun
  · rw [hsome]
    rintro ⟨rfl⟩
    -- the new owner was issued by this call, the old one before
    rw [jobCalls_concat, List.nodup_append] at huuid
    exact huuid.2.2 _ hissued _ (by simpa [jobCalls, issuedOwners] using ho') rfl

/-- Two entries of one sequence are one entry. -/
theorem eq_of_sequence {entries : List DurableTurnSupplement}
    (h : (entries.map (·.sequence)).Pairwise (· < ·)) {e e' : DurableTurnSupplement}
    (he : e ∈ entries) (he' : e' ∈ entries) (hseq : e.sequence = e'.sequence) : e = e' :=
  List.inj_on_of_nodup_map (h.imp ne_of_lt) he he' hseq

/-- What an earlier claim got. -/
theorem held_step (hi : OwnerInv core runId l σ) (hq : QueueInv runId l (σ.store.view runId))
    (hchecked : σ.Checked core) (h : SupplementStep core σ a τ)
    (huuid : (issuedOwners (jobCalls (l ++ [a]))).Nodup) {p : String × Nat}
    (hp : p ∈ handed runId l) {e' : DurableTurnSupplement}
    (he' : e' ∈ (τ.store.view runId).entries) (hseq : e'.sequence = p.2) :
    e'.claimLeaseOwner = some p.1 ∨ τ.store.owner core runId ≠ some p.1 := by
  obtain ⟨hissued, haccepted, hheld⟩ := hi.held p hp
  rcases (h.queueStep runId).origin he' with hnew | ⟨e, he, hsame, hmark⟩
  · obtain ⟨x, hx, hx'⟩ := List.mem_map.1 haccepted
    have := hq.next x hx
    omega
  · rcases hmark with rfl | ⟨i, req, claimed, rfl, rfl, hmarked⟩
    · rcases hheld e' he hseq with howner | hne
      · exact .inl howner
      · exact .inr (owner_ne h huuid hissued hne)
    · by_cases ho : req.leaseOwner = p.1
      · exact .inl (ho ▸ hmarked)
      · -- the lease is with the owner of the request
        refine .inr (owner_ne h huuid hissued ?_)
        rw [h.owner_of_claim hchecked]
        simpa using ho

/-- **What a step hands out**: to an owner with the lease, and that never had it. -/
theorem handed_step (hi : OwnerInv core runId l σ) (hq : QueueInv runId l (σ.store.view runId))
    (hchecked : σ.Checked core) (h : SupplementStep core σ a τ) :
    (a.handed runId).Nodup ∧ ∀ p ∈ a.handed runId, p.1 ∈ issuedOwners (jobCalls l) ∧
      p.2 ∈ (accepted runId l).map Prod.snd ∧ p ∉ handed runId l ∧
      ∀ e ∈ (τ.store.view runId).entries, e.sequence = p.2 → e.claimLeaseOwner = some p.1 := by
  have hqstep := h.queueStep runId
  have hq' := hq.step hqstep
  generalize hv : σ.store.view runId = v at hqstep hq
  generalize hv' : τ.store.view runId = v' at hqstep hq'
  cases hqstep with
  | other hne =>
    have hnone : a.handed runId = [] := by
      cases a with
      | claim i req claimed => exact if_neg fun hrun ↦ hne (congrArg some hrun)
      | _ => rfl
    rw [hnone]
    exact ⟨.nil, nofun⟩
  | @claimed i req claimed entries _ hrun hclaim =>
    subst hrun
    have hh := claimEntries_ok hclaim
    have howner := h.owner_of_claim hchecked
    have hsorted : (claimed.map (·.sequence)).Pairwise (· < ·) :=
      hq'.sorted.sublist (hh.sublist.map _)
    rw [SupplementOp.handed, if_pos rfl]
    constructor
    · refine List.Nodup.of_map Prod.snd ?_
      rw [List.map_map]
      exact hsorted.imp ne_of_lt
    · intro p hp
      obtain ⟨c, hc, rfl⟩ := List.mem_map.1 hp
      obtain ⟨e, he, hfree, rfl⟩ := hh.taken c hc
      have hmem := List.mem_map_of_mem (f := Prod.snd) (hq.entries e he)
      refine ⟨hi.issued _ howner, hmem, fun hold ↦ ?_, fun e' he' hseq ↦ ?_⟩
      · -- an earlier claim of this owner would have left its mark
        rcases (hi.held _ hold).2.2 e (hv ▸ he) rfl with hmine | hlost
        · exact hfree hmine
        · exact hlost howner
      · rw [eq_of_sequence hq'.sorted he' (hh.sublist.subset hc) hseq]
        rfl
  | @safePoint i req =>
    have hnone : SupplementOp.handed runId (.claim i req []) = [] := ite_self _
    rw [hnone]
    exact ⟨.nil, nofun⟩
  | _ => exact ⟨.nil, nofun⟩

/-- **No owner gets an entry twice**, one step. -/
theorem step (hi : OwnerInv core runId l σ) (hq : QueueInv runId l (σ.store.view runId))
    (hchecked : σ.Checked core) (h : SupplementStep core σ a τ)
    (huuid : (issuedOwners (jobCalls (l ++ [a]))).Nodup) : OwnerInv core runId (l ++ [a]) τ := by
  have hissued {o : String} (ho : o ∈ issuedOwners (jobCalls l)) :
      o ∈ issuedOwners (jobCalls (l ++ [a])) := by
    rw [jobCalls_concat]
    exact List.mem_append_left _ ho
  have haccepted {n : Nat} (hn : n ∈ (accepted runId l).map Prod.snd) :
      n ∈ (accepted runId (l ++ [a])).map Prod.snd := by
    rw [accepted_concat, List.map_append]
    exact List.mem_append_left _ hn
  have hnew := hi.handed_step hq hchecked h
  refine ⟨fun o ho ↦ ?_, fun p hp ↦ ?_, ?_⟩
  · rcases h.owner_step runId with howner | ⟨c, rfl, hnone | ⟨o', ho', hsome⟩⟩
    · exact hissued (hi.issued o (howner ▸ ho))
    · rw [hnone] at ho
      cases ho
    · obtain rfl : o' = o := by rw [hsome] at ho; exact Option.some.inj ho
      rw [jobCalls_concat]
      exact List.mem_append_right _ (by simpa [jobCalls, issuedOwners] using ho')
  · rw [handed_concat] at hp
    rcases List.mem_append.1 hp with hp | hp
    · exact ⟨hissued (hi.held p hp).1, haccepted (hi.held p hp).2.1, fun e' he' hseq ↦
        hi.held_step hq hchecked h huuid hp he' hseq⟩
    · obtain ⟨ho, hacc, -, hmarked⟩ := hnew.2 p hp
      exact ⟨hissued ho, haccepted hacc, fun e' he' hseq ↦ .inl (hmarked e' he' hseq)⟩
  · rw [handed_concat, List.nodup_append]
    refine ⟨hi.nodup, hnew.1, fun p hp p' hp' ↦ ?_⟩
    rintro rfl
    exact (hnew.2 p hp').2.2.1 hp

end OwnerInv

/-! ### Whole runs -/

/-- No job, no queue, no call in flight. -/
def SupplementState.initial : SupplementState ι := ⟨⟨.empty, .empty, .empty⟩, fun _ ↦ none⟩

/-- **The contract of the supplement queue** of a run, after the steps `l` that led to `τ`. -/
structure Delivered [DecidableEq ι] (core : SupplementCore) (runId : String)
    (l : List (SupplementOp ι)) (τ : SupplementState ι) : Prop where
  /-- The entries are accepted supplements, in strictly increasing sequence. -/
  sorted : ((τ.store.view runId).entries.map (·.sequence)).Pairwise (· < ·)
  entries : ∀ e ∈ (τ.store.view runId).entries, (e.supplementId, e.sequence) ∈ accepted runId l
  /-- No sequence is assigned twice, -/
  sequences : ((accepted runId l).map Prod.snd).Nodup
  /-- nor is an id. -/
  ids : ((accepted runId l).map Prod.fst).Nodup
  /-- An accepted id stays in the map. -/
  remembered : ∀ p ∈ accepted runId l, ∃ q digest,
    τ.store.queue? runId = some q ∧ q.dedupe.lookup p.1 = some digest
  /-- To enqueue it again is a duplicate or a conflict, and changes nothing. -/
  repeated (req : EnqueueTurnSupplementRequest) : req.agentRunId = runId →
    req.supplementId ∈ (accepted runId l).map Prod.fst →
    validateActiveJob τ.store req.toSupplementIdentity none = .ok () →
    admitsQueue τ.store req.toSupplementIdentity = .ok () →
    (∃ count revision,
      enqueueLocked core τ.store req = .ok (τ.store, ⟨.duplicate, count, revision⟩)) ∨
    enqueueLocked core τ.store req = .error .idempotencyConflict
  /-- A queue that does not accept has no entries and never accepts again. -/
  closed (q : StoredQueue) : τ.store.queue? runId = some q → q.accepting = false →
    q.entries = [] ∧ ∀ l' υ, Run (SupplementStep core) τ l' υ →
      accepted runId l' = [] ∧ ∃ q', υ.store.queue? runId = some q' ∧ q'.accepting = false
  /-- An entry leaves through an acknowledge with its own token and owner, or as the queue is closed
  or its run cancelled. -/
  leaves (a : SupplementOp ι) (υ : SupplementState ι) : SupplementStep core τ a υ →
    ∀ e ∈ (τ.store.view runId).entries, (υ.store.view runId).Keeps e ∨ a.Removes runId e
  /-- A claim gets entries in the order of their sequences. -/
  ordered (i : ι) (req : ClaimTurnSupplementsRequest) (claimed : List DurableTurnSupplement) :
    .claim i req claimed ∈ l → req.agentRunId = runId →
      (claimed.map (·.sequence)).Pairwise (· < ·)
  /-- No owner gets an entry twice. -/
  once : (handed runId l).Nodup

section Runs

variable [DecidableEq ι] {core : SupplementCore} {l : List (SupplementOp ι)}
  {σ τ : SupplementState ι}

theorem checked_of_run (h : Run (SupplementStep core) .initial l τ) : τ.Checked core :=
  h.invariant (I := fun τ ↦ τ.Checked core) nofun fun _ _ _ hi ha ↦ hi.step ha

theorem queueInv_of_run (h : Run (SupplementStep core) .initial l τ) (runId : String) :
    QueueInv runId l (τ.store.view runId) :=
  h.invariant_history (I := fun l τ ↦ QueueInv runId l (τ.store.view runId)) QueueInv.init
    fun _ _ _ _ _ hi ha ↦ hi.step (ha.queueStep runId)

theorem ownerInv_of_run (h : Run (SupplementStep core) .initial l τ)
    (huuid : (issuedOwners (jobCalls l)).Nodup) (runId : String) : OwnerInv core runId l τ := by
  refine h.invariant_history (I := fun l τ ↦ (issuedOwners (jobCalls l)).Nodup →
    OwnerInv core runId l τ) (fun _ ↦ ⟨fun o ho ↦ ?_, nofun, .nil⟩) ?_ huuid
  · cases hid : core.agentRunLifecycleJobId runId <;>
      simp [SupplementStore.owner, hid, SupplementState.initial, Except.toOption,
        JobStore.job?, JobStore.empty] at ho
  · intro l τ a υ hrun hi ha huuid
    exact (hi (nodup_of_concat huuid)).step (queueInv_of_run hrun runId) (checked_of_run hrun) ha
      huuid

/-- A closed queue stays closed along every run. -/
theorem closed_of_run (h : Run (SupplementStep core) σ l τ) (runId : String)
    (hs : (σ.store.view runId).stored) (hc : (σ.store.view runId).accepting = false) :
    accepted runId l = [] ∧ (τ.store.view runId).stored ∧
      (τ.store.view runId).accepting = false := by
  refine h.invariant_history (I := fun l τ ↦ accepted runId l = [] ∧
    (τ.store.view runId).stored ∧ (τ.store.view runId).accepting = false) ⟨rfl, hs, hc⟩ ?_
  rintro l τ a υ - ⟨hacc, hs, hc⟩ ha
  obtain ⟨hs', hc', hnone⟩ := (ha.queueStep runId).closed_stays hs hc
  refine ⟨?_, hs', hc'⟩
  rw [accepted_concat, hacc, hnone]
  rfl

omit [DecidableEq ι] in
theorem SupplementStore.exists_of_stored {s : SupplementStore} {runId : String}
    (h : (s.view runId).stored) : ∃ q, s.queue? runId = some q ∧ s.view runId = q.view := by
  cases hq : s.queue? runId with
  | none => rw [SupplementStore.view_of_none hq] at h; cases h
  | some q => exact ⟨q, rfl, SupplementStore.view_of_some hq⟩

/-- The claims of a run come in the order of the queue. -/
theorem ordered_of_run (h : Run (SupplementStep core) .initial l τ) {i : ι}
    {req : ClaimTurnSupplementsRequest} {claimed : List DurableTurnSupplement}
    (hmem : .claim i req claimed ∈ l) : (claimed.map (·.sequence)).Pairwise (· < ·) := by
  refine h.invariant_history (I := fun l _ ↦ .claim i req claimed ∈ l →
    (claimed.map (·.sequence)).Pairwise (· < ·)) nofun ?_ hmem
  intro l τ a υ hrun hi ha hmem
  rcases List.mem_append.1 hmem with hmem | hmem
  · exact hi hmem
  · obtain rfl := List.mem_singleton.1 hmem
    have hq := queueInv_of_run hrun req.agentRunId
    have hstep := ha.queueStep req.agentRunId
    have hq' := hq.step hstep
    generalize υ.store.view req.agentRunId = v' at hstep hq'
    cases hstep with
    | other hne => exact absurd rfl hne
    | claimed _ hclaim => exact hq'.sorted.sublist ((claimEntries_ok hclaim).sublist.map _)
    | safePoint => exact .nil

/-- To enqueue an id that is in the map changes nothing. -/
theorem enqueueLocked_repeated {s : SupplementStore} {req : EnqueueTurnSupplementRequest}
    {q : StoredQueue} {digest : String} (hq : s.queue? req.agentRunId = some q)
    (hlookup : q.dedupe.lookup req.supplementId = some digest)
    (hjob : validateActiveJob s req.toSupplementIdentity none = .ok ())
    (hqueue : admitsQueue s req.toSupplementIdentity = .ok ()) :
    (∃ count revision, enqueueLocked core s req = .ok (s, ⟨.duplicate, count, revision⟩)) ∨
      enqueueLocked core s req = .error .idempotencyConflict := by
  unfold enqueueLocked
  rw [hjob, hqueue, hq]
  show (∃ count revision, enqueueInto core s req q = _) ∨ enqueueInto core s req q = _
  unfold enqueueInto
  rw [hlookup]
  by_cases hdigest : digest = core.turnSupplementMessageDigest req.message
  · left
    refine ⟨q.entries.length, q.revision, ?_⟩
    show (require _ _ >>= _) = _
    rw [require_pos hdigest]
    rfl
  · right
    show (require _ _ >>= _) = _
    rw [require, if_neg hdigest]
    rfl

/-- **Supplements are delivered once, in order, to the holder of the lease.** -/
theorem delivered_of_run (h : Run (SupplementStep core) .initial l τ)
    (huuid : (issuedOwners (jobCalls l)).Nodup) (runId : String) : Delivered core runId l τ := by
  have hq := queueInv_of_run h runId
  have hremembered : ∀ p ∈ accepted runId l, ∃ q digest,
      τ.store.queue? runId = some q ∧ q.dedupe.lookup p.1 = some digest := by
    intro p hp
    have hid : p.1 ∈ (τ.store.view runId).dedupe.map Prod.fst :=
      hq.ids ▸ List.mem_map_of_mem hp
    have hs : (τ.store.view runId).stored := by
      by_contra hs
      rw [hq.stored (by simpa using hs)] at hid
      cases hid
    obtain ⟨q, hget, hview⟩ := SupplementStore.exists_of_stored hs
    rw [hview] at hid
    have hsome : (q.dedupe.lookup p.1).isSome := by
      rw [Option.isSome_iff_ne_none]
      exact fun hnone ↦ lookup_eq_none_iff_notMem.1 hnone hid
    obtain ⟨digest, hdigest⟩ := Option.isSome_iff_exists.1 hsome
    exact ⟨q, digest, hget, hdigest⟩
  refine ⟨hq.sorted, hq.entries, hq.assigned.imp ne_of_lt, hq.nodup, hremembered, ?_, ?_, ?_, ?_,
    (ownerInv_of_run h huuid runId).nodup⟩
  · rintro req rfl hid hjob hqueue
    obtain ⟨p, hp, hpid⟩ := List.mem_map.1 hid
    obtain ⟨q, digest, hget, hlookup⟩ := hremembered p hp
    exact enqueueLocked_repeated hget (hpid ▸ hlookup) hjob hqueue
  · intro q hget hclosed
    have hview := SupplementStore.view_of_some hget
    refine ⟨?_, fun l' υ hrun ↦ ?_⟩
    · have := hq.closed (by rw [hview]; exact hclosed)
      rwa [hview] at this
    · obtain ⟨hnone, hs, hc⟩ := closed_of_run hrun runId (by rw [hview]; rfl)
        (by rw [hview]; exact hclosed)
      obtain ⟨q', hget', hview'⟩ := SupplementStore.exists_of_stored hs
      refine ⟨hnone, q', hget', ?_⟩
      rw [hview'] at hc
      exact hc
  · intro a υ ha e he
    exact (ha.queueStep runId).kept_or_removed he
  · intro i req claimed hmem _
    exact ordered_of_run h hmem

end Runs

section Sequential

variable [DecidableEq ι] {core : SupplementCore} {σ : SupplementState ι} {i : ι}

theorem finish_enter (σ : SupplementState ι) (i : ι) (call : SupplementCall) (s : SupplementStore)
    (hidle : σ.calls i = none) :
    SupplementState.finish ⟨σ.store, Function.update σ.calls i (some call)⟩ i s =
      { σ with store := s } := by
  simp only [SupplementState.finish, Function.update_idem, ← hidle, Function.update_eq_self]

/-- An enqueue that nothing comes between is a run of two steps. -/
theorem run_of_enqueueTurnSupplement {req : EnqueueTurnSupplementRequest} {s' : SupplementStore}
    {result : EnqueueTurnSupplementResult} (hidle : σ.calls i = none)
    (h : enqueueTurnSupplement core σ.store req = .ok (s', result)) :
    ∃ req', checkEnqueue core req = .ok req' ∧ Run (SupplementStep core) σ
      [.enter i (.enqueue req'),
        .enqueue i req' (σ.store.view req'.agentRunId).nextSequence result]
      { σ with store := s' } := by
  obtain ⟨req', hcheck, h⟩ := bind_eq_ok.1 h
  obtain ⟨hopen, h⟩ := require_bind.1 h
  refine ⟨req', hcheck, ?_⟩
  rw [← finish_enter σ i (.enqueue req') s' hidle]
  exact .snoc (l := [_]) (.single (.enter hidle ⟨req, hcheck⟩ (Bool.eq_false_of_not_eq_true hopen)))
    (.enqueue (Function.update_self ..) h)

/-- A claim that nothing comes between is a run of two steps. -/
theorem run_of_claimTurnSupplements {req : ClaimTurnSupplementsRequest} {s' : SupplementStore}
    {claimed : List DurableTurnSupplement} (hidle : σ.calls i = none)
    (h : claimTurnSupplements core σ.store req = .ok (s', claimed)) :
    Run (SupplementStep core) σ [.enter i (.claim req), .claim i req claimed]
      { σ with store := s' } := by
  obtain ⟨_, hcheck, h⟩ := bind_eq_ok.1 h
  obtain ⟨hopen, h⟩ := require_bind.1 h
  rw [← finish_enter σ i (.claim req) s' hidle]
  exact .snoc (l := [_]) (.single (.enter hidle hcheck (Bool.eq_false_of_not_eq_true hopen)))
    (.claim (Function.update_self ..) h)

/-- The calls of a script on the job store. -/
theorem run_of_jobOps (σ : SupplementState ι) (ops : List Jobs.JobOp) :
    Run (SupplementStep core) σ ((Jobs.callsOf σ.store.jobs ops).map .jobs)
      { σ with store := { σ.store with jobs := ops.foldl Jobs.exec σ.store.jobs } } := by
  induction ops generalizing σ with
  | nil => exact .nil
  | cons op ops ih =>
    have hstep : SupplementStep core σ (.jobs ⟨σ.store.jobs, op⟩)
        { σ with store := { σ.store with jobs := Jobs.exec σ.store.jobs op } } := .jobs rfl
    exact (Run.single hstep).trans (ih _)

end Sequential

/-- A library that refuses nothing. -/
def sampleCore : SupplementCore where
  validateTurnSupplementMessage := .ok
  validateTurnSupplementId _ := .ok ()
  turnSupplementMessageDigest := id
  maxPending := 4
  agentRunLifecycleJobId runId := .ok ("agent_run.lifecycle:" ++ runId)

/-- The run `r` of the session `s`. -/
def sampleIdentity : SupplementIdentity := ⟨"r", "agent_run.lifecycle:r", "s", "a"⟩

/-- The lifecycle job of `r` as it is scheduled. -/
def lifecycleJob : RuntimeJobRecord :=
  { Jobs.sampleJob "agent_run.lifecycle:r" Jobs.agentRunLifecycleJobKind with
    idempotencyKey := "agent_run.lifecycle:r:a"
    sessionId := some "s"
    payloadRef := some "record:agent_run:r" }

/-- The job is scheduled, claimed by `owner_1` and started. -/
def lifecycleScript : List Jobs.JobOp :=
  [.schedule lifecycleJob ⟨rfl, rfl⟩,
    .claimDue ⟨1, "worker:0", none, none, none, 1, 100⟩ ⟨[], fun _ ↦ "owner_1"⟩,
    .start ⟨"agent_run.lifecycle:r", "owner_1", 2⟩]

/-- The tables while the job runs. -/
def runningStore : SupplementStore := ⟨lifecycleScript.foldl Jobs.exec .empty, .empty, .empty⟩

/-- The first supplement of `r`. -/
def firstEnqueue : EnqueueTurnSupplementRequest := ⟨sampleIdentity, "s1", "and this", 3⟩

/-- The claim of the worker. -/
def firstClaim : ClaimTurnSupplementsRequest := ⟨sampleIdentity, "owner_1", "t1", 4, false, 4⟩

/-- The queue of `r` with its first entry. -/
def firstQueue (revision : Nat) (claimToken claimLeaseOwner : Option String) (updatedAtMs : Int) :
    StoredQueue :=
  ⟨sampleIdentity, revision, 2, true, [⟨"s1", 1, "and this", 3, claimToken, claimLeaseOwner⟩],
    [("s1", "and this")], none, updatedAtMs⟩

/-- The tables with the queue. -/
def queuedStore (q : StoredQueue) : SupplementStore :=
  { runningStore with
    jobs := makeDue runningStore.jobs "agent_run.lifecycle:r" 3
    queues := ⟨[q], List.nodup_singleton _⟩ }

theorem enqueue_first : enqueueTurnSupplement sampleCore runningStore firstEnqueue =
    .ok (queuedStore (firstQueue 1 none none 3), ⟨.accepted, 1, 1⟩) := by decide +kernel

theorem claim_first : claimTurnSupplements sampleCore (queuedStore (firstQueue 1 none none 3))
    firstClaim = .ok (queuedStore (firstQueue 2 (some "t1") (some "owner_1") 4),
      [⟨"s1", 1, "and this", 3, some "t1", some "owner_1"⟩]) := by decide +kernel

/-- **A supplement on its way**: it is accepted and claimed, and the queue keeps its contract. -/
theorem delivered_of_run_first_claim :
    ∃ (l : List (SupplementOp Unit)) (τ : SupplementState Unit),
      Run (SupplementStep sampleCore) .initial l τ ∧
      accepted "r" l = [("s1", 1)] ∧ handed "r" l = [("owner_1", 1)] ∧
      Delivered sampleCore "r" l τ := by
  have hjobs : Run (SupplementStep sampleCore) (.initial : SupplementState Unit) _
      ⟨runningStore, fun _ ↦ none⟩ := run_of_jobOps .initial lifecycleScript
  obtain ⟨req, hreq, henqueue⟩ := run_of_enqueueTurnSupplement (i := ())
    (σ := ⟨runningStore, fun _ ↦ none⟩) rfl enqueue_first
  obtain rfl : firstEnqueue = req := Except.ok.inj hreq
  have hclaim := run_of_claimTurnSupplements (i := ())
    (σ := ⟨queuedStore (firstQueue 1 none none 3), fun _ ↦ none⟩) rfl claim_first
  have hrun := (hjobs.trans henqueue).trans hclaim
  exact ⟨_, _, hrun, by decide +kernel, by decide +kernel,
    delivered_of_run hrun (by decide +kernel) "r"⟩

end Centaeris.Supplement
