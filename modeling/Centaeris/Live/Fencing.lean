import Centaeris.Live.Writer
import Centaeris.Relational.Run

/-!
# Fencing of live text writers

A replacement or a seal names the turn, the message and the revision it expects. That is not who
opened the text: revisions start at 0 with every `open`, and after a takeover the new worker may open
the same turn and message. The old worker, whose own revision is 0 too, then replaces the text of the
new one, and its signal has the position of its own `open` (`stale_writer_replaces`).

`fenced_of_disciplined`: a writer is fenced as long as no other writer has opened the same turn and
message after it. Every live signal then has the position of the text it replaces, if no `open` that
took effect loses its answer.
-/

namespace Centaeris.Live

variable {ι : Type}

/-! ### What a script changes -/

/-- **All that a replacement or a seal changes**: nothing, unless the text belongs to the identity
it names. `position` is where the writer has opened. -/
inductive Mutated (r : LiveRedis) (identity : String × String) (position : Nat) : LiveRedis → Prop
  | same : Mutated r identity position r
  | deleted {m : LiveMeta} (hmeta : r.liveMeta = some m) (hidentity : m.identity = identity) :
      Mutated r identity position { r with text := none, liveMeta := none }
  | replaced {m : LiveMeta} {text : String} {revision : Nat} {reasoning : Json} {s : LiveSignal}
      (hmeta : r.liveMeta = some m) (hidentity : m.identity = identity)
      (hsignal : s.afterSequence = position) :
      Mutated r identity position
        ⟨some text, some { m with revision, reasoning := some reasoning }, r.signals ++ [s]⟩

section Scripts

variable {tonumber : Nat → Nat} {r r' : LiveRedis} {delivery : Delivery}
  {w w' : TransientAgentRunStream}

/-- A script whose answer is lost has run or not. -/
theorem invoke_redis {m : LiveMutation} {P : LiveRedis → Prop} (hsame : P r)
    (hrun : ∀ r' reply, liveTextMutate tonumber r m = .ok (r', reply) → P r') :
    P (invoke tonumber delivery r m).1 := by
  unfold invoke
  cases hm : liveTextMutate tonumber r m with
  | error e =>
    cases delivery with
    | answered => exact hsame
    | lost executed => cases executed <;> exact hsame
  | ok x =>
    cases delivery with
    | answered => exact hrun _ _ hm
    | lost executed =>
      cases executed with
      | false => exact hsame
      | true => exact hrun _ _ hm

theorem liveTextMutate_replacement {pending : String × String} {reply : LiveReply}
    (h : liveTextMutate tonumber r (w.replacement pending) = .ok (r', reply)) :
    Mutated r pending w.liveAfterSequence r' := by
  simp only [TransientAgentRunStream.replacement, liveTextMutate] at h
  cases hmeta : r.liveMeta with
  | none => simp only [hmeta, reduceCtorEq] at h
  | some m =>
    simp only [hmeta] at h
    split_ifs at h with hmessage hturn hrevision
    cases h
    exact .replaced hmeta (Prod.ext (not_not.1 hturn) (not_not.1 hmessage)) rfl

theorem liveTextMutate_seal {turnId messageId : String} {revision position : Nat}
    {reply : LiveReply} (h : liveTextMutate tonumber r (.seal turnId messageId revision) =
      .ok (r', reply)) : Mutated r (turnId, messageId) position r' := by
  simp only [liveTextMutate] at h
  cases hmeta : r.liveMeta with
  | none =>
    simp only [hmeta, Except.ok.injEq, Prod.mk.injEq] at h
    exact h.1 ▸ .same
  | some m =>
    simp only [hmeta] at h
    split_ifs at h with hmessage hturn hrevision
    cases h
    exact .deleted hmeta (Prod.ext (not_not.1 hturn) (not_not.1 hmessage))

theorem liveTextMutate_sealBefore {turnId messageId : String} {revision sequence position : Nat}
    {reply : LiveReply} (h : liveTextMutate tonumber r
      (.sealBefore turnId messageId revision sequence) = .ok (r', reply)) :
    Mutated r (turnId, messageId) position r' := by
  simp only [liveTextMutate] at h
  cases hmeta : r.liveMeta with
  | none =>
    simp only [hmeta, Except.ok.injEq, Prod.mk.injEq] at h
    exact h.1 ▸ .same
  | some m =>
    simp only [hmeta] at h
    split_ifs at h with hother hposition
    · cases h
      exact .same
    · cases h
      exact .same
    · cases h
      rw [not_or, not_or, not_not, not_not] at hother
      exact .deleted hmeta (Prod.ext hother.2.1 hother.1)

end Scripts

/-! ### What a call changes -/

/-- The identity that the first script of a call names. -/
def LiveCall.identity? (w : TransientAgentRunStream) : LiveCall → Option (String × String)
  | settle turnId messageId _ => some (turnId, messageId)
  | call => (w.buffered call).pendingLive

section Calls

variable {tonumber : Nat → Nat} {r r' : LiveRedis} {w w' : TransientAgentRunStream} {env : CallEnv}

/-- The effect of a call on Redis. A writer moves only with its own `open`. -/
structure CallEffect (w w' : TransientAgentRunStream) (r r' : LiveRedis)
    (identity : Option (String × String)) : Prop where
  position : w'.liveAfterSequence = w.liveAfterSequence
  redis : r' = r ∨ ∃ p, identity = some p ∧ Mutated r p w.liveAfterSequence r'

theorem CallEffect.refl (w : TransientAgentRunStream) (r : LiveRedis)
    (identity : Option (String × String)) : CallEffect w w r r identity := ⟨rfl, .inl rfl⟩

theorem liveFlush_effect {result : Except LiveTextError Unit}
    (h : w.liveFlush tonumber r env = (w', r', result)) : CallEffect w w' r r' w.pendingLive := by
  unfold TransientAgentRunStream.liveFlush at h
  split at h
  · cases h
    exact .refl _ _ _
  · rename_i pending hpending
    have hredis : Mutated r pending w.liveAfterSequence
        (invoke tonumber env.delivery r (w.replacement pending)).1 :=
      invoke_redis .same fun _ _ ↦ liveTextMutate_replacement
    split_ifs at h
    · cases h
      exact .refl _ _ _
    · split at h
      · rename_i hinvoke
        cases h
        rw [hinvoke] at hredis
        exact ⟨rfl, .inr ⟨pending, hpending, hredis⟩⟩
      · rename_i hinvoke
        cases h
        rw [hinvoke] at hredis
        exact ⟨rfl, .inr ⟨pending, hpending, hredis⟩⟩

theorem flushLiveIfDue_effect {result : Except LiveTextError Unit}
    (h : w.flushLiveIfDue tonumber r env = (w', r', result)) :
    CallEffect w w' r r' w.pendingLive := by
  unfold TransientAgentRunStream.flushLiveIfDue at h
  split_ifs at h
  · exact liveFlush_effect h
  · cases h
    exact .refl _ _ _

/-- A buffered call opens nothing. -/
theorem buffered_liveAfterSequence (w : TransientAgentRunStream) (call : LiveCall) :
    (w.buffered call).liveAfterSequence = w.liveAfterSequence := by
  cases call <;> rfl

theorem CallEffect.of_buffered {call : LiveCall}
    (h : CallEffect (w.buffered call) w' r r' (w.buffered call).pendingLive) :
    CallEffect w w' r r' (w.buffered call).pendingLive := by
  obtain ⟨hposition, hredis⟩ := h
  rw [buffered_liveAfterSequence] at hposition hredis
  exact ⟨hposition, hredis⟩

/-- **The first script of a call** changes Redis only under the identity that it names. -/
theorem firstScript_effect {call : LiveCall} {outcome : CallOutcome}
    (h : w.firstScript tonumber r env call = (w', r', outcome)) :
    CallEffect w w' r r' (call.identity? w) := by
  unfold TransientAgentRunStream.firstScript at h
  split at h
  · cases h
    exact .refl _ _ _
  · cases call with
    | flush =>
      cases h
      exact liveFlush_effect rfl
    | replace | appendDelta | reasoning =>
      cases h
      exact .of_buffered (flushLiveIfDue_effect rfl)
    | «open» =>
      dsimp only at h
      split at h
      · cases h
        exact liveFlush_effect ‹_›
      · cases h
        exact liveFlush_effect ‹_›
    | sealBefore =>
      dsimp only at h
      split at h
      · cases h
        exact liveFlush_effect ‹_›
      · cases h
        exact liveFlush_effect ‹_›
    | settle turnId messageId revision =>
      have hredis : Mutated r (turnId, messageId) w.liveAfterSequence
          (invoke tonumber env.delivery r (.seal turnId messageId revision)).1 :=
        invoke_redis .same fun _ _ ↦ liveTextMutate_seal
      dsimp only at h
      split at h
      · rename_i hinvoke
        cases h
        rw [hinvoke] at hredis
        exact ⟨rfl, .inr ⟨_, rfl, hredis⟩⟩
      · rename_i hinvoke
        cases h
        rw [hinvoke] at hredis
        exact ⟨rfl, .inr ⟨_, rfl, hredis⟩⟩

theorem sealScript_effect {delivery : Delivery} {turnId messageId : String} {sequence : Nat}
    {result : Except LiveTextError Bool}
    (h : w.sealScript tonumber r delivery turnId messageId sequence = (w', r', result)) :
    CallEffect w w' r r' (some (turnId, messageId)) := by
  have hredis : Mutated r (turnId, messageId) w.liveAfterSequence (invoke tonumber delivery r
      (.sealBefore turnId messageId w.liveRevision sequence)).1 :=
    invoke_redis .same fun _ _ ↦ liveTextMutate_sealBefore
  unfold TransientAgentRunStream.sealScript at h
  split at h
  all_goals
    rename_i hinvoke
    cases h
    rw [hinvoke] at hredis
    exact ⟨rfl, .inr ⟨_, rfl, hredis⟩⟩

theorem liveTextMutate_open (args : LiveOpen) :
    liveTextMutate tonumber r args.mutation =
      if r.liveMeta.any fun m ↦ decide (tonumber args.afterSequence ≤ tonumber m.afterSequence) then
        .error "live open durable position is not newer"
      else .ok ({ r with
        text := some args.initialText,
        liveMeta := some ⟨args.turnId, args.messageId, args.afterSequence, 0, none⟩ }, .ok) := rfl

/-- **The script of `live_open`**: it takes effect, and the writer knows if it gets the answer; or
nothing happens. -/
theorem openScript_effect {delivery : Delivery} {args : LiveOpen} {result : Except LiveTextError Unit}
    (h : w.openScript tonumber r delivery args = (w', r', result)) :
    if opens tonumber r delivery args then
      r' = { r with text := some args.initialText,
                    liveMeta := some ⟨args.turnId, args.messageId, args.afterSequence, 0, none⟩ } ∧
      (delivery = .answered → result = .ok () ∧ w'.liveAfterSequence = args.afterSequence)
    else r' = r ∧ w' = w ∧ result ≠ .ok () := by
  unfold TransientAgentRunStream.openScript invoke at h
  unfold opens
  by_cases hnew : r.liveMeta.any fun m ↦
      decide (tonumber args.afterSequence ≤ tonumber m.afterSequence)
  · -- the position is not newer: the script refuses
    rw [liveTextMutate_open, if_pos hnew] at h ⊢
    rw [if_neg (by simp [Except.isOk, Except.toBool])]
    cases delivery with
    | answered => cases h; exact ⟨rfl, rfl, nofun⟩
    | lost executed => cases executed <;> cases h <;> exact ⟨rfl, rfl, nofun⟩
  · rw [liveTextMutate_open, if_neg hnew] at h ⊢
    cases delivery with
    | answered =>
      rw [if_pos (by simp [Except.isOk, Except.toBool])]
      cases h
      exact ⟨rfl, fun _ ↦ ⟨rfl, rfl⟩⟩
    | lost executed =>
      cases executed with
      | true =>
        rw [if_pos (by simp [Except.isOk, Except.toBool])]
        cases h
        exact ⟨rfl, nofun⟩
      | false =>
        rw [if_neg (by simp)]
        cases h
        exact ⟨rfl, rfl, nofun⟩

end Calls

/-! ### Fenced writers -/

/-- Another writer than `i` ran the last `open`, and it opened this identity. -/
def LiveState.TakenOver (σ : LiveState ι) (i : ι) (identity : String × String) : Prop :=
  ∃ j args, σ.lastOpen = some (j, args) ∧ j ≠ i ∧ args.identity = identity

/-- **The condition**, on the state that a step finds: what a writer replaces or seals was not opened
by another one since, and an `open` that takes effect gets its answer. -/
def Meets (tonumber : Nat → Nat) (σ : LiveState ι) : LiveOp ι → Prop
  | .call i call _ => ∀ p, call.identity? (σ.streams i) = some p → ¬σ.TakenOver i p
  | .sealScript i turnId messageId _ _ => ¬σ.TakenOver i (turnId, messageId)
  | .openScript _ args delivery _ => opens tonumber σ.redis delivery args → delivery = .answered
  | .expire => True

/-- The writer that runs the step, if it is not an `open`. -/
def LiveOp.writer? : LiveOp ι → Option ι
  | call i _ _ => some i
  | sealScript i _ _ _ _ => some i
  | openScript _ _ _ _ | expire => none

/-- The step is a successful `open` of the writer. -/
def LiveOp.IsOpenOf (i : ι) : LiveOp ι → Prop
  | openScript j _ _ result => j = i ∧ result = .ok ()
  | _ => False

section Fencing

variable [DecidableEq ι] {tonumber : Nat → Nat} {σ τ : LiveState ι} {a : LiveOp ι}

/-- A step that meets the condition. -/
def DisciplinedStep (tonumber : Nat → Nat) (σ : LiveState ι) (a : LiveOp ι) (τ : LiveState ι) :
    Prop := LiveStep tonumber σ a τ ∧ Meets tonumber σ a

/-- **The text belongs to the last `open`**, and whoever ran it knows its position. -/
structure FenceInv (σ : LiveState ι) : Prop where
  opened (m : LiveMeta) : σ.redis.liveMeta = some m → ∃ i args, σ.lastOpen = some (i, args) ∧
    m.identity = args.identity ∧ m.afterSequence = args.afterSequence
  position (i : ι) (args : LiveOpen) : σ.lastOpen = some (i, args) →
    (σ.streams i).liveAfterSequence = args.afterSequence

/-- A step of a writer that is no `open`, taken apart. -/
theorem LiveStep.effect {i : ι} (h : LiveStep tonumber σ a τ) (hmeets : Meets tonumber σ a)
    (hwriter : a.writer? = some i) : τ.lastOpen = σ.lastOpen ∧
      (∀ j, (τ.streams j).liveAfterSequence = (σ.streams j).liveAfterSequence) ∧
      ∃ identity, (∀ p, identity = some p → ¬σ.TakenOver i p) ∧
        CallEffect (σ.streams i) (τ.streams i) σ.redis τ.redis identity := by
  have set {w : TransientAgentRunStream} {r : LiveRedis} {second : Option SecondScript}
      {identity : Option (String × String)} (heffect : CallEffect (σ.streams i) w σ.redis r identity)
      (hfree : ∀ p, identity = some p → ¬σ.TakenOver i p) :
      (σ.set i w r second).lastOpen = σ.lastOpen ∧
      (∀ j, ((σ.set i w r second).streams j).liveAfterSequence =
        (σ.streams j).liveAfterSequence) ∧
      ∃ identity, (∀ p, identity = some p → ¬σ.TakenOver i p) ∧
        CallEffect (σ.streams i) ((σ.set i w r second).streams i) σ.redis
          (σ.set i w r second).redis identity := by
    refine ⟨rfl, fun j ↦ ?_, identity, hfree, ?_⟩
    · by_cases hj : j = i
      · rw [hj, LiveState.set_streams_self]
        exact heffect.position
      · rw [LiveState.set_streams_of_ne σ hj]
    · rw [LiveState.set_streams_self]
      exact heffect
  cases h with
  | call _ h =>
    cases hwriter
    exact set (firstScript_effect h) hmeets
  | sealScript _ h =>
    cases hwriter
    refine set (sealScript_effect h) fun p hp ↦ ?_
    exact Option.some.inj hp ▸ hmeets
  | openScript | expire => cases hwriter

/-- An `open`, taken apart. -/
theorem LiveStep.open_effect {i : ι} {args : LiveOpen} {delivery : Delivery}
    {result : Except LiveTextError Unit}
    (h : LiveStep tonumber σ (.openScript i args delivery result) τ) :
    τ.redis.signals = σ.redis.signals ∧
    if opens tonumber σ.redis delivery args then
      τ.lastOpen = some (i, args) ∧
      τ.redis.liveMeta = some ⟨args.turnId, args.messageId, args.afterSequence, 0, none⟩ ∧
      (delivery = .answered →
        result = .ok () ∧ (τ.streams i).liveAfterSequence = args.afterSequence)
    else τ.redis = σ.redis ∧ τ.lastOpen = σ.lastOpen ∧ τ.streams = σ.streams ∧ result ≠ .ok () := by
  cases h with
  | @openScript _ _ _ w r _ _ h =>
    have heffect := openScript_effect h
    by_cases hopens : opens tonumber σ.redis delivery args
    · rw [if_pos hopens] at heffect
      obtain ⟨rfl, hanswer⟩ := heffect
      refine ⟨rfl, ?_⟩
      rw [if_pos hopens]
      refine ⟨if_pos hopens, rfl, fun hd ↦ ⟨(hanswer hd).1, ?_⟩⟩
      rw [show LiveState.streams _ i = w from LiveState.set_streams_self σ i w _ none]
      exact (hanswer hd).2
    · rw [if_neg hopens] at heffect
      obtain ⟨rfl, rfl, hresult⟩ := heffect
      refine ⟨rfl, ?_⟩
      rw [if_neg hopens]
      exact ⟨rfl, if_neg hopens, Function.update_eq_self i σ.streams, hresult⟩

/-- **A script under the condition** leaves Redis alone unless its writer ran the last `open`. -/
theorem FenceInv.mutated (hi : FenceInv σ) {i : ι} {identity : Option (String × String)}
    {w : TransientAgentRunStream} {r : LiveRedis}
    (hfree : ∀ p, identity = some p → ¬σ.TakenOver i p)
    (h : CallEffect (σ.streams i) w σ.redis r identity) :
    r = σ.redis ∨ ∃ m args, σ.redis.liveMeta = some m ∧ σ.lastOpen = some (i, args) ∧
      m.identity = args.identity ∧ m.afterSequence = args.afterSequence ∧
      Mutated σ.redis m.identity args.afterSequence r := by
  rcases h.redis with rfl | ⟨p, hp, hmutated⟩
  · exact .inl rfl
  -- the text belongs to the identity of the script, which nobody else has opened since
  have mine {m : LiveMeta} (hmeta : σ.redis.liveMeta = some m) (hidentity : m.identity = p) :
      ∃ args, σ.lastOpen = some (i, args) ∧ m.identity = args.identity ∧
        m.afterSequence = args.afterSequence := by
    obtain ⟨j, args, hlast, hid, hafter⟩ := hi.opened m hmeta
    obtain rfl : j = i := by
      by_contra hne
      exact hfree p hp ⟨j, args, hlast, hne, hid.symm.trans hidentity⟩
    exact ⟨args, hlast, hid, hafter⟩
  cases hmutated with
  | same => exact .inl rfl
  | deleted hmeta hidentity =>
    obtain ⟨args, hlast, hid, hafter⟩ := mine hmeta hidentity
    exact .inr ⟨_, args, hmeta, hlast, hid, hafter, .deleted hmeta rfl⟩
  | replaced hmeta hidentity hsignal =>
    obtain ⟨args, hlast, hid, hafter⟩ := mine hmeta hidentity
    exact .inr ⟨_, args, hmeta, hlast, hid, hafter,
      .replaced hmeta rfl (hsignal.trans (hi.position i args hlast))⟩

/-- **Every step keeps the invariant.** -/
theorem FenceInv.step (hi : FenceInv σ) (h : DisciplinedStep tonumber σ a τ) : FenceInv τ := by
  obtain ⟨h, hmeets⟩ := h
  have writer {i : ι} (hwriter : a.writer? = some i) : FenceInv τ := by
    obtain ⟨hlast, hposition, identity, hfree, heffect⟩ := h.effect hmeets hwriter
    refine ⟨fun m' hm' ↦ ?_, fun j args hj ↦ ?_⟩
    · rcases hi.mutated hfree heffect with hsame | ⟨m, args, hm, hopen, hid, hafter, hmutated⟩
      · rw [hsame] at hm'
        rw [hlast]
        exact hi.opened m' hm'
      · refine ⟨i, args, hlast ▸ hopen, ?_⟩
        generalize τ.redis = r at hm' hmutated
        cases hmutated with
        | same =>
          obtain rfl : m = m' := Option.some.inj (hm.symm.trans hm')
          exact ⟨hid, hafter⟩
        | deleted => cases hm'
        | replaced hmeta hidentity _ =>
          obtain rfl := Option.some.inj (hm.symm.trans hmeta)
          cases hm'
          exact ⟨hid, hafter⟩
    · rw [hposition]
      exact hi.position j args (hlast ▸ hj)
  cases a with
  | call => exact writer rfl
  | sealScript => exact writer rfl
  | expire =>
    cases h with
    | expire _ hmeta =>
      refine ⟨fun m' hm' ↦ ?_, hi.position⟩
      rcases hmeta with rfl | rfl
      · exact hi.opened m' hm'
      · cases hm'
  | openScript i args delivery result =>
    have heffect := h.open_effect.2
    by_cases hopens : opens tonumber σ.redis delivery args
    · rw [if_pos hopens] at heffect
      obtain ⟨hlast, hmeta, hanswer⟩ := heffect
      refine ⟨fun m hm ↦ ?_, fun j args' hj ↦ ?_⟩
      · rw [hmeta] at hm
        cases hm
        exact ⟨i, args, hlast, rfl, rfl⟩
      · obtain ⟨rfl, rfl⟩ : i = j ∧ args = args' := by simpa [hlast] using hj
        exact (hanswer (hmeets hopens)).2
    · rw [if_neg hopens] at heffect
      obtain ⟨hredis, hlast, hstreams, -⟩ := heffect
      refine ⟨fun m hm ↦ ?_, fun j args' hj ↦ ?_⟩
      · rw [hlast]
        exact hi.opened m (hredis ▸ hm)
      · rw [hstreams]
        exact hi.position j args' (hlast ▸ hj)

end Fencing

section Runs

variable [DecidableEq ι] {tonumber : Nat → Nat} {σ τ : LiveState ι} {a : LiveOp ι}
  {l : List (LiveOp ι)}

theorem fenceInv_of_run (h : Run (DisciplinedStep tonumber) .initial l σ) : FenceInv σ :=
  h.invariant (I := FenceInv) ⟨fun _ hm ↦ (by cases hm), fun _ _ hl ↦ (by cases hl)⟩
    fun _ _ _ hi ha ↦ hi.step ha

/-- The last `open` was run by somebody else, until the writer opens again. -/
theorem lastOpen_of_run {i : ι} (h : Run (DisciplinedStep tonumber) σ l τ)
    (hnone : ∀ x ∈ l, ¬x.IsOpenOf i) (hσ : ∃ j args, σ.lastOpen = some (j, args) ∧ j ≠ i) :
    ∃ j args, τ.lastOpen = some (j, args) ∧ j ≠ i := by
  refine h.invariant_history (I := fun l τ ↦ (∀ x ∈ l, ¬x.IsOpenOf i) →
    ∃ j args, τ.lastOpen = some (j, args) ∧ j ≠ i) (fun _ ↦ hσ) ?_ hnone
  rintro l σ a τ - hi ⟨h, hmeets⟩ hnone
  have hσ := hi fun x hx ↦ hnone x (List.mem_append_left _ hx)
  have ha := hnone a (List.mem_append_right _ (List.mem_singleton_self _))
  cases a with
  | call =>
    rw [(h.effect hmeets rfl).1]
    exact hσ
  | sealScript =>
    rw [(h.effect hmeets rfl).1]
    exact hσ
  | expire =>
    cases h with
    | expire => exact hσ
  | openScript j args delivery result =>
    have heffect := h.open_effect.2
    by_cases hopens : opens tonumber σ.redis delivery args
    · rw [if_pos hopens] at heffect
      exact ⟨j, args, heffect.1, fun hj ↦ ha ⟨hj, (heffect.2.2 (hmeets hopens)).1⟩⟩
    · rw [if_neg hopens] at heffect
      rw [heffect.2.1]
      exact hσ

/-- A successful `open` took effect. -/
theorem LiveStep.lastOpen_of_success {i : ι} {args : LiveOpen} {delivery : Delivery}
    (h : LiveStep tonumber σ (.openScript i args delivery (.ok ())) τ) :
    τ.lastOpen = some (i, args) := by
  have heffect := h.open_effect.2
  by_cases hopens : opens tonumber σ.redis delivery args
  · rw [if_pos hopens] at heffect
    exact heffect.1
  · rw [if_neg hopens] at heffect
    exact absurd rfl heffect.2.2.2

/-- **Writers are fenced**, in every run whose steps meet the condition.

* After a successful `open` of `b`, a writer that does not open again replaces and seals nothing.
* Every live signal has the position that is stored with the text at that moment. -/
theorem fenced_of_disciplined (h : Run (DisciplinedStep tonumber) .initial l σ)
    (hstep : DisciplinedStep tonumber σ a τ) :
    (∀ l₁ l₂ b i args delivery, l = l₁ ++ [.openScript b args delivery (.ok ())] ++ l₂ → b ≠ i →
      (∀ x ∈ l₂, ¬x.IsOpenOf i) → a.writer? = some i →
      τ.redis.text = σ.redis.text ∧ τ.redis.liveMeta = σ.redis.liveMeta) ∧
    ∃ new, τ.redis.signals = σ.redis.signals ++ new ∧
      ∀ s ∈ new, ∃ m, τ.redis.liveMeta = some m ∧ s.afterSequence = m.afterSequence := by
  have hi := fenceInv_of_run h
  constructor
  · intro l₁ l₂ b i args delivery hl hne hnone hwriter
    rw [hl] at h
    obtain ⟨σ₂, h, h₂⟩ := h.split
    obtain ⟨σ₁, -, hopen, -⟩ := h.of_concat
    obtain ⟨j, args', hlast, hj⟩ :=
      lastOpen_of_run h₂ hnone ⟨b, args, hopen.lastOpen_of_success, hne⟩
    obtain ⟨-, -, identity, hfree, heffect⟩ := hstep.1.effect hstep.2 hwriter
    rcases hi.mutated hfree heffect with hsame | ⟨m, args₁, -, hmine, -⟩
    · rw [hsame]
      exact ⟨rfl, rfl⟩
    · obtain ⟨rfl, -⟩ : i = j ∧ args₁ = args' := by simpa [hlast] using hmine.symm
      exact absurd rfl hj
  · have writer {i : ι} (hwriter : a.writer? = some i) : ∃ new,
        τ.redis.signals = σ.redis.signals ++ new ∧
        ∀ s ∈ new, ∃ m, τ.redis.liveMeta = some m ∧ s.afterSequence = m.afterSequence := by
      obtain ⟨-, -, identity, hfree, heffect⟩ := hstep.1.effect hstep.2 hwriter
      rcases hi.mutated hfree heffect with hsame | ⟨m, args, hm, -, -, hafter, hmutated⟩
      · exact ⟨[], by rw [hsame, List.append_nil], nofun⟩
      · generalize τ.redis = r at hmutated ⊢
        cases hmutated with
        | same => exact ⟨[], (List.append_nil _).symm, nofun⟩
        | deleted => exact ⟨[], (List.append_nil _).symm, nofun⟩
        | replaced hmeta hidentity hsignal =>
          obtain rfl := Option.some.inj (hm.symm.trans hmeta)
          refine ⟨[_], rfl, fun s hs ↦ ⟨_, rfl, ?_⟩⟩
          rw [List.mem_singleton.1 hs, hsignal]
          exact hafter.symm
    cases a with
    | call => exact writer rfl
    | sealScript => exact writer rfl
    | expire =>
      cases hstep.1 with
      | expire => exact ⟨[], (List.append_nil _).symm, nofun⟩
    | openScript i args delivery result =>
      exact ⟨[], by rw [hstep.1.open_effect.1, List.append_nil], nofun⟩

end Runs

section Samples

variable [DecidableEq ι] (tonumber : Nat → Nat) (σ : LiveState ι) (i : ι)

/-- The state after the first script of a call. -/
def LiveState.afterCall (call : LiveCall) (env : CallEnv) : LiveState ι :=
  let next := (σ.streams i).firstScript tonumber σ.redis env call
  σ.set i next.1 next.2.1 next.2.2.second

/-- The state after the script of an `open`. -/
def LiveState.afterOpen (args : LiveOpen) (delivery : Delivery) : LiveState ι :=
  let next := (σ.streams i).openScript tonumber σ.redis delivery args
  { σ.set i next.1 next.2.1 none with
    lastOpen := if opens tonumber σ.redis delivery args then some (i, args) else σ.lastOpen }

variable {tonumber σ i}

theorem liveStep_afterCall (call : LiveCall) (env : CallEnv) (hidle : σ.second i = none) :
    LiveStep tonumber σ (.call i call env) (σ.afterCall tonumber i call env) := .call hidle rfl

theorem liveStep_afterOpen {args : LiveOpen} {delivery : Delivery}
    {result : Except LiveTextError Unit} (hsecond : σ.second i = some (.open args))
    (h : ((σ.streams i).openScript tonumber σ.redis delivery args).2.2 = result) :
    LiveStep tonumber σ (.openScript i args delivery result)
      (σ.afterOpen tonumber i args delivery) := .openScript hsecond (h ▸ rfl)

/-- `live_open` on a stream with nothing to flush. -/
theorem run_open {args : LiveOpen} {env : CallEnv} {delivery : Delivery}
    {result : Except LiveTextError Unit} (hidle : σ.second i = none)
    (hsecond : (σ.afterCall tonumber i (.open args) env).second i = some (.open args))
    (h : (((σ.afterCall tonumber i (.open args) env).streams i).openScript tonumber
      (σ.afterCall tonumber i (.open args) env).redis delivery args).2.2 = result) :
    Run (LiveStep tonumber) σ [.call i (.open args) env, .openScript i args delivery result]
      ((σ.afterCall tonumber i (.open args) env).afterOpen tonumber i args delivery) :=
  .snoc (l := [_]) (.single (liveStep_afterCall _ _ hidle)) (liveStep_afterOpen hsecond h)

end Samples

/-- A call that Redis answers. -/
def answeredEnv : CallEnv := ⟨0, 0, .answered⟩

/-- The `open` of the old worker, and that of the new one after it. -/
def oldOpen : LiveOpen := ⟨"t", "m", 1, "old"⟩

@[inherit_doc oldOpen]
def newOpen : LiveOpen := ⟨"t", "m", 2, "new"⟩

/-- The old worker (`false`) has opened the text. -/
def openedOnce : LiveState Bool :=
  (LiveState.initial.afterCall id false (.open oldOpen) answeredEnv).afterOpen id false oldOpen
    .answered

/-- The worker `i` has opened it again. -/
def openedAgain (i : Bool) (args : LiveOpen) (delivery : Delivery) : LiveState Bool :=
  (openedOnce.afterCall id i (.open args) answeredEnv).afterOpen id i args delivery

/-- The old worker writes on. -/
def oldReplace : LiveCall := .replace "t" "m" "old text"

theorem run_openedOnce : Run (LiveStep id) (.initial : LiveState Bool)
    [.call false (.open oldOpen) answeredEnv, .openScript false oldOpen .answered (.ok ())]
    openedOnce := run_open rfl (by decide +kernel) (by decide +kernel)

theorem run_openedAgain : Run (LiveStep id) openedOnce
    [.call true (.open newOpen) answeredEnv, .openScript true newOpen .answered (.ok ())]
    (openedAgain true newOpen .answered) := run_open rfl (by decide +kernel) (by decide +kernel)

theorem run_openedLost : Run (LiveStep id) openedOnce
    [.call false (.open newOpen) answeredEnv,
      .openScript false newOpen (.lost true) (.error .indeterminate)]
    (openedAgain false newOpen (.lost true)) := run_open rfl (by decide +kernel) (by decide +kernel)

/-- **A worker that was taken over replaces the text of its successor**, and its signal has the
position of its own `open`. A worker whose `open` lost its answer sends such a signal, too. -/
theorem stale_writer_replaces :
    (∃ (l : List (LiveOp Bool)) (σ τ : LiveState Bool) (s : LiveSignal),
      Run (LiveStep id) .initial (l ++ [.openScript true newOpen .answered (.ok ())]) σ ∧
      LiveStep id σ (.call false oldReplace answeredEnv) τ ∧
      σ.redis.text = some "new" ∧ τ.redis.text = some "old text" ∧
      τ.redis.signals = σ.redis.signals ++ [s] ∧ s.afterSequence = 1 ∧
      τ.redis.liveMeta.map (·.afterSequence) = some 2) ∧
    ∃ (l : List (LiveOp Bool)) (σ τ : LiveState Bool) (s : LiveSignal),
      Run (LiveStep id) .initial l σ ∧ LiveStep id σ (.call false oldReplace answeredEnv) τ ∧
      τ.redis.signals = σ.redis.signals ++ [s] ∧ s.afterSequence = 1 ∧
      τ.redis.liveMeta.map (·.afterSequence) = some 2 := by
  refine ⟨⟨[_, _, _], _, _, ⟨1, 1, "t", "m", "old text", .null⟩,
      run_openedOnce.trans run_openedAgain, liveStep_afterCall _ _ rfl, ?_⟩,
    ⟨_, _, _, ⟨1, 1, "t", "m", "old text", .null⟩, run_openedOnce.trans run_openedLost,
      liveStep_afterCall _ _ rfl, ?_⟩⟩
  · decide +kernel
  · decide +kernel

/-- The new worker opens another message. -/
def otherOpen : LiveOpen := ⟨"t", "m2", 2, "new"⟩

/-- **A worker that was taken over is fenced** when its successor writes another message. -/
theorem fenced_of_disciplined_takeover :
    ∃ (l : List (LiveOp Bool)) (τ : LiveState Bool),
      Run (DisciplinedStep id) .initial l (openedAgain true otherOpen .answered) ∧
      DisciplinedStep id (openedAgain true otherOpen .answered)
        (.call false oldReplace answeredEnv) τ ∧
      τ.redis.text = some "new" := by
  have first : Run (DisciplinedStep id) (.initial : LiveState Bool)
      [.call false (.open oldOpen) answeredEnv, .openScript false oldOpen .answered (.ok ())]
      openedOnce :=
    .snoc (l := [_]) (.single ⟨liveStep_afterCall _ _ rfl, fun p hp ↦ by cases hp⟩)
      ⟨liveStep_afterOpen (by decide +kernel) (by decide +kernel), fun _ ↦ rfl⟩
  have second : Run (DisciplinedStep id) openedOnce
      [.call true (.open otherOpen) answeredEnv, .openScript true otherOpen .answered (.ok ())]
      (openedAgain true otherOpen .answered) :=
    .snoc (l := [_]) (.single ⟨liveStep_afterCall _ _ rfl, fun p hp ↦ by cases hp⟩)
      ⟨liveStep_afterOpen (by decide +kernel) (by decide +kernel), fun _ ↦ rfl⟩
  have hlast : (openedAgain true otherOpen .answered).lastOpen = some (true, otherOpen) := by
    decide +kernel
  have hstep : DisciplinedStep id (openedAgain true otherOpen .answered)
      (.call false oldReplace answeredEnv)
      ((openedAgain true otherOpen .answered).afterCall id false oldReplace answeredEnv) := by
    refine ⟨liveStep_afterCall _ _ rfl, ?_⟩
    rintro p hp ⟨j, args, hopen, -, hidentity⟩
    cases hlast.symm.trans hopen
    cases hp
    exact absurd hidentity (by decide)
  have hfenced := (fenced_of_disciplined (first.trans second) hstep).1 [_, _, _] [] true false
    otherOpen .answered rfl (by decide) nofun rfl
  refine ⟨_, _, first.trans second, hstep, ?_⟩
  rw [hfenced.1]
  decide +kernel

end Centaeris.Live
