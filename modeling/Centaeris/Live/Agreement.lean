import Centaeris.Live.Turns
import Centaeris.Relational.Run

/-!
# Live text and memory

Before a run ends it compares the live text with the last response in memory. They agree as long as
both accumulators are told the same (`Mirrors`): a token and a replacement change both, a seal takes the
live text away, and an `open` starts it anew.

The last of these is where they part. A second model request of a turn opens the live text with its
initial content, while the response in memory goes on with what it has (`restart_diverges`). Also, a
start or a replacement that memory refuses still goes to the stream. `live_text_agrees` has the runs
without these.
-/

namespace Centaeris.Live

variable {tonumber : Nat → Nat}

/-! ### The stream has the text of memory -/

/-- If there is a live text, the stream has the text of memory, and what is not pending is flushed. -/
structure Mirrors (memory : String) (w : TransientAgentRunStream) (r : LiveRedis) : Prop where
  text : r.liveMeta.isSome → w.liveText = memory
  flushed : ∀ text, r.text = some text →
    r.liveMeta.isSome ∧ (w.pendingLive = none → text = w.liveText)

/-- What a call makes of the text. -/
def LiveCall.textAfter (memory : String) : LiveCall → String
  | replace _ _ fullText => fullText
  | appendDelta _ _ delta => memory ++ delta
  | «open» args => args.initialText
  | flush | reasoning _ _ _ | sealBefore _ _ _ | settle _ _ _ => memory

section Calls

variable {memory : String} {w w' : TransientAgentRunStream} {r r' : LiveRedis} {env : CallEnv}

theorem invoke_ok {delivery : Delivery} {m : LiveMutation} {reply : LiveReply}
    (h : invoke tonumber delivery r m = (r', .ok reply)) :
    liveTextMutate tonumber r m = .ok (r', reply) := by
  unfold invoke at h
  split at h
  · rename_i hmutate
    cases h
    exact hmutate
  · cases h
  · cases h
  · cases h

/-- **A flush that succeeds**: nothing is pending, or the text of the stream is now in Redis. -/
theorem liveFlush_ok (h : w.liveFlush tonumber r env = (w', r', .ok ())) :
    w.pendingLive = none ∧ w' = w ∧ r' = r ∨
      r.liveMeta.isSome ∧ r'.liveMeta.isSome ∧ r'.text = some w.liveText ∧
        w'.liveText = w.liveText ∧ w'.pendingLive = none := by
  unfold TransientAgentRunStream.liveFlush at h
  split at h
  · rename_i hpending
    cases h
    exact .inl ⟨hpending, rfl, rfl⟩
  · rename_i pending hpending
    split_ifs at h
    · cases h
    split at h
    · cases h
    · rename_i hinvoke
      cases h
      have hmutate := invoke_ok hinvoke
      simp only [TransientAgentRunStream.replacement, liveTextMutate] at hmutate
      split at hmutate
      · cases hmutate
      · rename_i hmeta
        split_ifs at hmutate
        cases hmutate
        exact .inr ⟨by rw [hmeta]; rfl, rfl, rfl, rfl, rfl⟩

theorem Mirrors.flush (h : Mirrors memory w r) (hflush : w.liveFlush tonumber r env = (w', r', .ok ())) :
    Mirrors memory w' r' ∧ w'.pendingLive = none := by
  rcases liveFlush_ok hflush with ⟨hpending, rfl, rfl⟩ | ⟨hmeta, hmeta', htext, hsame, hpending⟩
  · exact ⟨h, hpending⟩
  · refine ⟨⟨fun _ ↦ hsame.trans (h.text hmeta), fun text hfound ↦ ⟨hmeta', fun _ ↦ ?_⟩⟩, hpending⟩
    rw [hsame]
    exact Option.some.inj (hfound.symm.trans htext)

theorem Mirrors.flushIfDue (h : Mirrors memory w r)
    (hflush : w.flushLiveIfDue tonumber r env = (w', r', .ok ())) : Mirrors memory w' r' := by
  unfold TransientAgentRunStream.flushLiveIfDue at hflush
  split_ifs at hflush
  · exact (h.flush hflush).1
  · cases hflush
    exact h

/-- What is buffered is pending. -/
theorem Mirrors.buffer (h : Mirrors memory w r) {memory' : String}
    (htext : w.liveText = memory → w'.liveText = memory') (hpending : w'.pendingLive ≠ none) :
    Mirrors memory' w' r :=
  ⟨fun hmeta ↦ htext (h.text hmeta), fun text hfound ↦
    ⟨(h.flushed text hfound).1, fun hnone ↦ absurd hnone hpending⟩⟩

theorem Mirrors.opened {delivery : Delivery} {args : LiveOpen}
    (hopen : w.openScript tonumber r delivery args = (w', r', .ok ())) :
    Mirrors args.initialText w' r' := by
  unfold TransientAgentRunStream.openScript at hopen
  split at hopen
  · rename_i hinvoke
    cases hopen
    have hmutate := invoke_ok hinvoke
    simp only [LiveOpen.mutation, liveTextMutate] at hmutate
    split_ifs at hmutate
    cases hmutate
    exact ⟨fun _ ↦ rfl, fun text hfound ↦ ⟨rfl, fun _ ↦ (Option.some.inj hfound).symm⟩⟩
  · cases hopen

/-- There is no live text. -/
theorem Mirrors.gone (htext : r.text = none) (hmeta : r.liveMeta = none) : Mirrors memory w r :=
  ⟨fun hsome ↦ absurd hsome (by simp [hmeta]), fun text hfound ↦ absurd (htext.symm.trans hfound) nofun⟩

/-- A seal takes the live text away, or it changes nothing. -/
theorem liveTextMutate_seal_cases {turnId messageId : String} {revision : Nat} {reply : LiveReply}
    (h : liveTextMutate tonumber r (.seal turnId messageId revision) = .ok (r', reply)) :
    r'.text = none ∧ r'.liveMeta = none ∨ r' = r := by
  simp only [liveTextMutate] at h
  split at h
  · cases h
    exact .inr rfl
  · split_ifs at h
    cases h
    exact .inl ⟨rfl, rfl⟩

@[inherit_doc liveTextMutate_seal_cases]
theorem liveTextMutate_sealBefore_cases {turnId messageId : String} {revision committedSequence : Nat}
    {reply : LiveReply} (h : liveTextMutate tonumber r
      (.sealBefore turnId messageId revision committedSequence) = .ok (r', reply)) :
    r'.text = none ∧ r'.liveMeta = none ∨ r' = r ∧ reply ≠ .deleted := by
  simp only [liveTextMutate] at h
  split at h
  · cases h
    exact .inr ⟨rfl, nofun⟩
  · split_ifs at h
    · cases h
      exact .inr ⟨rfl, nofun⟩
    · cases h
      exact .inr ⟨rfl, nofun⟩
    · cases h
      exact .inl ⟨rfl, rfl⟩

theorem Mirrors.sealBefore (h : Mirrors memory w r) {delivery : Delivery} {turnId messageId : String}
    {committedSequence : Nat} {deleted : Bool}
    (hseal : w.sealScript tonumber r delivery turnId messageId committedSequence =
      (w', r', .ok deleted)) : Mirrors memory w' r' := by
  have hkept : ∀ {reply : LiveReply}, invoke tonumber delivery r
      (.sealBefore turnId messageId w.liveRevision committedSequence) = (r', .ok reply) →
      Mirrors memory w r' := by
    intro reply hinvoke
    rcases liveTextMutate_sealBefore_cases (invoke_ok hinvoke) with ⟨htext, hmeta⟩ | ⟨rfl, -⟩
    · exact .gone htext hmeta
    · exact h
  unfold TransientAgentRunStream.sealScript at hseal
  split at hseal
  · rename_i hinvoke
    cases hseal
    rcases liveTextMutate_sealBefore_cases (invoke_ok hinvoke) with ⟨htext, hmeta⟩ | ⟨-, hreply⟩
    · exact .gone htext hmeta
    · exact absurd rfl hreply
  · rename_i hinvoke
    cases hseal
    exact hkept hinvoke
  · rename_i hinvoke
    cases hseal
    exact hkept hinvoke
  · cases hseal
  · cases hseal

/-- The call that waits to run its second script. -/
def SecondScript.call : SecondScript → LiveCall
  | «open» args => .open args
  | sealBefore turnId messageId committedSequence => .sealBefore turnId messageId committedSequence

/-- The first script of a call leaves the text of memory, or the call is done. -/
theorem Mirrors.firstScript (h : Mirrors memory w r) {call : LiveCall} {outcome : CallOutcome}
    (hfirst : w.firstScript tonumber r env call = (w', r', outcome)) :
    (outcome = .returned (.ok ()) → Mirrors (call.textAfter memory) w' r') ∧
      ∀ second, outcome = .continues second → call = second.call ∧ Mirrors memory w' r' := by
  -- three calls buffer something and then flush it if it is time
  have hbuffered (flushed) (hflush : (w.buffered call).flushLiveIfDue tonumber r env = flushed) :
      Mirrors (call.textAfter memory) (w.buffered call) r →
      (flushed.1, flushed.2.1, CallOutcome.returned flushed.2.2) = (w', r', outcome) →
      (outcome = .returned (.ok ()) → Mirrors (call.textAfter memory) w' r') ∧
        ∀ second, outcome = .continues second → call = second.call ∧ Mirrors memory w' r' := by
    intro hmirrors hcall
    obtain ⟨w₂, r₂, result⟩ := flushed
    cases hcall
    refine ⟨?_, by simp⟩
    rintro ⟨⟩
    exact hmirrors.flushIfDue hflush
  unfold TransientAgentRunStream.firstScript at hfirst
  split at hfirst
  · cases hfirst
    exact ⟨by simp, by simp⟩
  · cases call with
    | flush =>
      rcases hflush : w.liveFlush tonumber r env with ⟨w₂, r₂, result⟩
      dsimp only at hfirst
      rw [hflush] at hfirst
      cases hfirst
      refine ⟨?_, by simp⟩
      rintro ⟨⟩
      exact (h.flush hflush).1
    | replace turnId messageId fullText =>
      exact hbuffered _ rfl (h.buffer (fun _ ↦ rfl) (Option.some_ne_none _)) hfirst
    | appendDelta turnId messageId delta =>
      exact hbuffered _ rfl (h.buffer (fun htext ↦ congrArg (· ++ delta) htext) (Option.some_ne_none _)) hfirst
    | reasoning turnId requestId text =>
      exact hbuffered _ rfl (h.buffer (fun htext ↦ htext) (Option.some_ne_none _)) hfirst
    | «open» args =>
      dsimp only at hfirst
      split at hfirst
      · rename_i hflush
        cases hfirst
        refine ⟨by simp, ?_⟩
        rintro _ ⟨⟩
        exact ⟨rfl, (h.flush hflush).1⟩
      · cases hfirst
        exact ⟨by simp, by simp⟩
    | sealBefore turnId messageId committedSequence =>
      dsimp only at hfirst
      split at hfirst
      · rename_i hflush
        cases hfirst
        refine ⟨by simp, ?_⟩
        rintro _ ⟨⟩
        exact ⟨rfl, (h.flush hflush).1⟩
      · cases hfirst
        exact ⟨by simp, by simp⟩
    | settle turnId messageId revision =>
      dsimp only at hfirst
      split at hfirst
      · rename_i hinvoke
        cases hfirst
        refine ⟨fun _ ↦ ?_, by simp⟩
        rcases liveTextMutate_seal_cases (invoke_ok hinvoke) with ⟨htext, hmeta⟩ | rfl
        · exact .gone htext hmeta
        · exact h
      · cases hfirst
        exact ⟨by simp, by simp⟩

/-- **A call that succeeds.** -/
theorem Mirrors.perform (h : Mirrors memory w r) {env : HandlerEnv} {call : LiveCall}
    (hcall : w.perform tonumber r env call = (w', r', .ok ())) :
    Mirrors (call.textAfter memory) w' r' := by
  unfold TransientAgentRunStream.perform at hcall
  split at hcall
  · rename_i hfirst
    cases hcall
    exact (h.firstScript hfirst).1 rfl
  · rename_i hfirst
    obtain ⟨rfl, -⟩ := (h.firstScript hfirst).2 _ rfl
    exact .opened hcall
  · rename_i w₁ r₁ turnId messageId committedSequence hfirst
    obtain ⟨rfl, hmirrors⟩ := (h.firstScript hfirst).2 _ rfl
    rcases hseal : w₁.sealScript tonumber r₁ env.second turnId messageId committedSequence with
      ⟨w₂, r₂, result⟩
    rw [hseal] at hcall
    cases result with
    | error e => cases hcall
    | ok deleted =>
      cases hcall
      exact hmirrors.sealBefore hseal

end Calls

section Memory

variable {p p' : AssistantTextProjection} {turnId : String}

theorem memoryText_concat (responses : List AssistantResponse) (response : AssistantResponse) :
    AssistantTextProjection.memoryText ⟨responses ++ [response]⟩ = response.text := by
  rw [AssistantTextProjection.memoryText, List.getLast?_concat]
  rfl

theorem updateCurrent_ok {f : AssistantResponse → AssistantResponse}
    (h : p.updateCurrent turnId f = .ok p') :
    ∃ response, p.responses.getLast? = some response ∧ p.memoryText = response.text ∧
      p'.memoryText = (f response).text := by
  unfold AssistantTextProjection.updateCurrent at h
  split at h
  · rename_i response hlast
    split_ifs at h
    cases h
    refine ⟨response, hlast, ?_, memoryText_concat _ _⟩
    rw [AssistantTextProjection.memoryText, hlast]
    rfl
  · cases h

/-- The flags of a response are not its text. -/
theorem updateCurrent_memoryText {f : AssistantResponse → AssistantResponse}
    (hf : ∀ response, (f response).text = response.text) (h : p.updateCurrent turnId f = .ok p') :
    p'.memoryText = p.memoryText := by
  obtain ⟨response, -, hbefore, hafter⟩ := updateCurrent_ok h
  rw [hafter, hf, hbefore]

theorem pushToken_memoryText {content : String} (h : p.pushToken turnId content = .ok p') :
    p'.memoryText = p.memoryText ++ content := by
  obtain ⟨response, -, hbefore, hafter⟩ := updateCurrent_ok h
  rw [hafter, hbefore]

end Memory

/-! ### Runs -/

/-- **The condition**, on the state that an update finds: a start opens a new response, or it goes on
with the text that memory has; and a replacement is for the current response. -/
def LiveRun.agreeing (s : LiveRun) : TurnEvent → Bool
  | .modelRequestStart turnId initialContent => s.assistantText.responses.getLast?.all fun response ↦
      if response.turnId = turnId then decide (initialContent = response.text) else response.done
  | .replaceContent turnId _ =>
    s.assistantText.responses.getLast?.any fun response ↦ decide (response.turnId = turnId)
  | _ => true

/-- Unless a live error was reported, the stream has the text. -/
def Follows (memory : String) (s : LiveRun) : Prop :=
  s.reported = [] → s.liveDegraded = false ∧ ∀ w, s.stream = some w → Mirrors memory w s.redis

section Runs

variable {memory : String} {s t : LiveRun} {env : HandlerEnv}

/-- A live call, seen from the run. -/
theorem Follows.callStream (h : Follows memory s) (call : LiveCall) :
    Follows (call.textAfter memory) (s.callStream tonumber env call).1 ∧
      ((s.callStream tonumber env call).1.reported = [] → (s.callStream tonumber env call).2 = none) := by
  unfold LiveRun.callStream
  split
  · rename_i hnone
    refine ⟨fun hreported ↦ ⟨(h hreported).1, fun w hw ↦ ?_⟩, fun _ ↦ rfl⟩
    cases hnone.symm.trans hw
  · rename_i w hw
    split
    · rename_i hcall
      refine ⟨fun hreported ↦ ⟨(h hreported).1, ?_⟩, fun _ ↦ rfl⟩
      rintro _ ⟨⟩
      exact ((h hreported).2 w hw).perform hcall
    · exact ⟨fun hreported ↦ absurd hreported (by simp), fun hreported ↦ absurd hreported (by simp)⟩

theorem Follows.live (h : Follows memory s) (call : LiveCall) :
    Follows (call.textAfter memory) (s.live tonumber env call) := by
  unfold LiveRun.live
  split_ifs with hdegraded
  · exact fun hreported ↦ absurd ((h hreported).1.symm.trans hdegraded) nofun
  · intro hreported
    obtain ⟨hfollows, herror⟩ : Follows _ (s.callStream tonumber env call).1 ∧ _ := h.callStream call
    refine ⟨?_, (hfollows hreported).2⟩
    show Option.isSome _ = false
    rw [herror hreported]
    rfl

theorem Follows.note (h : Follows memory s) (result : Except String AssistantTextProjection) :
    Follows memory (s.note result) := by
  cases result with
  | error => exact h
  | ok => exact h

theorem Follows.publishCommitWake (h : Follows memory s) (receipt : List Session.CommittedSessionRecord) :
    Follows memory (s.publishCommitWake projects env receipt) := by
  unfold LiveRun.publishCommitWake
  split_ifs
  · exact h
  · exact fun hreported ↦ ⟨(h hreported).1, nofun⟩

theorem Follows.acceptSessionCommit (h : Follows memory s)
    (receipt : List Session.CommittedSessionRecord) :
    Follows memory (s.acceptSessionCommit tonumber projects env receipt) := by
  unfold LiveRun.acceptSessionCommit
  split
  · exact h
  · rename_i last _
    have hposition : Follows memory (s.acceptPosition last.sequence) := h
    refine Follows.publishCommitWake ?_ receipt
    split
    · exact hposition
    · exact (hposition.callStream _).1

/-! #### What the handlers leave in memory -/

@[simp] theorem callStream_assistantText (s : LiveRun) (call : LiveCall) :
    (s.callStream tonumber env call).1.assistantText = s.assistantText := by
  unfold LiveRun.callStream
  split
  · rfl
  · split
    · rfl
    · rfl

@[simp] theorem live_assistantText (s : LiveRun) (call : LiveCall) :
    (s.live tonumber env call).assistantText = s.assistantText := by
  unfold LiveRun.live
  split_ifs
  · rfl
  · exact callStream_assistantText s call

@[simp] theorem publishCommitWake_assistantText (s : LiveRun)
    (receipt : List Session.CommittedSessionRecord) :
    (s.publishCommitWake projects env receipt).assistantText = s.assistantText := by
  unfold LiveRun.publishCommitWake
  split_ifs
  · rfl
  · rfl

theorem acceptSessionCommit_assistantText (s : LiveRun)
    (receipt : List Session.CommittedSessionRecord) :
    (s.acceptSessionCommit tonumber projects env receipt).assistantText = s.assistantText := by
  unfold LiveRun.acceptSessionCommit
  split
  · rfl
  · rw [publishCommitWake_assistantText]
    split
    · rfl
    · exact callStream_assistantText _ _

/-- The text of memory after a change that keeps it. -/
theorem note_memoryText {turnId : String} {f : AssistantResponse → AssistantResponse}
    (hf : ∀ response, (f response).text = response.text) (ht : t.assistantText = s.assistantText) :
    (t.note (s.assistantText.updateCurrent turnId f)).assistantText.memoryText =
      s.assistantText.memoryText := by
  cases hresult : s.assistantText.updateCurrent turnId f with
  | error => exact congrArg AssistantTextProjection.memoryText ht
  | ok => exact updateCurrent_memoryText hf hresult

/-- A start that meets the condition leaves its initial content in memory. -/
theorem start_memoryText {turnId initialContent : String}
    (h : s.agreeing (.modelRequestStart turnId initialContent) = true) :
    (s.note (s.assistantText.beginModelRequest turnId initialContent)).assistantText.memoryText =
      initialContent := by
  unfold AssistantTextProjection.beginModelRequest
  split_ifs with hsame hopen
  · -- the response of the turn goes on
    obtain ⟨response, hlast, hturn⟩ := (Option.any_eq_true _ _).1 hsame
    have hcontent := (Option.all_eq_true _ _).1 h response hlast
    rw [if_pos (of_decide_eq_true hturn)] at hcontent
    show s.assistantText.memoryText = initialContent
    rw [AssistantTextProjection.memoryText, hlast, of_decide_eq_true hcontent]
    rfl
  · -- the response before is not done, which the condition excludes
    obtain ⟨response, hlast, hdone⟩ := (Option.any_eq_true _ _).1 hopen
    have hother : response.turnId ≠ turnId := fun hturn ↦
      hsame ((Option.any_eq_true _ _).2 ⟨response, hlast, decide_eq_true hturn⟩)
    have hcontent := (Option.all_eq_true _ _).1 h response hlast
    rw [if_neg hother] at hcontent
    rw [hcontent] at hdone
    cases hdone
  · exact memoryText_concat _ _

/-- A replacement that meets the condition leaves its content in memory. -/
theorem replace_memoryText {turnId content : String}
    (h : s.agreeing (.replaceContent turnId content) = true) :
    (s.note (s.assistantText.replaceContent turnId content)).assistantText.memoryText = content := by
  obtain ⟨response, hlast, hturn⟩ := (Option.any_eq_true _ _).1 h
  rw [AssistantTextProjection.replaceContent, AssistantTextProjection.updateCurrent, hlast]
  show (s.note (if response.turnId = turnId then _ else _)).assistantText.memoryText = content
  rw [if_pos (of_decide_eq_true hturn)]
  exact memoryText_concat _ _

/-- **One update.** -/
theorem Follows.handle (h : Follows s.assistantText.memoryText s) {e : TurnEvent}
    (he : s.agreeing e = true) :
    Follows (s.handle tonumber projects env e).assistantText.memoryText
      (s.handle tonumber projects env e) := by
  cases e with
  | reasoning turnId requestId text =>
    show Follows (s.live tonumber env _).assistantText.memoryText _
    rw [live_assistantText]
    exact h.live _
  | modelRequestStart turnId initialContent =>
    show Follows (LiveRun.live tonumber _ env _).assistantText.memoryText _
    rw [live_assistantText, start_memoryText he]
    exact (h.note _).live (.open ⟨turnId, _, s.committedSessionSequence, initialContent⟩)
  | toolCallReady turnId =>
    have hmemory : ((s.live tonumber env .flush).note
        (s.assistantText.markToolCall turnId)).assistantText.memoryText = s.assistantText.memoryText :=
      note_memoryText (f := fun response ↦ { response with hasToolCall := true }) (fun _ ↦ rfl)
        (live_assistantText _ _)
    rw [LiveRun.handle, hmemory]
    exact (h.live .flush).note _
  | token turnId content =>
    cases hpush : s.assistantText.pushToken turnId content with
    | error error =>
      have hhandle : s.handle tonumber projects env (.token turnId content) = s.note (.error error) := by
        rw [LiveRun.handle, hpush]
      rw [hhandle]
      exact h
    | ok assistantText =>
      have hhandle : s.handle tonumber projects env (.token turnId content) =
          LiveRun.live tonumber { s with assistantText } env
            (.appendDelta turnId (assistantMessageId turnId) content) := by
        rw [LiveRun.handle, hpush]
      rw [hhandle, live_assistantText]
      show Follows assistantText.memoryText _
      rw [pushToken_memoryText hpush]
      exact (h.note (.ok assistantText)).live (.appendDelta turnId _ content)
  | replaceContent turnId content =>
    show Follows (LiveRun.live tonumber _ env _).assistantText.memoryText _
    rw [live_assistantText, replace_memoryText he]
    exact (h.note _).live (.replace turnId _ content)
  | modelDone turnId =>
    have hmemory : (s.note (s.assistantText.finishModelRequest turnId)).assistantText.memoryText =
        s.assistantText.memoryText :=
      note_memoryText (f := fun response ↦ { response with done := true }) (fun _ ↦ rfl) rfl
    rw [LiveRun.handle, live_assistantText, hmemory]
    exact (h.note _).live .flush
  | runtimeError message =>
    show Follows (s.live tonumber env .flush).assistantText.memoryText _
    rw [live_assistantText]
    exact (h.live .flush).note _
  | flush =>
    show Follows (s.live tonumber env .flush).assistantText.memoryText _
    rw [live_assistantText]
    exact h.live .flush
  | commit receipt =>
    show Follows (s.acceptSessionCommit tonumber projects env receipt).assistantText.memoryText _
    rw [acceptSessionCommit_assistantText]
    exact h.acceptSessionCommit receipt
  | phase turnId committedSequence receipt =>
    cases hlast : receipt.getLast? with
    | none =>
      rw [LiveRun.handle, hlast]
      exact h
    | some last =>
      have hposition : Follows s.assistantText.memoryText (s.acceptPosition last.sequence) := h
      have hhandle : s.handle tonumber projects env (.phase turnId committedSequence receipt) =
          ((s.acceptPosition last.sequence).settleLiveBeforeSequence tonumber env turnId
            committedSequence).publishCommitWake projects env receipt := by
        rw [LiveRun.handle, hlast]
      rw [hhandle, publishCommitWake_assistantText, LiveRun.settleLiveBeforeSequence,
        callStream_assistantText]
      exact Follows.publishCommitWake (hposition.callStream _).1 receipt

theorem callStream_flush_pendingLive {w : TransientAgentRunStream}
    (hreported : (s.callStream tonumber env .flush).1.reported = [])
    (hw : (s.callStream tonumber env .flush).1.stream = some w) : w.pendingLive = none := by
  have hperform : ∀ w : TransientAgentRunStream,
      w.perform tonumber s.redis env .flush = w.liveFlush tonumber s.redis env.call := fun _ ↦ rfl
  cases hstream : s.stream with
  | none =>
    rw [LiveRun.callStream, hstream] at hw
    cases hstream.symm.trans hw
  | some w₀ =>
    rcases hflush : w₀.liveFlush tonumber s.redis env.call with ⟨w₁, redis, result⟩
    simp only [LiveRun.callStream, hstream, hperform, hflush] at hreported hw
    cases result with
    | error error => simp at hreported
    | ok =>
      cases hw
      rcases liveFlush_ok hflush with ⟨hpending, rfl, -⟩ | ⟨-, -, -, -, hpending⟩
      · exact hpending
      · exact hpending

/-- After a flush that goes well nothing is pending. -/
theorem flush_pendingLive (h : Follows memory s)
    (hreported : (s.live tonumber env .flush).reported = []) {w : TransientAgentRunStream}
    (hw : (s.live tonumber env .flush).stream = some w) : w.pendingLive = none := by
  unfold LiveRun.live at hreported hw
  split_ifs at hreported hw with hdegraded
  · exact absurd ((h hreported).1.symm.trans hdegraded) nofun
  · exact callStream_flush_pendingLive hreported hw

end Runs

/-- The updates of a run. -/
def HandleStep (tonumber : Nat → Nat) (projects : Session.SessionRecordType → Bool) (s : LiveRun)
    (a : HandlerEnv × TurnEvent) (t : LiveRun) : Prop :=
  s.handle tonumber projects a.1 a.2 = t

/-- An update that meets the condition. -/
def AgreeingStep (tonumber : Nat → Nat) (projects : Session.SessionRecordType → Bool) (s : LiveRun)
    (a : HandlerEnv × TurnEvent) (t : LiveRun) : Prop :=
  HandleStep tonumber projects s a t ∧ s.agreeing a.2 = true

/-- **The live text is the text in memory.** In every run whose starts and replacements meet the
condition, after a flush, if the run has its stream and no live call has failed. -/
theorem live_text_agrees {projects : Session.SessionRecordType → Bool} {committedSessionSequence : Nat}
    {signals : List LiveSignal} {events : List (HandlerEnv × TurnEvent)} {s : LiveRun}
    (h : Run (AgreeingStep tonumber projects) (.start committedSessionSequence signals) events s)
    (env : HandlerEnv) (hstream : (s.live tonumber env .flush).stream.isSome)
    (hreported : (s.live tonumber env .flush).reported = []) :
    ∀ text, (s.live tonumber env .flush).redis.text = some text →
      text = (s.live tonumber env .flush).assistantText.memoryText := by
  have hinv : Follows s.assistantText.memoryText s := by
    refine h.invariant (I := fun s ↦ Follows s.assistantText.memoryText s) ?_ ?_
    · refine fun _ ↦ ⟨rfl, ?_⟩
      rintro _ ⟨⟩
      exact .gone rfl rfl
    · rintro s ⟨env, e⟩ t hfollows ⟨rfl, he⟩
      exact hfollows.handle he
  obtain ⟨w, hw⟩ := Option.isSome_iff_exists.1 hstream
  intro text htext
  have hfollows : Follows s.assistantText.memoryText (s.live tonumber env .flush) := hinv.live .flush
  have hmirrors := (hfollows hreported).2 w hw
  obtain ⟨hmeta, hflushed⟩ := hmirrors.flushed text htext
  rw [live_assistantText, hflushed (flush_pendingLive hinv hreported hw)]
  exact hmirrors.text hmeta

/-- Redis answers at a time. -/
def HandlerEnv.answered (now : Nat) : HandlerEnv := ⟨⟨now, now, .answered⟩, .answered, true⟩

/-- A commit of the record of a model request. -/
def requestCommit (sequence : Nat) : TurnEvent :=
  .commit [⟨sequence, "record", .modelRequestStarted, "session", some "turn", none, 0, .null⟩]

/-- A second request that goes on with the text of the first one. -/
theorem live_text_agrees_continued :
    ∃ s, Run (AgreeingStep id fun _ ↦ false) (.start 0 [])
        [(.answered 0, .modelRequestStart "turn" ""), (.answered 1, .token "turn" "a"),
          (.answered 2, requestCommit 1), (.answered 3, .modelRequestStart "turn" "a"),
          (.answered 4, .token "turn" "b")] s ∧
      (s.live id (.answered 5) .flush).redis.text = some "ab" ∧
      ∀ text, (s.live id (.answered 5) .flush).redis.text = some text →
        text = (s.live id (.answered 5) .flush).assistantText.memoryText := by
  have hrun : Run (AgreeingStep id fun _ ↦ false) (.start 0 []) _ _ :=
    .cons (a := (.answered 0, .modelRequestStart "turn" "")) ⟨rfl, by decide +kernel⟩
      (.cons (a := (.answered 1, .token "turn" "a")) ⟨rfl, by decide +kernel⟩
        (.cons (a := (.answered 2, requestCommit 1)) ⟨rfl, by decide +kernel⟩
          (.cons (a := (.answered 3, .modelRequestStart "turn" "a")) ⟨rfl, by decide +kernel⟩
            (.single (a := (.answered 4, .token "turn" "b")) ⟨rfl, by decide +kernel⟩))))
  exact ⟨_, hrun, by decide +kernel,
    live_text_agrees hrun (.answered 5) (by decide +kernel) (by decide +kernel)⟩

/-- **A second request that starts over parts the two.** The live text is the initial content, and memory
goes on with the text of the first request. No call fails. -/
theorem restart_diverges :
    ∃ events s, Run (HandleStep id fun _ ↦ false) (.start 0 []) events s ∧
      (s.live id (.answered 4) .flush).stream.isSome ∧
      (s.live id (.answered 4) .flush).reported = [] ∧
      (s.live id (.answered 4) .flush).streamError = none ∧
      (s.live id (.answered 4) .flush).redis.text = some "" ∧
      (s.live id (.answered 4) .flush).assistantText.memoryText = "a" := by
  have hrun : Run (HandleStep id fun _ ↦ false) (.start 0 []) _ _ :=
    .cons (a := (.answered 0, .modelRequestStart "turn" "")) rfl
      (.cons (a := (.answered 1, .token "turn" "a")) rfl
        (.cons (a := (.answered 2, requestCommit 1)) rfl
          (.single (a := (.answered 3, .modelRequestStart "turn" "")) rfl)))
  exact ⟨_, _, hrun, by decide +kernel⟩

end Centaeris.Live
