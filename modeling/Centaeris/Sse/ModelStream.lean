import Centaeris.Base.JsonText
import Centaeris.Sse.FrameDecoder

/-!
# The answer of a model, as a stream

`call_api_stream` reads the frames of a model stream as events: it passes on the text as it comes and keeps the
result, which has to be the last event and to say the same text. What the sink is told and what is returned
does not depend on the chunks in which the stream arrives (`callApiStream_of_flatten`), and an answer that is
accepted is the text that the sink has seen (`tokens_of_callApiStream`).
-/

namespace Centaeris.Sse

/-- `ModelClientErrorKind`, as far as it is used. -/
inductive ModelClientErrorKind
  | invalidRequest
  | provider
  | providerResponseInterrupted
  deriving DecidableEq

/-- `ModelClientError`. -/
structure ModelClientError where
  kind : ModelClientErrorKind
  message : String
  retryable : Bool
  deriving DecidableEq

/-- The error of a stream that breaks the protocol, or breaks off. -/
def interrupted (message : String) (retryable : Bool) : ModelClientError :=
  ⟨.providerResponseInterrupted, message, retryable⟩

/-- `ToolCallEnvelope`. -/
structure ToolCall where
  id : String
  name : String
  argsJson : String
  deriving DecidableEq

/-- `ModelClientStreamEvent`. -/
inductive StreamEvent
  | reasoning (text : String)
  | token (content : String)
  | toolCallReady (call : ToolCall)
  deriving DecidableEq

/-- What the stream uses of the result: how it is decoded, its text, and the response that is made of it. -/
structure ResultCodec (ρ σ : Type) where
  /-- `serde_json::from_value::<ModelRunResponse>`. -/
  decode : List (String × Json) → Option ρ
  text : ρ → String
  /-- `model_response`. -/
  modelResponse : ρ → Except ModelClientError σ
  toolCalls : σ → List ToolCall

variable {ρ σ : Type}

/-- The variables of the loop over the frames, and the events that the sink has been given. -/
structure Progress (ρ : Type) where
  streamedText : String
  result : Option ρ
  terminalReceived : Bool
  sunk : List StreamEvent

/-- Before the first frame. -/
def Progress.start : Progress ρ := ⟨"", none, false, []⟩

variable (codec : ResultCodec ρ σ)

/-- One frame. -/
def onFrame (p : Progress ρ) (data : String) : Except ModelClientError (Progress ρ) := do
  let event ← Except.okOr (JsonText.loads data.toList)
    (interrupted "decode api model stream event failed" false)
  Except.require (p.terminalReceived = false)
    (interrupted "api model stream emitted an event after result" false)
  Except.require ((event.get? "schema").bind Json.asStr? = some "api.model.stream.v1")
    (interrupted "api model stream schema mismatch" false)
  match (event.get? "type").bind Json.asStr? with
  | some "reasoning" =>
    Except.require ((event.asObject?.map List.length) = some 3)
      (interrupted "api reasoning fields mismatch" false)
    let text ← Except.okOr ((event.get? "text").bind Json.asStr?)
      (interrupted "api reasoning text is invalid" false)
    return { p with
      sunk := p.sunk ++ [.reasoning text] }
  | some "delta" =>
    let delta ← Except.okOr ((event.get? "delta").bind Json.asStr?)
      (interrupted "api model stream delta is missing" false)
    return { p with
      streamedText := p.streamedText ++ delta
      sunk := p.sunk ++ [.token delta] }
  | some "result" =>
    let fields := (event.asObject?.getD []).filter fun f ↦ f.1 ≠ "schema" ∧ f.1 ≠ "type"
    let payload ← Except.okOr (codec.decode fields)
      (interrupted "decode api model stream result failed" false)
    return { p with
      result := some payload
      terminalReceived := true }
  | _ => .error (interrupted "api model stream event type is unsupported" false)

/-- The frames of one push. -/
def onFrames (p : Progress ρ) : List String → Progress ρ × Option ModelClientError
  | [] => (p, none)
  | data :: frames =>
    match onFrame codec p data with
    | .error e => (p, some e)
    | .ok p => onFrames p frames

/-- What `response.chunk()` gives; the list of them ends where the body does. -/
inductive BodyRead
  | chunk (b : List UInt8)
  | failed

/-- The loop over the chunks. -/
def readBody (d : SseFrameDecoder) (p : Progress ρ) :
    List BodyRead → Progress ρ × Except ModelClientError SseFrameDecoder
  | [] => (p, .ok d)
  | .failed :: _ =>
    if p.terminalReceived then (p, .ok d)
    else (p, .error (interrupted "read api model stream failed" true))
  | .chunk b :: reads =>
    match d.push b with
    | .error message => (p, .error (interrupted ("api model stream " ++ message) false))
    | .ok (frames, d) =>
      match onFrames codec p frames with
      | (p, some e) => (p, .error e)
      | (p, none) => readBody d p reads

/-- What is returned after the body, and the calls that the sink is then given. -/
def closeStream (p : Progress ρ) (d : SseFrameDecoder) : Except ModelClientError σ := do
  d.finish.mapError fun message ↦ interrupted ("api model stream " ++ message) true
  let payload ← Except.okOr p.result (interrupted "api model stream ended without result" true)
  Except.require (codec.text payload = p.streamedText)
    (interrupted "api model stream text/result mismatch" false)
  codec.modelResponse payload

/-- `call_api_stream`, after the status of the answer: what the sink is given and what is returned. -/
def callApiStream (reads : List BodyRead) : List StreamEvent × Except ModelClientError σ :=
  match readBody codec .new .start reads with
  | (p, .error e) => (p.sunk, .error e)
  | (p, .ok d) =>
    match closeStream codec p d with
    | .error e => (p.sunk, .error e)
    | .ok response => (p.sunk ++ (codec.toolCalls response).map .toolCallReady, .ok response)

/-! ### Chunks -/

theorem onFrames_append (p : Progress ρ) (l m : List String) :
    onFrames codec p (l ++ m) = match onFrames codec p l with
      | (p, some e) => (p, some e)
      | (p, none) => onFrames codec p m := by
  induction l generalizing p with
  | nil => rfl
  | cons data l ih =>
    rw [List.cons_append, onFrames, onFrames]
    cases onFrame codec p data with
    | error e => rfl
    | ok q => exact ih q

/-- When no push fails, the loop reads all the frames one after the other. -/
theorem readBody_of_pushAll {d d' : SseFrameDecoder} {chunks : List (List UInt8)} {frames : List String}
    (h : d.pushAll chunks = (frames, .ok d')) (p : Progress ρ) :
    readBody codec d p (chunks.map .chunk) = match onFrames codec p frames with
      | (p, some e) => (p, .error e)
      | (p, none) => (p, .ok d') := by
  induction chunks generalizing d frames p with
  | nil =>
    obtain ⟨rfl, hd⟩ := Prod.mk.inj h
    rw [← Except.ok.inj hd]
    rfl
  | cons chunk chunks ih =>
    rw [SseFrameDecoder.pushAll] at h
    rw [List.map_cons, readBody]
    cases hpush : d.push chunk with
    | error e =>
      rw [hpush] at h
      cases h
    | ok x =>
      rw [hpush] at h
      obtain ⟨rfl, hd⟩ := Prod.mk.inj h
      rw [onFrames_append]
      cases hx : onFrames codec p x.1 with
      | mk q e =>
        cases e with
        | some e => simp only [hx]
        | none =>
          simp only [hx]
          exact ih (Prod.ext rfl hd) q

/-- What the sink is given and what is returned does not depend on the chunks in which a body arrives. -/
theorem callApiStream_of_flatten {chunks chunks' : List (List UInt8)} {text : String}
    (h : chunks.flatten = Utf8.bytes text) (h' : chunks'.flatten = Utf8.bytes text) :
    callApiStream codec (chunks.map .chunk) = callApiStream codec (chunks'.map .chunk) := by
  rw [callApiStream, callApiStream, readBody_of_pushAll codec (SseFrameDecoder.pushAll_of_bytes h),
    readBody_of_pushAll codec (SseFrameDecoder.pushAll_of_bytes h')]

/-- A body that is cut inside a character. -/
theorem callApiStream_of_flatten_cut :
    let codec : ResultCodec Unit Unit := ⟨fun _ ↦ none, fun _ ↦ "", fun _ ↦ .ok (), fun _ ↦ []⟩
    callApiStream codec ([[0xC3], [0xA9]].map .chunk) = callApiStream codec ([[0xC3, 0xA9]].map .chunk) :=
  @callApiStream_of_flatten _ _ _ _ _ "é" (by decide +kernel) (by decide +kernel)

/-! ### The text of an answer -/

/-- The text that the sink has been given. -/
def tokens (events : List StreamEvent) : String :=
  String.join (events.filterMap fun
    | .token content => some content
    | _ => none)

theorem tokens_append (l m : List StreamEvent) : tokens (l ++ m) = tokens l ++ tokens m := by
  rw [tokens, List.filterMap_append, String.join_append]
  rfl

theorem tokens_calls (calls : List ToolCall) : tokens (calls.map .toolCallReady) = "" := by
  simp [tokens, String.join]

variable {codec}

/-- A frame leaves the text that has been streamed what the sink has been given. -/
theorem tokens_onFrame {p q : Progress ρ} {data : String} (hp : tokens p.sunk = p.streamedText)
    (h : onFrame codec p data = .ok q) : tokens q.sunk = q.streamedText := by
  obtain ⟨event, -, h⟩ := Except.okOr_bind.1 h
  obtain ⟨-, h⟩ := Except.require_bind.1 h
  obtain ⟨-, h⟩ := Except.require_bind.1 h
  split at h
  · obtain ⟨-, h⟩ := Except.require_bind.1 h
    obtain ⟨text, -, h⟩ := Except.okOr_bind.1 h
    obtain rfl := Except.ok.inj h
    rw [tokens_append, hp]
    exact String.append_empty
  · obtain ⟨delta, -, h⟩ := Except.okOr_bind.1 h
    obtain rfl := Except.ok.inj h
    rw [tokens_append, hp]
    simp [tokens, String.join]
  · obtain ⟨payload, -, h⟩ := Except.okOr_bind.1 h
    obtain rfl := Except.ok.inj h
    exact hp
  · cases h

theorem tokens_onFrames {p q : Progress ρ} {frames : List String} {e : Option ModelClientError}
    (hp : tokens p.sunk = p.streamedText) (h : onFrames codec p frames = (q, e)) :
    tokens q.sunk = q.streamedText := by
  induction frames generalizing p with
  | nil => rwa [← (Prod.mk.inj h).1]
  | cons data frames ih =>
    rw [onFrames] at h
    cases hframe : onFrame codec p data with
    | error e =>
      rw [hframe] at h
      rwa [← (Prod.mk.inj h).1]
    | ok p' =>
      rw [hframe] at h
      exact ih (tokens_onFrame hp hframe) h

theorem tokens_readBody {d : SseFrameDecoder} {p q : Progress ρ} {reads : List BodyRead}
    {r : Except ModelClientError SseFrameDecoder} (hp : tokens p.sunk = p.streamedText)
    (h : readBody codec d p reads = (q, r)) : tokens q.sunk = q.streamedText := by
  induction reads generalizing d p with
  | nil => rwa [← (Prod.mk.inj h).1]
  | cons read reads ih =>
    cases read with
    | failed =>
      rw [readBody] at h
      split at h <;> rwa [← (Prod.mk.inj h).1]
    | chunk b =>
      rw [readBody] at h
      cases hpush : d.push b with
      | error e =>
        rw [hpush] at h
        rwa [← (Prod.mk.inj h).1]
      | ok x =>
        simp only [hpush] at h
        cases hframes : onFrames codec p x.1 with
        | mk p' e =>
          have hp' := tokens_onFrames hp hframes
          rw [hframes] at h
          cases e with
          | some e => rwa [← (Prod.mk.inj h).1]
          | none => exact ih hp' h

/-- **The answer is what the sink has seen**: when a stream is accepted, the result is one whose text is that
of the tokens. -/
theorem tokens_of_callApiStream {reads : List BodyRead} {events : List StreamEvent} {response : σ}
    (h : callApiStream codec reads = (events, .ok response)) :
    ∃ payload, codec.modelResponse payload = .ok response ∧ tokens events = codec.text payload := by
  rw [callApiStream] at h
  cases hbody : readBody codec .new .start reads with
  | mk p r =>
    have hp : tokens p.sunk = p.streamedText := tokens_readBody rfl hbody
    rw [hbody] at h
    cases r with
    | error e => cases (Prod.mk.inj h).2
    | ok d =>
      simp only at h
      cases hclose : closeStream codec p d with
      | error e =>
        rw [hclose] at h
        cases (Prod.mk.inj h).2
      | ok response' =>
        rw [hclose] at h
        obtain ⟨rfl, hresponse⟩ := Prod.mk.inj h
        obtain rfl := Except.ok.inj hresponse
        obtain ⟨-, -, hclose⟩ := Except.bind_eq_ok.1 hclose
        obtain ⟨payload, -, hclose⟩ := Except.okOr_bind.1 hclose
        obtain ⟨htext, hclose⟩ := Except.require_bind.1 hclose
        refine ⟨payload, hclose, ?_⟩
        rw [tokens_append, hp, htext, tokens_calls, String.append_empty]

end Centaeris.Sse
