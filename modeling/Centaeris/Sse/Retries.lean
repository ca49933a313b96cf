import Centaeris.Sse.ModelStream

/-!
# Streaming with retries

`call_api_stream_with_retries` makes one attempt after the other with the same sink. What a failed attempt
has shown is taken back before the next one, by a `ReplaceContent` with the empty text, and only if it has
shown any text at all.

The sink's text is the fold of all events over all attempts (`presented`). Every attempt starts from the
empty text: the first one does, and a failed attempt leaves it behind (`presented_reset`). So what is
presented in the end is what the last attempt has streamed, and that is the content of the response
(`presented_of_retries`).
-/

namespace Centaeris.Sse

/-! ### Responses -/

/-- `ModelRunUsage`. -/
structure ModelRunUsage where
  promptTokens : Option Int
  totalTokens : Option Int
  promptCacheHitTokens : Option Int
  promptCacheMissTokens : Option Int
  deriving DecidableEq

/-- `ModelRunResponse`. -/
structure ModelRunResponse where
  text : String
  reasoningContent : Option String
  continuationReasoningContent : Option String
  toolCalls : List ToolCall
  usage : Option ModelRunUsage
  deriving DecidableEq

/-- `ModelClientResponse` with its `GenerateResult`. -/
structure ModelClientResponse where
  content : String
  toolCalls : List ToolCall
  continuationReasoningContent : Option String
  reasoningContent : Option String
  inputTokens : Option Int
  totalTokens : Option Int
  promptCacheHitTokens : Option Int
  promptCacheMissTokens : Option Int
  providerAttempts : Nat
  deriving DecidableEq

/-- What the client takes from outside: the decoder of a result, and the check of the arguments of its
calls. -/
structure Client where
  decode : List (String × Json) → Option ModelRunResponse
  /-- `validate_provider_tool_call_arguments`. -/
  validateToolCalls : List ToolCall → Except ModelClientError Unit

/-- `model_response`. -/
def Client.modelResponse (client : Client) (payload : ModelRunResponse) :
    Except ModelClientError ModelClientResponse := do
  client.validateToolCalls payload.toolCalls
  return {
    content := payload.text
    toolCalls := payload.toolCalls
    continuationReasoningContent := payload.continuationReasoningContent
    reasoningContent := payload.reasoningContent
    inputTokens := payload.usage.bind (·.promptTokens)
    totalTokens := payload.usage.bind (·.totalTokens)
    promptCacheHitTokens := payload.usage.bind (·.promptCacheHitTokens)
    promptCacheMissTokens := payload.usage.bind (·.promptCacheMissTokens)
    providerAttempts := 1 }

/-- How the stream reads results. -/
def Client.codec (client : Client) : ResultCodec ModelRunResponse ModelClientResponse where
  decode := client.decode
  text := ModelRunResponse.text
  modelResponse := client.modelResponse
  toolCalls := ModelClientResponse.toolCalls

/-! ### Attempts -/

/-- What comes of one attempt to stream. -/
inductive Attempt
  /-- The request cannot be made of the prompt. -/
  | invalid (message : String)
  /-- The request is not sent, or not answered. -/
  | unsent
  /-- The answer has the status of a failure. -/
  | status (code : Nat)
  /-- The body of an answer. -/
  | body (reads : List BodyRead)

/-- `ModelClientStreamEvent`, with the events that belong to the retries. -/
inductive SinkEvent
  | streamed (event : StreamEvent)
  | replaceContent (content : String)
  /-- `Status` with `RuntimeProcessState::Retrying`. -/
  | retrying
  deriving DecidableEq

/-- `call_api_stream`. -/
def callAttempt (client : Client) :
    Attempt → List StreamEvent × Except ModelClientError ModelClientResponse
  | .invalid message => ([], .error ⟨.invalidRequest, message, false⟩)
  | .unsent => ([], .error (interrupted "api model stream request failed" true))
  | .status code =>
    ([], .error ⟨.provider, "api model stream returned " ++ toString code, false⟩)
  | .body reads => callApiStream client.codec reads

/-- An event shows text. -/
def StreamEvent.isVisible : StreamEvent → Bool
  | token content => content != ""
  | _ => false

/-- An event shows reasoning. -/
def StreamEvent.isReasoning : StreamEvent → Bool
  | reasoning text => text != ""
  | _ => false

/-- What the sink is given between a failed attempt and the next one. -/
def reset (events : List StreamEvent) : List SinkEvent :=
  (if events.any (·.isVisible) then [.replaceContent ""] else []) ++
    (if events.any (·.isReasoning) then [.streamed (.reasoning "")] else []) ++ [.retrying]

/-- `retry.saturating_add(1)`, of a `u32`. -/
def attemptNumber (retry : Nat) : Nat := min (retry + 1) (2 ^ 32 - 1)

/-- A response says which attempt it is of. -/
def ModelClientResponse.ofAttempt (response : ModelClientResponse) (retry : Nat) : ModelClientResponse :=
  { response with providerAttempts := attemptNumber retry }

/-- The loop of `call_api_stream_with_retries` from the attempt `retry` on, with so many after it: what
the sink is given, and what is returned. An error has the number of attempts with it. -/
def retriesFrom (client : Client) (attempts : Nat → Attempt) :
    Nat → Nat → List SinkEvent × Except (ModelClientError × Nat) ModelClientResponse
  | retry, 0 =>
    match callAttempt client (attempts retry) with
    | (events, .ok response) => (events.map .streamed, .ok (response.ofAttempt retry))
    | (events, .error error) =>
      (events.map .streamed, .error ({ error with retryable := false }, attemptNumber retry))
  | retry, left + 1 =>
    match callAttempt client (attempts retry) with
    | (events, .ok response) => (events.map .streamed, .ok (response.ofAttempt retry))
    | (events, .error error) =>
      if error.retryable = false then
        (events.map .streamed, .error (error, attemptNumber retry))
      else
        let rest := retriesFrom client attempts (retry + 1) left
        (events.map .streamed ++ reset events ++ rest.1, rest.2)

/-- `call_api_stream_with_retries`. -/
def callApiStreamWithRetries (client : Client) (maxRetries : Nat) (attempts : Nat → Attempt) :
    List SinkEvent × Except (ModelClientError × Nat) ModelClientResponse :=
  retriesFrom client attempts 0 maxRetries

/-! ### What is presented -/

/-- What an event makes of the text of the sink. -/
def present (text : String) : SinkEvent → String
  | .streamed (.token content) => text ++ content
  | .replaceContent content => content
  | _ => text

/-- The text of the sink after all events. -/
def presented (events : List SinkEvent) : String := events.foldl present ""

/-- An attempt appends its tokens. -/
theorem foldl_present_streamed (events : List StreamEvent) (text : String) :
    (events.map SinkEvent.streamed).foldl present text = text ++ tokens events := by
  induction events generalizing text with
  | nil => exact String.append_empty.symm
  | cons event events ih =>
    rw [List.map_cons, List.foldl_cons, ih, ← List.singleton_append, tokens_append]
    cases event with
    | token content =>
      have hone : tokens [.token content] = content := by simp [tokens, String.join]
      rw [hone, ← String.append_assoc]
      rfl
    | reasoning text => rw [show tokens [.reasoning text] = "" from rfl, String.empty_append]; rfl
    | toolCallReady call =>
      rw [show tokens [.toolCallReady call] = "" from rfl, String.empty_append]
      rfl

/-- An attempt that shows no text has only empty tokens. -/
theorem tokens_eq_empty_of_not_visible {events : List StreamEvent}
    (h : events.any (·.isVisible) = false) : tokens events = "" := by
  induction events with
  | nil => rfl
  | cons event events ih =>
    rw [List.any_cons, Bool.or_eq_false_iff] at h
    rw [← List.singleton_append, tokens_append, ih h.2, String.append_empty]
    cases event with
    | token content =>
      have hempty : content = "" := by simpa [StreamEvent.isVisible] using h.1
      simp [tokens, String.join, hempty]
    | reasoning text => rfl
    | toolCallReady call => rfl

/-- **A failed attempt leaves nothing behind**, whatever it has streamed. -/
theorem presented_reset (events : List StreamEvent) :
    presented (events.map .streamed ++ reset events) = "" := by
  rw [presented, List.foldl_append, foldl_present_streamed, String.empty_append, reset]
  by_cases hvisible : events.any (·.isVisible) = true
  · by_cases hreasoning : events.any (·.isReasoning) = true <;> simp [hvisible, hreasoning, present]
  · have hempty := tokens_eq_empty_of_not_visible (Bool.eq_false_iff.2 hvisible)
    by_cases hreasoning : events.any (·.isReasoning) = true <;>
      simp [hvisible, hreasoning, hempty, present]

/-- An attempt that succeeds streams the content of its response. -/
theorem tokens_callAttempt {client : Client} {attempt : Attempt} {events : List StreamEvent}
    {response : ModelClientResponse} (h : callAttempt client attempt = (events, .ok response)) :
    tokens events = response.content := by
  cases attempt with
  | body reads =>
    obtain ⟨payload, hresponse, htext⟩ := tokens_of_callApiStream h
    obtain ⟨_, -, hresponse⟩ := Except.bind_eq_ok.1 hresponse
    cases hresponse
    exact htext
  | invalid message => cases (Prod.mk.inj h).2
  | unsent => cases (Prod.mk.inj h).2
  | status code => cases (Prod.mk.inj h).2

theorem presented_retriesFrom {client : Client} {attempts : Nat → Attempt} {retry left : Nat}
    {events : List SinkEvent} {response : ModelClientResponse}
    (h : retriesFrom client attempts retry left = (events, .ok response)) :
    presented events = response.content := by
  induction left generalizing retry events with
  | zero =>
    rw [retriesFrom] at h
    split at h
    · rename_i streamed first hattempt
      cases h
      rw [presented, foldl_present_streamed, String.empty_append]
      exact (tokens_callAttempt hattempt :)
    · cases (Prod.mk.inj h).2
  | succ left ih =>
    rw [retriesFrom] at h
    split at h
    · rename_i streamed first hattempt
      cases h
      rw [presented, foldl_present_streamed, String.empty_append]
      exact (tokens_callAttempt hattempt :)
    · rename_i streamed error hattempt
      split at h
      · cases (Prod.mk.inj h).2
      · -- the rest starts where the failed attempt has been taken back to
        obtain ⟨rfl, hresponse⟩ := Prod.mk.inj h
        rw [presented, List.foldl_append, ← presented, presented_reset]
        exact ih (Prod.ext rfl hresponse)

/-- **Streaming with retries presents the returned text**: for all attempts, however far each of them has
come, the events of all of them together present the content of the response. -/
theorem presented_of_retries {client : Client} {maxRetries : Nat} {attempts : Nat → Attempt}
    {events : List SinkEvent} {response : ModelClientResponse}
    (h : callApiStreamWithRetries client maxRetries attempts = (events, .ok response)) :
    presented events = response.content :=
  presented_retriesFrom h

section Sample

/-- A client that reads the text of a result. -/
def sampleClient : Client where
  decode fields := ((Json.obj fields).get? "text").bind Json.asStr? |>.map
    fun text ↦ ⟨text, none, none, [], none⟩
  validateToolCalls _ := .ok ()

/-- The frame of an event. -/
def sampleFrame (event : String) : BodyRead :=
  .chunk (Utf8.bytes ("data: \x7b\"schema\":\"api.model.stream.v1\"," ++ event ++ "\x7d\n\n"))

/-- The first attempt shows "a" and breaks off, the second one has an empty answer. -/
def sampleAttempts : Nat → Attempt
  | 0 => .body [sampleFrame "\"type\":\"delta\",\"delta\":\"a\"", .failed]
  | _ => .body [sampleFrame "\"type\":\"result\",\"text\":\"\""]

/-- What was shown first is replaced. -/
theorem presented_of_retries_sample :
    (match callApiStreamWithRetries sampleClient 1 sampleAttempts with
      | (events, .ok response) => decide (events.length = 3 ∧ response.content = "")
      | _ => false) = true ∧
    ∀ events response, callApiStreamWithRetries sampleClient 1 sampleAttempts = (events, .ok response) →
      presented events = response.content :=
  ⟨by decide +kernel, fun _ _ h ↦ presented_of_retries h⟩

end Sample

end Centaeris.Sse
