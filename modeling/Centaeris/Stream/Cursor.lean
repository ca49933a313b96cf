import Centaeris.Base.Base64
import Centaeris.Base.JsonText
import Centaeris.Stream.Log

/-!
# The text of a cursor

The cursor of a stream is the JSON text of its payload in base64 for URLs. A cursor that was written is read
back (`sound_cursorCodec`), and it has only characters that stand in a header as they are.

The reader compares what it was given with the cursor it would have written, so of the many texts that
decode to a payload only one is accepted (`streamCursor_canonical`).
-/

namespace Centaeris.Stream

/-- `json.dumps` into `urlsafe_b64encode` without padding, and back. -/
def cursorCodec : CursorCodec where
  dumps payload :=
    String.ofList (Base64.encode (Utf8.bytes (String.ofList (JsonText.render JsonText.pyEscape payload))))
  loads encoded := do
    let raw ← Base64.decode encoded.toList
    let text ← Utf8.decode raw
    JsonText.loads text.toList

/-- **A cursor that was written is read back.** -/
theorem sound_cursorCodec : cursorCodec.Sound := by
  intro agentRunId sourceSequence
  have hdict : JsonText.dict (cursorPayload agentRunId sourceSequence) =
      cursorPayload agentRunId sourceSequence := by
    simp [cursorPayload, JsonText.dict, JsonText.dictFields, Json.ofInt, JsonText.table, Json.Fields.insert]
  simp only [cursorCodec, String.toList_ofList, Base64.decode_encode, Option.bind_eq_bind, Option.bind_some,
    Utf8.decode_bytes, JsonText.loads_render JsonText.escapes_pyEscape hdict]

/-- The characters of a cursor after the start of the stream. -/
theorem mem_encodeStreamCursor {agentRunId : String} {n : Nat} (hn : n ≠ 0) {c : Char}
    (hc : c ∈ (encodeStreamCursor cursorCodec agentRunId n).toList) : c ∈ cursorPrefix ++ Base64.alphabet := by
  rw [encodeStreamCursor_pos cursorCodec agentRunId hn, List.mem_append] at hc
  refine List.mem_append.2 (hc.imp_right fun hc ↦ ?_)
  rw [cursorCodec, String.toList_ofList] at hc
  exact Base64.mem_alphabet hc

/-! ### Cursors and positions -/

theorem cursorSequence_cursorPayload (agentRunId : String) {n : Nat} (hn : n ≠ 0) :
    cursorSequence agentRunId (cursorPayload agentRunId n) = some n := by
  simp [cursorSequence, cursorPayload, Json.Fields.keysAre, Json.Fields.get?, hn]

theorem isPayloadChar_of_mem_alphabet : ∀ c ∈ Base64.alphabet, isPayloadChar c = true := by decide +kernel

/-- A payload is not empty, and has only letters of its alphabet. -/
theorem dumps_cursorCodec (payload : Json) :
    (cursorCodec.dumps payload).toList.all isPayloadChar = true := by
  rw [cursorCodec, String.toList_ofList, List.all_eq_true]
  exact fun c hc ↦ isPayloadChar_of_mem_alphabet c (Base64.mem_alphabet hc)

theorem dumps_cursorCodec_ne_nil (agentRunId : String) (n : Nat) :
    (cursorCodec.dumps (cursorPayload agentRunId n)).toList ≠ [] := by
  intro hnil
  have hloads := sound_cursorCodec agentRunId n
  have hempty : cursorCodec.loads "" = none := by decide +kernel
  rw [String.toList_eq_nil_iff.1 hnil, hempty] at hloads
  cases hloads

/-- **A cursor that fits is accepted.** -/
theorem parseLastEventCursor_encodeStreamCursor (agentRunId : String) {n : Nat}
    (hlength : (encodeStreamCursor cursorCodec agentRunId n).length ≤ cursorMaxLength) :
    parseLastEventCursor cursorCodec (encodeStreamCursor cursorCodec agentRunId n) agentRunId = some n := by
  by_cases hn : n = 0
  · subst n
    rfl
  · obtain ⟨hempty, hzero⟩ := encodeStreamCursor_ne cursorCodec agentRunId hn
    have hlist := encodeStreamCursor_pos cursorCodec agentRunId hn
    have hencoded : (encodeStreamCursor cursorCodec agentRunId n).toList.drop cursorPrefix.length =
        (cursorCodec.dumps (cursorPayload agentRunId n)).toList := by
      rw [hlist, List.drop_left]
    have hprefix : cursorPrefix.isPrefixOf (encodeStreamCursor cursorCodec agentRunId n).toList = true := by
      rw [hlist, List.isPrefixOf_iff_prefix]
      exact List.prefix_append _ _
    rw [parseLastEventCursor, if_neg (by rw [not_or]; exact ⟨hempty, hzero⟩)]
    simp only [hencoded, hprefix, hlength, dumps_cursorCodec, dumps_cursorCodec_ne_nil, String.ofList_toList,
      sound_cursorCodec agentRunId n, cursorSequence_cursorPayload agentRunId hn, ne_eq, not_false_eq_true,
      and_self, guard, if_true, Option.pure_def, Option.bind_eq_bind, Option.bind_some]

/-- **What is accepted was written**, after the start of the stream. -/
theorem eq_encodeStreamCursor {value agentRunId : String} {n : Nat}
    (h : parseLastEventCursor cursorCodec value agentRunId = some n) (hn : 0 < n) :
    value = encodeStreamCursor cursorCodec agentRunId n := by
  unfold parseLastEventCursor at h
  split at h
  · exact absurd (Option.some.inj h) hn.ne
  · obtain ⟨-, h⟩ := guard_bind.1 h
    obtain ⟨payload, -, h⟩ := Option.bind_eq_some_iff.1 h
    obtain ⟨sequence, -, h⟩ := Option.bind_eq_some_iff.1 h
    obtain ⟨hvalue, h⟩ := guard_bind.1 h
    obtain rfl : sequence = n := Option.some.inj h
    exact hvalue.symm

/-- **Cursors and positions.** A cursor that fits is read as the position it was written for. What is read as
a position after the start is the cursor of that position: there is one for each run and position, and a run
accepts no other run's. -/
theorem streamCursor_canonical (agentRunId : String) :
    (∀ n, (encodeStreamCursor cursorCodec agentRunId n).length ≤ cursorMaxLength →
      parseLastEventCursor cursorCodec (encodeStreamCursor cursorCodec agentRunId n) agentRunId = some n) ∧
    (∀ value n, parseLastEventCursor cursorCodec value agentRunId = some n → 0 < n →
      value = encodeStreamCursor cursorCodec agentRunId n) ∧
    (∀ n, 0 < n → (encodeStreamCursor cursorCodec agentRunId n).length ≤ cursorMaxLength →
      ∃! value, parseLastEventCursor cursorCodec value agentRunId = some n) ∧
    ∀ other n, other ≠ agentRunId → 0 < n →
      parseLastEventCursor cursorCodec (encodeStreamCursor cursorCodec other n) agentRunId = none := by
  refine ⟨fun n ↦ parseLastEventCursor_encodeStreamCursor agentRunId, fun value n ↦ eq_encodeStreamCursor,
    fun n hn hlength ↦ ?_, fun other n hother hn ↦ ?_⟩
  · exact ⟨_, parseLastEventCursor_encodeStreamCursor agentRunId hlength, fun value h ↦ eq_encodeStreamCursor h hn⟩
  · refine Option.eq_none_iff_forall_ne_some.2 fun m hm ↦ ?_
    obtain ⟨hempty, hzero⟩ := encodeStreamCursor_ne cursorCodec other hn.ne'
    -- Only the start of the stream is read as position zero.
    have hpos : m ≠ 0 := by
      rintro rfl
      rw [parseLastEventCursor, if_neg (by rw [not_or]; exact ⟨hempty, hzero⟩)] at hm
      obtain ⟨-, hm⟩ := guard_bind.1 hm
      obtain ⟨payload, -, hm⟩ := Option.bind_eq_some_iff.1 hm
      obtain ⟨sequence, hsequence, hm⟩ := Option.bind_eq_some_iff.1 hm
      exact cursorSequence_ne_zero hsequence (Option.some.inj (guard_bind.1 hm).2)
    have hvalue := eq_encodeStreamCursor hm (Nat.pos_of_ne_zero hpos)
    exact hother (encodeStreamCursor_inj sound_cursorCodec hn.ne' hpos hvalue).1

/-- The cursor of the first event of a run. -/
theorem streamCursor_canonical_first :
    (encodeStreamCursor cursorCodec "é" 1).length ≤ cursorMaxLength ∧
      parseLastEventCursor cursorCodec (encodeStreamCursor cursorCodec "é" 1) "é" = some 1 ∧
      parseLastEventCursor cursorCodec (encodeStreamCursor cursorCodec "é" 1) "e" = none := by
  have hlength : (encodeStreamCursor cursorCodec "é" 1).length ≤ cursorMaxLength := by decide +kernel
  exact ⟨hlength, (streamCursor_canonical "é").1 1 hlength,
    (streamCursor_canonical "e").2.2.2 "é" 1 (by decide) (by decide)⟩

end Centaeris.Stream
