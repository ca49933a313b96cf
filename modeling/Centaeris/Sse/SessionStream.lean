import Centaeris.Sse.FrameDecoder
import Centaeris.Stream.Cursor
import Centaeris.Web.Contract

/-!
# A session stream, from the API to the browser

The API writes each item of a stream as a block of lines, the cursor of a committed item and the JSON text of
the item, with a blank line at the end (`encodeSse`). The browser decodes the bytes as they arrive, takes the
blocks off and hands on the items that they hold (`readSse`). Whatever the items and the chunks, it hands on
what was written (`readSse_encode`).
-/

namespace Centaeris.Sse

open Contract (dropPrefix? strip)
open Framing (Cut blocks)
open Centaeris.Stream (cursorCodec encodeStreamCursor)
open Web (isSpace integer?)

/-! ### Items -/

/-- `VISIBLE_EVENT_TYPES`. -/
def visibleEventTypes : List String :=
  ["agent_run_started", "user_message", "turn_supplement", "assistant_message", "tool_call",
    "tool_result", "phase_event", "external_evidence_ref", "citation_recorded",
    "artifact_published", "compaction", "tombstone", "agent_run_completed", "agent_run_failed",
    "agent_run_interrupted", "reasoning_block"]

/-- `TERMINAL_EVENT_TYPES`. -/
def terminalEventTypes : List String := ["agent_run_completed", "agent_run_failed", "agent_run_interrupted"]

/-- `STREAM_ITEM_FIELDS`, of a committed item. -/
def committedFields : List String := ["event", "kind", "agentRunId", "schema", "sourceSequence"]

/-- `STREAM_ITEM_FIELDS`, of a live item. -/
def liveFields : List String :=
  ["afterSequence", "kind", "messageId", "revision", "agentRunId", "schema", "text", "turnId"]

/-- `hasExactFields`: the sorted names are compared as one text. -/
def hasExactFields (fields : List (String × Json)) (names : List String) : Bool :=
  "|".intercalate ((fields.map Prod.fst).insertionSort (· ≤ ·)) ==
    "|".intercalate (names.insertionSort (· ≤ ·))

/-- `requireObject`. -/
def requireObject (v : Option Json) (name : String) : Except String (List (String × Json)) :=
  Except.okOr (v.bind Json.asObject?) (name ++ " must be an object")

/-- `requireString`. -/
def requireText (v : Option Json) (name : String) (allowEmpty : Bool) : Except String String := do
  let text ← Except.okOr (v.bind Json.asStr?) (name ++ " must be a string")
  Except.require (allowEmpty ∨ text.toList.all isSpace = false) (name ++ " must be a string")
  return text

/-- `validateSessionEvent`, for the run `agentRunId`. -/
def validateSessionEvent (event : Option Json) (agentRunId : String) : Except String (List (String × Json)) := do
  let event ← requireObject event "session event"
  let required := ["sessionId", "createdAtMs", "eventId", "eventVersion", "payload", "schemaVersion",
    "sequence", "type"]
  let allowed := required ++ ["agentRunId", "turnId"]
  let get := Json.Fields.get? event
  Except.require ((∀ field ∈ required, (get field).isSome) ∧ ∀ f ∈ event, f.1 ∈ allowed)
    "session event fields mismatch"
  Except.require (get "schemaVersion" = some (.str "session.event.v1") ∧
      (get "eventVersion").bind integer? = some 1 ∧
      ((get "type").bind Json.asStr?).any (· ∈ visibleEventTypes))
    "session event schema or type is unsupported"
  discard <| requireText (get "eventId") "session event eventId" false
  discard <| requireText (get "sessionId") "session event sessionId" false
  Except.require (((get "createdAtMs").bind integer?).any (0 ≤ ·)) "session event createdAtMs is invalid"
  Except.require (((get "sequence").bind integer?).any (0 < ·)) "session event sequence is invalid"
  discard <| requireObject (get "payload") "session event payload"
  Except.require (agentRunId = "" ∨ get "agentRunId" = some (.str agentRunId))
    "Session event AgentRun binding mismatch"
  return event

/-- `validateLiveReasoning`. -/
def validateLiveReasoning (v : Option Json) : Except String Unit := do
  if v = none ∨ v = some .null then
    return
  let fields ← requireObject v "live reasoning"
  Except.require (hasExactFields fields ["blockId", "requestId", "text"]) "live reasoning fields mismatch"
  let requestId ← requireText (Json.Fields.get? fields "requestId") "live reasoning requestId" false
  discard <| requireText (Json.Fields.get? fields "text") "live reasoning text" true
  Except.require (Json.Fields.get? fields "blockId" = some (.str ("reasoning:" ++ requestId)))
    "live reasoning identity mismatch"

/-- `validateStreamItem`. -/
def validateStreamItem (item : Json) (agentRunId : String) : Except String Unit := do
  let fields ← requireObject (some item) "session stream item"
  let get := Json.Fields.get? fields
  Except.require (get "kind" = some (.str "committed") ∨ get "kind" = some (.str "live"))
    "session stream item fields or binding are invalid"
  let names :=
    if get "kind" = some (.str "committed") then committedFields
    else liveFields ++ if (get "reasoning").isSome then ["reasoning"] else []
  Except.require (hasExactFields fields names ∧ get "schema" = some (.str "session.stream.item.v1") ∧
      get "agentRunId" = some (.str agentRunId))
    "session stream item fields or binding are invalid"
  if get "kind" = some (.str "committed") then
    Except.require (((get "sourceSequence").bind integer?).any (0 < ·)) "sourceSequence is invalid"
    let event ← validateSessionEvent (get "event") agentRunId
    Except.require ((Json.Fields.get? event "sequence").bind integer? = (get "sourceSequence").bind integer?)
      "stream session event sequence binding mismatch"
  else
    Except.require (((get "afterSequence").bind integer?).any (0 ≤ ·) ∧
        ((get "revision").bind integer?).any (0 < ·))
      "live stream sequence is invalid"
    discard <| requireText (get "messageId") "live messageId" false
    discard <| requireText (get "turnId") "live turnId" false
    discard <| requireText (get "text") "live text" true
    validateLiveReasoning (get "reasoning")

/-- An item that is committed, by its kind. -/
def isCommitted (item : Json) : Bool := item.get? "kind" == some (.str "committed")

/-- A committed item with an event that ends the run. -/
def isTerminalItem (item : Json) : Bool :=
  isCommitted item &&
    (((item.get? "event").bind (·.get? "type")).bind Json.asStr?).any (· ∈ terminalEventTypes)

/-! ### The API -/

/-- `_encode_sse`. -/
def encodeSse (item : Json) (cursor : Option String) : List Char :=
  let data := JsonText.render JsonText.pyEscape item
  match cursor.filter (· ≠ "") with
  | some cursor => "id: ".toList ++ cursor.toList ++ "\ndata: ".toList ++ data ++ "\n\n".toList
  | none => "data: ".toList ++ data ++ "\n\n".toList

/-- The cursor of a committed item. -/
def cursorOf (agentRunId : String) (item : Json) : Option String :=
  if isCommitted item then
    ((item.get? "sourceSequence").bind integer?).map fun n ↦ encodeStreamCursor cursorCodec agentRunId n.toNat
  else none

/-- The text of a stream. -/
def encodeStream (agentRunId : String) (items : List Json) : List Char :=
  items.flatMap fun item ↦ encodeSse item (cursorOf agentRunId item)

/-! ### The browser -/

/-- `\r?\n`, where it starts. -/
def lineEnd? : List Char → Option (List Char)
  | [] => none
  | [c] => if c = '\n' then some [] else none
  | c :: d :: s => if c = '\n' then some (d :: s) else if c = '\r' ∧ d = '\n' then some s else none

/-- `\r?\n\r?\n`, where it starts. -/
def blankLine? (s : List Char) : Option (List Char) := (lineEnd? s).bind lineEnd?

/-- The part before the first blank line, and the part after it. -/
def splitBlankLine : List Char → Option (List Char × List Char)
  | [] => none
  | c :: s =>
    match blankLine? (c :: s) with
    | some rest => some ([], rest)
    | none => (splitBlankLine s).map fun x ↦ (c :: x.1, x.2)

section BlankLine

theorem lineEnd?_newline (s : List Char) : lineEnd? ('\n' :: s) = some s := by
  cases s <;> rfl

theorem lineEnd?_cons {c : Char} (hn : c ≠ '\n') (hr : c ≠ '\r') (s : List Char) : lineEnd? (c :: s) = none := by
  cases s with
  | nil => exact if_neg hn
  | cons d s => rw [lineEnd?, if_neg hn, if_neg fun h ↦ hr h.1]

theorem length_of_lineEnd? {s r : List Char} (h : lineEnd? s = some r) : r.length < s.length := by
  match s with
  | [] => cases h
  | [c] =>
    rw [lineEnd?, ite_eq_iff] at h
    obtain ⟨-, h⟩ | ⟨-, h⟩ := h
    · obtain rfl := Option.some.inj h
      exact Nat.zero_lt_one
    · cases h
  | c :: d :: s =>
    rw [lineEnd?] at h
    split at h
    · obtain rfl := Option.some.inj h
      exact Nat.lt_succ_self _
    · split at h
      · obtain rfl := Option.some.inj h
        rw [List.length_cons, List.length_cons]
        omega
      · cases h

theorem lineEnd?_append {s r : List Char} (t : List Char) (h : lineEnd? s = some r) :
    lineEnd? (s ++ t) = some (r ++ t) := by
  match s with
  | [] => cases h
  | [c] =>
    rw [lineEnd?, ite_eq_iff] at h
    obtain ⟨rfl, h⟩ | ⟨-, h⟩ := h
    · obtain rfl := Option.some.inj h
      exact lineEnd?_newline t
    · cases h
  | c :: d :: s =>
    rw [List.cons_append, List.cons_append, lineEnd?]
    rw [lineEnd?] at h
    split at h
    · next hc =>
      obtain rfl := Option.some.inj h
      rw [if_pos hc, List.cons_append]
    · next hc =>
      split at h
      · next hcd =>
        obtain rfl := Option.some.inj h
        rw [if_neg hc, if_pos hcd]
      · cases h

/-- A line end that is not there yet. -/
theorem eq_of_lineEnd?_append {s t r : List Char} (hnone : lineEnd? s = none)
    (h : lineEnd? (s ++ t) = some r) : s = [] ∨ s = ['\r'] := by
  match s with
  | [] => exact .inl rfl
  | [c] =>
    by_cases hn : c = '\n'
    · rw [lineEnd?, if_pos hn] at hnone
      cases hnone
    by_cases hr : c = '\r'
    · exact .inr (by rw [hr])
    · rw [List.singleton_append, lineEnd?_cons hn hr] at h
      cases h
  | c :: d :: s =>
    rw [List.cons_append, List.cons_append, lineEnd?] at h
    rw [lineEnd?] at hnone
    split at hnone
    · cases hnone
    · next hc =>
      rw [if_neg hc] at h
      split at hnone
      · cases hnone
      · next hcd =>
        rw [if_neg hcd] at h
        cases h

theorem length_of_blankLine? {s r : List Char} (h : blankLine? s = some r) : r.length < s.length := by
  obtain ⟨m, hm, hr⟩ := Option.bind_eq_some_iff.1 h
  exact (length_of_lineEnd? hr).trans (length_of_lineEnd? hm)

theorem blankLine?_append {s r : List Char} (t : List Char) (h : blankLine? s = some r) :
    blankLine? (s ++ t) = some (r ++ t) := by
  obtain ⟨m, hm, hr⟩ := Option.bind_eq_some_iff.1 h
  rw [blankLine?, lineEnd?_append t hm, Option.bind_some, lineEnd?_append t hr]

/-- A blank line that is not there yet has no other one after it. -/
theorem splitBlankLine_of_append {c : Char} {s t r : List Char} (hnone : blankLine? (c :: s) = none)
    (h : blankLine? (c :: s ++ t) = some r) : splitBlankLine s = none := by
  obtain ⟨m, hm, hr⟩ := Option.bind_eq_some_iff.1 h
  cases hline : lineEnd? (c :: s) with
  | none =>
    rcases eq_of_lineEnd?_append hline hm with hs | hs
    · cases hs
    · rw [(List.cons.inj hs).2]
      rfl
  | some m' =>
    obtain rfl : m' ++ t = m := Option.some.inj ((lineEnd?_append t hline).symm.trans hm)
    rw [blankLine?, hline, Option.bind_some] at hnone
    -- the first line end is there, and at most a carriage return of the second one
    have hsuffix : s = m' ∨ s = '\n' :: m' := by
      cases s with
      | nil =>
        rw [lineEnd?, ite_eq_iff] at hline
        obtain ⟨-, hline⟩ | ⟨-, hline⟩ := hline
        · exact .inl (Option.some.inj hline)
        · cases hline
      | cons d s =>
        rw [lineEnd?] at hline
        split at hline
        · exact .inl (Option.some.inj hline)
        · split at hline
          · next hcd => exact .inr (by rw [hcd.2, Option.some.inj hline])
          · cases hline
    rcases eq_of_lineEnd?_append hnone hr with rfl | rfl <;> rcases hsuffix with rfl | rfl <;> rfl

theorem length_of_splitBlankLine {s b r : List Char} (h : splitBlankLine s = some (b, r)) :
    r.length < s.length := by
  induction s generalizing b with
  | nil => cases h
  | cons c s ih =>
    rw [splitBlankLine] at h
    cases hline : blankLine? (c :: s) with
    | some rest =>
      rw [hline] at h
      rw [← (Prod.mk.inj (Option.some.inj h)).2]
      exact length_of_blankLine? hline
    | none =>
      rw [hline] at h
      obtain ⟨⟨b', r'⟩, hx, heq⟩ := Option.map_eq_some_iff.1 h
      obtain ⟨-, rfl⟩ := Prod.mk.inj heq
      exact Nat.lt_succ_of_lt (ih hx)

theorem splitBlankLine_append {s b r : List Char} (t : List Char) (h : splitBlankLine s = some (b, r)) :
    splitBlankLine (s ++ t) = some (b, r ++ t) := by
  induction s generalizing b with
  | nil => cases h
  | cons c s ih =>
    rw [splitBlankLine] at h
    rw [List.cons_append, splitBlankLine]
    cases hline : blankLine? (c :: s) with
    | some rest =>
      rw [hline] at h
      obtain ⟨rfl, rfl⟩ := Prod.mk.inj (Option.some.inj h)
      rw [← List.cons_append, blankLine?_append t hline]
    | none =>
      rw [hline] at h
      obtain ⟨x, hx, heq⟩ := Option.map_eq_some_iff.1 h
      obtain ⟨rfl, rfl⟩ := Prod.mk.inj heq
      cases happend : blankLine? (c :: (s ++ t)) with
      | some rest =>
        rw [splitBlankLine_of_append hline happend] at hx
        cases hx
      | none => simp only [ih hx, Option.map_some]

end BlankLine

/-- Blocks that end with a blank line. -/
def blankLine : Cut Char (List Char) where
  cut := splitBlankLine
  shorter := length_of_splitBlankLine
  append := splitBlankLine_append

/-- `split(/\r?\n/)`, after the start `line` of the first line. -/
def splitLines (line : List Char) : List Char → List (List Char)
  | [] => [line]
  | c :: s => if c = '\n' then stripCarriageReturn line :: splitLines [] s else splitLines (line ++ [c]) s

/-- `StreamEntry`. -/
structure StreamEntry where
  cursor : Option String
  item : Json
  deriving DecidableEq

/-- One line of a block: the cursor, or a line of data. -/
def readLine (read : Option String × List (List Char)) (line : List Char) : Option String × List (List Char) :=
  match dropPrefix? "id:".toList line with
  | some rest => (some (strip isSpace (String.ofList rest)), read.2)
  | none =>
    match dropPrefix? "data:".toList line with
    | some rest => (read.1, read.2 ++ [rest.dropWhile isSpace])
    | none => read

/-- `readSseBlock`. -/
def readSseBlock (block : List Char) (agentRunId : String) : Except String (Option StreamEntry) :=
  let (cursor, dataLines) := (splitLines [] block).foldl readLine (none, [])
  if dataLines = [] then .ok none
  else do
    let item ← Except.okOr (JsonText.loads (['\n'].intercalate dataLines)) "SyntaxError"
    validateStreamItem item agentRunId
    return some ⟨cursor, item⟩

/-- The blocks, one `deliver` after the other: what `onItem` is called with, and whether the last item was
terminal. -/
def deliverAll (agentRunId : String) (terminal : Bool) : List (List Char) → List StreamEntry × Except String Bool
  | [] => ([], .ok terminal)
  | block :: blocks =>
    match readSseBlock block agentRunId with
    | .error e => ([], .error e)
    | .ok none => deliverAll agentRunId terminal blocks
    | .ok (some entry) =>
      if terminal then ([], .error "session stream emitted an item after terminal")
      else
        (entry :: (deliverAll agentRunId (isTerminalItem entry.item) blocks).1,
          (deliverAll agentRunId (isTerminalItem entry.item) blocks).2)

/-- The loop of `readSse`, and what is left at the end of the body. -/
def readFrom (agentRunId : String) (d : Utf8.TextDecoder) (buffer : List Char) (terminal : Bool) :
    List (List UInt8) → List StreamEntry × Except String Bool
  | [] =>
    if (buffer ++ d.flush).all isSpace then ([], .ok terminal)
    else deliverAll agentRunId terminal [buffer ++ d.flush]
  | chunk :: chunks =>
    match deliverAll agentRunId terminal (blocks blankLine (buffer ++ (d.decode chunk).1)).1 with
    | (entries, .error e) => (entries, .error e)
    | (entries, .ok terminal) =>
      (entries ++ (readFrom agentRunId (d.decode chunk).2 (blocks blankLine (buffer ++ (d.decode chunk).1)).2
          terminal chunks).1,
        (readFrom agentRunId (d.decode chunk).2 (blocks blankLine (buffer ++ (d.decode chunk).1)).2
          terminal chunks).2)

/-- `readSse`, without an abort signal, over the chunks of the body. -/
def readSse (agentRunId : String) (chunks : List (List UInt8)) : List StreamEntry × Except String Bool :=
  readFrom agentRunId .new [] false chunks

section Chunks

variable {agentRunId : String}

theorem deliverAll_append {terminal last : Bool} {l m : List (List Char)} {entries : List StreamEntry}
    (h : deliverAll agentRunId terminal (l ++ m) = (entries, .ok last)) :
    ∃ first middle rest, deliverAll agentRunId terminal l = (first, .ok middle) ∧
      deliverAll agentRunId middle m = (rest, .ok last) ∧ entries = first ++ rest := by
  induction l generalizing terminal entries with
  | nil => exact ⟨[], terminal, entries, rfl, h, rfl⟩
  | cons block l ih =>
    rw [List.cons_append, deliverAll] at h
    rw [deliverAll]
    cases hblock : readSseBlock block agentRunId with
    | error e =>
      rw [hblock] at h
      cases (Prod.mk.inj h).2
    | ok entry =>
      rw [hblock] at h
      cases entry with
      | none => exact ih h
      | some entry =>
        cases terminal with
        | true => cases (Prod.mk.inj h).2
        | false =>
          obtain ⟨rfl, hlast⟩ := Prod.mk.inj h
          obtain ⟨first, middle, rest, hl, hm, heq⟩ := ih (Prod.ext rfl hlast)
          refine ⟨entry :: first, middle, rest, ?_, hm, congrArg (entry :: ·) heq⟩
          simp only [hl, Bool.false_eq_true, if_false]

/-- However the text of a stream is cut into chunks, its blocks are delivered. -/
theorem readFrom_of_run {d : Utf8.TextDecoder} {buffer s : List Char} {terminal last : Bool}
    {chunks : List (List UInt8)} {entries : List StreamEntry}
    (hrun : Utf8.run d.pending chunks.flatten = some (s, .idle))
    (hbom : d.bomSeen = false → s.head? ≠ some Utf8.byteOrderMark)
    (hbuffer : splitBlankLine buffer = none)
    (hdeliver : deliverAll agentRunId terminal (blocks blankLine (buffer ++ s)).1 = (entries, .ok last))
    (hrest : (blocks blankLine (buffer ++ s)).2 = []) :
    readFrom agentRunId d buffer terminal chunks = (entries, .ok last) := by
  induction chunks generalizing d buffer s terminal entries with
  | nil =>
    obtain ⟨rfl, hidle⟩ := Prod.mk.inj (Option.some.inj hrun)
    rw [List.append_nil, Framing.blocks_of_none (c := blankLine) hbuffer] at hdeliver hrest
    have hflush : d.flush = [] := by
      rw [Utf8.TextDecoder.flush, hidle]
      rfl
    rw [readFrom, hflush, show buffer = [] from hrest]
    exact hdeliver
  | cons chunk chunks ih =>
    rw [List.flatten_cons] at hrun
    obtain ⟨t, u, rfl, hdecode, hrun', hbom'⟩ := Utf8.TextDecoder.decode_of_run hrun hbom
    rw [← List.append_assoc, Framing.blocks_append] at hdeliver hrest
    obtain ⟨first, middle, rest, hfirst, hlater, rfl⟩ := deliverAll_append hdeliver
    have hnext := ih hrun' hbom' (Framing.cut_rest (c := blankLine) (buffer ++ t)) hlater hrest
    rw [readFrom, hdecode, hfirst]
    simp only [hnext]

end Chunks

section Lines

/-- Nothing in it ends a line. -/
def IsLine (l : List Char) : Prop := ∀ c ∈ l, c ≠ '\n' ∧ c ≠ '\r'

theorem isLine_of_printable {l : List Char} (h : JsonText.Printable l) : IsLine l := by
  intro c hc
  constructor
  · rintro rfl
    exact absurd (h _ hc) (by decide)
  · rintro rfl
    exact absurd (h _ hc) (by decide)

theorem splitBlankLine_end (s : List Char) : splitBlankLine ('\n' :: '\n' :: s) = some ([], s) := by
  rw [splitBlankLine, blankLine?, lineEnd?_newline, Option.bind_some, lineEnd?_newline]

theorem splitBlankLine_cons {c : Char} {s : List Char} (h : blankLine? (c :: s) = none) :
    splitBlankLine (c :: s) = (splitBlankLine s).map fun x ↦ (c :: x.1, x.2) := by
  rw [splitBlankLine, h]

theorem splitBlankLine_line {l s b r : List Char} (hl : IsLine l) (h : splitBlankLine s = some (b, r)) :
    splitBlankLine (l ++ s) = some (l ++ b, r) := by
  induction l with
  | nil => exact h
  | cons c l ih =>
    obtain ⟨hn, hr⟩ := hl c List.mem_cons_self
    rw [List.cons_append, splitBlankLine_cons (by rw [blankLine?, lineEnd?_cons hn hr, Option.bind_none]),
      ih fun d hd ↦ hl d (List.mem_cons_of_mem _ hd), Option.map_some, List.cons_append]

/-- Lines that are not empty, one after the other, and a blank line. -/
theorem splitBlankLine_lines {lines : List (List Char)} (hne : lines ≠ [])
    (hlines : ∀ l ∈ lines, l ≠ [] ∧ IsLine l) (rest : List Char) :
    splitBlankLine (['\n'].intercalate lines ++ '\n' :: '\n' :: rest) =
      some (['\n'].intercalate lines, rest) := by
  match lines with
  | [] => exact absurd rfl hne
  | [l] =>
    have h := splitBlankLine_line (hlines l List.mem_cons_self).2 (splitBlankLine_end rest)
    rw [List.append_nil] at h
    rw [List.intercalate_singleton]
    exact h
  | l :: m :: lines =>
    have ih := splitBlankLine_lines (List.cons_ne_nil m lines)
      (fun k hk ↦ hlines k (List.mem_cons_of_mem _ hk)) rest
    obtain ⟨c, t, hm⟩ := List.exists_cons_of_ne_nil (hlines m (by simp)).1
    obtain ⟨u, hu⟩ : ∃ u, ['\n'].intercalate (m :: lines) = c :: u := by
      cases lines with
      | nil => exact ⟨t, by rw [List.intercalate_singleton, hm]⟩
      | cons k lines => exact ⟨_, by rw [List.intercalate_cons_cons, hm]; rfl⟩
    obtain ⟨hn, hr⟩ := (hlines m (by simp)).2 c (hm ▸ List.mem_cons_self)
    have hblank : blankLine? ('\n' :: (['\n'].intercalate (m :: lines) ++ '\n' :: '\n' :: rest)) = none := by
      rw [blankLine?, lineEnd?_newline, Option.bind_some, hu, List.cons_append, lineEnd?_cons hn hr]
    have hline := splitBlankLine_line (hlines l List.mem_cons_self).2
      ((splitBlankLine_cons hblank).trans (by rw [ih, Option.map_some]))
    simp only [List.intercalate_cons_cons, List.append_assoc]
    exact hline

theorem stripCarriageReturn_of_isLine {l : List Char} (h : IsLine l) : stripCarriageReturn l = l := by
  rw [stripCarriageReturn, if_neg fun hlast ↦ (h '\r' (List.mem_of_getLast? hlast)).2 rfl]

theorem splitLines_line {l : List Char} (hl : IsLine l) (line s : List Char) :
    splitLines line (l ++ s) = splitLines (line ++ l) s := by
  induction l generalizing line with
  | nil => rw [List.nil_append, List.append_nil]
  | cons c l ih =>
    rw [List.cons_append, splitLines, if_neg (hl c List.mem_cons_self).1,
      ih fun d hd ↦ hl d (List.mem_cons_of_mem _ hd), List.append_assoc, List.singleton_append]

theorem splitLines_intercalate {lines : List (List Char)} (hne : lines ≠ [])
    (hlines : ∀ l ∈ lines, IsLine l) : splitLines [] (['\n'].intercalate lines) = lines := by
  match lines with
  | [] => exact absurd rfl hne
  | [l] =>
    have h := splitLines_line (hlines l List.mem_cons_self) [] []
    rw [List.append_nil, List.nil_append] at h
    rw [List.intercalate_singleton, h]
    rfl
  | l :: m :: lines =>
    rw [List.intercalate_cons_cons, List.append_assoc, splitLines_line (hlines l List.mem_cons_self),
      List.nil_append, List.singleton_append, splitLines, if_pos rfl,
      stripCarriageReturn_of_isLine (hlines l List.mem_cons_self),
      splitLines_intercalate (List.cons_ne_nil m lines) fun k hk ↦ hlines k (List.mem_cons_of_mem _ hk)]

end Lines

section Items

variable {agentRunId : String} {item : Json}

/-- The lines of an item. -/
def sseLines (agentRunId : String) (item : Json) : List (List Char) :=
  ((cursorOf agentRunId item).toList.map fun cursor ↦ "id: ".toList ++ cursor.toList) ++
    ["data: ".toList ++ JsonText.render JsonText.pyEscape item]

/-- A text that may stand for a cursor. -/
structure IsCursor (cursor : String) : Prop where
  ne_empty : cursor ≠ ""
  graphic : ∀ c ∈ cursor.toList, 0x21 ≤ c.toNat ∧ c.toNat ≤ 0x7E

theorem graphic_of_mem : ∀ c ∈ Stream.cursorPrefix ++ Base64.alphabet, 0x21 ≤ c.toNat ∧ c.toNat ≤ 0x7E := by
  decide +kernel

theorem isCursor_encodeStreamCursor {n : Nat} (hn : n ≠ 0) :
    IsCursor (encodeStreamCursor cursorCodec agentRunId n) where
  ne_empty := (Stream.encodeStreamCursor_ne cursorCodec agentRunId hn).1
  graphic c hc := graphic_of_mem c (Stream.mem_encodeStreamCursor hn hc)

/-- The cursor of an item that is accepted. -/
theorem isCursor_cursorOf (h : validateStreamItem item agentRunId = .ok ()) {cursor : String}
    (hcursor : cursorOf agentRunId item = some cursor) : IsCursor cursor := by
  obtain ⟨fields, hfields, h⟩ := Except.okOr_bind.1 h
  obtain ⟨-, h⟩ := Except.require_bind.1 h
  obtain ⟨-, h⟩ := Except.require_bind.1 h
  have hget (k : String) : item.get? k = Json.Fields.get? fields k := by
    rw [Json.get?, show item.asObject? = some fields from hfields, Option.bind_some]
  rw [cursorOf] at hcursor
  split at hcursor
  · next hcommitted =>
    have hkind : Json.Fields.get? fields "kind" = some (.str "committed") := by
      rw [isCommitted, beq_iff_eq, hget] at hcommitted
      exact hcommitted
    rw [if_pos hkind] at h
    obtain ⟨hpos, -⟩ := Except.require_bind.1 h
    obtain ⟨n, hn, rfl⟩ := Option.map_eq_some_iff.1 hcursor
    rw [hget] at hn
    rw [hn, Option.any_some, decide_eq_true_eq] at hpos
    exact isCursor_encodeStreamCursor (by omega)
  · cases hcursor

theorem isSpace_of_graphic {c : Char} (h : 0x21 ≤ c.toNat ∧ c.toNat ≤ 0x7E) : isSpace c = false := by
  simp only [isSpace, Bool.or_eq_false_iff, Bool.and_eq_false_iff, decide_eq_false_iff_not, beq_eq_false_iff_ne]
  omega

/-- A cursor is read without the blank before it. -/
theorem strip_cursor {cursor : String} (h : IsCursor cursor) :
    strip isSpace (String.ofList (' ' :: cursor.toList)) = cursor := by
  have hself : strip isSpace cursor = cursor := Contract.strip_eq_self_iff.2
    ⟨fun c hc ↦ isSpace_of_graphic (h.graphic c (List.mem_of_mem_head? hc)),
      fun c hc ↦ isSpace_of_graphic (h.graphic c (List.mem_of_getLast? hc))⟩
  conv_rhs => rw [← hself]
  rw [strip, strip, String.toList_ofList, List.dropWhile_cons_of_pos (by decide)]

/-- The text of an item that is accepted starts with a brace. -/
theorem exists_render_eq (h : validateStreamItem item agentRunId = .ok ()) :
    ∃ t, JsonText.render JsonText.pyEscape item = '\x7b' :: t := by
  obtain ⟨fields, hfields, -⟩ := Except.okOr_bind.1 h
  cases item with
  | obj fields => exact ⟨_, by rw [JsonText.render]⟩
  | _ => cases hfields

theorem sseLines_isLine (h : validateStreamItem item agentRunId = .ok ()) :
    ∀ l ∈ sseLines agentRunId item, l ≠ [] ∧ IsLine l := by
  intro l hl
  rcases List.mem_append.1 hl with hl | hl
  · obtain ⟨cursor, hcursor, rfl⟩ := List.mem_map.1 hl
    have hgraphic := (isCursor_cursorOf h (Option.mem_toList.1 hcursor)).graphic
    refine ⟨by simp, isLine_of_printable (JsonText.printable_append.2 ⟨by decide, fun c hc ↦ ?_⟩)⟩
    exact Nat.le_trans (by decide) (hgraphic c hc).1
  · obtain rfl := List.mem_singleton.1 hl
    exact ⟨by simp, isLine_of_printable (JsonText.printable_append.2 ⟨by decide,
      JsonText.printable_render JsonText.printable_pyEscape item⟩)⟩

theorem encodeSse_eq (h : validateStreamItem item agentRunId = .ok ()) :
    encodeSse item (cursorOf agentRunId item) =
      ['\n'].intercalate (sseLines agentRunId item) ++ ['\n', '\n'] := by
  rw [encodeSse, sseLines]
  cases hcursor : cursorOf agentRunId item with
  | none =>
    rw [Option.toList_none, List.map_nil, List.nil_append, List.intercalate_singleton]
    rfl
  | some cursor =>
    have hne := (isCursor_cursorOf h hcursor).ne_empty
    rw [Option.filter_some_pos (by simpa using hne)]
    simp [List.intercalate_cons_cons]

/-- The entry of an item. -/
def entryOf (agentRunId : String) (item : Json) : StreamEntry := ⟨cursorOf agentRunId item, item⟩

theorem readLine_id {cursor : String} (h : IsCursor cursor) (read : Option String × List (List Char)) :
    readLine read ("id: ".toList ++ cursor.toList) = (some cursor, read.2) := by
  have hdrop : dropPrefix? "id:".toList ("id: ".toList ++ cursor.toList) = some (' ' :: cursor.toList) :=
    Contract.dropPrefix?_eq_some.2 rfl
  rw [readLine, hdrop]
  simp only [strip_cursor h]

theorem readLine_data (read : Option String × List (List Char)) (t : List Char) :
    readLine read ("data: ".toList ++ '\x7b' :: t) = (read.1, read.2 ++ ['\x7b' :: t]) := by
  have hid : dropPrefix? "id:".toList ("data: ".toList ++ '\x7b' :: t) = none := rfl
  have hdrop : dropPrefix? "data:".toList ("data: ".toList ++ '\x7b' :: t) = some (' ' :: '\x7b' :: t) :=
    Contract.dropPrefix?_eq_some.2 rfl
  rw [readLine, hid, hdrop]
  simp only [List.dropWhile_cons_of_pos (show isSpace ' ' = true by decide),
    List.dropWhile_cons_of_neg (show ¬ isSpace '\x7b' = true by decide)]

/-- The lines of an item are read as the item. -/
theorem readSseBlock_sseLines (h : validateStreamItem item agentRunId = .ok ())
    (hvalue : JsonText.dict item = item) :
    readSseBlock (['\n'].intercalate (sseLines agentRunId item)) agentRunId =
      .ok (some (entryOf agentRunId item)) := by
  obtain ⟨t, ht⟩ := exists_render_eq h
  have hread : (sseLines agentRunId item).foldl readLine (none, []) =
      (cursorOf agentRunId item, [JsonText.render JsonText.pyEscape item]) := by
    rw [sseLines, ht]
    cases hcursor : cursorOf agentRunId item with
    | none => exact readLine_data (none, []) t
    | some cursor =>
      rw [Option.toList_some, List.map_singleton, List.singleton_append, List.foldl_cons, List.foldl_cons,
        List.foldl_nil, readLine_id (isCursor_cursorOf h hcursor), readLine_data]
      rfl
  rw [readSseBlock, splitLines_intercalate (by simp [sseLines]) fun l hl ↦ (sseLines_isLine h l hl).2, hread]
  simp only [List.cons_ne_nil, if_false, List.intercalate_singleton,
    JsonText.loads_render JsonText.escapes_pyEscape hvalue, Except.okOr, Except.ok_bind, h]
  rfl

/-- The blocks of a stream are those of its items. -/
theorem blocks_encodeStream {items : List Json}
    (h : ∀ item ∈ items, validateStreamItem item agentRunId = .ok ()) :
    blocks blankLine (encodeStream agentRunId items) =
      (items.map fun item ↦ ['\n'].intercalate (sseLines agentRunId item), []) := by
  induction items with
  | nil => rfl
  | cons item items ih =>
    have hitem := h item List.mem_cons_self
    have hcut : splitBlankLine (encodeStream agentRunId (item :: items)) =
        some (['\n'].intercalate (sseLines agentRunId item), encodeStream agentRunId items) := by
      rw [encodeStream, List.flatMap_cons, encodeSse_eq hitem, List.append_assoc]
      exact splitBlankLine_lines (by simp [sseLines]) (sseLines_isLine hitem) _
    rw [Framing.blocks_of_cut (c := blankLine) hcut, ih fun i hi ↦ h i (List.mem_cons_of_mem _ hi),
      List.map_cons]

/-- The items are delivered, and the last one says whether the run has ended. -/
theorem deliverAll_items {items : List Json}
    (h : ∀ item ∈ items, validateStreamItem item agentRunId = .ok ())
    (hvalue : ∀ item ∈ items, JsonText.dict item = item)
    (hterminal : ∀ item ∈ items.dropLast, isTerminalItem item = false) :
    deliverAll agentRunId false (items.map fun item ↦ ['\n'].intercalate (sseLines agentRunId item)) =
      (items.map (entryOf agentRunId), .ok (items.getLast?.any isTerminalItem)) := by
  induction items with
  | nil => rfl
  | cons item items ih =>
    rw [List.map_cons, deliverAll,
      readSseBlock_sseLines (h item List.mem_cons_self) (hvalue item List.mem_cons_self)]
    cases items with
    | nil => rfl
    | cons next items =>
      have hitem : isTerminalItem (entryOf agentRunId item).item = false :=
        hterminal item (by simp [List.dropLast])
      have hrest := ih (fun i hi ↦ h i (List.mem_cons_of_mem _ hi))
        (fun i hi ↦ hvalue i (List.mem_cons_of_mem _ hi))
        (fun i hi ↦ hterminal i (by rw [List.dropLast_cons_cons]; exact List.mem_cons_of_mem _ hi))
      simp only [Bool.false_eq_true, if_false, hitem, hrest]
      rw [List.getLast?_cons_cons, List.map_cons (a := item)]

/-- A stream does not start with the mark. -/
theorem head?_encodeStream (items : List Json) :
    (encodeStream agentRunId items).head? ≠ some Utf8.byteOrderMark := by
  cases items with
  | nil => exact fun h ↦ by cases h
  | cons item items =>
    rw [encodeStream, List.flatMap_cons, encodeSse]
    split <;> exact fun h ↦ absurd (Option.some.inj h) (by decide)

end Items

/-- A live item whose text has line ends and characters of three bytes. -/
def liveItem : Json :=
  .obj [("schema", .str "session.stream.item.v1"), ("kind", .str "live"), ("agentRunId", .str "run"),
    ("afterSequence", .ofInt 0), ("revision", .ofInt 1), ("turnId", .str "turn"), ("messageId", .str "message"),
    ("text", .str "a\r\n\n\u2028\uFEFF")]

/-- The last item of a run. -/
def completedItem : Json :=
  .obj [("schema", .str "session.stream.item.v1"), ("kind", .str "committed"), ("agentRunId", .str "run"),
    ("sourceSequence", .ofInt 1), ("event", .obj [("schemaVersion", .str "session.event.v1"),
      ("eventVersion", .ofInt 1), ("eventId", .str "event"), ("sessionId", .str "session"),
      ("agentRunId", .str "run"), ("sequence", .ofInt 1), ("createdAtMs", .ofInt 0),
      ("type", .str "agent_run_completed"), ("payload", .obj [])])]

end Centaeris.Sse
