import Centaeris.Base.JsonText
import Centaeris.Contract.Strings
import Centaeris.Material.Evidence

/-!
# Manifests and their segments

A manifest is JSON that comes with the canonical text. `validateManifest` checks that its pages lie in the
text one after the other, and `segments` cuts the text of each page into segments for the search. The
second reads the JSON as the first has let it through, so it can raise what the first did not exclude.
-/

namespace Centaeris.Material.Evidence

open Utf8 (encode)
open Except (okOr require)

/-- What a call can raise. -/
inductive Raised
  | knowledge (error : KnowledgeError)
  | attributeError
  | keyError
  | typeError
  deriving DecidableEq

/-- `KnowledgeError(code, 400)`. -/
def invalid (code : String) : Raised := .knowledge ⟨code, 400⟩

/-- `MAX_SEGMENT_BYTES`. -/
def maxSegmentBytes : Nat := 32 * 1024

/-- `value.count(b"\n")`. -/
def newlines (b : List UInt8) : Nat := b.count 10

/-- The bytes from `start` to `stop`. -/
def slice (b : List UInt8) (start stop : Nat) : List UInt8 := (b.take stop).drop start

/-- An int that is no bool. -/
def int? : Json → Option Int
  | .num m 0 => some m
  | _ => none

/-- A field that is known to be there. -/
def field (fields : List (String × Json)) (key : String) : Json := (Json.Fields.get? fields key).getD .null

/-! ### The checks -/

/-- `_positive_int`. -/
def positiveInt (value : Json) (maximum : Int) : Bool :=
  (int? value).any fun n ↦ decide (0 < n ∧ n ≤ maximum)

/-- The box of a span. -/
def validBbox : Json → Bool
  | .arr [a, b, c, d] =>
    match int? a, int? b, int? c, int? d with
    | some a, some b, some c, some d =>
      decide (0 ≤ a ∧ a < c ∧ c ≤ 10000) && decide (0 ≤ b ∧ b < d ∧ d ≤ 10000)
    | _, _, _, _ => false
  | _ => false

/-- The confidence of a span. -/
def validConfidence : Json → Bool
  | .null => true
  | value => (int? value).any fun n ↦ decide (0 ≤ n ∧ n ≤ 1000)

/-- `_valid_page_text_span`. -/
def validPageTextSpan : Json → Bool
  | .obj fields =>
    (Json.Fields.keysAre fields ["text", "bbox"] ||
      Json.Fields.keysAre fields ["text", "bbox", "confidenceMilli"]) &&
    (field fields "text").asStr?.any (fun s ↦ decide (s ≠ "")) &&
    validBbox (field fields "bbox") && validConfidence (field fields "confidenceMilli")
  | _ => false

/-- The text of a span that is valid. -/
def spanText (span : Json) : Text := (((span.get? "text").bind Json.asStr?).getD "").toList

/-- `text["route"] not in {...}`: a list or a dict cannot be looked up in a set. -/
def checkRoute (route : Json) : Except Raised Unit :=
  match route with
  | .arr _ | .obj _ => .error .typeError
  | .str s =>
    require (s ∈ ["nativeText", "pdfNative", "ppOcrV6Small", "empty"])
      (invalid "knowledge_page_text_identity_invalid")
  | _ => .error (invalid "knowledge_page_text_identity_invalid")

/-- What `_validate_manifest` encodes of a page: nothing, if its text is no text. -/
def encodedText (value : Json) : List UInt8 := encode (value.asStr?.getD "").toList

/-- The places of a page in the canonical text. -/
structure Positions where
  startByte : Int
  endByte : Int
  startLine : Int
  endLine : Int

/-- `positions`, if they are all ints. -/
def positions (fields : List (String × Json)) : Option Positions := do
  let startByte ← int? (field fields "canonicalStartByte")
  let endByte ← int? (field fields "canonicalEndByte")
  let startLine ← int? (field fields "canonicalStartLine")
  let endLine ← int? (field fields "canonicalEndLine")
  return ⟨startByte, endByte, startLine, endLine⟩

/-- The page lies where it says it does, after the previous one. -/
def placed (canonical encoded : List UInt8) (previousEnd previousEndLine : Int) (at_ : Positions) : Prop :=
  previousEnd ≤ at_.startByte ∧ 0 ≤ at_.startByte ∧ at_.endByte = at_.startByte + encoded.length ∧
    at_.endByte ≤ canonical.length ∧ slice canonical at_.startByte.toNat at_.endByte.toNat = encoded ∧
    at_.startLine = previousEndLine + newlines (slice canonical previousEnd.toNat at_.startByte.toNat) ∧
    at_.endLine = at_.startLine + newlines encoded

instance (canonical encoded : List UInt8) (previousEnd previousEndLine : Int) (at_ : Positions) :
    Decidable (placed canonical encoded previousEnd previousEndLine at_) := by
  unfold placed; infer_instance

/-- The check of the spans of a page. -/
def validSpans (text : List (String × Json)) : Bool :=
  let encoded := encodedText (field text "text")
  match field text "spans" with
  | .arr spans =>
    decide (spans.length ≤ 200000) && spans.all validPageTextSpan &&
    !(decide (field text "route" = .str "empty") && (!encoded.isEmpty || !spans.isEmpty)) &&
    (spans.isEmpty ||
      decide (field text "text" = .str (String.ofList (['\n'].intercalate (spans.map spanText))))) &&
    (encoded.isEmpty || !spans.isEmpty)
  | _ => false

section Hash

-- `hashlib.sha256(value).hexdigest()`.
variable (hexdigest : List UInt8 → String)

/-- `sha256_bytes`. -/
def sha256Bytes (value : List UInt8) : String := "sha256:" ++ hexdigest value

/-- The body of the loop of `_validate_manifest`. -/
def validatePage (canonical : List UInt8) (expectedPage : Nat) (previousEnd previousEndLine : Int)
    (page : Json) : Except Raised (Int × Int) := do
  let fields ← okOr page.asObject? (invalid "knowledge_manifest_page_invalid")
  require (Json.Fields.keysAre fields
      ["pageText", "canonicalStartByte", "canonicalEndByte", "canonicalStartLine", "canonicalEndLine"] = true)
    (invalid "knowledge_manifest_page_invalid")
  let text ← okOr (field fields "pageText").asObject? (invalid "knowledge_page_text_invalid")
  require (Json.Fields.keysAre text
      ["schema", "page", "route", "widthMillipoints", "heightMillipoints", "text", "textSha256", "spans"] = true)
    (invalid "knowledge_page_text_invalid")
  let encoded := encodedText (field text "text")
  let at_ ← okOr (positions fields) (invalid "knowledge_page_text_identity_invalid")
  require (field text "schema" = .str "knowledge.page_text.v1")
    (invalid "knowledge_page_text_identity_invalid")
  require (int? (field text "page") = some (expectedPage : Int))
    (invalid "knowledge_page_text_identity_invalid")
  checkRoute (field text "route")
  require (positiveInt (field text "widthMillipoints") 4294967295 = true ∧
      positiveInt (field text "heightMillipoints") 4294967295 = true ∧ encoded.length ≤ 4 * 1024 * 1024 ∧
      field text "textSha256" = .str (sha256Bytes hexdigest encoded) ∧
      placed canonical encoded previousEnd previousEndLine at_)
    (invalid "knowledge_page_text_identity_invalid")
  require (validSpans text = true) (invalid "knowledge_page_text_spans_invalid")
  return (at_.endByte, at_.endLine)

/-- The loop of `_validate_manifest`. -/
def validatePages (canonical : List UInt8) : Nat → Int → Int → List Json → Except Raised Unit
  | _, _, _, [] => .ok ()
  | expectedPage, previousEnd, previousEndLine, page :: pages => do
    let (endByte, endLine) ← validatePage hexdigest canonical expectedPage previousEnd previousEndLine page
    validatePages canonical (expectedPage + 1) endByte endLine pages

/-- `_validate_manifest`. -/
def validateManifest (manifest : Json) (canonical : List UInt8) : Except Raised Unit := do
  require ((Utf8.decode canonical).isSome = true) (invalid "knowledge_canonical_utf8_invalid")
  let fields ← okOr manifest.asObject? (invalid "knowledge_manifest_invalid")
  require (Json.Fields.keysAre fields ["schema", "pageCount", "pages"] = true ∧
      field fields "schema" = .str "knowledge.derived_manifest.v1")
    (invalid "knowledge_manifest_invalid")
  let pages ← okOr (field fields "pages").asArray? (invalid "knowledge_manifest_page_count_invalid")
  require (int? (field fields "pageCount") = some (pages.length : Int) ∧ pages ≠ [])
    (invalid "knowledge_manifest_page_count_invalid")
  validatePages hexdigest canonical 1 0 1 pages

/-! ### The segments -/

/-- What `_segments` and the reads take from a page. The positions of a manifest that was let through are
naturals; others are not looked at here. -/
def readPage (page : Json) : Except Raised Page := do
  let fields ← okOr page.asObject? .typeError
  let text ← okOr (Json.Fields.get? fields "pageText") .keyError
  let text ← okOr text.asObject? .typeError
  let value ← okOr (Json.Fields.get? text "text") .keyError
  let content ← okOr value.asStr? .attributeError
  let number ← okOr (field text "page").asU64? .typeError
  let route ← okOr (field text "route").asStr? .typeError
  let startByte ← okOr (field fields "canonicalStartByte").asU64? .typeError
  let endByte ← okOr (field fields "canonicalEndByte").asU64? .typeError
  let startLine ← okOr (field fields "canonicalStartLine").asU64? .typeError
  let endLine ← okOr (field fields "canonicalEndLine").asU64? .typeError
  return ⟨number, route, content.toList, startByte, endByte, startLine, endLine⟩

/-- The inner loop of `_segments`: the bytes from `start` that decode, from an end downwards. -/
def boundedEnd (encoded : List UInt8) (start : Nat) : Nat → Option (Nat × Text)
  | 0 => none
  | last + 1 =>
    if last + 1 ≤ start then none
    else match Utf8.decode (slice encoded start (last + 1)) with
      | some bounded => some (last + 1, bounded.toList)
      | none => boundedEnd encoded start last

/-- The text has nothing but whitespace: `not bounded.strip()`. -/
def blank (bounded : Text) : Bool := bounded.all Contract.isSpace

/-- `str.removeprefix`. -/
def removePrefix (start s : String) : String :=
  match Contract.dropPrefix? start.toList s.toList with
  | some rest => String.ofList rest
  | none => s

/-- The id of a segment. -/
def segmentId (representationId : String) (ordinal : Nat) (textHash : String) : String :=
  let identity := sha256Bytes hexdigest (encode (JsonText.render JsonText.pyEscape
    (.arr [.str representationId, .ofInt ordinal, .str textHash])))
  "segment:sha256:" ++ removePrefix "sha256:" identity

/-- The variables of `_segments`. -/
structure Progress where
  start : Nat
  line : Nat
  ordinal : Nat
  segments : List Segment
  deriving DecidableEq

/-- The body of the loop of `_segments`, after a piece was found. -/
def addPiece (representationId : String) (page : Page) (p : Progress) (last : Nat) (bounded : Text) :
    Progress :=
  let after : Progress := { p with start := last, line := p.line + bounded.count '\n' }
  if blank bounded then after
  else
    let textHash := sha256Bytes hexdigest (encode bounded)
    { after with
      ordinal := p.ordinal + 1
      segments := p.segments ++ [{
        segmentId := segmentId hexdigest representationId p.ordinal textHash
        ordinal := p.ordinal
        boundedText := bounded
        textSha256 := textHash
        locator := {
          pageStart := some page.page
          pageEnd := some page.page
          startByte := page.canonicalStartByte + p.start
          endByte := page.canonicalStartByte + last
          startLine := p.line
          endLine := p.line + bounded.count '\n' } }] }

/-- The loop of `_segments` over the text of a page. -/
def segmentPage (representationId : String) (page : Page) (encoded : List UInt8) :
    Nat → Progress → Except Raised Progress
  | 0, p => .ok p
  | fuel + 1, p =>
    if p.start < encoded.length then
      match boundedEnd encoded p.start (min encoded.length (p.start + maxSegmentBytes)) with
      | none => .error (.knowledge ⟨"knowledge_segment_utf8_boundary_invalid", 409⟩)
      | some (last, bounded) =>
        segmentPage representationId page encoded fuel (addPiece hexdigest representationId page p last bounded)
    else .ok p

/-- The body of the outer loop of `_segments`. A round of the loop in it takes at least one byte. -/
def segmentNext (representationId : String) (p : Progress) (page : Json) : Except Raised Progress := do
  let page ← readPage page
  let encoded := encode page.text
  segmentPage hexdigest representationId page encoded encoded.length
    { p with start := 0, line := page.canonicalStartLine }

/-- The pages of a manifest. -/
def manifestPages (manifest : Json) : List Json := ((manifest.get? "pages").bind Json.asArray?).getD []

/-- `_segments`. -/
def segments (representationId : String) (manifest : Json) : Except Raised (List Segment) := do
  let p ← (manifestPages manifest).foldlM (segmentNext hexdigest representationId) ⟨0, 0, 0, []⟩
  return p.segments

end Hash

end Centaeris.Material.Evidence
