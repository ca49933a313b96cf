import Centaeris.Base.Except
import Centaeris.Base.Json
import Centaeris.Base.Machine
import Mathlib.Data.List.Chain
import Mathlib.Data.List.Sort
import Mathlib.Data.Prod.Lex
import Mathlib.Algebra.Ring.Int.Defs
import Mathlib.Algebra.Ring.Nat

/-!
# The transcript contract of the web client

Pages, patch pages and live overlays reach the client as JSON values, and nothing is kept of a value
before `validate_transcript_page`, `validate_transcript_patch_page` or
`parse_transcript_live_overlay` has accepted it. The checks are written down field by field.

A block stays the JSON value it came as: `TranscriptBlock` is the subtype of the values that pass
`validBlock`, and its fields are read off the value. Decimal texts are read into numbers at this
border: `decimal` accepts one text for each number, so that comparing texts is comparing numbers.

Validation of a page is in two parts, what can be read off the value (`readTranscriptPage`,
`readTranscriptPatchPage`) and the order of what was read. The second part of a page is carried by
`TranscriptPage`.
-/

namespace Centaeris.Web

open Except

/-- The function of the client's runtime that the contract is built on: `JSON.stringify`. -/
structure Js where
  stringify : Json → String

/-! ### Limits and names -/

/-- `PAGE_SCHEMA`. -/
def pageSchema : String := "transcript.page.v1"

/-- `PATCH_PAGE_SCHEMA`. -/
def patchPageSchema : String := "transcript.patch.page.v1"

/-- `PATCH_SCHEMA`. -/
def patchSchema : String := "transcript.patch.v1"

/-- `PROJECTION_VERSION`. -/
def projectionVersion : String := "transcript.projection.v1"

/-- `WORKSPACE_STREAM_ID`. -/
def workspaceStreamId : String := "workspace-transcript.v1"

/-- `MAX_BLOCKS`, `MAX_PATCHES` and `MAX_PATCH_CHANGES`. -/
def maxBlocks : Nat := 128

/-- `MAX_INLINE_BYTES`. -/
def maxInlineBytes : Nat := 64 * 1024

/-- `MAX_PAGE_BYTES` and `MAX_PATCH_BYTES`. -/
def maxPageBytes : Nat := 4 * maxInlineBytes

/-- `MAX_PATCH_PAGE_BYTES`. -/
def maxPatchPageBytes : Nat := 2 * maxPageBytes

/-! ### Values -/

/-- `serializedBytes`. -/
def Js.serializedBytes (js : Js) (v : Json) : Nat := Machine.byteLen (js.stringify v)

/-- What `String.prototype.trim` removes. -/
def isSpace (c : Char) : Bool :=
  (9 ≤ c.toNat && c.toNat ≤ 13) || c.toNat == 0x20 || c.toNat == 0xA0 || c.toNat == 0x1680 ||
  (0x2000 ≤ c.toNat && c.toNat ≤ 0x200A) || c.toNat == 0x2028 || c.toNat == 0x2029 ||
  c.toNat == 0x202F || c.toNat == 0x205F || c.toNat == 0x3000 || c.toNat == 0xFEFF

/-- `identifier`: a text that is not blank. -/
def identifier? : Json → Option String
  | .str s => if s.toList.all isSpace then none else some s
  | _ => none

/-- The number that a list of digits stands for. -/
def digitsValue (digits : List Char) : Nat := digits.foldl (fun n c ↦ 10 * n + (c.toNat - 48)) 0

/-- `decimal`: a `u64` in decimal digits, without leading zeros. -/
def decimal? : Json → Option Nat
  | .str s =>
    let digits := s.toList
    if (digits = ['0'] ∨ digits ≠ [] ∧ digits.head? ≠ some '0' ∧ digits.all Char.isDigit) ∧
        digits.length ≤ 20 ∧ digitsValue digits ≤ Machine.u64Max then some (digitsValue digits)
    else none
  | _ => none

/-- `Number.isInteger`, and the integer. -/
def integer? : Json → Option Int
  | .num mantissa exponent =>
    if 0 ≤ exponent then some (mantissa * 10 ^ exponent.toNat)
    else if mantissa % 10 ^ (-exponent).toNat = 0 then some (mantissa / 10 ^ (-exponent).toNat)
    else none
  | _ => none

/-- `Number.MAX_SAFE_INTEGER`. -/
def maxSafeInteger : Int := 9007199254740991

/-- `Number.isSafeInteger`, and the integer. -/
def safeInteger? (v : Json) : Option Int :=
  (integer? v).filter fun n ↦ decide (-maxSafeInteger ≤ n ∧ n ≤ maxSafeInteger)

/-- A boolean. -/
def bool? : Json → Option Bool
  | .bool b => some b
  | _ => none

/-- A field that is `null` or passes a check. -/
def nullOr {α : Type} (check : Json → Option α) : Json → Option (Option α)
  | .null => some none
  | v => (check v).map some

/-- An object with exactly these keys, and its fields. -/
def record? (v : Json) (keys : List String) : Option (List (String × Json)) :=
  v.asObject?.filter fun fields ↦ Json.Fields.keysAre fields keys

mutual

/-- `canonicalTranscriptValue`: the fields of an object are written in the order of their keys. -/
def canonicalTranscriptValue (js : Js) : Json → String
  | .arr items => "[" ++ ",".intercalate (canonicalItems js items) ++ "]"
  | .obj fields =>
    "\x7b" ++ ",".intercalate (((canonicalFields js fields).insertionSort fun a b ↦
      a.1 ≤ b.1).map fun f ↦ js.stringify (.str f.1) ++ ":" ++ f.2) ++ "\x7d"
  | v => js.stringify v

/-- The items of an array. -/
def canonicalItems (js : Js) : List Json → List String
  | [] => []
  | v :: items => canonicalTranscriptValue js v :: canonicalItems js items

/-- The fields of an object. -/
def canonicalFields (js : Js) : List (String × Json) → List (String × String)
  | [] => []
  | (k, v) :: fields => (k, canonicalTranscriptValue js v) :: canonicalFields js fields

end

/-! ### Blocks -/

/-- `validContentRef`. -/
def validContentRef (v : Json) : Bool :=
  (record? v ["refId", "revision", "byteLength"]).isSome &&
    ((v.get? "refId").bind identifier?).isSome && ((v.get? "revision").bind decimal?).isSome &&
    ((v.get? "byteLength").bind decimal?).isSome

/-- A text that is given inline, or a reference to it; the other one is `null`. -/
def inlineOrRef (inline ref : Json) : Bool :=
  (inline.asStr?.any fun text ↦ decide (Machine.byteLen text ≤ maxInlineBytes)) &&
      decide (ref = .null) ||
    decide (inline = .null) && validContentRef ref

/-- `validTextContent`. -/
def validTextContent (v : Json) : Bool :=
  (record? v ["inlineContent", "sourceRef"]).isSome &&
    inlineOrRef ((v.get? "inlineContent").getD .null) ((v.get? "sourceRef").getD .null)

/-- `String(value)`, as far as it can be a status: an array with one item is written like the
item. -/
def statusText : Json → Option String
  | .str s => some s
  | .arr [v] => statusText v
  | _ => none

/-- `validStatus`. -/
def validStatus (v : Json) : Bool :=
  (statusText v).any fun s ↦
    decide (s ∈ ["queued", "running", "completed", "failed", "interrupted"])

/-- `validPresentation`. -/
def validPresentation (v : Json) : Bool :=
  decide (v = .null) ||
    (record? v ["agentRunId", "sourceType", "observedAtMs", "displayTarget", "durationMs",
      "operation"]).isSome &&
    ((v.get? "agentRunId").bind (nullOr Json.asStr?)).isSome &&
    ((v.get? "sourceType").bind Json.asStr?).isSome &&
    ((v.get? "observedAtMs").bind safeInteger?).isSome &&
    ((v.get? "displayTarget").bind (nullOr Json.asStr?)).isSome &&
    (((v.get? "durationMs").bind (nullOr safeInteger?)).any fun d ↦ d.all fun n ↦ decide (0 ≤ n))

/-- The body of a block, by its kind. -/
def validBody (body : Json) : Bool :=
  let field (key : String) : Json := (body.get? key).getD .null
  let hasKeys (keys : List String) : Bool := (record? body keys).isSome
  match (body.get? "kind").bind Json.asStr? with
  | some "userText" => hasKeys ["kind", "content"] && validTextContent (field "content")
  | some "assistantText" =>
    hasKeys ["kind", "content", "status"] && validTextContent (field "content") &&
      validStatus (field "status")
  | some "reasoning" =>
    hasKeys ["kind", "requestId", "content", "status"] && (identifier? (field "requestId")).isSome &&
      validTextContent (field "content") && validStatus (field "status")
  | some "notice" =>
    hasKeys ["kind", "noticeType", "content", "status"] &&
      (identifier? (field "noticeType")).isSome && validTextContent (field "content") &&
      validStatus (field "status")
  | some "tool" =>
    hasKeys ["kind", "callId", "toolName", "status", "summary", "summaryRef", "outputRef"] &&
      (identifier? (field "callId")).isSome && (identifier? (field "toolName")).isSome &&
      validStatus (field "status") && inlineOrRef (field "summary") (field "summaryRef") &&
      (decide (field "outputRef" = .null) || validContentRef (field "outputRef"))
  | _ => false

/-- The ordinal of an order key. -/
def ordinal? (v : Json) : Option Nat :=
  ((integer? v).filter fun n ↦ decide (0 ≤ n ∧ n ≤ 4294967295)).map Int.toNat

/-- `validBlock`. -/
def validBlock (v : Json) : Bool :=
  let field (key : String) : Json := (v.get? key).getD .null
  let fields := ["blockId", "blockRevision", "orderKey", "body"]
  let shape := match v.get? "presentation" with
    | some presentation =>
      validPresentation presentation && (record? v (fields ++ ["presentation"])).isSome
    | none => (record? v fields).isSome
  shape && (identifier? (field "blockId")).isSome && (decimal? (field "blockRevision")).isSome &&
    (record? (field "orderKey") ["sourceSequence", "ordinal"]).isSome &&
    (((field "orderKey").get? "sourceSequence").bind decimal?).isSome &&
    (((field "orderKey").get? "ordinal").bind ordinal?).isSome && validBody (field "body")

/-- A block that passed the check. -/
def TranscriptBlock : Type := { value : Json // validBlock value = true }
  deriving DecidableEq

/-- An order key: the sequence of the source, and the ordinal within it. -/
abbrev OrderKey : Type := Nat ×ₗ Nat

namespace TranscriptBlock

/-- The block, if the value is one. -/
def ofJson? (v : Json) : Option TranscriptBlock :=
  if h : validBlock v = true then some ⟨v, h⟩ else none

variable (b : TranscriptBlock)

/-- `block.blockId`. -/
def blockId : String := ((b.1.get? "blockId").bind Json.asStr?).getD ""

/-- `BigInt(block.blockRevision)`. -/
def blockRevision : Nat := ((b.1.get? "blockRevision").bind decimal?).getD 0

/-- `BigInt(block.orderKey.sourceSequence)`. -/
def sourceSequence : Nat := ((b.1.pointer ["orderKey", "sourceSequence"]).bind decimal?).getD 0

/-- `block.orderKey.ordinal`. -/
def ordinal : Nat := ((b.1.pointer ["orderKey", "ordinal"]).bind ordinal?).getD 0

/-- `transcriptOrderIdentity`: the text `sequence:ordinal`, as the pair it is written from. -/
def order : OrderKey := toLex (b.sourceSequence, b.ordinal)

/-- `block.body.kind`. -/
def kind : String := ((b.1.pointer ["body", "kind"]).bind Json.asStr?).getD ""

/-- `block.body.kind === "notice"`. -/
def isNotice : Bool := decide (b.kind = "notice")

/-- The bytes of text that a block carries inline. -/
def inlineBytes : Nat :=
  let text := if b.kind = "tool" then b.1.pointer ["body", "summary"]
    else b.1.pointer ["body", "content", "inlineContent"]
  Machine.byteLen ((text.bind Json.asStr?).getD "")

/-- `canonicalTranscriptValue(block)`. -/
def canonical (js : Js) : String := canonicalTranscriptValue js b.1

/-- The length of `JSON.stringify(block)`. -/
def bytes (js : Js) : Nat := js.serializedBytes b.1

end TranscriptBlock

/-- `compareTranscriptBlocks`. -/
def compareTranscriptBlocks (left right : TranscriptBlock) : Int :=
  let sequence : Int := left.sourceSequence - right.sourceSequence
  if sequence ≠ 0 then if sequence < 0 then -1 else 1
  else left.ordinal - right.ordinal

theorem compareTranscriptBlocks_eq_zero {a b : TranscriptBlock} :
    compareTranscriptBlocks a b = 0 ↔ a.order = b.order := by
  rw [compareTranscriptBlocks, TranscriptBlock.order, TranscriptBlock.order, toLex_inj, Prod.mk.injEq]
  constructor
  · intro h
    split_ifs at h <;> omega
  · rintro ⟨hsequence, hordinal⟩
    simp [hsequence, hordinal]

theorem compareTranscriptBlocks_neg {a b : TranscriptBlock} :
    compareTranscriptBlocks a b < 0 ↔ a.order < b.order := by
  rw [compareTranscriptBlocks, TranscriptBlock.order, TranscriptBlock.order, Prod.Lex.toLex_lt_toLex]
  show _ ↔ a.sourceSequence < b.sourceSequence ∨
    a.sourceSequence = b.sourceSequence ∧ a.ordinal < b.ordinal
  split_ifs <;> omega

theorem compareTranscriptBlocks_nonpos {a b : TranscriptBlock} :
    compareTranscriptBlocks a b ≤ 0 ↔ a.order ≤ b.order := by
  rw [le_iff_lt_or_eq, le_iff_lt_or_eq, compareTranscriptBlocks_neg, compareTranscriptBlocks_eq_zero]

/-! ### Pages -/

/-- `TranscriptIdentity`. -/
structure TranscriptIdentity where
  sessionId : String
  projectionVersion : String
  projectionGeneration : String
  sourceHighWater : Nat
  deriving DecidableEq

/-- What is read off the value of a page. `resumeCursors` has at most one entry. -/
structure PageFields where
  identity : TranscriptIdentity
  blocks : List TranscriptBlock
  olderCursor : Option String
  resumeCursor : Option Nat
  deriving DecidableEq

/-- `page.hasOlder`, which has to agree with the cursor. -/
def PageFields.hasOlder (page : PageFields) : Bool := page.olderCursor.isSome

/-- The resume cursors of a page at a high water: none at 0, and otherwise one that is not ahead. -/
def readResumeCursor (sourceHighWater : Nat) (cursors : List Json) : Option (Option Nat) :=
  match sourceHighWater, cursors with
  | 0, [] => some none
  | 0, _ => none
  | _, [cursor] => do
    let _ ← record? cursor ["streamId", "cursor"]
    guard (cursor.get? "streamId" = some (.str workspaceStreamId))
    let position ← (cursor.get? "cursor").bind decimal?
    guard (position ≤ sourceHighWater)
    return some position
  | _, _ => none

/-- The checks of `validateTranscriptPage`, up to those on the order of the blocks. -/
def readTranscriptPage (js : Js) (value : Json) (sessionId : String) : Option PageFields := do
  let _ ← record? value ["schema", "sessionId", "projectionVersion", "projectionGeneration",
    "sourceHighWater", "blocks", "olderCursor", "hasOlder", "resumeCursors"]
  guard (value.get? "schema" = some (.str pageSchema))
  guard (value.get? "sessionId" = some (.str sessionId))
  guard (value.get? "projectionVersion" = some (.str projectionVersion))
  let projectionGeneration ← (value.get? "projectionGeneration").bind identifier?
  let sourceHighWater ← (value.get? "sourceHighWater").bind decimal?
  let items ← (value.get? "blocks").bind Json.asArray?
  guard (items.length ≤ maxBlocks)
  let blocks ← items.mapM TranscriptBlock.ofJson?
  let hasOlder ← (value.get? "hasOlder").bind bool?
  let olderCursor ← (value.get? "olderCursor").bind (nullOr identifier?)
  guard (hasOlder = olderCursor.isSome)
  let cursors ← (value.get? "resumeCursors").bind Json.asArray?
  guard (js.serializedBytes value ≤ maxPageBytes)
  guard ((blocks.map (·.inlineBytes)).sum ≤ maxInlineBytes)
  let resumeCursor ← readResumeCursor sourceHighWater cursors
  return ⟨⟨sessionId, projectionVersion, projectionGeneration, sourceHighWater⟩, blocks,
    olderCursor, resumeCursor⟩

/-- The loop of `validateTranscriptPage` over the blocks. -/
def PageFields.Ordered (page : PageFields) : Prop :=
  (∀ b ∈ page.blocks, b.sourceSequence ≤ page.identity.sourceHighWater) ∧
    page.blocks.IsChain (fun a b ↦ compareTranscriptBlocks a b < 0) ∧
    (page.blocks.map (·.blockId)).Nodup

instance (page : PageFields) : Decidable page.Ordered := by
  unfold PageFields.Ordered; infer_instance

/-- `TranscriptPage`: a page whose blocks are in order and not ahead of the page. -/
structure TranscriptPage extends PageFields where
  ordered : toPageFields.Ordered

/-- `validateTranscriptPage`. -/
def validateTranscriptPage (js : Js) (value : Json) (sessionId : String) :
    Except String TranscriptPage :=
  match readTranscriptPage js value sessionId with
  | none => .error "invalid transcript page"
  | some page =>
    if h : page.Ordered then .ok ⟨page, h⟩ else .error "invalid transcript page"

/-- `validateTranscriptTailPage`. -/
def validateTranscriptTailPage (js : Js) (value : Json) : Except String TranscriptPage := do
  let sessionId ← okOr ((value.get? "sessionId").bind identifier?) "invalid transcript page"
  validateTranscriptPage js value sessionId

namespace TranscriptPage

variable (page : TranscriptPage)

theorem blocks_sorted : page.blocks.Pairwise fun a b ↦ a.order < b.order := by
  have hchain := page.ordered.2.1
  simp only [compareTranscriptBlocks_neg] at hchain
  have hmap : (page.blocks.map (·.order)).IsChain (· < ·) := (List.isChain_map _).2 hchain
  exact List.pairwise_map.1 hmap.pairwise

theorem nodup_blockIds : (page.blocks.map (·.blockId)).Nodup := page.ordered.2.2

end TranscriptPage

/-! ### Patch pages -/

/-- A removal of a patch. -/
structure TranscriptRemoval where
  blockId : String
  blockRevision : Nat
  deriving DecidableEq

/-- `TranscriptPatch`. -/
structure TranscriptPatch where
  sourceHighWater : Nat
  upserts : List TranscriptBlock
  removals : List TranscriptRemoval
  deriving DecidableEq

/-- `TranscriptPatchPage`. -/
structure TranscriptPatchPage where
  throughSourceHighWater : Nat
  patches : List TranscriptPatch
  nextSourceHighWater : Nat
  deriving DecidableEq

/-- The checks on one removal. -/
def readRemoval (v : Json) : Option TranscriptRemoval := do
  let _ ← record? v ["blockId", "blockRevision"]
  let blockId ← (v.get? "blockId").bind identifier?
  let blockRevision ← (v.get? "blockRevision").bind decimal?
  return ⟨blockId, blockRevision⟩

/-- The identity of a page or patch in the value. -/
def sameProjection (value : Json) (expected : TranscriptIdentity) : Bool :=
  decide (value.get? "sessionId" = some (.str expected.sessionId)) &&
    decide (value.get? "projectionVersion" = some (.str expected.projectionVersion)) &&
    decide (value.get? "projectionGeneration" = some (.str expected.projectionGeneration))

/-- The checks on one patch, up to those on its place in the page. -/
def readPatch (js : Js) (expected : TranscriptIdentity) (v : Json) : Option TranscriptPatch := do
  let _ ← record? v ["schema", "sessionId", "projectionVersion", "projectionGeneration",
    "sourceHighWater", "streamId", "appliedCursor", "upserts", "removals"]
  guard (v.get? "schema" = some (.str patchSchema))
  guard (sameProjection v expected)
  guard (v.get? "streamId" = some (.str workspaceStreamId))
  guard (v.get? "appliedCursor" = v.get? "sourceHighWater")
  let sourceHighWater ← (v.get? "sourceHighWater").bind decimal?
  let upsertItems ← (v.get? "upserts").bind Json.asArray?
  let removalItems ← (v.get? "removals").bind Json.asArray?
  guard (upsertItems.length + removalItems.length ≤ maxBlocks)
  let upserts ← upsertItems.mapM TranscriptBlock.ofJson?
  let removals ← removalItems.mapM readRemoval
  guard (upserts.map (·.blockId) ++ removals.map (·.blockId)).Nodup
  guard (js.serializedBytes v ≤ maxPageBytes)
  return ⟨sourceHighWater, upserts, removals⟩

/-- The checks of `validateTranscriptPatchPage`, up to those on the order of the patches. `hasMore`
has to say whether the page ends before the high water it is read through. -/
def readTranscriptPatchPage (js : Js) (value : Json) (expected : TranscriptIdentity) :
    Option TranscriptPatchPage := do
  let _ ← record? value ["schema", "sessionId", "projectionVersion", "projectionGeneration",
    "throughSourceHighWater", "patches", "nextSourceHighWater", "hasMore"]
  guard (value.get? "schema" = some (.str patchPageSchema))
  guard (sameProjection value expected)
  let through ← (value.get? "throughSourceHighWater").bind decimal?
  let next ← (value.get? "nextSourceHighWater").bind decimal?
  let hasMore ← (value.get? "hasMore").bind bool?
  let items ← (value.get? "patches").bind Json.asArray?
  guard (items.length ≤ maxBlocks)
  guard (js.serializedBytes value ≤ maxPatchPageBytes)
  let patches ← items.mapM (readPatch js expected)
  guard (hasMore = decide (next < through))
  return ⟨through, patches, next⟩

/-- The checks on the order of the patches: they go on from `after`, up to the end of the page. -/
def TranscriptPatchPage.Follows (page : TranscriptPatchPage) (after : Nat) : Prop :=
  after ≤ page.nextSourceHighWater ∧
    (after :: page.patches.map (·.sourceHighWater)).IsChain (· < ·) ∧
    (∀ patch ∈ page.patches, patch.sourceHighWater ≤ page.throughSourceHighWater) ∧
    match page.patches.getLast? with
    | some last => page.nextSourceHighWater = last.sourceHighWater
    | none => page.nextSourceHighWater = page.throughSourceHighWater ∧
        after = page.throughSourceHighWater

instance (page : TranscriptPatchPage) (after : Nat) : Decidable (page.Follows after) := by
  unfold TranscriptPatchPage.Follows
  cases page.patches.getLast? <;> infer_instance

/-- `validateTranscriptPatchPage`. -/
def validateTranscriptPatchPage (js : Js) (value : Json) (expected : TranscriptIdentity)
    (after : Nat) : Except String TranscriptPatchPage := do
  let page ← okOr (readTranscriptPatchPage js value expected) "invalid transcript patch page"
  require (page.Follows after) "invalid transcript patch page"
  return page

/-! ### Live overlays -/

/-- The reasoning of a live overlay. -/
structure LiveReasoning where
  blockId : String
  requestId : String
  text : String
  deriving DecidableEq

/-- `TranscriptLiveOverlay`. -/
structure TranscriptLiveOverlay where
  messageId : String
  turnId : String
  afterSourceHighWater : Nat
  revision : Int
  text : String
  reasoning : Option LiveReasoning
  deriving DecidableEq

/-- The reasoning of an overlay. -/
def readReasoning (v : Json) : Option LiveReasoning := do
  let _ ← record? v ["blockId", "requestId", "text"]
  let blockId ← (v.get? "blockId").bind identifier?
  let requestId ← (v.get? "requestId").bind identifier?
  let text ← (v.get? "text").bind Json.asStr?
  return ⟨blockId, requestId, text⟩

/-- `parseTranscriptLiveOverlay`. -/
def parseTranscriptLiveOverlay (v : Json) : Option TranscriptLiveOverlay := do
  let _ ← record? v ["messageId", "turnId", "afterSourceHighWater", "revision", "text",
    "reasoning"]
  let messageId ← (v.get? "messageId").bind identifier?
  let turnId ← (v.get? "turnId").bind identifier?
  let after ← (v.get? "afterSourceHighWater").bind decimal?
  let revision ← (v.get? "revision").bind safeInteger?
  guard (1 ≤ revision)
  let text ← (v.get? "text").bind Json.asStr?
  let reasoning ← (v.get? "reasoning").bind (nullOr readReasoning)
  return ⟨messageId, turnId, after, revision, text, reasoning⟩

end Centaeris.Web
