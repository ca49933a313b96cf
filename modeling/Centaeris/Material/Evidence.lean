import Centaeris.Base.Except
import Centaeris.Base.Lines
import Centaeris.Base.Utf8Cut

/-!
# Evidence from a material

A material is read as its canonical text, in windows of lines (`readEvidence`), or by the segments that its
pages were cut into (`searchEvidence`). Both give a text with a locator: the bytes and the lines of the
canonical text that it stands for.

A window ends after so many lines, and, unless it is a full one, before it has too many bytes. A line that
has too many by itself is never in a window, and the window that would start with it says so.
-/

namespace Centaeris.Material.Evidence

open Utf8 (encode)
open Lines (splitLines splitLinesKeep)

/-- A text, by its code points. -/
abbrev Text : Type := List Char

/-- `MAX_READ_BYTES`. -/
def maxReadBytes : Nat := 50 * 1024

/-- `MAX_SEARCH_SNIPPET_BYTES`. -/
def maxSearchSnippetBytes : Nat := 8 * 1024

/-- `KnowledgeError`. -/
structure KnowledgeError where
  code : String
  status : Nat
  deriving DecidableEq

/-- A page of a manifest. -/
structure Page where
  page : Nat
  route : String
  text : Text
  canonicalStartByte : Nat
  canonicalEndByte : Nat
  canonicalStartLine : Nat
  canonicalEndLine : Nat
  deriving DecidableEq

/-- What is read of a `DerivedRepresentation`. -/
structure Representation where
  representationId : String
  processingSpecificationId : String
  canonicalTextSha256 : String
  pages : List Page
  deriving DecidableEq

/-- What is read of a `BoundInput`. -/
structure BoundInput where
  virtualPath : String
  inputRef : String
  displayName : String
  objectRef : String
  ownerKind : String
  evidenceKind : String
  sha256 : String
  generation : Int
  citationAllowed : Bool
  /-- `owner_updated_at(bound.owner).isoformat()`. -/
  updatedAt : String
  deriving DecidableEq

/-- A locator of the kind `textSpan`. -/
structure Locator where
  pageStart : Option Nat
  pageEnd : Option Nat
  startByte : Nat
  endByte : Nat
  startLine : Nat
  endLine : Nat
  deriving DecidableEq

/-- What a window was ended by. -/
inductive TruncatedBy
  | lines
  | bytes
  deriving DecidableEq

/-! ### Reading -/

/-- `_line_locator`. -/
def lineLocator (content : Text) (startLine endLine : Nat) : Except KnowledgeError Locator :=
  if endLine < startLine then .error ⟨"knowledge_read_locator_invalid", 409⟩
  else
    let lines := splitLinesKeep content
    let startByte := (encode (lines.take (startLine - 1)).flatten).length
    let endByte := (encode (lines.take endLine).flatten).length
    .ok ⟨none, none, startByte, max (startByte + 1) endByte, startLine, endLine⟩

/-- The pages that a range of bytes lies on. -/
def pagesOf (pages : List (Nat × Nat × Nat)) (startByte endByte : Nat) : List Nat :=
  (pages.filter fun p ↦ p.1 < endByte ∧ startByte < p.2.1).map fun p ↦ p.2.2

/-- `min(pages), max(pages)`, if there are any. -/
def pageBounds (pages : List Nat) : Option Nat × Option Nat := (pages.min?, pages.max?)

/-- The ranges of the pages of a manifest. -/
def pageRanges (pages : List Page) : List (Nat × Nat × Nat) :=
  pages.map fun p ↦ (p.canonicalStartByte, p.canonicalEndByte, p.page)

/-- `_locator_pages`. -/
def locatorPages (pages : List Page) (locator : Locator) : Option Nat × Option Nat :=
  pageBounds (pagesOf (pageRanges pages) locator.startByte locator.endByte)

/-- The loop of `read_evidence` over the lines from the offset on, with what it has selected. -/
def selectLines (fullWindow : Bool) (limit : Nat) : List Text → List Text → Nat →
    List Text × Option TruncatedBy × Bool
  | [], selected, _ => (selected, none, false)
  | line :: rest, selected, outputBytes =>
    if selected.length = limit then (selected, some .lines, false)
    else
      let nextBytes := outputBytes + (if selected = [] then 0 else 1) + (encode line).length
      if fullWindow = false ∧ maxReadBytes < nextBytes then (selected, some .bytes, decide (selected = []))
      else selectLines fullWindow limit rest (selected ++ [line]) nextBytes

/-- The lines that are selected from. -/
def windowLines (fullWindow : Bool) (content : Text) : List Text :=
  if fullWindow then splitLinesKeep content else splitLines content

/-- `("" if full_window else "\n").join(selected)`. -/
def joinLines (fullWindow : Bool) (selected : List Text) : Text :=
  if fullWindow then selected.flatten else ['\n'].intercalate selected

/-- `file_read_result.v1`. -/
structure ReadResult where
  path : String
  startLine : Nat
  endLine : Nat
  totalLines : Nat
  totalBytes : Nat
  outputBytes : Nat
  maxLines : Nat
  truncated : Bool
  truncatedBy : Option TruncatedBy
  firstLineExceedsLimit : Bool
  nextOffset : Option Nat
  fileHash : String
  content : Text
  inputRef : String
  displayName : String
  ownerRef : String
  ownerKind : String
  evidenceKind : String
  ownerSha256 : String
  ownerGeneration : Int
  representationId : String
  specDigest : String
  locator : Option Locator
  evidenceSha256 : String
  citationAllowed : Bool
  pageStart : Option Nat
  pageEnd : Option Nat
  documentUsedOcr : Bool
  deriving DecidableEq

/-- The locator of what was selected, with its pages. -/
def selectedLocator (content : Text) (pages : List Page) (selectedText : Text) (offset endOffset : Nat) :
    Except KnowledgeError (Option Locator) :=
  if selectedText = [] then .ok none
  else do
    let locator ← lineLocator content (offset + 1) endOffset
    let (pageStart, pageEnd) := locatorPages pages locator
    return some { locator with pageStart, pageEnd }

variable (sha256 : List UInt8 → String)

/-- `read_evidence`. -/
def readEvidence (content : Text) (bound : BoundInput) (representation : Representation)
    (offset limit : Nat) (fullWindow : Bool) : Except KnowledgeError ReadResult := do
  let lines := windowLines fullWindow content
  Except.require (offset ≤ lines.length) ⟨"knowledge_read_offset_exceeds_content", 400⟩
  let (selected, by_, exceeds) := selectLines fullWindow limit (lines.drop offset) [] 0
  let endOffset := offset + selected.length
  let truncated := decide (endOffset < lines.length)
  let truncatedBy := if truncated then by_ else none
  let firstLineExceedsLimit := truncated && exceeds
  let selectedText := joinLines fullWindow selected
  let locator ← selectedLocator content representation.pages selectedText offset endOffset
  return {
    path := bound.virtualPath
    startLine := offset + 1
    endLine := endOffset
    totalLines := lines.length
    totalBytes := (encode content).length
    outputBytes := (encode selectedText).length
    maxLines := limit
    truncated
    truncatedBy
    firstLineExceedsLimit
    nextOffset := if truncated && !firstLineExceedsLimit then some endOffset else none
    fileHash := representation.canonicalTextSha256
    content := selectedText
    inputRef := bound.inputRef
    displayName := bound.displayName
    ownerRef := bound.objectRef
    ownerKind := bound.ownerKind
    evidenceKind := bound.evidenceKind
    ownerSha256 := bound.sha256
    ownerGeneration := bound.generation
    representationId := representation.representationId
    specDigest := representation.processingSpecificationId
    locator
    evidenceSha256 := sha256 (encode selectedText)
    citationAllowed := bound.citationAllowed && decide (selectedText ≠ [])
    pageStart := locator.bind Locator.pageStart
    pageEnd := locator.bind Locator.pageEnd
    documentUsedOcr := representation.pages.any fun p ↦ p.route == "ppOcrV6Small" }

/-- Reading on at `nextOffset` while there is one. -/
def readOn (content : Text) (bound : BoundInput) (representation : Representation) (limit : Nat)
    (fullWindow : Bool) : Nat → Nat → Except KnowledgeError (List ReadResult)
  | 0, _ => .ok []
  | fuel + 1, offset => do
    let result ← readEvidence sha256 content bound representation offset limit fullWindow
    match result.nextOffset with
    | none => return [result]
    | some next =>
      let results ← readOn content bound representation limit fullWindow fuel next
      return result :: results

/-! ### Searching -/

/-- A segment of a page. -/
structure Segment where
  segmentId : String
  ordinal : Nat
  boundedText : Text
  textSha256 : String
  locator : Locator
  deriving DecidableEq

/-- A hit of a search. -/
structure Hit where
  segmentId : String
  inputRef : String
  displayName : String
  ownerRef : String
  ownerKind : String
  evidenceKind : String
  ownerSha256 : String
  ownerGeneration : Int
  representationId : String
  specDigest : String
  locator : Option Locator
  evidenceSha256 : String
  citationAllowed : Bool
  score : Nat
  content : Text
  updatedAt : String
  deriving DecidableEq

/-- The loop of `_bounded_utf8_prefix`: back to the first byte of a character. -/
def backToFirst (encoded : List UInt8) : Nat → Nat
  | 0 => 0
  | last + 1 =>
    match encoded[last + 1]? with
    | some b => if Utf8.isContinuation b then backToFirst encoded last else last + 1
    | none => last + 1

/-- `_bounded_utf8_prefix`. -/
def boundedUtf8Prefix (value : Text) (maximumBytes : Nat) : Option Text :=
  let encoded := encode value
  if encoded.length ≤ maximumBytes then some value
  else (Utf8.decode (encoded.take (backToFirst encoded maximumBytes))).map String.toList

/-- The text of a hit. -/
def snippet (segment : Segment) (fullWindow : Bool) : Option Text :=
  if fullWindow then some segment.boundedText else boundedUtf8Prefix segment.boundedText maxSearchSnippetBytes

/-- `search_evidence`. -/
def searchEvidence (segment : Segment) (representation : Representation) (bound : BoundInput) (score : Nat)
    (fullWindow : Bool) : Option Hit := do
  let content ← snippet segment fullWindow
  return {
    segmentId := segment.segmentId
    inputRef := bound.inputRef
    displayName := bound.displayName
    ownerRef := bound.objectRef
    ownerKind := bound.ownerKind
    evidenceKind := bound.evidenceKind
    ownerSha256 := bound.sha256
    ownerGeneration := bound.generation
    representationId := representation.representationId
    specDigest := representation.processingSpecificationId
    locator := some { segment.locator with
      endByte := segment.locator.startByte + (encode content).length
      endLine := segment.locator.startLine + content.count '\n' }
    evidenceSha256 := sha256 (encode content)
    citationAllowed := bound.citationAllowed
    score
    content
    updatedAt := bound.updatedAt }

end Centaeris.Material.Evidence
