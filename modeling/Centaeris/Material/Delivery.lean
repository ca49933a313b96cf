import Centaeris.Material.Reading
import Centaeris.Material.Segments

/-!
# Parts of a saved result

A result of a read or a search is saved as a whole and handed out in parts. A part of an item or a hit says
where in the canonical text it is (`partLocator`), and what is saved is what a read with a full window or a
search gives (`Produced`).
-/

namespace Centaeris.Material.Delivery

open Utf8 (encode)
open Evidence (Text Locator ReadResult Hit pagesOf pageBounds slice)

/-! ### Snapshots and their parts -/

/-- An item of a read, or a hit of a search. -/
inductive Value
  | item (r : ReadResult)
  | hit (h : Hit)
  deriving DecidableEq

namespace Value

def content : Value → Text
  | .item r => r.content
  | .hit h => h.content

def locator : Value → Option Locator
  | .item r => r.locator
  | .hit h => h.locator

def representationId : Value → String
  | .item r => r.representationId
  | .hit h => h.representationId

end Value

/-- The key of the values in a snapshot, with the values. -/
inductive Values
  | items (l : List ReadResult)
  | hits (l : List Hit)

/-- A saved result, with the page ranges and the digest that are put into it. -/
structure Snapshot where
  values : Values
  pageRanges : List (String × List (Nat × Nat × Nat))
  digest : Option String

section Page

variable (snapshot : Snapshot)

/-- What `_single_page` has read of the cursor when it looks for how much fits. -/
structure Place where
  index : Nat
  offset : Nat
  original : Value
  /-- The content before the offset, and from it on. -/
  before : Text
  remaining : Text

/-- The range of a part of a content. -/
def partLocator (place : Place) (text : Text) (l : Locator) : Locator :=
  let startByte := l.startByte + place.offset
  let endByte := startByte + (encode text).length
  let startLine := l.startLine + place.before.count '\n'
  let ranges := (snapshot.pageRanges.lookup place.original.representationId).getD []
  let pages := if ranges = [] then (l.pageStart, l.pageEnd) else pageBounds (pagesOf ranges startByte endByte)
  { pageStart := pages.1
    pageEnd := pages.2
    startByte
    endByte
    startLine
    endLine := startLine + text.count '\n' - if text.getLast? = some '\n' then 1 else 0 }

end Page

/-! ### What is saved -/

/-- A value of a result: of a read with a full window, or of a search with one in a segment. -/
inductive Produced (sha256 : List UInt8 → String) (canonicalOf : String → List UInt8) : Value → Prop
  | item {content : Text} {bound : Evidence.BoundInput} {representation : Evidence.Representation}
      {offset limit : Nat} {r : ReadResult} (hcanonical : encode content = canonicalOf representation.representationId)
      (hlimit : 1 ≤ limit)
      (hread : Evidence.readEvidence sha256 content bound representation offset limit true = .ok r) :
      Produced sha256 canonicalOf (.item r)
  | hit {segment : Evidence.Segment} {representation : Evidence.Representation} {bound : Evidence.BoundInput}
      {score : Nat} {h : Hit} (hexact : Evidence.Exact (canonicalOf representation.representationId) segment)
      (hne : segment.boundedText ≠ [])
      (hsearch : Evidence.searchEvidence sha256 segment representation bound score true = some h) :
      Produced sha256 canonicalOf (.hit h)

theorem slice_length {b : List UInt8} {i j : Nat} (hj : j ≤ b.length) :
    (slice b i j).length = j - i := by
  rw [slice, List.length_drop, List.length_take, Nat.min_eq_left hj]

/-- The text of a window, between the bytes of its first and its last line. -/
theorem slice_window (lines : List Text) {offset k : Nat} :
    slice (encode lines.flatten) (encode (lines.take offset).flatten).length
      (encode (lines.take (offset + k)).flatten).length = encode ((lines.drop offset).take k).flatten := by
  have hend : (encode (lines.take (offset + k)).flatten).length =
      (encode (lines.take offset).flatten).length + (encode ((lines.drop offset).take k).flatten).length := by
    rw [List.take_add, List.flatten_append, Utf8.encode_append, List.length_append]
  have hlines : lines.flatten =
      (lines.take offset).flatten ++ (((lines.drop offset).take k).flatten ++ ((lines.drop offset).drop k).flatten) := by
    rw [← List.flatten_append, List.take_append_drop, ← List.flatten_append, List.take_append_drop]
  rw [hend]
  conv_lhs => rw [hlines]
  rw [Evidence.slice_encode, Utf8.take_encode]

end Centaeris.Material.Delivery
