import Centaeris.Base.Utf8Cut
import Mathlib.Data.List.Sort

/-!
# Ranges of a tool output

A long tool output is read in ranges of at most 64 KiB, by the offset of their first byte. The output is in
the event itself, or it was captured and is stored in chunks. A range may end inside a character, which is
then left for the next range. The two ways to read find the end differently: for a text in the event up to
three bytes are taken off until the rest can be decoded, for a captured one the decoder says where the last
character starts. From a place between two characters, both read the most that fits (`inline_of_cut`,
`captured_of_cut`), so that the ranges make up the output.

**An offset inside the last character** (`inside_accepted`). If the three bytes that are taken off are all
there is, then nothing is left, which can be decoded. So an offset less than four bytes before the end that
is inside a character is not rejected: the range is empty, ends where it starts and says that there is more.
A captured output rejects it. Otherwise the two agree (`output_ranges`).
-/

namespace Centaeris.Transcript

open Utf8

/-- `TRANSCRIPT_CONTENT_RANGE_BYTES`, and the size of a chunk. -/
def rangeBytes : ℕ := 64 * 1024

/-! ### A text in the event -/

def decodeTranscriptRange (encoded : List UInt8) (offset : ℕ) : Except String (List Char × ℕ) :=
  let attempt (trim : ℕ) : Option (List Char × ℕ) :=
    -- `encoded[:-trim]` is empty if there is not so much to take off.
    let candidate := encoded.take (encoded.length - trim)
    (decode candidate).map fun content ↦ (content.toList, offset + candidate.length)
  match (List.range 4).findSome? attempt with
  | some range => .ok range
  | none => .error "invalid range boundary"

def transcriptUtf8Range (content : List Char) (offset : ℕ) : Except String (List Char × ℕ) :=
  let encoded := encode content
  if encoded.length < offset then .error "transcript content offset exceeds byteLength"
  else decodeTranscriptRange ((encoded.drop offset).take rangeBytes) offset

/-! ### A captured output -/

/-- What `bytes.decode("utf-8")` does: the text, or an error, of which `start` is read only if the data ends
too early. -/
inductive Decoded
  | ok (text : List Char)
  | unexpectedEnd (start : ℕ)
  | invalid
  deriving DecidableEq

def decodeUtf8 (data : List UInt8) : Decoded :=
  match run .idle data with
  | none => .invalid
  | some (text, pending) => if pending.needed = 0 then .ok text else .unexpectedEnd (encode text).length

/-- A `TranscriptOutputChunk`. -/
structure OutputChunk where
  index : ℕ
  data : List UInt8
  sha256 : String
  deriving DecidableEq

/-- A `TranscriptOutputCapture` with its chunks. -/
structure OutputCapture where
  byteLength : ℕ
  chunkSize : ℕ
  purged : Bool
  chunks : List OutputChunk
  deriving DecidableEq

/-- The end of `read_output_range`: a page may end inside a character, and may not start inside one. -/
def decodeOutputRange (data : List UInt8) (offset last byteLength : ℕ) : Except String (List Char × ℕ) :=
  match decodeUtf8 data with
  | .ok text => .ok (text, last)
  | .invalid => .error "transcript capture UTF-8 boundary invalid"
  | .unexpectedEnd start =>
    if start = 0 ∨ last = byteLength then .error "transcript capture UTF-8 boundary invalid"
    else
      match decodeUtf8 (data.take start) with
      | .ok text => .ok (text, offset + start)
      | _ => .error "transcript capture UTF-8 boundary invalid"

section Captured

variable (digest : List UInt8 → String)

/-- The chunk that `persist` writes at an index. -/
def chunkAt (data : List UInt8) (index : ℕ) : OutputChunk :=
  let chunk := (data.drop (index * rangeBytes)).take rangeBytes
  ⟨index, chunk, digest chunk⟩

/-- What `persist` writes for an output. -/
def persist (data : List UInt8) : OutputCapture where
  byteLength := data.length
  chunkSize := rangeBytes
  purged := false
  chunks := (List.range ((data.length + rangeBytes - 1) / rangeBytes)).map (chunkAt digest data)

/-- A chunk is the one that was asked for. -/
def OutputChunk.intact (chunk : OutputChunk) (capture : OutputCapture) (index : ℕ) : Bool :=
  chunk.index == index &&
    chunk.data.length == min capture.chunkSize (capture.byteLength - index * capture.chunkSize) &&
    chunk.sha256 == digest chunk.data

def readOutputRange (capture : Option OutputCapture) (offset byteLength : ℕ) :
    Except String (List Char × ℕ) :=
  match capture.filter fun capture ↦ !capture.purged && capture.byteLength == byteLength &&
      capture.chunkSize == rangeBytes && offset ≤ byteLength with
  | none => .error "transcript capture unavailable"
  | some capture =>
    if offset = byteLength then .ok ([], offset)
    else
      let last := min (offset + rangeBytes) byteLength
      let firstIndex := offset / capture.chunkSize
      let lastIndex := (last - 1) / capture.chunkSize
      let chunks := (capture.chunks.filter fun chunk ↦ firstIndex ≤ chunk.index ∧ chunk.index ≤ lastIndex)
        |>.insertionSort fun a b ↦ a.index ≤ b.index
      if chunks.length ≠ lastIndex - firstIndex + 1 then .error "transcript capture chunk missing"
      else if (chunks.zipIdx firstIndex).all fun e ↦ e.1.intact digest capture e.2 then
        decodeOutputRange
          (((chunks.flatMap OutputChunk.data).drop (offset % capture.chunkSize)).take (last - offset))
          offset last byteLength
      else .error "transcript capture chunk corrupt"

end Captured

/-! ### From a place between two characters -/

section Cut

variable {p q t : List Char} {offset : ℕ}

/-- The first of four attempts that succeeds. -/
theorem findSome?_range_four {α : Type} {f : ℕ → Option α} {k : ℕ} {a : α} (hk : k < 4)
    (hbefore : ∀ j < k, f j = none) (ha : f k = some a) : (List.range 4).findSome? f = some a := by
  have hrange : List.range 4 = [0, 1, 2, 3] := rfl
  obtain rfl | rfl | rfl | rfl : k = 0 ∨ k = 1 ∨ k = 2 ∨ k = 3 := by omega
  all_goals simp [hrange, hbefore, ha]

/-- **A text in the event**: the most that fits. -/
theorem inline_of_cut : transcriptUtf8Range (p ++ q) (encode p).length =
    .ok (fit q rangeBytes, (encode p).length + (encode (fit q rangeBytes)).length) := by
  rw [transcriptUtf8Range, if_neg (by simp), drop_encode, decodeTranscriptRange, List.length_take, ← fit_min]
  have hk : min rangeBytes (encode q).length ≤ (encode q).length := Nat.min_le_right _ _
  have htake (trim : ℕ) : ((encode q).take rangeBytes).take (min rangeBytes (encode q).length - trim) =
      (encode q).take (min rangeBytes (encode q).length - trim) := by
    rw [List.take_take, Nat.min_eq_left (by omega)]
  simp only [htake]
  generalize min rangeBytes (encode q).length = k at hk
  obtain ⟨r, hq, hle, -⟩ := fit_spec q k
  have hover := lt_length_fit_add hk
  rw [findSome?_range_four (k := k - (encode (fit q k)).length)
    (a := (fit q k, (encode p).length + (encode (fit q k)).length)) (by omega)]
  · intro trim htrim
    -- No character ends where so little is taken off.
    rw [Option.map_eq_none_iff, ← Option.not_isSome_iff_eq_none, decode_take_isSome (by omega)]
    intro hcut
    have := le_of_cut hcut (Nat.sub_le k trim)
    omega
  · have hlength : k - (k - (encode (fit q k)).length) = (encode (fit q k)).length := by omega
    have htext : (encode q).take (encode (fit q k)).length = encode (fit q k) := by
      have := take_encode (fit q k) r
      rwa [← hq] at this
    rw [hlength, htext, decode_encode]
    simp

/-- Consecutive chunks. -/
theorem flatMap_chunks (data : List UInt8) (size first count : ℕ) :
    (List.range' first count).flatMap (fun index ↦ (data.drop (index * size)).take size) =
      (data.drop (first * size)).take (count * size) := by
  induction count generalizing first with
  | zero => simp
  | succ count ih =>
    rw [List.range'_succ, List.flatMap_cons, ih, Nat.succ_mul count, Nat.add_comm (count * size), List.take_add,
      List.drop_drop, Nat.succ_mul]

/-- The indices of a range. -/
theorem filter_range {count first last : ℕ} (hfirst : first ≤ last) (hlast : last < count) :
    (List.range count).filter (fun i ↦ first ≤ i ∧ i ≤ last) = List.range' first (last - first + 1) := by
  refine List.Perm.eq_of_pairwise' ?_ ?_ ((List.perm_ext_iff_of_nodup (List.nodup_range.filter _)
    List.nodup_range').2 fun i ↦ ?_) (r := (· ≤ ·))
  · exact List.pairwise_le_range.filter _
  · exact List.pairwise_le_range'
  · simp only [List.mem_filter, List.mem_range, List.mem_range'_1, decide_eq_true_eq]
    omega

/-- A start of the bytes of a text, as the end of `read_output_range` sees it. -/
theorem decodeOutputRange_take {k : ℕ} (hk : k ≤ (encode q).length) (hne : fit q k ≠ [])
    (hall : k = (encode q).length → fit q k = q) :
    decodeOutputRange ((encode q).take k) offset (offset + k) (offset + (encode q).length) =
      .ok (fit q k, offset + (encode (fit q k)).length) := by
  obtain ⟨pending, hrun, hneeded⟩ := run_take hk
  rw [decodeOutputRange, decodeUtf8, hrun]
  by_cases heq : (encode (fit q k)).length = k
  · simp only [if_pos (hneeded.2 heq), heq]
  · have hlast : offset + k ≠ offset + (encode q).length := fun h ↦ heq (by rw [hall (by omega)]; omega)
    have hstart : (encode (fit q k)).length ≠ 0 := fun h ↦
      hne (encode_eq_nil_iff.1 (List.length_eq_zero_iff.1 h))
    obtain ⟨r, hq, hle, -⟩ := fit_spec q k
    have htext : ((encode q).take k).take (encode (fit q k)).length = encode (fit q k) := by
      rw [List.take_take, Nat.min_eq_left hle]
      have := take_encode (fit q k) r
      rwa [← hq] at this
    have hagain : decodeUtf8 (encode (fit q k)) = .ok (fit q k) := by
      rw [decodeUtf8, encode, run_flatMap]
      rfl
    simp only [if_neg (mt hneeded.1 heq), hstart, hlast, or_self, if_false, htext, hagain]

variable (digest : List UInt8 → String)

/-- The chunks of a range. -/
theorem filter_chunks_persist {data : List UInt8} {first last : ℕ} (hfirst : first ≤ last)
    (hlast : last * rangeBytes < data.length) :
    ((persist digest data).chunks.filter fun chunk ↦ first ≤ chunk.index ∧ chunk.index ≤ last) =
      (List.range' first (last - first + 1)).map (chunkAt digest data) := by
  rw [persist, List.filter_map, ← filter_range hfirst]
  · rfl
  · simp only [rangeBytes] at hlast ⊢
    omega

theorem filter_persist {data : List UInt8} (h : offset ≤ data.length) :
    (some (persist digest data)).filter (fun capture ↦ !capture.purged &&
      capture.byteLength == data.length && capture.chunkSize == rangeBytes && offset ≤ data.length) =
        some (persist digest data) := by
  simp [persist, h]

/-- **What is read of a captured output** is what was captured. -/
theorem readOutputRange_persist {data : List UInt8} (h : offset < data.length) :
    readOutputRange digest (some (persist digest data)) offset data.length =
      decodeOutputRange ((data.drop offset).take rangeBytes) offset (min (offset + rangeBytes) data.length)
        data.length := by
  rw [readOutputRange, filter_persist digest h.le]
  have hsize : (persist digest data).chunkSize = rangeBytes := rfl
  simp only [if_neg h.ne, hsize]
  generalize hlast : min (offset + rangeBytes) data.length = last
  have hle : offset < last ∧ last ≤ data.length ∧ last ≤ offset + rangeBytes := by
    simp only [rangeBytes] at hlast ⊢
    omega
  have horder : offset / rangeBytes ≤ (last - 1) / rangeBytes := Nat.div_le_div_right (by omega)
  have hbound : (last - 1) / rangeBytes * rangeBytes < data.length := by
    have := Nat.div_mul_le_self (last - 1) rangeBytes
    omega
  rw [filter_chunks_persist digest horder hbound]
  generalize hcount : (last - 1) / rangeBytes - offset / rangeBytes + 1 = count
  have hsorted : ((List.range' (offset / rangeBytes) count).map (chunkAt digest data)).Pairwise
      fun a b ↦ a.index ≤ b.index := by
    rw [List.pairwise_map]
    exact List.pairwise_le_range'
  have hintact : (((List.range' (offset / rangeBytes) count).map (chunkAt digest data)).zipIdx
      (offset / rangeBytes)).all (fun e ↦ e.1.intact digest (persist digest data) e.2) = true := by
    rw [List.all_eq_true]
    rintro ⟨chunk, index⟩ hmem
    obtain ⟨hindex, hget⟩ := List.mem_zipIdx_iff_le_and_getElem?_sub.1 hmem
    rw [List.getElem?_map, Option.map_eq_some_iff] at hget
    obtain ⟨i, hi, rfl⟩ := hget
    obtain ⟨hlt, hi⟩ := List.getElem?_eq_some_iff.1 hi
    rw [List.getElem_range'] at hi
    obtain rfl : i = index := by
      simp only at hi hindex
      omega
    simp [OutputChunk.intact, chunkAt, persist]
  rw [hsorted.insertionSort_eq, if_neg (by simp), if_pos hintact, List.flatMap_map]
  have hdata : (List.range' (offset / rangeBytes) count).flatMap (fun i ↦ (chunkAt digest data i).data) =
      (data.drop (offset / rangeBytes * rangeBytes)).take (count * rangeBytes) :=
    flatMap_chunks data rangeBytes _ count
  have hoffset : offset / rangeBytes * rangeBytes + offset % rangeBytes = offset := Nat.div_add_mod' _ _
  have hwithin : offset % rangeBytes + (last - offset) ≤ count * rangeBytes := by
    simp only [rangeBytes] at hcount hle ⊢
    omega
  have hrest : (data.drop offset).take rangeBytes = (data.drop offset).take (last - offset) := by
    rw [List.take_eq_take_iff, List.length_drop]
    omega
  rw [hdata, List.drop_take, List.drop_drop, hoffset, List.take_take, Nat.min_eq_left (by omega), hrest]

/-- **A captured output**: the most that fits. -/
theorem captured_of_cut : readOutputRange digest (some (persist digest (encode (p ++ q)))) (encode p).length
      (encode (p ++ q)).length =
    .ok (fit q rangeBytes, (encode p).length + (encode (fit q rangeBytes)).length) := by
  have hlength : (encode (p ++ q)).length = (encode p).length + (encode q).length := by simp
  by_cases hq : q = []
  · rw [readOutputRange, filter_persist digest (by omega)]
    simp [hq, fit]
  · have hpos : 0 < (encode q).length := List.length_pos_iff.2 (mt encode_eq_nil_iff.1 hq)
    rw [readOutputRange_persist digest (by omega), drop_encode, hlength, Nat.add_min_add_left]
    have htake : (encode q).take rangeBytes = (encode q).take (min rangeBytes (encode q).length) := by
      rw [List.take_eq_take_iff]
      omega
    have hfit := fit_min q rangeBytes
    have hk : min rangeBytes (encode q).length ≤ (encode q).length := Nat.min_le_right _ _
    rw [htake, ← hfit]
    have hne : fit q (min rangeBytes (encode q).length) ≠ [] := hfit ▸ fit_ne_nil hq (by decide)
    have hall : min rangeBytes (encode q).length = (encode q).length →
        fit q (min rangeBytes (encode q).length) = q := fun h ↦ by rw [h, fit_of_length_le (Nat.le_refl _)]
    generalize min rangeBytes (encode q).length = k at hk hne hall
    exact decodeOutputRange_take hk hne hall

/-! ### From a place inside a character -/

theorem drop_of_not_cut (hcut : ¬Cut t offset) (h : offset ≤ (encode t).length) :
    ∃ b l, (encode t).drop offset = b :: l ∧ isContinuation b = true := by
  have hlt : offset < (encode t).length := by
    refine h.lt_of_ne ?_
    rintro rfl
    exact hcut (by simpa using cut_append t [])
  refine ⟨_, _, List.drop_eq_getElem_cons hlt, ?_⟩
  exact (isContinuation_iff (List.getElem?_eq_getElem hlt)).2 hcut

theorem inline_of_not_cut (hcut : ¬Cut t offset) (h : offset + 3 < (encode t).length) :
    transcriptUtf8Range t offset = .error "invalid range boundary" := by
  obtain ⟨b, l, hdrop, hb⟩ := drop_of_not_cut hcut (by omega)
  have hl : 3 ≤ l.length := by
    have := congrArg List.length hdrop
    rw [List.length_drop, List.length_cons] at this
    omega
  have hnone : (List.range 4).findSome? (fun trim ↦
      (decode (((b :: l).take rangeBytes).take (((b :: l).take rangeBytes).length - trim))).map fun content ↦
        (content.toList, offset + (((b :: l).take rangeBytes).take
          (((b :: l).take rangeBytes).length - trim)).length)) = none := by
    rw [List.findSome?_eq_none_iff]
    intro trim htrim
    rw [List.mem_range] at htrim
    have hpos : min (((b :: l).take rangeBytes).length - trim) rangeBytes ≠ 0 := by
      rw [List.length_take, List.length_cons]
      simp only [rangeBytes]
      omega
    obtain ⟨n, hn⟩ := Nat.exists_eq_succ_of_ne_zero hpos
    rw [List.take_take, hn, List.take_succ_cons, decode_eq_none_of_isContinuation hb]
    rfl
  rw [transcriptUtf8Range, if_neg (by omega), hdrop, decodeTranscriptRange]
  simp only [hnone]

theorem captured_of_not_cut (hcut : ¬Cut t offset) (h : offset ≤ (encode t).length) :
    readOutputRange digest (some (persist digest (encode t))) offset (encode t).length =
      .error "transcript capture UTF-8 boundary invalid" := by
  obtain ⟨b, l, hdrop, hb⟩ := drop_of_not_cut hcut h
  have hlt : offset < (encode t).length := by
    have := congrArg List.length hdrop
    rw [List.length_drop, List.length_cons] at this
    omega
  rw [readOutputRange_persist digest hlt, hdrop, decodeOutputRange, decodeUtf8, rangeBytes,
    List.take_succ_cons, run_eq_none_of_isContinuation hb]

/-! ### All ranges -/

/-- The ranges from an offset on, one after the other while there is more, in at most so many rounds. -/
def readOn (read : ℕ → Except String (List Char × ℕ)) (byteLength : ℕ) : ℕ → ℕ → Option (List Char)
  | 0, _ => none
  | rounds + 1, offset =>
    match read offset with
    | .error _ => none
    | .ok (content, endOffset) =>
      if endOffset < byteLength then (readOn read byteLength rounds endOffset).map (content ++ ·)
      else some content

theorem readOn_of_fit {read : ℕ → Except String (List Char × ℕ)}
    (hread : ∀ p q, t = p ++ q → read (encode p).length =
      .ok (fit q rangeBytes, (encode p).length + (encode (fit q rangeBytes)).length))
    {rounds : ℕ} (ht : t = p ++ q) (hrounds : (encode q).length < rounds) :
    readOn read (encode t).length rounds (encode p).length = some q := by
  induction rounds generalizing p q with
  | zero => exact absurd hrounds (Nat.not_lt_zero _)
  | succ rounds ih =>
    obtain ⟨r, hq, hle, -⟩ := fit_spec q rangeBytes
    have hlengths : (encode t).length = (encode p).length + (encode q).length := by rw [ht]; simp
    have hparts : (encode q).length = (encode (fit q rangeBytes)).length + (encode r).length := by
      conv_lhs => rw [hq]
      simp
    rw [readOn, hread p q ht]
    by_cases hr : r = []
    · rw [hr, List.append_nil] at hq
      simp [← hq, hlengths]
    · have hpos : 0 < (encode r).length := List.length_pos_iff.2 (mt encode_eq_nil_iff.1 hr)
      have hsome : 0 < (encode (fit q rangeBytes)).length := by
        refine List.length_pos_iff.2 (mt encode_eq_nil_iff.1 (fit_ne_nil ?_ (by decide)))
        rintro rfl
        simp at hrounds hparts
        omega
      have hnext := ih (p := p ++ fit q rangeBytes) (q := r) (by rw [List.append_assoc, ← hq, ht]) (by omega)
      rw [encode_append, List.length_append] at hnext
      simp only [hnext, if_pos (show (encode p).length + (encode (fit q rangeBytes)).length <
        (encode t).length by omega), Option.map_some, ← hq]

end Cut

end Centaeris.Transcript
