import Mathlib.Data.Nat.Find
import Centaeris.Base.Framing
import Centaeris.Base.Utf8Stream
import Centaeris.Contract.Strings

/-!
# The frames of a model stream

The runtime reads the answer of the model in chunks of bytes and takes frames off it, each of them ended by a
blank line (`SseFrameDecoder`). A chunk may end inside a character: then the decoder waits, also with frames
that are complete. The frames that come out are those of the text (`framesOf`), however it is cut into chunks;
a stream that is no text ends with an error, after frames of its longest start that is one.
-/

namespace Centaeris.Sse

open Contract (dropPrefix? isWhitespace strip)
open Framing (blocks double splitDouble)

/-! ### The decoder -/

/-- A line without a carriage return at its end. -/
def stripCarriageReturn (line : List Char) : List Char :=
  if line.getLast? = some '\r' then line.dropLast else line

/-- `str::lines`, after the start `line` of the first one: a line that is not ended stands as it is, and an
empty one is left out. -/
def linesFrom (line : List Char) : List Char → List (List Char)
  | [] => if line = [] then [] else [line]
  | c :: s => if c = '\n' then stripCarriageReturn line :: linesFrom [] s else linesFrom (line ++ [c]) s

/-- The data of a frame: the contents of its `data: ` lines. -/
def frameData (frame : String) : String :=
  String.ofList (['\n'].intercalate ((linesFrom [] frame.toList).filterMap (dropPrefix? "data: ".toList)))

/-- The bytes of a list of characters. -/
def encode (s : List Char) : List UInt8 := Utf8.bytes (String.ofList s)

/-- `text.find("\n\n")`, in bytes. -/
def findTerminator (text : String) : Option Nat :=
  (splitDouble '\n' text.toList).map fun x ↦ (encode x.1).length

/-- `SseFrameDecoder`. -/
structure SseFrameDecoder where
  buffer : List UInt8
  deriving DecidableEq

namespace SseFrameDecoder

/-- `SseFrameDecoder::new`. -/
def new : SseFrameDecoder := ⟨[]⟩

/-- The loop of `push`; every round takes a terminator off the buffer. -/
def takeFrames : Nat → List UInt8 → Except String (List String × List UInt8)
  | 0, buffer => .ok ([], buffer)
  | fuel + 1, buffer =>
    match Utf8.fromUtf8 buffer with
    | .incomplete => .ok ([], buffer)
    | .invalid => .error "stream is not UTF-8"
    | .ok text =>
      match findTerminator text with
      | none => .ok ([], buffer)
      | some frameEnd =>
        match Utf8.fromUtf8 (buffer.take frameEnd) with
        | .ok frame => do
          let (frames, buffer) ← takeFrames fuel (buffer.drop (frameEnd + 2))
          return (if frameData frame = "" then frames else frameData frame :: frames, buffer)
        | _ => .error "frame is not UTF-8"

/-- `SseFrameDecoder::push`. -/
def push (d : SseFrameDecoder) (chunk : List UInt8) : Except String (List String × SseFrameDecoder) := do
  let (frames, buffer) ← takeFrames ((d.buffer ++ chunk).length + 1) (d.buffer ++ chunk)
  return (frames, ⟨buffer⟩)

/-- `SseFrameDecoder::finish`. -/
def finish (d : SseFrameDecoder) : Except String Unit :=
  if d.buffer = [] then .ok ()
  else
    match Utf8.fromUtf8 d.buffer with
    | .ok text =>
      if strip isWhitespace text = "" then .ok () else .error "stream ended with an incomplete frame"
    | _ => .error "stream ended with incomplete UTF-8"

/-- The chunks one after the other: the frames that have been returned, and the decoder or the error. -/
def pushAll (d : SseFrameDecoder) : List (List UInt8) → List String × Except String SseFrameDecoder
  | [] => ([], .ok d)
  | chunk :: chunks =>
    match d.push chunk with
    | .error e => ([], .error e)
    | .ok (frames, d) => (frames ++ (d.pushAll chunks).1, (d.pushAll chunks).2)

/-- A whole stream. -/
def readAll (chunks : List (List UInt8)) : List String × Except String Unit :=
  ((new.pushAll chunks).1, (new.pushAll chunks).2.bind finish)

end SseFrameDecoder

/-! ### The frames of a text -/

/-- The frame of a block; a block without data is none. -/
def frameOf (block : List Char) : Option String :=
  if frameData (String.ofList block) = "" then none else some (frameData (String.ofList block))

/-- The frames of a text: one for every block that a blank line ends. -/
def framesOf (text : List Char) : List String := (blocks (double '\n') text).1.filterMap frameOf

/-- The text after the last blank line. -/
def remainder (text : List Char) : List Char := (blocks (double '\n') text).2

theorem framesOf_append (s t : List Char) : framesOf (s ++ t) = framesOf s ++ framesOf (remainder s ++ t) := by
  rw [framesOf, Framing.blocks_append, List.filterMap_append]
  rfl

theorem remainder_append (s t : List Char) : remainder (s ++ t) = remainder (remainder s ++ t) := by
  rw [remainder, Framing.blocks_append]
  rfl

theorem framesOf_remainder (s : List Char) : framesOf (remainder s) = [] := by
  rw [framesOf, remainder, Framing.blocks_rest]
  rfl

theorem remainder_remainder (s : List Char) : remainder (remainder s) = remainder s := by
  rw [remainder, remainder, Framing.blocks_rest]

theorem framesOf_of_none {s : List Char} (h : splitDouble '\n' s = none) : framesOf s = [] ∧ remainder s = s := by
  rw [framesOf, remainder, Framing.blocks_of_none (c := double '\n') h]
  exact ⟨rfl, rfl⟩

theorem framesOf_of_some {s block rest : List Char} (h : splitDouble '\n' s = some (block, rest)) :
    framesOf s = (frameOf block).toList ++ framesOf rest ∧ remainder s = remainder rest := by
  rw [framesOf, remainder, Framing.blocks_of_cut (c := double '\n') h, List.filterMap_cons]
  cases frameOf block <;> exact ⟨rfl, rfl⟩

theorem encode_eq_flatMap (s : List Char) : encode s = s.flatMap String.utf8EncodeChar := by
  rw [encode, Utf8.bytes, String.toList_ofList]

theorem encode_append (s t : List Char) : encode (s ++ t) = encode s ++ encode t := by
  rw [encode_eq_flatMap, encode_eq_flatMap, encode_eq_flatMap, List.flatMap_append]

theorem run_encode (s : List Char) : Utf8.run .idle (encode s) = some (s, .idle) := by
  rw [encode_eq_flatMap]
  exact Utf8.run_flatMap s

theorem fromUtf8_encode (s : List Char) : Utf8.fromUtf8 (encode s) = .ok (String.ofList s) :=
  Utf8.fromUtf8_bytes _

/-! ### One push -/

namespace SseFrameDecoder

/-- The loop takes off all the frames of a text. -/
theorem takeFrames_encode {fuel : Nat} {s : List Char} (hfuel : s.length < fuel) :
    takeFrames fuel (encode s) = .ok (framesOf s, encode (remainder s)) := by
  induction fuel generalizing s with
  | zero => exact absurd hfuel (Nat.not_lt_zero _)
  | succ fuel ih =>
    have hfind : findTerminator (String.ofList s) =
        (splitDouble '\n' s).map fun x ↦ (encode x.1).length := by
      rw [findTerminator, String.toList_ofList]
    rw [takeFrames, fromUtf8_encode]
    simp only [hfind]
    cases h : splitDouble '\n' s with
    | none =>
      obtain ⟨hframes, hrest⟩ := framesOf_of_none h
      rw [hframes, hrest]
      rfl
    | some x =>
      obtain ⟨block, rest⟩ := x
      obtain ⟨hframes, hrest⟩ := framesOf_of_some h
      have hs := Framing.eq_of_splitDouble h
      have hlength : rest.length < fuel := by
        rw [hs, List.length_append, List.length_cons, List.length_cons] at hfuel
        omega
      -- the terminator is two bytes, and the frame is cut off between characters
      have hbytes : encode s = encode block ++ ([10, 10] ++ encode rest) := by
        rw [hs, encode_append, show '\n' :: '\n' :: rest = ['\n', '\n'] ++ rest from rfl,
          encode_append, encode_eq_flatMap ['\n', '\n']]
        rfl
      have hdrop : (encode s).drop ((encode block).length + 2) = encode rest := by
        rw [hbytes, ← List.drop_drop, List.drop_left]
        rfl
      have htake : (encode s).take (encode block).length = encode block := by
        rw [hbytes, List.take_left]
      simp only [Option.map_some, htake, hdrop, fromUtf8_encode, ih hlength, hframes, hrest, frameOf]
      show Except.ok _ = _
      split <;> rfl

/-- What a push does, by where the bytes of the buffer and the chunk leave the reader of the text. -/
theorem push_spec (d : SseFrameDecoder) (chunk : List UInt8) :
    match Utf8.run .idle (d.buffer ++ chunk) with
    | none => d.push chunk = .error "stream is not UTF-8"
    | some (s, p) => d.push chunk =
        if p.needed = 0 then .ok (framesOf s, ⟨encode (remainder s)⟩) else .ok ([], ⟨d.buffer ++ chunk⟩) := by
  rw [push]
  cases hrun : Utf8.run .idle (d.buffer ++ chunk) with
  | none =>
    rw [takeFrames, Utf8.fromUtf8, hrun]
    rfl
  | some x =>
    obtain ⟨s, p⟩ := x
    by_cases hp : p.needed = 0
    · obtain ⟨hbytes, -⟩ := Utf8.bytes_of_run hrun hp
      have hlength : s.length ≤ (d.buffer ++ chunk).length := by
        have := Utf8.length_le_length_bytes (String.ofList s)
        rwa [String.toList_ofList, ← hbytes] at this
      have htake := takeFrames_encode (Nat.lt_succ_of_le hlength)
      rw [encode, ← hbytes] at htake
      simp only [htake, if_pos hp]
      rfl
    · rw [takeFrames, Utf8.fromUtf8, hrun]
      simp only [if_neg hp]
      rfl

/-! ### All the chunks -/

/-- The decoder after the bytes `b` of a stream, with the frames `out` returned: it holds back the end of
what it has read, and the frames of that come after those it has returned. -/
def Reads (b : List UInt8) (out : List String) (d : SseFrameDecoder) : Prop :=
  ∃ s held p, Utf8.run .idle b = some (s, p) ∧ Utf8.run .idle d.buffer = some (held, p) ∧
    framesOf s = out ++ framesOf held ∧ remainder s = remainder held ∧
    (p.needed = 0 → held = remainder held)

theorem reads_new : Reads [] [] new := ⟨[], [], .idle, rfl, rfl, rfl, rfl, fun _ ↦ rfl⟩

/-- One chunk more. -/
theorem Reads.push {b : List UInt8} {out : List String} {d : SseFrameDecoder} (h : Reads b out d)
    (chunk : List UInt8) :
    match d.push chunk with
    | .error _ => Utf8.run .idle (b ++ chunk) = none
    | .ok (frames, d') => Reads (b ++ chunk) (out ++ frames) d' := by
  obtain ⟨s, held, p, hb, hheld, hframes, hrest, -⟩ := h
  have hspec := push_spec d chunk
  cases hchunk : Utf8.run p chunk with
  | none =>
    have hnone : Utf8.run .idle (d.buffer ++ chunk) = none := by
      rw [Utf8.run_append, hheld, Option.bind_some, hchunk, Option.map_none]
    rw [hnone] at hspec
    rw [hspec]
    show Utf8.run .idle (b ++ chunk) = none
    rw [Utf8.run_append, hb, Option.bind_some, hchunk, Option.map_none]
  | some x =>
    obtain ⟨t, q⟩ := x
    have hall := Utf8.run_append_of_eq hb hchunk
    have hbuffer := Utf8.run_append_of_eq hheld hchunk
    have hframes' : framesOf (s ++ t) = out ++ framesOf (held ++ t) := by
      rw [framesOf_append, hframes, hrest, framesOf_append held, List.append_assoc]
    have hrest' : remainder (s ++ t) = remainder (held ++ t) := by
      rw [remainder_append, hrest, ← remainder_append]
    rw [hbuffer] at hspec
    by_cases hq : q.needed = 0
    · rw [show d.push chunk = _ from hspec, if_pos hq]
      obtain ⟨-, rfl⟩ := Utf8.bytes_of_run hall hq
      refine ⟨s ++ t, remainder (held ++ t), .idle, hall, run_encode _, ?_, ?_, fun _ ↦ ?_⟩
      · rw [hframes', framesOf_remainder, List.append_nil]
      · rw [hrest', remainder_remainder]
      · rw [remainder_remainder]
    · rw [show d.push chunk = _ from hspec, if_neg hq]
      exact ⟨s ++ t, held ++ t, q, hall, hbuffer, by rw [hframes', List.append_nil], hrest',
        fun h ↦ absurd h hq⟩

/-- All the chunks: the decoder has read the stream, or it has stopped at a byte that no text has there. -/
theorem Reads.pushAll {b : List UInt8} {out : List String} {d : SseFrameDecoder} (h : Reads b out d)
    (chunks : List (List UInt8)) :
    match d.pushAll chunks with
    | (frames, .ok d') => Reads (b ++ chunks.flatten) (out ++ frames) d'
    | (frames, .error _) => Utf8.run .idle (b ++ chunks.flatten) = none ∧
        ∃ b' d', b' <+: b ++ chunks.flatten ∧ Reads b' (out ++ frames) d' := by
  induction chunks generalizing b out d with
  | nil =>
    show Reads (b ++ []) (out ++ []) d
    rwa [List.append_nil, List.append_nil]
  | cons chunk chunks ih =>
    have hpush := h.push chunk
    rw [SseFrameDecoder.pushAll, List.flatten_cons]
    cases hd : d.push chunk with
    | error e =>
      rw [hd] at hpush
      refine ⟨?_, b, d, List.prefix_append _ _, by rwa [List.append_nil]⟩
      rw [← List.append_assoc, Utf8.run_append, show Utf8.run .idle (b ++ chunk) = none from hpush]
      rfl
    | ok x =>
      obtain ⟨frames, d'⟩ := x
      rw [hd] at hpush
      have hrest := ih hpush
      cases hall : d'.pushAll chunks with
      | mk more result =>
        rw [hall] at hrest
        cases result with
        | error e => simpa only [List.append_assoc, hall] using hrest
        | ok d'' => simpa only [List.append_assoc, hall] using hrest

end SseFrameDecoder

/-! ### Chunking -/

/-- The longest text that the bytes start with. -/
structure IsLongestText (b : List UInt8) (text : String) : Prop where
  isPrefix : Utf8.bytes text <+: b
  longest (s : String) : Utf8.bytes s <+: b → (Utf8.bytes s).length ≤ (Utf8.bytes text).length

theorem exists_isLongestText (b : List UInt8) : ∃ text, IsLongestText b text := by
  have hzero : (Utf8.decode (b.take 0)).isSome := by
    rw [List.take_zero, show Utf8.decode [] = some "" from Utf8.decode_bytes ""]
    rfl
  have hspec := Nat.findGreatest_spec (P := fun n ↦ (Utf8.decode (b.take n)).isSome) (Nat.zero_le b.length)
    hzero
  have hle := Nat.findGreatest_le (P := fun n ↦ (Utf8.decode (b.take n)).isSome) b.length
  obtain ⟨text, htext⟩ := Option.isSome_iff_exists.1 hspec
  have hbytes := Utf8.bytes_of_decode htext
  refine ⟨text, hbytes ▸ List.take_prefix _ _, fun s hs ↦ ?_⟩
  rw [hbytes, List.length_take_of_le hle]
  refine Nat.le_findGreatest hs.length_le ?_
  rw [← List.prefix_iff_eq_take.1 hs, Utf8.decode_bytes]
  rfl

theorem IsLongestText.prefix_of_run {b b' : List UInt8} {text : String} (h : IsLongestText b text)
    (hb : b' <+: b) {s : List Char} {p : Utf8.Pending} (hrun : Utf8.run .idle b' = some (s, p)) :
    s <+: text.toList := by
  have hs : encode s <+: b := (Utf8.prefix_of_run hrun).trans hb
  obtain ⟨m, hm⟩ := List.prefix_of_prefix_length_le hs h.isPrefix (h.longest _ hs)
  have htext := Utf8.run_bytes text
  rw [← hm] at htext
  obtain ⟨s', q, t, hs', -, htext⟩ := Utf8.run_of_append htext
  rw [run_encode] at hs'
  rw [(Prod.mk.inj (Option.some.inj hs')).1, htext]
  exact List.prefix_append _ _

theorem framesOf_prefix {s t : List Char} (h : s <+: t) : framesOf s <+: framesOf t := by
  obtain ⟨m, rfl⟩ := h
  rw [framesOf_append]
  exact List.prefix_append _ _

/-- The frames that have been returned are frames of the longest text that the stream starts with. -/
theorem SseFrameDecoder.Reads.prefix_framesOf {b b' : List UInt8} {text : String} {out : List String}
    {d : SseFrameDecoder} (h : Reads b' out d) (hb : b' <+: b) (htext : IsLongestText b text) :
    out <+: framesOf text.toList := by
  obtain ⟨s, held, p, hrun, -, hframes, -⟩ := h
  exact (hframes ▸ List.prefix_append _ _ : out <+: framesOf s).trans
    ( framesOf_prefix (htext.prefix_of_run hb hrun))

/-- The end of a stream that is a text. -/
theorem SseFrameDecoder.finish_encode (s : List Char) :
    finish ⟨encode s⟩ = .ok () ↔ ∀ c ∈ s, isWhitespace c := by
  have hstrip : strip isWhitespace (String.ofList s) = "" ↔ ∀ c ∈ s, isWhitespace c := by
    rw [Contract.strip_eq_empty_iff, String.toList_ofList]
  rw [finish, fromUtf8_encode]
  by_cases hnil : encode s = []
  · obtain rfl : s = [] := by
      have hrun := run_encode s
      rw [hnil] at hrun
      exact (Prod.mk.inj (Option.some.inj hrun)).1.symm
    rw [if_pos hnil]
    simp
  · rw [if_neg hnil, ← hstrip]
    by_cases hblank : strip isWhitespace (String.ofList s) = ""
    · simp only [hblank, if_true]
    · simp only [hblank, if_false, reduceCtorEq]

/-- The end of a stream inside a character. -/
theorem SseFrameDecoder.Reads.finish_error {b : List UInt8} {out : List String} {d : SseFrameDecoder}
    (h : Reads b out d) (hb : ∀ text, b ≠ Utf8.bytes text) : ∃ e, d.finish = .error e := by
  obtain ⟨s, held, p, hrun, hheld, -⟩ := h
  have hp : p.needed ≠ 0 := fun hp ↦ hb _ (Utf8.bytes_of_run hrun hp).1
  have hne : d.buffer ≠ [] := by
    rintro hnil
    rw [hnil] at hheld
    obtain ⟨-, rfl⟩ := Prod.mk.inj (Option.some.inj hheld)
    exact hp rfl
  rw [finish, if_neg hne, Utf8.fromUtf8, hheld]
  simp only [if_neg hp]
  exact ⟨_, rfl⟩

/-- The chunks of a text. -/
theorem SseFrameDecoder.pushAll_of_bytes {chunks : List (List UInt8)} {text : String}
    (h : chunks.flatten = Utf8.bytes text) :
    new.pushAll chunks = (framesOf text.toList, .ok ⟨encode (remainder text.toList)⟩) := by
  have hall := reads_new.pushAll chunks
  rw [List.nil_append, h, Utf8.run_bytes] at hall
  cases hpush : new.pushAll chunks with
  | mk frames result =>
    rw [hpush] at hall
    cases result with
    | error e => cases hall.1
    | ok d =>
      obtain ⟨s, held, p, hs, hheld, hframes, hrest, hidle⟩ := hall
      rw [Utf8.run_bytes] at hs
      obtain ⟨rfl, rfl⟩ := Prod.mk.inj (Option.some.inj hs)
      have hheld' := hidle rfl
      obtain ⟨hbuffer, -⟩ := Utf8.bytes_of_run hheld rfl
      rw [hheld', framesOf_remainder, List.append_nil, List.nil_append] at hframes
      rw [hframes, hrest, ← hheld', encode, ← hbuffer]

/-- **The frames do not depend on the chunks.** The chunks of a text give the frames of the text, as they
come when it is pushed in one piece, and the stream ends without an error when nothing but whitespace
follows the last blank line. Chunks of bytes that are no text end in an error, after frames of the longest
text that the bytes start with. -/
theorem frames_of_chunks (chunks : List (List UInt8)) :
    (∀ text, chunks.flatten = Utf8.bytes text →
      SseFrameDecoder.new.pushAll chunks =
        (framesOf text.toList, .ok ⟨encode (remainder text.toList)⟩) ∧
      SseFrameDecoder.new.pushAll [Utf8.bytes text] = SseFrameDecoder.new.pushAll chunks ∧
      ((SseFrameDecoder.readAll chunks).2 = .ok () ↔ ∀ c ∈ remainder text.toList, isWhitespace c)) ∧
    ((∀ text, chunks.flatten ≠ Utf8.bytes text) →
      (∃ e, (SseFrameDecoder.readAll chunks).2 = .error e) ∧
      ∃ text, IsLongestText chunks.flatten text ∧
        (SseFrameDecoder.readAll chunks).1 <+: framesOf text.toList) := by
  refine ⟨fun text h ↦ ?_, fun hno ↦ ?_⟩
  · have hpush := SseFrameDecoder.pushAll_of_bytes h
    have hone : SseFrameDecoder.new.pushAll [Utf8.bytes text] = _ :=
      SseFrameDecoder.pushAll_of_bytes List.flatten_singleton
    refine ⟨hpush, hone.trans hpush.symm, ?_⟩
    simp only [SseFrameDecoder.readAll, hpush, Except.bind]
    exact SseFrameDecoder.finish_encode (remainder text.toList)
  · obtain ⟨text, htext⟩ := exists_isLongestText chunks.flatten
    have hall := SseFrameDecoder.reads_new.pushAll chunks
    rw [List.nil_append] at hall
    rw [SseFrameDecoder.readAll]
    cases hpush : SseFrameDecoder.new.pushAll chunks with
    | mk frames result =>
      rw [hpush] at hall
      cases result with
      | error e =>
        obtain ⟨-, b', d', hb', hreads⟩ := hall
        exact ⟨⟨e, rfl⟩, text, htext, hreads.prefix_framesOf hb' htext⟩
      | ok d =>
        exact ⟨hall.finish_error hno, text, htext, hall.prefix_framesOf List.prefix_rfl htext⟩

/-- The chunks may end inside a character. -/
example : SseFrameDecoder.readAll [[100, 97, 116, 97, 58, 32, 0xC3], [0xA9, 10], [10]] = (["é"], .ok ()) := by
  decide +kernel

end Centaeris.Sse
