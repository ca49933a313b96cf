import Centaeris.Material.Manifest

/-!
# The segments of a manifest

A manifest that `validateManifest` lets through has its pages where it says, one after the other
(`Placed`). So each round of `segments` takes the most of a page that fits into a segment, and each segment
is a part of the canonical text, with the lines it is on.

One thing is not excluded: a text that is no text is checked as if it were empty, and `segments` fails on
it (`text_not_checked`).
-/

namespace Centaeris.Material.Evidence

open Utf8 (encode fit)
open Except (okOr require)

/-! ### The pages that are let through -/

/-- A page that lies in the canonical text, after `previousEnd`. -/
structure Placed (canonical : List UInt8) (previousEnd previousEndLine : Nat) (p : Page) : Prop where
  after : previousEnd ≤ p.canonicalStartByte
  endByte : p.canonicalEndByte = p.canonicalStartByte + (encode p.text).length
  inside : p.canonicalEndByte ≤ canonical.length
  text : slice canonical p.canonicalStartByte p.canonicalEndByte = encode p.text
  startLine : p.canonicalStartLine =
    previousEndLine + newlines (slice canonical previousEnd p.canonicalStartByte)
  endLine : p.canonicalEndLine = p.canonicalStartLine + newlines (encode p.text)

/-- The text of a page is a text. -/
def hasText (page : Json) : Bool := ((page.pointer ["pageText", "text"]).bind Json.asStr?).isSome

theorem asU64?_of_int? {v : Json} {n : Int} (h : int? v = some n) (hn : 0 ≤ n) : v.asU64? = some n.toNat := by
  cases v with
  | num m e =>
    by_cases he : e = 0
    · subst he
      obtain rfl : m = n := Option.some.inj h
      exact if_pos hn
    · simp [int?, he] at h
  | _ => cases h

theorem get?_of_keysAre {fields : List (String × Json)} {ks : List String} {k : String}
    (h : Json.Fields.keysAre fields ks = true) (hk : k ∈ ks) :
    Json.Fields.get? fields k = some (field fields k) := by
  rw [Json.Fields.keysAre, Bool.and_eq_true, List.all_eq_true] at h
  obtain ⟨v, hv⟩ := Option.isSome_iff_exists.1 (h.2 k hk)
  rw [field, hv]
  rfl

theorem checkRoute_eq_ok {route : Json} (h : checkRoute route = .ok ()) : ∃ s, route.asStr? = some s := by
  cases route with
  | str s => exact ⟨s, rfl⟩
  | _ => cases h

theorem positions_eq_some {fields : List (String × Json)} {p : Positions} (h : positions fields = some p) :
    int? (field fields "canonicalStartByte") = some p.startByte ∧
      int? (field fields "canonicalEndByte") = some p.endByte ∧
      int? (field fields "canonicalStartLine") = some p.startLine ∧
      int? (field fields "canonicalEndLine") = some p.endLine := by
  simp only [positions, Option.bind_eq_bind, Option.bind_eq_some_iff, Option.pure_def, Option.some.injEq] at h
  obtain ⟨startByte, hs, endByte, he, startLine, hsl, endLine, hel, rfl⟩ := h
  exact ⟨hs, he, hsl, hel⟩

variable {hexdigest : List UInt8 → String} {canonical : List UInt8}

/-- **A page that is let through** and has a text is read as one that lies in the canonical text. -/
theorem validatePage_eq_ok {number previousEnd previousEndLine : Nat} {page : Json} {r : Int × Int}
    (h : validatePage hexdigest canonical number previousEnd previousEndLine page = .ok r)
    (htext : hasText page = true) :
    ∃ p, readPage page = .ok p ∧ p.page = number ∧ Placed canonical previousEnd previousEndLine p ∧
      r = ((p.canonicalEndByte : Int), (p.canonicalEndLine : Int)) := by
  simp only [validatePage, Except.okOr_bind, Except.require_bind] at h
  obtain ⟨fields, hfields, hkeys, text, htextFields, htextKeys, at_, hat, -, hnumber, h⟩ := h
  obtain ⟨⟨⟩, hroute, h⟩ := Except.bind_eq_ok.1 h
  simp only [Except.require_bind, Except.pure_eq_ok, Except.ok.injEq] at h
  obtain ⟨⟨-, -, -, -, hafter, hpos, hend, hinside, hslice, hstartLine, hendLine⟩, -, rfl⟩ := h
  obtain ⟨route, hroute⟩ := checkRoute_eq_ok hroute
  obtain ⟨hs, he, hsl, hel⟩ := positions_eq_some hat
  have hpageText : Json.Fields.get? fields "pageText" = some (.obj text) := by
    rw [get?_of_keysAre hkeys (by simp)]
    cases hvalue : field fields "pageText" with
    | obj f => rw [hvalue] at htextFields; rw [Option.some.inj htextFields]
    | _ => rw [hvalue] at htextFields; cases htextFields
  have hcontent := get?_of_keysAre (k := "text") htextKeys (by simp)
  obtain ⟨content, hstr⟩ : ∃ s, (field text "text").asStr? = some s := by
    cases page with
    | obj f =>
      obtain rfl : f = fields := Option.some.inj hfields
      refine Option.isSome_iff_exists.1 ?_
      simpa [hasText, Json.pointer, List.foldlM, Json.get?, hpageText, hcontent] using htext
    | _ => cases hfields
  have hencoded : encodedText (field text "text") = encode content.toList := by rw [encodedText, hstr]; rfl
  rw [hencoded] at hend hslice hendLine
  have hendPos : 0 ≤ at_.endByte := by omega
  have hstartLinePos : 0 ≤ at_.startLine := by omega
  have hendLinePos : 0 ≤ at_.endLine := by omega
  refine ⟨⟨number, route, content.toList, at_.startByte.toNat, at_.endByte.toNat, at_.startLine.toNat,
    at_.endLine.toNat⟩, ?_, rfl, ⟨?_, ?_, ?_, hslice, ?_, ?_⟩, ?_⟩
  · simp only [readPage, Except.okOr_bind, Except.pure_eq_ok]
    exact ⟨fields, hfields, _, hpageText, text, rfl, _, hcontent, content, hstr, number,
      asU64?_of_int? hnumber (Int.natCast_nonneg number), route, hroute, _, asU64?_of_int? hs hpos, _,
      asU64?_of_int? he hendPos, _, asU64?_of_int? hsl hstartLinePos, _, asU64?_of_int? hel hendLinePos, rfl⟩
  all_goals simp only [Int.toNat_natCast] at *
  · omega
  · omega
  · omega
  · omega
  · omega
  · simp [hendPos, hendLinePos]

/-- Pages that follow each other in the canonical text. -/
def InOrder (canonical : List UInt8) : Nat → Nat → Nat → List Page → Prop
  | _, _, _, [] => True
  | number, previousEnd, previousEndLine, p :: ps =>
    p.page = number ∧ Placed canonical previousEnd previousEndLine p ∧
      InOrder canonical (number + 1) p.canonicalEndByte p.canonicalEndLine ps

theorem validatePages_eq_ok {number previousEnd previousEndLine : Nat} {pages : List Json}
    (h : validatePages hexdigest canonical number previousEnd previousEndLine pages = .ok ())
    (htext : ∀ page ∈ pages, hasText page = true) :
    ∃ ps, List.Forall₂ (fun page p ↦ readPage page = .ok p) pages ps ∧
      InOrder canonical number previousEnd previousEndLine ps := by
  induction pages generalizing number previousEnd previousEndLine with
  | nil => exact ⟨[], .nil, trivial⟩
  | cons page pages ih =>
    rw [validatePages, Except.bind_eq_ok] at h
    obtain ⟨⟨_, _⟩, hpage, hrest⟩ := h
    obtain ⟨p, hread, hnumber, hplaced, heq⟩ := validatePage_eq_ok hpage (htext page (by simp))
    cases heq
    obtain ⟨ps, hps, horder⟩ := ih hrest fun q hq ↦ htext q (List.mem_cons_of_mem page hq)
    exact ⟨p :: ps, .cons hread hps, hnumber, hplaced, horder⟩

/-- **The pages of a manifest that is let through.** -/
theorem validateManifest_eq_ok {manifest : Json} (h : validateManifest hexdigest manifest canonical = .ok ())
    (htext : ∀ page ∈ manifestPages manifest, hasText page = true) :
    (Utf8.decode canonical).isSome = true ∧
      ∃ ps, List.Forall₂ (fun page p ↦ readPage page = .ok p) (manifestPages manifest) ps ∧
        InOrder canonical 1 0 1 ps := by
  simp only [validateManifest, Except.okOr_bind, Except.require_bind] at h
  obtain ⟨hutf8, fields, hfields, ⟨hkeys, -⟩, pages, hpages, -, h⟩ := h
  have hmanifest : manifestPages manifest = pages := by
    cases manifest with
    | obj f =>
      obtain rfl : f = fields := Option.some.inj hfields
      rw [manifestPages, Json.get?, Json.asObject?_obj, Option.bind_some, get?_of_keysAre hkeys (by simp),
        Option.bind_some, hpages]
      rfl
    | _ => cases hfields
  rw [hmanifest] at htext ⊢
  exact ⟨hutf8, validatePages_eq_ok h htext⟩

/-! ### Lines -/

theorem newlines_take_add {b : List UInt8} {i j : Nat} (h : i ≤ j) :
    newlines (b.take i) + newlines (slice b i j) = newlines (b.take j) := by
  rw [newlines, newlines, newlines, slice, ← List.count_append,
    show b.take i = (b.take j).take i by rw [List.take_take, Nat.min_eq_left h], List.take_append_drop]

theorem newlines_encode (t : Text) : newlines (encode t) = t.count '\n' := Utf8.count_newline_encode t

/-- The line that the byte at an offset is on. -/
def lineAt (canonical : List UInt8) (offset : Nat) : Nat := 1 + newlines (canonical.take offset)

theorem lineAt_add {i j : Nat} (h : i ≤ j) :
    lineAt canonical i + newlines (slice canonical i j) = lineAt canonical j := by
  rw [lineAt, lineAt, Nat.add_assoc, newlines_take_add h]

theorem Placed.lineAt {previousEnd : Nat} {p : Page}
    (h : Placed canonical previousEnd (lineAt canonical previousEnd) p) :
    p.canonicalStartLine = Evidence.lineAt canonical p.canonicalStartByte ∧
      p.canonicalEndLine = Evidence.lineAt canonical p.canonicalEndByte := by
  have hstart : p.canonicalStartLine = Evidence.lineAt canonical p.canonicalStartByte := by
    rw [h.startLine, lineAt_add h.after]
  refine ⟨hstart, ?_⟩
  rw [h.endLine, hstart, ← h.text, lineAt_add (by rw [h.endByte]; omega)]

/-! ### The pieces of a page -/

theorem slice_slice {b : List UInt8} {i j k l : Nat} (h : i + l ≤ j) :
    slice (slice b i j) k l = slice b (i + k) (i + l) := by
  rw [slice, slice, slice, List.take_drop, List.take_take, Nat.min_eq_left h, List.drop_drop]

theorem slice_encode (done rest : Text) (k : Nat) :
    slice (encode (done ++ rest)) (encode done).length ((encode done).length + k) = (encode rest).take k := by
  rw [slice, Utf8.encode_append, List.take_length_add_append, List.drop_left]

/-- **One round takes the most that fits.** -/
theorem boundedEnd_eq {done rest : Text} {k : Nat} (hk : k ≤ (encode rest).length) :
    boundedEnd (encode (done ++ rest)) (encode done).length ((encode done).length + k) =
      if fit rest k = [] then none
      else some ((encode done).length + (encode (fit rest k)).length, fit rest k) := by
  induction k with
  | zero =>
    have hfit : fit rest 0 = [] := by
      obtain ⟨q, -, hle, -⟩ := Utf8.fit_spec rest 0
      exact Utf8.encode_eq_nil_iff.1 (List.length_eq_zero_iff.1 (Nat.le_zero.1 hle))
    rw [if_pos hfit]
    cases hs : (encode done).length with
    | zero => rfl
    | succ s => exact if_pos (by omega)
  | succ k ih =>
    rw [← Nat.add_assoc, boundedEnd, if_neg (by omega), Nat.add_assoc, slice_encode]
    cases hdecode : Utf8.decode ((encode rest).take (k + 1)) with
    | some s =>
      obtain ⟨q, rfl, hlength⟩ := (Utf8.decode_take hk).1 hdecode
      have hfit : fit (s.toList ++ q) (k + 1) = s.toList :=
        Utf8.fit_eq_of_append (by omega) fun c r _ ↦ by have := (Utf8.length_utf8EncodeChar c).1; omega
      have hne : s.toList ≠ [] := by
        rintro hnil
        rw [hnil, Utf8.encode_nil, List.length_nil] at hlength
        cases hlength
      simp only [hfit, hne, if_false, hlength]
    | none =>
      have hcut : ¬ Utf8.Cut rest (k + 1) := by
        rw [← Utf8.decode_take_isSome hk, hdecode]
        simp
      simp only [ih (by omega), Utf8.fit_succ_of_not_cut hcut]

variable {representationId : String} {page : Page}

/-- What the loop does with a list of pieces. -/
def addPieces (hexdigest : List UInt8 → String) (representationId : String) (page : Page) (p : Progress)
    (pieces : List Text) : Progress :=
  pieces.foldl (fun q piece ↦ addPiece hexdigest representationId page q (q.start + (encode piece).length) piece) p

@[simp] theorem start_addPiece (p : Progress) (last : Nat) (bounded : Text) :
    (addPiece hexdigest representationId page p last bounded).start = last := by
  rw [addPiece]
  split <;> rfl

@[simp] theorem line_addPiece (p : Progress) (last : Nat) (bounded : Text) :
    (addPiece hexdigest representationId page p last bounded).line = p.line + bounded.count '\n' := by
  rw [addPiece]
  split <;> rfl

/-- **The loop over a page** comes to an end, and its pieces are the rest of the page. -/
theorem segmentPage_eq {done rest : Text} {fuel : Nat} {p : Progress} (hp : p.start = (encode done).length)
    (hfuel : (encode rest).length ≤ fuel) :
    ∃ pieces : List Text, pieces.flatten = rest ∧
      (∀ piece ∈ pieces, piece ≠ [] ∧ (encode piece).length ≤ maxSegmentBytes) ∧
      segmentPage hexdigest representationId page (encode (done ++ rest)) fuel p =
        .ok (addPieces hexdigest representationId page p pieces) := by
  induction fuel generalizing done rest p with
  | zero =>
    obtain rfl := Utf8.encode_eq_nil_iff.1 (List.length_eq_zero_iff.1 (Nat.le_zero.1 hfuel))
    exact ⟨[], rfl, by simp, rfl⟩
  | succ fuel ih =>
    by_cases hrest : rest = []
    · subst hrest
      refine ⟨[], rfl, by simp, ?_⟩
      rw [segmentPage, if_neg (by rw [hp]; simp)]
      rfl
    · have hpos : 0 < (encode rest).length :=
        List.length_pos_iff.2 (by rwa [ne_eq, Utf8.encode_eq_nil_iff])
      -- The round takes as much as fits, and the loop goes on behind it.
      have hmin : min (encode (done ++ rest)).length (p.start + maxSegmentBytes) =
          (encode done).length + min (encode rest).length maxSegmentBytes := by
        rw [hp, Utf8.encode_append, List.length_append, Nat.add_min_add_left]
      have hfit : fit rest (min (encode rest).length maxSegmentBytes) = fit rest maxSegmentBytes := by
        obtain hle | hle := Nat.le_total (encode rest).length maxSegmentBytes
        · rw [Nat.min_eq_left hle, Utf8.fit_of_length_le le_rfl, Utf8.fit_of_length_le hle]
        · rw [Nat.min_eq_right hle]
      have hne : fit rest maxSegmentBytes ≠ [] := Utf8.fit_ne_nil hrest (by decide)
      obtain ⟨q, hq, hle, -⟩ := Utf8.fit_spec rest maxSegmentBytes
      have hbounded := @boundedEnd_eq done _ _ (Nat.min_le_left (encode rest).length maxSegmentBytes)
      rw [hfit, if_neg hne] at hbounded
      have hlen : (encode rest).length = (encode (fit rest maxSegmentBytes)).length + (encode q).length := by
        conv_lhs => rw [hq, Utf8.encode_append, List.length_append]
      have hfitPos : 0 < (encode (fit rest maxSegmentBytes)).length :=
        List.length_pos_iff.2 (by rwa [ne_eq, Utf8.encode_eq_nil_iff])
      obtain ⟨pieces, hflatten, hpieces, hloop⟩ := @ih (done ++ fit rest maxSegmentBytes) q
        (addPiece hexdigest representationId page p
          ((encode done).length + (encode (fit rest maxSegmentBytes)).length) (fit rest maxSegmentBytes))
        (by simp) (by omega)
      refine ⟨fit rest maxSegmentBytes :: pieces, by rw [List.flatten_cons, hflatten, ← hq], ?_, ?_⟩
      · simp only [List.mem_cons, forall_eq_or_imp]
        exact ⟨⟨hne, hle⟩, hpieces⟩
      · rw [segmentPage, if_pos (by rw [hp]; simp; omega), hmin, hp, hbounded]
        rw [List.append_assoc, ← hq] at hloop
        rw [addPieces, List.foldl_cons, hp]
        exact hloop

/-! ### What the segments are -/

/-- A segment is a part of the canonical text, with the lines it is on. -/
structure Exact (canonical : List UInt8) (s : Segment) : Prop where
  range : s.locator.startByte ≤ s.locator.endByte ∧ s.locator.endByte ≤ canonical.length
  text : encode s.boundedText = slice canonical s.locator.startByte s.locator.endByte
  size : (encode s.boundedText).length ≤ maxSegmentBytes
  startLine : s.locator.startLine = lineAt canonical s.locator.startByte
  endLine : s.locator.endLine = s.locator.startLine +
    newlines (slice canonical s.locator.startByte s.locator.endByte)

/-- The segments so far: parts of the canonical text, numbered, with ids of their numbers. -/
structure Cuts (hexdigest : List UInt8 → String) (canonical : List UInt8) (representationId : String)
    (p : Progress) : Prop where
  exact : ∀ s ∈ p.segments, Exact canonical s
  ordinals : p.segments.map Segment.ordinal = List.range p.ordinal
  ids : ∀ s ∈ p.segments, s.segmentId = segmentId hexdigest representationId s.ordinal s.textSha256

/-- A piece of a page, of which a segment is made if it is not blank. -/
structure Piece where
  page : Option Nat
  startByte : Nat
  endByte : Nat
  text : Text
  deriving DecidableEq

/-- The piece that a segment was made of. -/
def Segment.piece (s : Segment) : Piece := ⟨s.locator.pageStart, s.locator.startByte, s.locator.endByte, s.boundedText⟩

/-- The pieces follow each other from a byte to another, each with the text between its two. -/
def Tiles (canonical : List UInt8) (page : Nat) : Nat → List Piece → Nat → Prop
  | first, [], last => first = last
  | first, p :: ps, last =>
    p.page = some page ∧ p.startByte = first ∧ first < p.endByte ∧
      encode p.text = slice canonical first p.endByte ∧ Tiles canonical page p.endByte ps last

theorem cuts_addPiece {p : Progress} {bounded : Text} (h : Cuts hexdigest canonical representationId p)
    (hline : p.line = lineAt canonical (page.canonicalStartByte + p.start))
    (hinside : page.canonicalStartByte + p.start + (encode bounded).length ≤ canonical.length)
    (htext : encode bounded = slice canonical (page.canonicalStartByte + p.start)
      (page.canonicalStartByte + p.start + (encode bounded).length))
    (hsize : (encode bounded).length ≤ maxSegmentBytes) :
    Cuts hexdigest canonical representationId
        (addPiece hexdigest representationId page p (p.start + (encode bounded).length) bounded) ∧
      (addPiece hexdigest representationId page p (p.start + (encode bounded).length) bounded).segments.map
          Segment.piece =
        p.segments.map Segment.piece ++ [⟨some page.page, page.canonicalStartByte + p.start,
          page.canonicalStartByte + p.start + (encode bounded).length, bounded⟩].filter
            (fun piece ↦ !blank piece.text) := by
  rw [addPiece]
  by_cases hblank : blank bounded = true
  · rw [if_pos hblank]
    exact ⟨⟨h.exact, h.ordinals, h.ids⟩, by simp [hblank]⟩
  · rw [if_neg hblank]
    refine ⟨⟨?_, ?_, ?_⟩, by simp [hblank, Segment.piece, Nat.add_assoc]⟩
    · intro s hs
      obtain hs | hs := List.mem_append.1 hs
      · exact h.exact s hs
      · obtain rfl := List.mem_singleton.1 hs
        rw [Nat.add_assoc] at hinside htext
        refine ⟨⟨by dsimp only; omega, hinside⟩, htext, hsize, hline, ?_⟩
        dsimp only
        rw [← htext, newlines_encode]
    · simp [h.ordinals, List.range_succ]
    · intro s hs
      obtain hs | hs := List.mem_append.1 hs
      · exact h.ids s hs
      · obtain rfl := List.mem_singleton.1 hs
        rfl

/-- **A page is tiled** by its pieces, and its segments are those that are not blank. -/
theorem cuts_addPieces {pieces : List Text} {p : Progress} {done : Text}
    (h : Cuts hexdigest canonical representationId p)
    (hstart : p.start = (encode done).length) (hdone : page.text = done ++ pieces.flatten)
    (hline : p.line = lineAt canonical (page.canonicalStartByte + p.start))
    (hend : page.canonicalEndByte = page.canonicalStartByte + (encode page.text).length)
    (hinside : page.canonicalEndByte ≤ canonical.length)
    (htext : slice canonical page.canonicalStartByte page.canonicalEndByte = encode page.text)
    (hpieces : ∀ piece ∈ pieces, piece ≠ [] ∧ (encode piece).length ≤ maxSegmentBytes) :
    Cuts hexdigest canonical representationId (addPieces hexdigest representationId page p pieces) ∧
      ∃ ps, Tiles canonical page.page (page.canonicalStartByte + p.start) ps page.canonicalEndByte ∧
        (addPieces hexdigest representationId page p pieces).segments.map Segment.piece =
          p.segments.map Segment.piece ++ ps.filter fun piece ↦ !blank piece.text := by
  induction pieces generalizing p done with
  | nil =>
    refine ⟨h, [], ?_, by simp [addPieces]⟩
    rw [List.flatten_nil, List.append_nil] at hdone
    rw [Tiles, hend, hstart, hdone]
  | cons piece pieces ih =>
    obtain ⟨hne, hsize⟩ := hpieces piece (by simp)
    have hlength : (encode page.text).length =
        (encode done).length + ((encode piece).length + (encode pieces.flatten).length) := by
      rw [hdone, List.flatten_cons]
      simp
    have hpiece : encode piece = slice canonical (page.canonicalStartByte + p.start)
        (page.canonicalStartByte + p.start + (encode piece).length) := by
      have hinner := slice_encode done (piece ++ pieces.flatten) (encode piece).length
      rw [Utf8.take_encode, ← List.flatten_cons, ← hdone, ← htext] at hinner
      rw [slice_slice (by omega)] at hinner
      rw [hstart, Nat.add_assoc]
      exact hinner.symm
    have hpos : 0 < (encode piece).length := List.length_pos_iff.2 (by rwa [ne_eq, Utf8.encode_eq_nil_iff])
    have hlineAfter : lineAt canonical (page.canonicalStartByte + p.start) + piece.count '\n' =
        lineAt canonical (page.canonicalStartByte + p.start + (encode piece).length) := by
      rw [← lineAt_add (Nat.le_add_right _ (encode piece).length), ← hpiece, newlines_encode]
    obtain ⟨hcuts, hadd⟩ := cuts_addPiece h hline (by omega) hpiece hsize
    obtain ⟨hall, ps, htiles, hsegments⟩ := @ih _ (done ++ piece) hcuts (by simp [hstart])
      (by rw [hdone, List.flatten_cons, List.append_assoc])
      (by rw [line_addPiece, start_addPiece, hline, hlineAfter, Nat.add_assoc])
      fun q hq ↦ hpieces q (List.mem_cons_of_mem piece hq)
    refine ⟨hall, ⟨some page.page, page.canonicalStartByte + p.start,
      page.canonicalStartByte + p.start + (encode piece).length, piece⟩ :: ps, ?_, ?_⟩
    · refine ⟨rfl, rfl, by dsimp only; omega, hpiece, ?_⟩
      rwa [start_addPiece, ← Nat.add_assoc] at htiles
    · rw [addPieces, List.foldl_cons]
      rw [addPieces] at hsegments
      rw [hsegments, hadd, List.append_assoc, ← List.filter_append]
      rfl

/-! ### The ids -/

theorem removePrefix_append (start s : String) : removePrefix start (start ++ s) = s := by
  rw [removePrefix, Contract.dropPrefix?_eq_some.2 (String.toList_append)]
  exact String.ofList_toList

theorem eq_of_segmentId_eq (hcollision : Function.Injective hexdigest) {i j : Nat} {s t : String}
    (h : segmentId hexdigest representationId i s = segmentId hexdigest representationId j t) : i = j := by
  simp only [segmentId, sha256Bytes, removePrefix_append, String.append_right_inj] at h
  have hrender := Utf8.encode_injective (hcollision h)
  have hparse := congrArg JsonText.parse hrender
  rw [JsonText.parse_render JsonText.escapes_pyEscape, JsonText.parse_render JsonText.escapes_pyEscape] at hparse
  have hparts : i = j ∧ s = t := by simpa [Json.ofInt] using hparse
  exact hparts.1

theorem Cuts.nodup_ids {p : Progress} (h : Cuts hexdigest canonical representationId p)
    (hcollision : Function.Injective hexdigest) : (p.segments.map Segment.segmentId).Nodup := by
  have hordinals : p.segments.Pairwise fun s t ↦ s.ordinal ≠ t.ordinal := by
    have := List.nodup_range (n := p.ordinal)
    rwa [← h.ordinals, List.nodup_iff_pairwise_ne, List.pairwise_map] at this
  rw [List.nodup_iff_pairwise_ne, List.pairwise_map]
  refine hordinals.imp_of_mem fun {s t} hs ht hne heq ↦ hne ?_
  rw [h.ids s hs, h.ids t ht] at heq
  exact eq_of_segmentId_eq hcollision heq

/-! ### All pages -/

theorem forall₂_trans {α β γ : Type} {R : α → β → Prop} {S : β → γ → Prop} {a : List α} {b : List β}
    {c : List γ} (hR : List.Forall₂ R a b) (hS : List.Forall₂ S b c) :
    List.Forall₂ (fun x z ↦ ∃ y, R x y ∧ S y z) a c := by
  induction hR generalizing c with
  | nil =>
    cases hS
    exact .nil
  | cons hxy _ ih =>
    obtain _ | ⟨hyz, hrest⟩ := hS
    exact .cons ⟨_, hxy, hyz⟩ (ih hrest)

theorem segmentNext_eq {q : Progress} {json : Json} {previousEnd : Nat}
    (hq : Cuts hexdigest canonical representationId q) (hread : readPage json = .ok page)
    (hplaced : Placed canonical previousEnd (lineAt canonical previousEnd) page) :
    ∃ q', segmentNext hexdigest representationId q json = .ok q' ∧
      Cuts hexdigest canonical representationId q' ∧
      ∃ ps, Tiles canonical page.page page.canonicalStartByte ps page.canonicalEndByte ∧
        q'.segments.map Segment.piece = q.segments.map Segment.piece ++ ps.filter fun piece ↦ !blank piece.text := by
  rw [segmentNext, hread, Except.ok_bind]
  obtain ⟨pieces, hflatten, hpieces, hloop⟩ := @segmentPage_eq hexdigest representationId
    page [] page.text _ { q with start := 0, line := page.canonicalStartLine } rfl le_rfl
  have hcuts := @cuts_addPieces hexdigest canonical representationId page pieces
    { q with start := 0, line := page.canonicalStartLine } []
    ⟨hq.exact, hq.ordinals, hq.ids⟩ rfl hflatten.symm hplaced.lineAt.1 hplaced.endByte hplaced.inside
    hplaced.text hpieces
  exact ⟨_, hloop, hcuts⟩

theorem foldlM_segmentNext {q : Progress} {pages : List Json} {ps : List Page} {number previousEnd : Nat}
    (hq : Cuts hexdigest canonical representationId q)
    (hread : List.Forall₂ (fun page p ↦ readPage page = .ok p) pages ps)
    (horder : InOrder canonical number previousEnd (lineAt canonical previousEnd) ps) :
    ∃ q', pages.foldlM (segmentNext hexdigest representationId) q = .ok q' ∧
      Cuts hexdigest canonical representationId q' ∧
      ∃ tiles, List.Forall₂ (fun p ps ↦ Tiles canonical p.page p.canonicalStartByte ps p.canonicalEndByte) ps tiles ∧
        q'.segments.map Segment.piece =
          q.segments.map Segment.piece ++ tiles.flatten.filter fun piece ↦ !blank piece.text := by
  induction hread generalizing q number previousEnd with
  | nil => exact ⟨q, rfl, hq, [], .nil, by simp⟩
  | cons hpage hpages ih =>
    obtain ⟨-, hplaced, hrest⟩ := horder
    obtain ⟨q', hnext, hcuts, first, htiles, hsegments⟩ := segmentNext_eq hq hpage hplaced
    rw [hplaced.lineAt.2] at hrest
    obtain ⟨q'', hfold, hcuts', tiles, htiles', hsegments'⟩ := ih hcuts hrest
    refine ⟨q'', ?_, hcuts', first :: tiles, .cons htiles htiles', ?_⟩
    · rw [List.foldlM_cons, hnext, Except.ok_bind, hfold]
    · rw [hsegments', hsegments, List.flatten_cons, List.filter_append, List.append_assoc]

/-- A digest without collisions. -/
def plainDigest (b : List UInt8) : String := String.ofList (b.map fun x ↦ Char.ofNat x.toNat)

theorem plainDigest_injective : Function.Injective plainDigest := by
  intro b c h
  refine List.map_injective_iff.2 (fun x y hxy ↦ ?_) (String.ofList_injective h)
  have hchar : ∀ n < 256, (Char.ofNat n).toNat = n := by decide +kernel
  have := congrArg Char.toNat hxy
  rw [hchar _ x.toNat_lt, hchar _ y.toNat_lt] at this
  exact UInt8.toNat_inj.1 this

/-- The manifest of one page, which begins the canonical text. -/
def onePage (text : Json) (encoded : List UInt8) (spans : List Json) : Json :=
  .obj [("schema", .str "knowledge.derived_manifest.v1"), ("pageCount", .ofInt 1), ("pages", .arr [
    .obj [("pageText", .obj [("schema", .str "knowledge.page_text.v1"), ("page", .ofInt 1),
        ("route", .str "nativeText"), ("widthMillipoints", .ofInt 1), ("heightMillipoints", .ofInt 1),
        ("text", text), ("textSha256", .str (sha256Bytes plainDigest encoded)), ("spans", .arr spans)]),
      ("canonicalStartByte", .ofInt 0), ("canonicalEndByte", .ofInt encoded.length),
      ("canonicalStartLine", .ofInt 1), ("canonicalEndLine", .ofInt (1 + newlines encoded))]])]

/-- A page of one line. -/
def linePage : Json :=
  onePage (.str "a") (encode ['a'])
    [.obj [("text", .str "a"), ("bbox", .arr [.ofInt 0, .ofInt 0, .ofInt 10, .ofInt 10])]]

end Centaeris.Material.Evidence
