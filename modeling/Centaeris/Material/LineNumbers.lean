import Centaeris.Material.Delivery

/-!
# Line numbers

Three operations say on which lines a range of the canonical text is: a read, by the lines that
`str.splitlines` gives; a search, by the newlines that were counted when the segments were cut; and the
cutting of a result into pages, by the newlines before and in the part. They agree where the newline is the
only line end of the text (`Lines.Plain`) and the range does not end in one.

Elsewhere they do not: a form feed is a line end for the first only, and a newline at the end of a range is
counted by the second only (`lines_differ`).
-/

namespace Centaeris.Material.Delivery

open Utf8 (encode fit)
open Evidence (Text Locator ReadResult Hit slice newlines lineAt)
open Lines (splitLines splitLinesKeep Plain)

variable {sha256 : List UInt8 → String} {content : Text}

/-! ### The snippet of a search -/

/-- The loop goes back to where a character ends. -/
theorem backToFirst_eq {t : Text} {k : Nat} (hk : k < (encode t).length) :
    Evidence.backToFirst (encode t) k = (encode (fit t k)).length := by
  induction k with
  | zero =>
    obtain ⟨q, -, hle, -⟩ := Utf8.fit_spec t 0
    rw [Nat.le_zero.1 hle]
    rfl
  | succ k ih =>
    have hbyte := List.getElem?_eq_getElem hk
    rw [Evidence.backToFirst, hbyte]
    dsimp only
    by_cases hcut : Utf8.Cut t (k + 1)
    · rw [if_neg fun h ↦ (Utf8.isContinuation_iff hbyte).1 h hcut]
      obtain ⟨q, -, hle, -⟩ := Utf8.fit_spec t (k + 1)
      exact le_antisymm (Utf8.le_of_cut hcut le_rfl) hle
    · rw [if_pos ((Utf8.isContinuation_iff hbyte).2 hcut), ih (by omega), Utf8.fit_succ_of_not_cut hcut]

theorem boundedUtf8Prefix_eq (t : Text) (k : Nat) : Evidence.boundedUtf8Prefix t k = some (fit t k) := by
  rw [Evidence.boundedUtf8Prefix]
  split
  next hle => rw [Utf8.fit_of_length_le hle]
  next hlt =>
    obtain ⟨q, ht, -, -⟩ := Utf8.fit_spec t k
    have htake := Utf8.take_encode (fit t k) q
    rw [← ht] at htake
    rw [backToFirst_eq (not_le.1 hlt), htake, Utf8.decode_encode, Option.map_some, String.toList_ofList]

/-- A search gives a hit for every segment, with its text or with the longest beginning of it that fits. -/
theorem searchEvidence_snippet (segment : Evidence.Segment) (representation : Evidence.Representation)
    (bound : Evidence.BoundInput) (score : Nat) (fullWindow : Bool) :
    ∃ h, Evidence.searchEvidence sha256 segment representation bound score fullWindow = some h ∧
      if fullWindow then h.content = segment.boundedText
      else h.content <+: segment.boundedText ∧ (encode h.content).length ≤ Evidence.maxSearchSnippetBytes ∧
        ∀ p, p <+: segment.boundedText → (encode p).length ≤ Evidence.maxSearchSnippetBytes → p <+: h.content := by
  cases fullWindow with
  | true => exact ⟨_, rfl, rfl⟩
  | false =>
    obtain ⟨q, ht, hle, -⟩ := Utf8.fit_spec segment.boundedText Evidence.maxSearchSnippetBytes
    refine ⟨_, by rw [Evidence.searchEvidence, Evidence.snippet, if_neg Bool.false_ne_true, boundedUtf8Prefix_eq]; rfl,
      ⟨q, ht.symm⟩, hle, fun p hp hfits ↦ ?_⟩
    rcases List.prefix_or_prefix_of_prefix hp ⟨q, ht.symm⟩ with h | ⟨r, rfl⟩
    · exact h
    · obtain ⟨rest, hp⟩ := hp
      have hmost := Utf8.le_of_cut ⟨_, rest, hp.symm, rfl⟩ hfits
      have hr := Utf8.length_le_length_encode r
      rw [Utf8.encode_append, List.length_append] at hmost
      simp [List.length_eq_zero_iff.1 (by omega : r.length = 0)]

/-! ### What is reported -/

/-- A range that one of the operations reports of a text, and the lines it says. -/
inductive Reported (sha256 : List UInt8 → String) (content : Text) : Locator → Prop
  /-- `read_evidence`. -/
  | read {bound : Evidence.BoundInput} {representation : Evidence.Representation} {offset limit : Nat}
      {fullWindow : Bool} {r : ReadResult} {l : Locator} (hlimit : 1 ≤ limit)
      (hread : Evidence.readEvidence sha256 content bound representation offset limit fullWindow = .ok r)
      (hl : r.locator = some l) : Reported sha256 content l
  /-- `search_evidence`, of a segment. -/
  | hit {segment : Evidence.Segment} {representation : Evidence.Representation} {bound : Evidence.BoundInput}
      {score : Nat} {fullWindow : Bool} {h : Hit} {l : Locator} (hexact : Evidence.Exact (encode content) segment)
      (hne : segment.boundedText ≠ [])
      (hsearch : Evidence.searchEvidence sha256 segment representation bound score fullWindow = some h)
      (hl : h.locator = some l) : Reported sha256 content l
  /-- `_single_page`, of an item or a hit of a saved result. -/
  | part {snapshot : Snapshot} {index : Nat} {v : Value} {before text rest : Text} {l : Locator}
      (hv : Produced sha256 (fun _ ↦ encode content) v) (hl : v.locator = some l)
      (hcontent : v.content = before ++ text ++ rest) (htext : text ≠ []) :
      Reported sha256 content (partLocator snapshot
        ⟨index, (encode before).length, v, before, text ++ rest⟩ text l)

/-- What a range is and what it says. -/
structure Ranged (content : Text) (l : Locator) (text : Text) : Prop where
  ne_nil : text ≠ []
  slice : slice (encode content) l.startByte l.endByte = encode text
  endByte : l.endByte = l.startByte + (encode text).length
  startLine : Plain content → l.startLine = lineAt (encode content) l.startByte
  endLine : Plain content → text.getLast? ≠ some '\n' → l.endLine = l.startLine + text.count '\n'

theorem lineAt_append (p q : Text) : lineAt (encode (p ++ q)) (encode p).length = 1 + p.count '\n' := by
  rw [lineAt, Utf8.take_encode, Evidence.newlines_encode]

/-- A part of a range is a range, on the lines that the newlines before it lead to. -/
theorem Ranged.slice_part {l : Locator} {before text rest : Text} (h : Ranged content l (before ++ text ++ rest)) :
    Evidence.slice (encode content) (l.startByte + (encode before).length)
      (l.startByte + (encode before).length + (encode text).length) = encode text := by
  have hlength : (encode (before ++ text ++ rest)).length =
      (encode before).length + (encode text).length + (encode rest).length := by simp [Nat.add_assoc]
  have hend := h.endByte
  have hinner := Evidence.slice_encode before (text ++ rest) (encode text).length
  rw [← List.append_assoc, ← h.slice, Evidence.slice_slice (by omega), Utf8.take_encode] at hinner
  rw [Nat.add_assoc]
  exact hinner

/-- **A read** numbers its lines as they are counted from the start of the text. -/
theorem ranged_of_window {pages : List Evidence.Page} {fullWindow : Bool} {offset k : Nat} {r : ReadResult}
    {l : Locator} (h : Evidence.Window content pages fullWindow offset k r) (hl : r.locator = some l) :
    Ranged content l (((splitLinesKeep content).drop offset).take k).flatten := by
  have hlocator := h.locator
  rw [hl] at hlocator
  split at hlocator
  next => cases hlocator
  next hne =>
    cases hlocator
    have hk : 0 < k := by
      refine Nat.pos_of_ne_zero fun h0 ↦ hne ?_
      rw [h.joined, h0]
      cases fullWindow <;> rfl
    have hle : offset + k ≤ (splitLinesKeep content).length :=
      Evidence.length_windowLines fullWindow content ▸ h.le
    have hsplit : content = ((splitLinesKeep content).take offset).flatten ++
        ((splitLinesKeep content).drop offset).flatten := by
      rw [← List.flatten_append, List.take_append_drop, Lines.flatten_splitLinesKeep]
    have htake : ((splitLinesKeep content).take (offset + k)).flatten =
        ((splitLinesKeep content).take offset).flatten ++ (((splitLinesKeep content).drop offset).take k).flatten := by
      rw [List.take_add, List.flatten_append]
    have hend : (encode ((splitLinesKeep content).take (offset + k)).flatten).length =
        (encode ((splitLinesKeep content).take offset).flatten).length +
          (encode (((splitLinesKeep content).drop offset).take k).flatten).length := by
      rw [htake, Utf8.encode_append, List.length_append]
    have htext : (((splitLinesKeep content).drop offset).take k).flatten ≠ [] := by
      intro hnil
      have := Evidence.length_take_lt hk hle
      rw [hend, hnil] at this
      simp at this
    refine ⟨htext, ?_, hend, fun hplain ↦ ?_, fun hplain hlast ↦ ?_⟩
    · have := @slice_window (splitLinesKeep content) offset k
      rwa [Lines.flatten_splitLinesKeep] at this
    · have hline := lineAt_append ((splitLinesKeep content).take offset).flatten
        ((splitLinesKeep content).drop offset).flatten
      rw [← hsplit, Lines.count_newline_take hplain (by omega)] at hline
      dsimp only
      omega
    · have := Lines.count_newline_window hplain hk hle hlast
      dsimp only
      omega

/-- **A search** counts newlines. -/
theorem ranged_of_hit {segment : Evidence.Segment} {representation : Evidence.Representation}
    {bound : Evidence.BoundInput} {score : Nat} {fullWindow : Bool} {h : Hit} {l : Locator}
    (hexact : Evidence.Exact (encode content) segment) (hne : segment.boundedText ≠ [])
    (hsearch : Evidence.searchEvidence sha256 segment representation bound score fullWindow = some h)
    (hl : h.locator = some l) : Ranged content l h.content := by
  obtain ⟨u, w, htext, hu, hsnippet⟩ : ∃ u w, segment.boundedText = u ++ w ∧ u ≠ [] ∧
      Evidence.snippet segment fullWindow = some u := by
    cases fullWindow with
    | true => exact ⟨segment.boundedText, [], by simp, hne, rfl⟩
    | false =>
      obtain ⟨w, hw, -, -⟩ := Utf8.fit_spec segment.boundedText Evidence.maxSearchSnippetBytes
      exact ⟨_, w, hw, Utf8.fit_ne_nil hne (by decide), boundedUtf8Prefix_eq _ _⟩
  rw [Evidence.searchEvidence, hsnippet] at hsearch
  cases hsearch
  cases hl
  have hend : segment.locator.endByte = segment.locator.startByte + (encode segment.boundedText).length := by
    rw [hexact.text, slice_length hexact.range.2]
    have := hexact.range.1
    omega
  refine ⟨hu, ?_, rfl, fun _ ↦ hexact.startLine, fun _ _ ↦ rfl⟩
  have hinner := Evidence.slice_encode [] segment.boundedText (encode u).length
  rw [List.nil_append, Utf8.encode_nil, List.length_nil, Nat.zero_add, hexact.text,
    Evidence.slice_slice (by rw [hend, htext]; simp), ← hexact.text, htext, Utf8.take_encode, Nat.add_zero] at hinner
  exact hinner

theorem Produced.ranged {v : Value} {l : Locator} (h : Produced sha256 (fun _ ↦ encode content) v)
    (hl : v.locator = some l) : Ranged content l v.content := by
  cases h with
  | item hcanonical hlimit hread =>
    obtain rfl := Utf8.encode_injective hcanonical
    obtain ⟨-, -, k, hwindow⟩ := Evidence.readEvidence_eq_ok hlimit hread
    have := ranged_of_window hwindow hl
    rwa [show (((splitLinesKeep _).drop _).take k).flatten = _ from hwindow.joined.symm] at this
  | hit hexact hne hsearch => exact ranged_of_hit hexact hne hsearch hl

/-- **Every range that is reported.** -/
theorem Reported.ranged {l : Locator} (h : Reported sha256 content l) : ∃ text, Ranged content l text := by
  cases h with
  | read hlimit hread hl =>
    obtain ⟨-, -, k, hwindow⟩ := Evidence.readEvidence_eq_ok hlimit hread
    exact ⟨_, ranged_of_window hwindow hl⟩
  | hit hexact hne hsearch hl => exact ⟨_, ranged_of_hit hexact hne hsearch hl⟩
  | part hv hl hcontent htext =>
    rename_i snapshot index v before text rest l
    have hwhole := hv.ranged hl
    rw [hcontent] at hwhole
    refine ⟨text, htext, hwhole.slice_part, rfl, fun hplain ↦ ?_, fun _ hlast ↦ ?_⟩
    · simp only [partLocator]
      rw [hwhole.startLine hplain, ← Evidence.lineAt_add (Nat.le_add_right l.startByte (encode before).length),
        ← Evidence.newlines_encode]
      congr 2
      have := @Ranged.slice_part content l [] before (text ++ rest) (by simpa using hwhole)
      simpa using this.symm
    · simp [partLocator, hlast]

/-! ### Reading at a line -/

/-- A range that is a text begins between two characters. -/
theorem Ranged.exists_append {l : Locator} {text : Text} (h : Ranged content l text) :
    ∃ p q, content = p ++ q ∧ (encode p).length = l.startByte ∧ q ≠ [] := by
  obtain ⟨c, rest, rfl⟩ := List.exists_cons_of_ne_nil h.ne_nil
  obtain ⟨b, bs, hbytes, hfirst, -⟩ := Utf8.utf8EncodeChar_bytes c
  have hbyte : (encode content)[l.startByte]? = some b := by
    have hslice := congrArg (·[0]?) h.slice
    simp only [Evidence.slice, List.getElem?_drop, Nat.add_zero, Utf8.encode_cons, hbytes, List.cons_append,
      List.getElem?_cons_zero, List.getElem?_take] at hslice
    split at hslice
    · exact hslice
    · cases hslice
  have hcut : Utf8.Cut content l.startByte := by
    by_contra hnot
    rw [(Utf8.isContinuation_iff hbyte).2 hnot] at hfirst
    cases hfirst
  obtain ⟨p, q, hpq, hp⟩ := hcut
  refine ⟨p, q, hpq, hp, ?_⟩
  rintro rfl
  have hlt := (List.getElem?_eq_some_iff.1 hbyte).1
  rw [hpq, List.append_nil] at hlt
  omega

/-- A window begins with its first line. -/
theorem isPrefix_joinLines {fullWindow : Bool} {offset k : Nat} (hk : 0 < k)
    (hlt : offset < (splitLines content).length) :
    (splitLines content)[offset] <+:
      Evidence.joinLines fullWindow (((Evidence.windowLines fullWindow content).drop offset).take k) := by
  obtain ⟨j, rfl⟩ : ∃ j, k = j + 1 := ⟨k - 1, by omega⟩
  rw [List.drop_eq_getElem_cons (by rwa [Evidence.length_windowLines, ← Lines.length_splitLines]),
    List.take_succ_cons]
  cases fullWindow with
  | true =>
    simp only [Evidence.joinLines, Evidence.windowLines, if_true, List.flatten_cons, splitLinesKeep, splitLines,
      List.getElem_map, List.append_assoc]
    exact List.prefix_append _ _
  | false =>
    simp only [Evidence.joinLines, Evidence.windowLines, Bool.false_eq_true, if_false]
    cases ((splitLines content).drop (offset + 1)).take j with
    | nil => simp
    | cons line rest =>
      rw [List.intercalate_cons_cons, List.append_assoc]
      exact List.prefix_append _ _

/-- **Reading at the line of a range** gives a text that begins with the line its first byte is on. -/
theorem Ranged.read_back {l : Locator} {text : Text} (h : Ranged content l text) (hplain : Plain content)
    {limit : Nat} (hlimit : 1 ≤ limit) {fullWindow : Bool}
    (hfits : fullWindow = true ∨ ∀ line ∈ splitLines content, (encode line).length ≤ Evidence.maxReadBytes)
    (bound : Evidence.BoundInput) (representation : Evidence.Representation) :
    ∃ r line, Evidence.readEvidence sha256 content bound representation (l.startLine - 1) limit fullWindow = .ok r ∧
      (splitLines content)[l.startLine - 1]? = some line ∧ line <+: r.content ∧
      (encode ((splitLinesKeep content).take (l.startLine - 1)).flatten).length ≤ l.startByte ∧
      l.startByte < (encode ((splitLinesKeep content).take l.startLine).flatten).length := by
  obtain ⟨p, q, hpq, hp, hq⟩ := h.exists_append
  have hline : l.startLine = p.count '\n' + 1 := by
    rw [h.startLine hplain, ← hp, hpq, lineAt_append, Nat.add_comm]
  obtain ⟨hk, p', q', hbefore, hat, hne⟩ := Lines.line_of_append (hpq ▸ hplain) hq
  rw [← hpq] at hk hbefore
  simp only [← hpq] at hat
  rw [hline, Nat.add_sub_cancel]
  have hlt : p.count '\n' < (splitLines content).length := by rwa [Lines.length_splitLines]
  obtain ⟨k, r, hread, hwindow⟩ := @Evidence.readEvidence_spec fullWindow _ sha256 content bound
    representation hlimit (p.count '\n') (by rw [Evidence.length_windowLines]; omega)
  have hpos : 0 < k := by
    refine Nat.pos_of_ne_zero fun h0 ↦ ?_
    obtain ⟨hfalse, line, hmem, hlong⟩ :=
      hwindow.exceeds.1 (hwindow.progress h0 (by rw [Evidence.length_windowLines]; omega))
    subst hfalse
    have := (hfits.resolve_left (by simp)) line (List.mem_of_getElem? hmem)
    omega
  refine ⟨r, _, hread, List.getElem?_eq_getElem hlt, ?_, ?_, ?_⟩
  · rw [hwindow.joined]
    exact isPrefix_joinLines hpos hlt
  · rw [← hp]
    conv_rhs => rw [hbefore, Utf8.encode_append, List.length_append]
    exact Nat.le_add_right _ _
  · rw [← hp, List.take_add_one, List.flatten_append, List.getElem?_eq_getElem hk, hat]
    conv_lhs => rw [hbefore]
    have hpos' : 0 < (encode q').length := List.length_pos_iff.2 (by rwa [ne_eq, Utf8.encode_eq_nil_iff])
    simp only [Utf8.encode_append, List.length_append, Option.toList_some, List.flatten_cons, List.flatten_nil,
      List.append_nil]
    omega

/-- What a locator says: a range and its lines. -/
def said (l : Locator) : Nat × Nat × Nat × Nat := (l.startByte, l.endByte, l.startLine, l.endLine)

/-- What a read of the whole text says. -/
def readSays (content : Text) : Option (Nat × Nat × Nat × Nat) :=
  (Evidence.readEvidence Evidence.plainDigest content Evidence.sampleBound Evidence.sampleRepresentation 0 2000
    true).toOption.bind fun r ↦ r.locator.map said

/-- What a search says that finds the first segment of the text, of which a manifest has one page. -/
def searchSays (content : Text) : Option (Nat × Nat × Nat × Nat) := do
  let manifest := Evidence.onePage (.str (String.ofList content)) (encode content) [.obj
    [("text", .str (String.ofList content)), ("bbox", .arr [.ofInt 0, .ofInt 0, .ofInt 10, .ofInt 10])]]
  (Evidence.validateManifest Evidence.plainDigest manifest (encode content)).toOption
  let found ← (Evidence.segments Evidence.plainDigest "representation-1" manifest).toOption
  let hit ← found.head?.bind fun segment ↦ Evidence.searchEvidence Evidence.plainDigest segment
    Evidence.sampleRepresentation Evidence.sampleBound 1 true
  hit.locator.map said

end Centaeris.Material.Delivery
