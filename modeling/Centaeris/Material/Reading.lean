import Mathlib.Data.List.Induction
import Centaeris.Material.Evidence

/-!
# Reading a material to its end

A window takes at least one line, unless there is none left or the next one has too many bytes by itself.
So reading on at `nextOffset` comes to an end, and the windows are consecutive (`Reads`). What they hold
together follows by induction over them.
-/

namespace Centaeris.Material.Evidence

open Utf8 (encode)
open Lines (splitLines splitLinesKeep)

variable {fullWindow : Bool} {limit : Nat}

/-! ### The lines of a window -/

theorem length_windowLines (fullWindow : Bool) (content : Text) :
    (windowLines fullWindow content).length = (splitLinesKeep content).length := by
  cases fullWindow with
  | true => rfl
  | false => exact Lines.length_splitLines content

theorem length_joinLines_append (selected : List Text) (line : Text) :
    (encode (joinLines false (selected ++ [line]))).length =
      (encode (joinLines false selected)).length + (if selected = [] then 0 else 1) + (encode line).length := by
  by_cases h : selected = []
  · simp [h, joinLines]
  · have hnewline : (String.utf8EncodeChar '\n').length = 1 := rfl
    simp [h, joinLines, Lines.intercalate_append h, hnewline]
    omega

theorem length_le_of_mem {lines : List Text} {line : Text} (h : line ∈ lines) :
    (encode line).length ≤ (encode (joinLines false lines)).length := by
  induction lines using List.reverseRecOn with
  | nil => cases h
  | append_singleton lines last ih =>
    rw [length_joinLines_append]
    obtain hmem | hmem := List.mem_append.1 h
    · have := ih hmem
      omega
    · rw [List.mem_singleton.1 hmem]
      omega

theorem selectLines_of_selected {lines selected : List Text} {bytes : Nat} (hne : selected ≠ []) :
    ∃ k ≤ lines.length, ∃ by_, selectLines fullWindow limit lines selected bytes =
      (selected ++ lines.take k, by_, false) := by
  induction lines generalizing selected bytes with
  | nil => exact ⟨0, le_rfl, none, by simp [selectLines]⟩
  | cons line rest ih =>
    rw [selectLines, if_neg hne]
    by_cases hlen : selected.length = limit
    · exact ⟨0, Nat.zero_le _, some .lines, by simp [hlen]⟩
    rw [if_neg hlen]
    by_cases hlong : fullWindow = false ∧ maxReadBytes < bytes + 1 + (encode line).length
    · exact ⟨0, Nat.zero_le _, some .bytes, by simp [hlong, hne]⟩
    obtain ⟨k, hk, by_, h⟩ := @ih (selected ++ [line]) (bytes + 1 + (encode line).length) (by simp)
    refine ⟨k + 1, Nat.succ_le_succ hk, by_, ?_⟩
    dsimp only
    rw [if_neg hlong, h, List.take_succ_cons, List.append_assoc]
    rfl

theorem length_selectLines {lines selected : List Text} {bytes : Nat}
    (hbytes : (encode (joinLines false selected)).length = bytes) (hle : bytes ≤ maxReadBytes) :
    (encode (joinLines false (selectLines false limit lines selected bytes).1)).length ≤ maxReadBytes := by
  induction lines generalizing selected bytes with
  | nil => rw [selectLines, hbytes]; exact hle
  | cons line rest ih =>
    rw [selectLines]
    by_cases hlen : selected.length = limit
    · rw [if_pos hlen, hbytes]; exact hle
    rw [if_neg hlen]
    by_cases hlong : maxReadBytes < bytes + (if selected = [] then 0 else 1) + (encode line).length
    · rw [if_pos ⟨rfl, hlong⟩, hbytes]; exact hle
    rw [if_neg fun h ↦ hlong h.2]
    refine ih ?_ (not_lt.1 hlong)
    rw [length_joinLines_append, hbytes]

/-- **What is selected**: lines from the first on; none only if there is none or the first is too long. -/
theorem selectLines_spec (hlimit : 1 ≤ limit) (lines : List Text) :
    ∃ k ≤ lines.length, ∃ by_ exceeds, selectLines fullWindow limit lines [] 0 = (lines.take k, by_, exceeds) ∧
      (exceeds = true ↔ fullWindow = false ∧ ∃ line ∈ lines.head?, maxReadBytes < (encode line).length) ∧
      (exceeds = true → k = 0) ∧ (k = 0 → lines ≠ [] → exceeds = true) := by
  cases lines with
  | nil => exact ⟨0, le_rfl, none, false, rfl, by simp, by simp, by simp⟩
  | cons line rest =>
    by_cases h : fullWindow = false ∧ maxReadBytes < (encode line).length
    · refine ⟨0, Nat.zero_le _, some .bytes, true, ?_, by simpa using h, by simp, by simp⟩
      rw [selectLines, if_neg (by simp; omega)]
      simp [h]
    · obtain ⟨k, hk, by_, heq⟩ := @selectLines_of_selected fullWindow limit rest [line]
        (0 + 0 + (encode line).length) (by simp)
      refine ⟨k + 1, Nat.succ_le_succ hk, by_, false, ?_, by simpa using h, by simp, by simp⟩
      rw [selectLines, if_neg (by simp; omega)]
      simpa [h] using heq

/-! ### One window -/

/-- What a call at `offset` gives that takes `k` lines. -/
structure Window (content : Text) (pages : List Page) (fullWindow : Bool) (offset k : Nat)
    (r : ReadResult) : Prop where
  le : offset + k ≤ (windowLines fullWindow content).length
  startLine : r.startLine = offset + 1
  endLine : r.endLine = offset + k
  joined : r.content = joinLines fullWindow (((windowLines fullWindow content).drop offset).take k)
  bytes : fullWindow = false → (encode r.content).length ≤ maxReadBytes
  exceeds : r.firstLineExceedsLimit = true ↔
    fullWindow = false ∧ ∃ line ∈ (windowLines fullWindow content)[offset]?, maxReadBytes < (encode line).length
  stopped : r.firstLineExceedsLimit = true → k = 0
  progress : k = 0 → offset < (windowLines fullWindow content).length → r.firstLineExceedsLimit = true
  nextOffset : r.nextOffset =
    if offset + k < (windowLines fullWindow content).length ∧ r.firstLineExceedsLimit = false
    then some (offset + k) else none
  locator : r.locator = if r.content = [] then none else
    let startByte := (encode ((splitLinesKeep content).take offset).flatten).length
    let endByte := (encode ((splitLinesKeep content).take (offset + k)).flatten).length
    let (pageStart, pageEnd) := pageBounds (pagesOf (pageRanges pages) startByte endByte)
    some ⟨pageStart, pageEnd, startByte, endByte, offset + 1, offset + k⟩

/-- The bytes before the end of a window are more than those before its start. -/
theorem length_take_lt {content : Text} {offset k : Nat} (hk : 0 < k)
    (hle : offset + k ≤ (splitLinesKeep content).length) :
    (encode ((splitLinesKeep content).take offset).flatten).length + 1 ≤
      (encode ((splitLinesKeep content).take (offset + k)).flatten).length := by
  have hlt : offset < (splitLinesKeep content).length := by omega
  obtain ⟨j, rfl⟩ : ∃ j, k = j + 1 := ⟨k - 1, by omega⟩
  have hline := Lines.ne_nil_of_mem_splitLinesKeep (List.getElem_mem hlt)
  have hpos : 0 < (encode (splitLinesKeep content)[offset]).length :=
    List.length_pos_iff.2 (by rwa [ne_eq, Utf8.encode_eq_nil_iff])
  rw [List.take_add, List.drop_eq_getElem_cons hlt, List.take_succ_cons]
  simp only [List.flatten_append, List.flatten_cons, Utf8.encode_append, List.length_append]
  omega

theorem selectedLocator_eq {content : Text} {pages : List Page} {selectedText : Text} {offset k : Nat}
    (hk : selectedText ≠ [] → 0 < k) (hle : offset + k ≤ (splitLinesKeep content).length) :
    selectedLocator content pages selectedText offset (offset + k) = .ok (if selectedText = [] then none else
      let startByte := (encode ((splitLinesKeep content).take offset).flatten).length
      let endByte := (encode ((splitLinesKeep content).take (offset + k)).flatten).length
      let (pageStart, pageEnd) := pageBounds (pagesOf (pageRanges pages) startByte endByte)
      some ⟨pageStart, pageEnd, startByte, endByte, offset + 1, offset + k⟩) := by
  rw [selectedLocator]
  split
  · rfl
  next hne =>
    have hlt := length_take_lt (hk hne) hle
    rw [lineLocator, if_neg (by have := hk hne; omega)]
    simp only [Nat.add_sub_cancel, Except.ok_bind, Nat.max_eq_right hlt, locatorPages]
    rfl

variable {sha256 : List UInt8 → String} {content : Text} {bound : BoundInput}
  {representation : Representation}

/-- **One call.** -/
theorem readEvidence_spec (hlimit : 1 ≤ limit) {offset : Nat}
    (hoffset : offset ≤ (windowLines fullWindow content).length) :
    ∃ k r, readEvidence sha256 content bound representation offset limit fullWindow = .ok r ∧
      Window content representation.pages fullWindow offset k r := by
  obtain ⟨k, hk, by_, exceeds, hselect, hexceeds, hstopped, hprogress⟩ := @selectLines_spec
    fullWindow _ hlimit ((windowLines fullWindow content).drop offset)
  have hbytes : fullWindow = false →
      (encode (joinLines fullWindow (((windowLines fullWindow content).drop offset).take k))).length ≤
        maxReadBytes := by
    rintro rfl
    have := @length_selectLines limit ((windowLines false content).drop offset) [] 0 rfl (Nat.zero_le _)
    rwa [hselect] at this
  rw [List.length_drop] at hk
  have hle : offset + k ≤ (windowLines fullWindow content).length :=
    Nat.add_le_of_le_sub' hoffset hk
  have hlen : (((windowLines fullWindow content).drop offset).take k).length = k := by
    rw [List.length_take, List.length_drop]
    omega
  have hpos : joinLines fullWindow (((windowLines fullWindow content).drop offset).take k) ≠ [] → 0 < k := by
    intro hne
    refine Nat.pos_of_ne_zero fun h ↦ hne ?_
    subst h
    cases fullWindow <;> rfl
  have hlocator := @selectedLocator_eq _ representation.pages _ offset _ hpos
    (length_windowLines fullWindow content ▸ hle)
  -- The flag is only kept when lines are left, which it says itself.
  have hleft : exceeds = true → offset + k < (windowLines fullWindow content).length := by
    intro h
    obtain ⟨-, line, hline, -⟩ := hexceeds.1 h
    have hne : (windowLines fullWindow content).drop offset ≠ [] := by
      rintro hnil
      rw [hnil] at hline
      cases hline
    have := List.length_pos_iff.2 hne
    rw [List.length_drop] at this
    have := hstopped h
    omega
  have hflag : (decide (offset + k < (windowLines fullWindow content).length) && exceeds) = exceeds := by
    cases exceeds with
    | true => simp [hleft rfl]
    | false => simp
  refine ⟨k, ?_⟩
  rw [readEvidence, Except.require_pos hoffset, Except.ok_bind, hselect]
  simp only [hlen, hlocator, Except.ok_bind, hflag]
  refine ⟨_, rfl, hle, rfl, rfl, rfl, hbytes, ?_, hstopped, ?_, ?_, rfl⟩
  · rw [hexceeds, List.head?_drop]
  · intro h0 hlt
    refine hprogress h0 fun hnil ↦ ?_
    have := congrArg List.length hnil
    rw [List.length_drop, List.length_nil] at this
    omega
  · dsimp only
    congr 1
    simp

/-- Every call that returns gives a window, with the digest of its content. -/
theorem readEvidence_eq_ok (hlimit : 1 ≤ limit) {offset : Nat} {r : ReadResult}
    (h : readEvidence sha256 content bound representation offset limit fullWindow = .ok r) :
    r.evidenceSha256 = sha256 (encode r.content) ∧ r.representationId = representation.representationId ∧
      ∃ k, Window content representation.pages fullWindow offset k r := by
  have hoffset : offset ≤ (windowLines fullWindow content).length := by
    rw [readEvidence, Except.require_bind] at h
    exact h.1
  obtain ⟨k, r', hread, hwindow⟩ := @readEvidence_spec _ _ sha256 _ bound representation hlimit _ hoffset
  obtain rfl : r' = r := Except.ok.inj (hread.symm.trans h)
  simp only [readEvidence, Except.bind_eq_ok, Except.pure_eq_ok, Except.ok.injEq] at h
  obtain ⟨_, -, _, -, rfl⟩ := h
  exact ⟨rfl, rfl, k, hwindow⟩

/-! ### All windows -/

/-- The windows from an offset on. -/
inductive Reads (content : Text) (pages : List Page) (fullWindow : Bool) : Nat → List ReadResult → Prop
  | last {offset k : Nat} {r : ReadResult} (h : Window content pages fullWindow offset k r)
      (hend : r.nextOffset = none) : Reads content pages fullWindow offset [r]
  | next {offset k : Nat} {r : ReadResult} {results : List ReadResult}
      (h : Window content pages fullWindow offset k r) (hnext : r.nextOffset = some (offset + k))
      (hrest : Reads content pages fullWindow (offset + k) results) :
      Reads content pages fullWindow offset (r :: results)

namespace Window

variable {pages : List Page} {offset k : Nat} {r : ReadResult}

theorem lt_of_nextOffset (h : Window content pages fullWindow offset k r) {next : Nat}
    (hnext : r.nextOffset = some next) :
    next = offset + k ∧ next < (windowLines fullWindow content).length ∧ 0 < k ∧
      r.firstLineExceedsLimit = false := by
  rw [h.nextOffset] at hnext
  split at hnext
  next hcond =>
    cases hnext
    refine ⟨rfl, hcond.1, Nat.pos_of_ne_zero fun h0 ↦ ?_, hcond.2⟩
    have := h.progress h0 (by omega)
    rw [hcond.2] at this
    cases this
  next => cases hnext

/-- A window after which nothing is read: all lines have been, or the next one is too long. -/
theorem of_end (h : Window content pages fullWindow offset k r) (hend : r.nextOffset = none) :
    r.firstLineExceedsLimit = true ∨ offset + k = (windowLines fullWindow content).length := by
  rw [h.nextOffset] at hend
  by_cases hflag : r.firstLineExceedsLimit = true
  · exact .inl hflag
  · refine .inr (le_antisymm h.le (not_lt.1 fun hlt ↦ ?_))
    rw [if_pos ⟨hlt, by simpa using hflag⟩] at hend
    cases hend

end Window

/-- **Reading comes to an end**: with any fuel that is more than the lines left, and the same one. -/
theorem readOn_spec (hlimit : 1 ≤ limit) {offset : Nat}
    (hoffset : offset ≤ (windowLines fullWindow content).length) :
    ∃ results, Reads content representation.pages fullWindow offset results ∧
      ∀ fuel, (windowLines fullWindow content).length < offset + fuel →
        readOn sha256 content bound representation limit fullWindow fuel offset = .ok results := by
  -- By induction on the lines left: a window with a next offset takes at least one.
  induction hleft : (windowLines fullWindow content).length - offset using Nat.strong_induction_on
    generalizing offset with
  | _ left ih =>
    obtain ⟨k, r, hread, hwindow⟩ := @readEvidence_spec _ _ sha256 _ bound representation hlimit _ hoffset
    cases hnext : r.nextOffset with
    | none =>
      refine ⟨[r], .last hwindow hnext, fun fuel hfuel ↦ ?_⟩
      obtain ⟨fuel, rfl⟩ : ∃ f, fuel = f + 1 := ⟨fuel - 1, by omega⟩
      rw [readOn, hread, Except.ok_bind, hnext]
      rfl
    | some next =>
      obtain ⟨rfl, hlt, hk, -⟩ := hwindow.lt_of_nextOffset hnext
      obtain ⟨results, hreads, hrest⟩ := ih _ (by omega) hlt.le rfl
      refine ⟨r :: results, .next hwindow hnext hreads, fun fuel hfuel ↦ ?_⟩
      obtain ⟨fuel, rfl⟩ : ∃ f, fuel = f + 1 := ⟨fuel - 1, by omega⟩
      rw [readOn, hread, Except.ok_bind, hnext]
      simp only [hrest fuel (by omega)]
      rfl

/-- The windows follow each other, from a line on. -/
def Consecutive : Nat → List ReadResult → Prop
  | _, [] => True
  | line, r :: rest => r.startLine = line ∧ line ≤ r.endLine + 1 ∧ Consecutive (r.endLine + 1) rest

/-- The lines of a text that a window says it is of. -/
def linesOf (content : Text) (r : ReadResult) : List Text :=
  ((splitLines content).drop (r.startLine - 1)).take (r.endLine + 1 - r.startLine)

/-- The first line, counted from zero, that does not fit by itself; as many as there are, if all do. -/
def longLine (content : Text) : Nat :=
  (splitLines content).findIdx fun line ↦ decide (maxReadBytes < (encode line).length)

theorem getElem_longLine (h : longLine content < (splitLines content).length) :
    maxReadBytes < (encode (splitLines content)[longLine content]).length :=
  of_decide_eq_true (List.findIdx_getElem (w := h))

namespace Reads

variable {pages : List Page} {offset : Nat} {results : List ReadResult}

theorem consecutive (h : Reads content pages fullWindow offset results) :
    Consecutive (offset + 1) results := by
  induction h with
  | last h => exact ⟨h.startLine, by rw [h.endLine]; omega, trivial⟩
  | next h hnext hrest ih =>
    refine ⟨h.startLine, by rw [h.endLine]; omega, ?_⟩
    rwa [h.endLine]

/-- Only after the last window nothing is read. -/
theorem getLast (h : Reads content pages fullWindow offset results) :
    ∃ last ∈ results.getLast?, last.nextOffset = none := by
  induction h with
  | last h hend => exact ⟨_, rfl, hend⟩
  | next h hnext hrest ih =>
    obtain ⟨last, hlast, hend⟩ := ih
    exact ⟨last, by rw [List.getLast?_cons, hlast]; rfl, hend⟩

/-- **With full windows** everything from the offset on is read. -/
theorem flatten_content (h : Reads content pages true offset results) :
    (results.map ReadResult.content).flatten = ((splitLinesKeep content).drop offset).flatten := by
  induction h with
  | last h hend =>
    obtain hflag | hall := h.of_end hend
    · cases (h.exceeds.1 hflag).1
    · simp only [List.map_cons, List.map_nil, List.flatten_cons, List.flatten_nil, List.append_nil, h.joined,
        joinLines, windowLines, if_true]
      rw [List.take_of_length_le]
      rw [List.length_drop]
      simp only [windowLines, if_true] at hall
      omega
  | next h hnext hrest ih =>
    rw [List.map_cons, List.flatten_cons, ih, h.joined]
    simp only [joinLines, windowLines, if_true]
    rw [← List.flatten_append, ← List.drop_drop, List.take_append_drop]

end Reads

namespace Window

variable {pages : List Page} {offset k : Nat} {r : ReadResult}

theorem linesOf_eq (h : Window content pages false offset k r) :
    linesOf content r = ((splitLines content).drop offset).take k := by
  rw [linesOf, h.startLine, h.endLine, Nat.add_sub_cancel]
  congr 1
  omega

/-- The flag stands where the first line that does not fit is. -/
theorem exceeds_iff (h : Window content pages false offset k r) (hoffset : offset ≤ longLine content) :
    r.firstLineExceedsLimit = true ↔
      offset = longLine content ∧ longLine content < (splitLines content).length := by
  rw [h.exceeds]
  constructor
  · rintro ⟨-, line, hline, hlong⟩
    obtain ⟨hlt, rfl⟩ := List.getElem?_eq_some_iff.1 hline
    have hge : longLine content ≤ offset :=
      not_lt.1 fun hbefore ↦ of_decide_eq_false (List.not_of_lt_findIdx hbefore) hlong
    have heq := le_antisymm hoffset hge
    exact ⟨heq, heq ▸ hlt⟩
  · rintro ⟨rfl, hlt⟩
    exact ⟨rfl, _, List.getElem?_eq_getElem hlt, getElem_longLine hlt⟩

/-- A window has no line that does not fit. -/
theorem le_longLine (h : Window content pages false offset k r) (hoffset : offset ≤ longLine content) :
    offset + k ≤ longLine content := by
  refine not_lt.1 fun hover ↦ ?_
  have hlt : longLine content < (splitLines content).length := lt_of_lt_of_le hover h.le
  have hlong := getElem_longLine hlt
  have hmem : (splitLines content)[longLine content] ∈ ((splitLines content).drop offset).take k := by
    refine List.mem_iff_getElem?.2 ⟨longLine content - offset, ?_⟩
    rw [List.getElem?_take_of_lt (by omega), List.getElem?_drop, Nat.add_sub_cancel' hoffset,
      List.getElem?_eq_getElem hlt]
  have hjoined := length_le_of_mem hmem
  rw [show joinLines false (((splitLines content).drop offset).take k) = r.content from h.joined.symm] at hjoined
  have := h.bytes rfl
  omega

end Window

namespace Reads

variable {pages : List Page} {offset : Nat} {results : List ReadResult}

/-- **Without full windows** the lines are read up to the first that does not fit. -/
theorem flatten_linesOf (h : Reads content pages false offset results) (hoffset : offset ≤ longLine content) :
    (results.map (linesOf content)).flatten =
      ((splitLines content).take (longLine content)).drop offset := by
  induction h with
  | last h hend =>
    have hlong : longLine content ≤ (splitLines content).length := List.findIdx_le_length
    rw [List.map_cons, List.map_nil, List.flatten_cons, List.flatten_nil, List.append_nil, h.linesOf_eq,
      List.drop_take]
    congr 1
    have hle := h.le_longLine hoffset
    obtain hflag | hall := h.of_end hend
    · have := h.stopped hflag
      have := ((h.exceeds_iff hoffset).1 hflag).1
      omega
    · have : (windowLines false content).length = (splitLines content).length := rfl
      omega
  | next h hnext hrest ih =>
    rename_i offset k r results
    have hle := h.le_longLine hoffset
    rw [List.map_cons, List.flatten_cons, ih hle, h.linesOf_eq, ← List.drop_drop, List.drop_take,
      List.drop_take]
    conv_rhs => rw [← Nat.add_sub_cancel' (show k ≤ longLine content - offset by omega), List.take_add]

theorem content_of_mem (h : Reads content pages false offset results) {r : ReadResult} (hr : r ∈ results) :
    (encode r.content).length ≤ maxReadBytes ∧ r.content = ['\n'].intercalate (linesOf content r) := by
  induction h with
  | last h hend =>
    obtain rfl := List.mem_singleton.1 hr
    exact ⟨h.bytes rfl, by rw [h.linesOf_eq]; exact h.joined⟩
  | next h hnext hrest ih =>
    obtain rfl | hr := List.mem_cons.1 hr
    · exact ⟨h.bytes rfl, by rw [h.linesOf_eq]; exact h.joined⟩
    · exact ih hr

/-- Only the last window can stand at a line that does not fit, and it does if there is one. -/
theorem exceeds_of_mem (h : Reads content pages false offset results) (hoffset : offset ≤ longLine content)
    {r : ReadResult} (hr : r ∈ results) (hflag : r.firstLineExceedsLimit = true) :
    r.startLine = longLine content + 1 ∧ r ∈ results.getLast? := by
  induction h with
  | last h hend =>
    obtain rfl := List.mem_singleton.1 hr
    rw [h.startLine, ((h.exceeds_iff hoffset).1 hflag).1]
    exact ⟨rfl, rfl⟩
  | next h hnext hrest ih =>
    obtain rfl | hr := List.mem_cons.1 hr
    · rw [(h.lt_of_nextOffset hnext).2.2.2] at hflag
      cases hflag
    · obtain ⟨hline, hlast⟩ := ih (h.le_longLine hoffset) hr
      exact ⟨hline, by rw [List.getLast?_cons, hlast]; rfl⟩

theorem exceeds_getLast (h : Reads content pages false offset results) (hoffset : offset ≤ longLine content) :
    ∃ last ∈ results.getLast?, last.firstLineExceedsLimit = true ↔
      longLine content < (splitLines content).length := by
  induction h with
  | last h hend =>
    refine ⟨_, rfl, fun hflag ↦ ((h.exceeds_iff hoffset).1 hflag).2, fun hlong ↦ ?_⟩
    obtain hflag | hall := h.of_end hend
    · exact hflag
    · have := h.le_longLine hoffset
      have : (windowLines false content).length = (splitLines content).length := rfl
      omega
  | next h hnext hrest ih =>
    obtain ⟨last, hlast, hiff⟩ := ih (h.le_longLine hoffset)
    exact ⟨last, by rw [List.getLast?_cons, hlast]; rfl, hiff⟩

end Reads

/-- A note of a session. -/
def sampleBound : BoundInput where
  virtualPath := "/inputs/notes.md"
  inputRef := "input-1"
  displayName := "notes.md"
  objectRef := "object-1"
  ownerKind := "sessionUpload"
  evidenceKind := "document"
  sha256 := "d"
  generation := 1
  citationAllowed := true
  updatedAt := "2026-01-01T00:00:00+00:00"

/-- Its representation, with no pages. -/
def sampleRepresentation : Representation := ⟨"representation-1", "specification-1", "d", []⟩

/-- **Reading to the end.** The calls come to an end and the windows are consecutive. Full windows give the
text; the others give its lines up to the first that does not fit, where the last one says so. -/
theorem readOn_to_end (sha256 : List UInt8 → String) (content : Text) (bound : BoundInput)
    (representation : Representation) {limit : Nat} (hlimit : 1 ≤ limit) (fullWindow : Bool) :
    ∃ results, (∀ fuel, (windowLines fullWindow content).length < fuel →
        readOn sha256 content bound representation limit fullWindow fuel 0 = .ok results) ∧
      (∃ last ∈ results.getLast?, last.nextOffset = none) ∧
      Consecutive 1 results ∧
      (fullWindow = true → (results.map ReadResult.content).flatten = content) ∧
      (fullWindow = false →
        (∀ r ∈ results, (encode r.content).length ≤ maxReadBytes ∧
          r.content = ['\n'].intercalate (linesOf content r)) ∧
        (results.map (linesOf content)).flatten = (splitLines content).take (longLine content) ∧
        (∀ r ∈ results, r.firstLineExceedsLimit = true →
          r.startLine = longLine content + 1 ∧ r ∈ results.getLast?) ∧
        ∃ last ∈ results.getLast?, last.firstLineExceedsLimit = true ↔
          longLine content < (splitLines content).length) := by
  obtain ⟨results, hreads, hfuel⟩ := @readOn_spec fullWindow _ sha256 content bound representation
    hlimit 0 (Nat.zero_le _)
  refine ⟨results, fun fuel h ↦ hfuel fuel (by omega), hreads.getLast, hreads.consecutive, ?_, ?_⟩
  · rintro rfl
    rw [hreads.flatten_content, List.drop_zero, Lines.flatten_splitLinesKeep]
  · rintro rfl
    refine ⟨fun r hr ↦ hreads.content_of_mem hr, ?_, ?_, hreads.exceeds_getLast (Nat.zero_le _)⟩
    · rw [hreads.flatten_linesOf (Nat.zero_le _), List.drop_zero]
    · exact fun r hr hflag ↦ hreads.exceeds_of_mem (Nat.zero_le _) hr hflag

/-- Two lines, read one at a time. -/
theorem readOn_to_end_notes : 1 ≤ 1 ∧ ∃ results,
    (∀ fuel, (windowLines true "a\nb".toList).length < fuel →
      readOn (fun _ ↦ "") "a\nb".toList sampleBound sampleRepresentation 1 true fuel 0 = .ok results) ∧
    (results.map ReadResult.content).flatten = "a\nb".toList := by
  obtain ⟨results, hread, -, -, htext, -⟩ := readOn_to_end (fun _ ↦ "") "a\nb".toList sampleBound
    sampleRepresentation (le_refl 1) true
  exact ⟨le_rfl, results, hread, htext rfl⟩

end Centaeris.Material.Evidence
