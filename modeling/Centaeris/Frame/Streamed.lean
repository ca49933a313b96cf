import Centaeris.Frame.Restore

/-!
# A snapshot frame read by any program

`_WorkspaceSnapshotReader` is handed to the storage, which asks it for bytes in sizes of its own choice,
and the request below it may give fewer than it is asked for. Neither has a say in the verdict: what is
read is what was sent, and it is accepted exactly when it is one frame, of the size and digest that were
announced (`readUpload_eq_ok`).
-/

namespace Centaeris.Frame

open Contract (Unicode)

/-- A call of `read(size)`, and how many bytes the source has ready for it. -/
structure ReadCall where
  size : Int
  ready : Nat

section Read

variable (u : Unicode) (h : Hash) (candidate : Candidate)

/-- `read(size)`. A size below zero asks for all that remains. A source that has bytes left gives at least
one of those it is asked for. -/
def Reader.readSized (r : Reader) (call : ReadCall) : Except SessionWorkspaceError (List UInt8 × Reader) :=
  if r.remaining = 0 then .ok ([], r)
  else
    let requested := if call.size < 0 then r.remaining else min call.size.toNat r.remaining
    let chunk := r.source.take (min (max 1 call.ready) requested)
    if chunk = [] then .error snapshotInvalid
    else do
      let r ← consume u h candidate chunk.length { r with
        source := r.source.drop chunk.length
        remaining := r.remaining - chunk.length
        digest := r.digest ++ chunk } chunk
      return (chunk, r)

/-- The reads from the `i`-th one on, until one of them gives nothing, and the bytes that they gave. -/
def readStream (calls : Nat → ReadCall) : Nat → Nat → Reader →
    Except SessionWorkspaceError (List UInt8 × Reader)
  | 0, _, r => .ok ([], r)
  | fuel + 1, i, r => do
    let (chunk, r) ← r.readSized u h candidate (calls i)
    if chunk = [] then return ([], r)
    else
      let (passed, r) ← readStream calls fuel (i + 1) r
      return (chunk ++ passed, r)

/-- An upload that is read to its end and checked: the bytes that were passed on. -/
def readUpload (calls : Nat → ReadCall) (fuel : Nat) (source : List UInt8) :
    Except SessionWorkspaceError (List UInt8) := do
  let (passed, r) ← readStream u h candidate calls fuel 0 (.new source candidate)
  requireComplete h candidate r
  return passed

/-- One well-formed frame: the length of a manifest, the manifest, the contents of its files in their
order, and nothing more. -/
structure IsFrame (b : List UInt8) : Prop where
  split : ∃ manifest files contents, b = toBeBytes manifest.length ++ (manifest ++ contents.flatten) ∧
    (0 < manifest.length ∧ manifest.length ≤ manifestLimit) ∧
    workspaceSnapshotManifest u candidate manifest = .ok files ∧
    List.Forall₂ (fun f c ↦ c.length = f.sizeBytes ∧ h.sha256 c = f.sha256) files contents

end Read

variable {u : Unicode} {h : Hash} {candidate : Candidate} {r : Reader}

/-- **The reads of an upload**, from any reader on: they give all of the source and leave a complete
reader, exactly if the source completes the reader. -/
theorem readStream_spec (calls : Nat → ReadCall) (hsizes : ∀ i, (calls i).size ≠ 0) {fuel : Nat} (i : Nat)
    (hr : r.Sound) (hfuel : r.remaining < fuel) {passed : List UInt8} :
    (∃ r', readStream u h candidate calls fuel i r = .ok (passed, r') ∧
        requireComplete h candidate r' = .ok ()) ↔
      Completes u h candidate r ∧ passed = r.source := by
  induction fuel generalizing i r passed with
  | zero => exact absurd hfuel (Nat.not_lt_zero _)
  | succ fuel ih =>
    rw [readStream, Reader.readSized]
    by_cases hzero : r.remaining = 0
    · -- the last read
      have hcomplete := requireComplete_eq_ok u h candidate hr hzero (x := ())
      rw [if_pos hzero, Except.ok_bind]
      simp only [if_true, Except.pure_eq_ok, Except.ok.injEq, Prod.mk.injEq]
      constructor
      · rintro ⟨r', ⟨rfl, rfl⟩, hr'⟩
        have hcompletes := hcomplete.1 hr'
        exact ⟨hcompletes, (List.length_eq_zero_iff.1 (hcompletes.1.trans hzero)).symm⟩
      · rintro ⟨hcompletes, rfl⟩
        refine ⟨r, ⟨?_, rfl⟩, hcomplete.2 hcompletes⟩
        exact (List.length_eq_zero_iff.1 (hcompletes.1.trans hzero)).symm
    rw [if_neg hzero]
    have hsize := hsizes i
    have hk : ∃ k, min (max 1 (calls i).ready)
        (if (calls i).size < 0 then r.remaining else min (calls i).size.toNat r.remaining) = k ∧ k ≠ 0 ∧
          k ≤ r.remaining := by
      refine ⟨_, rfl, ?_, ?_⟩ <;> split <;> omega
    obtain ⟨k, hk, hne, hle⟩ := hk
    simp only [hk]
    by_cases hchunk : r.source.take k = []
    · simp only [if_pos hchunk, Except.error_bind, reduceCtorEq, false_and, exists_false, false_iff]
      exact fun hcompletes ↦ not_completes_of_take hzero hne hchunk hcompletes.1
    have hpos := List.length_pos_iff.2 hchunk
    have hspec := consume_take_spec u h candidate (k := k) hr hle
    simp only [if_neg hchunk]
    cases hconsume : consume u h candidate (r.source.take k).length
        { r with
          source := r.source.drop (r.source.take k).length
          remaining := r.remaining - (r.source.take k).length
          digest := r.digest ++ r.source.take k } (r.source.take k) with
    | error e =>
      rw [hconsume] at hspec
      simp only [Except.error_bind, reduceCtorEq, false_and, exists_false, false_iff]
      exact fun hcompletes ↦ hspec hcompletes.1
    | ok r₁ =>
      rw [hconsume] at hspec
      obtain ⟨hsound, hsource, hremaining, hiff⟩ := hspec
      have hrest {rest : List UInt8} := @ih _ (i + 1) hsound (by omega) rest
      have hall : r.source = r.source.take k ++ r₁.source := by
        rw [hsource, List.take_append_drop]
      simp only [Except.ok_bind, Except.pure_eq_ok, if_neg hchunk]
      rw [hiff]
      constructor
      · rintro ⟨r', hstream, hcomplete⟩
        obtain ⟨⟨rest, r₂⟩, hmore, heq⟩ := Except.bind_eq_ok.1 hstream
        obtain ⟨rfl, rfl⟩ := Prod.mk.inj (Except.ok.inj heq)
        obtain ⟨hcompletes, rfl⟩ := hrest.1 ⟨r₂, hmore, hcomplete⟩
        exact ⟨hcompletes, hall.symm⟩
      · rintro ⟨hcompletes, rfl⟩
        obtain ⟨r', hstream, hcomplete⟩ := hrest.2 ⟨hcompletes, rfl⟩
        refine ⟨r', ?_, hcomplete⟩
        rw [hstream]
        exact congrArg (fun bytes ↦ Except.ok (bytes, r')) hall.symm

/-- A frame is cut by its manifest. -/
theorem isFrame_iff {b : List UInt8} (hsize : b.length = candidate.snapshotSizeBytes) :
    Framed u h candidate b ↔ IsFrame u h candidate b := by
  constructor
  · rintro ⟨hfour, hlimit, -, hbody, files, hfiles, hcontents⟩
    obtain ⟨contents, hflat, hall⟩ := exists_contents hcontents
    have hlength : ((b.drop 4).take (fromBeBytes (b.take 4))).length = fromBeBytes (b.take 4) := by
      rw [List.length_take]
      omega
    refine ⟨_, files, contents, ?_, ?_, hfiles, hall⟩
    · rw [hlength, toBeBytes_fromBeBytes (by rw [List.length_take]; omega), ← hflat, List.take_append_drop,
        List.take_append_drop]
    · rw [hlength]
      exact hlimit
  · rintro ⟨manifest, files, contents, rfl, ⟨hpos, hlimit⟩, hfiles, hall⟩
    refine framed_append u h hpos hlimit ?_ hfiles (contents_flatten hall)
    rw [← hsize, List.length_append, List.length_append, length_toBeBytes]
    omega

/-- **The verdict does not depend on the reads.** An upload that is read to its end, in whatever sizes and
whatever the source has ready, and then checked, passes on exactly the bytes that were sent, and this
exactly when they are one well-formed frame of the size and digest that were announced. All other uploads
are refused. -/
theorem readUpload_eq_ok (u : Unicode) (h : Hash) (candidate : Candidate) (source passed : List UInt8)
    (calls : Nat → ReadCall) (hsizes : ∀ i, (calls i).size ≠ 0) (fuel : Nat)
    (hfuel : candidate.snapshotSizeBytes < fuel) :
    readUpload u h candidate calls fuel source = .ok passed ↔
      passed = source ∧ IsFrame u h candidate source ∧ source.length = candidate.snapshotSizeBytes ∧
        h.sha256 source = candidate.snapshotSha256 := by
  have hspec := @readStream_spec u h candidate (.new source candidate) calls hsizes fuel 0
    (.header rfl (by simp [Reader.new]) rfl rfl) hfuel passed
  have hcompletes : Completes u h candidate (.new source candidate) ↔
      source.length = candidate.snapshotSizeBytes ∧ Framed u h candidate source ∧
        h.sha256 source = candidate.snapshotSha256 := Iff.rfl
  have hok : readUpload u h candidate calls fuel source = .ok passed ↔
      ∃ r', readStream u h candidate calls fuel 0 (.new source candidate) = .ok (passed, r') ∧
        requireComplete h candidate r' = .ok () := by
    simp only [readUpload, Except.bind_eq_ok, Except.pure_eq_ok, Except.ok.injEq]
    constructor
    · rintro ⟨⟨passed, r'⟩, hstream, ⟨⟩, hcomplete, rfl⟩
      exact ⟨r', hstream, hcomplete⟩
    · rintro ⟨r', hstream, hcomplete⟩
      exact ⟨(passed, r'), hstream, (), hcomplete, rfl⟩
  rw [hok, hspec, hcompletes]
  constructor
  · rintro ⟨⟨hsize, hframed, hsha⟩, rfl⟩
    exact ⟨rfl, (isFrame_iff hsize).1 hframed, hsize, hsha⟩
  · rintro ⟨rfl, hframe, hsize, hsha⟩
    exact ⟨⟨hsize, (isFrame_iff hsize).2 hframe, hsha⟩, rfl⟩

theorem readUpload_eq_ok_notes :
    readUpload asciiUnicode formatHash
      (describe formatHash (emptyFiles ["notes"]) (emptyFrame (emptyFiles ["notes"]))).candidate
      (fun i ↦ ⟨if i = 0 then 3 else -1, 2⟩) ((emptyFrame (emptyFiles ["notes"])).length + 1)
      (emptyFrame (emptyFiles ["notes"])) = .ok (emptyFrame (emptyFiles ["notes"])) := by
  have hlimit : (emptyFiles ["notes"]).toVec.length ≤ manifestLimit := by
    rw [Manifest.toVec_eq_flatMap]; decide +kernel
  have hw := written_emptyFiles ["notes"] (by decide) (by decide +kernel) (by decide +kernel) hlimit
  generalize emptyFrame (emptyFiles ["notes"]) = frame at hw ⊢
  refine (readUpload_eq_ok asciiUnicode formatHash _ _ _ _ (fun i ↦ ?_) _ (Nat.lt_succ_self _)).2
    ⟨rfl, (isFrame_iff rfl).1 (hw.framed_iff.2 fun f hf ↦ ?_), rfl, rfl⟩
  · show (if i = 0 then (3 : Int) else -1) ≠ 0
    split <;> decide
  · obtain ⟨path, hpath, rfl⟩ := List.mem_map.1 hf
    have hall : ∀ path ∈ ["notes"], Portable asciiUnicode path := by decide +kernel
    exact hall path hpath

end Centaeris.Frame
