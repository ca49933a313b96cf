import Centaeris.Frame.Manifest

/-!
# Reading a snapshot frame

A snapshot frame is the length of its manifest in four bytes, the manifest, and the contents of its
files one after the other. The API reads a frame as it arrives, in chunks of any size
(`_WorkspaceSnapshotReader`), and keeps what is open between two chunks in the reader.

What a reader still has to see is `Awaits r s`: the bytes `s` complete what it has read. One iteration
of the loop over a chunk succeeds exactly when its chunk is a beginning of such bytes, and then leaves a
reader that awaits the rest (`consumeOnce_spec`). So the cut into chunks does not matter
(`readSnapshot_eq_ok`), and a frame is accepted when it is `Framed`.
-/

namespace Centaeris.Frame

open Contract (Unicode IsSha256)

/-- `sha256:` and the hexadecimal digits of the hash of some bytes. -/
structure Hash where
  sha256 : List UInt8 → String
  isSha256 : ∀ b, IsSha256 (sha256 b)

/-- `u32::to_be_bytes`. -/
def toBeBytes (n : Nat) : List UInt8 :=
  [UInt8.ofNat (n / 2 ^ 24), UInt8.ofNat (n / 2 ^ 16), UInt8.ofNat (n / 2 ^ 8), UInt8.ofNat n]

theorem length_toBeBytes (n : Nat) : (toBeBytes n).length = 4 := rfl

/-- `u32::from_be_bytes`, `int.from_bytes(_, "big")`. -/
def fromBeBytes (b : List UInt8) : Nat := b.foldl (fun n x ↦ n * 256 + x.toNat) 0

theorem fromBeBytes_toBeBytes {n : Nat} (h : n < 2 ^ 32) : fromBeBytes (toBeBytes n) = n := by
  simp only [fromBeBytes, toBeBytes, List.foldl_cons, List.foldl_nil, UInt8.toNat_ofNat']
  omega

theorem toBeBytes_fromBeBytes {b : List UInt8} (hb : b.length = 4) : toBeBytes (fromBeBytes b) = b := by
  match b, hb with
  | [x, y, z, t], _ =>
    have := x.toNat_lt
    have := y.toNat_lt
    have := z.toNat_lt
    have := t.toNat_lt
    simp only [fromBeBytes, toBeBytes, List.foldl_cons, List.foldl_nil, List.cons.injEq, and_true,
      ← UInt8.toNat_inj, UInt8.toNat_ofNat']
    omega

/-- The bytes are the contents of the files, one after the other. -/
def Contents (h : Hash) : List File → List UInt8 → Prop
  | [], s => s = []
  | f :: files, s => f.sizeBytes ≤ s.length ∧ h.sha256 (s.take f.sizeBytes) = f.sha256 ∧
    Contents h files (s.drop f.sizeBytes)

/-! ### The reader of the API -/

/-- `_WorkspaceSnapshotReader`. The files are those from `fileIndex` on, and a digest is the bytes it has
been given. -/
structure Reader where
  source : List UInt8
  remaining : Nat
  digest : List UInt8
  header : List UInt8
  manifest : List UInt8
  manifestLength : Nat
  files : Option (List File)
  fileRemaining : Nat
  fileDigest : Option (List UInt8)

/-- `__init__`. -/
def Reader.new (source : List UInt8) (candidate : Candidate) : Reader where
  source := source
  remaining := candidate.snapshotSizeBytes
  digest := []
  header := []
  manifest := []
  manifestLength := 0
  files := none
  fileRemaining := 0
  fileDigest := none

section Consume

variable (u : Unicode) (h : Hash) (candidate : Candidate)

/-- The loop of `_advance_empty_files` over the files that are left. -/
def advanceFiles : List File → Nat → Option (List UInt8) →
    Except SessionWorkspaceError (List File × Nat × Option (List UInt8))
  | [], fileRemaining, fileDigest => .ok ([], fileRemaining, fileDigest)
  | f :: files, fileRemaining, fileDigest =>
    let (fileRemaining, digest) := match fileDigest with
      | none => (f.sizeBytes, [])
      | some digest => (fileRemaining, digest)
    if fileRemaining ≠ 0 then .ok (f :: files, fileRemaining, some digest)
    else if h.sha256 digest ≠ f.sha256 then .error snapshotInvalid
    else advanceFiles files fileRemaining none

/-- `_advance_empty_files`. -/
def advanceEmptyFiles (r : Reader) : Except SessionWorkspaceError Reader :=
  match r.files with
  | none => .ok r
  | some files => do
    let (files, fileRemaining, fileDigest) ← advanceFiles h files r.fileRemaining r.fileDigest
    return { r with files := some files, fileRemaining, fileDigest }

/-- The part of an iteration of `_consume` that reads into the manifest. -/
def consumeManifest (r : Reader) (chunk : List UInt8) :
    Except SessionWorkspaceError (Reader × List UInt8) := do
  let count := min (r.manifestLength - r.manifest.length) chunk.length
  let r := { r with manifest := r.manifest ++ chunk.take count }
  if r.manifest.length ≠ r.manifestLength then return (r, chunk.drop count)
  else
    let files ← workspaceSnapshotManifest u candidate r.manifest
    let r ← advanceEmptyFiles h { r with files := some files }
    return (r, chunk.drop count)

/-- The part of an iteration of `_consume` that reads into a file. -/
def consumeFile (r : Reader) (chunk : List UInt8) :
    Except SessionWorkspaceError (Reader × List UInt8) := do
  let r ← advanceEmptyFiles h r
  match r.files, r.fileDigest with
  | some (_ :: _), some digest =>
    let count := min r.fileRemaining chunk.length
    let r ← advanceEmptyFiles h { r with
      fileDigest := some (digest ++ chunk.take count)
      fileRemaining := r.fileRemaining - count }
    return (r, chunk.drop count)
  | _, _ => .error snapshotInvalid

/-- One iteration of the loop of `_consume`, with what it leaves of the chunk. -/
def consumeOnce (r : Reader) (chunk : List UInt8) :
    Except SessionWorkspaceError (Reader × List UInt8) :=
  if r.header.length < 4 then
    let count := min (4 - r.header.length) chunk.length
    let r := { r with header := r.header ++ chunk.take count }
    if r.header.length ≠ 4 then .ok (r, chunk.drop count)
    else do
      let manifestLength := fromBeBytes r.header
      Except.require (0 < manifestLength ∧ manifestLength ≤ manifestLimit) snapshotInvalid
      Except.require (4 + manifestLength ≤ candidate.snapshotSizeBytes) snapshotInvalid
      consumeManifest u h candidate { r with manifestLength } (chunk.drop count)
  else if r.manifest.length < r.manifestLength then consumeManifest u h candidate r chunk
  else consumeFile h r chunk

/-- `_consume`; every iteration takes at least one byte. -/
def consume : Nat → Reader → List UInt8 → Except SessionWorkspaceError Reader
  | 0, r, _ => .ok r
  | fuel + 1, r, chunk =>
    if chunk = [] then .ok r
    else do
      let (r, chunk) ← consumeOnce u h candidate r chunk
      consume fuel r chunk

/-- `read(64 * 1024)`, when the source gives `count` bytes of those it is asked for. A source that has
bytes left gives at least one. -/
def Reader.read (r : Reader) (count : Nat) : Except SessionWorkspaceError (List UInt8 × Reader) :=
  if r.remaining = 0 then .ok ([], r)
  else
    let chunk := r.source.take (min (max 1 count) (min (64 * 1024) r.remaining))
    if chunk = [] then .error snapshotInvalid
    else do
      let r ← consume u h candidate chunk.length { r with
        source := r.source.drop chunk.length
        remaining := r.remaining - chunk.length
        digest := r.digest ++ chunk } chunk
      return (chunk, r)

/-- `require_complete`. -/
def requireComplete (r : Reader) : Except SessionWorkspaceError Unit :=
  Except.require (r.remaining = 0 ∧ r.files = some [] ∧
    h.sha256 r.digest = candidate.snapshotSha256 ∧ r.source = []) snapshotInvalid

/-- `while reader.read(64 * 1024)`, where `counts` says how many bytes the source gives when so many
remain. -/
def readAll (counts : Nat → Nat) : Nat → Reader → Except SessionWorkspaceError Reader
  | 0, r => .ok r
  | fuel + 1, r => do
    let (chunk, r) ← r.read u h candidate (counts r.remaining)
    if chunk = [] then return r else readAll counts fuel r

/-- An upload: the source is read to its end, and the reader is asked whether it is complete. Every read
but the last takes a byte, so the loop ends within one read more than there are bytes. -/
def readSnapshot (counts : Nat → Nat) (source : List UInt8) : Except SessionWorkspaceError Unit := do
  let r ← readAll u h candidate counts (candidate.snapshotSizeBytes + 1) (.new source candidate)
  requireComplete h candidate r

end Consume

section Awaits

variable (u : Unicode) (h : Hash) (candidate : Candidate)

/-- A manifest of `n` bytes that the API accepts, and the contents of its files. -/
def Body (n : Nat) (b : List UInt8) : Prop :=
  n ≤ b.length ∧ ∃ files, workspaceSnapshotManifest u candidate (b.take n) = .ok files ∧
    Contents h files (b.drop n)

/-- A whole frame. -/
def Framed (b : List UInt8) : Prop :=
  4 ≤ b.length ∧
    (0 < fromBeBytes (b.take 4) ∧ fromBeBytes (b.take 4) ≤ manifestLimit) ∧
    4 + fromBeBytes (b.take 4) ≤ candidate.snapshotSizeBytes ∧
    Body u h candidate (fromBeBytes (b.take 4)) (b.drop 4)

/-- A frame that is put together from an accepted manifest and the contents of its files. -/
theorem framed_append {candidate : Candidate} {files : List File} {b s : List UInt8} (hpos : 0 < b.length)
    (hlimit : b.length ≤ manifestLimit) (hsize : 4 + b.length ≤ candidate.snapshotSizeBytes)
    (hread : workspaceSnapshotManifest u candidate b = .ok files) (hs : Contents h files s) :
    Framed u h candidate (toBeBytes b.length ++ (b ++ s)) := by
  have hheader : fromBeBytes (toBeBytes b.length) = b.length :=
    fromBeBytes_toBeBytes (Nat.lt_of_le_of_lt hlimit (by decide))
  rw [Framed, List.take_left' (length_toBeBytes _), List.drop_left' (length_toBeBytes _), hheader, Body,
    List.take_left, List.drop_left, List.length_append, List.length_append, length_toBeBytes]
  exact ⟨Nat.le_add_right _ _, ⟨hpos, hlimit⟩, hsize, Nat.le_add_right _ _, files, hread, hs⟩

/-- The bytes complete what the reader has read. -/
def Awaits (r : Reader) (s : List UInt8) : Prop :=
  if r.header.length < 4 then Framed u h candidate (r.header ++ s)
  else
    match r.files with
    | none => Body u h candidate r.manifestLength (r.manifest ++ s)
    | some files => Contents h files (r.fileDigest.getD [] ++ s)

end Awaits

/-- Where `_advance_empty_files` stops: no file is left, or one of which bytes are missing. -/
def Settled : List File → Nat → Option (List UInt8) → Prop
  | [], _, none => True
  | f :: _, fileRemaining, some digest =>
    digest.length < f.sizeBytes ∧ fileRemaining = f.sizeBytes - digest.length
  | _, _, _ => False

/-- Where `_advance_empty_files` starts: at a new file, or at one of which bytes have been read. -/
def Opened (files : List File) (fileRemaining : Nat) : Option (List UInt8) → Prop
  | none => True
  | some digest => ∃ f rest, files = f :: rest ∧ digest.length ≤ f.sizeBytes ∧
    fileRemaining = f.sizeBytes - digest.length

/-- What holds of a reader between two iterations. -/
inductive Reader.Sound (r : Reader) : Prop
  | header (hfiles : r.files = none) (hheader : r.header.length < 4) (hmanifest : r.manifest = [])
    (hdigest : r.fileDigest = none)
  | manifest (hfiles : r.files = none) (hheader : r.header.length = 4)
    (hmanifest : r.manifest.length < r.manifestLength) (hdigest : r.fileDigest = none)
  | files (files : List File) (hfiles : r.files = some files) (hheader : r.header.length = 4)
    (hmanifest : r.manifest.length = r.manifestLength)
    (hsettled : Settled files r.fileRemaining r.fileDigest)

variable {u : Unicode} {h : Hash} {candidate : Candidate} {r r' : Reader} {chunk s : List UInt8}

theorem contents_append {f : File} {files : List File} {d : List UInt8} (hd : d.length = f.sizeBytes) :
    Contents h (f :: files) (d ++ s) ↔ h.sha256 d = f.sha256 ∧ Contents h files s := by
  rw [Contents, List.take_left' hd, List.drop_left' hd, List.length_append, hd]
  exact and_iff_right (Nat.le_add_right _ _)

/-- The contents of the files, one by one. -/
theorem exists_contents {files : List File} {s : List UInt8} (hs : Contents h files s) :
    ∃ contents : List (List UInt8), s = contents.flatten ∧
      List.Forall₂ (fun f c ↦ c.length = f.sizeBytes ∧ h.sha256 c = f.sha256) files contents := by
  induction files generalizing s with
  | nil => exact ⟨[], hs, .nil⟩
  | cons f files ih =>
    obtain ⟨hle, hsha, hrest⟩ := hs
    obtain ⟨contents, hflat, hall⟩ := ih hrest
    refine ⟨s.take f.sizeBytes :: contents, ?_, .cons ⟨?_, hsha⟩ hall⟩
    · rw [List.flatten_cons, ← hflat, List.take_append_drop]
    · rw [List.length_take]; omega

theorem contents_flatten {files : List File} {contents : List (List UInt8)}
    (hall : List.Forall₂ (fun f c ↦ c.length = f.sizeBytes ∧ h.sha256 c = f.sha256) files contents) :
    Contents h files contents.flatten := by
  induction hall with
  | nil => rfl
  | cons hfc _ ih => exact (contents_append hfc.1).2 ⟨hfc.2, ih⟩

theorem length_flatten_contents {files : List File} {contents : List (List UInt8)}
    (hall : List.Forall₂ (fun f c ↦ c.length = f.sizeBytes ∧ h.sha256 c = f.sha256) files contents) :
    contents.flatten.length = expandedSize files := by
  induction hall with
  | nil => rfl
  | @cons f c files contents hfc _ ih =>
    rw [List.flatten_cons, List.length_append, hfc.1, ih]
    rfl

/-- The loop ends at the first file of which bytes are missing, unless a digest is wrong. -/
theorem advanceFiles_spec (h : Hash) (s : List UInt8) {files : List File} {fileRemaining : Nat}
    {fileDigest : Option (List UInt8)} (hopened : Opened files fileRemaining fileDigest) :
    match advanceFiles h files fileRemaining fileDigest with
    | .error _ => ¬ Contents h files (fileDigest.getD [] ++ s)
    | .ok (files', fileRemaining', fileDigest') => Settled files' fileRemaining' fileDigest' ∧
      (Contents h files (fileDigest.getD [] ++ s) ↔ Contents h files' (fileDigest'.getD [] ++ s)) := by
  induction files generalizing fileRemaining fileDigest with
  | nil =>
    cases fileDigest with
    | some d =>
      obtain ⟨_, _, h, -⟩ := hopened
      exact absurd h (by simp)
    | none => exact ⟨trivial, Iff.rfl⟩
  | cons f files ih =>
    -- a new file counts as one of which no byte has been read
    obtain ⟨d, hd, hle, hadvance⟩ : ∃ d, fileDigest.getD [] = d ∧ d.length ≤ f.sizeBytes ∧
        advanceFiles h (f :: files) fileRemaining fileDigest =
          if f.sizeBytes - d.length ≠ 0 then .ok (f :: files, f.sizeBytes - d.length, some d)
          else if h.sha256 d ≠ f.sha256 then .error snapshotInvalid
          else advanceFiles h files (f.sizeBytes - d.length) none := by
      cases fileDigest with
      | none => exact ⟨[], rfl, Nat.zero_le _, rfl⟩
      | some d =>
        obtain ⟨_, _, ⟨⟩, hle, rfl⟩ := hopened
        exact ⟨d, rfl, hle, rfl⟩
    rw [hd, hadvance]
    by_cases hrest : f.sizeBytes - d.length = 0
    · rw [if_neg (not_not.2 hrest), contents_append (by omega)]
      by_cases hsha : h.sha256 d = f.sha256
      · rw [if_neg (not_not.2 hsha), and_iff_right hsha]
        have hnew : Opened files (f.sizeBytes - d.length) none := trivial
        exact ih hnew
      · rw [if_pos hsha]
        exact fun hcontents ↦ hsha hcontents.1
    · rw [if_pos hrest]
      exact ⟨⟨by omega, rfl⟩, Iff.rfl⟩

/-- The reader has the source and the digest of another one. -/
structure SameSource (r r' : Reader) : Prop where
  source : r'.source = r.source
  remaining : r'.remaining = r.remaining
  digest : r'.digest = r.digest

/-- `_advance_empty_files` on a reader that has its manifest. -/
theorem advanceEmptyFiles_spec (u : Unicode) (h : Hash) (candidate : Candidate) (s : List UInt8)
    {files : List File} (hfiles : r.files = some files) (hheader : r.header.length = 4)
    (hmanifest : r.manifest.length = r.manifestLength)
    (hopened : Opened files r.fileRemaining r.fileDigest) :
    match advanceEmptyFiles h r with
    | .error _ => ¬ Contents h files (r.fileDigest.getD [] ++ s)
    | .ok r' => r'.Sound ∧ SameSource r r' ∧
      (Contents h files (r.fileDigest.getD [] ++ s) ↔ Awaits u h candidate r' s) := by
  have hspec := advanceFiles_spec h s hopened
  simp only [advanceEmptyFiles, hfiles]
  cases hloop : advanceFiles h files r.fileRemaining r.fileDigest with
  | error e =>
    rw [hloop] at hspec
    exact hspec
  | ok result =>
    obtain ⟨files', fileRemaining', fileDigest'⟩ := result
    rw [hloop] at hspec
    refine ⟨.files files' rfl hheader hmanifest hspec.1, ⟨rfl, rfl, rfl⟩, hspec.2.trans ?_⟩
    rw [Awaits, if_neg (by simp [hheader])]

/-- A reader that is settled has nothing to advance over. -/
theorem advanceEmptyFiles_of_settled {files : List File} (hfiles : r.files = some files)
    (hsettled : Settled files r.fileRemaining r.fileDigest) : advanceEmptyFiles h r = .ok r := by
  have hloop : advanceFiles h files r.fileRemaining r.fileDigest =
      .ok (files, r.fileRemaining, r.fileDigest) := by
    match files, hdigest : r.fileDigest, hsettled with
    | [], none, _ => rfl
    | f :: files, some digest, ⟨hlt, hrest⟩ =>
      rw [advanceFiles]
      exact if_pos (by omega)
  rw [advanceEmptyFiles, hfiles]
  simp only [hloop, Except.ok_bind, Except.pure_eq_ok, ← hfiles]

/-- What an iteration over a chunk does to a reader that awaits what `P` says of the chunk and the bytes
after it: it fails if `P` is false, and otherwise leaves less of the chunk and a reader that awaits the
rest. -/
def Tracks (u : Unicode) (h : Hash) (candidate : Candidate) (r : Reader) (chunk s : List UInt8) (P : Prop) :
    Except SessionWorkspaceError (Reader × List UInt8) → Prop
  | .error _ => ¬ P
  | .ok (r', rest) => r'.Sound ∧ SameSource r r' ∧ rest.length ≤ chunk.length - 1 ∧
    (P ↔ Awaits u h candidate r' (rest ++ s))

theorem append_take_drop (b chunk s : List UInt8) (n : Nat) :
    b ++ (chunk ++ s) = (b ++ chunk.take n) ++ (chunk.drop n ++ s) := by
  rw [List.append_assoc, ← List.append_assoc (chunk.take n), List.take_append_drop]

/-- An iteration in the manifest. -/
theorem consumeManifest_spec (u : Unicode) (h : Hash) (candidate : Candidate) (chunk s : List UInt8)
    (hfiles : r.files = none) (hheader : r.header.length = 4)
    (hmanifest : r.manifest.length < r.manifestLength) (hdigest : r.fileDigest = none) :
    Tracks u h candidate r chunk s (Body u h candidate r.manifestLength (r.manifest ++ (chunk ++ s)))
      (consumeManifest u h candidate r chunk) := by
  rw [consumeManifest]
  rcases Nat.lt_or_ge chunk.length (r.manifestLength - r.manifest.length) with hlt | hge
  · -- the chunk ends in the manifest
    have hcount : min (r.manifestLength - r.manifest.length) chunk.length = chunk.length := by omega
    have hlength : (r.manifest ++ chunk).length < r.manifestLength := by
      rw [List.length_append]; omega
    simp only [hcount, List.take_length, List.drop_length, if_pos (Nat.ne_of_lt hlength)]
    refine ⟨.manifest hfiles hheader hlength hdigest, ⟨rfl, rfl, rfl⟩, Nat.zero_le _, ?_⟩
    rw [Awaits, if_neg (by simp [hheader])]
    simp only [hfiles, List.append_assoc, List.nil_append]
  · -- the manifest ends in the chunk
    have hcount : min (r.manifestLength - r.manifest.length) chunk.length =
        r.manifestLength - r.manifest.length := by omega
    rw [hcount]
    generalize hneed : r.manifestLength - r.manifest.length = need at hge ⊢
    have hlength : (r.manifest ++ chunk.take need).length = r.manifestLength := by
      rw [List.length_append, List.length_take]; omega
    have hbody : Body u h candidate r.manifestLength (r.manifest ++ (chunk ++ s)) ↔
        ∃ files, workspaceSnapshotManifest u candidate (r.manifest ++ chunk.take need) = .ok files ∧
          Contents h files (chunk.drop need ++ s) := by
      rw [Body, append_take_drop _ _ _ need, List.take_left' hlength, List.drop_left' hlength,
        List.length_append, hlength]
      exact and_iff_right (Nat.le_add_right _ _)
    rw [hbody]
    simp only [if_neg (not_not.2 hlength)]
    cases hread : workspaceSnapshotManifest u candidate (r.manifest ++ chunk.take need) with
    | error e => simp [Tracks]
    | ok files =>
      have hspec := advanceEmptyFiles_spec u h candidate (chunk.drop need ++ s)
        (r := { r with manifest := r.manifest ++ chunk.take need, files := some files }) rfl hheader
        hlength (by rw [hdigest]; trivial)
      simp only [show r.fileDigest.getD [] = [] by rw [hdigest]; rfl, List.nil_append] at hspec
      simp only [Except.ok_bind, Except.ok.injEq, exists_eq_left']
      cases hadvance : advanceEmptyFiles h
          { r with manifest := r.manifest ++ chunk.take need, files := some files } with
      | error e =>
        rw [hadvance] at hspec
        exact hspec
      | ok r' =>
        rw [hadvance] at hspec
        obtain ⟨hsound, hsame, hiff⟩ := hspec
        refine ⟨hsound, ⟨hsame.source, hsame.remaining, hsame.digest⟩, ?_, hiff⟩
        rw [List.length_drop]; omega

/-- An iteration in the files. -/
theorem consumeFile_spec (u : Unicode) (h : Hash) (candidate : Candidate) (s : List UInt8)
    {files : List File} (hfiles : r.files = some files) (hheader : r.header.length = 4)
    (hmanifest : r.manifest.length = r.manifestLength)
    (hsettled : Settled files r.fileRemaining r.fileDigest) (hne : chunk ≠ []) :
    Tracks u h candidate r chunk s (Contents h files (r.fileDigest.getD [] ++ (chunk ++ s)))
      (consumeFile h r chunk) := by
  rw [consumeFile, advanceEmptyFiles_of_settled hfiles hsettled, Except.ok_bind, hfiles]
  match files, hdigest : r.fileDigest, hsettled with
  | [], none, _ =>
    -- there are bytes after the last file
    simp [Tracks, Contents, hne]
  | f :: files, some digest, ⟨hlt, hremaining⟩ =>
    have hpos := List.length_pos_iff.2 hne
    generalize hcount : min r.fileRemaining chunk.length = count
    have hopened : Opened (f :: files) (r.fileRemaining - count) (some (digest ++ chunk.take count)) := by
      refine ⟨f, files, rfl, ?_, ?_⟩ <;> rw [List.length_append, List.length_take] <;> omega
    have hspec := advanceEmptyFiles_spec u h candidate (chunk.drop count ++ s)
      (r := { r with
        fileDigest := some (digest ++ chunk.take count)
        fileRemaining := r.fileRemaining - count }) hfiles hheader hmanifest hopened
    simp only [Option.getD_some, ← append_take_drop, hfiles] at hspec
    simp only [Option.getD_some]
    cases hadvance : advanceEmptyFiles h { r with
        files := some (f :: files)
        fileDigest := some (digest ++ chunk.take count)
        fileRemaining := r.fileRemaining - count } with
    | error e =>
      rw [hadvance] at hspec
      exact hspec
    | ok r' =>
      rw [hadvance] at hspec
      obtain ⟨hsound, hsame, hiff⟩ := hspec
      refine ⟨hsound, ⟨hsame.source, hsame.remaining, hsame.digest⟩, ?_, hiff⟩
      rw [List.length_drop]; omega

/-- An iteration in the header. -/
theorem consumeHeader_spec (u : Unicode) (h : Hash) (candidate : Candidate) (chunk s : List UInt8)
    (hfiles : r.files = none) (hheader : r.header.length < 4) (hmanifest : r.manifest = [])
    (hdigest : r.fileDigest = none) :
    Tracks u h candidate r chunk s (Framed u h candidate (r.header ++ (chunk ++ s)))
      (consumeOnce u h candidate r chunk) := by
  rw [consumeOnce, if_pos hheader]
  rcases Nat.lt_or_ge chunk.length (4 - r.header.length) with hlt | hge
  · -- the chunk ends in the header
    have hcount : min (4 - r.header.length) chunk.length = chunk.length := by omega
    have hlength : (r.header ++ chunk).length < 4 := by rw [List.length_append]; omega
    simp only [hcount, List.take_length, List.drop_length, if_pos (Nat.ne_of_lt hlength)]
    refine ⟨.header hfiles hlength hmanifest hdigest, ⟨rfl, rfl, rfl⟩, Nat.zero_le _, ?_⟩
    rw [Awaits, if_pos hlength, List.append_assoc, List.nil_append]
  · -- the header ends in the chunk, and the iteration goes on in the manifest
    have hcount : min (4 - r.header.length) chunk.length = 4 - r.header.length := by omega
    rw [hcount]
    generalize hneed : 4 - r.header.length = need at hge ⊢
    have hlength : (r.header ++ chunk.take need).length = 4 := by
      rw [List.length_append, List.length_take]; omega
    rw [Framed, append_take_drop _ _ _ need, List.take_left' hlength, List.drop_left' hlength]
    simp only [if_neg (not_not.2 hlength)]
    generalize fromBeBytes (r.header ++ chunk.take need) = n
    have hfour : 4 ≤ ((r.header ++ chunk.take need) ++ (chunk.drop need ++ s)).length := by
      rw [List.length_append, hlength]; omega
    by_cases hlimit : 0 < n ∧ n ≤ manifestLimit
    · by_cases hsize : 4 + n ≤ candidate.snapshotSizeBytes
      · have hspec := consumeManifest_spec u h candidate (chunk.drop need) s
          (r := { r with header := r.header ++ chunk.take need, manifestLength := n }) hfiles hlength
          (by simpa [hmanifest] using hlimit.1) hdigest
        rw [Except.require_pos hlimit, Except.ok_bind, Except.require_pos hsize, Except.ok_bind,
          and_iff_right hfour, and_iff_right hlimit, and_iff_right hsize]
        cases hok : consumeManifest u h candidate
            { r with header := r.header ++ chunk.take need, manifestLength := n } (chunk.drop need) with
        | error e =>
          rw [hok] at hspec
          simpa [Tracks, hmanifest] using hspec
        | ok result =>
          rw [hok] at hspec
          obtain ⟨hsound, hsame, hshorter, hiff⟩ := hspec
          refine ⟨hsound, ⟨hsame.source, hsame.remaining, hsame.digest⟩, ?_, ?_⟩
          · rw [List.length_drop] at hshorter
            omega
          · simpa [hmanifest] using hiff
      · simp [Tracks, Except.require, hlimit, hsize]
    · simp [Tracks, Except.require, hlimit]

/-- **One iteration.** It succeeds exactly when its chunk is a beginning of what the reader awaits, and
leaves a reader that awaits the rest. -/
theorem consumeOnce_spec (u : Unicode) (h : Hash) (candidate : Candidate) (s : List UInt8) (hr : r.Sound)
    (hne : chunk ≠ []) :
    Tracks u h candidate r chunk s (Awaits u h candidate r (chunk ++ s))
      (consumeOnce u h candidate r chunk) := by
  cases hr with
  | header hfiles hheader hmanifest hdigest =>
    rw [Awaits, if_pos hheader]
    exact consumeHeader_spec u h candidate chunk s hfiles hheader hmanifest hdigest
  | manifest hfiles hheader hmanifest hdigest =>
    rw [consumeOnce, if_neg (by omega), if_pos hmanifest, Awaits, if_neg (by omega), hfiles]
    exact consumeManifest_spec u h candidate chunk s hfiles hheader hmanifest hdigest
  | files files hfiles hheader hmanifest hsettled =>
    rw [consumeOnce, if_neg (by omega), if_neg (by omega), Awaits, if_neg (by omega), hfiles]
    exact consumeFile_spec u h candidate s hfiles hheader hmanifest hsettled hne

/-! ### Whole chunks and whole uploads -/

/-- `_consume` takes a whole chunk. -/
theorem consume_spec (u : Unicode) (h : Hash) (candidate : Candidate) (s : List UInt8) {fuel : Nat}
    (hr : r.Sound) (hfuel : chunk.length ≤ fuel) :
    match consume u h candidate fuel r chunk with
    | .error _ => ¬ Awaits u h candidate r (chunk ++ s)
    | .ok r' => r'.Sound ∧ SameSource r r' ∧
      (Awaits u h candidate r (chunk ++ s) ↔ Awaits u h candidate r' s) := by
  induction fuel generalizing r chunk with
  | zero =>
    obtain rfl : chunk = [] := List.length_eq_zero_iff.1 (Nat.le_zero.1 hfuel)
    exact ⟨hr, ⟨rfl, rfl, rfl⟩, Iff.rfl⟩
  | succ fuel ih =>
    rw [consume]
    by_cases hne : chunk = []
    · rw [if_pos hne, hne]
      exact ⟨hr, ⟨rfl, rfl, rfl⟩, Iff.rfl⟩
    · rw [if_neg hne]
      have hspec := consumeOnce_spec u h candidate s hr hne
      cases honce : consumeOnce u h candidate r chunk with
      | error e =>
        rw [honce] at hspec
        exact hspec
      | ok result =>
        obtain ⟨r₁, rest⟩ := result
        rw [honce] at hspec
        obtain ⟨hsound, hsame, hshorter, hiff⟩ := hspec
        have hrest := @ih r₁ rest hsound (by omega)
        simp only [Except.ok_bind]
        cases hmore : consume u h candidate fuel r₁ rest with
        | error e =>
          rw [hmore] at hrest
          exact fun hawaits ↦ hrest (hiff.1 hawaits)
        | ok r' =>
          rw [hmore] at hrest
          obtain ⟨hsound', hsame', hiff'⟩ := hrest
          exact ⟨hsound', ⟨hsame'.source.trans hsame.source, hsame'.remaining.trans hsame.remaining,
            hsame'.digest.trans hsame.digest⟩, hiff.trans hiff'⟩

/-- What an upload still has to bring. -/
def Completes (u : Unicode) (h : Hash) (candidate : Candidate) (r : Reader) : Prop :=
  r.source.length = r.remaining ∧ Awaits u h candidate r r.source ∧
    h.sha256 (r.digest ++ r.source) = candidate.snapshotSha256

/-- A reader that awaits nothing more has seen all of its files. -/
theorem awaits_nil_iff (u : Unicode) (h : Hash) (candidate : Candidate) (hr : r.Sound) :
    Awaits u h candidate r [] ↔ r.files = some [] := by
  rw [Awaits]
  cases hr with
  | header hfiles hheader _ _ =>
    rw [if_pos hheader, hfiles, List.append_nil]
    exact iff_of_false (fun hframed ↦ absurd hframed.1 (by omega)) (by simp)
  | manifest hfiles hheader hmanifest _ =>
    rw [if_neg (by omega), hfiles, List.append_nil]
    exact iff_of_false (fun hbody ↦ absurd hbody.1 (by omega)) (by simp)
  | files files hfiles hheader _ hsettled =>
    rw [if_neg (by omega), hfiles, List.append_nil]
    match files, hdigest : r.fileDigest, hsettled with
    | [], none, _ => exact iff_of_true rfl rfl
    | f :: files, some digest, ⟨hlt, _⟩ =>
      exact iff_of_false (fun hcontents ↦ absurd hcontents.1 (by simpa using hlt)) (by simp)

/-- A reader at the end of its source. -/
theorem requireComplete_eq_ok (u : Unicode) (h : Hash) (candidate : Candidate) (hr : r.Sound) (hremaining : r.remaining = 0) {x : Unit} :
    requireComplete h candidate r = .ok x ↔ Completes u h candidate r := by
  rw [requireComplete, Except.require_eq_ok, Completes, hremaining, List.length_eq_zero_iff]
  have hawaits := awaits_nil_iff u h candidate hr
  constructor
  · rintro ⟨-, hfiles, hsha, hsource⟩
    rw [hsource, List.append_nil]
    exact ⟨rfl, hawaits.2 hfiles, hsha⟩
  · rintro ⟨hsource, hawait, hsha⟩
    rw [hsource, List.append_nil] at hsha
    exact ⟨rfl, hawaits.1 (hsource ▸ hawait), hsha, hsource⟩

theorem Reader.Sound.of_eq (hr : r.Sound) (source : List UInt8) (remaining : Nat) (digest : List UInt8) :
    { r with source, remaining, digest }.Sound := by
  cases hr with
  | header hfiles hheader hmanifest hdigest => exact .header hfiles hheader hmanifest hdigest
  | manifest hfiles hheader hmanifest hdigest => exact .manifest hfiles hheader hmanifest hdigest
  | files files hfiles hheader hmanifest hsettled => exact .files files hfiles hheader hmanifest hsettled

/-- **One read** of some bytes that remain: it fails if the upload cannot be completed, and leaves what
completes it. -/
theorem consume_take_spec (u : Unicode) (h : Hash) (candidate : Candidate) {k : Nat} (hr : r.Sound)
    (hle : k ≤ r.remaining) :
    match consume u h candidate (r.source.take k).length
        { r with
          source := r.source.drop (r.source.take k).length
          remaining := r.remaining - (r.source.take k).length
          digest := r.digest ++ r.source.take k } (r.source.take k) with
    | .error _ => ¬ Completes u h candidate r
    | .ok r' => r'.Sound ∧ r'.source = r.source.drop k ∧
      r'.remaining = r.remaining - (r.source.take k).length ∧
      (Completes u h candidate r ↔ Completes u h candidate r') := by
  have hlength : (r.source.take k).length = min k r.source.length := List.length_take
  have hspec := consume_spec u h candidate (r.source.drop (r.source.take k).length)
    (hr.of_eq (r.source.drop (r.source.take k).length) (r.remaining - (r.source.take k).length)
      (r.digest ++ r.source.take k)) (Nat.le_refl (r.source.take k).length)
  have hdrop : r.source.drop (r.source.take k).length = r.source.drop k := by
    rw [hlength, List.drop_eq_drop_iff]
    omega
  rw [hdrop, List.take_append_drop] at hspec
  rw [hdrop]
  cases hconsume : consume u h candidate (r.source.take k).length
      { r with
        source := r.source.drop k
        remaining := r.remaining - (r.source.take k).length
        digest := r.digest ++ r.source.take k } (r.source.take k) with
  | error e =>
    rw [hconsume] at hspec
    exact fun hcompletes ↦ hspec hcompletes.2.1
  | ok r' =>
    rw [hconsume] at hspec
    obtain ⟨hsound, hsame, hiff⟩ := hspec
    have hremaining : r'.remaining = r.remaining - (r.source.take k).length := hsame.remaining
    have hsource : r'.source = r.source.drop k := hsame.source
    have hdigest : r'.digest = r.digest ++ r.source.take k := hsame.digest
    refine ⟨hsound, hsource, hremaining, ?_⟩
    rw [Completes, Completes, hremaining, hsource, hdigest, List.append_assoc, List.take_append_drop,
      List.length_drop]
    refine and_congr ?_ (and_congr hiff Iff.rfl)
    omega

/-- A source that has ended too early does not complete. -/
theorem not_completes_of_take {k : Nat} (hremaining : r.remaining ≠ 0) (hk : k ≠ 0)
    (hchunk : r.source.take k = []) : ¬ Completes u h candidate r := by
  have hsource : r.source = [] := (List.take_eq_nil_iff.1 hchunk).resolve_left hk
  rintro ⟨hlength, -⟩
  rw [hsource, List.length_nil] at hlength
  exact hremaining hlength.symm

/-- The reads of an upload and the last question, from any reader on. -/
theorem readAll_eq_ok (u : Unicode) (h : Hash) (candidate : Candidate) (counts : Nat → Nat) {fuel : Nat}
    (hr : r.Sound) (hfuel : r.remaining < fuel) {x : Unit} :
    (readAll u h candidate counts fuel r >>= requireComplete h candidate) = .ok x ↔
      Completes u h candidate r := by
  induction fuel generalizing r with
  | zero => exact absurd hfuel (Nat.not_lt_zero _)
  | succ fuel ih =>
    rw [readAll, Reader.read]
    by_cases hzero : r.remaining = 0
    · rw [if_pos hzero]
      exact requireComplete_eq_ok u h candidate hr hzero
    rw [if_neg hzero]
    generalize hk : min (max 1 (counts r.remaining)) (min (64 * 1024) r.remaining) = k
    by_cases hchunk : r.source.take k = []
    · simp only [if_pos hchunk, Except.error_bind, reduceCtorEq, false_iff]
      exact not_completes_of_take hzero (by omega) hchunk
    · have hpos := List.length_pos_iff.2 hchunk
      have hspec := consume_take_spec u h candidate (k := k) hr (by omega)
      simp only [if_neg hchunk]
      cases hconsume : consume u h candidate (r.source.take k).length
          { r with
            source := r.source.drop (r.source.take k).length
            remaining := r.remaining - (r.source.take k).length
            digest := r.digest ++ r.source.take k } (r.source.take k) with
      | error e =>
        rw [hconsume] at hspec
        simpa using hspec
      | ok r' =>
        rw [hconsume] at hspec
        obtain ⟨hsound, -, hremaining, hiff⟩ := hspec
        simp only [Except.ok_bind, Except.pure_eq_ok, if_neg hchunk]
        rw [ih hsound (by omega), hiff]

/-- **Chunks do not matter.** A frame is accepted when it is announced with its size and digest and is
well formed, however it is cut. -/
theorem readSnapshot_eq_ok {counts : Nat → Nat} {source : List UInt8} {x : Unit} :
    readSnapshot u h candidate counts source = .ok x ↔
      source.length = candidate.snapshotSizeBytes ∧ Framed u h candidate source ∧
        h.sha256 source = candidate.snapshotSha256 :=
  readAll_eq_ok u h candidate counts (r := .new source candidate)
    (.header rfl (by simp [Reader.new]) rfl rfl) (Nat.lt_succ_self _)

end Centaeris.Frame
