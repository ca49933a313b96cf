import Mathlib.Data.List.Sort
import Centaeris.Frame.Reader

/-!
# Collecting a workspace

The sandbox agent walks the workspace, describes its regular files in a manifest and writes the frame
(`run_snapshot_collect_once`). The runtime host reads the frame once before it uploads it
(`inspect_workspace_snapshot`), and the API reads it as it arrives (`readSnapshot`).

The agent accepts more paths than the two readers. A frame that it has written is accepted by both
exactly when all its paths are `Portable` (`collected_accepted_iff`); a file whose name has a colon, or
ends in a blank, can be collected and cannot be committed.
-/

namespace Centaeris.Frame

open Contract (Unicode IsSha256 isWorkspaceSha256 components isDotComponent)

/-- `AGENT_UID`. -/
def agentUid : Nat := 10001

/-- What the agent reads of a regular file. -/
structure RegularFile where
  content : List UInt8
  mode : Nat
  nlink : Nat
  uid : Nat
  deriving DecidableEq

/-- A node of the workspace. The names of a directory are byte strings, in the order of `read_dir`. -/
inductive Node
  | file (f : RegularFile)
  | dir (entries : List (List UInt8 × Node))
  | symlink
  | other

/-- The entries of a directory. -/
abbrev Entries := List (List UInt8 × Node)

/-- `metadata.mode() & 0o111 != 0`. -/
def RegularFile.executable (f : RegularFile) : Bool := f.mode &&& 0o111 != 0

section Agent

variable (u : Unicode) (h : Hash)

/-- `validate_registered_input_file`. -/
def validateRegisteredInputFile (f : RegularFile) : Except String Unit :=
  Except.require (f.uid = 0 ∧ f.nlink = 1) "registered sandbox input is unsafe"

mutual

/-- What `collect_snapshot_paths` does with a node at a checked path. -/
def collectNode (protectedPaths : List String) (relative : String) : Node → Except String (List String)
  | .symlink => .error "workspace snapshot does not support symlinks"
  | .dir entries => collectSnapshotPaths protectedPaths relative entries
  | .other => .error "workspace snapshot does not support this node type"
  | .file f =>
    if relative ∈ protectedPaths then do
      validateRegisteredInputFile f
      return []
    else return [relative]

/-- `collect_snapshot_paths`. -/
def collectSnapshotPaths (protectedPaths : List String) (start : String) :
    List (List UInt8 × Node) → Except String (List String)
  | [] => .ok []
  | (name, node) :: entries => do
    let name ← Except.okOr (Utf8.decode name) "workspace path is not valid UTF-8"
    validateSnapshotComponent u name
    let relative := if start = "" then name else start ++ "/" ++ name
    validateSnapshotPath u relative
    let paths ← collectNode protectedPaths relative node
    let more ← collectSnapshotPaths protectedPaths start entries
    return paths ++ more

end

/-- The node that a directory has under a name. -/
def Entries.lookup (entries : Entries) (name : String) : Option Node :=
  (entries.find? fun e ↦ e.1 == Utf8.bytes name).map Prod.snd

/-- `openat` along the components of a path, without following links. -/
def openComponents : Entries → List String → Except String Node
  | _, [] => .error "artifact source path is unsafe"
  | entries, [name] =>
    match Entries.lookup entries name with
    | some .symlink | none => .error "artifact source is unavailable or unsafe"
    | some node => .ok node
  | entries, name :: rest =>
    match Entries.lookup entries name with
    | some (.dir entries) => openComponents entries rest
    | _ => .error "artifact source path is unsafe"

/-- `open_artifact_beneath`. -/
def openArtifactBeneath (root : Entries) (path : String) : Except String Node := do
  Except.require (∀ part ∈ components path, isDotComponent part = false) "artifact source path is unsafe"
  openComponents root (components path)

/-- A file that is opened and passes `validate_snapshot_file_metadata`. -/
def openSnapshotFile (root : Entries) (path : String) : Except String RegularFile := do
  match ← openArtifactBeneath root path with
  | .file f =>
    Except.require (f.nlink = 1 ∧ f.uid = agentUid) "workspace snapshot source is unsafe"
    return f
  | _ => .error "workspace snapshot source is unsafe"

/-- `snapshot_file_metadata` of a file that does not change meanwhile. -/
def snapshotFileMetadata (root : Entries) (path : String) : Except String File := do
  let f ← openSnapshotFile root path
  Except.require (f.content.length < 2 ^ 64) "workspace snapshot size overflow"
  return { path, sizeBytes := f.content.length, sha256 := h.sha256 f.content, executable := f.executable }

/-- `collected_snapshot_manifest`. -/
def collectedSnapshotManifest (files : List File) : Except String Manifest := do
  let manifest : Manifest := { schema := snapshotSchema, files }
  if manifest.files = [] then return manifest
  else
    let _ ← canonicalSnapshotManifestBytes u manifest
    return manifest

/-- `collect_snapshot_manifest`. -/
def collectSnapshotManifest (protectedPaths : List String) (root : Entries) : Except String Manifest := do
  let paths ← collectSnapshotPaths u protectedPaths "" root
  let files ← (paths.insertionSort fun p q ↦ Utf8.bytes p ≤ Utf8.bytes q).mapM (snapshotFileMetadata h root)
  collectedSnapshotManifest u files

/-- `copy_snapshot_file`: the bytes of a file that is as the manifest describes it. -/
def copySnapshotFile (root : Entries) (expected : File) : Except String (List UInt8) := do
  let f ← openSnapshotFile root expected.path
  Except.require (f.content.length = expected.sizeBytes ∧ f.executable = expected.executable)
    "workspace snapshot source changed"
  Except.require (h.sha256 f.content = expected.sha256) "workspace snapshot source changed"
  return f.content

/-- `write_snapshot_frame`. -/
def writeSnapshotFrame (root : Entries) (manifest : Manifest) : Except String (List UInt8) := do
  let manifestBytes ← canonicalSnapshotManifestBytes u manifest
  Except.require (manifestBytes.length < 2 ^ 32) "snapshot manifest is too large"
  let contents ← manifest.files.mapM (copySnapshotFile h root)
  return toBeBytes manifestBytes.length ++ (manifestBytes ++ contents.flatten)

/-- `run_snapshot_collect_once`: what it writes, if there is a file at all. -/
def runSnapshotCollectOnce (protectedPaths : List String) (root : Entries) :
    Except String (Option (List UInt8)) := do
  let manifest ← collectSnapshotManifest u h protectedPaths root
  if manifest.files = [] then return none
  else
    let frame ← writeSnapshotFrame u h root manifest
    return some frame

end Agent

/-! ### The host -/

/-- `WorkspaceSnapshotDescriptor`. -/
structure Descriptor where
  sha256 : String
  sizeBytes : Nat
  expandedSizeBytes : Nat
  fileCount : Nat
  deriving DecidableEq

/-- `read_snapshot_exact`: so many bytes of the source, and what is left of it. -/
def readExact (n : Nat) (source : List UInt8) : Except String (List UInt8 × List UInt8) :=
  if n ≤ source.length then .ok (source.take n, source.drop n) else .error "snapshot frame is truncated"

/-- The loop of `inspect_workspace_snapshot` over the files. -/
def inspectFiles (h : Hash) : List File → List UInt8 → Except String (List UInt8)
  | [], source => .ok source
  | f :: files, source => do
    let (content, source) ← readExact f.sizeBytes source
    Except.require (h.sha256 content = f.sha256) "snapshot file integrity mismatch"
    inspectFiles h files source

/-- `inspect_workspace_snapshot`. -/
def inspectWorkspaceSnapshot (u : Unicode) (h : Hash) (frame : List UInt8) : Except String Descriptor :=
  if frame = [] then .ok ⟨"", 0, 0, 0⟩
  else do
    let (header, source) ← readExact 4 frame
    Except.require (0 < fromBeBytes header ∧ fromBeBytes header ≤ manifestLimit)
      "snapshot manifest length is invalid"
    let (manifestBytes, source) ← readExact (fromBeBytes header) source
    let manifest ← Except.okOr (Manifest.fromSlice manifestBytes) "decode snapshot manifest failed"
    Except.require (manifest.toVec = manifestBytes) "snapshot manifest is not canonical"
    let expandedSizeBytes ← validateWorkspaceSnapshotManifest u manifest
    let trailing ← inspectFiles h manifest.files source
    Except.require (trailing = []) "snapshot collect frame has trailing bytes"
    let sizeBytes := 4 + fromBeBytes header + expandedSizeBytes
    Except.require (sizeBytes < 2 ^ 64) "snapshot size overflow"
    Except.require (manifest.files.length < 2 ^ 32) "snapshot file count overflow"
    return { sha256 := h.sha256 frame, sizeBytes, expandedSizeBytes, fileCount := manifest.files.length }

/-! ### A frame that the agent has written -/

variable {u : Unicode} {h : Hash} {root : Entries} {m : Manifest} {frame : List UInt8}

theorem copySnapshotFile_eq_ok {f : File} {content : List UInt8}
    (hcopy : copySnapshotFile h root f = .ok content) :
    content.length = f.sizeBytes ∧ h.sha256 content = f.sha256 := by
  obtain ⟨g, -, hcopy⟩ := Except.bind_eq_ok.1 hcopy
  obtain ⟨⟨hsize, -⟩, hcopy⟩ := Except.require_bind.1 hcopy
  obtain ⟨hsha, hcopy⟩ := Except.require_bind.1 hcopy
  obtain rfl := Except.ok.inj hcopy
  exact ⟨hsize, hsha⟩

/-- The bytes that are copied are the contents that the manifest describes. -/
theorem contents_of_copied {files : List File} {contents : List (List UInt8)}
    (hcopied : List.Forall₂ (fun f c ↦ copySnapshotFile h root f = .ok c) files contents) :
    Contents h files contents.flatten ∧ contents.flatten.length = expandedSize files ∧
      ∀ f ∈ files, IsSha256 f.sha256 := by
  induction hcopied with
  | nil => exact ⟨rfl, rfl, by simp⟩
  | @cons f c files contents hcopy _ ih =>
    obtain ⟨hlength, hsha⟩ := copySnapshotFile_eq_ok hcopy
    obtain ⟨hcontents, hsize, hall⟩ := ih
    rw [List.flatten_cons]
    refine ⟨(contents_append hlength).2 ⟨hsha, hcontents⟩, ?_, ?_⟩
    · rw [List.length_append, hlength, hsize]
      rfl
    · rw [List.forall_mem_cons]
      exact ⟨hsha ▸ h.isSha256 c, hall⟩

/-- What is known of a frame that the agent has written. -/
structure Written (u : Unicode) (h : Hash) (m : Manifest) (frame contents : List UInt8) : Prop where
  schema : m.schema = snapshotSchema
  ne_nil : m.files ≠ []
  sandboxed : ∀ f ∈ m.files, Sandboxed u f.path ∧ IsSha256 f.sha256
  inOrder : InOrder none m.files
  expanded : expandedSize m.files < 2 ^ 64
  limit : m.toVec.length ≤ manifestLimit
  frame : frame = toBeBytes m.toVec.length ++ (m.toVec ++ contents)
  reads : Contents h m.files contents
  size : contents.length = expandedSize m.files

theorem written_of_writeSnapshotFrame (hwrite : writeSnapshotFrame u h root m = .ok frame) :
    ∃ contents, Written u h m frame contents := by
  obtain ⟨b, hcanonical, hwrite⟩ := Except.bind_eq_ok.1 hwrite
  obtain ⟨⟨⟩, hvalid, hcanonical⟩ := Except.bind_eq_ok.1 hcanonical
  obtain ⟨hlimit, hcanonical⟩ := Except.require_bind.1 hcanonical
  obtain rfl := Except.ok.inj hcanonical
  obtain ⟨-, hwrite⟩ := Except.require_bind.1 hwrite
  obtain ⟨contents, hcontents, hwrite⟩ := Except.bind_eq_ok.1 hwrite
  obtain rfl := Except.ok.inj hwrite
  obtain ⟨⟨hschema, hne⟩, hfiles, horder, hexpanded⟩ := validateSnapshotManifest_eq_ok.1 hvalid
  obtain ⟨hall, hsize, hsha⟩ := contents_of_copied (Except.mapM_eq_ok.1 hcontents)
  exact ⟨contents.flatten, hschema, hne, fun f hf ↦ ⟨(hfiles f hf).1, hsha f hf⟩, horder, hexpanded,
    hlimit, rfl, hall, hsize⟩

/-- What the host says about a frame, and the API is told about it. -/
def describe (h : Hash) (m : Manifest) (frame : List UInt8) : Descriptor where
  sha256 := h.sha256 frame
  sizeBytes := frame.length
  expandedSizeBytes := expandedSize m.files
  fileCount := m.files.length

/-- The candidate of an upload, from what the host has found. -/
def Descriptor.candidate (d : Descriptor) : Candidate where
  snapshotSizeBytes := d.sizeBytes
  snapshotSha256 := d.sha256
  expandedSizeBytes := d.expandedSizeBytes
  fileCount := d.fileCount

/-- Every file takes a byte of the manifest. -/
theorem Manifest.length_lt_length_toVec (m : Manifest) : m.files.length < m.toVec.length := by
  refine Nat.lt_of_lt_of_le ?_ (Utf8.length_le_length_bytes _)
  have := JsonText.length_le_length_renderItems JsonText.serdeEscape (m.files.map File.toJson)
  rw [List.length_map] at this
  simp only [String.toList_ofList, Manifest.toJson, JsonText.render, JsonText.renderFields,
    List.length_cons, List.length_append]
  omega

section Written

variable {contents : List UInt8}

theorem Written.header (hw : Written u h m frame contents) :
    fromBeBytes (toBeBytes m.toVec.length) = m.toVec.length :=
  fromBeBytes_toBeBytes (Nat.lt_of_le_of_lt hw.limit (by decide))

theorem Written.length (hw : Written u h m frame contents) :
    frame.length = 4 + m.toVec.length + expandedSize m.files := by
  rw [hw.frame, List.length_append, List.length_append, hw.size, length_toBeBytes, Nat.add_assoc]

theorem Written.take_four (hw : Written u h m frame contents) :
    frame.take 4 = toBeBytes m.toVec.length := by
  rw [hw.frame, List.take_left' (length_toBeBytes _)]

theorem Written.drop_four (hw : Written u h m frame contents) : frame.drop 4 = m.toVec ++ contents := by
  rw [hw.frame, List.drop_left' (length_toBeBytes _)]

/-- The API accepts the frame when the paths are portable. -/
theorem Written.framed_iff (hw : Written u h m frame contents) :
    Framed u h (describe h m frame).candidate frame ↔ ∀ f ∈ m.files, Portable u f.path := by
  have hread {files : List File} :
      workspaceSnapshotManifest u (describe h m frame).candidate m.toVec = .ok files ↔ _ :=
    workspaceSnapshotManifest_toVec hw.schema hw.ne_nil hw.sandboxed hw.inOrder rfl rfl
  constructor
  · rw [Framed, hw.take_four, hw.drop_four, hw.header, Body, List.take_left]
    rintro ⟨-, -, -, -, files, hfiles, -⟩
    exact (hread.1 hfiles).2
  · intro hportable
    have hframed := framed_append u h (Nat.zero_lt_of_lt m.length_lt_length_toVec) hw.limit
      (show 4 + m.toVec.length ≤ frame.length by rw [hw.length]; omega)
      (hread.2 ⟨rfl, hportable⟩) hw.reads
    rwa [← hw.frame] at hframed

/-- The loop over the files finds the contents. -/
theorem inspectFiles_of_contents {files : List File} {source : List UInt8}
    (hcontents : Contents h files source) : inspectFiles h files source = .ok [] := by
  induction files generalizing source with
  | nil => rw [show source = [] from hcontents]; rfl
  | cons f files ih =>
    obtain ⟨hle, hsha, hrest⟩ := hcontents
    rw [inspectFiles, readExact, if_pos hle]
    simp only [Except.ok_bind, Except.require_pos hsha]
    exact ih hrest

/-- What the host does with the frame, after it has read the manifest. -/
theorem Written.inspect_eq (hw : Written u h m frame contents) :
    inspectWorkspaceSnapshot u h frame = (do
      let expandedSizeBytes ← validateWorkspaceSnapshotManifest u m
      Except.require (4 + m.toVec.length + expandedSizeBytes < 2 ^ 64) "snapshot size overflow"
      Except.require (m.files.length < 2 ^ 32) "snapshot file count overflow"
      return { sha256 := h.sha256 frame, sizeBytes := 4 + m.toVec.length + expandedSizeBytes,
               expandedSizeBytes, fileCount := m.files.length }) := by
  have hlength := hw.length
  have hpos := m.length_lt_length_toVec
  have hne : frame ≠ [] := by
    rintro rfl
    rw [List.length_nil] at hlength
    omega
  have hbytes : ∀ f ∈ m.files, f.sizeBytes < 2 ^ 64 := fun f hf ↦
    Nat.lt_of_le_of_lt (sizeBytes_le_expandedSize hf) hw.expanded
  rw [inspectWorkspaceSnapshot, if_neg hne, readExact, if_pos (by omega), hw.take_four, hw.drop_four]
  simp only [Except.ok_bind, hw.header]
  rw [Except.require_pos ⟨by omega, hw.limit⟩, Except.ok_bind, readExact,
    if_pos (by rw [List.length_append]; omega), List.take_left, List.drop_left]
  simp only [Except.ok_bind, Manifest.fromSlice_toVec hbytes, Except.okOr, Except.require_pos,
    inspectFiles_of_contents hw.reads]

/-- The host accepts the frame when no path has whitespace at its ends. -/
theorem Written.inspect_iff (hw : Written u h m frame contents) (hsize : frame.length < 2 ^ 64) :
    inspectWorkspaceSnapshot u h frame = .ok (describe h m frame) ↔ ∀ f ∈ m.files, HostPath u f.path := by
  have hlength := hw.length
  have hcount : m.files.length < 2 ^ 32 := by
    have hpos := m.length_lt_length_toVec
    have hlimit := hw.limit
    have : manifestLimit < 2 ^ 32 := by decide
    omega
  rw [hw.inspect_eq]
  constructor
  · intro hok
    obtain ⟨n, hvalid, -⟩ := Except.bind_eq_ok.1 hok
    exact fun f hf ↦ ((validateWorkspaceSnapshotManifest_eq_ok.1 hvalid).2.1 f hf).1
  · intro hpaths
    have hvalid : validateWorkspaceSnapshotManifest u m = .ok (expandedSize m.files) :=
      validateWorkspaceSnapshotManifest_eq_ok.2 ⟨⟨hw.schema, hw.ne_nil⟩,
        fun f hf ↦ ⟨hpaths f hf, (hw.sandboxed f hf).2.isWorkspaceSha256⟩, hw.inOrder, rfl, hw.expanded⟩
    rw [hvalid, Except.ok_bind, Except.require_pos (by omega), Except.ok_bind, Except.require_pos hcount,
      Except.ok_bind, ← hlength]
    rfl

end Written

/-- A portable path is one that the host accepts, if it is one of the agent's. -/
theorem Portable.hostPath {path : String} (hportable : Portable u path) (hsandboxed : Sandboxed u path) :
    HostPath u path :=
  hostPath_iff.2 ⟨hsandboxed, Contract.strip_isWhitespace_of_isSpace hportable.stripped⟩

/-- **What can be collected can be committed, if its paths are portable**, and only then: the runtime host
accepts the frame that the agent has written, with its size, digest and files, and the API accepts the
upload with these, however it is cut into chunks. -/
theorem collected_accepted_iff (u : Unicode) (h : Hash) (root : Entries) (frame : List UInt8)
    (hcollect : runSnapshotCollectOnce u h [] root = .ok (some frame)) (hsize : frame.length < 2 ^ 64) :
    ∃ m, collectSnapshotManifest u h [] root = .ok m ∧
      ((inspectWorkspaceSnapshot u h frame = .ok (describe h m frame) ∧
        ∀ counts, readSnapshot u h (describe h m frame).candidate counts frame = .ok ()) ↔
      ∀ f ∈ m.files, Portable u f.path) := by
  obtain ⟨m, hm, hrun⟩ := Except.bind_eq_ok.1 hcollect
  refine ⟨m, hm, ?_⟩
  split at hrun
  · exact absurd hrun (by simp)
  · obtain ⟨frame', hwrite, hframe⟩ := Except.bind_eq_ok.1 hrun
    obtain rfl : frame' = frame := Option.some.inj (Except.ok.inj hframe)
    obtain ⟨contents, hw⟩ := written_of_writeSnapshotFrame hwrite
    constructor
    · rintro ⟨-, hread⟩
      exact hw.framed_iff.1 (readSnapshot_eq_ok.1 (hread fun _ ↦ 1)).2.1
    · intro hportable
      refine ⟨(hw.inspect_iff hsize).2 fun f hf ↦ (hportable f hf).hostPath (hw.sandboxed f hf).1,
        fun counts ↦ ?_⟩
      exact readSnapshot_eq_ok.2 ⟨rfl, hw.framed_iff.2 hportable, rfl⟩

/-! ### One file -/

/-- Tables for texts of ASCII characters, which are their own normal forms. -/
def asciiUnicode : Unicode where
  nfc := id
  isOther := Contract.isControl
  isOther_of_isControl := fun _ hc ↦ hc

/-- A hash of which only the format is kept. -/
def formatHash : Hash where
  sha256 := fun _ ↦ "sha256:0000000000000000000000000000000000000000000000000000000000000000"
  isSha256 := fun _ ↦ ⟨List.replicate 64 '0', by decide +kernel, by decide, by decide +kernel⟩

/-- A workspace with one file of two bytes. -/
def oneFile (name : String) : Entries := [(Utf8.bytes name, .file ⟨[104, 105], 0o644, 1, agentUid⟩)]

/-- Its manifest. -/
def oneFileManifest (name : String) : Manifest :=
  ⟨snapshotSchema, [⟨name, 2, formatHash.sha256 [], false⟩]⟩

/-- Its frame. -/
def oneFileFrame (name : String) : List UInt8 :=
  toBeBytes (oneFileManifest name).toVec.length ++ ((oneFileManifest name).toVec ++ [104, 105])

theorem length_oneFileFrame_lt {name : String}
    (hlimit : (oneFileManifest name).toVec.length ≤ manifestLimit) : (oneFileFrame name).length < 2 ^ 64 := by
  have : manifestLimit = 1048576 := rfl
  simp only [oneFileFrame, List.length_append, length_toBeBytes, List.length_cons, List.length_nil]
  omega

/-- A file with a plain name is collected. -/
theorem runSnapshotCollectOnce_oneFile (name : String)
    (hpaths : collectSnapshotPaths asciiUnicode [] "" (oneFile name) = .ok [name])
    (hmetadata : snapshotFileMetadata formatHash (oneFile name) name =
      .ok ⟨name, 2, formatHash.sha256 [], false⟩)
    (hcopy : copySnapshotFile formatHash (oneFile name) ⟨name, 2, formatHash.sha256 [], false⟩ =
      .ok [104, 105])
    (hpath : validateSnapshotPath asciiUnicode name = .ok ())
    (hlimit : (oneFileManifest name).toVec.length ≤ manifestLimit) :
    runSnapshotCollectOnce asciiUnicode formatHash [] (oneFile name) = .ok (some (oneFileFrame name)) ∧
      collectSnapshotManifest asciiUnicode formatHash [] (oneFile name) = .ok (oneFileManifest name) ∧
      writeSnapshotFrame asciiUnicode formatHash (oneFile name) (oneFileManifest name) =
        .ok (oneFileFrame name) := by
  have hvalid : validateSnapshotManifest asciiUnicode (oneFileManifest name) = .ok () := by
    refine validateSnapshotManifest_eq_ok.2 ⟨⟨rfl, List.cons_ne_nil _ _⟩, ?_, ⟨?_, trivial⟩, ?_⟩
    · rintro f (_ | ⟨_, ⟨⟩⟩)
      exact ⟨validateSnapshotPath_eq_ok.1 hpath, (formatHash.isSha256 []).isWorkspaceSha256⟩
    · rintro p ⟨⟩
    · show 2 + 0 < 2 ^ 64
      decide
  have hcanonical : canonicalSnapshotManifestBytes asciiUnicode (oneFileManifest name) =
      .ok (oneFileManifest name).toVec := by
    rw [canonicalSnapshotManifestBytes, hvalid, Except.ok_bind, Except.require_pos hlimit]
    rfl
  have hcollect : collectSnapshotManifest asciiUnicode formatHash [] (oneFile name) =
      .ok (oneFileManifest name) := by
    rw [collectSnapshotManifest, hpaths]
    show [name].mapM (snapshotFileMetadata formatHash (oneFile name)) >>= _ = _
    simp only [Except.ok_bind, List.mapM_cons, List.mapM_nil, hmetadata, Except.pure_eq_ok,
      collectedSnapshotManifest, List.cons_ne_nil, if_false]
    show canonicalSnapshotManifestBytes asciiUnicode (oneFileManifest name) >>= _ = _
    rw [hcanonical]
    rfl
  have hwrite : writeSnapshotFrame asciiUnicode formatHash (oneFile name) (oneFileManifest name) =
      .ok (oneFileFrame name) := by
    rw [writeSnapshotFrame, hcanonical, Except.ok_bind,
      Except.require_pos (Nat.lt_of_le_of_lt hlimit (by decide)), Except.ok_bind]
    show [_].mapM _ >>= _ = _
    simp only [List.mapM_cons, List.mapM_nil, hcopy, Except.ok_bind, Except.pure_eq_ok,
      List.flatten_cons, List.flatten_nil, List.append_nil]
    rfl
  refine ⟨?_, hcollect, hwrite⟩
  rw [runSnapshotCollectOnce, hcollect, Except.ok_bind,
    if_neg (show (oneFileManifest name).files ≠ [] from List.cons_ne_nil _ _), hwrite]
  rfl

theorem collected_accepted_iff_notes : ∃ m,
    collectSnapshotManifest asciiUnicode formatHash [] (oneFile "notes") = .ok m ∧
      ((inspectWorkspaceSnapshot asciiUnicode formatHash (oneFileFrame "notes") =
          .ok (describe formatHash m (oneFileFrame "notes")) ∧
        ∀ counts, readSnapshot asciiUnicode formatHash
          (describe formatHash m (oneFileFrame "notes")).candidate counts (oneFileFrame "notes") = .ok ()) ↔
      ∀ f ∈ m.files, Portable asciiUnicode f.path) :=
  have hlimit : (oneFileManifest "notes").toVec.length ≤ manifestLimit := by
    rw [Manifest.toVec_eq_flatMap]; decide +kernel
  collected_accepted_iff asciiUnicode formatHash (oneFile "notes") (oneFileFrame "notes")
    (runSnapshotCollectOnce_oneFile "notes" (by decide +kernel) (by decide +kernel) (by decide +kernel)
      (by decide +kernel) hlimit).1 (length_oneFileFrame_lt hlimit)

/-- A name with a colon is collected, and the host accepts the frame; the API refuses the upload. A name
that ends in a blank is collected, and the host refuses the frame. -/
theorem collected_refused :
    (runSnapshotCollectOnce asciiUnicode formatHash [] (oneFile "a:b") = .ok (some (oneFileFrame "a:b")) ∧
      inspectWorkspaceSnapshot asciiUnicode formatHash (oneFileFrame "a:b") =
        .ok (describe formatHash (oneFileManifest "a:b") (oneFileFrame "a:b")) ∧
      ∀ counts, readSnapshot asciiUnicode formatHash
        (describe formatHash (oneFileManifest "a:b") (oneFileFrame "a:b")).candidate counts
        (oneFileFrame "a:b") ≠ .ok ()) ∧
    (runSnapshotCollectOnce asciiUnicode formatHash [] (oneFile "a ") = .ok (some (oneFileFrame "a ")) ∧
      inspectWorkspaceSnapshot asciiUnicode formatHash (oneFileFrame "a ") ≠
        .ok (describe formatHash (oneFileManifest "a ") (oneFileFrame "a "))) := by
  constructor
  · have hlimit : (oneFileManifest "a:b").toVec.length ≤ manifestLimit := by
      rw [Manifest.toVec_eq_flatMap]; decide +kernel
    obtain ⟨hrun, -, hwrite⟩ := runSnapshotCollectOnce_oneFile "a:b" (by decide +kernel)
      (by decide +kernel) (by decide +kernel) (by decide +kernel) hlimit
    obtain ⟨contents, hw⟩ := written_of_writeSnapshotFrame hwrite
    refine ⟨hrun, (hw.inspect_iff (length_oneFileFrame_lt hlimit)).2 ?_, fun counts hread ↦ ?_⟩
    · rintro f (_ | ⟨_, ⟨⟩⟩)
      decide +kernel
    · have hportable := hw.framed_iff.1 (readSnapshot_eq_ok.1 hread).2.1 _ List.mem_cons_self
      exact absurd hportable.colon (by decide +kernel)
  · have hlimit : (oneFileManifest "a ").toVec.length ≤ manifestLimit := by
      rw [Manifest.toVec_eq_flatMap]; decide +kernel
    obtain ⟨hrun, -, hwrite⟩ := runSnapshotCollectOnce_oneFile "a " (by decide +kernel)
      (by decide +kernel) (by decide +kernel) (by decide +kernel) hlimit
    obtain ⟨contents, hw⟩ := written_of_writeSnapshotFrame hwrite
    refine ⟨hrun, fun hok ↦ ?_⟩
    have hpath := (hw.inspect_iff (length_oneFileFrame_lt hlimit)).1 hok _ List.mem_cons_self
    exact absurd hpath.2.1 (by decide +kernel)

end Centaeris.Frame
