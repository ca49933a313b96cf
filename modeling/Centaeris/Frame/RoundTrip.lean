import Centaeris.Frame.Tree

/-!
# A workspace that is collected and restored

The frame of a workspace, restored into an empty one, gives back its regular files with their contents and
flags, and the directories above them; empty directories are not in the frame. A tree with what was
restored is collected to the same frame, byte for byte (`collected_restored`).

Both ways go through what stands at the paths of the tree (`At`). On the way there the frame is a list of
files with their contents (`Collected`), in an order that depends on the paths only.
-/

namespace Centaeris.Frame

open Contract (Unicode components isDotComponent)

/-! ### The file that is restored -/

/-- A file as it is left by the restoration. -/
def sealedFile (content : List UInt8) (executable : Bool) : RegularFile where
  content := content
  mode := if executable then 0o755 else 0o644
  nlink := 1
  uid := agentUid

@[simp] theorem executable_sealedFile (content : List UInt8) (executable : Bool) :
    (sealedFile content executable).executable = executable := by
  cases executable
  · show (0o644 &&& 0o111 != 0) = false
    decide
  · show (0o755 &&& 0o111 != 0) = true
    decide

section Collected

variable {u : Unicode} {h : Hash} {root : Entries} {frame : List UInt8}

/-- The paths in the order of the manifest. -/
def sortedPaths (paths : List String) : List String :=
  paths.insertionSort fun p q ↦ Utf8.bytes p ≤ Utf8.bytes q

/-- **What a frame is made of**: the paths of the walk in their order, what the manifest says of their
files, and their contents. -/
structure Collected (u : Unicode) (h : Hash) (root : Entries) (paths : List String) (files : List File)
    (contents : List (List UInt8)) : Prop where
  walked : collectSnapshotPaths u [] "" root = .ok paths
  described : (sortedPaths paths).mapM (snapshotFileMetadata h root) = .ok files
  ne_nil : files ≠ []
  canonical : canonicalSnapshotManifestBytes u ⟨snapshotSchema, files⟩ =
    .ok (Manifest.mk snapshotSchema files).toVec
  copied : files.mapM (copySnapshotFile h root) = .ok contents

/-- The frame of files with their contents. -/
def frameOf (files : List File) (contents : List (List UInt8)) : List UInt8 :=
  toBeBytes (Manifest.mk snapshotSchema files).toVec.length ++
    ((Manifest.mk snapshotSchema files).toVec ++ contents.flatten)

theorem canonicalSnapshotManifestBytes_eq_ok {m : Manifest} {b : List UInt8}
    (hok : canonicalSnapshotManifestBytes u m = .ok b) : b = m.toVec ∧ m.toVec.length < 2 ^ 32 := by
  obtain ⟨⟨⟩, -, hok⟩ := Except.bind_eq_ok.1 hok
  have hrequire := Except.require_bind.1 hok
  exact ⟨(Except.ok.inj hrequire.2).symm, Nat.lt_of_le_of_lt hrequire.1 (by decide)⟩

theorem writeSnapshotFrame_eq_ok {m : Manifest} : writeSnapshotFrame u h root m = .ok frame ↔
    canonicalSnapshotManifestBytes u m = .ok m.toVec ∧
      ∃ contents, m.files.mapM (copySnapshotFile h root) = .ok contents ∧
        frame = toBeBytes m.toVec.length ++ (m.toVec ++ contents.flatten) := by
  constructor
  · intro hwrite
    obtain ⟨bytes, hcanonical, hwrite⟩ := Except.bind_eq_ok.1 hwrite
    obtain rfl := (canonicalSnapshotManifestBytes_eq_ok hcanonical).1
    obtain ⟨-, hwrite⟩ := Except.require_bind.1 hwrite
    obtain ⟨contents, hcontents, hwrite⟩ := Except.bind_eq_ok.1 hwrite
    exact ⟨hcanonical, contents, hcontents, (Except.ok.inj hwrite).symm⟩
  · rintro ⟨hcanonical, contents, hcontents, rfl⟩
    rw [writeSnapshotFrame, hcanonical, Except.ok_bind,
      Except.require_pos (canonicalSnapshotManifestBytes_eq_ok hcanonical).2, Except.ok_bind, hcontents]
    rfl

theorem runSnapshotCollectOnce_eq_some : runSnapshotCollectOnce u h [] root = .ok (some frame) ↔
    ∃ paths files contents, Collected u h root paths files contents ∧ frame = frameOf files contents := by
  constructor
  · intro hrun
    obtain ⟨m, hm, hrun⟩ := Except.bind_eq_ok.1 hrun
    obtain ⟨paths, hpaths, hm⟩ := Except.bind_eq_ok.1 hm
    obtain ⟨files, hfiles, hm⟩ := Except.bind_eq_ok.1 hm
    rw [collectedSnapshotManifest] at hm
    split at hm
    · next hnil =>
      obtain rfl := Except.ok.inj hm
      rw [if_pos hnil] at hrun
      cases hrun
    · next hne =>
      obtain ⟨b, -, hm⟩ := Except.bind_eq_ok.1 hm
      obtain rfl := Except.ok.inj hm
      rw [if_neg hne] at hrun
      obtain ⟨frame', hwrite, hframe⟩ := Except.bind_eq_ok.1 hrun
      obtain rfl : frame' = frame := Option.some.inj (Except.ok.inj hframe)
      obtain ⟨hcanonical, contents, hcontents, rfl⟩ := writeSnapshotFrame_eq_ok.1 hwrite
      exact ⟨paths, files, contents, ⟨hpaths, hfiles, hne, hcanonical, hcontents⟩, rfl⟩
  · rintro ⟨paths, files, contents, hc, rfl⟩
    have hwrite : writeSnapshotFrame u h root ⟨snapshotSchema, files⟩ = .ok (frameOf files contents) :=
      writeSnapshotFrame_eq_ok.2 ⟨hc.canonical, contents, hc.copied, rfl⟩
    have hmanifest : collectSnapshotManifest u h [] root = .ok ⟨snapshotSchema, files⟩ := by
      have hdescribed := hc.described
      rw [sortedPaths] at hdescribed
      rw [collectSnapshotManifest, hc.walked, Except.ok_bind, hdescribed, Except.ok_bind,
        collectedSnapshotManifest]
      simp only [hc.ne_nil, if_false, hc.canonical, Except.ok_bind]
      rfl
    rw [runSnapshotCollectOnce, hmanifest, Except.ok_bind, if_neg hc.ne_nil, hwrite]
    rfl

/-- What is opened as a file to collect. -/
theorem openSnapshotFile_eq_ok {path : String} {f : RegularFile} (hdistinct : Distinct root) :
    openSnapshotFile root path = .ok f ↔ (∀ part ∈ components path, isDotComponent part = false) ∧
      At root ((components path).map Utf8.bytes) (.file f) ∧ f.nlink = 1 ∧ f.uid = agentUid := by
  rw [openSnapshotFile, openArtifactBeneath]
  constructor
  · intro hok
    obtain ⟨node, hnode, hok⟩ := Except.bind_eq_ok.1 hok
    obtain ⟨hparts, hnode⟩ := Except.require_bind.1 hnode
    cases node with
    | file g =>
      obtain ⟨hsafe, hok⟩ := Except.require_bind.1 hok
      obtain rfl := Except.ok.inj hok
      exact ⟨hparts, ((openComponents_eq_ok hdistinct).1 hnode).1, hsafe⟩
    | _ => cases hok
  · rintro ⟨hparts, hat, hsafe⟩
    rw [Except.require_pos hparts, Except.ok_bind,
      (openComponents_eq_ok hdistinct).2 ⟨hat, by simp⟩, Except.ok_bind]
    simp only [Except.require_pos hsafe, Except.ok_bind]
    rfl

/-- The paths of the files that are collected, with their names. -/
theorem Collected.mem_paths {paths : List String} {files : List File} {contents : List (List UInt8)}
    (hc : Collected u h root paths files contents) {p : List String} {f : RegularFile}
    (hat : At root (p.map Utf8.bytes) (.file f)) : pathText p ∈ paths ∧ components (pathText p) = p := by
  obtain ⟨hwalk, hmem⟩ := walk_spec (checked_nil u) hc.walked
  exact ⟨(hmem _).2 ⟨p, f, hat, rfl⟩, (hwalk.checked hat).components hat.map_ne_nil⟩

theorem snapshotFileMetadata_eq_ok {path : String} {f : File}
    (hok : snapshotFileMetadata h root path = .ok f) : ∃ g, openSnapshotFile root path = .ok g ∧
      g.content.length < 2 ^ 64 ∧ f = ⟨path, g.content.length, h.sha256 g.content, g.executable⟩ := by
  obtain ⟨g, hg, hok⟩ := Except.bind_eq_ok.1 hok
  have hrequire := Except.require_bind.1 hok
  exact ⟨g, hg, hrequire.1, (Except.ok.inj hrequire.2).symm⟩

theorem openSnapshotFile_of_copied {f : File} {content : List UInt8}
    (hok : copySnapshotFile h root f = .ok content) : ∃ g, openSnapshotFile root f.path = .ok g ∧
      g.content = content ∧ g.executable = f.executable ∧ g.content.length = f.sizeBytes ∧
      h.sha256 g.content = f.sha256 := by
  obtain ⟨g, hg, hok⟩ := Except.bind_eq_ok.1 hok
  obtain ⟨hsize, hok⟩ := Except.require_bind.1 hok
  obtain ⟨hsha, hok⟩ := Except.require_bind.1 hok
  exact ⟨g, hg, Except.ok.inj hok, hsize.2, hsize.1, hsha⟩

/-- **The files of a frame are those of the tree.** -/
theorem Collected.mem_zip {paths : List String} {files : List File} {contents : List (List UInt8)}
    (hdistinct : Distinct root) (hc : Collected u h root paths files contents) (p : List String)
    (content : List UInt8) (x : Bool) :
    (∃ e ∈ files.zip contents, components e.1.path = p ∧ e.2 = content ∧ e.1.executable = x) ↔
      ∃ f, At root (p.map Utf8.bytes) (.file f) ∧ f.content = content ∧ f.executable = x := by
  have hcopied := Except.mapM_eq_ok.1 hc.copied
  constructor
  · rintro ⟨⟨f, c⟩, he, rfl, rfl, rfl⟩
    obtain ⟨g, hg, rfl, hx, -⟩ := openSnapshotFile_of_copied (List.forall₂_zip hcopied he)
    exact ⟨g, ((openSnapshotFile_eq_ok hdistinct).1 hg).2.1, rfl, hx⟩
  · rintro ⟨g, hat, rfl, rfl⟩
    obtain ⟨hmem, hcomponents⟩ := hc.mem_paths hat
    have hsorted : pathText p ∈ sortedPaths paths := (List.mem_insertionSort _).2 hmem
    obtain ⟨f, hf, hmeta⟩ := Except.exists_of_forall₂ (Except.mapM_eq_ok.1 hc.described).flip hsorted
    obtain ⟨_, -, -, hpath⟩ := snapshotFileMetadata_eq_ok hmeta
    have hfpath : f.path = pathText p := by rw [hpath]
    obtain ⟨c, hc'⟩ := exists_mem_zip hcopied.length_eq hf
    obtain ⟨g', hg', rfl, hx, -⟩ := openSnapshotFile_of_copied (List.forall₂_zip hcopied hc')
    have hat' := ((openSnapshotFile_eq_ok hdistinct).1 hg').2.1
    rw [hfpath, hcomponents] at hat'
    obtain rfl := Node.file.inj (At.unique hdistinct hat hat')
    exact ⟨(f, g.content), hc', by rw [hfpath, hcomponents], rfl, hx.symm⟩

/-! ### Restoring -/

/-- Files of a tree are apart. -/
theorem Collected.apart {paths : List String} {files : List File} {contents : List (List UInt8)}
    (hdistinct : Distinct root) (hc : Collected u h root paths files contents) :
    files.Pairwise fun f g ↦ Apart (components f.path) (components g.path) := by
  have horder : InOrder none files := by
    obtain ⟨⟨⟩, hvalid, -⟩ := Except.bind_eq_ok.1 hc.canonical
    exact (validateSnapshotManifest_eq_ok.1 hvalid).2.2.1
  have hat : ∀ f ∈ files, ∃ g, At root ((components f.path).map Utf8.bytes) (.file g) := by
    intro f hf
    obtain ⟨c, -, hcopy⟩ := Except.exists_of_forall₂ (Except.mapM_eq_ok.1 hc.copied).flip hf
    obtain ⟨g, hg, -⟩ := openSnapshotFile_of_copied hcopy
    exact ⟨g, ((openSnapshotFile_eq_ok hdistinct).1 hg).2.1⟩
  -- a path below a file would have a directory there
  have hnot : ∀ f ∈ files, ∀ g ∈ files, f.path ≠ g.path → ¬ components f.path <+: components g.path := by
    rintro f hf g hg hne ⟨rest, hrest⟩
    obtain ⟨a, ha⟩ := hat f hf
    obtain ⟨b, hb⟩ := hat g hg
    rcases eq_or_ne rest [] with rfl | hrest'
    · exact hne (components_injective (by rw [← hrest, List.append_nil]))
    · rw [← hrest, List.map_append] at hb
      obtain ⟨es, hes, -⟩ := hb.exists_dir (by simpa using components_ne_nil f.path) (by simpa using hrest')
      cases At.unique hdistinct ha hes
  exact horder.pairwise.1.imp_of_mem fun hf hg hlt ↦
    ⟨hnot _ hf _ hg hlt.ne, hnot _ hg _ hf hlt.ne'⟩

/-- **A frame that was collected is restored**: the files are those of the tree, and the directories above
them belong to the agent. -/
theorem Collected.restore {paths : List String} {files : List File} {contents : List (List UInt8)}
    (hdistinct : Distinct root) (hc : Collected u h root paths files contents) :
    ∃ w, runSnapshotRestoreOnce u h [] .empty (frameOf files contents) = .ok w ∧
      (∀ p content x, w p = some (.file content x) ↔
        ∃ f, At root (p.map Utf8.bytes) (.file f) ∧ f.content = content ∧ f.executable = x) ∧
      ∀ p owner, w p = some (.dir owner) ↔ owner = .agent ∧ p ≠ [] ∧
        ∃ b ≠ [], ∃ f, At root ((p ++ b).map Utf8.bytes) (.file f) := by
  have hwrite : writeSnapshotFrame u h root ⟨snapshotSchema, files⟩ = .ok (frameOf files contents) :=
    writeSnapshotFrame_eq_ok.2 ⟨hc.canonical, contents, hc.copied, rfl⟩
  obtain ⟨bytes, hw⟩ := written_of_writeSnapshotFrame hwrite
  obtain rfl : contents.flatten = bytes :=
    List.append_cancel_left (List.append_cancel_left hw.frame)
  have hcopied := Except.mapM_eq_ok.1 hc.copied
  have hall : List.Forall₂ (fun f c ↦ c.length = f.sizeBytes ∧ h.sha256 c = f.sha256) files contents :=
    hcopied.imp fun f c hcopy ↦ copySnapshotFile_eq_ok hcopy
  obtain ⟨w₁, hrestore, hw₁⟩ := restoreFiles_eq_ok hall .empty (fun _ he ↦ absurd he List.not_mem_nil)
    (hc.apart hdistinct)
  rw [List.nil_append] at hw₁
  obtain ⟨w, hseal, hsealed⟩ := sealSnapshotDirectories_eq_ok hw₁ hcopied.length_eq
  refine ⟨w, ?_, fun p content x ↦ ?_, fun p owner ↦ ?_⟩
  · rw [hw.restore_eq, hrestore]
    simp only [Except.ok_bind, Except.require_pos, hseal]
  · rw [hsealed, map_sealed_eq_file, hw₁.file, hc.mem_zip hdistinct]
  · rw [hsealed, map_sealed_eq_dir]
    refine and_congr_right fun _ ↦ ?_
    simp only [hw₁.dir]
    constructor
    · rintro ⟨-, -, hp, e, he, b, hb, hpath⟩
      obtain ⟨f, hf, -⟩ := (hc.mem_zip hdistinct _ _ _).1 ⟨e, he, hpath, rfl, rfl⟩
      exact ⟨hp, b, hb, f, hf⟩
    · rintro ⟨hp, b, hb, f, hf⟩
      obtain ⟨e, he, hpath, -⟩ := (hc.mem_zip hdistinct _ _ _).2 ⟨f, hf, rfl, rfl⟩
      exact ⟨.root, rfl, hp, e, he, b, hb, hpath⟩

/-! ### Collecting again -/

/-- The tree is the restored workspace. -/
structure Shows (root : Entries) (w : Workspace) : Prop where
  distinct : Distinct root
  plain : ∀ path node, At root path node → (∃ p : List String, path = p.map Utf8.bytes) ∧ Plain node
  file : ∀ p f, At root (p.map Utf8.bytes) (.file f) ↔
    ∃ content x, w p = some (.file content x) ∧ f = sealedFile content x
  dir : ∀ p : List String, (∃ es, At root (p.map Utf8.bytes) (.dir es)) ↔ ∃ owner, w p = some (.dir owner)

theorem bytes_le_bytes_iff {p q : String} : Utf8.bytes p ≤ Utf8.bytes q ↔ p ≤ q := by
  rw [← List.not_lt, Utf8.bytes_lt_bytes_iff, not_lt]

theorem pairwise_sortedPaths {paths : List String} (hnodup : paths.Nodup) :
    (sortedPaths paths).Pairwise fun p q ↦ p < q := by
  have hsorted : (sortedPaths paths).Nodup := (List.perm_insertionSort _ paths).nodup_iff.2 hnodup
  have htotal : Std.Total fun p q : String ↦ Utf8.bytes p ≤ Utf8.bytes q :=
    ⟨fun p q ↦ by simpa only [bytes_le_bytes_iff] using le_total p q⟩
  have htrans : IsTrans String fun p q ↦ Utf8.bytes p ≤ Utf8.bytes q :=
    ⟨fun p q r ↦ by simpa only [bytes_le_bytes_iff] using le_trans⟩
  exact ((List.pairwise_insertionSort _ paths).and hsorted).imp fun hpq ↦
    lt_of_le_of_ne (bytes_le_bytes_iff.1 hpq.1) hpq.2

/-- The order of a manifest depends on which paths there are. -/
theorem sortedPaths_congr {paths paths' : List String} (hnodup : paths.Nodup) (hnodup' : paths'.Nodup)
    (h : ∀ p, p ∈ paths ↔ p ∈ paths') : sortedPaths paths = sortedPaths paths' := by
  have hperm : (sortedPaths paths).Perm (sortedPaths paths') :=
    (List.perm_insertionSort _ paths).trans (((List.perm_ext_iff_of_nodup hnodup hnodup').2 h).trans
      (List.perm_insertionSort _ paths').symm)
  exact List.Perm.eq_of_pairwise (fun p q _ _ hpq hqp ↦ absurd hpq hqp.asymm) (pairwise_sortedPaths hnodup)
    (pairwise_sortedPaths hnodup') hperm

section Again

variable {root' : Entries} {w : Workspace} {paths : List String} {files : List File}
  {contents : List (List UInt8)}
  (hdistinct : Distinct root) (hc : Collected u h root paths files contents) (hshows : Shows root' w)
  (hfile : ∀ p content x, w p = some (.file content x) ↔
    ∃ f, At root (p.map Utf8.bytes) (.file f) ∧ f.content = content ∧ f.executable = x)
  (hdir : ∀ p owner, w p = some (.dir owner) ↔ owner = .agent ∧ p ≠ [] ∧
    ∃ b ≠ [], ∃ f, At root ((p ++ b).map Utf8.bytes) (.file f))

include hshows hfile in
/-- The files of the two trees differ in their modes only. -/
theorem Shows.at_file {p : List String} {f : RegularFile} (hat : At root (p.map Utf8.bytes) (.file f)) :
    At root' (p.map Utf8.bytes) (.file (sealedFile f.content f.executable)) :=
  (hshows.file p _).2 ⟨_, _, (hfile p f.content f.executable).2 ⟨f, hat, rfl, rfl⟩, rfl⟩

include hdistinct hshows hfile in
theorem Shows.openSnapshotFile {path : String} {f : RegularFile}
    (hok : openSnapshotFile root path = .ok f) :
    Frame.openSnapshotFile root' path = .ok (sealedFile f.content f.executable) := by
  obtain ⟨hparts, hat, -⟩ := (openSnapshotFile_eq_ok hdistinct).1 hok
  exact (openSnapshotFile_eq_ok hshows.distinct).2 ⟨hparts, hshows.at_file hfile hat, rfl, rfl⟩

include hc hshows hfile hdir in
/-- The walk goes through the restored tree. -/
theorem Shows.walkable : Walkable u [] root' := by
  obtain ⟨hwalk, -⟩ := walk_spec (checked_nil u) hc.walked
  intro path node hnode
  obtain ⟨⟨p, rfl⟩, hplain⟩ := hshows.plain path node hnode
  refine ⟨p, rfl, ?_, hplain⟩
  cases hplain with
  | file f =>
    obtain ⟨content, x, hw, -⟩ := (hshows.file p f).1 hnode
    obtain ⟨g, hg, -⟩ := (hfile p content x).1 hw
    exact hwalk.checked hg
  | dir es =>
    obtain ⟨owner, hw⟩ := (hshows.dir p).1 ⟨es, hnode⟩
    obtain ⟨-, -, b, -, f, hf⟩ := (hdir p owner).1 hw
    exact Checked.of_append (q := b) (hwalk.checked hf)

include hdistinct hc hshows hfile hdir in
/-- **The restored tree is collected to the same frame.** -/
theorem Shows.collected : ∃ paths', Collected u h root' paths' files contents := by
  obtain ⟨paths', hpaths'⟩ := exists_collectSnapshotPaths (checked_nil u)
    (hshows.walkable hc hfile hdir)
  have hopen {path : String} {f : RegularFile} := @Shows.openSnapshotFile _ _ _ hdistinct hshows hfile path f
  have hsorted : sortedPaths paths' = sortedPaths paths := by
    refine sortedPaths_congr (nodup_collectSnapshotPaths hshows.distinct (checked_nil u) hpaths')
      (nodup_collectSnapshotPaths hdistinct (checked_nil u) hc.walked) fun path ↦ ?_
    rw [(walk_spec (checked_nil u) hpaths').2, (walk_spec (checked_nil u) hc.walked).2]
    constructor
    · rintro ⟨p, f, hf, rfl⟩
      obtain ⟨content, x, hw, -⟩ := (hshows.file p f).1 hf
      obtain ⟨g, hg, -⟩ := (hfile p content x).1 hw
      exact ⟨p, g, hg, rfl⟩
    · rintro ⟨p, f, hf, rfl⟩
      exact ⟨p, _, hshows.at_file hfile hf, rfl⟩
  refine ⟨paths', hpaths', ?_, hc.ne_nil, hc.canonical, ?_⟩
  · rw [hsorted]
    refine Except.mapM_eq_ok.2 ((Except.mapM_eq_ok.1 hc.described).imp fun path f hmeta ↦ ?_)
    obtain ⟨g, hg, hsize, rfl⟩ := snapshotFileMetadata_eq_ok hmeta
    rw [snapshotFileMetadata, hopen hg, Except.ok_bind, executable_sealedFile]
    exact Except.require_bind.2 ⟨hsize, rfl⟩
  · refine Except.mapM_eq_ok.2 ((Except.mapM_eq_ok.1 hc.copied).imp fun f c hcopy ↦ ?_)
    obtain ⟨g, hg, rfl, hx, hsize, hsha⟩ := openSnapshotFile_of_copied hcopy
    rw [copySnapshotFile, hopen hg, Except.ok_bind, executable_sealedFile]
    exact Except.require_bind.2 ⟨⟨hsize, hx⟩, Except.require_bind.2 ⟨hsha, rfl⟩⟩

end Again

end Collected

/-! ### The tree that is restored -/

mutual

/-- A node as it is restored, if there are files in it. -/
def restoredNode : Node → Option Node
  | .file f => some (.file (sealedFile f.content f.executable))
  | .dir es => if restoredTree es = [] then none else some (.dir (restoredTree es))
  | .symlink => none
  | .other => none

/-- The tree that is restored from the frame of a tree. -/
def restoredTree : List (List UInt8 × Node) → List (List UInt8 × Node)
  | [] => []
  | (name, node) :: entries => ((restoredNode node).map fun n ↦ (name, n)).toList ++ restoredTree entries

end

theorem mem_restoredTree {entries : Entries} {name : List UInt8} {node : Node} :
    (name, node) ∈ restoredTree entries ↔ ∃ n, (name, n) ∈ entries ∧ restoredNode n = some node := by
  induction entries with
  | nil => simp [restoredTree]
  | cons e entries ih =>
    obtain ⟨name', n'⟩ := e
    rw [restoredTree, List.mem_append, ih, Option.mem_toList, Option.map_eq_some_iff]
    constructor
    · rintro (⟨n, hn, heq⟩ | ⟨n, hmem, hn⟩)
      · obtain ⟨rfl, rfl⟩ := Prod.mk.inj heq
        exact ⟨n', List.mem_cons_self, hn⟩
      · exact ⟨n, List.mem_cons_of_mem _ hmem, hn⟩
    · rintro ⟨n, hmem, hn⟩
      rcases List.mem_cons.1 hmem with heq | hmem
      · obtain ⟨rfl, rfl⟩ := Prod.mk.inj heq
        exact .inl ⟨node, hn, rfl⟩
      · exact .inr ⟨n, hmem, hn⟩

theorem restoredNode_eq_dir {n : Node} {es' : Entries} : restoredNode n = some (.dir es') ↔
    ∃ es, n = .dir es ∧ es' = restoredTree es ∧ restoredTree es ≠ [] := by
  cases n with
  | dir es =>
    rw [restoredNode]
    split
    · next hnil =>
      refine iff_of_false (by simp) ?_
      rintro ⟨es, ⟨⟩, -, hne⟩
      exact hne hnil
    · next hne =>
      constructor
      · rintro ⟨⟩
        exact ⟨es, rfl, rfl, hne⟩
      · rintro ⟨es, ⟨⟩, rfl, -⟩
        rfl
  | _ => simp [restoredNode]

theorem restoredNode_eq_file {n : Node} {f : RegularFile} : restoredNode n = some (.file f) ↔
    ∃ g, n = .file g ∧ f = sealedFile g.content g.executable := by
  cases n with
  | dir es =>
    rw [restoredNode]
    split <;> simp
  | file g => simp [restoredNode, eq_comm]
  | _ => simp [restoredNode]

/-- The nodes of the restored tree. -/
theorem at_restoredTree {entries : Entries} {path : List (List UInt8)} {node : Node} :
    At (restoredTree entries) path node ↔ ∃ n, At entries path n ∧ restoredNode n = some node := by
  induction path generalizing entries with
  | nil => exact iff_of_false (fun h ↦ h.ne_nil rfl) fun ⟨_, h, _⟩ ↦ h.ne_nil rfl
  | cons name path ih =>
    constructor
    · intro h
      cases h with
      | here hmem =>
        obtain ⟨n, hn, hnode⟩ := mem_restoredTree.1 hmem
        exact ⟨n, .here hn, hnode⟩
      | inside hmem hinside =>
        obtain ⟨n, hn, hdir⟩ := mem_restoredTree.1 hmem
        obtain ⟨es, rfl, rfl, -⟩ := restoredNode_eq_dir.1 hdir
        obtain ⟨m, hm, hnode⟩ := ih.1 hinside
        exact ⟨m, .inside hn hm, hnode⟩
    · rintro ⟨n, hn, hnode⟩
      cases hn with
      | here hmem => exact .here (mem_restoredTree.2 ⟨n, hmem, hnode⟩)
      | @inside _ es _ _ _ hmem hinside =>
        have hrest := ih.2 ⟨n, hinside, hnode⟩
        refine .inside (mem_restoredTree.2 ⟨.dir es, hmem, restoredNode_eq_dir.2 ⟨es, rfl, rfl, ?_⟩⟩) hrest
        intro hnil
        rw [hnil] at hrest
        obtain ⟨e, he, -⟩ := hrest.exists_head
        exact absurd he List.not_mem_nil

/-- What is restored of a directory has a file in it. -/
theorem restoredTree_ne_nil_iff {entries : Entries} :
    restoredTree entries ≠ [] ↔ ∃ path f, At entries path (.file f) := by
  constructor
  · induction entries using Entries.induction with
    | step entries ih =>
      intro hne
      obtain ⟨⟨name, node⟩, hmem⟩ := List.exists_mem_of_ne_nil _ hne
      obtain ⟨n, hn, hnode⟩ := mem_restoredTree.1 hmem
      cases n with
      | file f => exact ⟨[name], f, .here hn⟩
      | dir es =>
        rw [restoredNode] at hnode
        split at hnode
        · cases hnode
        · next hes =>
          obtain ⟨path, f, hf⟩ := ih name es hn hes
          exact ⟨name :: path, f, .inside hn hf⟩
      | symlink => simp [restoredNode] at hnode
      | other => simp [restoredNode] at hnode
  · rintro ⟨path, f, hf⟩ hnil
    have hat := at_restoredTree.2 ⟨_, hf, restoredNode_eq_file.2 ⟨f, rfl, rfl⟩⟩
    rw [hnil] at hat
    obtain ⟨e, he, -⟩ := hat.exists_head
    exact absurd he List.not_mem_nil

theorem names_restoredTree (entries : Entries) :
    ((restoredTree entries).map Prod.fst).Sublist (entries.map Prod.fst) := by
  induction entries with
  | nil => exact .slnil
  | cons e entries ih =>
    obtain ⟨name, node⟩ := e
    rw [restoredTree]
    cases restoredNode node with
    | none => exact ih.cons name
    | some n => exact ih.cons_cons name

theorem distinct_restoredTree {entries : Entries} (h : Distinct entries) : Distinct (restoredTree entries) where
  here := h.here.sublist (names_restoredTree entries)
  below := by
    intro path es hes
    obtain ⟨n, hn, hnode⟩ := at_restoredTree.1 hes
    obtain ⟨es', rfl, rfl, -⟩ := restoredNode_eq_dir.1 hnode
    exact (h.below path es' hn).sublist (names_restoredTree es')

/-- The restored tree is one of the restored workspace. -/
theorem shows_restoredTree {u : Unicode} {root : Entries} {w : Workspace} (hdistinct : Distinct root)
    (hwalk : Walkable u [] root)
    (hfile : ∀ p content x, w p = some (.file content x) ↔
      ∃ f, At root (p.map Utf8.bytes) (.file f) ∧ f.content = content ∧ f.executable = x)
    (hdir : ∀ p owner, w p = some (.dir owner) ↔ owner = .agent ∧ p ≠ [] ∧
      ∃ b ≠ [], ∃ f, At root ((p ++ b).map Utf8.bytes) (.file f)) :
    Shows (restoredTree root) w where
  distinct := distinct_restoredTree hdistinct
  plain := by
    intro path node hnode
    obtain ⟨n, hn, heq⟩ := at_restoredTree.1 hnode
    obtain ⟨p, hp, -, hplain⟩ := hwalk path n hn
    refine ⟨⟨p, hp⟩, ?_⟩
    cases hplain with
    | file f =>
      cases heq
      exact .file _
    | dir es =>
      rw [restoredNode] at heq
      split at heq <;> cases heq
      exact .dir _
  file := by
    intro p f
    rw [at_restoredTree]
    constructor
    · rintro ⟨n, hn, heq⟩
      obtain ⟨g, rfl, rfl⟩ := restoredNode_eq_file.1 heq
      exact ⟨_, _, (hfile p g.content g.executable).2 ⟨g, hn, rfl, rfl⟩, rfl⟩
    · rintro ⟨content, x, hw, rfl⟩
      obtain ⟨g, hg, rfl, rfl⟩ := (hfile p content x).1 hw
      exact ⟨_, hg, restoredNode_eq_file.2 ⟨g, rfl, rfl⟩⟩
  dir := by
    intro p
    constructor
    · rintro ⟨es, hes⟩
      obtain ⟨n, hn, heq⟩ := at_restoredTree.1 hes
      obtain ⟨es', rfl, rfl, hne⟩ := restoredNode_eq_dir.1 heq
      obtain ⟨path, f, hf⟩ := restoredTree_ne_nil_iff.1 hne
      have hat := hn.trans hf
      obtain ⟨q, hq, -⟩ := hwalk _ _ hat
      obtain ⟨a, b, rfl, ha, rfl⟩ := List.map_eq_append_iff.1 hq.symm
      obtain rfl := List.map_injective_iff.2 Utf8.bytes_injective ha
      refine ⟨.agent, (hdir _ _).2 ⟨rfl, hn.map_ne_nil, b, hf.map_ne_nil, f, ?_⟩⟩
      rw [List.map_append]
      exact hat
    · rintro ⟨owner, hw⟩
      obtain ⟨-, hp, b, hb, f, hf⟩ := (hdir p owner).1 hw
      rw [List.map_append] at hf
      obtain ⟨es, hes, hrest⟩ := hf.exists_dir (by simpa using hp) (by simpa using hb)
      exact ⟨restoredTree es, at_restoredTree.2 ⟨.dir es, hes, restoredNode_eq_dir.2
        ⟨es, rfl, rfl, restoredTree_ne_nil_iff.2 ⟨_, f, hrest⟩⟩⟩⟩

theorem distinct_oneFile (name : String) : Distinct (oneFile name) where
  here := List.nodup_singleton _
  below := by
    intro path es hes
    cases (at_file_iff.1 hes).2

end Centaeris.Frame
