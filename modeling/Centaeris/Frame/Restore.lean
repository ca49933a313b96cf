import Mathlib.Data.List.Infix
import Mathlib.Data.List.Dedup
import Centaeris.Base.Lines
import Centaeris.Frame.Collect

/-!
# Restoring a snapshot

The sandbox agent restores a frame into an empty workspace (`run_snapshot_restore_once`): it reads the
manifest, creates the directories above each file and the file itself, and gives the directories to the
agent's user at the end.

The agent reads the manifest as a struct, whose keys have one order, and it needs a tree in which no file
stands where another one needs a directory. The API asks for neither: it accepts the keys of an object in
any order, and compares a path with its neighbour only. A frame that it has accepted is restored when the
keys are in the order of the structs and no path is a directory of another one (`stored_restored`).
-/

namespace Centaeris.Frame

open Contract (Unicode IsSha256 isWorkspaceSha256 components)

/-- The owner of a directory. -/
inductive Owner
  | root
  | agent
  deriving DecidableEq

/-- A node that is restored; directories have the mode `0o755`. -/
inductive Restored
  | dir (owner : Owner)
  | file (content : List UInt8) (executable : Bool)
  deriving DecidableEq

/-- The nodes below `/mnt/data`, by the components of their paths. -/
def Workspace : Type := List String → Option Restored

/-- A workspace without a node. -/
def Workspace.empty : Workspace := fun _ ↦ none

/-- The workspace with one node more. -/
def Workspace.set (w : Workspace) (path : List String) (node : Restored) : Workspace :=
  fun p ↦ if p = path then some node else w p

@[simp] theorem Workspace.set_self (w : Workspace) (path : List String) (node : Restored) :
    w.set path node path = some node := if_pos rfl

theorem Workspace.set_of_ne (w : Workspace) {path p : List String} (node : Restored) (hne : p ≠ path) :
    w.set path node p = w p := if_neg hne

/-! ### The agent -/

/-- `Read::read_exact`. -/
def readExactOr (error : String) (n : Nat) (source : List UInt8) :
    Except String (List UInt8 × List UInt8) :=
  if n ≤ source.length then .ok (source.take n, source.drop n) else .error error

theorem readExactOr_eq_ok {error : String} {n : Nat} {source : List UInt8}
    {result : List UInt8 × List UInt8} : readExactOr error n source = .ok result ↔
      n ≤ source.length ∧ (source.take n, source.drop n) = result := by
  rw [readExactOr]
  split
  · next hle => simp [hle]
  · next hle => simp [hle]

/-- `create_snapshot_directories`, from a directory on. -/
def createSnapshotDirectories (w : Workspace) (current : List String) :
    List String → Except String Workspace
  | [] => .ok w
  | component :: rest =>
    match w (current ++ [component]) with
    | some (.dir .root) => createSnapshotDirectories w (current ++ [component]) rest
    | some _ => .error "snapshot restore parent contains an unsupported node"
    | none => createSnapshotDirectories (w.set (current ++ [component]) (.dir .root))
        (current ++ [component]) rest

/-- `restore_snapshot_file`. -/
def restoreSnapshotFile (h : Hash) (w : Workspace) (f : File) (source : List UInt8) :
    Except String (Workspace × List UInt8) := do
  let w ← createSnapshotDirectories w [] (components f.path).dropLast
  Except.require (w (components f.path) = none) "snapshot restore target already exists"
  let (content, source) ← readExactOr "read snapshot file bytes failed" f.sizeBytes source
  Except.require (h.sha256 content = f.sha256) "snapshot restore file integrity mismatch"
  return (w.set (components f.path) (.file content f.executable), source)

/-- `snapshot_paths_conflict`. -/
def snapshotPathsConflict (left right : String) : Bool :=
  left == right || isBelow right left || isBelow left right

/-- The loop of `run_snapshot_restore_once` over the files. -/
def restoreFiles (h : Hash) (inputs : List String) (w : Workspace) :
    List File → List UInt8 → Except String (Workspace × List UInt8)
  | [], source => .ok (w, source)
  | f :: files, source => do
    Except.require (∀ input ∈ inputs, snapshotPathsConflict f.path input = false)
      "snapshot path conflicts with a materialized input"
    let (w, source) ← restoreSnapshotFile h w f source
    restoreFiles h inputs w files source

/-- The directories above a file. -/
def parents (path : List String) : List (List String) := path.dropLast.inits.filter fun p ↦ p ≠ []

/-- The loop of `seal_snapshot_directories`; every directory is sealed by itself, so their order has no
effect. -/
def sealDirectories (w : Workspace) : List (List String) → Except String Workspace
  | [] => .ok w
  | path :: rest => do
    Except.require (w path = some (.dir .root)) "snapshot restore parent final ownership is invalid"
    sealDirectories (w.set path (.dir .agent)) rest

/-- `seal_snapshot_directories`. -/
def sealSnapshotDirectories (w : Workspace) (m : Manifest) : Except String Workspace :=
  sealDirectories w (m.files.flatMap fun f ↦ parents (components f.path)).dedup

/-- `run_snapshot_restore_once`, with the paths of the inventory. -/
def runSnapshotRestoreOnce (u : Unicode) (h : Hash) (inputs : List String) (w : Workspace)
    (frame : List UInt8) : Except String Workspace := do
  let (header, source) ← readExactOr "read snapshot manifest length failed" 4 frame
  Except.require (0 < fromBeBytes header ∧ fromBeBytes header ≤ manifestLimit)
    "snapshot manifest length is invalid"
  let (manifestBytes, source) ← readExactOr "read snapshot manifest failed" (fromBeBytes header) source
  let manifest ← Except.okOr (Manifest.fromSlice manifestBytes) "decode snapshot manifest failed"
  let canonical ← canonicalSnapshotManifestBytes u manifest
  Except.require (canonical = manifestBytes) "snapshot manifest is not canonical"
  let (w, trailing) ← restoreFiles h inputs w manifest.files source
  Except.require (trailing = []) "snapshot frame has trailing bytes"
  sealSnapshotDirectories w manifest

/-! ### Paths as lists of components -/

/-- Paths of which neither is, or is a directory above, the other one. -/
def Apart (p q : List String) : Prop := ¬ p <+: q ∧ ¬ q <+: p

theorem components_ne_nil (path : String) : components path ≠ [] := by
  simp [components, List.splitOn]

/-- A path is its components with slashes between them. -/
theorem toList_eq_intercalate (path : String) :
    path.toList = ['/'].intercalate ((components path).map String.toList) := by
  have hmap : (components path).map String.toList = path.toList.splitOn '/' := by
    rw [components, List.map_map]
    exact List.map_id'' (fun l ↦ String.toList_ofList) _
  rw [hmap, List.intercalate_splitOn]

theorem components_injective {p q : String} (h : components p = components q) : p = q := by
  rw [← String.toList_inj, toList_eq_intercalate p, toList_eq_intercalate q, h]

/-- A path whose components start with those of another one is below that one, or is it. -/
theorem eq_or_isBelow_of_prefix {p q : String} (h : components p <+: components q) :
    p = q ∨ isBelow p q = true := by
  obtain ⟨rest, hrest⟩ := h
  rcases eq_or_ne rest [] with rfl | hne
  · exact .inl (components_injective (by rw [← hrest, List.append_nil]))
  · refine .inr (isBelow_iff.2 ⟨['/'].intercalate (rest.map String.toList), ?_⟩)
    rw [toList_eq_intercalate q, ← hrest, List.map_append,
      Lines.intercalate_append (by simpa using components_ne_nil p) (by simpa using hne),
      ← toList_eq_intercalate]

/-! ### One file -/

variable {u : Unicode} {h : Hash} {w : Workspace}

/-- Directories are created where nothing stands, and the rest stays. -/
theorem createSnapshotDirectories_eq_ok {current rest : List String}
    (hfree : ∀ a b, rest = a ++ b → a ≠ [] →
      w (current ++ a) = none ∨ w (current ++ a) = some (.dir .root)) :
    ∃ w', createSnapshotDirectories w current rest = .ok w' ∧
      (∀ a b, rest = a ++ b → a ≠ [] → w' (current ++ a) = some (.dir .root)) ∧
      ∀ p, (∀ a b, rest = a ++ b → a ≠ [] → p ≠ current ++ a) → w' p = w p := by
  induction rest generalizing w current with
  | nil =>
    refine ⟨w, rfl, fun a b hab ha ↦ ?_, fun _ _ ↦ rfl⟩
    exact absurd (List.append_eq_nil_iff.1 hab.symm).1 ha
  | cons c rest ih =>
    -- the first directory is there or is created; the others are found below it
    obtain ⟨w₁, hw₁, hself, hother⟩ : ∃ w₁ : Workspace, createSnapshotDirectories w current (c :: rest) =
        createSnapshotDirectories w₁ (current ++ [c]) rest ∧
        w₁ (current ++ [c]) = some (.dir .root) ∧ ∀ p, p ≠ current ++ [c] → w₁ p = w p := by
      rcases hfree [c] rest rfl (by simp) with hnone | hdir
      · exact ⟨w.set (current ++ [c]) (.dir .root), by rw [createSnapshotDirectories, hnone],
          w.set_self _ _, fun p hp ↦ w.set_of_ne _ hp⟩
      · exact ⟨w, by rw [createSnapshotDirectories, hdir], hdir, fun _ _ ↦ rfl⟩
    have hne (a : List String) (ha : a ≠ []) : current ++ [c] ++ a ≠ current ++ [c] := by
      simpa using ha
    obtain ⟨w', hw', hdirs, hsame⟩ := @ih w₁ (current ++ [c]) fun a b hab ha ↦ by
      rw [hother _ (hne a ha), List.append_assoc]
      exact hfree (c :: a) b (by rw [hab]; rfl) (by simp)
    refine ⟨w', hw₁.trans hw', ?_, ?_⟩
    · rintro (_ | ⟨c', a⟩) b hab ha
      · exact absurd rfl ha
      · obtain ⟨rfl, hrest⟩ := List.cons.inj hab
        rcases eq_or_ne a [] with rfl | ha
        · rw [hsame _ fun a b _ ha ↦ (hne a ha).symm]
          exact hself
        · rw [show current ++ c :: a = current ++ [c] ++ a by simp]
          exact hdirs a b hrest ha
    · intro p hp
      rw [hsame p fun a b hab ha ↦ ?_, hother p (hp [c] rest rfl (by simp))]
      rw [List.append_assoc]
      exact hp (c :: a) b (by rw [hab]; rfl) (by simp)

/-- What has been restored so far: the files, and the directories above them. -/
structure Holds (w : Workspace) (restored : List (File × List UInt8)) : Prop where
  file : ∀ p content x, w p = some (.file content x) ↔
    ∃ e ∈ restored, components e.1.path = p ∧ e.2 = content ∧ e.1.executable = x
  dir : ∀ p owner, w p = some (.dir owner) ↔
    owner = .root ∧ p ≠ [] ∧ ∃ e ∈ restored, ∃ b ≠ [], components e.1.path = p ++ b

theorem Holds.empty : Holds .empty [] where
  file := by simp [Workspace.empty]
  dir := by simp [Workspace.empty]

theorem exists_dropLast_eq_append {α : Type} {l p : List α} (hl : l ≠ []) :
    (∃ b, l.dropLast = p ++ b) ↔ ∃ b ≠ [], l = p ++ b := by
  constructor
  · rintro ⟨b, hb⟩
    exact ⟨b ++ [l.getLast hl], by simp, by rw [← List.append_assoc, ← hb, List.dropLast_append_getLast]⟩
  · rintro ⟨b, hb, rfl⟩
    exact ⟨b.dropLast, List.dropLast_append_of_ne_nil hb⟩

/-- A file that is apart from what is there is restored with its directories. -/
theorem restoreSnapshotFile_eq_ok {restored : List (File × List UInt8)} {f : File}
    {content : List UInt8} (source : List UInt8) (hw : Holds w restored)
    (hapart : ∀ e ∈ restored, Apart (components e.1.path) (components f.path))
    (hlength : content.length = f.sizeBytes) (hsha : h.sha256 content = f.sha256) :
    ∃ w', restoreSnapshotFile h w f (content ++ source) = .ok (w', source) ∧
      Holds w' (restored ++ [(f, content)]) := by
  have hfile (p : List String) (hp : p <+: components f.path) (c : List UInt8) (x : Bool) :
      w p ≠ some (.file c x) := fun hwp ↦ by
    obtain ⟨e, he, hpath, -⟩ := (hw.file p c x).1 hwp
    exact (hapart e he).1 (hpath ▸ hp)
  obtain ⟨w₁, hcreate, hdirs, hsame⟩ := @createSnapshotDirectories_eq_ok w [] (components f.path).dropLast
    fun a b hab _ ↦ by
      cases hwa : w ([] ++ a) with
      | none => exact .inl rfl
      | some node =>
        cases node with
        | dir owner => exact .inr (by rw [((hw.dir _ owner).1 hwa).1])
        | file c x =>
          exact absurd hwa (hfile a (List.IsPrefix.trans ⟨b, hab.symm⟩ (List.dropLast_prefix _)) c x)
  simp only [List.nil_append] at hdirs hsame
  -- nothing stands at the target, and no directory was made there
  have htarget : w₁ (components f.path) = none := by
    rw [hsame _ fun a b hab _ heq ↦ ?_]
    · cases hwp : w (components f.path) with
      | none => rfl
      | some node =>
        cases node with
        | dir owner =>
          obtain ⟨-, -, e, he, b, -, hpath⟩ := (hw.dir _ owner).1 hwp
          exact absurd ⟨b, hpath.symm⟩ (hapart e he).2
        | file c x => exact absurd hwp (hfile _ (List.prefix_refl _) c x)
    · have hlength := congrArg List.length hab
      have hpos := List.length_pos_iff.2 (components_ne_nil f.path)
      rw [List.length_dropLast, List.length_append, ← heq] at hlength
      omega
  have hparent {p : List String} : (∃ b, (components f.path).dropLast = p ++ b) ↔
      ∃ b ≠ [], components f.path = p ++ b := exists_dropLast_eq_append (components_ne_nil f.path)
  -- a node is the new file, a directory above it, or as it was
  have hnode (p : List String) : p = components f.path ∨
      p ≠ components f.path ∧
        ((p ≠ [] ∧ (∃ b ≠ [], components f.path = p ++ b) ∧ w₁ p = some (.dir .root)) ∨
          (¬ (p ≠ [] ∧ ∃ b ≠ [], components f.path = p ++ b) ∧ w₁ p = w p)) := by
    rcases eq_or_ne p (components f.path) with hp | hp
    · exact .inl hp
    refine .inr ⟨hp, ?_⟩
    by_cases habove : p ≠ [] ∧ ∃ b ≠ [], components f.path = p ++ b
    · obtain ⟨b, hb⟩ := hparent.2 habove.2
      exact .inl ⟨habove.1, habove.2, hdirs p b hb habove.1⟩
    · exact .inr ⟨habove, hsame p fun a b hab ha hpa ↦ habove (hpa ▸ ⟨ha, hparent.1 ⟨b, hab⟩⟩)⟩
  refine ⟨w₁.set (components f.path) (.file content f.executable), ?_, ?_, ?_⟩
  · rw [restoreSnapshotFile, hcreate, Except.ok_bind, Except.require_pos htarget, Except.ok_bind, readExactOr,
      if_pos (by rw [List.length_append]; omega), List.take_left' hlength, List.drop_left' hlength]
    simp only [Except.ok_bind, Except.require_pos hsha]
    rfl
  · intro p c x
    simp only [List.mem_append, List.mem_singleton]
    rcases hnode p with rfl | ⟨hp, ⟨-, ⟨b, -, hb⟩, hdir⟩ | ⟨-, heq⟩⟩
    · rw [Workspace.set_self]
      constructor
      · rintro ⟨⟩
        exact ⟨(f, content), .inr rfl, rfl, rfl, rfl⟩
      · rintro ⟨e, he | rfl, hpath, rfl, rfl⟩
        · exact absurd (hpath ▸ List.prefix_refl _) (hapart e he).1
        · rfl
    · rw [w₁.set_of_ne _ hp, hdir]
      refine iff_of_false (by simp) ?_
      rintro ⟨e, he | rfl, hpath, -⟩
      · exact (hapart e he).1 ⟨b, by rw [hpath, hb]⟩
      · exact hp hpath.symm
    · rw [w₁.set_of_ne _ hp, heq, hw.file]
      constructor
      · rintro ⟨e, he, hpath⟩
        exact ⟨e, .inl he, hpath⟩
      · rintro ⟨e, he | rfl, hpath⟩
        · exact ⟨e, he, hpath⟩
        · exact absurd hpath.1.symm hp
  · intro p owner
    simp only [List.mem_append, List.mem_singleton]
    rcases hnode p with rfl | ⟨hp, ⟨hne, ⟨b, hb, hpath⟩, hdir⟩ | ⟨hno, heq⟩⟩
    · rw [Workspace.set_self]
      refine iff_of_false (by simp) ?_
      rintro ⟨-, -, e, he | rfl, b, hb, hpath⟩
      · exact (hapart e he).2 ⟨b, hpath.symm⟩
      · exact hb (List.self_eq_append_right.1 hpath)
    · rw [w₁.set_of_ne _ hp, hdir]
      constructor
      · rintro ⟨⟩
        exact ⟨rfl, hne, (f, content), .inr rfl, b, hb, hpath⟩
      · rintro ⟨rfl, -⟩
        rfl
    · rw [w₁.set_of_ne _ hp, heq, hw.dir]
      constructor
      · rintro ⟨howner, hne, e, he, hpath⟩
        exact ⟨howner, hne, e, .inl he, hpath⟩
      · rintro ⟨howner, hne, e, he | rfl, hpath⟩
        · exact ⟨howner, hne, e, he, hpath⟩
        · exact absurd ⟨hne, hpath⟩ hno

/-! ### The whole frame -/

/-- Files that are apart from each other are restored one after the other. -/
theorem restoreFiles_eq_ok {files : List File} {contents : List (List UInt8)}
    {restored : List (File × List UInt8)}
    (hall : List.Forall₂ (fun f c ↦ c.length = f.sizeBytes ∧ h.sha256 c = f.sha256) files contents)
    (hw : Holds w restored)
    (hrestored : ∀ e ∈ restored, ∀ f ∈ files, Apart (components e.1.path) (components f.path))
    (hapart : files.Pairwise fun f g ↦ Apart (components f.path) (components g.path)) :
    ∃ w', restoreFiles h [] w files contents.flatten = .ok (w', []) ∧
      Holds w' (restored ++ files.zip contents) := by
  induction hall generalizing w restored with
  | nil => exact ⟨w, rfl, by simpa using hw⟩
  | @cons f c files contents hfc _ ih =>
    rw [List.pairwise_cons] at hapart
    obtain ⟨w₁, hfile, hw₁⟩ := restoreSnapshotFile_eq_ok contents.flatten hw
      (fun e he ↦ hrestored e he f List.mem_cons_self) hfc.1 hfc.2
    obtain ⟨w', hfiles, hw'⟩ := ih hw₁ (fun e he g hg ↦ by
      rcases List.mem_append.1 he with he | he
      · exact hrestored e he g (List.mem_cons_of_mem _ hg)
      · rw [List.mem_singleton.1 he]
        exact hapart.1 g hg) hapart.2
    refine ⟨w', ?_, by simpa using hw'⟩
    rw [restoreFiles, Except.require_pos (by simp), Except.ok_bind, List.flatten_cons, hfile, Except.ok_bind]
    exact hfiles

/-- Sealing gives the directories to the agent and changes nothing else. -/
theorem sealDirectories_eq_ok {paths : List (List String)} (hnodup : paths.Nodup)
    (hdirs : ∀ p ∈ paths, w p = some (.dir .root)) :
    ∃ w', sealDirectories w paths = .ok w' ∧ ∀ p, w' p = if p ∈ paths then some (.dir .agent) else w p := by
  induction paths generalizing w with
  | nil => exact ⟨w, rfl, fun p ↦ (if_neg List.not_mem_nil).symm⟩
  | cons path paths ih =>
    rw [List.nodup_cons] at hnodup
    have hpath := hdirs path List.mem_cons_self
    obtain ⟨w', hseal, hnode⟩ := @ih (w.set path (.dir .agent)) hnodup.2 fun p hp ↦ by
      have hne : p ≠ path := by
        rintro rfl
        exact hnodup.1 hp
      rw [w.set_of_ne _ hne]
      exact hdirs p (List.mem_cons_of_mem _ hp)
    refine ⟨w', by rw [sealDirectories, Except.require_pos hpath, Except.ok_bind, hseal], fun p ↦ ?_⟩
    rw [hnode]
    rcases eq_or_ne p path with rfl | hne
    · rw [if_neg hnodup.1, Workspace.set_self, if_pos List.mem_cons_self]
    · rw [w.set_of_ne _ hne]
      exact if_congr (by simp [hne]) rfl rfl

/-- Paths in order are all different, and all in order. -/
theorem InOrder.pairwise {previous : Option String} {files : List File} (hin : InOrder previous files) :
    files.Pairwise (fun f g ↦ f.path < g.path) ∧ ∀ p ∈ previous, ∀ f ∈ files, p < f.path := by
  induction files generalizing previous with
  | nil => exact ⟨.nil, fun _ _ _ hf ↦ absurd hf List.not_mem_nil⟩
  | cons f files ih =>
    obtain ⟨hpairwise, hlt⟩ := ih hin.2
    refine ⟨List.pairwise_cons.2 ⟨fun g hg ↦ hlt f.path rfl g hg, hpairwise⟩, fun p hp g hg ↦ ?_⟩
    have hpf := (hin.1 p hp).1
    rcases List.mem_cons.1 hg with rfl | hg
    · exact hpf
    · exact hpf.trans (hlt f.path rfl g hg)

/-- No file of the manifest stands where another one needs a directory. -/
def Separate (files : List File) : Prop := ∀ f ∈ files, ∀ g ∈ files, isBelow f.path g.path = false

instance (files : List File) : Decidable (Separate files) :=
  inferInstanceAs (Decidable (∀ f ∈ files, ∀ g ∈ files, isBelow f.path g.path = false))

theorem Separate.pairwise_apart {files : List File} (hseparate : Separate files)
    (hin : InOrder none files) :
    files.Pairwise fun f g ↦ Apart (components f.path) (components g.path) := by
  refine hin.pairwise.1.imp_of_mem fun {f g} hf hg hlt ↦ ⟨fun hpre ↦ ?_, fun hpre ↦ ?_⟩
  · rcases eq_or_isBelow_of_prefix hpre with heq | hbelow
    · exact absurd hlt (heq ▸ lt_irrefl _)
    · exact absurd hbelow (by simp [hseparate f hf g hg])
  · rcases eq_or_isBelow_of_prefix hpre with heq | hbelow
    · exact absurd hlt (heq ▸ lt_irrefl _)
    · exact absurd hbelow (by simp [hseparate g hg f hf])

theorem exists_mem_zip {files : List File} {contents : List (List UInt8)} {f : File}
    (hlength : files.length = contents.length) (hf : f ∈ files) : ∃ c, (f, c) ∈ files.zip contents := by
  rw [← List.map_fst_zip (Nat.le_of_eq hlength), List.mem_map] at hf
  obtain ⟨⟨f, c⟩, hmem, rfl⟩ := hf
  exact ⟨c, hmem⟩

/-- A node with its directory given to the agent. -/
def Restored.sealed : Restored → Restored
  | .dir _ => .dir .agent
  | .file content x => .file content x

/-- The directories above the restored files are sealed. -/
theorem sealSnapshotDirectories_eq_ok {files : List File} {contents : List (List UInt8)}
    (hw : Holds w (files.zip contents)) (hlength : files.length = contents.length) :
    ∃ w', sealSnapshotDirectories w ⟨snapshotSchema, files⟩ = .ok w' ∧
      ∀ p, w' p = (w p).map Restored.sealed := by
  -- the directories to seal are those of the workspace
  have hmem (p : List String) :
      p ∈ (files.flatMap fun f ↦ parents (components f.path)).dedup ↔ w p = some (.dir .root) := by
    rw [List.mem_dedup, List.mem_flatMap, hw.dir]
    constructor
    · rintro ⟨f, hf, hp⟩
      rw [parents, List.mem_filter, List.mem_inits, decide_eq_true_eq] at hp
      obtain ⟨⟨b, hb⟩, hne⟩ := hp
      obtain ⟨c, hc⟩ := exists_mem_zip hlength hf
      exact ⟨rfl, hne, (f, c), hc,
        (exists_dropLast_eq_append (components_ne_nil f.path)).1 ⟨b, hb.symm⟩⟩
    · rintro ⟨-, hne, e, he, hb⟩
      obtain ⟨b, hb⟩ := (exists_dropLast_eq_append (components_ne_nil e.1.path)).2 hb
      refine ⟨e.1, (List.of_mem_zip he).1, ?_⟩
      rw [parents, List.mem_filter, List.mem_inits, decide_eq_true_eq]
      exact ⟨⟨b, hb.symm⟩, hne⟩
  obtain ⟨w', hseal, hnode⟩ := sealDirectories_eq_ok (List.nodup_dedup _) fun p hp ↦ (hmem p).1 hp
  refine ⟨w', hseal, fun p ↦ (hnode p).trans ?_⟩
  split
  · next hp =>
    rw [(hmem p).1 hp]
    rfl
  · next hp =>
    cases hwp : w p with
    | none => rfl
    | some node =>
      cases node with
      | file content x => rfl
      | dir owner =>
        obtain rfl := ((hw.dir p owner).1 hwp).1
        exact absurd ((hmem p).2 hwp) hp

theorem map_sealed_eq_file {node : Option Restored} {content : List UInt8} {x : Bool} :
    node.map Restored.sealed = some (.file content x) ↔ node = some (.file content x) := by
  cases node with
  | none => simp
  | some node => cases node <;> simp [Restored.sealed]

theorem map_sealed_eq_dir {node : Option Restored} {owner : Owner} :
    node.map Restored.sealed = some (.dir owner) ↔ owner = .agent ∧ ∃ o, node = some (.dir o) := by
  cases node with
  | none => simp
  | some node => cases node <;> simp [Restored.sealed, eq_comm]

/-- The bytes of the manifest of a frame. -/
def manifestOf (frame : List UInt8) : List UInt8 := (frame.drop 4).take (fromBeBytes (frame.take 4))

theorem Written.manifestOf {m : Manifest} {frame contents : List UInt8} (hw : Written u h m frame contents) :
    manifestOf frame = m.toVec := by
  rw [Frame.manifestOf, hw.drop_four, hw.take_four, hw.header, List.take_left]

/-- A manifest that is restored lists its keys in the order of the structs. -/
theorem inStructOrder_of_restored {inputs : List String} {w' : Workspace} {frame : List UInt8}
    (hok : runSnapshotRestoreOnce u h inputs w frame = .ok w') : inStructOrder (manifestOf frame) = true := by
  unfold runSnapshotRestoreOnce at hok
  obtain ⟨⟨header, source⟩, hheader, hok⟩ := Except.bind_eq_ok.1 hok
  obtain ⟨-, hok⟩ := Except.require_bind.1 hok
  obtain ⟨⟨b, rest⟩, hb, hok⟩ := Except.bind_eq_ok.1 hok
  obtain ⟨m, -, hok⟩ := Except.okOr_bind.1 hok
  obtain ⟨canonical, hcanonical, hok⟩ := Except.bind_eq_ok.1 hok
  obtain ⟨rfl, -⟩ := Except.require_bind.1 hok
  obtain ⟨⟨⟩, -, hcanonical⟩ := Except.bind_eq_ok.1 hcanonical
  obtain ⟨-, hcanonical⟩ := Except.require_bind.1 hcanonical
  have hvec : m.toVec = canonical := Except.ok.inj hcanonical
  obtain ⟨-, hheader⟩ := readExactOr_eq_ok.1 hheader
  obtain ⟨-, hb⟩ := readExactOr_eq_ok.1 hb
  obtain ⟨rfl, rfl⟩ := Prod.mk.inj hheader
  rw [Frame.manifestOf, (Prod.mk.inj hb).1, ← hvec]
  exact inStructOrder_toVec m

/-- What the agent does with a frame of a valid manifest. -/
theorem Written.restore_eq {m : Manifest} {frame contents : List UInt8} (hw : Written u h m frame contents)
    (inputs : List String) (w : Workspace) :
    runSnapshotRestoreOnce u h inputs w frame = (do
      let (w, trailing) ← restoreFiles h inputs w m.files contents
      Except.require (trailing = []) "snapshot frame has trailing bytes"
      sealSnapshotDirectories w m) := by
  have hlength := hw.length
  have hpos := m.length_lt_length_toVec
  have hvalid : validateSnapshotManifest u m = .ok () :=
    validateSnapshotManifest_eq_ok.2 ⟨⟨hw.schema, hw.ne_nil⟩,
      fun f hf ↦ ⟨(hw.sandboxed f hf).1, (hw.sandboxed f hf).2.isWorkspaceSha256⟩, hw.inOrder, hw.expanded⟩
  have hcanonical : canonicalSnapshotManifestBytes u m = .ok m.toVec := by
    rw [canonicalSnapshotManifestBytes, hvalid, Except.ok_bind, Except.require_pos hw.limit]
    rfl
  have hdecode := Manifest.fromSlice_toVec fun f hf ↦
    Nat.lt_of_le_of_lt (sizeBytes_le_expandedSize hf) hw.expanded
  unfold runSnapshotRestoreOnce
  rw [readExactOr, if_pos (by omega), hw.take_four, hw.drop_four, Except.ok_bind]
  simp only [hw.header]
  rw [Except.require_pos ⟨by omega, hw.limit⟩, Except.ok_bind, readExactOr,
    if_pos (by rw [List.length_append]; omega), List.take_left, List.drop_left]
  simp only [Except.ok_bind, hdecode, Except.okOr, hcanonical, Except.require_pos]

/-- A frame that the API accepts is one that the agent may have written, if its keys are in the order of the
structs. -/
theorem Framed.written {candidate : Candidate} {frame : List UInt8} (hframed : Framed u h candidate frame)
    (hstruct : inStructOrder (manifestOf frame) = true) (hsize : frame.length < 2 ^ 64) :
    ∃ files contents, workspaceSnapshotManifest u candidate (manifestOf frame) = .ok files ∧
      InOrder none files ∧ frame = frame.take 4 ++ (manifestOf frame ++ contents.flatten) ∧
      List.Forall₂ (fun f c ↦ c.length = f.sizeBytes ∧ h.sha256 c = f.sha256) files contents ∧
      Written u h ⟨snapshotSchema, files⟩ frame contents.flatten := by
  obtain ⟨hfour, hlimit, -, hbody, files, hfiles, hcontents⟩ := hframed
  rw [← manifestOf] at hfiles
  obtain ⟨contents, hflat, hall⟩ := exists_contents hcontents
  have hvec := eq_toVec_of_inStructOrder hfiles hstruct
  obtain ⟨-, items, -, -, -, -, -, ⟨-, hitems⟩, hentries, horder, -⟩ :=
    workspaceSnapshotManifest_eq_ok.1 hfiles
  have hdrop : frame.drop 4 = manifestOf frame ++ contents.flatten := by
    rw [manifestOf, ← hflat, List.take_append_drop]
  have hframe : frame = frame.take 4 ++ (manifestOf frame ++ contents.flatten) := by
    rw [← hdrop, List.take_append_drop]
  have hlength : (manifestOf frame).length = fromBeBytes (frame.take 4) := by
    rw [manifestOf, List.length_take]; omega
  have hexpanded : expandedSize files < 2 ^ 64 := by
    have := congrArg List.length hdrop
    rw [List.length_drop, List.length_append, length_flatten_contents hall] at this
    omega
  refine ⟨files, contents, hfiles, horder, hframe, hall, rfl, ?_, fun f hf ↦ ?_, horder, hexpanded, ?_, ?_,
    hflat ▸ hcontents, length_flatten_contents hall⟩
  · rintro rfl
    exact hitems (List.forall₂_nil_right_iff.1 hentries)
  · obtain ⟨v, -, hentry⟩ := Except.exists_of_forall₂ hentries hf
    exact ⟨hentry.sandboxed, hentry.sha256⟩
  · rw [← hvec, hlength]
    exact hlimit.2
  · rw [← hvec, hlength, toBeBytes_fromBeBytes (by rw [List.length_take]; omega)]
    exact hframe

/-- An entry without content. -/
def emptyFile (path : String) : File := ⟨path, 0, formatHash.sha256 [], false⟩

/-- A manifest of empty files. -/
def emptyFiles (paths : List String) : Manifest := ⟨snapshotSchema, paths.map emptyFile⟩

/-- Its frame. -/
def emptyFrame (m : Manifest) : List UInt8 := toBeBytes m.toVec.length ++ (m.toVec ++ [])

theorem contents_emptyFiles (paths : List String) : Contents formatHash (paths.map emptyFile) [] := by
  induction paths with
  | nil => rfl
  | cons path paths ih => exact ⟨Nat.le_refl _, rfl, ih⟩

theorem expandedSize_emptyFiles (paths : List String) : expandedSize (paths.map emptyFile) = 0 := by
  induction paths with
  | nil => rfl
  | cons path paths ih => rw [List.map_cons, show expandedSize (emptyFile path :: paths.map emptyFile) =
      0 + expandedSize (paths.map emptyFile) from rfl, ih]

theorem written_emptyFiles (paths : List String) (hne : paths ≠ [])
    (hpaths : ∀ path ∈ paths, validateSnapshotPath asciiUnicode path = .ok ())
    (horder : InOrder none (emptyFiles paths).files)
    (hlimit : (emptyFiles paths).toVec.length ≤ manifestLimit) :
    Written asciiUnicode formatHash (emptyFiles paths) (emptyFrame (emptyFiles paths)) [] where
  schema := rfl
  ne_nil := by simpa [emptyFiles] using hne
  sandboxed := by
    intro f hf
    obtain ⟨path, hpath, rfl⟩ := List.mem_map.1 hf
    exact ⟨validateSnapshotPath_eq_ok.1 (hpaths path hpath), formatHash.isSha256 []⟩
  inOrder := horder
  expanded := by rw [emptyFiles, expandedSize_emptyFiles]; decide
  limit := hlimit
  frame := rfl
  reads := contents_emptyFiles paths
  size := (expandedSize_emptyFiles paths).symm

/-- The API accepts the frame of empty files at portable paths. -/
theorem readSnapshot_emptyFrame {paths : List String}
    (hw : Written asciiUnicode formatHash (emptyFiles paths) (emptyFrame (emptyFiles paths)) [])
    (hportable : ∀ path ∈ paths, Portable asciiUnicode path) (counts : Nat → Nat) :
    readSnapshot asciiUnicode formatHash
      (describe formatHash (emptyFiles paths) (emptyFrame (emptyFiles paths))).candidate counts
      (emptyFrame (emptyFiles paths)) = .ok () := by
  refine readSnapshot_eq_ok.2 ⟨rfl, hw.framed_iff.2 fun f hf ↦ ?_, rfl⟩
  obtain ⟨path, hpath, rfl⟩ := List.mem_map.1 hf
  exact hportable path hpath

/-- The bytes of a manifest that lists its keys the other way round. -/
def swappedManifest : List UInt8 :=
  Utf8.bytes (String.ofList (JsonText.render JsonText.serdeEscape
    (.obj [("files", .arr [(emptyFile "a").toJson]), ("schema", .str snapshotSchema)])))

/-- Its frame. -/
def swappedFrame : List UInt8 := toBeBytes swappedManifest.length ++ (swappedManifest ++ [])

theorem swappedManifest_eq_flatMap : swappedManifest = (JsonText.render JsonText.serdeEscape
    (.obj [("files", .arr [(emptyFile "a").toJson]), ("schema", .str snapshotSchema)])).flatMap
      String.utf8EncodeChar := by
  rw [swappedManifest, Utf8.bytes, String.toList_ofList]

/-- What the API is told about the frame. -/
def swappedCandidate : Candidate where
  snapshotSizeBytes := swappedFrame.length
  snapshotSha256 := formatHash.sha256 swappedFrame
  expandedSizeBytes := 0
  fileCount := 1

end Centaeris.Frame
