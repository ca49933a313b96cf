import Centaeris.Frame.Restore

/-!
# Paths that cannot be files of one tree

A file and a path below it are never both in a tree. The three programs that check a manifest compare a
path with the one before it only, and in the order of the bytes other names may stand between the two: `a`,
`a.b` and `a/c` are in order, and no one of them is below the one before it (`conflict_accepted`).

What stands between a path and one below it goes on after the first with a character before the slash, or
is below it as well (`exists_of_between`). So the checks are enough for a list in which no path goes on
after another one in such a way (`accepted_apart`).
-/

namespace Centaeris.Frame

open Contract (Unicode)

/-- What lies between a list and one that goes on after it goes on after it too, and before that one. -/
theorem exists_of_between {α : Type} [LinearOrder α] {p s t : List α} (hlow : p < s) (hhigh : s < p ++ t) :
    ∃ c rest, s = p ++ c :: rest ∧ c :: rest < t := by
  induction p generalizing s with
  | nil =>
    cases s with
    | nil => exact absurd hlow (List.lt_irrefl [])
    | cons c rest => exact ⟨c, rest, rfl, hhigh⟩
  | cons a p ih =>
    cases s with
    | nil => exact absurd hlow (List.not_lt_nil _)
    | cons b s =>
      rw [List.cons_append] at hhigh
      rcases List.cons_lt_cons_iff.1 hlow with hab | ⟨rfl, hlow'⟩
      · rcases List.cons_lt_cons_iff.1 hhigh with hba | ⟨rfl, -⟩
        · exact absurd hab (lt_asymm hba)
        · exact absurd hab (lt_irrefl b)
      · rcases List.cons_lt_cons_iff.1 hhigh with haa | ⟨-, hhigh'⟩
        · exact absurd haa (lt_irrefl a)
        · obtain ⟨c, rest, rfl, hlt⟩ := ih hlow' hhigh'
          exact ⟨c, rest, rfl, hlt⟩

/-- No path goes on after another one with a character before the slash. -/
def Gapless (files : List File) : Prop :=
  ∀ f ∈ files, ∀ g ∈ files, ∀ c rest, g.path.toList = f.path.toList ++ c :: rest → '/' ≤ c

theorem Gapless.of_cons {f : File} {files : List File} (h : Gapless (f :: files)) : Gapless files :=
  fun f hf g hg ↦ h f (List.mem_cons_of_mem _ hf) g (List.mem_cons_of_mem _ hg)

theorem lt_of_isBelow {p q : String} (h : isBelow p q = true) : p < q := by
  obtain ⟨rest, hq⟩ := isBelow_iff.1 h
  rw [String.lt_iff, hq]
  induction p.toList with
  | nil => exact List.nil_lt_cons _ _
  | cons a l ih => exact List.cons_lt_cons_iff.2 (.inr ⟨rfl, ih⟩)

/-- Where no path fills the gap, none of the later paths is below a file. -/
theorem not_isBelow_of_inOrder {files : List File} {f g : File} (hgapless : Gapless (f :: files))
    (horder : InOrder (some f.path) files) (hg : g ∈ files) : isBelow f.path g.path = false := by
  by_contra hbelow
  rw [Bool.not_eq_false] at hbelow
  cases files with
  | nil => exact absurd hg List.not_mem_nil
  | cons next files =>
    obtain ⟨hlow, hnext⟩ := horder.1 f.path rfl
    rcases List.mem_cons.1 hg with rfl | hg'
    · exact absurd hbelow (by simp [hnext])
    · -- the next path is between the file and the one below it
      have hhigh : next.path < g.path := horder.2.pairwise.2 next.path rfl g hg'
      obtain ⟨rest, hrest⟩ := isBelow_iff.1 hbelow
      rw [String.lt_iff, hrest] at hhigh
      obtain ⟨c, after, hnext', hlt⟩ := exists_of_between (String.lt_iff.1 hlow) hhigh
      have hslash : '/' ≤ c := hgapless f List.mem_cons_self next (by simp) c after hnext'
      rcases List.cons_lt_cons_iff.1 hlt with hc | ⟨rfl, -⟩
      · exact absurd hslash (not_le_of_gt hc)
      · exact absurd (isBelow_iff.2 ⟨after, hnext'⟩) (by simp [hnext])

/-- Paths of a tree: no two are the same, and none is below another one. -/
def PathsApart (files : List File) : Prop := files.Pairwise fun f g ↦
  f.path ≠ g.path ∧ isBelow f.path g.path = false ∧ isBelow g.path f.path = false

theorem pathsApart_of_inOrder {previous : Option String} {files : List File} (hgapless : Gapless files)
    (horder : InOrder previous files) : PathsApart files := by
  induction files generalizing previous with
  | nil => exact .nil
  | cons f files ih =>
    refine List.pairwise_cons.2 ⟨fun g hg ↦ ?_, ih hgapless.of_cons horder.2⟩
    have hlt : f.path < g.path := horder.2.pairwise.2 f.path rfl g hg
    refine ⟨hlt.ne, not_isBelow_of_inOrder hgapless horder.2 hg, ?_⟩
    rw [Bool.eq_false_iff]
    exact fun hbelow ↦ absurd hlt (lt_asymm (lt_of_isBelow hbelow))

/-- The files of a manifest that one of the three programs has accepted. -/
inductive Accepted (u : Unicode) : List File → Prop
  | agent {m : Manifest} (h : validateSnapshotManifest u m = .ok ()) : Accepted u m.files
  | host {m : Manifest} {n : Nat} (h : validateWorkspaceSnapshotManifest u m = .ok n) : Accepted u m.files
  | api {candidate : Candidate} {b : List UInt8} {files : List File}
    (h : workspaceSnapshotManifest u candidate b = .ok files) : Accepted u files

theorem Accepted.inOrder {u : Unicode} {files : List File} (h : Accepted u files) : InOrder none files := by
  cases h with
  | agent h => exact (validateSnapshotManifest_eq_ok.1 h).2.2.1
  | host h => exact (validateWorkspaceSnapshotManifest_eq_ok.1 h).2.2.1
  | api h =>
    obtain ⟨_, _, -, -, -, -, -, -, -, horder, -⟩ := workspaceSnapshotManifest_eq_ok.1 h
    exact horder

/-- A manifest that all three programs accept. -/
theorem accepted_emptyFiles {paths : List String} (hne : paths ≠ [])
    (hpaths : ∀ path ∈ paths, validateSnapshotPath asciiUnicode path = .ok ())
    (hportable : ∀ path ∈ paths, Portable asciiUnicode path)
    (horder : InOrder none (emptyFiles paths).files) :
    validateSnapshotManifest asciiUnicode (emptyFiles paths) = .ok () ∧
      validateWorkspaceSnapshotManifest asciiUnicode (emptyFiles paths) = .ok 0 ∧
      workspaceSnapshotManifest asciiUnicode ⟨0, "", 0, paths.length⟩ (emptyFiles paths).toVec =
        .ok (emptyFiles paths).files := by
  have hfiles : (emptyFiles paths).files ≠ [] := by simpa [emptyFiles] using hne
  have hsize : expandedSize (emptyFiles paths).files = 0 := expandedSize_emptyFiles paths
  have hall (P : File → Prop) (hP : ∀ path ∈ paths, P (emptyFile path)) :
      ∀ f ∈ (emptyFiles paths).files, P f := by
    intro f hf
    obtain ⟨path, hpath, rfl⟩ := List.mem_map.1 hf
    exact hP path hpath
  have hsandboxed (path : String) (hpath : path ∈ paths) : Sandboxed asciiUnicode path :=
    validateSnapshotPath_eq_ok.1 (hpaths path hpath)
  have hsha := formatHash.isSha256 []
  refine ⟨?_, ?_, ?_⟩
  · refine validateSnapshotManifest_eq_ok.2 ⟨⟨rfl, hfiles⟩, hall _ fun path hpath ↦ ?_, horder, ?_⟩
    · exact ⟨hsandboxed path hpath, hsha.isWorkspaceSha256⟩
    · rw [hsize]
      decide
  · refine validateWorkspaceSnapshotManifest_eq_ok.2 ⟨⟨rfl, hfiles⟩, hall _ fun path hpath ↦ ?_, horder,
      hsize.symm, by decide⟩
    exact ⟨(hportable path hpath).hostPath (hsandboxed path hpath), hsha.isWorkspaceSha256⟩
  · refine (workspaceSnapshotManifest_toVec rfl hfiles (hall _ fun path hpath ↦ ?_) horder ?_ ?_).2
      ⟨rfl, hall _ hportable⟩
    · exact ⟨hsandboxed path hpath, hsha⟩
    · rw [emptyFiles, List.length_map]
    · exact hsize.symm

end Centaeris.Frame
