import Centaeris.Contract.Strings

/-!
# Paths of a workspace snapshot

Three programs check the path of a file in a snapshot: the sandbox agent that writes it
(`validate_snapshot_path`), the runtime host that receives it (`validate_workspace_snapshot_manifest`)
and the API that stores it (`_workspace_snapshot_manifest`). What they have in common is `Sandboxed`,
which is what the agent checks; the host asks in addition for a path without whitespace at its ends,
and the API for a path that is `Portable`.
-/

namespace Centaeris.Frame

open Contract (Unicode isControl isWhitespace isSpace strip components isDotComponent dropPrefix?)

/-- `SNAPSHOT_PATH_MAX_BYTES`, `MAX_SESSION_WORKSPACE_PATH_BYTES`. -/
def pathMaxBytes : Nat := 4 * 1024

/-- `SNAPSHOT_PATH_MAX_DEPTH`, `MAX_SESSION_WORKSPACE_PATH_DEPTH`. -/
def pathMaxDepth : Nat := 64

/-! ### The agent -/

/-- The checks of `normalized_data_path` on a path below the root. -/
def relativePath (relative : String) : Except String String :=
  if relative = "" ∨ '\\' ∈ relative.toList ∨ (∃ c ∈ relative.toList, isControl c = true) ∨
      ∃ part ∈ components relative, isDotComponent part = true then
    .error "sandbox path contains an invalid component"
  else .ok relative

/-- `normalized_data_path`. -/
def normalizedDataPath (path : String) : Except String String :=
  if path = "/mnt/data" ∨ path = "." then .ok "."
  else
    match dropPrefix? "/mnt/data/".toList path.toList with
    | some relative => relativePath (String.ofList relative)
    | none =>
      if path.toList.head? = some '/' then .error "sandbox path escaped /mnt/data"
      else relativePath path

/-- `validate_snapshot_path`. -/
def validateSnapshotPath (u : Unicode) (path : String) : Except String Unit := do
  let normalized ← normalizedDataPath path
  Except.require (¬ (normalized = "." ∨ normalized ≠ path ∨
      pathMaxBytes < (Utf8.bytes path).length ∨ pathMaxDepth < (components path).length ∨
      u.nfc path ≠ path))
    "snapshot path is invalid"

/-- `validate_snapshot_component`. -/
def validateSnapshotComponent (u : Unicode) (component : String) : Except String Unit :=
  Except.require (¬ (isDotComponent component = true ∨ '/' ∈ component.toList ∨
      '\\' ∈ component.toList ∨ (∃ c ∈ component.toList, isControl c = true) ∨
      u.nfc component ≠ component))
    "workspace snapshot path is invalid"

/-- A relative path of plain components within the limits. -/
structure Sandboxed (u : Unicode) (path : String) : Prop where
  parts : ∀ part ∈ components path, isDotComponent part = false
  backslash : '\\' ∉ path.toList
  control : ∀ c ∈ path.toList, isControl c = false
  size : (Utf8.bytes path).length ≤ pathMaxBytes
  depth : (components path).length ≤ pathMaxDepth
  nfc : u.nfc path = path

theorem Sandboxed.ne_empty {u : Unicode} {path : String} (h : Sandboxed u path) : path ≠ "" := by
  rintro rfl
  exact absurd (h.parts "" (by simp [Contract.components_empty])) (by decide)

theorem Sandboxed.head? {u : Unicode} {path : String} (h : Sandboxed u path) :
    path.toList.head? ≠ some '/' :=
  fun hslash ↦ absurd (h.parts _ (Contract.components_of_head? hslash)) (by decide)

theorem relativePath_eq_ok {relative path : String} : relativePath relative = .ok path ↔
    relative = path ∧ (∀ part ∈ components path, isDotComponent part = false) ∧
      '\\' ∉ path.toList ∧ ∀ c ∈ path.toList, isControl c = false := by
  rw [relativePath]
  constructor
  · intro h
    split at h
    · exact absurd h (by simp)
    · next hok =>
      obtain rfl := Except.ok.inj h
      push Not at hok
      exact ⟨rfl, by simpa using hok.2.2.2, hok.2.1, by simpa using hok.2.2.1⟩
  · rintro ⟨rfl, hparts, hback, hcontrol⟩
    rw [if_neg]
    rintro (rfl | h | ⟨c, hc, h⟩ | ⟨part, hpart, h⟩)
    · exact absurd (hparts "" (by simp [Contract.components_empty])) (by decide)
    · exact hback h
    · simp [hcontrol c hc] at h
    · simp [hparts part hpart] at h

/-- What the agent checks. -/
theorem validateSnapshotPath_eq_ok {u : Unicode} {path : String} {x : Unit} :
    validateSnapshotPath u path = .ok x ↔ Sandboxed u path := by
  rw [validateSnapshotPath, Except.bind_eq_ok]
  simp only [Except.require_eq_ok]
  constructor
  · rintro ⟨normalized, hnormalized, hok⟩
    push Not at hok
    obtain ⟨hdot, rfl, hsize, hdepth, hnfc⟩ := hok
    rw [normalizedDataPath] at hnormalized
    split at hnormalized
    · exact absurd (Except.ok.inj hnormalized).symm hdot
    · split at hnormalized
      · next relative hrelative =>
        -- a path below the root's own name is not its own normal form
        have hself := (relativePath_eq_ok.1 hnormalized).1
        have hlength := congrArg List.length (Contract.dropPrefix?_eq_some.1 hrelative)
        rw [← hself] at hlength
        rw [String.toList_ofList, List.length_append,
          show "/mnt/data/".toList.length = 10 from rfl] at hlength
        omega
      · split at hnormalized
        · exact absurd hnormalized (by simp)
        · obtain ⟨-, hparts, hback, hcontrol⟩ := relativePath_eq_ok.1 hnormalized
          exact ⟨hparts, hback, hcontrol, hsize, hdepth, hnfc⟩
  · intro h
    refine ⟨path, ?_, ?_⟩
    · have hslash := h.head?
      rw [normalizedDataPath, if_neg, show dropPrefix? "/mnt/data/".toList path.toList = none from ?_]
      · simp only [if_neg hslash]
        exact relativePath_eq_ok.2 ⟨rfl, h.parts, h.backslash, h.control⟩
      · cases hdrop : dropPrefix? "/mnt/data/".toList path.toList with
        | none => rfl
        | some relative =>
          exact absurd (by rw [Contract.dropPrefix?_eq_some.1 hdrop]; rfl) hslash
      · rintro (rfl | rfl)
        · exact hslash rfl
        · exact absurd (h.parts "." (by decide)) (by decide)
    · rintro (rfl | hne | hsize | hdepth | hnfc)
      · exact absurd (h.parts "." (by decide)) (by decide)
      · exact hne rfl
      · exact absurd h.size (by omega)
      · exact absurd h.depth (by omega)
      · exact hnfc h.nfc

/-! ### The host and the API -/

/-- What the host's `validate_workspace_snapshot_manifest` asks of a path. -/
def HostPath (u : Unicode) (path : String) : Prop :=
  path ≠ "" ∧ strip isWhitespace path = path ∧ (Utf8.bytes path).length ≤ 4 * 1024 ∧
    (components path).length ≤ 64 ∧ '\\' ∉ path.toList ∧ path.toList.head? ≠ some '/' ∧
    (∀ c ∈ path.toList, isControl c = false) ∧
    (∀ part ∈ components path, isDotComponent part = false) ∧ u.nfc path = path

instance (u : Unicode) (path : String) : Decidable (HostPath u path) :=
  inferInstanceAs (Decidable (_ ∧ _))

/-- What the API asks of a path over the agent's checks. -/
structure Portable (u : Unicode) (path : String) : Prop where
  colon : ':' ∉ path.toList
  other : ∀ c ∈ path.toList, u.isOther c = false
  stripped : strip isSpace path = path

instance (u : Unicode) (path : String) : Decidable (Portable u path) :=
  decidable_of_iff (':' ∉ path.toList ∧ (∀ c ∈ path.toList, u.isOther c = false) ∧
      strip isSpace path = path)
    ⟨fun ⟨hcolon, hother, hstripped⟩ ↦ ⟨hcolon, hother, hstripped⟩,
      fun h ↦ ⟨h.colon, h.other, h.stripped⟩⟩

/-- The host asks for no whitespace at the ends. -/
theorem hostPath_iff {u : Unicode} {path : String} :
    HostPath u path ↔ Sandboxed u path ∧ strip isWhitespace path = path := by
  constructor
  · rintro ⟨-, hstrip, hsize, hdepth, hback, -, hcontrol, hparts, hnfc⟩
    exact ⟨⟨hparts, hback, hcontrol, hsize, hdepth, hnfc⟩, hstrip⟩
  · rintro ⟨h, hstrip⟩
    exact ⟨h.ne_empty, hstrip, h.size, h.depth, h.backslash, h.head?, h.control, h.parts, h.nfc⟩

/-- The API asks for a portable path. -/
theorem validateVirtualPath_iff {u : Unicode} {v : Json} {path : String} :
    (Contract.validateVirtualPath u v = .ok path ∧ (Utf8.bytes path).length ≤ pathMaxBytes ∧
      (components path).length ≤ pathMaxDepth) ↔
    v = .str path ∧ Sandboxed u path ∧ Portable u path := by
  rw [Contract.validateVirtualPath_eq_ok]
  constructor
  · rintro ⟨⟨hv, -, hstrip, hnfc, hback, hcolon, -, hparts, hother⟩, hsize, hdepth⟩
    have hcontrol (c : Char) (hc : c ∈ path.toList) : isControl c = false :=
      Bool.eq_false_iff.2 fun h ↦ absurd (u.isOther_of_isControl c h) (by simp [hother c hc])
    exact ⟨hv, ⟨hparts, hback, hcontrol, hsize, hdepth, hnfc⟩, hcolon, hother, hstrip⟩
  · rintro ⟨hv, h, hportable⟩
    exact ⟨⟨hv, h.ne_empty, hportable.stripped, h.nfc, h.backslash, hportable.colon, h.head?,
      h.parts, hportable.other⟩, h.size, h.depth⟩

end Centaeris.Frame
