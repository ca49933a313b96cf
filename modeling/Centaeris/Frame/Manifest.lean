import Mathlib.Algebra.Order.BigOperators.Group.List
import Centaeris.Base.JsonText
import Centaeris.Frame.Path

/-!
# Manifests of a workspace snapshot

The manifest at the head of a snapshot frame, as the agent and the runtime host keep it (a struct that
`serde_json` encodes in the order of its fields) and as the API reads it (a table that is compared with
its own canonical text). Each of the three checks the files in one pass that carries the previous path;
what a pass accepts is stated once, with `InOrder` for what it asks of neighbours.
-/

namespace Centaeris.Frame

open Contract (Unicode isWorkspaceSha256 IsSha256 dropPrefix? components)

/-- `SandboxWorkspaceSnapshotFile`. -/
structure File where
  path : String
  sizeBytes : Nat
  sha256 : String
  executable : Bool
  deriving DecidableEq

/-- `SandboxWorkspaceSnapshotManifest`. -/
structure Manifest where
  schema : String
  files : List File
  deriving DecidableEq

/-- `SANDBOX_WORKSPACE_SNAPSHOT_SCHEMA`, `SESSION_WORKSPACE_SNAPSHOT_SCHEMA`. -/
def snapshotSchema : String := "workspace.snapshot.v1"

/-- `MAX_JSON_BYTES`, `SESSION_WORKSPACE_MANIFEST_LIMIT`, `MAX_SESSION_WORKSPACE_MANIFEST_BYTES`. -/
def manifestLimit : Nat := 1024 * 1024

/-- The bytes of all files together. -/
def expandedSize (files : List File) : Nat := (files.map File.sizeBytes).sum

theorem sizeBytes_le_expandedSize {files : List File} {f : File} (hf : f ∈ files) :
    f.sizeBytes ≤ expandedSize files :=
  List.single_le_sum (fun _ _ ↦ Nat.zero_le _) _ (List.mem_map_of_mem hf)

/-! ### The text of a manifest -/

/-- The keys of a file. -/
def fileKeys : List String := ["path", "sizeBytes", "sha256", "executable"]

/-- The keys of a manifest. -/
def manifestKeys : List String := ["schema", "files"]

def File.toJson (f : File) : Json :=
  .obj [("path", .str f.path), ("sizeBytes", .ofInt f.sizeBytes), ("sha256", .str f.sha256),
    ("executable", .bool f.executable)]

def Manifest.toJson (m : Manifest) : Json :=
  .obj [("schema", .str m.schema), ("files", .arr (m.files.map File.toJson))]

/-- `serde_json::to_vec`. -/
def Manifest.toVec (m : Manifest) : List UInt8 :=
  Utf8.bytes (String.ofList (JsonText.render JsonText.serdeEscape m.toJson))

theorem Manifest.toVec_eq_flatMap (m : Manifest) :
    m.toVec = (JsonText.render JsonText.serdeEscape m.toJson).flatMap String.utf8EncodeChar := by
  rw [toVec, Utf8.bytes, String.toList_ofList]

/-- A `u64`. -/
def decodeU64 (v : Json) : Option Nat := v.asU64?.filter fun n ↦ n < 2 ^ 64

/-- A struct of the fields `ks` with `deny_unknown_fields`: every field once, and no other. The form of
a struct as an array is not read, since no array is the canonical text of a struct. -/
def decodeStruct (ks : List String) : Json → Option (List (String × Json))
  | .obj fields => if Json.Fields.keysAre fields ks then some fields else none
  | _ => none

def File.decode (v : Json) : Option File := do
  let fields ← decodeStruct fileKeys v
  let path ← (← Json.Fields.get? fields "path").asStr?
  let sizeBytes ← decodeU64 (← Json.Fields.get? fields "sizeBytes")
  let sha256 ← (← Json.Fields.get? fields "sha256").asStr?
  let executable ← (← Json.Fields.get? fields "executable").asBool?
  return { path, sizeBytes, sha256, executable }

def Manifest.decode (v : Json) : Option Manifest := do
  let fields ← decodeStruct manifestKeys v
  let schema ← (← Json.Fields.get? fields "schema").asStr?
  let items ← (← Json.Fields.get? fields "files").asArray?
  let files ← items.mapM File.decode
  return { schema, files }

/-- `serde_json::from_slice`. -/
def Manifest.fromSlice (b : List UInt8) : Option Manifest := do
  let text ← Utf8.decode b
  let v ← JsonText.parse text.toList
  Manifest.decode v

theorem File.decode_toJson {f : File} (h : f.sizeBytes < 2 ^ 64) : File.decode f.toJson = some f := by
  have hsize : decodeU64 (.ofInt f.sizeBytes) = some f.sizeBytes := by
    rw [decodeU64, Json.asU64?_ofInt, Option.filter_some, if_pos (by simpa using h)]
  simp [File.decode, File.toJson, decodeStruct, fileKeys, Json.Fields.keysAre, Json.Fields.get?, hsize,
    Json.asBool?]

theorem mapM_decode_toJson {files : List File} (h : ∀ f ∈ files, f.sizeBytes < 2 ^ 64) :
    (files.map File.toJson).mapM File.decode = some files := by
  induction files with
  | nil => rfl
  | cons f files ih =>
    rw [List.map_cons, List.mapM_cons, File.decode_toJson (h f List.mem_cons_self),
      ih fun g hg ↦ h g (List.mem_cons_of_mem _ hg)]
    rfl

theorem Manifest.decode_toJson {m : Manifest} (h : ∀ f ∈ m.files, f.sizeBytes < 2 ^ 64) :
    Manifest.decode m.toJson = some m := by
  have hfiles : (m.files.map File.toJson).mapM File.decode = some m.files :=
    mapM_decode_toJson h
  simp [Manifest.decode, Manifest.toJson, decodeStruct, manifestKeys, Json.Fields.keysAre,
    Json.Fields.get?, hfiles]

/-- What `to_vec` writes, `from_slice` reads. -/
theorem Manifest.fromSlice_toVec {m : Manifest} (h : ∀ f ∈ m.files, f.sizeBytes < 2 ^ 64) :
    Manifest.fromSlice m.toVec = some m := by
  rw [fromSlice, toVec, Utf8.decode_bytes]
  simp only [Option.bind_eq_bind, Option.bind_some, String.toList_ofList,
    JsonText.parse_render JsonText.escapes_serdeEscape]
  exact decode_toJson h

/-! ### Neighbours -/

/-- `path.strip_prefix(previous)` starts with a slash: `previous` is a directory above `path`. -/
def isBelow (previous path : String) : Bool :=
  match dropPrefix? previous.toList path.toList with
  | some suffix => suffix.head? == some '/'
  | none => false

theorem isBelow_iff {previous path : String} :
    isBelow previous path = true ↔ ∃ rest, path.toList = previous.toList ++ '/' :: rest := by
  rw [isBelow]
  constructor
  · intro h
    split at h
    · next suffix hsuffix =>
      obtain ⟨rest, rfl⟩ := List.head?_eq_some_iff.1 (beq_iff_eq.1 h)
      exact ⟨rest, Contract.dropPrefix?_eq_some.1 hsuffix⟩
    · exact absurd h (by simp)
  · rintro ⟨rest, h⟩
    rw [Contract.dropPrefix?_eq_some.2 h]
    rfl

/-- `path.startswith(f"{previous}/")`. -/
theorem isPrefixOf_iff_isBelow {previous path : String} :
    (previous.toList ++ ['/']).isPrefixOf path.toList = isBelow previous path := by
  rw [Bool.eq_iff_iff, List.isPrefixOf_iff_prefix, isBelow_iff]
  exact ⟨fun ⟨rest, h⟩ ↦ ⟨rest, by simp [← h]⟩, fun ⟨rest, h⟩ ↦ ⟨rest, by simp [h]⟩⟩

/-- A path that may come after another one: it is larger, and not inside a directory of that name. -/
def Follows (previous : Option String) (path : String) : Prop :=
  ∀ p ∈ previous, p < path ∧ isBelow p path = false

instance (previous : Option String) (path : String) : Decidable (Follows previous path) :=
  inferInstanceAs (Decidable (∀ p ∈ previous, _))

/-- Every path of the list follows the one before it. -/
def InOrder : Option String → List File → Prop
  | _, [] => True
  | previous, f :: files => Follows previous f.path ∧ InOrder (some f.path) files

instance decidableInOrder : (previous : Option String) → (files : List File) →
    Decidable (InOrder previous files)
  | _, [] => .isTrue trivial
  | previous, f :: files =>
    have := decidableInOrder (some f.path) files
    inferInstanceAs (Decidable (Follows previous f.path ∧ InOrder (some f.path) files))

/-! ### The agent and the host -/

/-- The test of neighbours in Rust, where texts are compared by their bytes. -/
def FollowsBytes (previous : Option String) (path : String) : Prop :=
  ∀ p ∈ previous, Utf8.bytes p < Utf8.bytes path ∧ isBelow p path = false

instance (previous : Option String) (path : String) : Decidable (FollowsBytes previous path) :=
  inferInstanceAs (Decidable (∀ p ∈ previous, _))

theorem followsBytes_iff {previous : Option String} {path : String} :
    FollowsBytes previous path ↔ Follows previous path := by
  simp only [FollowsBytes, Follows, Utf8.bytes_lt_bytes_iff]

/-- The pass over the files of a manifest: each is checked against the one before it, and the sizes are
added up in a `u64`. -/
def checkFiles (check : Option String → File → Except String Unit) :
    Option String → Nat → List File → Except String Nat
  | _, expanded, [] => .ok expanded
  | previous, expanded, f :: files => do
    check previous f
    Except.require (expanded + f.sizeBytes < 2 ^ 64) "snapshot expanded size overflow"
    checkFiles check (some f.path) (expanded + f.sizeBytes) files

/-- The agent's checks of one file. -/
def agentFile (u : Unicode) (previous : Option String) (f : File) : Except String Unit := do
  validateSnapshotPath u f.path
  Except.require (isWorkspaceSha256 f.sha256 = true) "snapshot SHA-256 is invalid"
  Except.require (FollowsBytes previous f.path) "snapshot manifest paths are not sorted and unique"

/-- The host's checks of one file. -/
def hostFile (u : Unicode) (previous : Option String) (f : File) : Except String Unit :=
  Except.require (HostPath u f.path ∧ isWorkspaceSha256 f.sha256 = true ∧
    FollowsBytes previous f.path) "snapshot manifest paths or hashes are invalid"

/-- `validate_snapshot_manifest`. -/
def validateSnapshotManifest (u : Unicode) (m : Manifest) : Except String Unit := do
  Except.require (m.schema = snapshotSchema ∧ m.files ≠ []) "snapshot manifest is invalid"
  let _ ← checkFiles (agentFile u) none 0 m.files

/-- `canonical_snapshot_manifest_bytes`. -/
def canonicalSnapshotManifestBytes (u : Unicode) (m : Manifest) : Except String (List UInt8) := do
  validateSnapshotManifest u m
  Except.require (m.toVec.length ≤ manifestLimit) "snapshot manifest is too large"
  return m.toVec

/-- `validate_workspace_snapshot_manifest`. -/
def validateWorkspaceSnapshotManifest (u : Unicode) (m : Manifest) : Except String Nat := do
  Except.require (m.schema = snapshotSchema ∧ m.files ≠ []) "snapshot manifest is invalid"
  checkFiles (hostFile u) none 0 m.files

/-- What a pass accepts, from what it accepts of one file. -/
theorem checkFiles_eq_ok {check : Option String → File → Except String Unit} {P : File → Prop}
    (hcheck : ∀ previous f, check previous f = .ok () ↔ P f ∧ Follows previous f.path)
    {previous : Option String} {expanded n : Nat} {files : List File} (hlt : expanded < 2 ^ 64) :
    checkFiles check previous expanded files = .ok n ↔
      (∀ f ∈ files, P f) ∧ InOrder previous files ∧ n = expanded + expandedSize files ∧
        n < 2 ^ 64 := by
  induction files generalizing previous expanded with
  | nil =>
    simp only [checkFiles, Except.ok.injEq, List.not_mem_nil, false_implies, implies_true, InOrder,
      expandedSize, List.map_nil, List.sum_nil, Nat.add_zero, true_and]
    exact ⟨fun h ↦ ⟨h.symm, h ▸ hlt⟩, fun h ↦ h.1.symm⟩
  | cons f files ih =>
    have hsum : expandedSize (f :: files) = f.sizeBytes + expandedSize files := rfl
    rw [checkFiles, Except.bind_eq_ok]
    simp only [Except.require_bind, hcheck, List.forall_mem_cons, InOrder, hsum]
    constructor
    · rintro ⟨-, ⟨hP, hfollows⟩, hadd, hrest⟩
      obtain ⟨hall, horder, rfl, hn⟩ := (ih hadd).1 hrest
      exact ⟨⟨hP, hall⟩, ⟨hfollows, horder⟩, by omega, hn⟩
    · rintro ⟨⟨hP, hall⟩, ⟨hfollows, horder⟩, rfl, hn⟩
      have hadd : expanded + f.sizeBytes < 2 ^ 64 := by omega
      exact ⟨(), ⟨hP, hfollows⟩, hadd, (ih hadd).2 ⟨hall, horder, by omega, hn⟩⟩

theorem agentFile_eq_ok (u : Unicode) (previous : Option String) (f : File) :
    agentFile u previous f = .ok () ↔
      (Sandboxed u f.path ∧ isWorkspaceSha256 f.sha256 = true) ∧ Follows previous f.path := by
  simp only [agentFile, Except.bind_eq_ok, Except.require_eq_ok, validateSnapshotPath_eq_ok,
    followsBytes_iff, exists_const, and_assoc]

theorem hostFile_eq_ok (u : Unicode) (previous : Option String) (f : File) :
    hostFile u previous f = .ok () ↔
      (HostPath u f.path ∧ isWorkspaceSha256 f.sha256 = true) ∧ Follows previous f.path := by
  rw [hostFile, Except.require_eq_ok, followsBytes_iff, and_assoc]

/-- What the agent accepts as a manifest. -/
theorem validateSnapshotManifest_eq_ok {u : Unicode} {m : Manifest} :
    validateSnapshotManifest u m = .ok () ↔ (m.schema = snapshotSchema ∧ m.files ≠ []) ∧
      (∀ f ∈ m.files, Sandboxed u f.path ∧ isWorkspaceSha256 f.sha256 = true) ∧
      InOrder none m.files ∧ expandedSize m.files < 2 ^ 64 := by
  rw [validateSnapshotManifest, Except.require_bind]
  refine and_congr_right fun _ ↦ ?_
  have hpass (n : Nat) : checkFiles (agentFile u) none 0 m.files = .ok n ↔ _ :=
    checkFiles_eq_ok (agentFile_eq_ok u) (Nat.two_pow_pos 64)
  rw [Except.bind_eq_ok]
  simp only [hpass, Nat.zero_add]
  constructor
  · rintro ⟨n, ⟨hall, horder, rfl, hn⟩, -⟩
    exact ⟨hall, horder, hn⟩
  · rintro ⟨hall, horder, hn⟩
    exact ⟨_, ⟨hall, horder, rfl, hn⟩, rfl⟩

theorem validateWorkspaceSnapshotManifest_eq_ok {u : Unicode} {m : Manifest} {n : Nat} :
    validateWorkspaceSnapshotManifest u m = .ok n ↔ (m.schema = snapshotSchema ∧ m.files ≠ []) ∧
      (∀ f ∈ m.files, HostPath u f.path ∧ isWorkspaceSha256 f.sha256 = true) ∧
      InOrder none m.files ∧ n = expandedSize m.files ∧ n < 2 ^ 64 := by
  rw [validateWorkspaceSnapshotManifest, Except.require_bind,
    checkFiles_eq_ok (hostFile_eq_ok u) (Nat.two_pow_pos 64), Nat.zero_add]

/-! ### The API -/

/-- `SessionWorkspaceError`. -/
structure SessionWorkspaceError where
  code : String
  status : Nat
  deriving DecidableEq

/-- The error of every check of a snapshot. -/
def snapshotInvalid : SessionWorkspaceError := ⟨"session_workspace_snapshot_invalid", 400⟩

/-- What the upload says about the snapshot it brings. -/
structure Candidate where
  snapshotSizeBytes : Nat
  snapshotSha256 : String
  expandedSizeBytes : Nat
  fileCount : Nat
  deriving DecidableEq

/-- The test of neighbours in Python, where texts are compared by their code points. -/
def FollowsText (previous : Option String) (path : String) : Prop :=
  ∀ p ∈ previous, p < path ∧ (p.toList ++ ['/']).isPrefixOf path.toList = false

instance (previous : Option String) (path : String) : Decidable (FollowsText previous path) :=
  inferInstanceAs (Decidable (∀ p ∈ previous, _))

/-- A field of a table that has it. -/
def field (fields : List (String × Json)) (k : String) : Json := (Json.Fields.get? fields k).getD .null

/-- One entry of `files`. -/
def snapshotFile (u : Unicode) (previous : Option String) : Json → Except SessionWorkspaceError File
  | .obj fields => do
    Except.require (Json.Fields.keysAre fields fileKeys = true) snapshotInvalid
    let path ← (Contract.validateVirtualPath u (field fields "path")).mapError fun _ ↦ snapshotInvalid
    let sha256 ← (Contract.requireSha256 "workspace snapshot file sha256" (field fields "sha256")).mapError
      fun _ ↦ snapshotInvalid
    Except.require ((Utf8.bytes path).length ≤ pathMaxBytes ∧ (components path).length ≤ pathMaxDepth)
      snapshotInvalid
    let sizeBytes ← Except.okOr (field fields "sizeBytes").asU64? snapshotInvalid
    let executable ← Except.okOr (field fields "executable").asBool? snapshotInvalid
    Except.require (FollowsText previous path) snapshotInvalid
    return { path, sizeBytes, sha256, executable }
  | _ => .error snapshotInvalid

/-- The pass over `files`, with the size that is announced for all of them. -/
def snapshotFiles (u : Unicode) (announced : Nat) :
    Option String → Nat → List Json → Except SessionWorkspaceError (List File)
  | _, expanded, [] => do
    Except.require (expanded = announced) snapshotInvalid
    return []
  | previous, expanded, v :: items => do
    let f ← snapshotFile u previous v
    Except.require (expanded + f.sizeBytes ≤ announced) snapshotInvalid
    let files ← snapshotFiles u announced (some f.path) (expanded + f.sizeBytes) items
    return f :: files

/-- `_workspace_snapshot_manifest`. A number with a fraction or an exponent, which Python would read as
a float, is no value of any of the fields, and a text with one is refused. -/
def workspaceSnapshotManifest (u : Unicode) (candidate : Candidate) (manifestBytes : List UInt8) :
    Except SessionWorkspaceError (List File) := do
  let text ← Except.okOr (Utf8.decode manifestBytes) snapshotInvalid
  let manifest ← Except.okOr (JsonText.loads text.toList) snapshotInvalid
  Except.require (Utf8.bytes (String.ofList (JsonText.render JsonText.pyEscape manifest)) = manifestBytes)
    snapshotInvalid
  let fields ← Except.okOr manifest.asObject? snapshotInvalid
  Except.require (Json.Fields.keysAre fields manifestKeys = true) snapshotInvalid
  Except.require (field fields "schema" = .str snapshotSchema) snapshotInvalid
  let files ← Except.okOr (field fields "files").asArray? snapshotInvalid
  Except.require (files.length = candidate.fileCount ∧ files ≠ []) snapshotInvalid
  snapshotFiles u candidate.expandedSizeBytes none 0 files

theorem followsText_iff {previous : Option String} {path : String} :
    FollowsText previous path ↔ Follows previous path := by
  simp only [FollowsText, Follows, isPrefixOf_iff_isBelow]

/-- What the API accepts as an entry. -/
structure Entry (u : Unicode) (v : Json) (f : File) : Prop where
  keys : ∃ fields, v = .obj fields ∧ Json.Fields.keysAre fields fileKeys = true ∧
    field fields "path" = .str f.path ∧ field fields "sha256" = .str f.sha256 ∧
    (field fields "sizeBytes").asU64? = some f.sizeBytes ∧
    (field fields "executable").asBool? = some f.executable
  sandboxed : Sandboxed u f.path
  portable : Portable u f.path
  sha256 : IsSha256 f.sha256

theorem snapshotFile_eq_ok {u : Unicode} {previous : Option String} {v : Json} {f : File} :
    snapshotFile u previous v = .ok f ↔ Entry u v f ∧ Follows previous f.path := by
  cases v with
  | obj fields =>
    simp only [snapshotFile, Except.bind_eq_ok, Except.mapError_eq_ok, Contract.requireSha256_eq_ok,
      Except.okOr_eq_ok, Except.require_eq_ok, followsText_iff, Except.pure_eq_ok, Except.ok.injEq]
    constructor
    · rintro ⟨-, hkeys, path, hpath, sha256, ⟨hv, hsha⟩, -, hlimits, size, hsize, executable, hexec, -,
        hfollows, rfl⟩
      obtain ⟨hpathv, hsandboxed, hportable⟩ := validateVirtualPath_iff.1 ⟨hpath, hlimits⟩
      exact ⟨⟨⟨fields, rfl, hkeys, hpathv, hv, hsize, hexec⟩, hsandboxed, hportable, hsha⟩, hfollows⟩
    · rintro ⟨⟨⟨fields', hfields, hkeys, hpath, hv, hsize, hexec⟩, hsandboxed, hportable, hsha⟩, hfollows⟩
      obtain rfl := Json.obj.inj hfields
      obtain ⟨hvirtual, hlimits⟩ := validateVirtualPath_iff.2 ⟨hpath, hsandboxed, hportable⟩
      exact ⟨(), hkeys, _, hvirtual, _, ⟨hv, hsha⟩, (), hlimits, _, hsize, _, hexec, (), hfollows, rfl⟩
  | _ =>
    simp only [snapshotFile, reduceCtorEq, false_iff]
    rintro ⟨⟨⟨fields, h, -⟩, -⟩, -⟩
    exact absurd h (by simp)

/-- What the API accepts as the entries of a manifest. -/
theorem snapshotFiles_eq_ok {u : Unicode} {announced expanded : Nat} {previous : Option String}
    {items : List Json} {files : List File} :
    snapshotFiles u announced previous expanded items = .ok files ↔
      List.Forall₂ (Entry u) items files ∧ InOrder previous files ∧
        expanded + expandedSize files = announced := by
  induction items generalizing previous expanded files with
  | nil =>
    simp only [snapshotFiles, Except.require_bind, Except.pure_eq_ok, Except.ok.injEq,
      List.forall₂_nil_left_iff]
    constructor
    · rintro ⟨h, rfl⟩
      exact ⟨rfl, trivial, h⟩
    · rintro ⟨rfl, -, h⟩
      exact ⟨h, rfl⟩
  | cons v items ih =>
    have hsum (f : File) (files : List File) :
        expandedSize (f :: files) = f.sizeBytes + expandedSize files := rfl
    simp only [snapshotFiles, Except.bind_eq_ok, Except.require_eq_ok, snapshotFile_eq_ok, ih,
      Except.pure_eq_ok, Except.ok.injEq, List.forall₂_cons_left_iff]
    constructor
    · rintro ⟨f, ⟨hentry, hfollows⟩, -, -, rest, ⟨hrest, horder, hsize⟩, rfl⟩
      exact ⟨⟨f, rest, hentry, hrest, rfl⟩, ⟨hfollows, horder⟩, by rw [hsum]; omega⟩
    · rintro ⟨⟨f, rest, hentry, hrest, rfl⟩, ⟨hfollows, horder⟩, hsize⟩
      rw [hsum] at hsize
      exact ⟨f, ⟨hentry, hfollows⟩, (), by omega, rest, ⟨hrest, horder, by omega⟩, rfl⟩

/-! ### One manifest, three readers -/

/-- The texts of both writers are the same. -/
theorem render_pyEscape (v : Json) :
    JsonText.render JsonText.pyEscape v = JsonText.render JsonText.serdeEscape v := by
  rw [JsonText.pyEscape_eq_serdeEscape]

theorem File.dict_toJson (f : File) : JsonText.dict f.toJson = f.toJson := by
  simp [File.toJson, JsonText.dict, JsonText.dictFields, JsonText.table, Json.Fields.insert, Json.ofInt]

theorem dictItems_map_toJson (files : List File) :
    JsonText.dictItems (files.map File.toJson) = files.map File.toJson := by
  induction files with
  | nil => rfl
  | cons f files ih => rw [List.map_cons, JsonText.dictItems, File.dict_toJson, ih]

theorem Manifest.dict_toJson (m : Manifest) : JsonText.dict m.toJson = m.toJson := by
  simp [Manifest.toJson, JsonText.dict, JsonText.dictFields, JsonText.table, Json.Fields.insert,
    dictItems_map_toJson]

/-- What the API has seen of a manifest that it accepts. -/
theorem workspaceSnapshotManifest_eq_ok {u : Unicode} {candidate : Candidate} {b : List UInt8}
    {files : List File} :
    workspaceSnapshotManifest u candidate b = .ok files ↔ ∃ fields items,
      b = Utf8.bytes (String.ofList (JsonText.render JsonText.serdeEscape (.obj fields))) ∧
      JsonText.dict (.obj fields) = .obj fields ∧
      Json.Fields.keysAre fields manifestKeys = true ∧ field fields "schema" = .str snapshotSchema ∧
      (field fields "files").asArray? = some items ∧
      (items.length = candidate.fileCount ∧ items ≠ []) ∧ List.Forall₂ (Entry u) items files ∧
      InOrder none files ∧ expandedSize files = candidate.expandedSizeBytes := by
  simp only [workspaceSnapshotManifest, Except.bind_eq_ok, Except.okOr_eq_ok, Except.require_eq_ok,
    snapshotFiles_eq_ok, Nat.zero_add, render_pyEscape]
  constructor
  · rintro ⟨text, htext, v, hv, -, hcanonical, fields, hfields, -, hkeys, -, hschema, items, hitems, -,
      hcount, hentries, horder, hsize⟩
    obtain rfl : v = .obj fields := by
      cases v with
      | obj fields' => exact congrArg Json.obj (Option.some.inj hfields)
      | _ => exact absurd hfields (by simp [Json.asObject?])
    refine ⟨fields, items, hcanonical.symm, ?_, hkeys, hschema, hitems, hcount, hentries, horder, hsize⟩
    -- the text is canonical, so reading it again gives the value with its own tables
    have htext' : text = String.ofList (JsonText.render JsonText.serdeEscape (.obj fields)) :=
      Utf8.bytes_injective ((Utf8.bytes_of_decode htext).trans hcanonical.symm)
    rw [htext', String.toList_ofList, JsonText.loads,
      JsonText.parse_render JsonText.escapes_serdeEscape] at hv
    exact Option.some.inj hv
  · rintro ⟨fields, items, rfl, hdict, hkeys, hschema, hitems, hcount, hentries, horder, hsize⟩
    refine ⟨_, Utf8.decode_bytes _, .obj fields, ?_, (), rfl, fields, rfl, (), hkeys, (), hschema, items,
      hitems, (), hcount, hentries, horder, hsize⟩
    rw [String.toList_ofList]
    exact JsonText.loads_render JsonText.escapes_serdeEscape hdict

theorem asU64?_eq_some {v : Json} {n : Nat} : v.asU64? = some n ↔ v = .ofInt n := by
  constructor
  · intro h
    rw [Json.asU64?.eq_def] at h
    split at h
    · split at h
      · next hm => rw [Json.ofInt, ← Option.some.inj h, Int.toNat_of_nonneg hm]
      · exact absurd h (by simp)
    · exact absurd h (by simp)
  · rintro rfl
    exact Json.asU64?_ofInt n

theorem asBool?_eq_some {v : Json} {b : Bool} : v.asBool? = some b ↔ v = .bool b := by
  cases v <;> simp [Json.asBool?]

theorem entry_toJson {u : Unicode} {f : File} (hsandboxed : Sandboxed u f.path)
    (hportable : Portable u f.path) (hsha : IsSha256 f.sha256) : Entry u f.toJson f where
  keys := ⟨_, rfl, rfl, rfl, rfl, Json.asU64?_ofInt _, rfl⟩
  sandboxed := hsandboxed
  portable := hportable
  sha256 := hsha

/-- An entry that lists its keys in the order of the struct is the struct's. -/
theorem Entry.eq_toJson {u : Unicode} {fields : List (String × Json)} {f : File}
    (h : Entry u (.obj fields) f) (hkeys : fields.map Prod.fst = fileKeys) : .obj fields = f.toJson := by
  obtain ⟨fields', heq, -, hpath, hsha, hsize, hexec⟩ := h.keys
  obtain rfl := Json.obj.inj heq
  match fields, hkeys with
  | [(_, a), (_, b), (_, c), (_, d)], rfl =>
    obtain rfl : a = .str f.path := hpath
    obtain rfl : c = .str f.sha256 := hsha
    obtain rfl : b = .ofInt f.sizeBytes := asU64?_eq_some.1 hsize
    obtain rfl : d = .bool f.executable := asBool?_eq_some.1 hexec
    rfl

/-- An entry of the struct is the struct's file. -/
theorem Entry.eq_of_toJson {u : Unicode} {f g : File} (h : Entry u g.toJson f) : f = g := by
  obtain ⟨fields, heq, -, hpath, hsha, hsize, hexec⟩ := h.keys
  obtain rfl := Json.obj.inj heq
  have hpath : Json.str g.path = .str f.path := hpath
  have hsha : Json.str g.sha256 = .str f.sha256 := hsha
  have hsize : some g.sizeBytes = some f.sizeBytes := (Json.asU64?_ofInt _).symm.trans hsize
  have hexec : some g.executable = some f.executable := hexec
  cases f
  cases g
  simp_all

/-- The manifest lists the keys of its objects in the order of the structs. -/
def inStructOrder (manifestBytes : List UInt8) : Bool :=
  match (Utf8.decode manifestBytes).bind fun text ↦ JsonText.parse text.toList with
  | some (.obj fields) => fields.map Prod.fst == manifestKeys &&
    ((field fields "files").asArray?.getD []).all fun item ↦
      match item with
      | .obj fields => fields.map Prod.fst == fileKeys
      | _ => false
  | _ => false

theorem inStructOrder_toVec (m : Manifest) : inStructOrder m.toVec = true := by
  rw [inStructOrder, Manifest.toVec, Utf8.decode_bytes]
  simp only [Option.bind_some, String.toList_ofList, JsonText.parse_render JsonText.escapes_serdeEscape]
  simp [Manifest.toJson, field, Json.Fields.get?, manifestKeys, File.toJson, fileKeys]

/-- Entries that list their keys in the order of the struct are the struct's. -/
theorem eq_map_toJson {u : Unicode} {items : List Json} {files : List File}
    (h : List.Forall₂ (Entry u) items files)
    (hkeys : ∀ fields, .obj fields ∈ items → fields.map Prod.fst = fileKeys) :
    items = files.map File.toJson := by
  induction h with
  | nil => rfl
  | @cons v f items files hentry _ ih =>
    obtain ⟨fields, rfl, -⟩ := hentry.keys
    rw [List.map_cons, hentry.eq_toJson (hkeys fields List.mem_cons_self),
      ih fun fields hmem ↦ hkeys fields (List.mem_cons_of_mem _ hmem)]

theorem eq_manifestFields {fields : List (String × Json)} {items : List Json}
    (hkeys : fields.map Prod.fst = manifestKeys) (hschema : field fields "schema" = .str snapshotSchema)
    (hitems : (field fields "files").asArray? = some items) :
    fields = [("schema", .str snapshotSchema), ("files", .arr items)] := by
  match fields, hkeys with
  | [(_, a), (_, c)], rfl =>
    obtain rfl : a = .str snapshotSchema := hschema
    obtain rfl : c = .arr items := by
      cases c with
      | arr items' => exact congrArg Json.arr (Option.some.inj hitems)
      | _ => exact absurd hitems (by simp [field, Json.Fields.get?, Json.asArray?])
    rfl

/-- A manifest that the API accepts and that lists its keys in the order of the structs is one that the
structs encode. -/
theorem eq_toVec_of_inStructOrder {u : Unicode} {candidate : Candidate} {b : List UInt8}
    {files : List File} (h : workspaceSnapshotManifest u candidate b = .ok files)
    (hstruct : inStructOrder b = true) : b = (Manifest.mk snapshotSchema files).toVec := by
  obtain ⟨fields, items, rfl, -, -, hschema, hitems, -, hentries, -⟩ :=
    workspaceSnapshotManifest_eq_ok.1 h
  rw [inStructOrder, Utf8.decode_bytes] at hstruct
  simp only [Option.bind_some, String.toList_ofList, JsonText.parse_render JsonText.escapes_serdeEscape,
    hitems, Option.getD_some, Bool.and_eq_true, beq_iff_eq, List.all_eq_true] at hstruct
  obtain ⟨hkeys, hall⟩ := hstruct
  have hmap := eq_map_toJson hentries fun fields hmem ↦ by simpa using hall _ hmem
  rw [eq_manifestFields hkeys hschema hitems, hmap, Manifest.toVec, Manifest.toJson]

/-- The API accepts a manifest that the agent has written when all its paths are portable. -/
theorem workspaceSnapshotManifest_toVec {u : Unicode} {candidate : Candidate} {m : Manifest}
    {files : List File} (hschema : m.schema = snapshotSchema) (hne : m.files ≠ [])
    (hfiles : ∀ f ∈ m.files, Sandboxed u f.path ∧ IsSha256 f.sha256) (horder : InOrder none m.files)
    (hcount : candidate.fileCount = m.files.length)
    (hsize : candidate.expandedSizeBytes = expandedSize m.files) :
    workspaceSnapshotManifest u candidate m.toVec = .ok files ↔
      files = m.files ∧ ∀ f ∈ m.files, Portable u f.path := by
  rw [workspaceSnapshotManifest_eq_ok]
  constructor
  · rintro ⟨fields, items, hvec, -, -, -, hitems, -, hentries, -⟩
    -- two values with one text are the same
    have hvalue : Json.obj fields = m.toJson := by
      have hlist := congrArg String.toList (Utf8.bytes_injective hvec)
      rw [String.toList_ofList, String.toList_ofList] at hlist
      have hparse := congrArg JsonText.parse hlist
      rw [JsonText.parse_render JsonText.escapes_serdeEscape,
        JsonText.parse_render JsonText.escapes_serdeEscape] at hparse
      exact (Option.some.inj hparse).symm
    obtain rfl := Json.obj.inj hvalue
    obtain rfl : m.files.map File.toJson = items := Option.some.inj hitems
    rw [List.forall₂_map_left_iff] at hentries
    have hall : List.Forall₂ (fun g f ↦ f = g ∧ Portable u f.path) m.files files :=
      hentries.imp fun g f hentry ↦ ⟨hentry.eq_of_toJson, hentry.portable⟩
    obtain rfl : m.files = files := by
      rw [← List.forall₂_eq_eq_eq]
      exact hall.imp fun g f h ↦ h.1.symm
    exact ⟨rfl, fun f hf ↦ ((List.forall₂_same.1 hall) f hf).2⟩
  · rintro ⟨rfl, hportable⟩
    refine ⟨_, m.files.map File.toJson, rfl, m.dict_toJson, rfl, congrArg Json.str hschema, rfl,
      ⟨by rw [List.length_map, hcount], by simpa using hne⟩, ?_, horder, hsize.symm⟩
    rw [List.forall₂_map_left_iff, List.forall₂_same]
    exact fun f hf ↦ entry_toJson (hfiles f hf).1 (hportable f hf) (hfiles f hf).2

end Centaeris.Frame
