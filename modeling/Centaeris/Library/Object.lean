import Centaeris.Contract.Strings
import Centaeris.Relational.Table

/-!
# Library objects

The rows of a user's library, `UserLibraryObject`, and of the storage objects that belong to something
deleted, `DerivedResource`, with the functions on single rows and the queries of `http/library.py` that
several operations share: names, siblings, deletion, restoring and retention.

The tables of Unicode, the class `\w` of a regular expression and the `UPPER` that the database compares
names with are parameters. Times are microseconds.
-/

namespace Centaeris.Library

open Contract (Unicode isSpace strip)

/-! ### Rows -/

/-- `objectKind`. -/
inductive ObjectKind
  | file
  | image
  | folder
  | note
  | savedArtifact
  deriving DecidableEq, Repr

/-- `status`. -/
inductive Status
  | processing
  | ready
  | failed
  | deleted
  deriving DecidableEq, Repr

/-- `UserLibraryObject`, of users in `υ`. An absent `deletedFromStatus` is the empty text. -/
structure UserLibraryObject (υ : Type) where
  id : String
  owner : υ
  displayName : String
  objectKind : ObjectKind
  contentType : String
  sizeBytes : Nat
  sha256 : String
  storageKey : String
  parentFolder : Option String
  status : Status
  deletedAt : Option Int
  deletedBy : Option υ
  purgedAt : Option Int
  deletedFromStatus : Option Status
  deletionGeneration : Nat
  contentGeneration : Nat
  deriving DecidableEq

/-- The rows of the library, by their id. -/
abbrev Objects (υ : Type) : Type := Table (UserLibraryObject.id (υ := υ))

/-! ### Names -/

/-- What the functions on names read from the environment. -/
structure Texts where
  unicode : Unicode
  /-- `\w`, of one character. -/
  isWord : Char → Bool
  /-- `str.lower`. -/
  lower : String → String
  /-- The `UPPER` of the database. -/
  upper : String → String

/-- `re.sub(r"[^\w.-]+", "_", name)`: a run of other characters becomes one underscore. -/
def substitute (isWord : Char → Bool) : List Char → List Char
  | [] => []
  | c :: rest =>
    if isWord c || c == '.' || c == '-' then c :: substitute isWord rest
    else
      match substitute isWord rest, rest with
      | s, [] => '_' :: s
      | s, d :: _ => if isWord d || d == '.' || d == '-' then '_' :: s else s

/-- `safe_filename`. -/
def safeFilename (t : Texts) (value : String) : Except String String := do
  let normalized := t.unicode.nfc value
  Except.require (¬ normalized.toList.any t.unicode.isOther) "filename contains a control character"
  let name := strip isSpace normalized
  Except.require (¬ (name = "" ∨ '/' ∈ name.toList ∨ '\\' ∈ name.toList ∨ name = "." ∨ name = ".."))
    "filename must be a basename"
  let safe := strip (fun c ↦ c == '.' || c == '_') (String.ofList (substitute t.isWord name.toList))
  Except.require (safe ≠ "") "filename has no safe characters"
  return safe

/-- `_require_library_display_name`, of a text. -/
def requireLibraryDisplayName (t : Texts) (value : String) : Except String String := do
  let normalized := strip isSpace (t.unicode.nfc value)
  Except.require (¬ (normalized = "" ∨ normalized.length > 255)) "library_display_name_invalid"
  let _ ← safeFilename t normalized
  return normalized

section Names

variable {υ : Type} [DecidableEq υ]

/-- A row that a name is compared with: of this owner, in this folder and not deleted. -/
def UserLibraryObject.isIn (user : υ) (parentFolder : Option String) (o : UserLibraryObject υ) : Bool :=
  decide (o.owner = user) && decide (o.parentFolder = parentFolder) && decide (o.status ≠ .deleted)

/-- `_library_name_taken`: the comparison is `displayName__iexact`. -/
def libraryNameTaken (t : Texts) (objects : Objects υ) (user : υ) (parentFolder : Option String)
    (excludeId : Option String) (displayName : String) : Bool :=
  objects.rows.any fun o ↦ o.isIn user parentFolder &&
    decide (t.upper o.displayName = t.upper displayName) && decide (some o.id ≠ excludeId)

variable {t : Texts} {objects : Objects υ} {user : υ} {parentFolder excludeId : Option String}
  {displayName : String}

end Names

/-! ### Deletion and retention -/

namespace UserLibraryObject

variable {υ : Type}

/-- What `tombstone_stored_object` does to the row. -/
def tombstone (o : UserLibraryObject υ) (now : Int) (deletedBy : υ) : UserLibraryObject υ :=
  { o with
    status := .deleted
    deletedAt := some now
    deletedBy := some deletedBy
    deletedFromStatus := some o.status
    deletionGeneration := o.deletionGeneration + 1 }

/-- What `restore_library_object` does to the row. A row without a status to go back to is refused when
it is saved. -/
def restore? (o : UserLibraryObject υ) (displayName : String) : Option (UserLibraryObject υ) :=
  o.deletedFromStatus.map fun status ↦
    { o with
      displayName
      status
      deletedAt := none
      deletedBy := none
      purgedAt := none
      deletedFromStatus := none
      contentGeneration := o.contentGeneration + 1 }

end UserLibraryObject

end Centaeris.Library
