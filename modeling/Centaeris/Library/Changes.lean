import Centaeris.Library.Object
import Centaeris.Relational.Pool

/-!
# Changes of a library

The requests of `http/library.py` that write the objects of one user, with their refusals and the answers
that the exception handlers give, and the changes that a transaction makes. Every change puts one row into
the table: a change of a row that is there assigns its fields (`puts_update`).

What a request has stored before its transaction is part of the request.
-/

namespace Centaeris.Library

open Contract (isSpace strip)

/-! ### Requests -/

/-- What `store_upload` and `store_bytes` return. -/
structure Metadata where
  displayName : String
  contentType : String
  sizeBytes : Nat
  sha256 : String
  storageKey : String
  deriving DecidableEq

/-- A request. A field of an update that was not given is `none`, and one that was given as null is
`some none`. -/
inductive Request
  | uploadLibraryObjects (parentFolderId : String) (stored : List Metadata)
  | createLibraryFolder (displayName parentFolderId : String)
  | createLibraryNote (displayName parentFolderId : String) (metadata : Metadata)
  | updateLibraryObject (id : String) (displayName parentFolderId : Option (Option String))
  | updateLibraryNote (id displayName : String) (metadata : Metadata)
  | deleteLibraryObject (id : String)
  | restoreLibraryObject (id : String)
  deriving DecidableEq

/-- Why a request does not do what it was asked for. -/
inductive Refusal
  | doesNotExist
  | nameConflict
  | valueError (text : String)
  /-- A response that the handler returns itself. -/
  | response (status : Nat) (error : String)
  /-- The loop over the numbered names has not ended. -/
  | running
  deriving DecidableEq

/-- How a request ends. -/
inductive Answer
  | ok
  | error (status : Nat) (error : String)
  /-- An exception that no handler turns into a response. -/
  | raised
  deriving DecidableEq

/-- The exception handlers around the transaction. -/
def Request.answerInside : Request → Refusal → Answer
  | _, .response status error => .error status error
  | uploadLibraryObjects .., _ => .raised
  | updateLibraryNote .., .doesNotExist => .error 404 "library_note_not_found"
  | _, .doesNotExist => .error 404 "library_object_not_found"
  | restoreLibraryObject _, _ => .raised
  | _, .nameConflict => .error 409 "library_name_conflict"
  | updateLibraryObject .., .valueError _ => .error 400 "library_update_request_invalid"
  | updateLibraryNote .., .valueError _ => .error 400 "library_note_request_invalid"
  | _, _ => .raised

section Changes

variable {υ : Type}

/-- One write of a transaction. -/
inductive Change (υ : Type)
  | insert (row : UserLibraryObject υ)
  | rename (id displayName : String) (parentFolder : Option String)
  | note (id displayName : String) (metadata : Metadata)
  | tombstone (id : String) (now : Int) (deletedBy : υ)
  | restore (id displayName : String)
  deriving DecidableEq

/-- The fields that a change of a row assigns. -/
def Change.assign (o : UserLibraryObject υ) : Change υ → UserLibraryObject υ
  | insert _ => o
  | rename _ displayName parentFolder => { o with displayName, parentFolder }
  | note _ displayName m =>
    { o with
      displayName
      contentType := m.contentType
      sizeBytes := m.sizeBytes
      sha256 := m.sha256
      storageKey := m.storageKey
      contentGeneration := o.contentGeneration + 1 }
  | tombstone _ now deletedBy => o.tombstone now deletedBy
  | restore _ displayName => (o.restore? displayName).getD o

/-- The row that a change is about. -/
def Change.id : Change υ → String
  | insert row => row.id
  | rename id .. | note id .. | tombstone id .. | restore id .. => id

theorem Change.assign_id (o : UserLibraryObject υ) (change : Change υ) : (change.assign o).id = o.id := by
  cases change with
  | restore id displayName =>
    simp only [assign, UserLibraryObject.restore?]
    cases o.deletedFromStatus <;> rfl
  | _ => rfl

/-- A change takes place; a taken id refuses a new row. -/
def Change.apply (objects : Objects υ) (change : Change υ) : Option (Objects υ) :=
  match change with
  | insert row => objects.insert? row
  | change =>
    some (objects.update (fun o ↦ decide (o.id = change.id)) (change.assign ·)
      fun o ↦ change.assign_id o)

end Changes

section Transactions

variable {υ : Type} [DecidableEq υ] (t : Texts) (user : υ)

/-- `_require_library_name_available`. -/
def requireLibraryNameAvailable (objects : Objects υ) (parent : Option String) (displayName : String)
    (excludeId : Option String) : Except Refusal Unit :=
  Except.require (libraryNameTaken t objects user parent excludeId displayName = false) .nameConflict

/-- `UserLibraryObject.save`: the folder is one of this owner. Its status is not looked at. -/
def requireParentOwned (objects : Objects υ) (parent : Option String) : Except Refusal Unit :=
  Except.require
    (parent.all fun id ↦ (objects.get? id).any fun o ↦
      decide (o.owner = user) && decide (o.objectKind = .folder))
    (.valueError "UserLibraryObject parent ownership mismatch")

/-- A new row. -/
def newObject (id displayName : String) (objectKind : ObjectKind) (contentType : String)
    (sizeBytes : Nat) (sha256 storageKey : String) (contentGeneration : Nat) (parent : Option String) :
    UserLibraryObject υ where
  id
  owner := user
  displayName
  objectKind
  contentType
  sizeBytes
  sha256
  storageKey
  parentFolder := parent
  status := .ready
  deletedAt := none
  deletedBy := none
  purgedAt := none
  deletedFromStatus := none
  deletionGeneration := 0
  contentGeneration

/-- `_library_object`. -/
def libraryObject (objects : Objects υ) (id : String) : Except Refusal (UserLibraryObject υ) :=
  Except.okOr ((objects.get? id).filter fun o ↦ decide (o.owner = user)) .doesNotExist

end Transactions

section Puts

variable {υ : Type} {objects objects' : Objects υ} {x : String} {o o' : UserLibraryObject υ}

/-- The table with one row put in. -/
def Puts (objects : Objects υ) (x : String) (o' : UserLibraryObject υ) (objects' : Objects υ) : Prop :=
  ∀ k, objects'.get? k = if x = k then some o' else objects.get? k

theorem Puts.get?_self (h : Puts objects x o' objects') : objects'.get? x = some o' := by
  rw [h, if_pos rfl]

/-- A change of a row that is there. -/
theorem puts_update {change : Change υ} (hchange : ∀ row, change ≠ .insert row)
    (ho : objects.get? change.id = some o) :
    ∃ objects', change.apply objects = some objects' ∧ Puts objects change.id (change.assign o) objects' := by
  refine ⟨objects.update (fun o ↦ decide (o.id = change.id)) (change.assign ·)
    fun o ↦ change.assign_id o, ?_, fun k ↦ ?_⟩
  · cases change with
    | insert row => exact absurd rfl (hchange row)
    | _ => rfl
  · rw [Table.get?_update]
    by_cases hk : change.id = k
    · subst hk
      simp [ho, (Table.key_of_get? ho : o.id = change.id)]
    · rw [if_neg hk]
      cases hget : objects.get? k with
      | none => rfl
      | some r =>
        have hid : r.id = k := Table.key_of_get? hget
        simp [hid, Ne.symm hk]

theorem libraryObject_eq_ok [DecidableEq υ] {user : υ} {id : String} (h : libraryObject user objects id = .ok o) :
    objects.get? id = some o ∧ o.owner = user := by
  obtain ⟨hget, howner⟩ := Option.filter_eq_some_iff.1 (Except.okOr_eq_ok.1 h)
  exact ⟨hget, of_decide_eq_true howner⟩

end Puts

section Sample

/-- Texts in which nothing is changed or compared but letter by letter. -/
def plainTexts : Texts where
  unicode := ⟨id, Contract.isControl, fun _ h ↦ h⟩
  isWord _ := true
  lower := id
  upper := id

end Sample

end Centaeris.Library
