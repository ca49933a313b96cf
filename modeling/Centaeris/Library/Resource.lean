import Centaeris.Library.Object

/-!
# Storage objects of deleted things

`DerivedResource` rows say which storage objects belong to which owner, and from when on they may be
collected. Here are the functions of `assets.py` that write them when an owner is deleted, restored or
gets a new content, for the library.
-/

namespace Centaeris.Library

/-- `ownerKind`. -/
inductive OwnerKind
  | sourceObject
  | userLibraryObject
  | artifact
  deriving DecidableEq, Repr

/-- `state`. -/
inductive ResourceState
  | active
  | pending
  | cleaning
  | cleaned
  | failed
  deriving DecidableEq, Repr

/-- `DerivedResource`. Its kind is `storageObject`, the only one that can be saved. -/
structure DerivedResource where
  id : String
  ownerKind : OwnerKind
  ownerId : String
  ownerContentGeneration : Nat
  deletionGeneration : Nat
  resourceKey : String
  state : ResourceState
  tombstonedAt : Option Int
  leaseOwner : String
  leaseExpiresAt : Option Int
  cleanupAttempts : Nat
  lastFailure : String
  cleanedAt : Option Int
  deriving DecidableEq

/-- The rows, by their id. -/
abbrev Resources : Type := Table DerivedResource.id

/-- The tables that belong to the library. -/
structure Database (υ : Type) where
  objects : Objects υ
  resources : Resources

namespace DerivedResource

/-- The resource is of a library object. -/
def isOf (ownerId : String) (r : DerivedResource) : Bool :=
  decide (r.ownerKind = .userLibraryObject) && decide (r.ownerId = ownerId)

/-- The assignments of an update that tombstones a resource. -/
def tombstone (r : DerivedResource) (tombstonedAt : Int) : DerivedResource :=
  { r with
    state := .pending
    tombstonedAt := some tombstonedAt
    leaseOwner := ""
    leaseExpiresAt := none
    lastFailure := "" }

end DerivedResource

section Writes

variable {υ : Type}

/-- `tombstone_superseded_derived_resources`. -/
def tombstoneSupersededDerivedResources (resources : Resources) (owner : UserLibraryObject υ)
    (now : Int) : Resources :=
  resources.update
    (fun r ↦ r.isOf owner.id && decide (r.ownerContentGeneration < owner.contentGeneration) &&
      decide (r.state = .active))
    (·.tombstone now) fun _ ↦ rfl

end Writes

end Centaeris.Library
