import Centaeris.Library.Changes
import Centaeris.Library.Resource

/-!
# Updating a note

`update_library_note`, statement by statement. The new content is stored under a key of its own and the
row is given that key; then the old object is removed, and then the transaction is committed. Any
statement may raise, the process may end before any of them, and a commit may fail, or take place and be
reported as failed. An exception rolls the transaction back and removes the new object.

**What holds.** As long as the commit takes place once the old object has been removed, the committed row
names an object with its size and digest: the old content if the transaction did not commit, the new one
if it did (`note_update_atomic`). The invariant is that the old object is there up to its removal, and the
new one from when it is written on.

**What does not.** The old object is removed before the commit. If the commit fails the row is the old
one, and neither object is there (`note_update_loses_content`).
-/

namespace Centaeris.Library

/-- The content of an object. -/
abbrev Bytes : Type := List UInt8

/-- `update_library_note`: its path and its body. -/
structure NoteUpdate where
  id : String
  displayName : String
  /-- The markdown in UTF-8, or nothing when it has no encoding. -/
  markdown : Option Bytes

/-- Where the request is. -/
inductive NotePoint (υ : Type)
  | start
  /-- In the transaction, before its statements. -/
  | entered (displayName : String)
  /-- Before `default_storage.save`. -/
  | storing (item : UserLibraryObject υ) (displayName : String) (content : Bytes)
  /-- In `default_storage.save`, with what is written so far. -/
  | writing (item : UserLibraryObject υ) (displayName : String) (content written : Bytes) (key : String)
  /-- The new content is stored. -/
  | stored (item : UserLibraryObject υ) (metadata : Metadata)
  /-- The row is saved. -/
  | saved (item : UserLibraryObject υ) (metadata : Metadata)
  /-- Before the old object is removed. -/
  | superseded (item : UserLibraryObject υ) (metadata : Metadata)
  /-- Before the commit. -/
  | committing (item : UserLibraryObject υ) (metadata : Metadata)
  /-- In the exception handler, with the new key and the answer to the exception. -/
  | cleaning (key : String) (answer : Answer)
  | done (answer : Answer)
  | crashed

/-- An event. -/
inductive NoteEvent
  /-- The next statement. -/
  | go
  /-- `default_storage.save` gives the object this key. -/
  | create (key : String)
  /-- So many bytes are written. -/
  | chunk (size : Nat)
  /-- The time of an update. -/
  | at (now : Int)
  /-- The statement raises and does nothing. -/
  | fail
  /-- The commit takes place and its answer is lost. -/
  | lose
  /-- The process ends. -/
  | crash

/-- The committed rows, the rows of the open transaction, and the storage. -/
structure NoteState (υ : Type) where
  point : NotePoint υ
  database : Database υ
  working : Database υ
  storage : String → Option Bytes
  /-- Whether the transaction has committed. -/
  committed : Bool

section Step

variable {υ : Type} [DecidableEq υ] (t : Texts) (sha256 : Bytes → String) (user : υ) (request : NoteUpdate)

/-- The name of the stored file. -/
def noteFilename (displayName : String) : String :=
  if (t.lower displayName).toList.reverse.take 3 = ['d', 'm', '.'] then displayName else displayName ++ ".md"

/-- The statements up to `store_bytes`, and its check of the file name. -/
def lookUpNote (objects : Objects υ) (displayName : String) :
    Except Refusal (UserLibraryObject υ × Bytes) := do
  let item ← libraryObject user objects request.id
  Except.require (item.objectKind = .note ∧ item.status = .ready) .doesNotExist
  requireLibraryNameAvailable t user objects item.parentFolder displayName (some item.id)
  let content ← Except.okOr request.markdown (.valueError "surrogates not allowed")
  let _ ← (safeFilename t (t.unicode.nfc (noteFilename t displayName))).mapError .valueError
  return (item, content)

namespace NoteState

variable (s : NoteState υ)

/-- The transaction is rolled back. -/
def rollback : NoteState υ := { s with working := s.database }

/-- An exception leaves the transaction; the handler removes the new object, if there is one. -/
def raise (answer : Answer) : NoteState υ :=
  match s.point with
  | .stored _ m | .saved _ m | .superseded _ m | .committing _ m =>
    { s.rollback with point := .cleaning m.storageKey answer }
  | _ => { s.rollback with point := .done answer }

/-- The transaction commits. -/
def commit : NoteState υ := { s with database := s.working, committed := true }

/-- `delete_stored_object`. -/
def delete (key : String) : NoteState υ :=
  if key = "" then s else { s with storage := Function.update s.storage key none }

end NoteState

/-- `default_storage.save`, which never overwrites. -/
def createObject (s : NoteState υ) (item : UserLibraryObject υ) (displayName : String) (content : Bytes)
    (key : String) : Option (NoteState υ) :=
  if s.storage key = none then
    some { s with
      point := .writing item displayName content [] key
      storage := Function.update s.storage key (some []) }
  else none

/-- More of the content is written, and the object is complete with its last byte. -/
def writeChunk (s : NoteState υ) (item : UserLibraryObject υ) (displayName : String)
    (content written : Bytes) (key : String) (size : Nat) : NoteState υ :=
  let written := content.take (written.length + size)
  { s with
    point :=
      if written = content then
        .stored item ⟨displayName, "text/markdown", content.length, sha256 content, key⟩
      else .writing item displayName content written key
    storage := Function.update s.storage key (some written) }

/-- The rows after `item.save`. -/
def saveNote (database : Database υ) (item : UserLibraryObject υ) (m : Metadata) :
    Except Refusal (Database υ) := do
  requireParentOwned user database.objects item.parentFolder
  let objects ← Except.okOr (Change.apply database.objects (.note item.id m.displayName m))
    (.valueError "UserLibraryObject matching query does not exist.")
  return { database with objects }

/-- One statement of the request. -/
def noteStep (s : NoteState υ) (e : NoteEvent) : Option (NoteState υ) :=
  match s.point, e with
  | .done _, _ | .crashed, _ => none
  | _, .crash => some { s.rollback with point := .crashed }
  | .start, .go =>
    match requireLibraryDisplayName t request.displayName with
    | .error _ => some { s with point := .done (.error 400 "library_note_request_invalid") }
    | .ok displayName => some { s with point := .entered displayName }
  | .entered displayName, .go =>
    match lookUpNote t user request s.working.objects displayName with
    | .error refusal => some (s.raise ((Request.updateLibraryNote request.id request.displayName
        ⟨"", "", 0, "", ""⟩).answerInside refusal))
    | .ok (item, content) => some { s with point := .storing item displayName content }
  | .storing item displayName content, .create key => createObject s item displayName content key
  | .writing item displayName content written key, .chunk size =>
    some (writeChunk sha256 s item displayName content written key size)
  | .stored item m, .go =>
    match saveNote user s.working item m with
    | .error _ => some (s.raise (.error 400 "library_note_request_invalid"))
    | .ok working => some { s with point := .saved item m, working }
  | .saved item m, .at now =>
    some { s with
      point := .superseded item m
      working := { s.working with
        resources := tombstoneSupersededDerivedResources s.working.resources
          ((Change.note item.id m.displayName m).assign item) now } }
  | .superseded item m, .go =>
    some { s.delete item.storageKey with point := .committing item m }
  | .committing _ _, .go => some { s.commit with point := .done .ok }
  | .committing _ m, .lose => some { s.commit with point := .cleaning m.storageKey .raised }
  | .cleaning key answer, .go => some { s.delete key with point := .done answer }
  | .cleaning _ _, .fail => some { s with point := .done .raised }
  | _, .fail => some (s.raise .raised)
  | _, _ => none

/-- The steps in which a commit that is begun takes place, with the process alive to see it. -/
def noteStepCommits (s : NoteState υ) (e : NoteEvent) : Option (NoteState υ) :=
  match s.point, e with
  | .committing _ _, .go => noteStep t sha256 user request s e
  | .committing _ _, _ => none
  | _, _ => noteStep t sha256 user request s e

end Step

section Atomic

variable {υ : Type} [DecidableEq υ] {t : Texts} {sha256 : Bytes → String} {user : υ} {request : NoteUpdate}

/-- The request is over. -/
def NotePoint.isOver : NotePoint υ → Bool
  | .done _ | .crashed => true
  | _ => false

/-- Before anything was done. -/
structure NoteState.Initial (s : NoteState υ) : Prop where
  point : s.point = .start
  working : s.working = s.database
  committed : s.committed = false

/-- The object of a row is there, and has this content of the size and digest of the row. -/
structure Stored (sha256 : Bytes → String) (storage : String → Option Bytes) (o : UserLibraryObject υ)
    (content : Bytes) : Prop where
  object : storage o.storageKey = some content
  size : o.sizeBytes = content.length
  digest : o.sha256 = sha256 content

/-- **What is left of a note**: the old row and the old content, or the new ones. -/
inductive NoteOutcome (sha256 : Bytes → String) (request : NoteUpdate) (o : UserLibraryObject υ)
    (content : Bytes) (s : NoteState υ) : Prop
  | old (hcommitted : s.committed = false) (hrow : s.database.objects.get? request.id = some o)
      (hstored : Stored sha256 s.storage o content)
  | new (hcommitted : s.committed = true) (o' : UserLibraryObject υ)
      (hrow : s.database.objects.get? request.id = some o') (markdown : Bytes)
      (hrequest : request.markdown = some markdown) (hstored : Stored sha256 s.storage o' markdown)

/-- The transaction has not committed, and the old content is there. -/
structure Untouched (sha256 : Bytes → String) (request : NoteUpdate) (o : UserLibraryObject υ)
    (content : Bytes) (s : NoteState υ) : Prop where
  committed : s.committed = false
  row : s.database.objects.get? request.id = some o
  stored : Stored sha256 s.storage o content

/-- The new content is there, under a key of its own. -/
structure Prepared (sha256 : Bytes → String) (request : NoteUpdate) (o : UserLibraryObject υ)
    (m : Metadata) (s : NoteState υ) : Prop where
  key : m.storageKey ≠ o.storageKey
  content : ∃ markdown, request.markdown = some markdown ∧ s.storage m.storageKey = some markdown ∧
    m.sizeBytes = markdown.length ∧ m.sha256 = sha256 markdown

/-- The row of the transaction is the new one. -/
def Rewritten (request : NoteUpdate) (o : UserLibraryObject υ) (m : Metadata) (s : NoteState υ) : Prop :=
  s.working.objects.get? request.id = some ((Change.note o.id m.displayName m).assign o)

/-- **The invariant of the request.** -/
def NoteKept (sha256 : Bytes → String) (request : NoteUpdate) (o : UserLibraryObject υ) (content : Bytes)
    (s : NoteState υ) : Prop :=
  match s.point with
  | .start | .entered _ => Untouched sha256 request o content s ∧ s.working = s.database
  | .storing item _ c => Untouched sha256 request o content s ∧ s.working = s.database ∧ item = o ∧
    request.markdown = some c
  | .writing item _ c _ key => Untouched sha256 request o content s ∧ s.working = s.database ∧ item = o ∧
    request.markdown = some c ∧ key ≠ o.storageKey
  | .stored item m => Untouched sha256 request o content s ∧ s.working = s.database ∧ item = o ∧
    Prepared sha256 request o m s
  | .saved item m | .superseded item m => Untouched sha256 request o content s ∧ item = o ∧
    Prepared sha256 request o m s ∧ Rewritten request o m s
  | .committing _ m => Prepared sha256 request o m s ∧ Rewritten request o m s
  | .cleaning key _ => Untouched sha256 request o content s ∧ key ≠ o.storageKey
  | .done _ | .crashed => NoteOutcome sha256 request o content s

variable {o : UserLibraryObject υ} {content : Bytes} {s s' : NoteState υ} {e : NoteEvent} {m : Metadata}

omit [DecidableEq υ] in
theorem Untouched.outcome (h : Untouched sha256 request o content s) : NoteOutcome sha256 request o content s :=
  .old h.committed h.row h.stored

omit [DecidableEq υ] in
/-- A rollback changes nothing that is committed. -/
theorem Untouched.rollback (h : Untouched sha256 request o content s) (point : NotePoint υ) :
    Untouched sha256 request o content { s.rollback with point } := ⟨h.committed, h.row, h.stored⟩

omit [DecidableEq υ] in
theorem Untouched.crash (h : Untouched sha256 request o content s) :
    NoteKept sha256 request o content { s.rollback with point := .crashed } :=
  (h.rollback .crashed).outcome

omit [DecidableEq υ] in
/-- An exception before the new content is stored. -/
theorem Untouched.raise (h : Untouched sha256 request o content s) (answer : Answer)
    (hpoint : ∀ item m, s.point ≠ .stored item m ∧ s.point ≠ .saved item m ∧
      s.point ≠ .superseded item m ∧ s.point ≠ .committing item m) :
    NoteKept sha256 request o content (s.raise answer) := by
  cases hs : s.point with
  | stored item m => exact absurd hs (hpoint item m).1
  | saved item m => exact absurd hs (hpoint item m).2.1
  | superseded item m => exact absurd hs (hpoint item m).2.2.1
  | committing item m => exact absurd hs (hpoint item m).2.2.2
  | _ =>
    rw [NoteState.raise, hs]
    exact (h.rollback _).outcome

omit [DecidableEq υ] in
/-- An exception after that. -/
theorem Untouched.cleaning (h : Untouched sha256 request o content s) {answer : Answer}
    (hm : Prepared sha256 request o m s) :
    NoteKept sha256 request o content { s.rollback with point := .cleaning m.storageKey answer } :=
  ⟨h.rollback _, hm.key⟩

omit [DecidableEq υ] in
/-- Another key is written. -/
theorem Untouched.write (h : Untouched sha256 request o content s) {key : String} (hkey : key ≠ o.storageKey)
    (value : Option Bytes) (point : NotePoint υ) :
    Untouched sha256 request o content { s with point, storage := Function.update s.storage key value } :=
  ⟨h.committed, h.row, (Function.update_of_ne (Ne.symm hkey) _ _).trans h.stored.object, h.stored.size,
    h.stored.digest⟩

theorem lookUpNote_eq_ok {objects : Objects υ} {displayName : String} {item : UserLibraryObject υ}
    {markdown : Bytes} (h : lookUpNote t user request objects displayName = .ok (item, markdown)) :
    objects.get? request.id = some item ∧ request.markdown = some markdown := by
  obtain ⟨_, hitem, h⟩ := Except.bind_eq_ok.1 h
  obtain ⟨-, h⟩ := Except.require_bind.1 h
  obtain ⟨_, -, h⟩ := Except.bind_eq_ok.1 h
  obtain ⟨_, hmarkdown, h⟩ := Except.okOr_bind.1 h
  obtain ⟨_, -, h⟩ := Except.bind_eq_ok.1 h
  cases h
  exact ⟨(libraryObject_eq_ok hitem).1, hmarkdown⟩

/-- The saved row. -/
theorem saveNote_eq_ok {database working : Database υ} (hrow : database.objects.get? request.id = some o)
    (h : saveNote user database o m = .ok working) :
    working.objects.get? request.id = some ((Change.note o.id m.displayName m).assign o) := by
  obtain ⟨_, -, h⟩ := Except.bind_eq_ok.1 h
  obtain ⟨objects, hobjects, h⟩ := Except.okOr_bind.1 h
  cases h
  have hid : o.id = request.id := Table.key_of_get? hrow
  obtain ⟨objects', happly, hputs⟩ :=
    @puts_update _ _ _ (.note o.id m.displayName m) (fun _ h ↦ by cases h) (hid ▸ hrow)
  cases hobjects.symm.trans happly
  rw [← hid]
  exact hputs.get?_self

omit [DecidableEq υ] in
/-- Writing goes on. -/
theorem writeChunk_kept {item : UserLibraryObject υ} {displayName key : String} {c written : Bytes}
    {size : Nat} (h : Untouched sha256 request o content s) (hworking : s.working = s.database)
    (hitem : item = o) (hrequest : request.markdown = some c) (hkey : key ≠ o.storageKey) :
    NoteKept sha256 request o content (writeChunk sha256 s item displayName c written key size) := by
  rw [writeChunk]
  split
  · rename_i hall
    rw [hall]
    exact ⟨h.write hkey _ _, hworking, hitem, hkey, c, hrequest, Function.update_self .., rfl, rfl⟩
  · exact ⟨h.write hkey _ _, hworking, hitem, hrequest, hkey⟩

/-- **Every step keeps the invariant.** -/
theorem NoteKept.step (h : NoteKept sha256 request o content s)
    (hstep : noteStepCommits t sha256 user request s e = some s') :
    NoteKept sha256 request o content s' := by
  obtain ⟨point, database, working, storage, committed⟩ := s
  cases point with
  | start =>
    obtain ⟨hold, hworking⟩ := h
    cases e with
    | go =>
      simp only [noteStepCommits, noteStep] at hstep
      split at hstep <;> cases hstep
      · exact Untouched.outcome ⟨hold.committed, hold.row, hold.stored⟩
      · exact ⟨⟨hold.committed, hold.row, hold.stored⟩, hworking⟩
    | fail =>
      cases hstep
      exact hold.raise _ fun _ _ ↦ ⟨nofun, nofun, nofun, nofun⟩
    | crash =>
      cases hstep
      exact hold.crash
    | _ => cases hstep
  | entered displayName =>
    obtain ⟨hold, hworking⟩ := h
    cases e with
    | go =>
      simp only [noteStepCommits, noteStep] at hstep
      split at hstep
      · cases hstep
        exact hold.raise _ fun _ _ ↦ ⟨nofun, nofun, nofun, nofun⟩
      · rename_i item c hlook
        cases hstep
        obtain ⟨hget, hrequest⟩ := lookUpNote_eq_ok hlook
        obtain rfl : working = database := hworking
        exact ⟨⟨hold.committed, hold.row, hold.stored⟩, rfl,
          Option.some.inj (hget.symm.trans hold.row), hrequest⟩
    | fail =>
      cases hstep
      exact hold.raise _ fun _ _ ↦ ⟨nofun, nofun, nofun, nofun⟩
    | crash =>
      cases hstep
      exact hold.crash
    | _ => cases hstep
  | storing item displayName c =>
    obtain ⟨hold, hworking, hitem, hrequest⟩ := h
    cases e with
    | create key =>
      simp only [noteStepCommits, noteStep, createObject] at hstep
      split at hstep
      · rename_i hfree
        cases hstep
        have hkey : key ≠ o.storageKey := by
          rintro rfl
          cases hfree.symm.trans hold.stored.object
        exact ⟨hold.write hkey _ _, hworking, hitem, hrequest, hkey⟩
      · cases hstep
    | fail =>
      cases hstep
      exact hold.raise _ fun _ _ ↦ ⟨nofun, nofun, nofun, nofun⟩
    | crash =>
      cases hstep
      exact hold.crash
    | _ => cases hstep
  | writing item displayName c written key =>
    obtain ⟨hold, hworking, hitem, hrequest, hkey⟩ := h
    cases e with
    | chunk size =>
      cases hstep
      exact writeChunk_kept hold hworking hitem hrequest hkey
    | fail =>
      cases hstep
      exact hold.raise _ fun _ _ ↦ ⟨nofun, nofun, nofun, nofun⟩
    | crash =>
      cases hstep
      exact hold.crash
    | _ => cases hstep
  | stored item m =>
    obtain ⟨hold, hworking, rfl, hm⟩ := h
    cases e with
    | go =>
      simp only [noteStepCommits, noteStep] at hstep
      split at hstep
      · cases hstep
        exact hold.cleaning hm
      · rename_i working' hsave
        cases hstep
        obtain rfl : working = database := hworking
        exact ⟨⟨hold.committed, hold.row, hold.stored⟩, rfl, ⟨hm.key, hm.content⟩,
          saveNote_eq_ok hold.row hsave⟩
    | fail =>
      cases hstep
      exact hold.cleaning hm
    | crash =>
      cases hstep
      exact hold.crash
    | _ => cases hstep
  | saved item m =>
    obtain ⟨hold, hitem, hm, hnew⟩ := h
    cases e with
    | «at» now =>
      cases hstep
      exact ⟨⟨hold.committed, hold.row, hold.stored⟩, hitem, ⟨hm.key, hm.content⟩, hnew⟩
    | fail =>
      cases hstep
      exact hold.cleaning hm
    | crash =>
      cases hstep
      exact hold.crash
    | _ => cases hstep
  | superseded item m =>
    obtain ⟨hold, rfl, hm, hnew⟩ := h
    cases e with
    | go =>
      cases hstep
      obtain ⟨markdown, hrequest, hcontent, hsize, hsha⟩ := hm.content
      refine ⟨⟨hm.key, markdown, hrequest, ?_, hsize, hsha⟩, ?_⟩
      · simp only [NoteState.delete]
        split
        · exact hcontent
        · exact (Function.update_of_ne hm.key _ _).trans hcontent
      · simp only [NoteState.delete]
        split <;> exact hnew
    | fail =>
      cases hstep
      exact hold.cleaning hm
    | crash =>
      cases hstep
      exact hold.crash
    | _ => cases hstep
  | committing item m =>
    -- only the commit itself is left here
    obtain ⟨hm, hnew⟩ := h
    cases e with
    | go =>
      cases hstep
      obtain ⟨markdown, hrequest, hcontent, hsize, hsha⟩ := hm.content
      exact .new rfl _ hnew markdown hrequest ⟨hcontent, hsize, hsha⟩
    | _ => cases hstep
  | cleaning key answer =>
    obtain ⟨hold, hkey⟩ := h
    cases e with
    | go =>
      cases hstep
      simp only [NoteState.delete]
      split
      · exact Untouched.outcome ⟨hold.committed, hold.row, hold.stored⟩
      · exact (hold.write hkey none _).outcome
    | fail =>
      cases hstep
      exact Untouched.outcome ⟨hold.committed, hold.row, hold.stored⟩
    | crash =>
      cases hstep
      exact hold.crash
    | _ => cases hstep
  | done answer => cases e <;> cases hstep
  | crashed => cases e <;> cases hstep

/-- **A note update is atomic with respect to the storage**, at all points at which it may raise or end,
as long as a commit that is begun takes place: the committed row names an object with its size and
digest, and that is the old content if the transaction did not commit and the new one if it did. -/
theorem note_update_atomic {events : List NoteEvent} (hinit : s.Initial)
    (hrow : s.database.objects.get? request.id = some o) (hstored : Stored sha256 s.storage o content)
    (hrun : events.foldlM (noteStepCommits t sha256 user request) s = some s')
    (hover : s'.point.isOver = true) : NoteOutcome sha256 request o content s' := by
  have hkept : NoteKept sha256 request o content s' := by
    refine (Run.of_exec hrun).invariant (I := NoteKept sha256 request o content) ?_
      fun _ _ _ hkept hstep ↦ hkept.step hstep
    rw [NoteKept, hinit.point]
    exact ⟨⟨hinit.committed, hrow, hstored⟩, hinit.working⟩
  rw [NoteKept] at hkept
  cases hpoint : s'.point with
  | done answer => rwa [hpoint] at hkept
  | crashed => rwa [hpoint] at hkept
  | _ =>
    rw [hpoint] at hover
    cases hover

end Atomic

section Sample

/-- A note with the content `[1]`. -/
def sampleNoteRow : UserLibraryObject Unit :=
  newObject () "n" "N" .note "text/markdown" 1 "" "old" 1 none

/-- The library with this note, and its object. -/
def sampleNoteState : NoteState Unit where
  point := .start
  database := ⟨⟨[sampleNoteRow], by decide⟩, Table.empty⟩
  working := ⟨⟨[sampleNoteRow], by decide⟩, Table.empty⟩
  storage := Function.update (fun _ ↦ none) "old" (some [1])
  committed := false

/-- The note is given the content `[2, 2]`. -/
def sampleUpdate : NoteUpdate := ⟨"n", "N", some [2, 2]⟩

/-- All of the statements before the commit. -/
def sampleNoteEvents : List NoteEvent := [.go, .go, .create "new", .chunk 2, .go, .at 5, .go]

/-- **A failed commit loses the content.** The row is the old one, and its object was removed before. -/
theorem note_update_loses_content : ∃ s,
    (sampleNoteEvents ++ [NoteEvent.fail, .go]).foldlM
        (noteStep plainTexts (fun _ ↦ "") () sampleUpdate) sampleNoteState = some s ∧
      s.point.isOver = true ∧ s.database.objects.get? "n" = some sampleNoteRow ∧
      s.storage sampleNoteRow.storageKey = none := by
  have hrun : ((sampleNoteEvents ++ [NoteEvent.fail, .go]).foldlM
      (noteStep plainTexts (fun _ ↦ "") () sampleUpdate) sampleNoteState).any (fun s : NoteState Unit ↦
        decide (s.point.isOver = true ∧ s.database.objects.get? "n" = some sampleNoteRow ∧
          s.storage sampleNoteRow.storageKey = none)) = true := by decide +kernel
  obtain ⟨s, hs, hlost⟩ := (Option.any_eq_true _ _).1 hrun
  exact ⟨s, hs, of_decide_eq_true hlost⟩

/-- The same update with a commit that takes place. -/
theorem note_update_atomic_sample :
    ((sampleNoteEvents ++ [NoteEvent.go]).foldlM
        (noteStepCommits plainTexts (fun _ ↦ "") () sampleUpdate) sampleNoteState).any
      (fun s : NoteState Unit ↦ decide (s.point.isOver = true ∧ s.committed = true ∧
        s.storage "new" = some [2, 2])) = true ∧
    ∀ (events : List NoteEvent) s, events.foldlM (noteStepCommits plainTexts (fun _ ↦ "") () sampleUpdate)
        sampleNoteState = some s → s.point.isOver = true →
      NoteOutcome (fun _ ↦ "") sampleUpdate sampleNoteRow [1] s :=
  ⟨by decide +kernel, fun _ _ hrun hover ↦
    note_update_atomic ⟨rfl, rfl, rfl⟩ rfl ⟨rfl, rfl, rfl⟩ hrun hover⟩

end Sample

end Centaeris.Library
