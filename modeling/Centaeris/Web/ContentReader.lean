import Centaeris.Relational.Run
import Mathlib.Logic.Function.Basic

/-!
# The reader of a long output

A reader fetches the pages of a text one after the other and shows what it has. It has one page under way at
a time, retries a page five times, and stops after a failure, at the end of the text, or after 16 MiB.
Whoever shows the text subscribes to the reader, and is called in the middle of it: between what is published
and what comes next, `loadMore`, `loadAll` and `dispose` may be called again.

So a state has the calls whose subscribers are being called, the innermost first (`stack`). What is
asynchronous goes on when there are none. A call is known by its number, and `pending` is the number of the
call whose promise is handed out.

The text is known by its UTF-8 bytes.
-/

namespace Centaeris.Web.ContentReader

/-- `MAX_ACCUMULATED_BYTES` -/
def maxAccumulatedBytes : ℕ := 16 * 1024 * 1024

/-- What `read` returns. -/
structure Range where
  content : List UInt8
  startOffset : ℕ
  endOffset : ℕ
  hasMore : Bool
  deriving DecidableEq

/-- Where a call of `loadPage` is. -/
inductive Task
  | absent
  /-- It has published that it is loading. -/
  | starting
  /-- It has published that it will not load any more. -/
  | exhausted
  /-- In `waitUntilOnline`. -/
  | offline (retries : ℕ)
  /-- It waits for the range at an offset. -/
  | reading (offset retries : ℕ)
  /-- In `abortableDelay`. -/
  | delaying (retries : ℕ)
  /-- It has published the page, or an error. -/
  | publishing
  /-- It has returned, and `finally` has not run. -/
  | settled
  | done
  deriving DecidableEq

/-- A call of `loadAll`, with how often it has called `loadMore`, and how many pages there were before. -/
structure Loader where
  /-- The promise that it waits for, if it waits; the inner `none` is one that is resolved. -/
  awaiting : Option (Option ℕ) := none
  rounds : ℕ := 0
  since : ℕ := 0

/-- A `TranscriptContentReader`, with its calls and the number of pages it has shown. -/
structure Reader (κ : Type) where
  content : List UInt8 := []
  loading : Bool := false
  error : Bool := false
  unavailable : Bool := false
  hasMore : Bool := true
  endOffset : ℕ := 0
  aborted : Bool := false
  pending : Option ℕ := none
  tasks : ℕ → Task := fun _ ↦ .absent
  created : ℕ := 0
  stack : List ℕ := []
  pages : ℕ := 0
  loaders : κ → Loader := fun _ ↦ {}

variable {κ : Type}

namespace Reader

/-- A call is somewhere else. -/
def move (s : Reader κ) (n : ℕ) (task : Task) : Reader κ := { s with tasks := Function.update s.tasks n task }

/-- `publish` by a call, whose subscribers are called then. The snapshot is `s`. -/
def publish (s : Reader κ) (n : ℕ) (task : Task) : Reader κ :=
  { s.move n task with stack := n :: s.stack }

/-- `loadMore` up to where its subscribers are called, and the promise that it returns. -/
def loadMore (s : Reader κ) : Reader κ × Option ℕ :=
  match s.pending with
  | some n => (s, some n)
  | none =>
    if s.loading || s.error || s.aborted || !s.hasMore then (s, none)
    else if maxAccumulatedBytes ≤ s.endOffset then
      ({ s with hasMore := false, created := s.created + 1 }.publish s.created .exhausted, some s.created)
    else
      ({ s with loading := true, error := false, created := s.created + 1 }.publish s.created .starting,
        some s.created)

/-- The test in the loop of `loadAll`. -/
def wantsMore (s : Reader κ) : Bool := !s.aborted && s.hasMore && !s.error

/-- The loop in `loadPage`: it waits for the network, or reads. -/
def attempt (s : Reader κ) (n retries : ℕ) (online : Bool) : Reader κ :=
  if s.aborted then s.move n .settled
  else if online then s.move n (.reading s.endOffset retries)
  else s.move n (.offline retries)

/-- A page has come. -/
def accept (s : Reader κ) (n : ℕ) (page : Range) : Reader κ :=
  if s.aborted then s.move n .settled
  else if page.startOffset ≠ s.endOffset ∨ page.hasMore ∧ page.endOffset ≤ s.endOffset then
    -- "transcript content continuation made no progress"
    { s with loading := false, error := true, unavailable := true }.publish n .publishing
  else
    { s with
      endOffset := page.endOffset
      pending := none
      content := s.content ++ page.content
      hasMore := page.hasMore
      loading := false
      pages := s.pages + 1 }.publish n .publishing

/-- A page has not come. -/
def refuse (s : Reader κ) (n retries : ℕ) (transient : Bool) : Reader κ :=
  if s.aborted then s.move n .settled
  else if transient && retries != 5 then s.move n (.delaying (retries + 1))
  else { s with loading := false, error := true, unavailable := !transient }.publish n .publishing

section Loaders

variable [DecidableEq κ]

def setLoader (s : Reader κ) (k : κ) (loader : Loader) : Reader κ :=
  { s with loaders := Function.update s.loaders k loader }

/-- A round of the loop in `loadAll`. -/
def iterate (s : Reader κ) (k : κ) : Reader κ :=
  if s.wantsMore then
    s.loadMore.1.setLoader k
      { s.loaders k with awaiting := some s.loadMore.2, rounds := (s.loaders k).rounds + 1 }
  else s.setLoader k { s.loaders k with awaiting := none }

end Loaders

end Reader

/-- What happens next: a call, or the end of something that was waited for. `online` is `navigator.onLine`. -/
inductive Event (κ : Type)
  | loadMore
  | loadAll (k : κ)
  | dispose
  /-- The subscribers have returned. -/
  | resume (online : Bool)
  | online (n : ℕ)
  | read (n : ℕ) (page : Range)
  | readFails (n : ℕ) (transient : Bool)
  | delayed (n : ℕ) (online : Bool)
  /-- The `finally` of a call. -/
  | cleanUp (n : ℕ)
  | wake (k : κ)

/-- The rest of a call after its subscribers have returned. -/
def Reader.goOn (s : Reader κ) (n : ℕ) (online : Bool) : Option (Reader κ) :=
  match s.tasks n with
  -- `loadMore` keeps the promise as soon as `loadPage` waits for something.
  | .starting => some { s.attempt n 0 online with pending := some n }
  | .exhausted => some { s.move n .settled with pending := some n }
  | .publishing => some (s.move n .settled)
  | _ => none

def act [DecidableEq κ] (s : Reader κ) : Event κ → Option (Reader κ)
  | .loadMore => some s.loadMore.1
  | .loadAll k =>
    if (s.loaders k).awaiting.isSome then none
    else some ((s.setLoader k { since := s.pages }).iterate k)
  | .dispose => some { s with aborted := true }
  | .resume online =>
    match s.stack with
    | [] => none
    | n :: stack => { s with stack }.goOn n online
  | .online n =>
    match s.stack, s.tasks n with
    | [], .offline retries => some (s.attempt n retries true)
    | _, _ => none
  | .read n page =>
    match s.stack, s.tasks n with
    | [], .reading _ _ => some (s.accept n page)
    | _, _ => none
  | .readFails n transient =>
    match s.stack, s.tasks n with
    | [], .reading _ retries => some (s.refuse n retries transient)
    | _, _ => none
  | .delayed n online =>
    match s.stack, s.tasks n with
    | [], .delaying retries => some (s.attempt n retries online)
    | _, _ => none
  | .cleanUp n =>
    match s.stack, s.tasks n with
    | [], .settled => some { s.move n .done with pending := if s.pending = some n then none else s.pending }
    | _, _ => none
  | .wake k =>
    match s.stack, (s.loaders k).awaiting with
    | [], some none => some (s.iterate k)
    | [], some (some n) => if s.tasks n = .done then some (s.iterate k) else none
    | _, _ => none

/-- The page at an offset is a slice of the text, and not empty unless the text ends. -/
structure Serves (text : List UInt8) (offset : ℕ) (page : Range) : Prop where
  start : page.startOffset = offset
  content : page.content = (text.drop offset).take (page.endOffset - offset)
  bound : offset ≤ page.endOffset ∧ page.endOffset ≤ text.length
  progress : page.hasMore → offset < page.endOffset

/-- The steps when what is read is right. -/
def Step [DecidableEq κ] (text : List UInt8) (s : Reader κ) (e : Event κ) (t : Reader κ) : Prop :=
  act s e = some t ∧
    ∀ n page offset retries, e = .read n page → s.tasks n = .reading offset retries → Serves text offset page

/-! ### What holds between two steps -/

/-- The call has a page under way. -/
def Task.active : Task → Bool
  | starting | offline _ | reading _ _ | delaying _ => true
  | _ => false

/-- The subscribers of the call are being called. -/
def Task.inside : Task → Bool
  | starting | exhausted | publishing => true
  | _ => false

theorem Task.inside_of_active {task : Task} (hactive : task.active = true) (hstarting : task ≠ .starting) :
    task.inside = false := by
  cases task <;> simp_all [active, inside]

/-- How often the call has tried again. -/
def Task.retries : Task → ℕ
  | offline retries | reading _ retries | delaying retries => retries
  | _ => 0

/-- The loop of `loadAll` ends. -/
def Reader.Stopped (s : Reader κ) : Prop := s.aborted ∨ ¬s.hasMore ∨ s.error

/-- What holds between two steps. -/
structure Inv (text : List UInt8) (s : Reader κ) : Prop where
  content : s.content = text.take s.endOffset
  bound : s.endOffset ≤ text.length
  /-- One page at a time, and only while it makes sense. -/
  one : ∀ n m, (s.tasks n).active → (s.tasks m).active → m = n
  flags : ∀ n, (s.tasks n).active → s.loading ∧ s.hasMore ∧ ¬s.error ∧ s.endOffset < maxAccumulatedBytes
  starting : ∀ n, s.tasks n = .starting → s.pending = none
  begun : ∀ n, (s.tasks n).active → s.tasks n ≠ .starting → s.pending = some n
  pending : ∀ n, s.pending = some n → s.tasks n ≠ .absent ∧ ((s.tasks n).active ∨ s.Stopped)
  exhausted : ∀ n, s.tasks n = .exhausted → ¬s.hasMore
  loading : s.loading → s.aborted ∨ ∃ n, (s.tasks n).active
  offset : ∀ n offset retries, s.tasks n = .reading offset retries → offset = s.endOffset
  retries : ∀ n, (s.tasks n).retries ≤ 5
  fresh : ∀ n, s.created ≤ n → s.tasks n = .absent
  nodup : s.stack.Nodup
  inside : ∀ n, n ∈ s.stack ↔ (s.tasks n).inside
  pages : s.pages ≤ maxAccumulatedBytes ∧ s.pages ≤ s.endOffset + if s.hasMore then 0 else 1

variable {text : List UInt8} {s t : Reader κ} {n : ℕ}

section Steps

theorem Inv.start (hs : Inv text s) (hpending : s.pending = none) (hloading : s.loading = false)
    (haborted : s.aborted = false) (hmore : s.hasMore = true) (hmax : s.endOffset < maxAccumulatedBytes) :
    Inv text ({ s with loading := true, error := false, created := s.created + 1 }.publish s.created .starting) := by
  obtain ⟨hcontent, hbound, hone, hflags, hstarting, hbegun, hpend, hexhausted, hload, hoffset, hretries, hfresh,
    hnodup, hinside, hpages⟩ := hs
  have hnone : ∀ n, (s.tasks n).active = false := by grind
  constructor <;> simp only [Reader.publish, Reader.move, Function.update_apply]
  case loading => exact fun _ ↦ .inr ⟨s.created, by simp [Task.active]⟩
  all_goals grind [Task.inside, Task.active, Task.retries, Reader.Stopped]

theorem Inv.exhaust (hs : Inv text s) (hpending : s.pending = none) (hloading : s.loading = false) :
    Inv text ({ s with hasMore := false, created := s.created + 1 }.publish s.created .exhausted) := by
  obtain ⟨hcontent, hbound, hone, hflags, hstarting, hbegun, hpend, hexhausted, hload, hoffset, hretries, hfresh,
    hnodup, hinside, hpages⟩ := hs
  have hnone : ∀ n, (s.tasks n).active = false := by grind
  constructor <;> simp only [Reader.publish, Reader.move, Function.update_apply]
  all_goals grind [Task.inside, Task.active, Task.retries, Reader.Stopped]

/-- A call keeps its promise, with its page under way or given up after `dispose`. -/
theorem Inv.keeps {stack : List ℕ} {task : Task} (hs : Inv text s) (hn : s.tasks n = .starting)
    (hstack : s.stack = n :: stack)
    (htask : (task.active = true ∧ task ≠ .starting ∧ task.retries ≤ 5 ∧
      ∀ offset retries, task = .reading offset retries → offset = s.endOffset) ∨ task = .settled ∧ s.aborted) :
    Inv text { s.move n task with stack, pending := some n } := by
  obtain ⟨hcontent, hbound, hone, hflags, hstarting, hbegun, hpend, hexhausted, hload, hoffset, hretries, hfresh,
    hnodup, hinside, hpages⟩ := hs
  have houtside : task.inside = false := by
    rcases htask with ⟨hactive, hstart, -⟩ | ⟨rfl, -⟩
    · exact Task.inside_of_active hactive hstart
    · rfl
  constructor <;> simp only [Reader.move, Function.update_apply]
  case loading =>
    rcases htask with ⟨htask, -⟩ | ⟨-, haborted⟩
    · exact fun _ ↦ .inr ⟨n, by simpa using htask⟩
    · exact fun _ ↦ .inl haborted
  all_goals grind [Task.inside, Task.active, Task.retries, Reader.Stopped]

/-- A call keeps its promise and makes its first attempt. -/
theorem Inv.begin {stack : List ℕ} {online : Bool} (hs : Inv text s) (hn : s.tasks n = .starting)
    (hstack : s.stack = n :: stack) :
    Inv text { ({ s with stack } : Reader κ).attempt n 0 online with pending := some n } := by
  simp only [Reader.attempt]
  split
  next haborted => exact hs.keeps hn hstack (.inr ⟨rfl, haborted⟩)
  split
  · exact hs.keeps hn hstack (.inl ⟨rfl, by simp, by simp [Task.retries], by simp⟩)
  · exact hs.keeps hn hstack (.inl ⟨rfl, by simp, by simp [Task.retries], by simp⟩)

/-- A call that has its page under way goes on with it, or gives up after `dispose`. -/
theorem Inv.proceed {task : Task} (hs : Inv text s) (hn : (s.tasks n).active = true) (hstack : s.stack = [])
    (htask : (task.active = true ∧ task ≠ .starting ∧ task.retries ≤ 5 ∧
      ∀ offset retries, task = .reading offset retries → offset = s.endOffset) ∨ task = .settled ∧ s.aborted) :
    Inv text (s.move n task) := by
  obtain ⟨hcontent, hbound, hone, hflags, hstarting, hbegun, hpend, hexhausted, hload, hoffset, hretries, hfresh,
    hnodup, hinside, hpages⟩ := hs
  have houtside : task.inside = false := by
    rcases htask with ⟨hactive, hstart, -⟩ | ⟨rfl, -⟩
    · exact Task.inside_of_active hactive hstart
    · rfl
  constructor <;> simp only [Reader.move, Function.update_apply]
  case loading =>
    rcases htask with ⟨htask, -⟩ | ⟨-, haborted⟩
    · exact fun _ ↦ .inr ⟨n, by simpa using htask⟩
    · exact fun _ ↦ .inl haborted
  all_goals grind [Task.inside, Task.active, Task.retries, Reader.Stopped]

/-- A call that has no page under way comes to its end. -/
theorem Inv.rest {task : Task} {stack : List ℕ} {pending : Option ℕ} (hs : Inv text s)
    (hn : (s.tasks n).active = false) (hcreated : s.tasks n ≠ .absent) (htask : task = .settled ∨ task = .done)
    (hstack : s.stack = [] ∧ stack = [] ∨ s.stack = n :: stack)
    (hpending : pending = s.pending ∨ pending = none ∧ s.pending = some n ∨ pending = some n ∧ ¬s.hasMore) :
    Inv text { s.move n task with stack, pending } := by
  obtain ⟨hcontent, hbound, hone, hflags, hstarting, hbegun, hpend, hexhausted, hload, hoffset, hretries, hfresh,
    hnodup, hinside, hpages⟩ := hs
  constructor <;> simp only [Reader.move, Function.update_apply]
  case loading =>
    intro hloading
    rcases hload hloading with haborted | ⟨m, hm⟩
    · exact .inl haborted
    · exact .inr ⟨m, by grind⟩
  all_goals grind [Task.inside, Task.active, Task.retries, Reader.Stopped]

/-- A call publishes an error. -/
theorem Inv.fail {unavailable : Bool} (hs : Inv text s) (hstack : s.stack = []) (hn : (s.tasks n).active = true) :
    Inv text ({ s with loading := false, error := true, unavailable }.publish n .publishing) := by
  obtain ⟨hcontent, hbound, hone, hflags, hstarting, hbegun, hpend, hexhausted, hload, hoffset, hretries, hfresh,
    hnodup, hinside, hpages⟩ := hs
  constructor <;> simp only [Reader.publish, Reader.move, Function.update_apply]
  all_goals grind [Task.inside, Task.active, Task.retries, Reader.Stopped]

/-- A page comes: it goes on from where the content ends. -/
theorem Inv.accept {page : Range} {offset retries : ℕ} (hs : Inv text s) (hstack : s.stack = [])
    (hn : s.tasks n = .reading offset retries) (hserves : Serves text offset page) :
    Inv text (s.accept n page) := by
  have hactive : (s.tasks n).active = true := by rw [hn]; rfl
  rw [Reader.accept]
  split
  · exact hs.proceed hactive hstack (.inr ⟨rfl, ‹_›⟩)
  split
  · exact hs.fail hstack hactive
  · obtain rfl := hs.offset n offset retries hn
    have hprefix : s.content ++ page.content = text.take page.endOffset := by
      rw [hs.content, hserves.content, ← List.take_add, Nat.add_sub_cancel' hserves.bound.1]
    obtain ⟨hstart, -, ⟨hle, hend⟩, hprogress⟩ := hserves
    obtain ⟨hcontent, hbound, hone, hflags, hstarting, hbegun, hpend, hexhausted, hload, hoffset, hretries, hfresh,
      hnodup, hinside, hpages⟩ := hs
    constructor <;> simp only [Reader.publish, Reader.move, Function.update_apply]
    all_goals grind [Task.inside, Task.active, Task.retries, Reader.Stopped]

theorem Inv.refuse {offset retries : ℕ} {transient : Bool} (hs : Inv text s) (hstack : s.stack = [])
    (hn : s.tasks n = .reading offset retries) : Inv text (s.refuse n retries transient) := by
  have hactive : (s.tasks n).active = true := by rw [hn]; rfl
  have hretries := hs.retries n
  rw [hn, Task.retries] at hretries
  rw [Reader.refuse]
  split
  · exact hs.proceed hactive hstack (.inr ⟨rfl, ‹_›⟩)
  split
  · refine hs.proceed hactive hstack (.inl ⟨rfl, by simp, ?_, by simp⟩)
    simp_all [Task.retries]
    omega
  · exact hs.fail hstack hactive

theorem Inv.attempt {retries : ℕ} {online : Bool} (hs : Inv text s) (hstack : s.stack = [])
    (hn : (s.tasks n).active = true) (hretries : retries ≤ 5) : Inv text (s.attempt n retries online) := by
  rw [Reader.attempt]
  split
  · exact hs.proceed hn hstack (.inr ⟨rfl, ‹_›⟩)
  split
  · exact hs.proceed hn hstack (.inl ⟨rfl, by simp, hretries, by simp⟩)
  · exact hs.proceed hn hstack (.inl ⟨rfl, by simp, hretries, by simp⟩)

theorem Inv.dispose (hs : Inv text s) : Inv text { s with aborted := true } := by
  obtain ⟨hcontent, hbound, hone, hflags, hstarting, hbegun, hpend, hexhausted, hload, hoffset, hretries, hfresh,
    hnodup, hinside, hpages⟩ := hs
  constructor
  all_goals grind [Reader.Stopped]

end Steps

/-! ### Loops -/

/-- What a step does for a call of `loadAll` that waits: the page that it waits for stays under way, or there
is one more, or the loop ends. -/
structure Reader.Towards (s t : Reader κ) : Prop where
  loaders : t.loaders = s.loaders
  pages : s.pages ≤ t.pages
  stopped : s.Stopped → t.Stopped
  active : ∀ n, (s.tasks n).active → t.Stopped ∨ (t.tasks n).active ∨ s.pages < t.pages
  present : ∀ n, s.tasks n ≠ .absent → t.tasks n ≠ .absent
  content : maxAccumulatedBytes ≤ s.endOffset → t.content = s.content

/-- What is known of a call of `loadAll`. -/
structure Reader.Counted (s : Reader κ) (loader : Loader) : Prop where
  since : loader.since ≤ s.pages
  rounds : loader.rounds ≤ s.pages - loader.since + 2
  first : loader.awaiting = some none → s.Stopped ∨ loader.rounds ≤ s.pages - loader.since + 1
  next : ∀ n, loader.awaiting = some (some n) → s.tasks n ≠ .absent ∧
    (s.Stopped ∨ (s.tasks n).active ∨ loader.rounds ≤ s.pages - loader.since + 1)

theorem Reader.Counted.towards {loader : Loader} (hs : s.Counted loader) (h : s.Towards t) : t.Counted loader := by
  obtain ⟨hsince, hrounds, hfirst, hnext⟩ := hs
  obtain ⟨-, hpages, hstopped, hactive, hpresent, -⟩ := h
  refine ⟨by omega, by omega, fun hawait ↦ ?_, fun n hawait ↦ ⟨hpresent n (hnext n hawait).1, ?_⟩⟩
  · exact (hfirst hawait).imp hstopped fun h ↦ by omega
  · rcases (hnext n hawait).2 with h | h | h
    · exact .inl (hstopped h)
    · rcases hactive n h with h | h | h
      · exact .inl h
      · exact .inr (.inl h)
      · exact .inr (.inr (by omega))
    · exact .inr (.inr (by omega))

theorem Reader.Towards.refl (s : Reader κ) : s.Towards s :=
  ⟨rfl, Nat.le_refl _, id, fun _ h ↦ .inr (.inl h), fun _ ↦ id, fun _ ↦ rfl⟩

/-- A call goes on, without a page. -/
theorem Reader.Towards.move {task : Task} (htasks : t.tasks = Function.update s.tasks n task)
    (htask : task ≠ .absent) (hsame : t.pages = s.pages ∧ t.loaders = s.loaders ∧ t.content = s.content)
    (hstopped : s.Stopped → t.Stopped) (hactive : (s.tasks n).active → t.Stopped ∨ task.active) :
    s.Towards t := by
  refine ⟨hsame.2.1, Nat.le_of_eq hsame.1.symm, hstopped, fun m hm ↦ ?_, fun m hm ↦ ?_, fun _ ↦ hsame.2.2⟩
  all_goals rw [htasks, Function.update_apply]
  all_goals grind

/-- **`loadMore`.** If there is something to be loaded, then the promise is that of a call with a page under
way, unless the reader is inside of subscribers. -/
theorem Inv.loadMore (hs : Inv text s) : Inv text s.loadMore.1 ∧ s.Towards s.loadMore.1 ∧
    (¬s.Stopped → s.loadMore.2 = none → s.stack ≠ []) ∧
    ∀ n, s.loadMore.2 = some n → s.loadMore.1.tasks n ≠ .absent ∧
      (s.loadMore.1.Stopped ∨ (s.loadMore.1.tasks n).active) := by
  rw [Reader.loadMore]
  split
  · rename_i n hpending
    refine ⟨hs, .refl s, by simp, ?_⟩
    rintro m ⟨⟩
    exact ⟨(hs.pending n hpending).1, (hs.pending n hpending).2.symm⟩
  · rename_i hpending
    split
    · rename_i hflags
      refine ⟨hs, .refl s, fun hgo _ hstack ↦ ?_, by simp⟩
      -- A page is under way, and if its promise is not kept, then it is inside of subscribers.
      obtain ⟨n, hn⟩ : ∃ n, (s.tasks n).active := by
        simp only [Reader.Stopped, not_or] at hgo
        exact (hs.loading (by simp_all)).resolve_left hgo.1
      have hstarting : s.tasks n = .starting := by
        by_contra hne
        rw [hs.begun n hn hne] at hpending
        cases hpending
      have hmem := (hs.inside n).2 (by rw [hstarting]; rfl)
      rw [hstack] at hmem
      cases hmem
    · rename_i hflags
      simp only [Bool.or_eq_true, Bool.not_eq_true', not_or, Bool.not_eq_true, Bool.not_eq_false] at hflags
      obtain ⟨⟨⟨hloading, herror⟩, haborted⟩, hmore⟩ := hflags
      have hnew := hs.fresh s.created (Nat.le_refl _)
      split
      · refine ⟨hs.exhaust hpending hloading, .move rfl (by simp) ⟨rfl, rfl, rfl⟩ ?_ ?_, by simp, ?_⟩
        · simp [Reader.Stopped, Reader.publish, Reader.move]
        · simp [Reader.Stopped, Reader.publish, Reader.move]
        · rintro n ⟨⟩
          simp [Reader.Stopped, Reader.publish, Reader.move]
      · rename_i hmax
        refine ⟨hs.start hpending hloading haborted hmore (by omega), .move rfl (by simp) ⟨rfl, rfl, rfl⟩ ?_ ?_,
          by simp, ?_⟩
        · simp [Reader.Stopped, Reader.publish, Reader.move, haborted, hmore, herror]
        · exact fun _ ↦ .inr rfl
        · rintro n ⟨⟩
          simp [Reader.publish, Reader.move, Task.active]

theorem Reader.Towards.attempt {stack : List ℕ} {pending : Option ℕ} {retries : ℕ} {online : Bool} :
    s.Towards { ({ s with stack } : Reader κ).attempt n retries online with pending } := by
  rw [Reader.attempt]
  split
  · exact .move rfl (by simp) ⟨rfl, rfl, rfl⟩ id fun _ ↦ .inl (.inl ‹_›)
  split <;> exact .move rfl (by simp) ⟨rfl, rfl, rfl⟩ id fun _ ↦ .inr rfl

theorem Inv.towards_accept {page : Range} (hs : Inv text s) (hn : (s.tasks n).active) :
    s.Towards (s.accept n page) := by
  obtain ⟨-, hmore, herror, hmax⟩ := hs.flags n hn
  rw [Reader.accept]
  split
  · exact .move rfl (by simp) ⟨rfl, rfl, rfl⟩ id fun _ ↦ .inl (.inl ‹_›)
  split
  · exact .move rfl (by simp) ⟨rfl, rfl, rfl⟩ (fun _ ↦ .inr (.inr rfl)) fun _ ↦ .inl (.inr (.inr rfl))
  · rename_i haborted _
    refine ⟨rfl, Nat.le_succ _, fun hstopped ↦ ?_, fun _ _ ↦ .inr (.inr (Nat.lt_succ_self _)), fun m hm ↦ ?_,
      fun hle ↦ ?_⟩
    · simp [Reader.Stopped, haborted, hmore, herror] at hstopped
    · simp only [Reader.publish, Reader.move, Function.update_apply]
      grind
    · omega

theorem Reader.Towards.refuse {retries : ℕ} {transient : Bool} : s.Towards (s.refuse n retries transient) := by
  rw [Reader.refuse]
  split
  · exact .move rfl (by simp) ⟨rfl, rfl, rfl⟩ id fun _ ↦ .inl (.inl ‹_›)
  split
  · exact .move rfl (by simp) ⟨rfl, rfl, rfl⟩ id fun _ ↦ .inr rfl
  · exact .move rfl (by simp) ⟨rfl, rfl, rfl⟩ (fun _ ↦ .inr (.inr rfl)) fun _ ↦ .inl (.inr (.inr rfl))

variable [DecidableEq κ]

theorem Inv.setLoader {k : κ} {loader : Loader} (hs : Inv text s) : Inv text (s.setLoader k loader) := by
  cases hs
  constructor <;> assumption

theorem Reader.counted_setLoader {k : κ} {loader : Loader} (hs : ∀ k, s.Counted (s.loaders k))
    (h : s.Counted loader) : ∀ k', (s.setLoader k loader).Counted ((s.setLoader k loader).loaders k') := by
  intro k'
  have hk' : s.Counted ((s.setLoader k loader).loaders k') := by
    by_cases hk : k' = k
    · simpa [Reader.setLoader, hk] using h
    · simpa [Reader.setLoader, hk] using hs k'
  exact ⟨hk'.1, hk'.2, hk'.3, hk'.4⟩

/-- **A round of the loop in `loadAll`.** -/
theorem Inv.iterate {k : κ} (hs : Inv text s) (hloaders : ∀ k, s.Counted (s.loaders k))
    (hrounds : s.Stopped ∨ (s.loaders k).rounds ≤ s.pages - (s.loaders k).since + 1)
    (hfirst : (s.loaders k).rounds = 0 ∨ s.stack = []) :
    Inv text (s.iterate k) ∧ ∀ k', (s.iterate k).Counted ((s.iterate k).loaders k') := by
  rw [Reader.iterate]
  split
  · rename_i hwants
    have hgo : ¬s.Stopped := by
      simpa [Reader.Stopped, Reader.wantsMore, and_assoc] using hwants
    have hround := hrounds.resolve_left hgo
    obtain ⟨hinv, htowards, hnone, hsome⟩ := hs.loadMore
    have hpages := htowards.pages
    have hsince := (hloaders k).since
    refine ⟨hinv.setLoader, Reader.counted_setLoader ?_ ⟨?_, ?_, fun hawait ↦ ?_, fun n hawait ↦ ?_⟩⟩
    · exact fun k ↦ htowards.loaders ▸ (hloaders k).towards htowards
    · exact Nat.le_trans hsince hpages
    · simp only
      omega
    · -- Only the first promise may be one that is resolved.
      rcases hfirst with hzero | hstack
      · exact .inr (by simp only; omega)
      · exact absurd hstack (hnone hgo (Option.some.inj hawait))
    · obtain ⟨hpresent, hactive⟩ := hsome n (Option.some.inj hawait)
      exact ⟨hpresent, hactive.imp_right .inl⟩
  · obtain ⟨hsince, hrounds, -, -⟩ := hloaders k
    exact ⟨hs.setLoader, Reader.counted_setLoader hloaders ⟨hsince, hrounds, by simp, by simp⟩⟩

/-- **What a step can do**: something to a page, or a call of `loadAll` makes its first round or another one. -/
theorem Inv.step_cases {e : Event κ} (hs : Inv text s) (h : Step text s e t) :
    (Inv text t ∧ s.Towards t) ∨
      (∃ k, (s.loaders k).awaiting = none ∧ t = (s.setLoader k { since := s.pages }).iterate k) ∨
      ∃ k, s.stack = [] ∧ t = s.iterate k ∧ ∃ promise, (s.loaders k).awaiting = some promise ∧
        ∀ n, promise = some n → s.tasks n = .done := by
  obtain ⟨hact, hserves⟩ := h
  cases e with
  | loadMore =>
    cases hact
    exact .inl ⟨hs.loadMore.1, hs.loadMore.2.1⟩
  | loadAll k =>
    simp only [act] at hact
    split at hact <;> rename_i hawait <;> cases hact
    exact .inr (.inl ⟨k, Option.not_isSome_iff_eq_none.1 hawait, rfl⟩)
  | dispose =>
    cases hact
    exact .inl ⟨hs.dispose, ⟨rfl, Nat.le_refl _, fun _ ↦ .inl rfl, fun _ _ ↦ .inl (.inl rfl), fun _ ↦ id, fun _ ↦ rfl⟩⟩
  | resume online =>
    simp only [act] at hact
    split at hact
    · cases hact
    · rename_i n stack hstack
      rw [Reader.goOn] at hact
      split at hact <;> rename_i htask <;> simp only at htask <;> cases hact
      · exact .inl ⟨hs.begin htask hstack, .attempt⟩
      · refine .inl ⟨hs.rest (by rw [htask]; rfl) (by simp [htask]) (.inl rfl) (.inr hstack)
          (.inr (.inr ⟨rfl, hs.exhausted n htask⟩)), ?_⟩
        exact .move rfl (by simp) ⟨rfl, rfl, rfl⟩ id fun hactive ↦ by simp [htask, Task.active] at hactive
      · refine .inl ⟨hs.rest (by rw [htask]; rfl) (by simp [htask]) (.inl rfl) (.inr hstack) (.inl rfl), ?_⟩
        exact .move rfl (by simp) ⟨rfl, rfl, rfl⟩ id fun hactive ↦ by simp [htask, Task.active] at hactive
  | read n page =>
    simp only [act] at hact
    split at hact <;> cases hact
    rename_i offset retries hstack htask
    exact .inl ⟨hs.accept hstack htask (hserves n page offset retries rfl htask),
      hs.towards_accept (by rw [htask]; rfl)⟩
  | readFails n transient =>
    simp only [act] at hact
    split at hact <;> cases hact
    rename_i offset retries hstack htask
    exact .inl ⟨hs.refuse hstack htask, .refuse⟩
  | online n | delayed n =>
    simp only [act] at hact
    split at hact <;> cases hact
    rename_i retries hstack htask
    have hretries := hs.retries n
    rw [htask, Task.retries] at hretries
    exact .inl ⟨hs.attempt hstack (by rw [htask]; rfl) hretries, .attempt⟩
  | cleanUp n =>
    simp only [act] at hact
    split at hact <;> cases hact
    rename_i hstack htask
    refine .inl ⟨hs.rest (by rw [htask]; rfl) (by simp [htask]) (.inr rfl) (.inl ⟨hstack, hstack⟩) ?_, ?_⟩
    · split
      · exact .inr (.inl ⟨rfl, ‹_›⟩)
      · exact .inl rfl
    · exact .move rfl (by simp) ⟨rfl, rfl, rfl⟩ id fun hactive ↦ by simp [htask, Task.active] at hactive
  | wake k =>
    simp only [act] at hact
    split at hact
    · cases hact
      exact .inr (.inr ⟨k, ‹_›, rfl, none, ‹_›, by simp⟩)
    · split at hact <;> cases hact
      rename_i n hstack hawait hdone
      exact .inr (.inr ⟨k, hstack, rfl, some n, hawait, by rintro m ⟨⟩; exact hdone⟩)
    · cases hact

/-- **One step.** -/
theorem Inv.step {e : Event κ} (hs : Inv text s) (hloaders : ∀ k, s.Counted (s.loaders k))
    (h : Step text s e t) : Inv text t ∧ ∀ k, t.Counted (t.loaders k) := by
  rcases hs.step_cases h with ⟨hinv, htowards⟩ | ⟨k, -, rfl⟩ | ⟨k, hstack, rfl, promise, hawait, hdone⟩
  · exact ⟨hinv, fun k ↦ htowards.loaders ▸ (hloaders k).towards htowards⟩
  · refine hs.setLoader.iterate (Reader.counted_setLoader hloaders ⟨Nat.le_refl _, by simp, by simp, by simp⟩) ?_ ?_
    all_goals simp [Reader.setLoader]
  · refine hs.iterate hloaders ?_ (.inr hstack)
    cases promise with
    | none => exact (hloaders k).first hawait
    | some n => simpa [hdone n rfl, Task.active] using ((hloaders k).next n hawait).2

/-- The invariant of a whole run. -/
theorem inv_of_run {l : List (Event κ)} (hrun : Run (Step text) {} l s) :
    Inv text s ∧ ∀ k, s.Counted (s.loaders k) := by
  refine hrun.invariant (I := fun s ↦ Inv text s ∧ ∀ k, s.Counted (s.loaders k)) ⟨?_, ?_⟩
    fun _ _ _ ⟨hs, hloaders⟩ hstep ↦ hs.step hloaders hstep
  · constructor <;> simp [Task.active, Task.inside, Task.retries]
  · exact fun _ ↦ ⟨Nat.le_refl _, by simp, by simp, by simp⟩

omit [DecidableEq κ] in
theorem Reader.loaders_loadMore (s : Reader κ) : s.loadMore.1.loaders = s.loaders := by
  rw [Reader.loadMore]
  repeat' split
  all_goals rfl

theorem Reader.loaders_iterate {k k' : κ} (hk : k' ≠ k) : (s.iterate k).loaders k' = s.loaders k' := by
  rw [Reader.iterate]
  split <;> simp [Reader.setLoader, hk, Reader.loaders_loadMore]

theorem Reader.stopped_of_iterate {k : κ} (h : ((s.iterate k).loaders k).awaiting = none) :
    (s.iterate k).Stopped := by
  rw [Reader.iterate] at h ⊢
  split at h
  · simp [Reader.setLoader] at h
  · rename_i hwants
    rw [if_neg hwants]
    simp only [Reader.wantsMore, Reader.Stopped, Reader.setLoader] at hwants ⊢
    grind

/-- A loop ends because there is nothing to be loaded any more. -/
theorem Inv.stopped_of_returned {e : Event κ} {k : κ} (hs : Inv text s) (h : Step text s e t)
    (hwaits : (s.loaders k).awaiting.isSome) (hreturns : (t.loaders k).awaiting = none) : t.Stopped := by
  rcases hs.step_cases h with ⟨-, htowards⟩ | ⟨k', hawait, rfl⟩ | ⟨k', -, rfl, -⟩
  · rw [htowards.loaders] at hreturns
    simp [hreturns] at hwaits
  · have hne : k ≠ k' := by
      rintro rfl
      simp [hawait] at hwaits
    rw [Reader.loaders_iterate hne] at hreturns
    simp [Reader.setLoader, hne] at hreturns
    simp [hreturns] at hwaits
  · by_cases hk : k = k'
    · subst hk
      exact Reader.stopped_of_iterate hreturns
    · rw [Reader.loaders_iterate hk] at hreturns
      simp [hreturns] at hwaits

/-- What was waited for comes to its end, or subscribers return. -/
def Event.goesOn : Event κ → Bool
  | .loadMore | .loadAll _ | .dispose => false
  | _ => true

/-- A loop that waits is not stuck. -/
theorem Inv.goesOn {k : κ} (hs : Inv text s) (hk : s.Counted (s.loaders k))
    (hwaits : (s.loaders k).awaiting.isSome) : ∃ e t, e.goesOn = true ∧ Step text s e t := by
  have hstep (e : Event κ) (hgoes : e.goesOn = true) (hread : ∀ n page, e ≠ .read n page)
      (hsome : (act s e).isSome) : ∃ e t, e.goesOn = true ∧ Step text s e t := by
    obtain ⟨t, ht⟩ := Option.isSome_iff_exists.1 hsome
    exact ⟨e, t, hgoes, ht, fun n page _ _ he ↦ absurd he (hread n page)⟩
  cases hstack : s.stack with
  | cons n stack =>
    have hinside := (hs.inside n).1 (hstack ▸ List.mem_cons_self)
    refine hstep (.resume true) rfl (by simp) ?_
    cases htask : s.tasks n <;> simp [htask, Task.inside] at hinside <;> simp [act, hstack, Reader.goOn, htask]
  | nil =>
    obtain ⟨promise, hawait⟩ := Option.isSome_iff_exists.1 hwaits
    cases promise with
    | none => exact hstep (.wake k) rfl (by simp) (by simp [act, hstack, hawait])
    | some n =>
      have hpresent := (hk.next n hawait).1
      have hinside := (hs.inside n).2
      cases htask : s.tasks n <;> simp [htask, Task.inside, hstack] at hinside hpresent
      case offline => exact hstep (.online n) rfl (by simp) (by simp [act, hstack, htask])
      case reading => exact hstep (.readFails n true) rfl (by simp) (by simp [act, hstack, htask])
      case delaying => exact hstep (.delayed n true) rfl (by simp) (by simp [act, hstack, htask])
      case settled => exact hstep (.cleanUp n) rfl (by simp) (by simp [act, hstack, htask])
      case done => exact hstep (.wake k) rfl (by simp) (by simp [act, hstack, hawait, htask])

/-- **The reader.** Along every run in which what is read is right, for any calls at any time: the content is
the text up to the offset; at most one range is being read, the next one; there are finitely many pages, a
loop makes at most two rounds more than pages come while it runs, is never stuck, and ends because there is
nothing to be loaded any more; and from 16 MiB on nothing is added. -/
theorem reader_prefix {l : List (Event κ)} (hrun : Run (Step text) {} l s) :
    (s.content = text.take s.endOffset ∧ s.endOffset ≤ text.length) ∧
      (∀ n m offset offset' retries retries', s.tasks n = .reading offset retries →
        s.tasks m = .reading offset' retries' → m = n ∧ offset = s.endOffset ∧ retries ≤ 5) ∧
      s.pages ≤ maxAccumulatedBytes ∧
      (∀ k, (s.loaders k).rounds ≤ s.pages - (s.loaders k).since + 2 ∧
        ((s.loaders k).awaiting.isSome → ∃ e t, e.goesOn = true ∧ Step text s e t)) ∧
      ∀ {e t}, Step text s e t → (maxAccumulatedBytes ≤ s.endOffset → t.content = s.content) ∧
        ∀ k, (s.loaders k).awaiting.isSome → (t.loaders k).awaiting = none →
          t.aborted ∨ ¬t.hasMore ∨ t.error := by
  obtain ⟨hs, hloaders⟩ := inv_of_run hrun
  refine ⟨⟨hs.content, hs.bound⟩, fun n m offset offset' retries retries' hn hm ↦ ?_, hs.pages.1,
    fun k ↦ ⟨(hloaders k).rounds, hs.goesOn (hloaders k)⟩, fun h ↦ ⟨fun hmax ↦ ?_, fun k ↦ hs.stopped_of_returned h⟩⟩
  · have hretries := hs.retries n
    rw [hn, Task.retries] at hretries
    exact ⟨hs.one n m (by rw [hn]; rfl) (by rw [hm]; rfl), hs.offset n offset retries hn, hretries⟩
  · have hiterate {u : Reader κ} {k : κ} (hu : Inv text u) (hmax : maxAccumulatedBytes ≤ u.endOffset) :
        (u.iterate k).content = u.content := by
      rw [Reader.iterate]
      split
      · exact hu.loadMore.2.1.content hmax
      · rfl
    rcases hs.step_cases h with ⟨-, htowards⟩ | ⟨k, -, rfl⟩ | ⟨k, -, rfl, -⟩
    · exact htowards.content hmax
    · exact hiterate hs.setLoader hmax
    · exact hiterate hs hmax

/-- The first of two bytes is read in a loop. -/
theorem reader_prefix_first : ∃ s : Reader Unit,
    Run (Step [1, 2]) {} [.loadAll (), .resume true, .read 0 ⟨[1], 0, 1, true⟩] s ∧ s.endOffset = 1 ∧
      s.content = [1, 2].take s.endOffset := by
  have hrun : Run (Step [1, 2]) ({} : Reader Unit) [.loadAll (), .resume true, .read 0 ⟨[1], 0, 1, true⟩] _ :=
    .cons ⟨rfl, by simp⟩ (.cons ⟨rfl, by simp⟩ (.single ⟨rfl, ?_⟩))
  · exact ⟨_, hrun, rfl, ( reader_prefix hrun).1.1⟩
  · rintro n page offset retries ⟨⟩ ⟨⟩
    exact ⟨rfl, rfl, by decide, by decide⟩

end Centaeris.Web.ContentReader
