import Centaeris.Base.Json
import Centaeris.Base.Utf8
import Centaeris.Relational.Dict
import Centaeris.Relational.Lending
import Mathlib.Algebra.Order.BigOperators.Group.Finset

/-!
# Captured outputs

What a tool writes is kept in memory until the record of its result is committed, and is then handed to a
thread that stores it. There is a budget for what is kept (`CaptureBuffer`) and one for what is handed over
(`PublishQueue`).

A path that is written twice is ambiguous, so what is kept for it is dropped, also after it was handed over:
`seen` remembers the paths. The cost of remembering is charged when a path comes first and is never refunded,
the cost of the bytes is refunded wherever they are dropped. Once the budget is exceeded the buffer is
disabled for good.

The queue is drained by one thread at a time. It is started by the call that finds none running, and stops
under the lock that it has found the queue empty under. If the thread cannot be started, or panics, then a
guard resets the queue.

How long a text of JSON is, is a parameter.
-/

namespace Centaeris.Transcript

/-! ### What is kept -/

/-- A `SequencedSessionRecord`, as far as it is read here. -/
structure CaptureRecord where
  sequence : ℕ
  /-- The type of the event is `ToolResult`. -/
  isToolResult : Bool
  payload : Json
  deriving DecidableEq

structure CapturedOutput where
  record : CaptureRecord
  data : List UInt8
  deriving DecidableEq

structure CaptureBuffer where
  writes : Dict String (List UInt8) := Table.empty
  seen : List String := []
  bytes : ℕ := 0
  disabled : Bool := false

/-- What it costs to remember a path. -/
def pathCost (path : String) : ℕ := path.utf8ByteSize * 2 + 128

namespace CaptureBuffer

/-- The bytes that are kept for a path are dropped. -/
def drop (s : CaptureBuffer) (path : String) (data : List UInt8) : CaptureBuffer :=
  { s with writes := s.writes.erase path, bytes := s.bytes - data.length }

/-- A new path is remembered, and its bytes are kept if they are text. -/
def remember (budget : ℕ) (s : CaptureBuffer) (path : String) (text : Option (List UInt8)) : CaptureBuffer :=
  let cost := text.elim 0 List.length + pathCost path
  if budget < s.bytes + cost then { s with writes := Table.empty, seen := [], disabled := true }
  else
    { s with
      bytes := s.bytes + cost
      seen := path :: s.seen
      writes := text.elim s.writes (s.writes.set path) }

def observe (budget : ℕ) (s : CaptureBuffer) (path : String) (data : List UInt8) : CaptureBuffer :=
  if s.disabled then s
  else if path ∈ s.seen then
    match s.writes.get? path with
    | some previous => s.drop path previous
    | none => s
  else s.remember budget path (if (Utf8.decode data).isSome then some data else none)

end CaptureBuffer

namespace CaptureRecord

/-- `fullOutputPath` -/
def path? (record : CaptureRecord) : Option String := do (← record.payload.get? "fullOutputPath").asStr?

/-- `outputStartByte` and `outputByteLength` -/
def range? (record : CaptureRecord) : Option (ℕ × ℕ) := do
  let start ← (← record.payload.get? "outputStartByte").asU64?
  let length ← (← record.payload.get? "outputByteLength").asU64?
  return (start, length)

/-- The part of some bytes that the record is about. -/
def slice (record : CaptureRecord) (bytes : List UInt8) : Option (List UInt8) := do
  let complete ← (← record.payload.get? "outputComplete").asBool?
  if complete ≠ true then none
  else
    let (start, length) ← record.range?
    if bytes.length < start + length then none
    else
      let data := (bytes.drop start).take length
      if (Utf8.decode data).isSome then some data else none

end CaptureRecord

namespace CaptureBuffer

/-- One record in `take`. -/
def takeOne (s : CaptureBuffer) (record : CaptureRecord) : CaptureBuffer × Option CapturedOutput :=
  if record.isToolResult = false then (s, none)
  else
    match record.path? with
    | none => (s, none)
    | some path =>
      match s.writes.get? path with
      | none => (s, none)
      | some bytes => (s.drop path bytes, (record.slice bytes).map (⟨record, ·⟩))

def take (s : CaptureBuffer) : List CaptureRecord → CaptureBuffer × List CapturedOutput
  | [] => (s, [])
  | record :: records =>
    let (s, output) := s.takeOne record
    let (s, outputs) := s.take records
    (s, output.toList ++ outputs)

end CaptureBuffer

/-- A call of `observe`, or of `take`. -/
inductive CaptureCall
  | observe (path : String) (data : List UInt8)
  | take (records : List CaptureRecord)

/-- A buffer, with the calls of `observe` and everything that `take` has returned. -/
structure CaptureTrace where
  buffer : CaptureBuffer := {}
  observed : List (String × List UInt8) := []
  outputs : List CapturedOutput := []

def CaptureTrace.Step (budget : ℕ) (t : CaptureTrace) (call : CaptureCall) (u : CaptureTrace) : Prop :=
  u = match call with
    | .observe path data =>
      { t with buffer := t.buffer.observe budget path data, observed := t.observed ++ [(path, data)] }
    | .take records =>
      { t with buffer := (t.buffer.take records).1, outputs := t.outputs ++ (t.buffer.take records).2 }

/-- The writes to a path. -/
def CaptureTrace.writesTo (t : CaptureTrace) (path : String) : List (String × List UInt8) :=
  t.observed.filter (·.1 = path)

/-- What is charged for a buffer: the bytes that are kept, and the paths that were seen. -/
def CaptureBuffer.charged (s : CaptureBuffer) : ℤ :=
  s.writes.total (fun data ↦ (data.length : ℤ)) + ((s.seen.map pathCost).sum : ℕ)

/-- A buffer against the calls that led to it. -/
structure CaptureTrace.Sound (budget : ℕ) (t : CaptureTrace) : Prop where
  bytes : t.buffer.disabled = false → (t.buffer.bytes : ℤ) = t.buffer.charged ∧ t.buffer.bytes ≤ budget
  seen : t.buffer.disabled = false → ∀ path, path ∈ t.buffer.seen ↔ t.writesTo path ≠ []
  once : ∀ path data, t.buffer.writes.get? path = some data → t.writesTo path = [(path, data)]
  disabled : t.buffer.disabled = true → ∀ path, t.buffer.writes.get? path = none
  outputs : (t.outputs.map (·.record.path?)).Nodup
  gone : ∀ output ∈ t.outputs, ∃ path, output.record.path? = some path ∧ t.buffer.writes.get? path = none ∧
    t.writesTo path ≠ []

variable {budget : ℕ} {s : CaptureBuffer} {t u : CaptureTrace} {path : String} {data : List UInt8}

theorem CaptureBuffer.charged_drop (h : s.writes.get? path = some data) (hs : (s.bytes : ℤ) = s.charged) :
    ((s.drop path data).bytes : ℤ) = (s.drop path data).charged := by
  have htotal : s.writes.total (fun data ↦ (data.length : ℤ)) =
      data.length + (s.writes.erase path).total fun data ↦ (data.length : ℤ) := Dict.total_split h
  have hnonneg : 0 ≤ (s.writes.erase path).total fun data ↦ (data.length : ℤ) := by
    refine List.sum_nonneg fun n hn ↦ ?_
    obtain ⟨entry, -, rfl⟩ := List.mem_map.1 hn
    exact Int.natCast_nonneg _
  simp only [CaptureBuffer.charged, CaptureBuffer.drop] at hs ⊢
  omega

theorem CaptureBuffer.get?_drop {p : String} :
    (s.drop path data).writes.get? p = if path = p then none else s.writes.get? p :=
  Dict.get?_erase _ _ _

theorem CaptureTrace.writesTo_observe {p : String} {buffer : CaptureBuffer} :
    ({ t with buffer, observed := t.observed ++ [(path, data)] } : CaptureTrace).writesTo p =
      t.writesTo p ++ if path = p then [(path, data)] else [] := by
  by_cases hp : path = p <;> simp [writesTo, hp]

/-- What `observe` does: it remembers the path, and keeps the bytes if the path is new. -/
structure CaptureBuffer.Observes (budget : ℕ) (s : CaptureBuffer) (path : String) (data : List UInt8)
    (u : CaptureBuffer) : Prop where
  enabled : u.disabled = false → s.disabled = false ∧ (u.bytes : ℤ) = u.charged ∧ u.bytes ≤ budget ∧
    ∀ p, p ∈ u.seen ↔ p ∈ s.seen ∨ p = path
  writes : ∀ p d, u.writes.get? p = some d →
    p ≠ path ∧ s.writes.get? p = some d ∨ s.disabled = false ∧ p = path ∧ d = data ∧ path ∉ s.seen
  disabled : u.disabled = true → ∀ p, u.writes.get? p = none

theorem CaptureBuffer.remembers {text : Option (List UInt8)} (hs : (s.bytes : ℤ) = s.charged ∧ s.bytes ≤ budget)
    (h : s.disabled = false) (hnew : path ∉ s.seen) (hfresh : s.writes.get? path = none)
    (htext : text = none ∨ text = some data) : s.Observes budget path data (s.remember budget path text) := by
  rw [CaptureBuffer.remember]
  split
  · exact ⟨by simp, by simp, by simp⟩
  · rename_i hfits
    refine ⟨fun _ ↦ ⟨h, ?_, by simp only; omega, by simp [or_comm]⟩, fun p d hp ↦ ?_, by simp [h]⟩
    · obtain ⟨hcharged, -⟩ := hs
      rcases htext with rfl | rfl
      · simp only [charged, Option.elim, List.map_cons, List.sum_cons] at hcharged ⊢
        omega
      · simp only [charged, Option.elim, List.map_cons, List.sum_cons, Dict.total_set, hfresh] at hcharged ⊢
        omega
    · rcases htext with rfl | rfl
      · refine .inl ⟨?_, hp⟩
        rintro rfl
        simp [hfresh] at hp
      · simp only [Option.elim, Dict.get?_set] at hp
        grind

theorem CaptureBuffer.observes (hbytes : s.disabled = false → (s.bytes : ℤ) = s.charged ∧ s.bytes ≤ budget)
    (hdisabled : s.disabled = true → ∀ p, s.writes.get? p = none) (path : String) (data : List UInt8)
    (hfresh : s.disabled = false → path ∉ s.seen → s.writes.get? path = none) :
    s.Observes budget path data (s.observe budget path data) := by
  rw [CaptureBuffer.observe]
  split
  · rename_i h
    exact ⟨by simp [h], fun p d hp ↦ by simp [hdisabled h p] at hp, hdisabled⟩
  · rename_i h
    rw [Bool.not_eq_true] at h
    obtain ⟨hcharged, hle⟩ := hbytes h
    split
    · rename_i hseen
      have hremembers : ∀ p, p ∈ s.seen ↔ p ∈ s.seen ∨ p = path := fun p ↦ by grind
      split
      · rename_i previous hprevious
        refine ⟨fun _ ↦ ⟨h, charged_drop hprevious hcharged, (Nat.sub_le _ _).trans hle, hremembers⟩,
          fun p d hp ↦ ?_, by simp [drop, h]⟩
        rw [get?_drop] at hp
        grind
      · rename_i hnone
        exact ⟨fun _ ↦ ⟨h, hcharged, hle, hremembers⟩, fun p d hp ↦ .inl ⟨by grind, hp⟩, by simp [h]⟩
    · rename_i hnew
      refine remembers ⟨hcharged, hle⟩ h hnew (hfresh h hnew) ?_
      split <;> simp

/-- **One write.** -/
theorem CaptureTrace.Sound.observe (ht : t.Sound budget) (path : String) (data : List UInt8) :
    ({ t with buffer := t.buffer.observe budget path data, observed := t.observed ++ [(path, data)] } :
      CaptureTrace).Sound budget := by
  have hfresh : t.buffer.disabled = false → path ∉ t.buffer.seen → t.buffer.writes.get? path = none := by
    intro h hnew
    by_contra hsome
    obtain ⟨d, hd⟩ := Option.ne_none_iff_exists'.1 hsome
    exact hnew ((ht.seen h path).2 (by simp [ht.once path d hd]))
  obtain ⟨henabled, hwrites, hdisabled⟩ := CaptureBuffer.observes ht.bytes ht.disabled path data hfresh
  refine ⟨fun h ↦ ⟨(henabled h).2.1, (henabled h).2.2.1⟩, fun h p ↦ ?_, fun p d hp ↦ ?_, hdisabled, ht.outputs,
    fun output ho ↦ ?_⟩
  · rw [(henabled h).2.2.2, ht.seen (henabled h).1 p, writesTo_observe]
    by_cases hp : path = p
    · simp [hp]
    · simp [hp, Ne.symm hp]
  · rw [writesTo_observe]
    rcases hwrites p d hp with ⟨hne, hold⟩ | ⟨h, rfl, rfl, hnew⟩
    · rw [ht.once p d hold, if_neg (Ne.symm hne), List.append_nil]
    · rw [ht.seen h, not_not] at hnew
      simp [hnew]
  · obtain ⟨p, hpath, hnone, hne⟩ := ht.gone output ho
    refine ⟨p, hpath, ?_, by simp [writesTo_observe, hne]⟩
    by_contra hsome
    obtain ⟨d, hd⟩ := Option.ne_none_iff_exists'.1 hsome
    rcases hwrites p d hd with ⟨-, hold⟩ | ⟨h, rfl, rfl, hnew⟩
    · rw [hnone] at hold
      cases hold
    · exact hnew ((ht.seen h p).2 hne)

/-- **One record.** -/
theorem CaptureTrace.Sound.takeOne (ht : t.Sound budget) (record : CaptureRecord) :
    ({ t with
      buffer := (t.buffer.takeOne record).1
      outputs := t.outputs ++ (t.buffer.takeOne record).2.toList } : CaptureTrace).Sound budget := by
  rw [CaptureBuffer.takeOne]
  split
  · simpa using ht
  split
  · simpa using ht
  rename_i path hpath
  split
  · simpa using ht
  rename_i data hdata
  have hnone : ∀ p, (t.buffer.drop path data).writes.get? p = none ↔
      p = path ∨ t.buffer.writes.get? p = none := fun p ↦ by
    rw [CaptureBuffer.get?_drop]
    grind
  refine ⟨fun h ↦ ⟨CaptureBuffer.charged_drop hdata (ht.bytes h).1, (Nat.sub_le _ _).trans (ht.bytes h).2⟩,
    ht.seen, fun p d hp ↦ ?_, fun h p ↦ (hnone p).2 (.inr (ht.disabled h p)), ?_, fun output ho ↦ ?_⟩
  · rw [CaptureBuffer.get?_drop] at hp
    split at hp
    · cases hp
    · exact ht.once p d hp
  · -- The path has not been taken before, as its bytes were there.
    cases record.slice data with
    | none => simpa using ht.outputs
    | some slice =>
      simp only [Option.map_some, Option.toList_some, List.map_append, List.map_cons, List.map_nil]
      rw [List.nodup_append]
      refine ⟨ht.outputs, List.nodup_singleton _, fun q hq q' hq' heq ↦ ?_⟩
      obtain ⟨output, ho, rfl⟩ := List.mem_map.1 hq
      obtain ⟨p, hp, hgone, -⟩ := ht.gone output ho
      rw [heq, List.mem_singleton.1 hq', hpath, Option.some.injEq] at hp
      rw [← hp, hdata] at hgone
      cases hgone
  · rcases List.mem_append.1 ho with ho | ho
    · obtain ⟨p, hp, hgone, hne⟩ := ht.gone output ho
      exact ⟨p, hp, (hnone p).2 (.inr hgone), hne⟩
    · obtain ⟨slice, -, rfl⟩ := Option.map_eq_some_iff.1 (Option.mem_toList.1 ho)
      have hwritten : t.writesTo path ≠ [] := by simp [ht.once path data hdata]
      exact ⟨path, hpath, (hnone path).2 (.inl rfl), hwritten⟩

theorem CaptureTrace.Sound.take (ht : t.Sound budget) (records : List CaptureRecord) :
    ({ t with
      buffer := (t.buffer.take records).1
      outputs := t.outputs ++ (t.buffer.take records).2 } : CaptureTrace).Sound budget := by
  induction records generalizing t with
  | nil => simpa [CaptureBuffer.take] using ht
  | cons record records ih => simpa [CaptureBuffer.take] using ih (ht.takeOne record)

theorem CaptureTrace.sound_of_run {l : List CaptureCall} (h : Run (CaptureTrace.Step budget) {} l t) :
    t.Sound budget := by
  refine h.invariant ⟨by simp [CaptureBuffer.charged, Dict.total, Table.empty], by simp [writesTo], by simp,
    by simp, by simp, by simp⟩ ?_
  rintro t call u ht rfl
  cases call with
  | observe path data => exact ht.observe path data
  | take records => exact ht.take records

/-- What is taken was kept. -/
theorem CaptureBuffer.mem_take {records : List CaptureRecord} {output : CapturedOutput}
    (h : output ∈ (s.take records).2) : ∃ path data, output.record.path? = some path ∧
      s.writes.get? path = some data ∧ output.record.slice data = some output.data := by
  induction records generalizing s with
  | nil => simp [take] at h
  | cons record records ih =>
    rw [take, List.mem_append] at h
    rcases h with h | h
    · rw [Option.mem_toList, takeOne] at h
      split at h
      · cases h
      split at h
      · cases h
      rename_i path hpath
      split at h
      · cases h
      rename_i data hdata
      obtain ⟨slice, hslice, rfl⟩ := Option.map_eq_some_iff.1 h
      exact ⟨path, data, hpath, hdata, hslice⟩
    · obtain ⟨path, data, hpath, hdata, hslice⟩ := ih h
      refine ⟨path, data, hpath, ?_, hslice⟩
      revert hdata
      rw [takeOne]
      split
      · exact id
      split
      · exact id
      split
      · exact id
      rw [get?_drop]
      split
      · simp
      · exact id

theorem CaptureRecord.slice_eq_some {record : CaptureRecord} {slice : List UInt8}
    (h : record.slice data = some slice) : ∃ start length, record.range? = some (start, length) ∧
      start + length ≤ data.length ∧ slice = (data.drop start).take length := by
  simp only [CaptureRecord.slice, Option.bind_eq_bind, Option.bind_eq_some_iff] at h
  obtain ⟨-, -, complete, -, h⟩ := h
  split at h
  · cases h
  obtain ⟨⟨start, length⟩, hrange, h⟩ := Option.bind_eq_some_iff.1 h
  simp only at h
  split at h
  · cases h
  split at h <;> cases h
  exact ⟨start, length, hrange, by omega, rfl⟩

/-! ### What is handed over -/

/-- A `PublishQueue`, with everything it has accepted and everything of which `persist` was called. -/
structure PublishQueue where
  pending : List (CapturedOutput × ℕ) := []
  bytes : ℕ := 0
  running : Bool := false
  accepted : List CapturedOutput := []
  attempted : List CapturedOutput := []

/-- Where a call of `publish` is, and the thread that it has started. -/
inductive Publishing
  | idle
  /-- The queue is released, and the thread is not started. -/
  | spawning
  /-- At the head of the loop. -/
  | looping
  | persisting (output : CapturedOutput) (cost : ℕ)
  /-- `persist` has returned, and the cost is not taken off. -/
  | persisted (cost : ℕ)
  /-- `persist` has panicked. -/
  | unwinding (cost : ℕ)

inductive PublishEvent
  | publish (outputs : List CapturedOutput)
  | spawned (ok : Bool)
  | next
  | persisted (panics : Bool)
  | account
  | release

namespace PublishQueue

variable (payloadLength : Json → ℕ)

def cost (output : CapturedOutput) : ℕ := output.data.length + payloadLength output.record.payload + 512

/-- One output in `enqueue`. -/
def push (budget : ℕ) (q : PublishQueue) (output : CapturedOutput) : PublishQueue :=
  if budget < q.bytes + cost payloadLength output then q
  else
    { q with
      bytes := q.bytes + cost payloadLength output
      pending := q.pending ++ [(output, cost payloadLength output)]
      accepted := q.accepted ++ [output] }

/-- `enqueue`; the thread has to be started if it was not running and is now. -/
def enqueue (budget : ℕ) (q : PublishQueue) (outputs : List CapturedOutput) : PublishQueue :=
  let q := outputs.foldl (push payloadLength budget) q
  { q with running := q.running || !q.pending.isEmpty }

/-- `*queue = PublishQueue::default()` -/
def reset (q : PublishQueue) : PublishQueue := { q with pending := [], bytes := 0, running := false }

end PublishQueue

/-- A step of a call or of its thread; what touches the queue is done under its lock. -/
def publishAct (payloadLength : Json → ℕ) (budget : ℕ) {ι : Type} (_ : ι) (l : Publishing) (q : PublishQueue)
    (e : PublishEvent) : Option (Publishing × PublishQueue) :=
  match l, e with
  | .idle, .publish outputs =>
    let filled := q.enqueue payloadLength budget outputs
    some (if filled.running && !q.running then .spawning else .idle, filled)
  | .spawning, .spawned ok => some (if ok then (.looping, q) else (.idle, q.reset))
  | .looping, .next =>
    match q.pending with
    | [] => some (.idle, { q with running := false })
    | (output, cost) :: pending =>
      some (.persisting output cost, { q with pending, attempted := q.attempted ++ [output] })
  | .persisting _ cost, .persisted panics => some (if panics then .unwinding cost else .persisted cost, q)
  | .persisted cost, .account => some (.looping, { q with bytes := q.bytes - cost })
  | .unwinding _, .release => some (.idle, q.reset)
  | _, _ => none

/-- The thread is running, or is being started. -/
def Publishing.active : Publishing → Bool
  | idle => false
  | _ => true

/-- The cost of the output that the thread has. -/
def Publishing.inProgress : Publishing → ℕ
  | persisting _ cost | persisted cost | unwinding cost => cost
  | _ => 0

theorem Publishing.inProgress_of_not_active {l : Publishing} (h : ¬l.active) : l.inProgress = 0 := by
  cases l <;> simp_all [active, inProgress]

namespace PublishQueue

/-- The cost of what is queued. -/
def queued (q : PublishQueue) : ℕ := (q.pending.map Prod.snd).sum

/-- What `persist` was called of, and what is queued, were accepted in this order. -/
def Ordered (q : PublishQueue) : Prop := (q.attempted ++ q.pending.map Prod.fst).Sublist q.accepted

variable {q : PublishQueue}

theorem Ordered.reset (hq : q.Ordered) : q.reset.Ordered := by
  rw [Ordered, PublishQueue.reset, List.map_nil, List.append_nil]
  exact (List.sublist_append_left _ _).trans hq

variable (payloadLength : Json → ℕ)

theorem queued_push (hq : q.Ordered) (hle : q.bytes ≤ budget) (output : CapturedOutput) :
    (q.push payloadLength budget output).Ordered ∧ (q.push payloadLength budget output).bytes ≤ budget ∧
      (q.push payloadLength budget output).bytes + q.queued =
        q.bytes + (q.push payloadLength budget output).queued ∧
      (q.push payloadLength budget output).running = q.running := by
  rw [push]
  split
  · exact ⟨hq, hle, rfl, rfl⟩
  · refine ⟨?_, by simp only; omega, by simp only [queued, List.map_append, List.sum_append]; simp; omega, rfl⟩
    simp only [Ordered, List.map_append, List.map_cons, List.map_nil, ← List.append_assoc]
    exact hq.append (List.Sublist.refl _)

theorem queued_enqueue (hq : q.Ordered) (hle : q.bytes ≤ budget) (outputs : List CapturedOutput) :
    (q.enqueue payloadLength budget outputs).Ordered ∧ (q.enqueue payloadLength budget outputs).bytes ≤ budget ∧
      (q.enqueue payloadLength budget outputs).bytes + q.queued =
        q.bytes + (q.enqueue payloadLength budget outputs).queued ∧
      (q.running → (q.enqueue payloadLength budget outputs).running) := by
  suffices hfold : (outputs.foldl (push payloadLength budget) q).Ordered ∧
      (outputs.foldl (push payloadLength budget) q).bytes ≤ budget ∧
      (outputs.foldl (push payloadLength budget) q).bytes + q.queued =
        q.bytes + (outputs.foldl (push payloadLength budget) q).queued ∧
      (outputs.foldl (push payloadLength budget) q).running = q.running from
    ⟨hfold.1, hfold.2.1, hfold.2.2.1, fun h ↦ by simp [enqueue, hfold.2.2.2, h]⟩
  induction outputs generalizing q with
  | nil => exact ⟨hq, hle, rfl, rfl⟩
  | cons output outputs ih =>
    obtain ⟨hq', hle', hqueued, hrunning⟩ := queued_push payloadLength hq hle output
    obtain ⟨hq'', hle'', hqueued', hrunning'⟩ := ih hq' hle'
    exact ⟨hq'', hle'', by rw [List.foldl_cons]; omega, hrunning'.trans hrunning⟩

end PublishQueue

/-- What a step does: the thread is started, goes on or stops, and the bytes are those of what is queued and
of what it has, if they were. -/
theorem publishAct_spec {ι : Type} {i : ι} {payloadLength : Json → ℕ} {l l' : Publishing} {q q' : PublishQueue}
    {e : PublishEvent} (h : publishAct payloadLength budget i l q e = some (l', q')) (hq : q.Ordered)
    (hle : q.bytes ≤ budget) (hrunning : l.active → q.running) :
    (q'.Ordered ∧ q'.bytes ≤ budget) ∧
      (l'.active = l.active ∧ q'.running = q.running ∨ l'.active ∧ q.running = false ∧ q'.running ∨
        l.active ∧ l'.active = false ∧ q'.running = false) ∧
      ∀ others, q.bytes = q.queued + (l.inProgress + others) → (l.active → others = 0) →
        q'.bytes = q'.queued + (l'.inProgress + others) := by
  cases l <;> cases e <;> simp only [publishAct, reduceCtorEq] at h
  case idle.publish outputs =>
    obtain ⟨hq', hle', hqueued, hstays⟩ := PublishQueue.queued_enqueue payloadLength hq hle outputs
    cases h
    refine ⟨⟨hq', hle'⟩, ?_, fun others hbytes _ ↦ ?_⟩
    · cases hr : q.running <;> cases hr' : (q.enqueue payloadLength budget outputs).running <;>
        simp_all [Publishing.active]
    · split <;> simp only [Publishing.inProgress] at hbytes ⊢ <;> omega
  case spawning.spawned ok =>
    cases ok <;> cases h
    · refine ⟨⟨hq.reset, Nat.zero_le _⟩, .inr (.inr ⟨rfl, rfl, rfl⟩), fun others _ hothers ↦ ?_⟩
      rw [hothers rfl]
      rfl
    · exact ⟨⟨hq, hle⟩, .inl ⟨rfl, rfl⟩, fun _ hbytes _ ↦ hbytes⟩
  case looping.next =>
    split at h <;> rename_i hpending <;> cases h
    · exact ⟨⟨hq, hle⟩, .inr (.inr ⟨rfl, rfl, rfl⟩), fun _ hbytes _ ↦ hbytes⟩
    · rename_i output cost pending
      refine ⟨⟨?_, hle⟩, .inl ⟨rfl, rfl⟩, fun others hbytes _ ↦ ?_⟩
      · simpa [PublishQueue.Ordered, hpending] using hq
      · simp only [PublishQueue.queued, hpending, List.map_cons, List.sum_cons, Publishing.inProgress] at hbytes ⊢
        omega
  case persisting.persisted output cost panics =>
    cases panics <;> cases h <;> exact ⟨⟨hq, hle⟩, .inl ⟨rfl, rfl⟩, fun _ hbytes _ ↦ hbytes⟩
  case persisted.account cost =>
    cases h
    refine ⟨⟨hq, (Nat.sub_le _ _).trans hle⟩, .inl ⟨rfl, rfl⟩, fun others hbytes _ ↦ ?_⟩
    simp only [PublishQueue.queued, Publishing.inProgress] at hbytes ⊢
    omega
  case unwinding.release cost =>
    cases h
    refine ⟨⟨hq.reset, Nat.zero_le _⟩, .inr (.inr ⟨rfl, rfl, rfl⟩), fun others _ hothers ↦ ?_⟩
    rw [hothers rfl]
    rfl

section Publish

variable {ι : Type} [Fintype ι] {payloadLength : Json → ℕ} {p q : Pool ι Publishing PublishQueue}
  {a : ι × PublishEvent}

/-- The queue against the threads. -/
structure Accounted (budget : ℕ) (p : Pool ι Publishing PublishQueue) : Prop where
  bytes : p.shared.bytes = p.shared.queued + ∑ i, (p.thread i).inProgress
  bound : p.shared.bytes ≤ budget
  one : ∀ i j, (p.thread i).active → (p.thread j).active → j = i
  running : p.shared.running ↔ ∃ i, (p.thread i).active
  order : p.shared.Ordered

variable [DecidableEq ι]

/-- **One step.** -/
theorem Accounted.step (hp : Accounted budget p) (h : Pool.Step (publishAct payloadLength budget) p a q) :
    Accounted budget q := by
  obtain ⟨⟨horder, hbound⟩, hrunning, hbytes⟩ := publishAct_spec h.act hp.order hp.bound
    fun hactive ↦ hp.running.2 ⟨_, hactive⟩
  have hother : ∀ i, i ≠ a.1 → (q.thread i).active = (p.thread i).active := fun i hi ↦ by rw [h.other hi]
  have hthreads : (∀ i j, (q.thread i).active → (q.thread j).active → j = i) ∧
      (q.shared.running ↔ ∃ i, (q.thread i).active) := by
    rcases hrunning with ⟨hsame, hrun⟩ | ⟨hstarts, hrun, hrun'⟩ | ⟨hstops, hidle, hrun'⟩
    · have hall : ∀ i, (q.thread i).active = (p.thread i).active := fun i ↦ by
        by_cases hi : i = a.1
        · rw [hi, hsame]
        · exact hother i hi
      simp only [hall, hrun]
      exact ⟨hp.one, hp.running⟩
    · -- No thread was running.
      have honly : ∀ i, (q.thread i).active → i = a.1 := fun i hi ↦ by
        by_contra hne
        rw [hp.running.2 ⟨i, hother i hne ▸ hi⟩] at hrun
        cases hrun
      exact ⟨fun i j hi hj ↦ (honly j hj).trans (honly i hi).symm, iff_of_true hrun' ⟨_, hstarts⟩⟩
    · -- The only thread stops.
      have hnone : ∀ i, ¬(q.thread i).active := fun i hi ↦ by
        by_cases hia : i = a.1
        · rw [hia, hidle] at hi
          cases hi
        · exact hia (hp.one _ _ hstops (hother i hia ▸ hi))
      exact ⟨fun i _ hi ↦ absurd hi (hnone i), iff_of_false (by simp [hrun']) (by simpa using hnone)⟩
  refine ⟨?_, hbound, hthreads.1, hthreads.2, horder⟩
  rw [Pool.sum_step Publishing.inProgress h]
  refine hbytes _ (hp.bytes.trans (by rw [Pool.sum_eq Publishing.inProgress p a.1])) fun ha ↦ ?_
  refine Finset.sum_eq_zero fun j hj ↦ Publishing.inProgress_of_not_active fun hj' ↦ ?_
  exact Finset.ne_of_mem_erase hj (hp.one _ _ ha hj')

/-- **Captured outputs.** Along every sequence of writes and takes with one budget: unless it is disabled, the
buffer counts the bytes that it keeps and the paths it has seen, within the budget; what is taken is the
announced part of what was written, once, to a path; no path is taken twice; and a disabled buffer gives
nothing. Along every interleaving of calls that publish and of their threads: the queue counts what is queued
and what is being stored, within the budget; outputs are stored in the order in which they were accepted; and
there is at most one thread. -/
theorem capture_accounting (payloadLength : Json → ℕ) (budget : ℕ) :
    (∀ {l t}, Run (CaptureTrace.Step budget) {} l t →
      (t.buffer.disabled = false → (t.buffer.bytes : ℤ) = t.buffer.charged ∧ t.buffer.bytes ≤ budget) ∧
      (∀ records, ∀ output ∈ (t.buffer.take records).2, ∃ path data start length,
        output.record.path? = some path ∧ t.writesTo path = [(path, data)] ∧
        output.record.range? = some (start, length) ∧ start + length ≤ data.length ∧
        output.data = (data.drop start).take length) ∧
      (t.outputs.map (·.record.path?)).Nodup ∧
      (t.buffer.disabled = true → ∀ records, (t.buffer.take records).2 = [])) ∧
    ∀ {l} {p : Pool ι Publishing PublishQueue},
      Run (Pool.Step (publishAct payloadLength budget)) ⟨{}, fun _ ↦ .idle⟩ l p →
      p.shared.bytes = p.shared.queued + ∑ i, (p.thread i).inProgress ∧ p.shared.bytes ≤ budget ∧
      (p.shared.attempted ++ p.shared.pending.map Prod.fst).Sublist p.shared.accepted ∧
      ∀ i j, (p.thread i).active → (p.thread j).active → j = i := by
  constructor
  · intro l t hrun
    have ht := CaptureTrace.sound_of_run hrun
    refine ⟨ht.bytes, fun records output ho ↦ ?_, ht.outputs, fun hdisabled records ↦ ?_⟩
    · obtain ⟨path, data, hpath, hdata, hslice⟩ := CaptureBuffer.mem_take ho
      obtain ⟨start, length, hrange, hle, hslice⟩ := CaptureRecord.slice_eq_some hslice
      exact ⟨path, data, start, length, hpath, ht.once path data hdata, hrange, hle, hslice⟩
    · refine List.eq_nil_iff_forall_not_mem.2 fun output ho ↦ ?_
      obtain ⟨path, data, -, hdata, -⟩ := CaptureBuffer.mem_take ho
      rw [ht.disabled hdisabled path] at hdata
      cases hdata
  · intro l p hrun
    have hp : Accounted budget p := hrun.invariant
      ⟨by simp [PublishQueue.queued, Publishing.inProgress], by simp, by simp [Publishing.active],
        by simp [Publishing.active], by simp [PublishQueue.Ordered]⟩ fun _ _ _ hp hstep ↦ hp.step hstep
    exact ⟨hp.bytes, hp.bound, hp.order, hp.one⟩

/-- One write. -/
theorem capture_accounting_one : ∃ t, Run (CaptureTrace.Step 1000) {} [.observe "p" [65]] t ∧
    t.buffer.disabled = false ∧ (t.buffer.bytes : ℤ) = t.buffer.charged := by
  have hrun : Run (CaptureTrace.Step 1000) {} [.observe "p" [65]] _ := .single rfl
  exact ⟨_, hrun, rfl, (((capture_accounting (ι := Unit) (fun _ ↦ 0) 1000).1 hrun).1 rfl).1⟩

end Publish

end Centaeris.Transcript
