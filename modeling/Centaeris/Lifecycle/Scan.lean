import Centaeris.Base.Except
import Centaeris.Base.IsoTime
import Centaeris.Base.Json
import Centaeris.Relational.Keyset
import Mathlib.Data.Prod.Lex
import Mathlib.Data.String.Basic

/-!
# Reconciliation scans everything

The worker's reconciler asks the server for pages of the runs in a scanned status, oldest first, and hands
the cursor of each page back with its next request. The cursor is the creation time and the id of the last
run of the page, and travels as a JSON object whose time is an ISO text. Where a page is the last one there
is no cursor, and the next request starts over.

Runs come and go between the requests. A run that stays in the status is reconciled once in a pass, at its
place in the order of creation, and a pass ends (`pass_visits_all`).

Ids are compared by the collation of the database: `weight` places them in some order, different ids at
different places.
-/

namespace Centaeris.Lifecycle

/-- A run, as far as the scan reads it. -/
structure AgentRun where
  id : String
  createdAt : UtcTime
  deriving DecidableEq

/-- The runs whose id the model's column holds. -/
def AgentRun.Stored (r : AgentRun) : Prop := 1 ≤ r.id.length ∧ r.id.length ≤ 64

/-! ### The server -/

/-- `_lifecycle_scan_cursor`: every failure is the same error. -/
def lifecycleScanCursor : Json → Except Unit (Option (UtcTime × String))
  | .null => .ok none
  | value => do
    let fields ← Except.okOr value.asObject? ()
    Except.require (Json.Fields.keysAre fields ["createdAt", "id"]) ()
    let id ← Except.okOr ((Json.Fields.get? fields "id").bind Json.asStr?) ()
    Except.require (1 ≤ id.length ∧ id.length ≤ 256) ()
    let text ← Except.okOr ((Json.Fields.get? fields "createdAt").bind Json.asStr?) ()
    let (createdAt, aware) ← Except.okOr (UtcTime.fromIsoformat text.toList) ()
    Except.require aware ()
    return some (createdAt, id)

/-- The cursor of a run. -/
def cursorJson (r : AgentRun) : Json :=
  .obj [("createdAt", .str (String.ofList r.createdAt.isoformat)), ("id", .str r.id)]

variable {κ : Type*} [LinearOrder κ] (weight : String → κ)

/-- `order_by("createdAt", "id")`. -/
def place (r : AgentRun) : ℕ ×ₗ κ := toLex (r.createdAt.stamp, weight r.id)

/-- `_lifecycle_scan_page` of the runs that are in the status. -/
def lifecycleScanPage (queryset : List AgentRun) (after : Option (UtcTime × String)) (limit : ℕ) :
    List AgentRun × Json :=
  let queryset := match after with
    | none => queryset
    | some (createdAt, identity) => queryset.filter fun r ↦
      decide (createdAt.stamp < r.createdAt.stamp) ||
        (decide (r.createdAt = createdAt) && decide (weight identity < weight r.id))
  let rows := (queryset.insertionSort fun a b ↦ place weight a ≤ place weight b).take (limit + 1)
  let page := rows.take limit
  (page, if limit < rows.length then (page.getLast?.map cursorJson).getD .null else .null)

/-- The runs that the two queries of a request find. -/
structure Found where
  active : List AgentRun
  deadLetter : List AgentRun

/-- A request's pages and its answer's cursors. -/
structure Reconciled where
  active : List AgentRun
  deadLetter : List AgentRun
  activeNext : Json
  deadLetterNext : Json

/-- `reconcile_agent_run_lifecycle`, with what is then done to the runs left out. -/
def reconcileAgentRunLifecycle (limit : ℕ) (found : Found) (activeAfter deadLetterAfter : Json) :
    Except Unit Reconciled := do
  let activeAfter ← lifecycleScanCursor activeAfter
  let deadLetterAfter ← lifecycleScanCursor deadLetterAfter
  let (active, activeNext) := lifecycleScanPage weight found.active activeAfter limit
  let (deadLetter, deadLetterNext) := lifecycleScanPage weight found.deadLetter deadLetterAfter limit
  return ⟨active, deadLetter, activeNext, deadLetterNext⟩

/-! ### The worker -/

/-- `LifecycleReconciler`, with the cursors of its two scans. -/
structure LifecycleReconciler where
  activeAfter : Json
  deadLetterAfter : Json

/-- `LifecycleReconciler.__init__`. -/
def LifecycleReconciler.init : LifecycleReconciler := ⟨.null, .null⟩

/-- `LifecycleReconciler.__call__`: the answer's cursors are kept, whatever they are. -/
def LifecycleReconciler.call (limit : ℕ) (found : Found) (worker : LifecycleReconciler) :
    Except Unit (LifecycleReconciler × Reconciled) := do
  let lifecycle ← reconcileAgentRunLifecycle weight limit found worker.activeAfter worker.deadLetterAfter
  return (⟨lifecycle.activeNext, lifecycle.deadLetterNext⟩, lifecycle)

/-! ### A page is the next rows after the cursor -/

theorem lifecycleScanCursor_cursorJson {r : AgentRun} (h : r.Stored) :
    lifecycleScanCursor (cursorJson r) = .ok (some (r.createdAt, r.id)) := by
  have hlength : 1 ≤ r.id.length ∧ r.id.length ≤ 256 := ⟨h.1, h.2.trans (by decide)⟩
  simp [lifecycleScanCursor, cursorJson, Except.okOr, Json.Fields.get?, Json.Fields.keysAre,
    UtcTime.fromIsoformat_isoformat, Except.require, hlength]

variable {weight}

theorem place_lt_iff {r : AgentRun} {createdAt : UtcTime} {identity : String} :
    toLex (createdAt.stamp, weight identity) < place weight r ↔ createdAt.stamp < r.createdAt.stamp ∨
      r.createdAt = createdAt ∧ weight identity < weight r.id := by
  rw [place, Prod.Lex.toLex_lt_toLex, UtcTime.stamp_injective.eq_iff, eq_comm]

/-- What a cursor of the wire stands for: nothing, or the place of a run. -/
inductive Stands (weight : String → κ) : Json → Option (ℕ ×ₗ κ) → Prop
  | start : Stands weight .null none
  | run {r : AgentRun} : r.Stored → Stands weight (cursorJson r) (some (place weight r))

omit [LinearOrder κ] in
theorem Stands.eq_null_iff {j : Json} {c : Option (ℕ ×ₗ κ)} (h : Stands weight j c) : j = .null ↔ c = none := by
  cases h <;> simp [cursorJson]

/-- The query's filter and order, by place. -/
theorem lifecycleScanPage_eq (queryset : List AgentRun) (after : Option (UtcTime × String)) (limit : ℕ) :
    lifecycleScanPage weight queryset after limit =
      let rows := (Keyset.rowsAfter (place weight) queryset
        (after.map fun a ↦ toLex (a.1.stamp, weight a.2))).take (limit + 1)
      (rows.take limit,
        if limit < rows.length then ((rows.take limit).getLast?.map cursorJson).getD .null else .null) := by
  cases after with
  | none => simp [lifecycleScanPage, Keyset.rowsAfter]
  | some a => simp [lifecycleScanPage, Keyset.rowsAfter, place_lt_iff]

/-- A page's answer stands for where the page ends. -/
theorem stands_lifecycleScanPage {limit : ℕ} (hlimit : 1 ≤ limit) {queryset : List AgentRun}
    (hstored : ∀ r ∈ queryset, r.Stored) (after : Option (UtcTime × String)) :
    Stands weight (lifecycleScanPage weight queryset after limit).2 (Keyset.page (place weight) limit queryset
      (after.map fun a ↦ toLex (a.1.stamp, weight a.2))).2 := by
  rw [lifecycleScanPage_eq, Keyset.page]
  generalize hrows : Keyset.rowsAfter (place weight) queryset
    (after.map fun a ↦ toLex (a.1.stamp, weight a.2)) = rows
  dsimp only
  split
  · rename_i hmore
    rcases hlast : ((rows.take (limit + 1)).take limit).getLast? with - | last
    · simp only [List.getLast?_eq_none_iff, List.take_eq_nil_iff] at hlast
      simp only [List.length_take] at hmore
      rcases hlast with h | h | h
      all_goals simp_all
    · have hmem : last ∈ rows := List.mem_of_mem_take (List.mem_of_mem_take (List.mem_of_getLast? hlast))
      rw [← hrows] at hmem
      exact .run (hstored last (Keyset.mem_rowsAfter.1 hmem).1)
  · exact .start

/-- A request from a cursor gives the rows after what it stands for, and such a cursor again. -/
theorem lifecycleScanPage_of_stands {limit : ℕ} (hlimit : 1 ≤ limit) {queryset : List AgentRun}
    (hstored : ∀ r ∈ queryset, r.Stored) {j : Json} {c : Option (ℕ ×ₗ κ)} (h : Stands weight j c) :
    ∃ after, lifecycleScanCursor j = .ok after ∧
      (lifecycleScanPage weight queryset after limit).1 = (Keyset.page (place weight) limit queryset c).1 ∧
      Stands weight (lifecycleScanPage weight queryset after limit).2
        (Keyset.page (place weight) limit queryset c).2 := by
  obtain ⟨after, hafter, rfl⟩ : ∃ after, lifecycleScanCursor j = .ok after ∧
      after.map (fun a ↦ toLex (a.1.stamp, weight a.2)) = c := by
    cases h with
    | start => exact ⟨none, rfl, rfl⟩
    | run hr => exact ⟨_, lifecycleScanCursor_cursorJson hr, rfl⟩
  exact ⟨after, hafter, by rw [lifecycleScanPage_eq, Keyset.page], stands_lifecycleScanPage hlimit hstored after⟩

/-! ### The scans of the worker -/

/-- The runs that a request finds: each once, with an id that fits its column. -/
structure Found.Stored (found : Found) : Prop where
  active : ∀ r ∈ found.active, r.Stored
  deadLetter : ∀ r ∈ found.deadLetter, r.Stored
  activeIds : (found.active.map AgentRun.id).Nodup
  deadLetterIds : (found.deadLetter.map AgentRun.id).Nodup

omit [LinearOrder κ] in
theorem Found.Stored.distinct (hweight : Function.Injective weight) {rows : List AgentRun}
    (h : (rows.map AgentRun.id).Nodup) : Keyset.Distinct (place weight) rows := by
  rw [List.Nodup, List.pairwise_map] at h
  refine h.imp fun {a b} hne heq ↦ hne (hweight ?_)
  exact congrArg Prod.snd (toLex.injective heq)

/-- Steps that can always be taken make a sequence. -/
theorem exists_sequence {σ ρ : Type*} {S : ℕ → σ → Prop} {T : ℕ → σ → σ → ρ → Prop} {s₀ : σ} (h₀ : S 0 s₀)
    (hstep : ∀ n s, S n s → ∃ s' r, T n s s' r ∧ S (n + 1) s') :
    ∃ (s : ℕ → σ) (r : ℕ → ρ), s 0 = s₀ ∧ ∀ n, S n (s n) ∧ T n (s n) (s (n + 1)) (r n) := by
  choose next out hnext hkeeps using hstep
  let s : (n : ℕ) → { s // S n s } := fun n ↦
    Nat.rec ⟨s₀, h₀⟩ (fun n s ↦ ⟨next n s.1 s.2, hkeeps n s.1 s.2⟩) n
  exact ⟨fun n ↦ (s n).1, fun n ↦ out n (s n).1 (s n).2, rfl, fun n ↦ ⟨(s n).2, hnext n (s n).1 (s n).2⟩⟩

/-- The worker's cursors stand for those of two scans by key. -/
structure Scanning (weight : String → κ) (limit : ℕ) (found : ℕ → Found) (n : ℕ) (worker : LifecycleReconciler) :
    Prop where
  active : Stands weight worker.activeAfter (Keyset.cursor (place weight) limit (fun i ↦ (found i).active) n)
  deadLetter : Stands weight worker.deadLetterAfter
    (Keyset.cursor (place weight) limit (fun i ↦ (found i).deadLetter) n)

/-- A call takes a page of each scan. -/
structure Taken (weight : String → κ) (limit : ℕ) (found : ℕ → Found) (n : ℕ)
    (worker worker' : LifecycleReconciler) (reconciled : Reconciled) : Prop where
  returned : worker.call weight limit (found n) = .ok (worker', reconciled)
  active : reconciled.active = Keyset.read (place weight) limit (fun i ↦ (found i).active) n
  deadLetter : reconciled.deadLetter = Keyset.read (place weight) limit (fun i ↦ (found i).deadLetter) n

theorem Scanning.call {limit : ℕ} (hlimit : 1 ≤ limit) {found : ℕ → Found} {n : ℕ} (hfound : (found n).Stored)
    {worker : LifecycleReconciler} (h : Scanning weight limit found n worker) :
    ∃ worker' reconciled, Taken weight limit found n worker worker' reconciled ∧
      Scanning weight limit found (n + 1) worker' := by
  obtain ⟨after, hafter, hpage, hnext⟩ := lifecycleScanPage_of_stands hlimit hfound.active h.active
  obtain ⟨after', hafter', hpage', hnext'⟩ := lifecycleScanPage_of_stands hlimit hfound.deadLetter h.deadLetter
  let page := lifecycleScanPage weight (found n).active after limit
  let page' := lifecycleScanPage weight (found n).deadLetter after' limit
  refine ⟨⟨page.2, page'.2⟩, ⟨page.1, page'.1, page.2, page'.2⟩, ⟨?_, hpage, hpage'⟩, hnext, hnext'⟩
  simp only [LifecycleReconciler.call, reconcileAgentRunLifecycle, hafter, hafter', Except.ok_bind]
  rfl

/-- A pass of a scan: the calls from the `m`-th on, up to the first that answers without a cursor. It visits
what is in the status all the time, once, and in order. -/
structure Pass (weight : String → κ) (tables pages : ℕ → List AgentRun) (cursors : ℕ → Json) (m k : ℕ) :
    Prop where
  ends : cursors (m + k + 1) = .null
  goes : ∀ i, 0 < i → i ≤ k → cursors (m + i) ≠ .null
  inOrder : ((List.range (k + 1)).flatMap fun i ↦ pages (m + i)).Pairwise fun a b ↦
    place weight a < place weight b
  once : ∀ r, (∀ i ≤ k, r ∈ tables (m + i)) →
    ((List.range (k + 1)).flatMap fun i ↦ pages (m + i)).count r = 1

/-- A scan by key passes. -/
theorem exists_pass {limit : ℕ} (hlimit : 1 ≤ limit) {tables pages : ℕ → List AgentRun} {cursors : ℕ → Json}
    (htables : ∀ i, Keyset.Distinct (place weight) (tables i)) (hfinite : {r | ∃ i, r ∈ tables i}.Finite)
    (hpages : ∀ i, pages i = Keyset.read (place weight) limit tables i)
    (hcursors : ∀ i, Stands weight (cursors i) (Keyset.cursor (place weight) limit tables i)) {m : ℕ}
    (hm : cursors m = .null) : ∃ k, Pass weight tables pages cursors m k := by
  have hstart := (hcursors m).eq_null_iff.1 hm
  have hshift (i : ℕ) := Keyset.cursor_add hstart i
  have hkeys : ∀ i, ∀ r ∈ tables (m + i), place weight r ∈ (hfinite.image (place weight)).toFinset := by
    intro i r hr
    rw [Set.Finite.mem_toFinset]
    exact ⟨r, ⟨m + i, hr⟩, rfl⟩
  obtain ⟨k, -, hend, hgoing, hinOrder, hall⟩ := Keyset.pass (fun i ↦ htables (m + i)) hlimit hkeys
  have hvisited : ((List.range (k + 1)).flatMap fun i ↦ pages (m + i)) =
      Keyset.readBefore (place weight) limit (fun i ↦ tables (m + i)) (k + 1) := by
    rw [Keyset.readBefore]
    congr 1
    funext i
    rw [hpages, Keyset.read, hshift, Keyset.read]
  refine ⟨k, ?_, ?_, by rwa [hvisited], ?_⟩
  · rwa [(hcursors _).eq_null_iff, Nat.add_assoc, hshift]
  · intro i hi hik
    rw [Ne, (hcursors _).eq_null_iff, hshift]
    exact hgoing i hi hik
  · intro r hr
    rw [hvisited]
    exact List.count_eq_one_of_mem (hinOrder.imp fun hlt heq ↦ by simp [heq] at hlt) (hall r hr)

/-- **Reconciliation scans everything.** The worker's calls never fail on the cursors they hand back. From any
call at which a scan has no cursor, the first one or the one after the end of a pass, finitely many calls
reconcile each run that stays in the status, once, in the order of creation and id, and end without a
cursor; whatever other runs come and go, if they are finitely many. -/
theorem pass_visits_all (hweight : Function.Injective weight) {limit : ℕ} (hlimit : 1 ≤ limit) {found : ℕ → Found}
    (hfound : ∀ i, (found i).Stored)
    (hactive : {r | ∃ i, r ∈ (found i).active}.Finite)
    (hdeadLetter : {r | ∃ i, r ∈ (found i).deadLetter}.Finite) :
    ∃ (worker : ℕ → LifecycleReconciler) (reconciled : ℕ → Reconciled), worker 0 = .init ∧
      (∀ i, (worker i).call weight limit (found i) = .ok (worker (i + 1), reconciled i)) ∧
      (∀ m, (worker m).activeAfter = .null → ∃ k, Pass weight (fun i ↦ (found i).active)
        (fun i ↦ (reconciled i).active) (fun i ↦ (worker i).activeAfter) m k) ∧
      ∀ m, (worker m).deadLetterAfter = .null → ∃ k, Pass weight (fun i ↦ (found i).deadLetter)
        (fun i ↦ (reconciled i).deadLetter) (fun i ↦ (worker i).deadLetterAfter) m k := by
  have hinit : Scanning weight limit found 0 .init := ⟨.start, .start⟩
  obtain ⟨worker, reconciled, hzero, hcalls⟩ :=
    exists_sequence hinit fun n worker h ↦ h.call hlimit (hfound n)
  refine ⟨worker, reconciled, hzero, fun i ↦ (hcalls i).2.returned, fun m hm ↦ ?_, fun m hm ↦ ?_⟩
  · exact exists_pass hlimit (fun i ↦ Found.Stored.distinct hweight (hfound i).activeIds) hactive
      (fun i ↦ (hcalls i).2.active) (fun i ↦ (hcalls i).1.active) hm
  · exact exists_pass hlimit (fun i ↦ Found.Stored.distinct hweight (hfound i).deadLetterIds) hdeadLetter
      (fun i ↦ (hcalls i).2.deadLetter) (fun i ↦ (hcalls i).1.deadLetter) hm

section Witness

/-- Noon of a day. -/
def noon : UtcTime := ⟨2024, 2, 29, 12, 0, 0, 0, by decide⟩

/-- Two runs of the same time. -/
def sameTime : Found := ⟨[⟨"b", noon⟩, ⟨"a", noon⟩], []⟩

theorem sameTime_stored : sameTime.Stored where
  active := by simp [sameTime, AgentRun.Stored, String.length]
  deadLetter := by simp [sameTime]
  activeIds := by decide
  deadLetterIds := by simp [sameTime]

/-- Two runs of the same time are visited, with pages of one run. -/
theorem pass_visits_all_sameTime :
    ∃ (worker : ℕ → LifecycleReconciler) (reconciled : ℕ → Reconciled), worker 0 = .init ∧
      (∀ i, (worker i).call (id : String → String) 1 sameTime = .ok (worker (i + 1), reconciled i)) ∧
      (∀ m, (worker m).activeAfter = .null → ∃ k, Pass (id : String → String) (fun _ ↦ sameTime.active)
        (fun i ↦ (reconciled i).active) (fun i ↦ (worker i).activeAfter) m k) ∧
      ∀ m, (worker m).deadLetterAfter = .null → ∃ k, Pass (id : String → String) (fun _ ↦ sameTime.deadLetter)
        (fun i ↦ (reconciled i).deadLetter) (fun i ↦ (worker i).deadLetterAfter) m k :=
  pass_visits_all Function.injective_id le_rfl (fun _ ↦ sameTime_stored)
    ((List.finite_toSet sameTime.active).subset fun _ ⟨_, hr⟩ ↦ hr)
    ((List.finite_toSet sameTime.deadLetter).subset fun _ ⟨_, hr⟩ ↦ hr)

end Witness

end Centaeris.Lifecycle
