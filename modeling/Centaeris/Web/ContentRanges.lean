import Centaeris.Relational.Dict
import Centaeris.Relational.Pool

/-!
# The cache of content ranges

A client keeps the ranges of long outputs that it has loaded. A page is found by its key, and the keys are
listed by what they are a part of, the reference: of each reference the cache keeps the newest four pages,
and of all pages as many of the newest as fit into the budget.

There are two maps and a number to keep in step. `remember` goes on with the array of keys that it has put
into the map, while `remove` replaces the arrays of the map, so the two may fall apart; `trimReference` says
whether they have. In fact they do not, as a key is shifted out of the array before it is removed
(`Consistent.trimReference`).

Loads are asynchronous. One that was started before the cache was cleared must not leave its page in it, and
the epoch sees to that. The whole is `rangeCache_accounting`.
-/

namespace Centaeris.Web.ContentRanges

/-- `TRANSCRIPT_CONTENT_CACHE_MAX_BYTES` -/
def cacheMaxBytes : ℤ := 16 * 1024 * 1024

/-- `TRANSCRIPT_CONTENT_PAGES_PER_REF` -/
def pagesPerRef : ℕ := 4

structure Identity where
  sessionId : String
  projectionGeneration : String
  refId : String
  revision : String
  deriving DecidableEq

def referenceKey (identity : Identity) : String :=
  "\x00".intercalate [identity.sessionId, identity.projectionGeneration, identity.refId, identity.revision]

/-- The key of a page. -/
def pageKey (identity : Identity) (offset : String) : String := referenceKey identity ++ "\x00" ++ offset

/-- A `TranscriptContentRange`, as far as the cache reads it. -/
structure Page where
  content : String
  deriving DecidableEq

/-- `encoder.encode(page.content).byteLength` -/
def Page.bytes (page : Page) : ℤ := page.content.utf8ByteSize

/-- What the module keeps. -/
structure Cache where
  pages : Dict String Page := Table.empty
  keysByReference : Dict String (List String) := Table.empty
  cachedBytes : ℤ := 0
  cacheEpoch : ℕ := 0

/-- A key is taken out of all arrays, and empty ones are taken out of the map. -/
def unlist (keysByReference : Dict String (List String)) (key : String) : Dict String (List String) :=
  Table.delete (Table.update keysByReference (fun _ ↦ true) (fun e ↦ (e.1, e.2.filter (· ≠ key))) fun _ ↦ rfl)
    fun e ↦ e.2.isEmpty

def remove (s : Cache) (key : String) : Cache :=
  match s.pages.get? key with
  | none => s
  | some page =>
    { s with
      cachedBytes := s.cachedBytes - page.bytes
      pages := s.pages.erase key
      keysByReference := unlist s.keysByReference key }

/-- `while (keys.length > TRANSCRIPT_CONTENT_PAGES_PER_REF) remove(keys.shift())`, where `shared` says that
`keys` is the array in the map. -/
def trimReference (reference : String) : Bool → List String → Cache → Cache
  | _, [], s => s
  | shared, key :: keys, s =>
    if pagesPerRef < (key :: keys).length then
      let shifted := if shared then { s with keysByReference := s.keysByReference.set reference keys } else s
      let removed := remove shifted key
      -- `remove` puts another array there if it has found the key in this one, and none if nothing is left.
      trimReference reference (shared && removed.keysByReference.get? reference == some keys) keys removed
    else s

/-- `while (cachedBytes > TRANSCRIPT_CONTENT_CACHE_MAX_BYTES && pages.size > 0) remove(first key)`, in at most
as many rounds as there are pages. -/
def trimBytes : ℕ → Cache → Cache
  | 0, s => s
  | rounds + 1, s =>
    if cacheMaxBytes < s.cachedBytes then
      match s.pages.rows with
      | [] => s
      | entry :: _ => trimBytes rounds (remove s entry.1)
    else s

/-- The keys of a reference and a new one. -/
def pushed (s : Cache) (reference key : String) : List String :=
  (s.keysByReference.get? reference).getD [] ++ [key]

/-- A page is put into the cache, its bytes are counted, and its key is listed. -/
def add (s : Cache) (reference key : String) (page : Page) : Cache :=
  { s with
    pages := s.pages.set key page
    cachedBytes := s.cachedBytes + page.bytes
    keysByReference := s.keysByReference.set reference (pushed s reference key) }

def remember (s : Cache) (identity : Identity) (key : String) (page : Page) : Cache :=
  if s.pages.has key then s
  else
    let reference := referenceKey identity
    let trimmed := trimReference reference true (pushed s reference key) (add s reference key page)
    trimBytes trimmed.pages.rows.length trimmed

/-- `clearTranscriptContentRangeCache` -/
def clear (s : Cache) : Cache := { cacheEpoch := s.cacheEpoch + 1 }

/-- Where a call of `loadTranscriptContentRange` is. -/
inductive Phase
  /-- Not called, or returned, or thrown. -/
  | done (result : Option (Except String Page))
  /-- It waits for the page. -/
  | loading (identity : Identity) (offset : String) (epoch : ℕ)

inductive Event
  | load (identity : Identity) (offset : String)
  | loaded (page : Page)
  /-- The transport throws, or the signal is aborted. -/
  | failed (error : String)
  | clear
  deriving DecidableEq

/-- What runs without an interruption: a call up to the page or up to its end, or the clearing of the cache. -/
def act {ι : Type} (_ : ι) (phase : Phase) (s : Cache) (e : Event) : Option (Phase × Cache) :=
  match phase, e with
  | .done _, .load identity offset =>
    match s.pages.get? (pageKey identity offset) with
    | some page => some (.done (some (.ok page)), s)
    | none => some (.loading identity offset s.cacheEpoch, s)
  | .done result, .clear => some (.done result, clear s)
  | .loading identity offset epoch, .loaded page =>
    if epoch ≠ s.cacheEpoch then some (.done (some (.error "transcript content view was cleared")), s)
    else some (.done (some (.ok page)), remember s identity (pageKey identity offset) page)
  | .loading .., .failed error => some (.done (some (.error error)), s)
  | _, _ => none

/-! ### The two maps -/

/-- The key is in the array of the reference. -/
def Cache.Listed (s : Cache) (key reference : String) : Prop :=
  ∃ keys, s.keysByReference.get? reference = some keys ∧ key ∈ keys

/-- The maps and the number are in step. -/
structure Consistent (s : Cache) : Prop where
  bytes : s.cachedBytes = s.pages.total Page.bytes
  arrays : ∀ reference keys, s.keysByReference.get? reference = some keys → keys ≠ [] ∧ keys.Nodup
  cached : ∀ key, s.pages.has key ↔ ∃ reference, s.Listed key reference
  own : ∀ key reference, s.Listed key reference →
    ∃ identity offset, reference = referenceKey identity ∧ key = pageKey identity offset
  unique : ∀ key reference reference', s.Listed key reference → s.Listed key reference' → reference' = reference

/-- No reference but maybe one has too many pages. -/
def FewBut (s : Cache) (except : Option String) : Prop :=
  ∀ reference keys, s.keysByReference.get? reference = some keys → some reference ≠ except →
    keys.length ≤ pagesPerRef

variable {s : Cache} {key reference : String} {page : Page}

theorem get?_unlist (d : Dict String (List String)) (key reference : String) :
    (unlist d key).get? reference =
      ((d.get? reference).map fun keys ↦ keys.filter (· ≠ key)).filter fun keys ↦ !keys.isEmpty := by
  rw [Dict.get?, unlist, Table.get?_delete, Table.get?_update, Dict.get?]
  cases Table.get? d reference with
  | none => rfl
  | some entry =>
    simp only [Option.map_some, if_true]
    cases (entry.2.filter (· ≠ key)).isEmpty <;> simp [Option.filter]

theorem has_erase {d : Dict String Page} {k : String} : (d.erase key).has k ↔ d.has k ∧ k ≠ key := by
  rw [Dict.has, Dict.get?_erase]
  by_cases hk : key = k
  · simp [hk]
  · simp [hk, Ne.symm hk, Dict.has]

/-- A page is gone, and its key from all arrays. -/
structure Without (s : Cache) (key : String) (page : Page) (t : Cache) : Prop where
  found : s.pages.get? key = some page
  pages : t.pages = s.pages.erase key
  bytes : t.cachedBytes = s.cachedBytes - page.bytes
  arrays : ∀ reference, t.keysByReference.get? reference = (unlist s.keysByReference key).get? reference
  epoch : t.cacheEpoch = s.cacheEpoch

variable {t : Cache}

theorem without_remove (h : s.pages.get? key = some page) : Without s key page (remove s key) := by
  rw [remove, h]
  exact ⟨h, rfl, rfl, fun _ ↦ rfl, rfl⟩

/-- It makes no difference that the key is shifted out of its array before. -/
theorem without_shift_remove {keys : List String} (h : s.pages.get? key = some page)
    (hkeys : s.keysByReference.get? reference = some (key :: keys)) :
    Without s key page (remove { s with keysByReference := s.keysByReference.set reference keys } key) := by
  rw [remove, h]
  refine ⟨h, rfl, rfl, fun reference' ↦ ?_, rfl⟩
  simp only [get?_unlist, Dict.get?_set]
  by_cases hr : reference = reference'
  · rw [if_pos hr, ← hr, hkeys]
    simp
  · rw [if_neg hr]

theorem Without.keys (h : Without s key page t) {keys : List String}
    (ht : t.keysByReference.get? reference = some keys) :
    ∃ old, s.keysByReference.get? reference = some old ∧ keys = old.filter (· ≠ key) ∧ keys ≠ [] := by
  rw [h.arrays, get?_unlist, Option.filter_eq_some_iff, Option.map_eq_some_iff] at ht
  obtain ⟨⟨old, hold, rfl⟩, hne⟩ := ht
  exact ⟨old, hold, rfl, by simpa using hne⟩

theorem Without.listed (h : Without s key page t) {k : String} :
    t.Listed k reference ↔ s.Listed k reference ∧ k ≠ key := by
  constructor
  · rintro ⟨keys, hkeys, hmem⟩
    obtain ⟨old, hold, rfl, -⟩ := h.keys hkeys
    rw [List.mem_filter] at hmem
    exact ⟨⟨old, hold, hmem.1⟩, by simpa using hmem.2⟩
  · rintro ⟨⟨old, hold, hmem⟩, hne⟩
    have hmem' : k ∈ old.filter (· ≠ key) := List.mem_filter.2 ⟨hmem, by simpa using hne⟩
    refine ⟨old.filter (· ≠ key), ?_, hmem'⟩
    rw [h.arrays, get?_unlist, hold, Option.map_some, Option.filter_some, if_pos]
    simpa using List.ne_nil_of_mem hmem'

/-- **A page less.** -/
theorem Without.consistent (h : Without s key page t) (hs : Consistent s) : Consistent t where
  bytes := by rw [h.bytes, h.pages, Dict.total_erase, h.found, hs.bytes, Option.elim_some]
  arrays reference keys hkeys := by
    obtain ⟨old, hold, rfl, hne⟩ := h.keys hkeys
    exact ⟨hne, (hs.arrays _ _ hold).2.filter _⟩
  cached k := by
    simp only [h.pages, has_erase, hs.cached, h.listed, exists_and_right]
  own k reference hk := hs.own k reference (h.listed.1 hk).1
  unique k reference reference' hk hk' := hs.unique k reference reference' (h.listed.1 hk).1 (h.listed.1 hk').1

theorem Without.fewBut (h : Without s key page t) {except : Option String} (hs : FewBut s except) :
    FewBut t except := by
  intro reference keys hkeys hne
  obtain ⟨old, hold, rfl, -⟩ := h.keys hkeys
  exact (List.length_filter_le _ _).trans (hs reference old hold hne)

/-- The page of a listed key. -/
theorem Consistent.page_of_listed (hs : Consistent s) (h : s.Listed key reference) :
    ∃ page, s.pages.get? key = some page :=
  Option.isSome_iff_exists.1 ((hs.cached key).2 ⟨reference, h⟩)

/-- **One reference is trimmed.** The array of `remember` stays the array of the map. -/
theorem Consistent.trimReference {keys : List String} (hs : Consistent s) (hfew : FewBut s (some reference))
    (hkeys : s.keysByReference.get? reference = some keys) :
    Consistent (trimReference reference true keys s) ∧ FewBut (trimReference reference true keys s) none ∧
      (trimReference reference true keys s).cacheEpoch = s.cacheEpoch := by
  induction keys generalizing s with
  | nil => exact absurd rfl (hs.arrays _ _ hkeys).1
  | cons key keys ih =>
    rw [ContentRanges.trimReference]
    split
    · rename_i hlength
      obtain ⟨page, hpage⟩ := hs.page_of_listed ⟨_, hkeys, List.mem_cons_self⟩
      have h := without_shift_remove hpage hkeys
      have hshared : (remove { s with keysByReference := s.keysByReference.set reference keys }
          key).keysByReference.get? reference = some keys := by
        obtain ⟨hkey, -⟩ := List.nodup_cons.1 (hs.arrays _ _ hkeys).2
        have hfilter : ∀ k ∈ keys, ¬k = key := fun k hk heq ↦ hkey (heq ▸ hk)
        have hne : keys ≠ [] := by
          rintro rfl
          simp [pagesPerRef] at hlength
        rw [h.arrays, get?_unlist, hkeys]
        simpa [hne] using hfilter
      simp only [if_true, hshared, Bool.true_and, beq_self_eq_true]
      obtain ⟨hc, hf, he⟩ := ih (h.consistent hs) (h.fewBut hfew) hshared
      exact ⟨hc, hf, he.trans h.epoch⟩
    · rename_i hlength
      refine ⟨hs, fun reference' keys' hkeys' _ ↦ ?_, rfl⟩
      by_cases hr : reference' = reference
      · subst hr
        obtain rfl := Option.some.inj (hkeys'.symm.trans hkeys)
        exact Nat.le_of_not_lt hlength
      · exact hfew reference' keys' hkeys' (by simpa using hr)

/-- **All pages are trimmed**, down to the budget. -/
theorem Consistent.trimBytes {rounds : ℕ} (hs : Consistent s) (hfew : FewBut s none)
    (hrounds : s.pages.rows.length ≤ rounds) :
    Consistent (trimBytes rounds s) ∧ FewBut (trimBytes rounds s) none ∧
      (trimBytes rounds s).cachedBytes ≤ cacheMaxBytes ∧ (trimBytes rounds s).cacheEpoch = s.cacheEpoch := by
  induction rounds generalizing s with
  | zero =>
    have hrows : s.pages.rows = [] := List.length_eq_zero_iff.1 (Nat.le_zero.1 hrounds)
    exact ⟨hs, hfew, by simp [ContentRanges.trimBytes, hs.bytes, Dict.total, hrows, cacheMaxBytes], rfl⟩
  | succ rounds ih =>
    rw [ContentRanges.trimBytes]
    split
    · split
      · rename_i hrows
        exact ⟨hs, hfew, by simp [hs.bytes, Dict.total, hrows, cacheMaxBytes], rfl⟩
      · rename_i entry rest hrows
        have h : Without s entry.1 entry.2 (remove s entry.1) :=
          without_remove (Dict.mem_rows.1 (hrows ▸ List.mem_cons_self))
        have hless : (remove s entry.1).pages.rows.length ≤ rounds := by
          rw [hrows, List.length_cons] at hrounds
          simpa [h.pages, Dict.erase, Table.delete, hrows] using
            (List.length_filter_le _ rest).trans (Nat.le_of_succ_le_succ hrounds)
        obtain ⟨hc, hf, hb, he⟩ := ih (h.consistent hs) (h.fewBut hfew) hless
        exact ⟨hc, hf, hb, he.trans h.epoch⟩
    · rename_i hle
      exact ⟨hs, hfew, not_lt.1 hle, rfl⟩

/-- The cache between two calls. -/
structure Good (s : Cache) : Prop where
  consistent : Consistent s
  few : FewBut s none
  bound : s.cachedBytes ≤ cacheMaxBytes

theorem get?_add {reference' : String} : (add s reference key page).keysByReference.get? reference' =
    if reference = reference' then some (pushed s reference key) else s.keysByReference.get? reference' :=
  Dict.get?_set _ _ _ _

theorem mem_pushed {k : String} : k ∈ pushed s reference key ↔ s.Listed k reference ∨ k = key := by
  rw [pushed, List.mem_append, List.mem_singleton, Cache.Listed]
  cases s.keysByReference.get? reference <;> simp

theorem listed_add {k reference' : String} : (add s reference key page).Listed k reference' ↔
    s.Listed k reference' ∨ (k = key ∧ reference' = reference) := by
  by_cases hr : reference = reference'
  · subst hr
    simp [Cache.Listed, get?_add, mem_pushed]
  · simp [Cache.Listed, get?_add, hr, Ne.symm hr]

/-- **A page more.** -/
theorem Consistent.add {identity : Identity} {offset : String} (hs : Consistent s)
    (hnew : s.pages.has (pageKey identity offset) = false) (page : Page) :
    Consistent (add s (referenceKey identity) (pageKey identity offset) page) := by
  have hunlisted : ∀ reference, ¬s.Listed (pageKey identity offset) reference := fun reference hlisted ↦ by
    rw [(hs.cached _).2 ⟨reference, hlisted⟩] at hnew
    cases hnew
  refine ⟨?_, fun reference keys hkeys ↦ ?_, fun k ↦ ?_, fun k reference hk ↦ ?_, fun k r r' hk hk' ↦ ?_⟩
  · have hnone : s.pages.get? (pageKey identity offset) = none := by simpa [Dict.has] using hnew
    simp [ContentRanges.add, Dict.total_set, hnone, hs.bytes]
  · rw [get?_add] at hkeys
    split at hkeys
    · cases hkeys
      refine ⟨by simp [pushed], List.nodup_append.2 ⟨?_, List.nodup_singleton _, ?_⟩⟩
      · cases hold : s.keysByReference.get? (referenceKey identity) with
        | none => exact List.nodup_nil
        | some old => exact (hs.arrays _ _ hold).2
      · rintro k hk k' hk' rfl
        obtain rfl := List.mem_singleton.1 hk'
        cases hold : s.keysByReference.get? (referenceKey identity) with
        | none => simp [hold] at hk
        | some old => exact hunlisted _ ⟨old, hold, by simpa [hold] using hk⟩
    · exact hs.arrays reference keys hkeys
  · have hhas : (ContentRanges.add s (referenceKey identity) (pageKey identity offset) page).pages.has k ↔
        s.pages.has k ∨ k = pageKey identity offset := by
      rw [Dict.has, ContentRanges.add, Dict.get?_set, Dict.has]
      by_cases hk : pageKey identity offset = k
      · simp [hk]
      · simp [hk, Ne.symm hk]
    rw [hhas, hs.cached k]
    simp only [listed_add, exists_or, exists_and_left, exists_eq, and_true]
  · rcases listed_add.1 hk with hk | ⟨rfl, rfl⟩
    · exact hs.own k reference hk
    · exact ⟨identity, offset, rfl, rfl⟩
  · rcases listed_add.1 hk with hk | ⟨rfl, rfl⟩ <;> rcases listed_add.1 hk' with hk' | ⟨heq, rfl⟩
    · exact hs.unique k r r' hk hk'
    · exact absurd (heq ▸ hk) (hunlisted r)
    · exact absurd hk' (hunlisted r')
    · rfl

theorem Good.remember {identity : Identity} {offset : String} (hs : Good s) (page : Page) :
    Good (remember s identity (pageKey identity offset) page) ∧
      (remember s identity (pageKey identity offset) page).cacheEpoch = s.cacheEpoch := by
  rw [ContentRanges.remember]
  split
  · exact ⟨hs, rfl⟩
  · rename_i hnew
    have hadd := hs.consistent.add (by simpa using hnew) page
    have hfew : FewBut (ContentRanges.add s (referenceKey identity) (pageKey identity offset) page)
        (some (referenceKey identity)) := by
      intro reference keys hkeys hne
      rw [get?_add, if_neg (by simpa [eq_comm] using hne)] at hkeys
      exact hs.few reference keys hkeys (by simp)
    obtain ⟨hc, hf, he⟩ := hadd.trimReference hfew (get?_add.trans (if_pos rfl))
    obtain ⟨hc, hf, hb, he'⟩ := hc.trimBytes hf le_rfl
    exact ⟨⟨hc, hf, hb⟩, he'.trans he⟩

theorem good_empty (epoch : ℕ) : Good { cacheEpoch := epoch } where
  consistent := ⟨rfl, by simp, by simp [Cache.Listed, Dict.has], by simp [Cache.Listed], by simp [Cache.Listed]⟩
  few := by simp [FewBut]
  bound := by simp [cacheMaxBytes]

/-! ### Any number of calls -/

section Calls

variable {ι : Type} {i : ι}

/-- **One step.** The cache is good, and its epoch is the same unless it was cleared. -/
theorem Good.act {phase phase' : Phase} {e : Event} (hs : Good s) (h : act i phase s e = some (phase', t)) :
    Good t ∧ t.cacheEpoch = s.cacheEpoch + (decide (e = .clear)).toNat := by
  cases phase <;> cases e <;> simp only [ContentRanges.act, reduceCtorEq] at h
  case done.load =>
    split at h <;> cases h <;> exact ⟨hs, rfl⟩
  case done.clear =>
    cases h
    exact ⟨good_empty _, rfl⟩
  case loading.loaded =>
    split at h <;> cases h
    · exact ⟨hs, rfl⟩
    · exact hs.remember _
  case loading.failed =>
    cases h
    exact ⟨hs, rfl⟩

/-- A load belongs to the epoch in which it was started. -/
theorem epoch_of_act {phase phase' : Phase} {e : Event} (h : act i phase s e = some (phase', t)) :
    ∀ identity offset epoch, phase' = .loading identity offset epoch → epoch = t.cacheEpoch := by
  rintro identity offset epoch rfl
  cases phase <;> cases e <;> simp only [act, reduceCtorEq] at h
  case done.load =>
    split at h <;> cases h
    rfl
  all_goals grind

variable [DecidableEq ι] {p q r : Pool ι Phase Cache} {l l' : List (ι × Event)}

/-- No call, and an empty cache. -/
def start : Pool ι Phase Cache := ⟨{}, fun _ ↦ .done none⟩

/-- **A whole run.** The epoch counts the clearings. -/
theorem good_of_run (hp : Good p.shared) (h : Run (Pool.Step act) p l q) :
    Good q.shared ∧ q.shared.cacheEpoch = p.shared.cacheEpoch + l.countP fun a ↦ decide (a.2 = .clear) := by
  refine h.invariant_history (I := fun l q ↦ Good q.shared ∧
    q.shared.cacheEpoch = p.shared.cacheEpoch + l.countP fun a ↦ decide (a.2 = .clear)) ⟨hp, rfl⟩ ?_
  rintro l q a r - ⟨hq, hepoch⟩ hstep
  obtain ⟨hr, hepoch'⟩ := hq.act hstep.act
  refine ⟨hr, ?_⟩
  rw [hepoch', hepoch, List.countP_append, List.countP_singleton, Nat.add_assoc]
  cases decide (a.2 = .clear) <;> rfl

/-- A call waits while others do something. -/
theorem thread_of_run (h : Run (Pool.Step act) p l q) (hl : ∀ a ∈ l, a.1 ≠ i) : q.thread i = p.thread i := by
  induction h with
  | nil => rfl
  | snoc _ hstep ih =>
    rw [hstep.other (hl _ (by simp)).symm, ih fun a ha ↦ hl a (by simp [ha])]

/-- A load belongs to the epoch, or to an earlier one. -/
theorem epoch_le_of_run (h : Run (Pool.Step act) start l p) {identity : Identity} {offset : String} {epoch : ℕ}
    (hi : p.thread i = .loading identity offset epoch) : epoch ≤ p.shared.cacheEpoch := by
  induction h with
  | nil => cases hi
  | @snoc l p q a hrun hstep ih =>
    obtain ⟨hp, -⟩ := good_of_run (good_empty 0) hrun
    by_cases ha : i = a.1
    · exact (epoch_of_act hstep.act _ _ _ (ha ▸ hi)).le
    · rw [hstep.other ha] at hi
      rw [(hp.act hstep.act).2]
      exact (ih hi).trans (Nat.le_add_right _ _)

/-- **The cache of content ranges.** After any calls, in any order: the number counts the bytes of the cached
pages and is within the budget; a page is cached if its key is listed, which it is under one reference, its
own; a reference has at most four pages, each of them listed once; and a load that was under way when the
cache was cleared does not change it any more. -/
theorem rangeCache_accounting (hrun : Run (Pool.Step act) start l p) :
    (p.shared.cachedBytes = p.shared.pages.total Page.bytes ∧ p.shared.cachedBytes ≤ cacheMaxBytes) ∧
      (∀ key, p.shared.pages.has key → ∃! reference, p.shared.Listed key reference) ∧
      (∀ key reference, p.shared.Listed key reference → p.shared.pages.has key ∧
        ∃ identity offset, reference = referenceKey identity ∧ key = pageKey identity offset) ∧
      (∀ reference keys, p.shared.keysByReference.get? reference = some keys →
        keys.Nodup ∧ keys.length ≤ pagesPerRef) ∧
      ∀ {i identity offset epoch page q r l'}, p.thread i = .loading identity offset epoch →
        Run (Pool.Step act) p l' q → (∀ a ∈ l', a.1 ≠ i) → (∃ a ∈ l', a.2 = .clear) →
        Pool.Step act q (i, .loaded page) r → r.shared = q.shared := by
  obtain ⟨hp, -⟩ := good_of_run (good_empty 0) hrun
  refine ⟨⟨hp.consistent.bytes, hp.bound⟩, fun key hkey ↦ ?_, fun key reference hlisted ↦
    ⟨(hp.consistent.cached key).2 ⟨reference, hlisted⟩, hp.consistent.own key reference hlisted⟩,
    fun reference keys hkeys ↦ ⟨(hp.consistent.arrays reference keys hkeys).2,
      hp.few reference keys hkeys (by simp)⟩, ?_⟩
  · obtain ⟨reference, hlisted⟩ := (hp.consistent.cached key).1 hkey
    exact ⟨reference, hlisted, fun reference' hlisted' ↦ hp.consistent.unique key _ _ hlisted hlisted'⟩
  · intro i identity offset epoch page q r l' hthread hafter hother hclear hstep
    have hepoch := epoch_le_of_run hrun hthread
    obtain ⟨-, hcount⟩ := good_of_run hp hafter
    have hpos : 0 < l'.countP fun a ↦ decide (a.2 = .clear) := by simpa [List.countP_pos_iff] using hclear
    have hact := hstep.act
    rw [thread_of_run hafter hother, hthread, act, if_pos (by omega)] at hact
    exact (Prod.ext_iff.1 (Option.some.inj hact)).2.symm

/-- Two loads of one page at the same time, and then another one. -/
def threeLoads : List (Bool × Event) :=
  [(false, .load ⟨"s", "1", "r", "1"⟩ "0"), (true, .load ⟨"s", "1", "r", "1"⟩ "0"), (false, .loaded ⟨"a"⟩),
    (true, .loaded ⟨"a"⟩), (false, .load ⟨"s", "1", "r", "1"⟩ "1")]

/-- One byte is cached, and a load that the clearing overtakes leaves nothing. -/
theorem rangeCache_accounting_threeLoads : ∃ p q : Pool Bool Phase Cache,
    start.exec act threeLoads = some p ∧ p.shared.cachedBytes = 1 ∧ p.exec act [(true, .clear)] = some q ∧
      ∀ r, Pool.Step act q (false, .loaded ⟨"b"⟩) r → r.shared = q.shared := by
  refine ⟨_, _, rfl, rfl, rfl, fun r hstep ↦ ?_⟩
  exact (rangeCache_accounting (l := threeLoads) (Pool.run_of_exec rfl)).2.2.2.2 rfl
    (Pool.run_of_exec (l := [(true, .clear)]) rfl) (by decide) ⟨_, List.mem_singleton_self _, rfl⟩ hstep

end Calls

end Centaeris.Web.ContentRanges
