import Centaeris.Frame.Restore

/-!
# The nodes of a workspace tree

`At entries path node` says that a node stands at a path, given by the names on the way to it. What the
walk of the agent does is said of all nodes at once: it succeeds when every node is a file or a directory
whose path passes the checks, and then it gives the paths of the files (`Walkable`, `walk_spec`,
`exists_collectSnapshotPaths`).
-/

namespace Centaeris.Frame

open Contract (Unicode components isDotComponent)

/-! ### Nodes at paths -/

/-- The node stands at the path. -/
inductive At : Entries → List (List UInt8) → Node → Prop
  | here {entries : Entries} {name : List UInt8} {node : Node} (h : (name, node) ∈ entries) :
    At entries [name] node
  | inside {entries es : Entries} {name : List UInt8} {path : List (List UInt8)} {node : Node}
    (h : (name, .dir es) ∈ entries) (hinside : At es path node) : At entries (name :: path) node

theorem At.ne_nil {entries : Entries} {path : List (List UInt8)} {node : Node} (h : At entries path node) :
    path ≠ [] := by
  cases h <;> simp

theorem At.map_ne_nil {entries : Entries} {p : List String} {node : Node}
    (h : At entries (p.map Utf8.bytes) node) : p ≠ [] :=
  fun hp ↦ h.ne_nil (by rw [hp]; rfl)

theorem At.exists_head {entries : Entries} {path : List (List UInt8)} {node : Node}
    (h : At entries path node) : ∃ e ∈ entries, path.head? = some e.1 := by
  cases h with
  | here hmem => exact ⟨_, hmem, rfl⟩
  | inside hmem _ => exact ⟨_, hmem, rfl⟩

theorem At.trans {entries es : Entries} {path rest : List (List UInt8)} {node : Node}
    (h : At entries path (.dir es)) (hrest : At es rest node) : At entries (path ++ rest) node := by
  induction path generalizing entries with
  | nil => exact absurd rfl h.ne_nil
  | cons name path ih =>
    cases h with
    | here hmem => exact .inside hmem hrest
    | inside hmem hinside => exact .inside hmem (ih hinside)

/-- A node below another path stands in a directory there. -/
theorem At.exists_dir {entries : Entries} {path rest : List (List UInt8)} {node : Node}
    (h : At entries (path ++ rest) node) (hpath : path ≠ []) (hrest : rest ≠ []) :
    ∃ es, At entries path (.dir es) ∧ At es rest node := by
  induction path generalizing entries with
  | nil => exact absurd rfl hpath
  | cons name path ih =>
    cases path with
    | nil =>
      cases h with
      | here => exact absurd rfl hrest
      | inside hmem hinside => exact ⟨_, .here hmem, hinside⟩
    | cons next path =>
      cases h with
      | inside hmem hinside =>
        obtain ⟨es, hes, hnode⟩ := ih hinside (by simp)
        exact ⟨es, .inside hmem hes, hnode⟩

/-- The names of every directory are distinct. -/
structure Distinct (entries : Entries) : Prop where
  here : (entries.map Prod.fst).Nodup
  below : ∀ path es, At entries path (.dir es) → (es.map Prod.fst).Nodup

theorem Distinct.of_dir {entries es : Entries} {name : List UInt8} (h : Distinct entries)
    (hmem : (name, .dir es) ∈ entries) : Distinct es where
  here := h.below [name] es (.here hmem)
  below := fun path es' hes' ↦ h.below (name :: path) es' (.inside hmem hes')

theorem Distinct.of_cons {e : List UInt8 × Node} {entries : Entries} (h : Distinct (e :: entries)) :
    Distinct entries where
  here := (List.nodup_cons.1 h.here).2
  below := fun path es hes ↦ by
    refine h.below path es ?_
    cases hes with
    | here hmem => exact .here (List.mem_cons_of_mem _ hmem)
    | inside hmem hinside => exact .inside (List.mem_cons_of_mem _ hmem) hinside

/-- One node stands at a path. -/
theorem At.unique {entries : Entries} {path : List (List UInt8)} {a b : Node} (hdistinct : Distinct entries)
    (ha : At entries path a) (hb : At entries path b) : a = b := by
  have hsame {entries : Entries} (hnodup : (entries.map Prod.fst).Nodup) {name : List UInt8} {a b : Node}
      (ha : (name, a) ∈ entries) (hb : (name, b) ∈ entries) : a = b :=
    (Prod.mk.inj (List.inj_on_of_nodup_map hnodup ha hb rfl)).2
  induction ha with
  | here ha =>
    cases hb with
    | here hb => exact hsame hdistinct.here ha hb
    | inside _ hinside => exact absurd rfl hinside.ne_nil
  | inside ha hinside ih =>
    cases hb with
    | here => exact absurd rfl hinside.ne_nil
    | inside hb hinside' =>
      obtain ⟨⟩ := Node.dir.inj (hsame hdistinct.here ha hb)
      exact ih (hdistinct.of_dir ha) hinside'

/-- Induction over a tree: a directory from the directories in it. -/
theorem Entries.induction {P : Entries → Prop}
    (step : ∀ entries : Entries, (∀ name es, (name, Node.dir es) ∈ entries → P es) → P entries)
    (entries : Entries) : P entries := by
  have hnode (node : Node) : ∀ es, node = .dir es → P es := by
    refine @Node.rec (fun node ↦ ∀ es, node = .dir es → P es)
      (fun entries ↦ ∀ e ∈ entries, ∀ es, e.2 = .dir es → P es)
      (fun e ↦ ∀ es, e.2 = .dir es → P es) ?_ ?_ ?_ ?_ ?_ ?_ ?_ node
    · rintro f es ⟨⟩
    · rintro entries ih es ⟨⟩
      exact step entries fun name es hmem ↦ ih (name, .dir es) hmem es rfl
    · rintro es ⟨⟩
    · rintro es ⟨⟩
    · exact fun e he ↦ absurd he List.not_mem_nil
    · rintro head tail hhead htail e he
      rcases List.mem_cons.1 he with rfl | he
      · exact hhead
      · exact htail e he
    · exact fun name node hnode ↦ hnode
  exact hnode (.dir entries) entries rfl

/-! ### Opening -/

theorem Entries.lookup_eq_some {entries : Entries} {name : String} {node : Node}
    (hnodup : (entries.map Prod.fst).Nodup) :
    Entries.lookup entries name = some node ↔ (Utf8.bytes name, node) ∈ entries := by
  rw [Entries.lookup]
  constructor
  · intro h
    obtain ⟨⟨name', node'⟩, hfind, rfl⟩ := Option.map_eq_some_iff.1 h
    have hname := List.find?_some hfind
    rw [beq_iff_eq] at hname
    exact hname ▸ List.mem_of_find?_eq_some hfind
  · intro hmem
    cases hfind : entries.find? fun e ↦ e.1 == Utf8.bytes name with
    | none => exact absurd (List.find?_eq_none.1 hfind _ hmem) (by simp)
    | some e =>
      have hname := List.find?_some hfind
      rw [beq_iff_eq] at hname
      have heq : e = (Utf8.bytes name, node) :=
        List.inj_on_of_nodup_map hnodup (List.mem_of_find?_eq_some hfind) hmem hname
      rw [heq]
      rfl

/-- What is opened along the names of a path stands there, and is no link. -/
theorem openComponents_eq_ok {entries : Entries} {path : List String} {node : Node}
    (hdistinct : Distinct entries) : openComponents entries path = .ok node ↔
      At entries (path.map Utf8.bytes) node ∧ node ≠ .symlink := by
  induction path generalizing entries with
  | nil =>
    refine iff_of_false (by simp [openComponents]) ?_
    rintro ⟨h, -⟩
    exact h.ne_nil rfl
  | cons name path ih =>
    cases path with
    | nil =>
      rw [openComponents]
      have hlookup {node : Node} := @Entries.lookup_eq_some _ name node hdistinct.here
      constructor
      · intro h
        split at h
        · cases h
        · cases h
        · rename_i node' hne hnode
          cases h
          exact ⟨.here (hlookup.1 hnode), hne⟩
      · rintro ⟨hat, hne⟩
        have hmem : (Utf8.bytes name, node) ∈ entries := by
          cases hat with
          | here hmem => exact hmem
          | inside _ hinside => exact absurd rfl hinside.ne_nil
        rw [hlookup.2 hmem]
        cases node with
        | symlink => exact absurd rfl hne
        | _ => rfl
    | cons next path =>
      rw [openComponents]
      · have hlookup {node : Node} := @Entries.lookup_eq_some _ name node hdistinct.here
        constructor
        · intro h
          split at h
          · rename_i es hes
            have hmem := hlookup.1 hes
            obtain ⟨hat, hne⟩ := (ih (hdistinct.of_dir hmem)).1 h
            exact ⟨.inside hmem hat, hne⟩
          · cases h
        · rintro ⟨hat, hne⟩
          cases hat with
          | inside hmem hinside =>
            rw [hlookup.2 hmem]
            exact (ih (hdistinct.of_dir hmem)).2 ⟨hinside, hne⟩
      · simp

/-! ### Paths -/

/-- A path as it stands in a manifest. -/
def pathText (p : List String) : String := String.ofList (['/'].intercalate (p.map String.toList))

theorem pathText_singleton (s : String) : pathText [s] = s := by
  simp [pathText, List.intercalate]

theorem pathText_concat {p : List String} (hp : p ≠ []) (s : String) :
    pathText (p ++ [s]) = pathText p ++ "/" ++ s := by
  rw [← String.toList_inj, pathText, pathText, String.toList_ofList, List.map_append,
    Lines.intercalate_append (by simpa using hp) (by simp)]
  simp [List.intercalate]

/-- The names on the way pass the checks of the walk, one after the other. -/
def Checked (u : Unicode) (p : List String) : Prop := ∀ a s b, p = a ++ s :: b →
  validateSnapshotComponent u s = .ok () ∧ validateSnapshotPath u (pathText (a ++ [s])) = .ok ()

theorem checked_nil (u : Unicode) : Checked u [] := by
  intro a s b h
  simp at h

theorem Checked.of_append {u : Unicode} {p q : List String} (h : Checked u (p ++ q)) : Checked u p :=
  fun a s b hp ↦ h a s (b ++ q) (by simp [hp])

theorem checked_concat {u : Unicode} {p : List String} {s : String} : Checked u (p ++ [s]) ↔
    Checked u p ∧ validateSnapshotComponent u s = .ok () ∧
      validateSnapshotPath u (pathText (p ++ [s])) = .ok () := by
  constructor
  · exact fun h ↦ ⟨h.of_append, h p s [] rfl⟩
  · rintro ⟨hp, hs⟩ a t b heq
    rcases List.eq_nil_or_concat b with rfl | ⟨b, last, rfl⟩
    · obtain ⟨rfl, ht⟩ := List.append_inj' heq rfl
      obtain rfl := (List.cons.inj ht).1
      exact hs
    · rw [List.concat_eq_append, ← List.cons_append, ← List.append_assoc] at heq
      exact hp a t b (List.append_inj' heq rfl).1

theorem Checked.name {u : Unicode} {p : List String} (h : Checked u p) {s : String} (hs : s ∈ p) :
    s ≠ "" ∧ '/' ∉ s.toList := by
  obtain ⟨a, b, rfl⟩ := List.append_of_mem hs
  have hcomponent := Except.require_eq_ok.1 (h a s b rfl).1
  push Not at hcomponent
  refine ⟨?_, hcomponent.2.1⟩
  rintro rfl
  exact hcomponent.1 rfl

theorem Checked.components {u : Unicode} {p : List String} (h : Checked u p) (hp : p ≠ []) :
    components (pathText p) = p := by
  have hslash : ∀ l ∈ p.map String.toList, '/' ∉ l := by
    intro l hl
    obtain ⟨s, hs, rfl⟩ := List.mem_map.1 hl
    exact (h.name hs).2
  rw [Contract.components, pathText, String.toList_ofList,
    List.splitOn_intercalate '/' hslash (by simpa using hp), List.map_map]
  exact List.map_id'' (fun s ↦ String.ofList_toList) p

/-- The path of an entry, as the walk makes it. -/
theorem Checked.relative {u : Unicode} {p : List String} (h : Checked u p) (s : String) :
    (if pathText p = "" then s else pathText p ++ "/" ++ s) = pathText (p ++ [s]) := by
  cases p with
  | nil => exact (if_pos rfl).trans (pathText_singleton s).symm
  | cons t p =>
    rw [if_neg, pathText_concat (by simp)]
    intro hempty
    have hcomponents := h.components (by simp)
    rw [hempty, Contract.components_empty] at hcomponents
    exact (h.name List.mem_cons_self).1 (List.cons.inj hcomponents).1.symm

section Walk

variable {u : Unicode} {base : List String} {entries : Entries} {paths : List String}

/-- What the walk does with an entry. -/
def Walks (u : Unicode) (base : List String) (e : List UInt8 × Node) (part : List String) : Prop :=
  ∃ s, e.1 = Utf8.bytes s ∧ Checked u (base ++ [s]) ∧
    collectNode u [] (pathText (base ++ [s])) e.2 = .ok part

theorem collectSnapshotPaths_eq_ok (hbase : Checked u base) :
    collectSnapshotPaths u [] (pathText base) entries = .ok paths ↔
      ∃ parts, List.Forall₂ (Walks u base) entries parts ∧ paths = parts.flatten := by
  induction entries generalizing paths with
  | nil =>
    simp only [collectSnapshotPaths, Except.ok.injEq, List.forall₂_nil_left_iff, exists_eq_left,
      List.flatten_nil]
    exact eq_comm
  | cons e entries ih =>
    obtain ⟨name, node⟩ := e
    simp only [collectSnapshotPaths, Except.bind_eq_ok, Except.okOr_eq_ok, hbase.relative, ih,
      Except.pure_eq_ok, Except.ok.injEq, List.forall₂_cons_left_iff]
    constructor
    · rintro ⟨s, hs, ⟨⟩, hcomponent, ⟨⟩, hpath, part, hpart, _, ⟨parts, hparts, rfl⟩, rfl⟩
      exact ⟨part :: parts, ⟨part, parts, ⟨s, (Utf8.bytes_of_decode hs).symm,
        checked_concat.2 ⟨hbase, hcomponent, hpath⟩, hpart⟩, hparts, rfl⟩, rfl⟩
    · rintro ⟨_, ⟨part, parts, ⟨s, hs, hchecked, hpart⟩, hparts, rfl⟩, rfl⟩
      obtain rfl : name = Utf8.bytes s := hs
      obtain ⟨-, hcomponent, hpath⟩ := checked_concat.1 hchecked
      exact ⟨s, Utf8.decode_bytes s, (), hcomponent, (), hpath, part, hpart, _, ⟨parts, hparts, rfl⟩, rfl⟩

/-- A node that the walk supports. -/
inductive Plain : Node → Prop
  | file (f : RegularFile) : Plain (.file f)
  | dir (es : Entries) : Plain (.dir es)

/-- All nodes are supported, and their paths pass the checks. -/
def Walkable (u : Unicode) (base : List String) (entries : Entries) : Prop :=
  ∀ path node, At entries path node →
    ∃ p, path = p.map Utf8.bytes ∧ Checked u (base ++ p) ∧ Plain node

/-- The paths of the files. -/
def FilePath (entries : Entries) (base : List String) (path : String) : Prop :=
  ∃ p f, At entries (p.map Utf8.bytes) (.file f) ∧ path = pathText (base ++ p)

theorem Walkable.checked {p : List String} {node : Node} (h : Walkable u base entries)
    (hp : At entries (p.map Utf8.bytes) node) : Checked u (base ++ p) := by
  obtain ⟨q, hq, hchecked, -⟩ := h _ _ hp
  rwa [List.map_injective_iff.2 Utf8.bytes_injective hq]

theorem collectNode_file (relative : String) (f : RegularFile) :
    collectNode u [] relative (.file f) = .ok [relative] := by
  rw [collectNode, if_neg List.not_mem_nil]
  rfl

theorem collectNode_dir (relative : String) (es : Entries) :
    collectNode u [] relative (.dir es) = collectSnapshotPaths u [] relative es := by
  rw [collectNode]

/-- The nodes of a tree are those of its entries. -/
theorem at_iff_exists {path : List (List UInt8)} {node : Node} :
    At entries path node ↔ ∃ e ∈ entries, At [e] path node := by
  constructor
  · intro h
    cases h with
    | here hmem => exact ⟨_, hmem, .here List.mem_cons_self⟩
    | inside hmem hinside => exact ⟨_, hmem, .inside List.mem_cons_self hinside⟩
  · rintro ⟨e, he, h⟩
    cases h with
    | here hmem => exact .here (List.mem_singleton.1 hmem ▸ he)
    | inside hmem hinside => exact .inside (List.mem_singleton.1 hmem ▸ he) hinside

theorem at_file_iff {name : List UInt8} {f : RegularFile} {path : List (List UInt8)} {node : Node} :
    At [(name, .file f)] path node ↔ path = [name] ∧ node = .file f := by
  constructor
  · intro h
    cases h with
    | here hmem =>
      obtain ⟨rfl, rfl⟩ := Prod.mk.inj (List.mem_singleton.1 hmem)
      exact ⟨rfl, rfl⟩
    | inside hmem => exact absurd (Prod.mk.inj (List.mem_singleton.1 hmem)).2 (by simp)
  · rintro ⟨rfl, rfl⟩
    exact .here List.mem_cons_self

theorem at_dir_iff {name : List UInt8} {es : Entries} {path : List (List UInt8)} {node : Node} :
    At [(name, .dir es)] path node ↔
      (path = [name] ∧ node = .dir es) ∨ ∃ rest, path = name :: rest ∧ At es rest node := by
  constructor
  · intro h
    cases h with
    | here hmem =>
      obtain ⟨rfl, rfl⟩ := Prod.mk.inj (List.mem_singleton.1 hmem)
      exact .inl ⟨rfl, rfl⟩
    | inside hmem hinside =>
      obtain ⟨rfl, hes⟩ := Prod.mk.inj (List.mem_singleton.1 hmem)
      obtain rfl := Node.dir.inj hes
      exact .inr ⟨_, rfl, hinside⟩
  · rintro (⟨rfl, rfl⟩ | ⟨rest, rfl, h⟩)
    · exact .here List.mem_cons_self
    · exact .inside List.mem_cons_self h

theorem filePath_iff_exists {path : String} :
    FilePath entries base path ↔ ∃ e ∈ entries, FilePath [e] base path := by
  constructor
  · rintro ⟨p, f, h, rfl⟩
    obtain ⟨e, he, h⟩ := at_iff_exists.1 h
    exact ⟨e, he, p, f, h, rfl⟩
  · rintro ⟨e, he, p, f, h, rfl⟩
    exact ⟨p, f, at_iff_exists.2 ⟨e, he, h⟩, rfl⟩

/-- What the walk sees at one entry, from what it sees in the directories. -/
theorem Walks.spec {e : List UInt8 × Node} {part : List String} (h : Walks u base e part)
    (ih : ∀ es, e.2 = .dir es → ∀ {base paths}, Checked u base →
      collectSnapshotPaths u [] (pathText base) es = .ok paths →
      Walkable u base es ∧ ∀ path, path ∈ paths ↔ FilePath es base path) :
    Walkable u base [e] ∧ ∀ path, path ∈ part ↔ FilePath [e] base path := by
  obtain ⟨name, node⟩ := e
  obtain ⟨s, rfl, hchecked, hpart⟩ := h
  cases node with
  | symlink =>
    rw [collectNode] at hpart
    cases hpart
  | other =>
    rw [collectNode] at hpart
    cases hpart
  | file f =>
    rw [collectNode_file] at hpart
    cases hpart
    constructor
    · intro path node hnode
      obtain ⟨rfl, rfl⟩ := at_file_iff.1 hnode
      exact ⟨[s], rfl, hchecked, .file f⟩
    · intro path
      rw [List.mem_singleton]
      constructor
      · rintro rfl
        exact ⟨[s], f, .here List.mem_cons_self, rfl⟩
      · rintro ⟨p, g, hg, rfl⟩
        have hp : p = [s] := List.map_injective_iff.2 Utf8.bytes_injective (at_file_iff.1 hg).1
        rw [hp]
  | dir es =>
    rw [collectNode_dir] at hpart
    obtain ⟨hwalk, hmem⟩ := ih es rfl hchecked hpart
    constructor
    · intro path node hnode
      rcases at_dir_iff.1 hnode with ⟨rfl, rfl⟩ | ⟨rest, rfl, hrest⟩
      · exact ⟨[s], rfl, hchecked, .dir es⟩
      · obtain ⟨p, rfl, hp, hplain⟩ := hwalk rest node hrest
        exact ⟨s :: p, rfl, by simpa using hp, hplain⟩
    · intro path
      rw [hmem]
      constructor
      · rintro ⟨p, f, hf, rfl⟩
        exact ⟨s :: p, f, .inside List.mem_cons_self hf, by simp⟩
      · rintro ⟨p, f, hf, rfl⟩
        rcases at_dir_iff.1 hf with ⟨-, hdir⟩ | ⟨rest, hrest, hinside⟩
        · cases hdir
        · cases p with
          | nil => cases hrest
          | cons t p =>
            obtain ⟨ht, rfl⟩ := List.cons.inj hrest
            obtain rfl := Utf8.bytes_injective ht
            exact ⟨p, f, hinside, by simp⟩

/-- **What a walk has seen**: only nodes that it supports, and it gives the paths of the files. -/
theorem walk_spec (hbase : Checked u base)
    (h : collectSnapshotPaths u [] (pathText base) entries = .ok paths) :
    Walkable u base entries ∧ ∀ path, path ∈ paths ↔ FilePath entries base path := by
  induction entries using Entries.induction generalizing base paths with
  | step entries ih =>
    obtain ⟨parts, hparts, rfl⟩ := (collectSnapshotPaths_eq_ok hbase).1 h
    have hspec {e : List UInt8 × Node} {part : List String} (he : e ∈ entries) (hpart : Walks u base e part) :
        Walkable u base [e] ∧ ∀ path, path ∈ part ↔ FilePath [e] base path := by
      refine hpart.spec fun es hes base paths hbase hpaths ↦ ih e.1 es ?_ hbase hpaths
      rw [← hes]
      exact he
    constructor
    · intro path node hnode
      obtain ⟨e, he, hnode⟩ := at_iff_exists.1 hnode
      obtain ⟨part, -, hpart⟩ := Except.exists_of_forall₂ hparts.flip he
      exact (hspec he hpart).1 path node hnode
    · intro path
      rw [List.mem_flatten, filePath_iff_exists]
      constructor
      · rintro ⟨part, hmem, hpath⟩
        obtain ⟨e, he, hpart⟩ := Except.exists_of_forall₂ hparts hmem
        exact ⟨e, he, ((hspec he hpart).2 path).1 hpath⟩
      · rintro ⟨e, he, hpath⟩
        obtain ⟨part, hmem, hpart⟩ := Except.exists_of_forall₂ hparts.flip he
        exact ⟨part, hmem, ((hspec he hpart).2 path).2 hpath⟩

/-- **A walk succeeds** on a tree of nodes that it supports. -/
theorem exists_collectSnapshotPaths (hbase : Checked u base) (h : Walkable u base entries) :
    ∃ paths, collectSnapshotPaths u [] (pathText base) entries = .ok paths := by
  induction entries using Entries.induction generalizing base with
  | step entries ih =>
    have hentry : ∀ e ∈ entries, ∃ part, Walks u base e part := by
      rintro ⟨name, node⟩ hmem
      obtain ⟨p, hp, hchecked, hplain⟩ := h [name] node (.here hmem)
      obtain ⟨s, rfl, hs⟩ := List.map_eq_singleton_iff.1 hp.symm
      cases hplain with
      | file f => exact ⟨_, s, hs.symm, hchecked, collectNode_file _ f⟩
      | dir es =>
        obtain ⟨part, hpart⟩ := ih name es hmem hchecked fun path node hnode ↦ by
          obtain ⟨q, hq, hchecked', hplain'⟩ := h (name :: path) node (.inside hmem hnode)
          cases q with
          | nil => cases hq
          | cons t q =>
            obtain ⟨ht, rfl⟩ := List.cons.inj hq
            obtain rfl := Utf8.bytes_injective (ht.symm.trans hs.symm)
            exact ⟨q, rfl, by simpa using hchecked', hplain'⟩
        exact ⟨part, s, hs.symm, hchecked, (collectNode_dir _ es).trans hpart⟩
    obtain ⟨parts, hparts⟩ : ∃ parts, List.Forall₂ (Walks u base) entries parts := by
      clear h ih
      induction entries with
      | nil => exact ⟨[], .nil⟩
      | cons e entries ihe =>
        obtain ⟨part, hpart⟩ := hentry e List.mem_cons_self
        obtain ⟨parts, hparts⟩ := ihe fun e he ↦ hentry e (List.mem_cons_of_mem _ he)
        exact ⟨part :: parts, .cons hpart hparts⟩
    exact ⟨_, (collectSnapshotPaths_eq_ok hbase).2 ⟨parts, hparts, rfl⟩⟩

/-- In a tree of distinct names every path is given once. -/
theorem nodup_collectSnapshotPaths (hdistinct : Distinct entries) (hbase : Checked u base)
    (h : collectSnapshotPaths u [] (pathText base) entries = .ok paths) : paths.Nodup := by
  induction entries using Entries.induction generalizing base paths with
  | step entries ih =>
    obtain ⟨parts, hparts, rfl⟩ := (collectSnapshotPaths_eq_ok hbase).1 h
    clear h
    induction hparts with
    | nil => exact List.nodup_nil
    | @cons e part entries parts hpart hparts ihe =>
      have hrest : collectSnapshotPaths u [] (pathText base) entries = .ok parts.flatten :=
        (collectSnapshotPaths_eq_ok hbase).2 ⟨parts, hparts, rfl⟩
      have hone : collectSnapshotPaths u [] (pathText base) [e] = .ok part :=
        (collectSnapshotPaths_eq_ok hbase).2 ⟨[part], .cons hpart .nil, by simp⟩
      obtain ⟨hwalk, hmem⟩ := walk_spec hbase hone
      obtain ⟨hwalk', hmem'⟩ := walk_spec hbase hrest
      rw [List.flatten_cons, List.nodup_append]
      refine ⟨?_, ihe (fun name es hes ↦ ih name es (List.mem_cons_of_mem _ hes)) hdistinct.of_cons, ?_⟩
      · obtain ⟨s, hs, hchecked, hnode⟩ := hpart
        obtain ⟨name, node⟩ := e
        cases node with
        | symlink =>
          rw [collectNode] at hnode
          cases hnode
        | other =>
          rw [collectNode] at hnode
          cases hnode
        | file f =>
          rw [collectNode_file] at hnode
          cases hnode
          exact List.nodup_singleton _
        | dir es =>
          rw [collectNode_dir] at hnode
          exact ih name es List.mem_cons_self (hdistinct.of_dir List.mem_cons_self) hchecked hnode
      · rintro a ha b hb rfl
        obtain ⟨p, f, hp, rfl⟩ := (hmem a).1 ha
        obtain ⟨q, g, hq, heq⟩ := (hmem' _).1 hb
        -- the path tells the names, and the first of them tells the entry
        have hpq : p = q := by
          have hp' := (hwalk.checked hp).components (List.append_ne_nil_of_right_ne_nil _ hp.map_ne_nil)
          have hq' := (hwalk'.checked hq).components (List.append_ne_nil_of_right_ne_nil _ hq.map_ne_nil)
          rw [heq, hq'] at hp'
          exact List.append_cancel_left hp'.symm
        obtain ⟨e₁, he₁, hhead₁⟩ := hp.exists_head
        obtain ⟨e₂, he₂, hhead₂⟩ := hq.exists_head
        rw [hpq, hhead₂] at hhead₁
        have hnames := List.nodup_cons.1 hdistinct.here
        refine hnames.1 (List.mem_map.2 ⟨e₂, he₂, ?_⟩)
        rw [Option.some.inj hhead₁, List.mem_singleton.1 he₁]

end Walk

end Centaeris.Frame
