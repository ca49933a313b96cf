import Centaeris.Base.Utf8

/-!
# UTF-8, one byte at a time

A decoder that reads bytes as they arrive stands between two bytes of a character or between two characters
(`Pending`). Reading one byte, it wants more, has a character, or rejects (`react`). What it has read and
where it stands after some bytes is `run`; the bytes of a text take it back between characters
(`run_bytes`), and nothing else does (`bytes_of_run`).

Two readers are built on it: one that judges a whole buffer (`fromUtf8`), and one that is fed a chunk at a
time and replaces what it rejects (`TextDecoder`).
-/

namespace Utf8

/-- Where a decoder stands: the bytes it still needs for the character, the range of the next one, and the
bits of the code point so far. -/
structure Pending where
  needed : Nat
  lower : Nat
  upper : Nat
  point : Nat
  deriving DecidableEq

/-- Between two characters. -/
def Pending.idle : Pending := ⟨0, 0x80, 0xBF, 0⟩

/-- What a byte does. -/
inductive Reaction
  | more (p : Pending)
  | emit (c : Char)
  | reject
  deriving DecidableEq

/-- The first byte of a character. -/
def lead (b : Nat) : Reaction :=
  if b ≤ 0x7F then .emit (Char.ofNat b)
  else if 0xC2 ≤ b ∧ b ≤ 0xDF then .more ⟨1, 0x80, 0xBF, b - 0xC0⟩
  else if 0xE0 ≤ b ∧ b ≤ 0xEF then
    .more ⟨2, if b = 0xE0 then 0xA0 else 0x80, if b = 0xED then 0x9F else 0xBF, b - 0xE0⟩
  else if 0xF0 ≤ b ∧ b ≤ 0xF4 then
    .more ⟨3, if b = 0xF0 then 0x90 else 0x80, if b = 0xF4 then 0x8F else 0xBF, b - 0xF0⟩
  else .reject

/-- A byte where the decoder stands. -/
def react (p : Pending) (b : UInt8) : Reaction :=
  match p.needed with
  | 0 => lead b.toNat
  | needed + 1 =>
    if p.lower ≤ b.toNat ∧ b.toNat ≤ p.upper then
      let point := p.point * 64 + (b.toNat - 0x80)
      if needed = 0 then .emit (Char.ofNat point) else .more ⟨needed, 0x80, 0xBF, point⟩
    else .reject

/-- The characters of some bytes and where the decoder stands after them; `none` once a byte is
rejected. -/
def run (p : Pending) : List UInt8 → Option (List Char × Pending)
  | [] => some ([], p)
  | b :: bs =>
    match react p b with
    | .more p => run p bs
    | .emit c => (run .idle bs).map fun (cs, p) ↦ (c :: cs, p)
    | .reject => none

theorem run_append (p : Pending) (l m : List UInt8) :
    run p (l ++ m) = (run p l).bind fun x ↦ (run x.2 m).map fun y ↦ (x.1 ++ y.1, y.2) := by
  induction l generalizing p with
  | nil => simp [run]
  | cons b l ih =>
    rw [List.cons_append, run, run]
    cases react p b with
    | more q => exact ih q
    | emit c =>
      show Option.map _ (run .idle (l ++ m)) = _
      rw [ih]
      cases run .idle l with
      | none => rfl
      | some x => simp only [Option.bind_some, Option.map_some, Option.map_map]; rfl
    | reject => rfl

theorem run_append_of_eq {p q r : Pending} {l m : List UInt8} {cs ds : List Char}
    (hl : run p l = some (cs, q)) (hm : run q m = some (ds, r)) : run p (l ++ m) = some (cs ++ ds, r) := by
  rw [run_append, hl, Option.bind_some, hm, Option.map_some]

/-- Bytes that are not rejected have a start that is not rejected. -/
theorem run_of_append {p r : Pending} {l m : List UInt8} {es : List Char}
    (h : run p (l ++ m) = some (es, r)) :
    ∃ cs q ds, run p l = some (cs, q) ∧ run q m = some (ds, r) ∧ es = cs ++ ds := by
  rw [run_append, Option.bind_eq_some_iff] at h
  obtain ⟨⟨cs, q⟩, hl, h⟩ := h
  obtain ⟨⟨ds, r'⟩, hm, h⟩ := Option.map_eq_some_iff.1 h
  obtain ⟨rfl, rfl⟩ := Prod.mk.inj h
  exact ⟨cs, q, ds, hl, hm, rfl⟩

section Encode

theorem run_of_more {p q : Pending} {b : UInt8} (bs : List UInt8) (h : react p b = .more q) :
    run p (b :: bs) = run q bs := by
  rw [run, h]

theorem run_of_emit {p : Pending} {b : UInt8} {c : Char} (h : react p b = .emit c) :
    run p [b] = some ([c], .idle) := by
  rw [run, h]
  rfl

theorem react_idle (b : UInt8) : react .idle b = lead b.toNat := rfl

/-- A byte in the range that the decoder has not the last one of. -/
theorem react_more {n lower upper point : Nat} {b : UInt8} (hlower : lower ≤ b.toNat)
    (hupper : b.toNat ≤ upper) :
    react ⟨n + 2, lower, upper, point⟩ b = .more ⟨n + 1, 0x80, 0xBF, point * 64 + (b.toNat - 0x80)⟩ :=
  if_pos ⟨hlower, hupper⟩

/-- The last byte of a character. -/
theorem react_emit {lower upper point : Nat} {b : UInt8} (hlower : lower ≤ b.toNat)
    (hupper : b.toNat ≤ upper) :
    react ⟨1, lower, upper, point⟩ b = .emit (Char.ofNat (point * 64 + (b.toNat - 0x80))) :=
  if_pos ⟨hlower, hupper⟩

theorem lead_one {n : Nat} (h : n ≤ 0x7F) : lead n = .emit (Char.ofNat n) := if_pos h

theorem lead_two : ∀ n < 32, 2 ≤ n → lead (n + 192) = .more ⟨1, 0x80, 0xBF, n⟩ := by decide

theorem lead_three : ∀ n < 16, lead (n + 224) =
    .more ⟨2, if n = 0 then 0xA0 else 0x80, if n = 13 then 0x9F else 0xBF, n⟩ := by decide

theorem lead_four : ∀ n < 5, lead (n + 240) =
    .more ⟨3, if n = 0 then 0x90 else 0x80, if n = 4 then 0x8F else 0xBF, n⟩ := by decide

theorem toNat_ofNat {n : Nat} (h : n < 256) : (UInt8.ofNat n).toNat = n := UInt8.toNat_ofNat_of_lt' h

/-- The bytes of a character are read as the character. -/
theorem run_utf8EncodeChar (c : Char) : run .idle (String.utf8EncodeChar c) = some ([c], .idle) := by
  have hc : c.val.toNat < 0xD800 ∨ 0xDFFF < c.val.toNat ∧ c.val.toNat < 0x110000 := c.valid
  have hchar {n : Nat} (h : n = c.val.toNat) : Char.ofNat n = c := h ▸ Char.ofNat_toNat c
  simp only [String.utf8EncodeChar]
  generalize hv : c.val.toNat = v at hc hchar
  have htail {n : Nat} (h : n < 64) : (UInt8.ofNat (n + 128)).toNat = n + 128 := toNat_ofNat (by omega)
  -- one case per length; each byte is in the range that the bytes before it leave
  split
  · refine run_of_emit ?_
    rw [react_idle, toNat_ofNat (by omega), lead_one (by omega), hchar rfl]
  split
  · rw [run_of_more _ (by rw [react_idle, toNat_ofNat (by omega), lead_two _ (by omega) (by omega)])]
    refine run_of_emit ?_
    rw [react_emit (by rw [htail] <;> omega) (by rw [htail] <;> omega), htail (by omega),
      hchar (by omega)]
  split
  · rw [run_of_more _ (by rw [react_idle, toNat_ofNat (by omega), lead_three _ (by omega)]),
      run_of_more _ (react_more (by rw [htail (by omega)]; split <;> omega)
        (by rw [htail (by omega)]; split <;> omega))]
    refine run_of_emit ?_
    rw [react_emit (by rw [htail] <;> omega) (by rw [htail] <;> omega), htail (by omega), htail (by omega),
      hchar (by omega)]
  · rw [run_of_more _ (by rw [react_idle, toNat_ofNat (by omega), lead_four _ (by omega)]),
      run_of_more _ (react_more (by rw [htail (by omega)]; split <;> omega)
        (by rw [htail (by omega)]; split <;> omega)),
      run_of_more _ (react_more (by rw [htail] <;> omega) (by rw [htail] <;> omega))]
    refine run_of_emit ?_
    rw [react_emit (by rw [htail] <;> omega) (by rw [htail] <;> omega), htail (by omega), htail (by omega),
      htail (by omega), hchar (by omega)]

/-- The bytes of some characters are read as these characters. -/
theorem run_flatMap (cs : List Char) : run .idle (cs.flatMap String.utf8EncodeChar) = some (cs, .idle) := by
  induction cs with
  | nil => rfl
  | cons c cs ih =>
    rw [List.flatMap_cons]
    exact run_append_of_eq (run_utf8EncodeChar c) ih

theorem run_bytes (s : String) : run .idle (bytes s) = some (s.toList, .idle) := run_flatMap _

end Encode

/-! ### Only texts are read -/

/-- The bytes of the character that the decoder is in. -/
inductive Begun : List UInt8 → Pending → Prop
  | idle : Begun [] .idle
  | two {n : Nat} (h : 2 ≤ n ∧ n < 32) : Begun [UInt8.ofNat (n + 192)] ⟨1, 0x80, 0xBF, n⟩
  | three₁ {n : Nat} (h : n < 16) : Begun [UInt8.ofNat (n + 224)]
      ⟨2, if n = 0 then 0xA0 else 0x80, if n = 13 then 0x9F else 0xBF, n⟩
  | three₂ {n m : Nat} (hn : n < 16) (hm : m < 64) (h : (n = 0 → 32 ≤ m) ∧ (n = 13 → m < 32)) :
      Begun [UInt8.ofNat (n + 224), UInt8.ofNat (m + 128)] ⟨1, 0x80, 0xBF, n * 64 + m⟩
  | four₁ {n : Nat} (h : n < 5) : Begun [UInt8.ofNat (n + 240)]
      ⟨3, if n = 0 then 0x90 else 0x80, if n = 4 then 0x8F else 0xBF, n⟩
  | four₂ {n m : Nat} (hn : n < 5) (hm : m < 64) (h : (n = 0 → 16 ≤ m) ∧ (n = 4 → m < 16)) :
      Begun [UInt8.ofNat (n + 240), UInt8.ofNat (m + 128)] ⟨2, 0x80, 0xBF, n * 64 + m⟩
  | four₃ {n m k : Nat} (hn : n < 5) (hm : m < 64) (h : (n = 0 → 16 ≤ m) ∧ (n = 4 → m < 16)) (hk : k < 64) :
      Begun [UInt8.ofNat (n + 240), UInt8.ofNat (m + 128), UInt8.ofNat (k + 128)]
        ⟨1, 0x80, 0xBF, (n * 64 + m) * 64 + k⟩

/-- A byte from the start of its range on. -/
theorem exists_eq_ofNat {b : UInt8} (low : Nat) (h : low ≤ b.toNat) :
    ∃ n, b = UInt8.ofNat (n + low) ∧ b.toNat = n + low :=
  ⟨b.toNat - low, by rw [Nat.sub_add_cancel h, UInt8.ofNat_toNat], (Nat.sub_add_cancel h).symm⟩

theorem val_ofNat {n : Nat} (h : n < 0xD800 ∨ 0xDFFF < n ∧ n < 0x110000) :
    (Char.ofNat n).val.toNat = n := by
  rw [Char.ofNat, dif_pos h]
  rfl

/-- The character that the byte completes has these bytes, or the byte goes on with it. -/
def Grows (l : List UInt8) (b : UInt8) : Reaction → Prop
  | .more q => Begun (l ++ [b]) q
  | .emit c => String.utf8EncodeChar c = l ++ [b]
  | .reject => True

theorem grows_more {l : List UInt8} {b : UInt8} {n lower upper point : Nat} (hlower : 0x80 ≤ lower)
    (h : ∀ m, lower ≤ m + 128 → m + 128 ≤ upper →
      Begun (l ++ [UInt8.ofNat (m + 128)]) ⟨n + 1, 0x80, 0xBF, point * 64 + m⟩) :
    Grows l b (react ⟨n + 2, lower, upper, point⟩ b) := by
  by_cases hb : lower ≤ b.toNat ∧ b.toNat ≤ upper
  · obtain ⟨m, rfl, hm⟩ := exists_eq_ofNat 128 (Nat.le_trans hlower hb.1)
    rw [react_more hb.1 hb.2, hm, Nat.add_sub_cancel]
    exact h m (by omega) (by omega)
  · rw [react]
    simp only [if_neg hb, Grows]

theorem grows_emit {l : List UInt8} {b : UInt8} {lower upper point : Nat} (hlower : 0x80 ≤ lower)
    (h : ∀ m, lower ≤ m + 128 → m + 128 ≤ upper →
      String.utf8EncodeChar (Char.ofNat (point * 64 + m)) = l ++ [UInt8.ofNat (m + 128)]) :
    Grows l b (react ⟨1, lower, upper, point⟩ b) := by
  by_cases hb : lower ≤ b.toNat ∧ b.toNat ≤ upper
  · obtain ⟨m, rfl, hm⟩ := exists_eq_ofNat 128 (Nat.le_trans hlower hb.1)
    rw [react_emit hb.1 hb.2, hm, Nat.add_sub_cancel]
    exact h m (by omega) (by omega)
  · rw [react]
    simp only [if_neg hb, Grows]

theorem grows_lead (b : UInt8) : Grows [] b (lead b.toNat) := by
  have hlt := b.toNat_lt
  by_cases hone : b.toNat ≤ 0x7F
  · rw [lead_one hone]
    show String.utf8EncodeChar _ = [b]
    simp only [String.utf8EncodeChar, val_ofNat (.inl (Nat.lt_of_le_of_lt hone (by decide))), if_pos hone,
      UInt8.ofNat_toNat]
  by_cases htwo : 0xC2 ≤ b.toNat ∧ b.toNat ≤ 0xDF
  · obtain ⟨n, hb, hn⟩ := exists_eq_ofNat (b := b) 192 (by omega)
    rw [hn, lead_two n (by omega) (by omega), hb]
    exact .two (by omega)
  by_cases hthree : 0xE0 ≤ b.toNat ∧ b.toNat ≤ 0xEF
  · obtain ⟨n, hb, hn⟩ := exists_eq_ofNat (b := b) 224 (by omega)
    rw [hn, lead_three n (by omega), hb]
    exact .three₁ (by omega)
  by_cases hfour : 0xF0 ≤ b.toNat ∧ b.toNat ≤ 0xF4
  · obtain ⟨n, hb, hn⟩ := exists_eq_ofNat (b := b) 240 (by omega)
    rw [hn, lead_four n (by omega), hb]
    exact .four₁ (by omega)
  · rw [lead, if_neg hone, if_neg htwo, if_neg hthree, if_neg hfour]
    trivial

/-- The byte that ends a character, and the byte that goes on with it. -/
theorem Begun.grows {l : List UInt8} {p : Pending} (h : Begun l p) (b : UInt8) :
    Grows l b (react p b) := by
  cases h with
  | idle => exact grows_lead b
  | @two n h =>
    refine grows_emit (Nat.le_refl _) fun m hm hm' ↦ ?_
    simp only [String.utf8EncodeChar, val_ofNat (n := n * 64 + m) (by omega)]
    rw [if_neg (by omega), if_pos (by omega), show (n * 64 + m) / 64 % 32 = n by omega,
      show (n * 64 + m) % 64 = m by omega]
    rfl
  | @three₁ n h =>
    refine grows_more (by split <;> omega) fun m hm hm' ↦ .three₂ h ?_ ⟨fun hn ↦ ?_, fun hn ↦ ?_⟩
    · split at hm' <;> omega
    · rw [if_pos hn] at hm; omega
    · rw [if_pos hn] at hm'; omega
  | @three₂ n m hn hm h =>
    refine grows_emit (Nat.le_refl _) fun k hk hk' ↦ ?_
    simp only [String.utf8EncodeChar, val_ofNat (n := (n * 64 + m) * 64 + k) (by omega)]
    rw [if_neg (by omega), if_neg (by omega), if_pos (by omega),
      show ((n * 64 + m) * 64 + k) / 4096 % 16 = n by omega,
      show ((n * 64 + m) * 64 + k) / 64 % 64 = m by omega, show ((n * 64 + m) * 64 + k) % 64 = k by omega]
    rfl
  | @four₁ n h =>
    refine grows_more (by split <;> omega) fun m hm hm' ↦ .four₂ h ?_ ⟨fun hn ↦ ?_, fun hn ↦ ?_⟩
    · split at hm' <;> omega
    · rw [if_pos hn] at hm; omega
    · rw [if_pos hn] at hm'; omega
  | @four₂ n m hn hm h =>
    exact grows_more (Nat.le_refl _) fun k hk hk' ↦ .four₃ hn hm h (by omega)
  | @four₃ n m k hn hm h hk =>
    refine grows_emit (Nat.le_refl _) fun j hj hj' ↦ ?_
    simp only [String.utf8EncodeChar, val_ofNat (n := ((n * 64 + m) * 64 + k) * 64 + j) (by omega)]
    rw [if_neg (by omega), if_neg (by omega), if_neg (by omega),
      show (((n * 64 + m) * 64 + k) * 64 + j) / 262144 % 8 = n by omega,
      show (((n * 64 + m) * 64 + k) * 64 + j) / 4096 % 64 = m by omega,
      show (((n * 64 + m) * 64 + k) * 64 + j) / 64 % 64 = k by omega,
      show (((n * 64 + m) * 64 + k) * 64 + j) % 64 = j by omega]
    rfl

theorem Begun.eq_nil {l : List UInt8} {p : Pending} (h : Begun l p) (hp : p.needed = 0) : l = [] := by
  cases h with
  | idle => rfl
  | _ => cases hp

/-- What has been read are the bytes of the characters, and the start of one more. -/
theorem Begun.run {l bs : List UInt8} {p q : Pending} {cs : List Char} (h : Begun l p)
    (hrun : Utf8.run p bs = some (cs, q)) :
    ∃ m, l ++ bs = cs.flatMap String.utf8EncodeChar ++ m ∧ Begun m q := by
  induction bs generalizing l p cs with
  | nil =>
    obtain ⟨rfl, rfl⟩ := Prod.mk.inj (Option.some.inj hrun)
    exact ⟨l, by simp, h⟩
  | cons b bs ih =>
    have hgrows := h.grows b
    rw [Utf8.run] at hrun
    cases hreact : react p b with
    | more r =>
      rw [hreact] at hrun hgrows
      obtain ⟨m, hm, hq⟩ := ih hgrows hrun
      exact ⟨m, by rw [← hm, List.append_assoc, List.singleton_append], hq⟩
    | emit c =>
      rw [hreact] at hrun hgrows
      obtain ⟨⟨ds, r⟩, hds, heq⟩ := Option.map_eq_some_iff.1 hrun
      obtain ⟨rfl, rfl⟩ := Prod.mk.inj heq
      obtain ⟨m, hm, hq⟩ := ih .idle hds
      refine ⟨m, ?_, hq⟩
      rw [List.flatMap_cons, show String.utf8EncodeChar c = l ++ [b] from hgrows, List.append_assoc,
        List.append_assoc, ← hm]
      rfl
    | reject =>
      rw [hreact] at hrun
      cases hrun

/-- Bytes that leave the decoder between characters are the bytes of a text. -/
theorem bytes_of_run {b : List UInt8} {p : Pending} {cs : List Char} (h : run .idle b = some (cs, p))
    (hp : p.needed = 0) : b = bytes (String.ofList cs) ∧ p = .idle := by
  obtain ⟨m, hm, hq⟩ := Begun.idle.run h
  obtain rfl := hq.eq_nil hp
  rw [List.append_nil] at hm
  rw [bytes, String.toList_ofList]
  refine ⟨hm, ?_⟩
  cases hq with
  | idle => rfl

/-- The bytes of the characters so far stand at the start. -/
theorem prefix_of_run {b : List UInt8} {p : Pending} {cs : List Char} (h : run .idle b = some (cs, p)) :
    bytes (String.ofList cs) <+: b := by
  obtain ⟨m, hm, -⟩ := Begun.idle.run h
  rw [bytes, String.toList_ofList]
  exact ⟨m, hm.symm⟩

/-! ### A whole buffer -/

/-- The result of `std::str::from_utf8`: a text, or an error that has an `error_len` or has none. -/
inductive Checked
  | ok (text : String)
  | incomplete
  | invalid

/-- `std::str::from_utf8`: the input may end inside a character that could still be completed. -/
def fromUtf8 (b : List UInt8) : Checked :=
  match run .idle b with
  | none => .invalid
  | some (cs, p) => if p.needed = 0 then .ok (String.ofList cs) else .incomplete

theorem fromUtf8_bytes (s : String) : fromUtf8 (bytes s) = .ok s := by
  rw [fromUtf8, run_bytes]
  show Checked.ok (String.ofList s.toList) = _
  rw [String.ofList_toList]

/-! ### A chunk at a time -/

/-- What stands for bytes that are rejected. -/
def replacement : Char := '\uFFFD'

/-- The mark that a text may start with. -/
def byteOrderMark : Char := '\uFEFF'

/-- A `TextDecoder` for UTF-8 that is not fatal and does not keep a byte order mark. -/
structure TextDecoder where
  pending : Pending
  bomSeen : Bool

/-- `new TextDecoder()`. -/
def TextDecoder.new : TextDecoder := ⟨.idle, false⟩

/-- One byte: a byte that is rejected inside a character is read again as the first one of the next. -/
def handle (p : Pending) (b : UInt8) : List Char × Pending :=
  match react p b with
  | .more q => ([], q)
  | .emit c => ([c], .idle)
  | .reject =>
    if p.needed = 0 then ([replacement], .idle)
    else
      match lead b.toNat with
      | .more q => ([replacement], q)
      | .emit c => ([replacement, c], .idle)
      | .reject => ([replacement, replacement], .idle)

/-- Some bytes. -/
def handleAll (p : Pending) : List UInt8 → List Char × Pending
  | [] => ([], p)
  | b :: bs => ((handle p b).1 ++ (handleAll (handle p b).2 bs).1, (handleAll (handle p b).2 bs).2)

/-- The first character is left out when it is the mark. -/
def stripBom (seen : Bool) (cs : List Char) : List Char × Bool :=
  match seen, cs with
  | true, cs => (cs, true)
  | false, [] => ([], false)
  | false, c :: cs => (if c = byteOrderMark then cs else c :: cs, true)

/-- `decode(chunk, { stream: true })`. -/
def TextDecoder.decode (d : TextDecoder) (chunk : List UInt8) : List Char × TextDecoder :=
  ((stripBom d.bomSeen (handleAll d.pending chunk).1).1,
    ⟨(handleAll d.pending chunk).2, (stripBom d.bomSeen (handleAll d.pending chunk).1).2⟩)

/-- `decode()` at the end. -/
def TextDecoder.flush (d : TextDecoder) : List Char :=
  if d.pending.needed = 0 then [] else [replacement]

/-- Bytes that are not rejected are handled as they are read. -/
theorem handleAll_of_run {p q : Pending} {b : List UInt8} {cs : List Char} (h : run p b = some (cs, q)) :
    handleAll p b = (cs, q) := by
  induction b generalizing p cs with
  | nil => exact Option.some.inj h
  | cons b bs ih =>
    rw [run] at h
    rw [handleAll, handle]
    cases hreact : react p b with
    | more r =>
      rw [hreact] at h
      simp only [ih h, List.nil_append]
    | emit c =>
      rw [hreact] at h
      obtain ⟨⟨ds, r⟩, hds, heq⟩ := Option.map_eq_some_iff.1 h
      obtain ⟨rfl, rfl⟩ := Prod.mk.inj heq
      simp only [ih hds, List.singleton_append]
    | reject =>
      rw [hreact] at h
      cases h

theorem stripBom_of_head {seen : Bool} {cs : List Char}
    (h : seen = false → cs.head? ≠ some byteOrderMark) :
    (stripBom seen cs).1 = cs ∧ ((stripBom seen cs).2 = false → seen = false ∧ cs = []) := by
  match seen, cs with
  | true, cs => exact ⟨rfl, fun h ↦ (by cases h)⟩
  | false, [] => exact ⟨rfl, fun _ ↦ ⟨rfl, rfl⟩⟩
  | false, c :: cs =>
    have hc : c ≠ byteOrderMark := fun hc ↦ h rfl (by rw [List.head?_cons, hc])
    exact ⟨if_neg hc, fun h ↦ (by cases h)⟩

/-- **However a text is cut into chunks, it is decoded**: the text of a chunk is the next part of the text,
when that does not start with the mark. -/
theorem TextDecoder.decode_of_run {d : TextDecoder} {chunk rest : List UInt8} {cs : List Char} {q : Pending}
    (h : run d.pending (chunk ++ rest) = some (cs, q))
    (hbom : d.bomSeen = false → cs.head? ≠ some byteOrderMark) :
    ∃ ds es, cs = ds ++ es ∧ (d.decode chunk).1 = ds ∧
      run (d.decode chunk).2.pending rest = some (es, q) ∧
      ((d.decode chunk).2.bomSeen = false → es.head? ≠ some byteOrderMark) := by
  obtain ⟨ds, r, es, hds, hes, rfl⟩ := run_of_append h
  have hhead : d.bomSeen = false → ds.head? ≠ some byteOrderMark := fun hseen hd ↦
    hbom hseen (by rw [List.head?_append, hd]; rfl)
  obtain ⟨hstrip, hseen⟩ := stripBom_of_head hhead
  rw [decode, handleAll_of_run hds]
  refine ⟨ds, es, rfl, hstrip, hes, fun hfalse ↦ ?_⟩
  obtain ⟨hfirst, rfl⟩ := hseen hfalse
  exact hbom hfirst

end Utf8
