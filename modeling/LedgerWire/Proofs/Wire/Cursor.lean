import LedgerWire.Proofs.Wire.Exact

set_option autoImplicit false

/-! # A cursor that computes with machine words

The readers work on the bytes that are left. Here they are compared with a cursor that holds on to
all of the data and keeps in a machine word how far it has come. It computes with words only: what is
left is a difference, the next place is a sum, and what is taken is a slice between two places. Each
of these can go wrong, and `Fault.outOfRange` is the outcome if one does.

`Follows` says that a run of the cursor has the outcome of a reader and stops where the reader stops,
inside the data, so that nothing goes wrong on the way. It is shown for each primitive and carried
through sequences. The cursor also counts the addresses that it is asked for. Every address that is
found moves it on by 32 bytes, and the first one that is missing ends the run, so the data bounds the
count, whatever a payload announces. -/

namespace LedgerWire.Wire

variable {α β : Type}

/-! ## Cursors -/

/-- How far the data has been read, and how many addresses were asked for on the way. -/
structure Cursor where
  offset : UInt64
  /-- The addresses that were there. -/
  found : Nat
  /-- The addresses that were not. -/
  missed : Nat
deriving DecidableEq

namespace Cursor

/-- In front of the data. -/
def start : Cursor := ⟨0, 0, 0⟩

/-- The bytes behind the cursor. -/
def left (c : Cursor) (data : Bytes) : Bytes :=
  data.drop c.offset.toNat

/-- The data has a size that a machine word can hold, and the cursor has not left it. -/
structure Inside (c : Cursor) (data : Bytes) : Prop where
  size_lt : data.length < UInt64.size
  offset_le : c.offset.toNat ≤ data.length

theorem start_inside {data : Bytes} (h : data.length < UInt64.size) : start.Inside data :=
  ⟨h, Nat.zero_le _⟩

theorem length_left (c : Cursor) (data : Bytes) :
    (c.left data).length = data.length - c.offset.toNat :=
  List.length_drop

/-- From one cursor to a later one, every address that was found took 32 bytes. -/
def Pays (c c' : Cursor) : Prop :=
  c.offset.toNat + 32 * c'.found ≤ c'.offset.toNat + 32 * c.found

theorem Pays.refl (c : Cursor) : c.Pays c :=
  Nat.le_refl _

theorem Pays.trans {c c' c'' : Cursor} (h : c.Pays c') (h' : c'.Pays c'') : c.Pays c'' := by
  unfold Pays at *
  omega

end Cursor

/-- Why a run of the cursor ends early. -/
inductive Fault where
  /-- The bytes are refused. -/
  | refused (cause : CodecError)
  /-- A sum or a difference is no machine word, or a slice is not inside the data. -/
  | outOfRange

/-- A computation of the cursor. -/
abbrev WordReader := EStateM Fault Cursor

namespace WordReader

/-! ## Words -/

/-- The sum of two words, if it is one. -/
def add (a b : UInt64) : WordReader UInt64 :=
  if a.toNat + b.toNat < UInt64.size then pure (a + b) else throw .outOfRange

/-- The difference of two words, if it is one. -/
def sub (a b : UInt64) : WordReader UInt64 :=
  if b ≤ a then pure (a - b) else throw .outOfRange

/-- The bytes between two places of the data. -/
def slice (data : Bytes) (first last : UInt64) : WordReader Bytes :=
  if first ≤ last ∧ last.toNat ≤ data.length then
    pure ((data.take last.toNat).drop first.toNat)
  else throw .outOfRange

/-! ## Reads -/

variable (data : Bytes)

/-- How many bytes are left. -/
def remaining : WordReader UInt64 := do
  sub (UInt64.ofNat data.length) (← get).offset

/-- The next `needed` bytes. -/
def take (needed : UInt64) : WordReader Bytes := do
  let remaining ← remaining data
  if remaining < needed then
    throw (.refused (.truncatedInput needed.toNat remaining.toNat))
  else
    let first := (← get).offset
    let last ← add first needed
    modify fun c => { c with offset := last }
    slice data first last

/-- One byte. -/
def readU8 : WordReader UInt8 := do
  return UInt8.ofNat (← take data 1).toNatLE

/-- A little-endian 32-bit integer. -/
def readU32 : WordReader UInt32 := do
  return UInt32.ofNat (← take data 4).toNatLE

/-- A little-endian 64-bit integer. -/
def readU64 : WordReader UInt64 := do
  return UInt64.ofNat (← take data 8).toNatLE

/-- Counts whether a read has found something. -/
def counted (read : WordReader α) : WordReader α := fun c =>
  match read c with
  | .ok a c => .ok a { c with found := c.found + 1 }
  | .error e c => .error e { c with missed := c.missed + 1 }

/-- The address that a slice holds, which has to have its size. -/
def toAddress (bytes : Bytes) : WordReader Address :=
  match Key.ofBytes? bytes with
  | some address => pure address
  | none => throw .outOfRange

/-- A raw address. -/
def readAddress : WordReader Address :=
  counted (take data 32 >>= toAddress)

end WordReader

/-! ## The two runs -/

/-- From the cursor `c` a run has the outcome of a reader, and stops at the same bytes. An address
    that is missing ends it. -/
inductive Agrees (data : Bytes) (c : Cursor) :
    EStateM.Result Fault Cursor α → EStateM.Result CodecError Bytes α → Prop
  | ok {a : α} {c' : Cursor} {left : Bytes} (hinside : c'.Inside data)
      (hleft : c'.left data = left) (hpays : c.Pays c') (hmissed : c'.missed = c.missed) :
      Agrees data c (.ok a c') (.ok a left)
  | error {e : CodecError} {c' : Cursor} {left : Bytes} (hinside : c'.Inside data)
      (hleft : c'.left data = left) (hpays : c.Pays c') (hmissed : c'.missed ≤ c.missed + 1) :
      Agrees data c (.error (.refused e) c') (.error e left)

/-- A computation of the cursor does what a reader does, wherever in the data the cursor is. -/
def Follows (data : Bytes) (run : WordReader α) (read : Reader α) : Prop :=
  ∀ c : Cursor, c.Inside data → Agrees data c (run c) (read (c.left data))

/-- The run that ends at a cursor with the outcome of a reader. -/
def Cursor.stop (c : Cursor) : Except CodecError α → EStateM.Result Fault Cursor α
  | .ok a => .ok a c
  | .error e => .error (.refused e) c

variable {data : Bytes}

/-- The run ends inside the data, with the outcome of the reader. -/
theorem Follows.exists_stop {run : WordReader α} {read : Reader α} (h : Follows data run read)
    {c : Cursor} (hc : c.Inside data) :
    ∃ c' : Cursor, run c = c'.stop (decode read (c.left data)) ∧ c'.Inside data ∧ c.Pays c' ∧
      c'.missed ≤ c.missed + 1 := by
  have hagrees := h c hc
  rw [decode]
  generalize run c = result, read (c.left data) = result' at hagrees ⊢
  cases hagrees with
  | ok hinside hleft hpays hmissed =>
    exact ⟨_, rfl, hinside, hpays, Nat.le_succ_of_le hmissed.le⟩
  | error hinside hleft hpays hmissed => exact ⟨_, rfl, hinside, hpays, hmissed⟩

/-- Where the reader succeeds, the cursor does. -/
theorem Follows.exists_ok {run : WordReader α} {read : Reader α} (h : Follows data run read)
    {c : Cursor} (hc : c.Inside data) {a : α} {left : Bytes}
    (hread : read (c.left data) = .ok a left) :
    ∃ c' : Cursor, run c = .ok a c' ∧ c'.Inside data ∧ c'.left data = left ∧ c.Pays c' ∧
      c'.missed = c.missed := by
  have hagrees := h c hc
  rw [hread] at hagrees
  generalize run c = result at hagrees ⊢
  cases hagrees with
  | ok hinside hleft hpays hmissed => exact ⟨_, rfl, hinside, hleft, hpays, hmissed⟩

/-! ## Sequences -/

theorem WordReader.bind_apply (run : WordReader α) (next : α → WordReader β) (c : Cursor) :
    (run >>= next) c =
      match run c with
      | .ok a c' => next a c'
      | .error e c' => .error e c' := by
  show EStateM.bind run next c = _
  unfold EStateM.bind
  cases run c <;> rfl

theorem WordReader.bind_eq_of_ok {run : WordReader α} {c c' : Cursor} {a : α}
    (h : run c = .ok a c') (next : α → WordReader β) : (run >>= next) c = next a c' := by
  rw [bind_apply, h]

theorem Follows.pure (a : α) : Follows data (pure a) (pure a) := by
  intro c hc
  exact .ok hc rfl (.refl c) rfl

theorem Follows.throw (e : CodecError) :
    Follows data (throw (.refused e) : WordReader α) (throw e) := by
  intro c hc
  exact .error hc rfl (.refl c) (Nat.le_succ _)

theorem Follows.bind {run : WordReader α} {read : Reader α} {next : α → WordReader β}
    {next' : α → Reader β} (h : Follows data run read)
    (hnext : ∀ a, Follows data (next a) (next' a)) :
    Follows data (run >>= next) (read >>= next') := by
  intro c hc
  have hagrees := h c hc
  rw [WordReader.bind_apply, Wire.bind_apply]
  generalize run c = result, read (c.left data) = result' at hagrees
  cases hagrees with
  | @error e c' left hinside hleft hpays hmissed => exact .error hinside hleft hpays hmissed
  | @ok a c' left hinside hleft hpays hmissed =>
    subst hleft
    have hagrees' := hnext a c' hinside
    dsimp only
    generalize next a c' = result, next' a (c'.left data) = result' at hagrees' ⊢
    cases hagrees' with
    | ok hinside' hleft' hpays' hmissed' =>
      exact .ok hinside' hleft' (hpays.trans hpays') (hmissed'.trans hmissed)
    | error hinside' hleft' hpays' hmissed' =>
      exact .error hinside' hleft' (hpays.trans hpays') (hmissed ▸ hmissed')

/-! ## Primitives -/

theorem Cursor.Inside.offset_le_size {c : Cursor} (hc : c.Inside data) :
    c.offset ≤ UInt64.ofNat data.length := by
  rw [UInt64.le_iff_toNat_le, UInt64.toNat_ofNat_of_lt' hc.size_lt]
  exact hc.offset_le

theorem Cursor.Inside.toNat_size_sub {c : Cursor} (hc : c.Inside data) :
    (UInt64.ofNat data.length - c.offset).toNat = (c.left data).length := by
  rw [UInt64.toNat_sub_of_le _ _ hc.offset_le_size, UInt64.toNat_ofNat_of_lt' hc.size_lt,
    c.length_left]

/-- What is left is compared as a word in the same way as a number. -/
theorem Cursor.Inside.size_sub_lt_iff {c : Cursor} (hc : c.Inside data) (count : UInt64) :
    UInt64.ofNat data.length - c.offset < count ↔ ¬count.toNat ≤ (c.left data).length := by
  rw [UInt64.lt_iff_toNat_lt, hc.toNat_size_sub, Nat.not_le]

/-- Moving on over bytes that are left is no overflow. -/
theorem Cursor.Inside.toNat_add {c : Cursor} (hc : c.Inside data) {count : UInt64}
    (h : count.toNat ≤ (c.left data).length) :
    (c.offset + count).toNat = c.offset.toNat + count.toNat ∧
      c.offset.toNat + count.toNat ≤ data.length := by
  have hbound : c.offset.toNat + count.toNat ≤ data.length := by
    have := hc.offset_le
    rw [c.length_left] at h
    omega
  refine ⟨?_, hbound⟩
  rw [UInt64.toNat_add]
  exact Nat.mod_eq_of_lt (Nat.lt_of_le_of_lt hbound hc.size_lt)

/-- Moving on over bytes that are left stays inside the data. -/
theorem Cursor.Inside.advance {c : Cursor} (hc : c.Inside data) {count : UInt64}
    (h : count.toNat ≤ (c.left data).length) :
    ({ c with offset := c.offset + count } : Cursor).Inside data := by
  obtain ⟨hsum, hbound⟩ := hc.toNat_add h
  refine ⟨hc.size_lt, ?_⟩
  rw [hsum]
  exact hbound

/-- Moving on costs nothing but bytes. -/
theorem Cursor.Inside.pays_advance {c : Cursor} (hc : c.Inside data) {count : UInt64}
    (h : count.toNat ≤ (c.left data).length) :
    c.Pays { c with offset := c.offset + count } := by
  unfold Cursor.Pays
  dsimp only
  rw [(hc.toNat_add h).1]
  omega

/-- Moving on drops what was moved over. -/
theorem Cursor.Inside.left_advance {c : Cursor} (hc : c.Inside data) {count : UInt64}
    (h : count.toNat ≤ (c.left data).length) :
    ({ c with offset := c.offset + count } : Cursor).left data =
      (c.left data).drop count.toNat := by
  rw [Cursor.left, Cursor.left, (hc.toNat_add h).1, List.drop_drop]

theorem WordReader.remaining_eq {c : Cursor} (hc : c.Inside data) :
    remaining data c = .ok (UInt64.ofNat data.length - c.offset) c := by
  show sub (UInt64.ofNat data.length) c.offset c = _
  rw [sub, if_pos hc.offset_le_size]
  rfl

theorem WordReader.add_eq {c : Cursor} (hc : c.Inside data) {count : UInt64}
    (h : count.toNat ≤ (c.left data).length) (c' : Cursor) :
    add c.offset count c' = .ok (c.offset + count) c' := by
  have hsum : c.offset.toNat + count.toNat < UInt64.size :=
    Nat.lt_of_le_of_lt (hc.toNat_add h).2 hc.size_lt
  rw [add, if_pos hsum]
  rfl

theorem WordReader.slice_eq {c : Cursor} (hc : c.Inside data) {count : UInt64}
    (h : count.toNat ≤ (c.left data).length) (c' : Cursor) :
    slice data c.offset (c.offset + count) c' = .ok ((c.left data).take count.toNat) c' := by
  obtain ⟨hsum, hbound⟩ := hc.toNat_add h
  have hrange : c.offset ≤ c.offset + count ∧ (c.offset + count).toNat ≤ data.length := by
    rw [UInt64.le_iff_toNat_le, hsum]
    exact ⟨Nat.le_add_right _ _, hbound⟩
  rw [slice, if_pos hrange, hsum, List.drop_take, Nat.add_sub_cancel_left]
  rfl

/-- Inside the data no difference, sum or slice goes wrong. -/
theorem WordReader.take_eq {c : Cursor} (hc : c.Inside data) (needed : UInt64) :
    take data needed c =
      if needed.toNat ≤ (c.left data).length then
        .ok ((c.left data).take needed.toNat) { c with offset := c.offset + needed }
      else .error (.refused (.truncatedInput needed.toNat (c.left data).length)) c := by
  have hshort := hc.size_sub_lt_iff needed
  rw [take, bind_apply, remaining_eq hc]
  dsimp only
  by_cases hle : needed.toNat ≤ (c.left data).length
  · rw [if_neg fun h => hshort.1 h hle, if_pos hle]
    exact (bind_eq_of_ok (add_eq hc hle c) _).trans (slice_eq hc hle _)
  · rw [if_pos (hshort.2 hle), if_neg hle, hc.toNat_size_sub]
    rfl

theorem take_follows (needed : UInt64) :
    Follows data (WordReader.take data needed) (take needed.toNat) := by
  intro c hc
  rw [WordReader.take_eq hc, take]
  by_cases hle : needed.toNat ≤ (c.left data).length
  · rw [if_pos hle, if_pos hle]
    exact .ok (hc.advance hle) (hc.left_advance hle) (hc.pays_advance hle) rfl
  · rw [if_neg hle, if_neg hle]
    exact .error hc rfl (.refl c) (Nat.le_succ _)

theorem readU8_follows : Follows data (WordReader.readU8 data) readU8 :=
  (take_follows 1).bind fun _ => .pure _

theorem readU32_follows : Follows data (WordReader.readU32 data) readU32 :=
  (take_follows 4).bind fun _ => .pure _

theorem readU64_follows : Follows data (WordReader.readU64 data) readU64 :=
  (take_follows 8).bind fun _ => .pure _

theorem WordReader.counted_eq_of_ok {run : WordReader α} {c c' : Cursor} {a : α}
    (h : run c = .ok a c') : counted run c = .ok a { c' with found := c'.found + 1 } := by
  rw [counted, h]

theorem WordReader.counted_eq_of_error {run : WordReader α} {c c' : Cursor} {e : Fault}
    (h : run c = .error e c') :
    counted run c = .error e { c' with missed := c'.missed + 1 } := by
  rw [counted, h]

theorem WordReader.toAddress_eq {bytes : Bytes} (h : bytes.length = 32) (c : Cursor) :
    toAddress bytes c = .ok ⟨bytes, h⟩ c := by
  rw [toAddress, Key.ofBytes?, dif_pos h]
  rfl

/-- An address that is found is paid for by the bytes that it takes. -/
theorem readAddress_follows : Follows data (WordReader.readAddress data) readAddress := by
  intro c hc
  have htake := WordReader.take_eq hc 32
  have hneeded : (32 : UInt64).toNat = 32 := rfl
  rw [hneeded] at htake
  rw [readAddress]
  by_cases hle : 32 ≤ (c.left data).length
  · rw [if_pos hle] at htake
    have hrun : (WordReader.take data 32 >>= WordReader.toAddress) c =
        .ok ⟨(c.left data).take 32, by simp [hle]⟩ { c with offset := c.offset + 32 } :=
      (WordReader.bind_eq_of_ok htake _).trans (WordReader.toAddress_eq _ _)
    obtain ⟨hsum, hbound⟩ : (c.offset + 32).toNat = c.offset.toNat + 32 ∧ _ :=
      hc.toNat_add (hneeded ▸ hle)
    have hpays : c.Pays ⟨c.offset + 32, c.found + 1, c.missed⟩ := by
      unfold Cursor.Pays
      dsimp only
      omega
    rw [dif_pos hle, WordReader.readAddress, WordReader.counted_eq_of_ok hrun]
    exact .ok ⟨hc.size_lt, hsum ▸ hbound⟩ (hc.left_advance (hneeded ▸ hle)) hpays rfl
  · rw [if_neg hle] at htake
    have hrun : (WordReader.take data 32 >>= WordReader.toAddress) c =
        .error (.refused (.truncatedInput 32 (c.left data).length)) c := by
      rw [WordReader.bind_apply, htake]
    rw [dif_neg hle, WordReader.readAddress, WordReader.counted_eq_of_error hrun]
    exact .error ⟨hc.size_lt, hc.offset_le⟩ rfl (.refl c) (Nat.le_refl _)

end LedgerWire.Wire
