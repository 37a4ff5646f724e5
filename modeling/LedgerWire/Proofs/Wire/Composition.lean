import LedgerWire.Proofs.Wire.Cursor
import LedgerWire.Proofs.Wire.Script

set_option autoImplicit false

/-! # Items one after the other

Items of any kinds can be written one behind the other and read back in the same order: the bytes in
front of what is left are the encodings of the items that were read, and no other bytes are read as
these items. Both directions follow from the law of a single item, by induction on the script.

What a script leaves is a suffix of the data, so a place in the data is enough to know it. The cursor
that keeps such a place as a machine word also reads texts and seeds here, and puts itself back where
a text is refused. It follows the readers through any script, whatever became of the reads before,
and so it never leaves the data, even if a text announces more bytes than there can be. -/

namespace LedgerWire.Wire

variable {α β : Type}

/-! ## Scripts that succeed -/

theorem ItemKind.attempt_eq_ok_iff (kind : ItemKind) (data rest : Bytes) (item : Item) :
    kind.attempt data = (.ok item, rest) ↔ kind.read data = .ok item rest := by
  unfold attempt
  cases kind.read data <;> simp

/-- A script reads these items and leaves the rest if and only if the data are the encodings of the
    items with the rest behind them. -/
theorem outcomes_eq_map_ok_iff (kinds : List ItemKind) (data rest : Bytes) (items : List Item) :
    outcomes kinds data = items.map .ok ∧ leftAfter kinds data = rest ↔
      items.map Item.kind = kinds ∧ (∀ item ∈ items, item.Fits) ∧
        data = items.flatMap Item.encode ++ rest := by
  induction kinds generalizing data items with
  | nil =>
    cases items with
    | nil => simp [outcomes, leftAfter]
    | cons item items => simp [outcomes]
  | cons kind kinds ih =>
    cases items with
    | nil => simp [outcomes]
    | cons item items =>
      simp only [outcomes, leftAfter, List.map_cons, List.cons.injEq, List.forall_mem_cons,
        List.flatMap_cons, List.append_assoc]
      refine ⟨?_, ?_⟩
      · rintro ⟨⟨hfirst, hothers⟩, hleft⟩
        have hread := (kind.attempt_eq_ok_iff data _ item).1 (Prod.ext hfirst rfl)
        obtain ⟨hkind, hfits, hdata⟩ := (kind.read_eq_ok_iff _ _ _).1 hread
        obtain ⟨hkinds, hallFit, hmid⟩ := (ih _ items).1 ⟨hothers, hleft⟩
        exact ⟨⟨hkind, hkinds⟩, ⟨hfits, hallFit⟩, hmid ▸ hdata⟩
      · rintro ⟨⟨hkind, hkinds⟩, ⟨hfits, hallFit⟩, hdata⟩
        have hread := (kind.read_eq_ok_iff _ _ _).2 ⟨hkind, hfits, hdata⟩
        rw [(kind.attempt_eq_ok_iff _ _ _).2 hread]
        obtain ⟨hothers, hleft⟩ := (ih _ items).2 ⟨hkinds, hallFit, rfl⟩
        exact ⟨⟨rfl, hothers⟩, hleft⟩

/-! ## What is left -/

/-- Also a seed that is too long leaves nothing but what was there. -/
theorem ItemKind.attempt_suffix (kind : ItemKind) (data : Bytes) :
    (kind.attempt data).2 <:+ data := by
  unfold attempt
  cases hread : kind.read data with
  | ok item rest =>
    obtain ⟨-, -, rfl⟩ := (kind.read_eq_ok_iff _ _ _).1 hread
    exact List.suffix_append _ _
  | error e rest =>
    cases kind.read_leaves hread with
    | unmoved _ => exact List.suffix_refl _
    | overlong text _ _ _ => exact List.suffix_append _ _

theorem leftAfter_suffix (kinds : List ItemKind) (data : Bytes) : leftAfter kinds data <:+ data := by
  induction kinds generalizing data with
  | nil => exact List.suffix_refl _
  | cons kind kinds ih => exact (ih _).trans (kind.attempt_suffix data)

/-! ## Texts and seeds on the cursor -/

namespace WordReader

variable (data : Bytes)

/-- Puts the cursor back to `start` and refuses the bytes there. -/
def refuseAt (start : UInt64) (cause : CodecError) : WordReader α := do
  modify fun c => { c with offset := start }
  throw (.refused cause)

/-- The text behind a size that was read from `start` on. -/
def readSized (start size : UInt64) : WordReader String := do
  let remaining ← remaining data
  if remaining < size then
    refuseAt start (.truncatedInput size.toNat remaining.toNat)
  else
    match Bytes.toText? (← take data size) with
    | some text => pure text
    | none => refuseAt start .invalidUtf8

/-- A text behind its size. -/
def readText : WordReader String := do
  let start := (← get).offset
  readSized data start (← readU64 data)

/-- A text that is short enough for a seed. -/
def readSeed : WordReader Seed := do
  match Seed.ofText (← readText data) with
  | .ok seed => pure seed
  | .error e => throw (.refused e)

end WordReader

/-- Reads an item of this kind. -/
def ItemKind.readWords (data : Bytes) : ItemKind → WordReader Item
  | u8 => .u8 <$> WordReader.readU8 data
  | u32 => .u32 <$> WordReader.readU32 data
  | u64 => .u64 <$> WordReader.readU64 data
  | address => .address <$> WordReader.readAddress data
  | text => .text <$> WordReader.readText data
  | seed => .seed <$> WordReader.readSeed data

variable {data : Bytes}

theorem Follows.map {run : WordReader α} {read : Reader α} (h : Follows data run read) (f : α → β) :
    Follows data (f <$> run) (f <$> read) := by
  rw [← bind_pure_comp, ← bind_pure_comp]
  exact h.bind fun a => .pure (f a)

theorem readSeed_eq_bind :
    readSeed = readText >>= fun text =>
      match Seed.ofText text with
      | .ok seed => pure seed
      | .error e => throw e := by
  funext start
  rw [bind_apply, readSeed]
  cases readText start with
  | error e left => rfl
  | ok text left =>
    dsimp only
    cases Seed.ofText text <;> rfl

/-- The size in front of a text moves the cursor by eight bytes, if it is there. -/
theorem WordReader.readU64_eq {c : Cursor} (hc : c.Inside data) :
    readU64 data c =
      match Wire.readU64 (c.left data) with
      | .ok n _ => .ok n { c with offset := c.offset + 8 }
      | .error e _ => .error (.refused e) c := by
  have htake := take_eq hc 8
  have hneeded : (8 : UInt64).toNat = 8 := rfl
  rw [hneeded] at htake
  rw [readU64, Wire.readU64, bind_apply, Wire.bind_apply, htake, Wire.take]
  by_cases hle : 8 ≤ (c.left data).length
  · rw [if_pos hle, if_pos hle]
    rfl
  · rw [if_neg hle, if_neg hle]

/-- Wherever a read has come to since, it can be refused as if it had not begun. -/
theorem WordReader.refuseAt_agrees {c c' : Cursor} (hc : c.Inside data) (hfound : c'.found = c.found)
    (hmissed : c'.missed = c.missed) (e : CodecError) :
    Agrees data c (refuseAt c.offset e c' : EStateM.Result Fault Cursor α)
      (.error e (c.left data)) := by
  have hpays : c.Pays { c' with offset := c.offset } := by
    unfold Cursor.Pays
    dsimp only
    rw [hfound]
  exact .error ⟨hc.size_lt, hc.offset_le⟩ rfl hpays (Nat.le_succ_of_le hmissed.le)

/-- From behind the size of a text that begins at `c`, the cursor does what is left of the reader. -/
theorem WordReader.readSized_agrees {c c' : Cursor} (hc : c.Inside data) (hc' : c'.Inside data)
    (hpays : c.Pays c') (hfound : c'.found = c.found) (hmissed : c'.missed = c.missed)
    (size : UInt64) :
    Agrees data c (readSized data c.offset size c')
      (if size.toNat ≤ (c'.left data).length then
        match Bytes.toText? ((c'.left data).take size.toNat) with
        | some text => .ok text ((c'.left data).drop size.toNat)
        | none => .error .invalidUtf8 (c.left data)
      else .error (.truncatedInput size.toNat (c'.left data).length) (c.left data)) := by
  have hshort := hc'.size_sub_lt_iff size
  rw [readSized, bind_apply, remaining_eq hc']
  dsimp only
  by_cases hle : size.toNat ≤ (c'.left data).length
  · have htake := take_eq hc' size
    rw [if_pos hle] at htake
    rw [if_neg fun h => hshort.1 h hle, if_pos hle, bind_eq_of_ok htake]
    cases Bytes.toText? ((c'.left data).take size.toNat) with
    | some text =>
      exact .ok (hc'.advance hle) (hc'.left_advance hle) (hpays.trans (hc'.pays_advance hle)) hmissed
    | none => exact refuseAt_agrees hc hfound hmissed _
  · rw [if_pos (hshort.2 hle), if_neg hle, hc'.toNat_size_sub]
    exact refuseAt_agrees hc hfound hmissed _

theorem readText_follows : Follows data (WordReader.readText data) readText := by
  intro c hc
  have hsize := WordReader.readU64_eq hc
  have hfollows := readU64_follows c hc
  rw [readText]
  show Agrees data c ((WordReader.readU64 data >>= WordReader.readSized data c.offset) c) _
  rw [WordReader.bind_apply]
  rw [hsize] at hfollows ⊢
  cases hread : readU64 (c.left data) with
  | error e left =>
    rw [hread] at hfollows
    exact .error hc (readU64_keepsOnError _ _ _ hread).1.symm (.refl c) (Nat.le_succ _)
  | ok size left =>
    rw [hread] at hfollows
    cases hfollows with
    | ok hinside hleft hpays hmissed =>
      subst hleft
      exact WordReader.readSized_agrees hc hinside hpays rfl rfl size

theorem readSeed_follows : Follows data (WordReader.readSeed data) readSeed := by
  rw [readSeed_eq_bind]
  refine readText_follows.bind fun text => ?_
  cases Seed.ofText text with
  | ok seed => exact .pure seed
  | error e => exact .throw e

theorem ItemKind.readWords_follows (kind : ItemKind) :
    Follows data (kind.readWords data) kind.read := by
  cases kind with
  | u8 => exact readU8_follows.map _
  | u32 => exact readU32_follows.map _
  | u64 => exact readU64_follows.map _
  | address => exact readAddress_follows.map _
  | text => exact readText_follows.map _
  | seed => exact readSeed_follows.map _

/-! ## Scripts on the cursor -/

/-- What becomes of a read. After one that is refused the script goes on, after one that goes out of
    range it does not. -/
def WordReader.attempt (run : WordReader α) : WordReader (Except CodecError α) := fun c =>
  match run c with
  | .ok a c' => .ok (.ok a) c'
  | .error (.refused e) c' => .ok (.error e) c'
  | .error .outOfRange c' => .error .outOfRange c'

/-- What becomes of the reads of a script. -/
def WordReader.runScript (data : Bytes) : List ItemKind → WordReader (List (Except CodecError Item))
  | [] => pure []
  | kind :: kinds => do
    let first ← attempt (kind.readWords data)
    let others ← runScript data kinds
    return first :: others

/-- One read ends inside the data, at the bytes that the reader leaves. -/
theorem ItemKind.attempt_words (kind : ItemKind) {c : Cursor} (hc : c.Inside data) :
    ∃ c' : Cursor, WordReader.attempt (kind.readWords data) c =
        .ok (kind.attempt (c.left data)).1 c' ∧
      c'.Inside data ∧ c'.left data = (kind.attempt (c.left data)).2 := by
  have hagrees := kind.readWords_follows c hc
  rw [WordReader.attempt, ItemKind.attempt]
  generalize kind.readWords data c = result, kind.read (c.left data) = result' at hagrees ⊢
  cases hagrees with
  | ok hinside hleft _ _ => exact ⟨_, rfl, hinside, hleft⟩
  | error hinside hleft _ _ => exact ⟨_, rfl, hinside, hleft⟩

theorem WordReader.runScript_eq (kinds : List ItemKind) {c : Cursor} (hc : c.Inside data) :
    ∃ c' : Cursor, runScript data kinds c = .ok (outcomes kinds (c.left data)) c' ∧
      c'.Inside data ∧ c'.left data = leftAfter kinds (c.left data) := by
  induction kinds generalizing c with
  | nil => exact ⟨c, rfl, hc, rfl⟩
  | cons kind kinds ih =>
    obtain ⟨mid, hfirst, hmid, hleft⟩ := kind.attempt_words hc
    obtain ⟨c', hothers, hc', hleft'⟩ := ih hmid
    refine ⟨c', ?_, hc', ?_⟩
    · rw [runScript, bind_eq_of_ok hfirst, bind_eq_of_ok hothers, hleft]
      rfl
    · rw [hleft', hleft]
      rfl

/-! ## Composition -/

/-- Items that were written one behind the other are read back in order, and what is behind them is
    left. Where all reads of a script succeed, they have taken the encodings of what they read, and
    nothing else. Whatever becomes of the reads, the end of the data is left; on a machine that can
    hold the data the cursor has the same outcomes and stays inside them, so that what is left is a
    difference of words. -/
theorem scripts_compose :
    (∀ (items : List Item) (rest : Bytes), (∀ item ∈ items, item.Fits) →
        outcomes (items.map Item.kind) (items.flatMap Item.encode ++ rest) = items.map .ok ∧
          leftAfter (items.map Item.kind) (items.flatMap Item.encode ++ rest) = rest) ∧
      (∀ (kinds : List ItemKind) (data : Bytes) (items : List Item),
        outcomes kinds data = items.map .ok →
          items.map Item.kind = kinds ∧ data = items.flatMap Item.encode ++ leftAfter kinds data) ∧
      (∀ (kinds : List ItemKind) (data : Bytes), leftAfter kinds data <:+ data) ∧
      ∀ (kinds : List ItemKind) (data : Bytes), data.length < UInt64.size →
        ∃ (c : Cursor) (left : UInt64),
          WordReader.runScript data kinds .start = .ok (outcomes kinds data) c ∧
            c.offset.toNat ≤ data.length ∧ c.left data = leftAfter kinds data ∧
            WordReader.remaining data c = .ok left c ∧
            left.toNat = (leftAfter kinds data).length := by
  refine ⟨?_, ?_, leftAfter_suffix, ?_⟩
  · intro items rest hfit
    exact (outcomes_eq_map_ok_iff _ _ rest items).2 ⟨rfl, hfit, rfl⟩
  · intro kinds data items hitems
    obtain ⟨hkinds, -, hdata⟩ := (outcomes_eq_map_ok_iff kinds data _ items).1 ⟨hitems, rfl⟩
    exact ⟨hkinds, hdata⟩
  · intro kinds data hsize
    obtain ⟨c, hrun, hinside, hleft⟩ := WordReader.runScript_eq kinds (Cursor.start_inside hsize)
    refine ⟨c, _, hrun, hinside.offset_le, hleft, WordReader.remaining_eq hinside, ?_⟩
    rw [hinside.toNat_size_sub, hleft]
    rfl

/-- A text that announces as many bytes as a word can count, with a single byte behind it. -/
def endlessText : Bytes :=
  encodeU64 18446744073709551615 ++ [97]

/-- Items of all kinds with a byte behind them, and a script that goes on after a text which announces
    more bytes than there can be. -/
theorem scripts_compose_endlessText :
    ((∀ item ∈ [Item.u32 12, .u64 18446744073709551615, .address default, .text "héllo", .u8 255],
          item.Fits) ∧
        leftAfter [.u32, .u64, .address, .text, .u8]
          ([Item.u32 12, .u64 18446744073709551615, .address default, .text "héllo",
            .u8 255].flatMap Item.encode ++ [7]) = [7]) ∧
      (outcomes [.u8, .u8] [1, 2, 3] = [Item.u8 1, .u8 2].map .ok ∧
        [1, 2, 3] = [Item.u8 1, .u8 2].flatMap Item.encode ++ leftAfter [.u8, .u8] [1, 2, 3]) ∧
      endlessText.length < UInt64.size ∧ ∃ c : Cursor,
        WordReader.runScript endlessText [.text, .u64, .u8] .start =
            .ok [.error (.truncatedInput 18446744073709551615 1), .ok (.u64 18446744073709551615),
              .ok (.u8 97)] c ∧
          c.offset.toNat ≤ endlessText.length := by
  have hfit : ∀ item ∈ [Item.u32 12, .u64 18446744073709551615, .address default, .text "héllo",
      .u8 255], item.Fits := by
    have htext : "héllo".utf8ByteSize < UInt64.size := by decide
    simpa [Item.Fits] using htext
  have hread : outcomes [.u8, .u8] [1, 2, 3] = [Item.u8 1, .u8 2].map .ok := rfl
  have hsize : endlessText.length < UInt64.size := by decide
  obtain ⟨c, -, hrun, hoffset, -, -, -⟩ := scripts_compose.2.2.2 [.text, .u64, .u8] endlessText hsize
  exact ⟨⟨hfit, (scripts_compose.1 _ [7] hfit).2⟩,
    ⟨hread, (scripts_compose.2.1 _ _ _ hread).2⟩, hsize, c, hrun, hoffset⟩

end LedgerWire.Wire
