import LedgerWire.Proofs.Wire.Exact

set_option autoImplicit false

/-! # Reads one after the other

A script asks for one item after the other, whatever became of the items before. What a read does to
the bytes that are left is said once for all kinds of items: a read that succeeds takes the encoding
of its item off the front, and a read that fails leaves the bytes alone. There is one exception. A
seed is read as a text and then weighed, and a text that turns out to be too long has been taken off
by then. So a failed read shows in what comes after it exactly if it was refused for the size of a
seed, and any other failed read can be struck from a script. -/

namespace LedgerWire.Wire

variable {α β : Type}

/-! ## Items -/

/-- What a reader can be asked for. -/
inductive ItemKind where
  | u8
  | u32
  | u64
  | address
  | text
  | seed
deriving DecidableEq, Repr

/-- What was read. -/
inductive Item where
  | u8 (n : UInt8)
  | u32 (n : UInt32)
  | u64 (n : UInt64)
  | address (address : Address)
  | text (text : String)
  | seed (seed : Seed)
deriving DecidableEq

namespace Item

/-- The kind of an item. -/
def kind : Item → ItemKind
  | u8 _ => .u8
  | u32 _ => .u32
  | u64 _ => .u64
  | address _ => .address
  | text _ => .text
  | seed _ => .seed

/-- The encoding of an item. -/
def encode : Item → Bytes
  | u8 n => encodeU8 n
  | u32 n => encodeU32 n
  | u64 n => encodeU64 n
  | address a => encodeAddress a
  | text s => encodeText s
  | seed s => encodeSeed s

/-- The size of a text fits into the 64 bits in front of it. -/
def Fits : Item → Prop
  | text s => s.utf8ByteSize < UInt64.size
  | _ => True

end Item

/-- Reads an item of this kind. -/
def ItemKind.read : ItemKind → Reader Item
  | u8 => .u8 <$> readU8
  | u32 => .u32 <$> readU32
  | u64 => .u64 <$> readU64
  | address => .address <$> readAddress
  | text => .text <$> readText
  | seed => .seed <$> readSeed

theorem map_eq_ok_iff (f : α → β) (read : Reader α) (data rest : Bytes) (b : β) :
    (f <$> read) data = .ok b rest ↔ ∃ a, read data = .ok a rest ∧ f a = b := by
  show EStateM.map f read data = _ ↔ _
  unfold EStateM.map
  cases read data <;> simp [and_left_comm, and_comm]

theorem map_eq_error_iff (f : α → β) (read : Reader α) (data rest : Bytes) (e : CodecError) :
    (f <$> read) data = .error e rest ↔ read data = .error e rest := by
  show EStateM.map f read data = _ ↔ _
  unfold EStateM.map
  cases read data <;> simp

/-- An item is read from its own encoding, whatever comes behind it, and from nothing else. -/
theorem ItemKind.read_eq_ok_iff (kind : ItemKind) (data rest : Bytes) (item : Item) :
    kind.read data = .ok item rest ↔
      item.kind = kind ∧ item.Fits ∧ data = item.encode ++ rest := by
  cases kind <;> cases item <;>
    simp [read, map_eq_ok_iff, Item.kind, Item.Fits, Item.encode, readU8_eq_ok_iff,
      readU32_eq_ok_iff, readU64_eq_ok_iff, readAddress_eq_ok_iff, readText_eq_ok_iff,
      readSeed_eq_ok_iff]

/-! ## Failed reads -/

/-- A read that fails leaves the bytes alone, and is not refused for the size of a seed. -/
def KeepsOnError (read : Reader α) : Prop :=
  ∀ data e rest, read data = .error e rest → rest = data ∧ ∀ size, e ≠ .seedTooLong size

theorem take_keepsOnError (count : Nat) : KeepsOnError (take count) := by
  intro data e rest h
  unfold take at h
  split_ifs at h
  cases h
  exact ⟨rfl, by simp⟩

/-- What is made of a value that was read is no reason to fail. -/
theorem KeepsOnError.map {read : Reader α} (h : KeepsOnError read) (f : α → β) :
    KeepsOnError (f <$> read) := by
  intro data e rest herror
  exact h data e rest ((map_eq_error_iff f read data rest e).1 herror)

theorem readU8_keepsOnError : KeepsOnError readU8 :=
  (take_keepsOnError 1).map _

theorem readU32_keepsOnError : KeepsOnError readU32 :=
  (take_keepsOnError 4).map _

theorem readU64_keepsOnError : KeepsOnError readU64 :=
  (take_keepsOnError 8).map _

theorem readAddress_keepsOnError : KeepsOnError readAddress := by
  intro data e rest h
  unfold readAddress at h
  split_ifs at h
  cases h
  exact ⟨rfl, by simp⟩

/-- The size in front of a text is put back with the text. -/
theorem readText_keepsOnError : KeepsOnError readText := by
  intro data e rest h
  unfold readText at h
  split at h
  · rename_i hsize
    cases h
    exact readU64_keepsOnError data e rest hsize
  · split_ifs at h
    · split at h
      · cases h
      · cases h
        exact ⟨rfl, by simp⟩
    · cases h
      exact ⟨rfl, by simp⟩

/-- What a failed read for an item of this kind leaves of the data. -/
inductive Leaves (kind : ItemKind) : Bytes → CodecError → Bytes → Prop
  /-- The bytes are left alone. -/
  | unmoved {data : Bytes} {e : CodecError} (h : ∀ size, e ≠ .seedTooLong size) :
      Leaves kind data e data
  /-- A text that is too long for a seed is taken off. -/
  | overlong (text : String) (rest : Bytes) (hkind : kind = .seed)
      (hlong : maxSeedSize < text.utf8ByteSize) :
      Leaves kind (encodeText text ++ rest) (.seedTooLong text.utf8ByteSize) rest

theorem Leaves.eq_of_forall_ne {kind : ItemKind} {data rest : Bytes} {e : CodecError}
    (h : Leaves kind data e rest) (he : ∀ size, e ≠ .seedTooLong size) : rest = data := by
  cases h with
  | unmoved _ => rfl
  | overlong text _ _ _ => exact absurd rfl (he text.utf8ByteSize)

theorem Leaves.exists_text {kind : ItemKind} {data rest : Bytes} {size : Nat}
    (h : Leaves kind data (.seedTooLong size) rest) :
    kind = .seed ∧ maxSeedSize < size ∧
      ∃ text : String, text.utf8ByteSize = size ∧ data = encodeText text ++ rest := by
  cases h with
  | unmoved h => exact absurd rfl (h size)
  | overlong text _ hkind hlong => exact ⟨hkind, hlong, text, rfl, rfl⟩

theorem KeepsOnError.leaves {read : Reader α} (h : KeepsOnError read) {kind : ItemKind}
    {data rest : Bytes} {e : CodecError} (herror : read data = .error e rest) :
    Leaves kind data e rest := by
  obtain ⟨rfl, he⟩ := h data e rest herror
  exact .unmoved he

theorem readSeed_leaves {data rest : Bytes} {e : CodecError} (h : readSeed data = .error e rest) :
    Leaves .seed data e rest := by
  unfold readSeed at h
  cases htext : readText data with
  | error e' mid =>
    rw [htext] at h
    cases h
    exact readText_keepsOnError.leaves htext
  | ok text mid =>
    obtain ⟨-, rfl⟩ := (readText_eq_ok_iff _ _ _).1 htext
    rw [htext] at h
    simp only [Seed.ofText] at h
    split_ifs at h with hshort
    cases h
    exact .overlong text rest rfl (Nat.lt_of_not_le hshort)

theorem ItemKind.read_leaves (kind : ItemKind) {data rest : Bytes} {e : CodecError}
    (h : kind.read data = .error e rest) : Leaves kind data e rest := by
  cases kind with
  | u8 => exact (readU8_keepsOnError.map _).leaves h
  | u32 => exact (readU32_keepsOnError.map _).leaves h
  | u64 => exact (readU64_keepsOnError.map _).leaves h
  | address => exact (readAddress_keepsOnError.map _).leaves h
  | text => exact (readText_keepsOnError.map _).leaves h
  | seed => exact readSeed_leaves ((map_eq_error_iff _ _ _ _ _).1 h)

/-! ## Scripts -/

/-- What became of a read, and what it left. -/
def ItemKind.attempt (kind : ItemKind) (data : Bytes) : Except CodecError Item × Bytes :=
  match kind.read data with
  | .ok item rest => (.ok item, rest)
  | .error e rest => (.error e, rest)

/-- The bytes that a script of reads leaves. -/
def leftAfter : List ItemKind → Bytes → Bytes
  | [], data => data
  | kind :: kinds, data => leftAfter kinds (kind.attempt data).2

/-- What became of the reads of a script. -/
def outcomes : List ItemKind → Bytes → List (Except CodecError Item)
  | [], _ => []
  | kind :: kinds, data => (kind.attempt data).1 :: outcomes kinds (kind.attempt data).2

theorem leftAfter_append (before after : List ItemKind) (data : Bytes) :
    leftAfter (before ++ after) data = leftAfter after (leftAfter before data) := by
  induction before generalizing data with
  | nil => rfl
  | cons kind before ih => simp [leftAfter, ih]

theorem outcomes_append (before after : List ItemKind) (data : Bytes) :
    outcomes (before ++ after) data =
      outcomes before data ++ outcomes after (leftAfter before data) := by
  induction before generalizing data with
  | nil => rfl
  | cons kind before ih => simp [outcomes, leftAfter, ih]

/-- A failed read that left the bytes alone can be struck from a script: of the outcomes only its own
    goes with it. -/
theorem strike_of_unmoved {before : List ItemKind} {kind : ItemKind} {data : Bytes} {e : CodecError}
    (h : kind.read (leftAfter before data) = .error e (leftAfter before data))
    (after : List ItemKind) :
    outcomes (before ++ kind :: after) data =
        outcomes before data ++ .error e :: outcomes after (leftAfter before data) ∧
      outcomes (before ++ after) data =
        outcomes before data ++ outcomes after (leftAfter before data) ∧
      leftAfter (before ++ kind :: after) data = leftAfter (before ++ after) data := by
  simp [outcomes_append, leftAfter_append, outcomes, leftAfter, ItemKind.attempt, h]

/-- Wherever a script has come to, a read that succeeds takes exactly the encoding of its item off
    the front of what is left. A read that fails leaves all of it and can be struck from the script,
    unless it is refused for the size of a seed: then the text with its size is gone. -/
theorem read_moves_exactly (data : Bytes) (before : List ItemKind) (kind : ItemKind) :
    (∀ item rest, kind.read (leftAfter before data) = .ok item rest →
        item.kind = kind ∧ leftAfter before data = item.encode ++ rest) ∧
      ∀ e rest, kind.read (leftAfter before data) = .error e rest →
        ((∀ size, e ≠ .seedTooLong size) →
          rest = leftAfter before data ∧ ∀ after,
            outcomes (before ++ kind :: after) data =
                outcomes before data ++ .error e :: outcomes after (leftAfter before data) ∧
              outcomes (before ++ after) data =
                outcomes before data ++ outcomes after (leftAfter before data) ∧
              leftAfter (before ++ kind :: after) data = leftAfter (before ++ after) data) ∧
        ∀ size, e = .seedTooLong size →
          kind = .seed ∧ maxSeedSize < size ∧ ∃ text : String, text.utf8ByteSize = size ∧
            leftAfter before data = encodeText text ++ rest := by
  refine ⟨?_, ?_⟩
  · intro item rest h
    obtain ⟨hkind, -, hdata⟩ := (kind.read_eq_ok_iff _ rest item).1 h
    exact ⟨hkind, hdata⟩
  · intro e rest h
    have hleaves := kind.read_leaves h
    refine ⟨?_, ?_⟩
    · intro he
      obtain rfl := hleaves.eq_of_forall_ne he
      exact ⟨rfl, strike_of_unmoved h⟩
    · rintro size rfl
      exact hleaves.exists_text

/-- A text of 33 letters, one more than a seed may have. -/
def overlongText : Bytes :=
  encodeText "xxxxxxxxxxxxxxxxxxxxxxxxxxxxxxxxx"

/-- A number that is cut off between two bytes, a byte, and a text that is too long for a seed. -/
theorem read_moves_exactly_cutNumber :
    (ItemKind.u32.read (leftAfter [.u8] [7, 1, 2, 3]) = .error (.truncatedInput 4 3) [1, 2, 3] ∧
        (∀ size, CodecError.truncatedInput 4 3 ≠ .seedTooLong size) ∧
        outcomes [.u8, .u32, .u8] [7, 1, 2, 3] =
          outcomes [.u8] [7, 1, 2, 3] ++ .error (.truncatedInput 4 3) ::
            outcomes [.u8] (leftAfter [.u8] [7, 1, 2, 3])) ∧
      (ItemKind.u8.read (leftAfter [] [7, 1]) = .ok (.u8 7) [1] ∧
        leftAfter [] [7, 1] = (Item.u8 7).encode ++ [1]) ∧
      ItemKind.seed.read (leftAfter [] overlongText) = .error (.seedTooLong 33) [] ∧
        maxSeedSize < 33 ∧ ∃ text : String, text.utf8ByteSize = 33 ∧
          leftAfter [] overlongText = encodeText text ++ [] := by
  have hcut : ItemKind.u32.read (leftAfter [.u8] [7, 1, 2, 3]) =
      .error (.truncatedInput 4 3) [1, 2, 3] := rfl
  have hne : ∀ size, CodecError.truncatedInput 4 3 ≠ .seedTooLong size := by simp
  have hbyte : ItemKind.u8.read (leftAfter [] [7, 1]) = .ok (.u8 7) [1] := rfl
  have hlong : ItemKind.seed.read (leftAfter [] overlongText) = .error (.seedTooLong 33) [] := rfl
  refine ⟨⟨hcut, hne, ?_⟩, ⟨hbyte, ?_⟩, hlong, ?_⟩
  · exact ((((read_moves_exactly [7, 1, 2, 3] [.u8] .u32).2 _ _ hcut).1 hne).2 [.u8]).1
  · exact ((read_moves_exactly [7, 1] [] .u8).1 _ _ hbyte).2
  · exact (((read_moves_exactly overlongText [] .seed).2 _ _ hlong).2 33 rfl).2

/-- A text that is too long for a seed is gone after the failed read: a byte that would have been
    read is missing behind it. -/
theorem overlongText_is_taken :
    ItemKind.seed.read overlongText = .error (.seedTooLong 33) [] ∧ overlongText.length = 41 ∧
      outcomes [.seed, .u8] overlongText =
        [.error (.seedTooLong 33), .error (.truncatedInput 1 0)] ∧
      outcomes [.u8] overlongText = [.ok (.u8 33)] :=
  ⟨rfl, by decide, rfl, rfl⟩

end LedgerWire.Wire
