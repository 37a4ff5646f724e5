import LedgerWire.Proofs.Json.Codec
import LedgerWire.Proofs.Json.Text
import LedgerWire.Proofs.KeyText

set_option autoImplicit false

/-! # Codecs that read what they write

A codec restores a value if it reads the value again from what it has written for it, be it from the
text or from a JSON value, and it is faithful if it restores every value. Each way of building
codecs keeps this. An optional value is written as its contents or as
null, so its contents must not be written as null themselves; a codec that never writes null is
called solid. -/

namespace LedgerWire.Json

variable {α : Type} {αs : List Type} {depth : Nat}

/-! ## Values as trees -/

theorem Tree.ofMembers_eq_map (known : Bool) (members : List (String × Json)) :
    ofMembers known members = members.map fun m => (some m.1, ofJson known m.2) := by
  induction members with
  | nil => rfl
  | cons m ms ih => rw [ofMembers, ih, List.map_cons]

theorem itemsToJson?_ofItems {items : List Json} (known : Bool)
    (h : ∀ v ∈ items, (Tree.ofJson known v).toJson? = some v) :
    Tree.itemsToJson? (Tree.ofItems known items) = some items := by
  induction items with
  | nil => rfl
  | cons v vs ih =>
    obtain ⟨hv, hvs⟩ := List.forall_mem_cons.1 h
    rw [Tree.ofItems, Tree.itemsToJson?, hv, ih hvs]

theorem membersToJson?_ofMembers {before members : List (String × Json)} (known : Bool)
    (hkeys : ((before ++ members).map Prod.fst).Nodup)
    (h : ∀ m ∈ members, (Tree.ofJson known m.2).toJson? = some m.2) :
    Tree.membersToJson? before (Tree.ofMembers known members) = some (before ++ members) := by
  induction members generalizing before with
  | nil =>
    rw [List.append_nil]
    rfl
  | cons m members ih =>
    obtain ⟨key, v⟩ := m
    obtain ⟨hv, hmembers⟩ := List.forall_mem_cons.1 h
    have hfresh : ∀ m ∈ before, m.1 ≠ key := by
      rw [List.map_append, List.nodup_append] at hkeys
      intro m hm
      exact hkeys.2.2 m.1 (List.mem_map_of_mem hm) key List.mem_cons_self
    rw [List.append_cons] at hkeys ⊢
    simp only [Tree.ofMembers, Tree.membersToJson?, hv]
    rw [insert_of_forall_ne hfresh]
    exact ih hkeys hmembers

/-- As no key comes up twice, a value is read back from its tree without any change. -/
theorem Plain.toJson?_ofJson {v : Json} (h : Plain depth v) (known : Bool) :
    (Tree.ofJson known v).toJson? = some v := by
  induction h with
  | null => rfl
  | bool b => rfl
  | number n hn => rfl
  | string s => rfl
  | array items _ ih =>
    rw [Tree.ofJson, Tree.toJson?, itemsToJson?_ofItems known ih]
    rfl
  | object members hkeys _ ih =>
    have hnodup : (([] ++ members).map Prod.fst).Nodup := hkeys
    have hmembers := membersToJson?_ofMembers known hnodup ih
    rw [Tree.ofJson, Tree.toJson?, hmembers]
    rfl

namespace Codec

/-- What is written for this value is read again. -/
structure Restores (depth : Nat) (c : Codec α) (a : α) : Prop where
  plain_encode : Plain depth (c.encode a)
  decode_encode : ∀ known, c.decode (Tree.ofJson known (c.encode a)) = .ok a

/-- What is written is read again. -/
structure Faithful (depth : Nat) (c : Codec α) : Prop where
  plain_encode : ∀ a, Plain depth (c.encode a)
  decode_encode : ∀ known a, c.decode (Tree.ofJson known (c.encode a)) = .ok a

/-- What is written is read again, and is not null. -/
structure Solid (depth : Nat) (c : Codec α) : Prop extends Faithful depth c where
  encode_ne_null : ∀ a, c.encode a ≠ .null

theorem Faithful.restores {c : Codec α} (h : Faithful depth c) (a : α) : c.Restores depth a :=
  ⟨h.plain_encode a, fun known => h.decode_encode known a⟩

theorem fromText_text (c : Codec α) {v : Json} (h : Plain maxDepth v) :
    c.fromText v.text = c.decode (Tree.ofJson false v) := by
  rw [fromText, readText_text v h]
  exact bind_pure _

/-- A value is read again from its text. -/
theorem Restores.fromText_toText {c : Codec α} {a : α} (h : c.Restores maxDepth a) :
    c.fromText (c.toText a) = .ok a := by
  rw [toText, c.fromText_text h.plain_encode]
  exact h.decode_encode false

theorem Faithful.map_decode_encode {β : Type} {c : Codec α} (h : Faithful depth c) (f : α → β)
    (known : Bool) (a : α) :
    (c.decode (Tree.ofJson known (c.encode a))).map f = .ok (f a) := by
  rw [h.decode_encode]
  rfl

/-! ## Simple types -/

theorem value_restores {v : Json} (h : Plain depth v) : value.Restores depth v where
  plain_encode := h
  decode_encode known := (value_decode_eq_ok_iff _ v).2 (h.toJson?_ofJson known)

theorem bool_solid : Solid depth bool where
  plain_encode b := .bool b
  decode_encode _ _ := rfl
  encode_ne_null _ := by simp [bool]

theorem string_solid : Solid depth string where
  plain_encode s := .string s
  decode_encode _ _ := rfl
  encode_ne_null _ := by simp [string]

theorem u64_solid : Solid depth u64 where
  plain_encode n := .number (.natural n) trivial
  decode_encode _ _ := rfl
  encode_ne_null _ := by simp [u64, natural]

theorem u8_solid : Solid depth u8 where
  plain_encode n := .number (.natural n.toUInt64) trivial
  decode_encode _ n := by
    have hlt : n.toUInt64 < 256 := by
      rw [UInt64.lt_iff_toNat_lt, UInt8.toNat_toUInt64]
      exact n.toNat_lt
    exact (u8_decode_eq_ok_iff _ n).2 ⟨n.toUInt64, rfl, hlt, UInt8.toUInt8_toUInt64 n⟩
  encode_ne_null _ := by simp [u8, natural]

theorem i64_solid : Solid depth i64 where
  plain_encode n := by
    refine .number _ ?_
    unfold Number.ofInt64
    split <;> trivial
  decode_encode _ n := (i64_decode_eq_ok_iff _ n).2 rfl
  encode_ne_null _ := by simp [i64]

theorem key_solid {size : Nat} (ofText : String → Except KeyError (Key size))
    (h : ∀ k, ofText k.toText = .ok k) : Solid depth (key ofText) where
  plain_encode k := .string k.toText
  decode_encode _ k := (key_decode_eq_ok_iff ofText _ k).2 ⟨k.toText, rfl, h k⟩
  encode_ne_null _ := by simp [key]

theorem address_solid : Solid depth address :=
  key_solid _ fun a => (Address.ofText_eq_ok_iff _ a).2 rfl

theorem signature_solid : Solid depth signature :=
  key_solid _ fun s => (Signature.ofText_eq_ok_iff _ s).2 rfl

/-! ## Composed types -/

theorem Faithful.list {c : Codec α} (h : Faithful depth c) : Solid (depth + 1) c.list where
  plain_encode as := by
    refine .array _ ?_
    intro v hv
    obtain ⟨a, -, rfl⟩ := List.mem_map.1 hv
    exact h.plain_encode a
  decode_encode known as := by
    rw [list_decode_eq_ok_iff]
    refine ⟨_, rfl, ?_⟩
    induction as with
    | nil => rfl
    | cons a as ih =>
      rw [List.map_cons, Tree.ofItems, List.map_cons, List.map_cons, h.decode_encode, ih]
  encode_ne_null _ := by simp [Codec.list]

theorem ofJson_ne_null (known : Bool) {v : Json} (hv : v ≠ .null) :
    Tree.ofJson known v ≠ .null := by
  cases v with
  | null => exact absurd rfl hv
  | _ => simp [Tree.ofJson]

theorem Solid.nullable {c : Codec α} (h : Solid depth c) : Faithful depth c.nullable where
  plain_encode o := by
    cases o with
    | none => exact .null
    | some a => exact h.plain_encode a
  decode_encode known o := by
    rw [nullable_decode_eq_ok_iff]
    cases o with
    | none => exact Or.inl ⟨rfl, rfl⟩
    | some a =>
      -- contents that are never null are not taken for none
      exact Or.inr ⟨ofJson_ne_null known (h.encode_ne_null a), a, h.decode_encode known a, rfl⟩

/-- Named forms are faithful if the reader of each name reads the contents that go with it. -/
theorem variants_solid (encode : α → String × Json)
    (readers : List (String × (Tree → Except ReadError α)))
    (hplain : ∀ a, Plain depth (encode a).2)
    (hread : ∀ known a, ∃ read, readers.lookup (encode a).1 = some read ∧
      read (Tree.ofJson known (encode a).2) = .ok a) :
    Solid (depth + 1) (variants encode readers) where
  plain_encode a := .object_singleton _ (hplain a)
  decode_encode known a :=
    (variants_decode_singleton_eq_ok_iff encode readers _ _ known a).2 (hread known a)
  encode_ne_null _ := by simp [variants]

end Codec

namespace Names

theorem codec_solid (names : Names α) (h : ∀ a, names.find (names.name a) = .ok a) :
    names.codec.Solid depth where
  plain_encode a := .string (names.name a)
  decode_encode _ a := h a
  encode_ne_null _ := by simp [codec]

theorem laxCodec_solid (names : Names α) (h : ∀ a, names.find (names.name a) = .ok a) :
    names.laxCodec.Solid depth where
  plain_encode a := .string (names.name a)
  decode_encode _ a := h a
  encode_ne_null _ := by simp [laxCodec, codec]

end Names

/-! ## Fields -/

namespace Field

/-- What is written for this value of a field is read again, and if the value is left out, it is
    what the absence of the field means. -/
structure Restores (depth : Nat) (f : Field α) (a : α) : Prop where
  kept : f.isOmitted a = false → f.codec.Restores depth a
  absent_eq : f.isOmitted a = true → f.absent = some a

/-- Every value of the field is restored. -/
def Faithful (depth : Nat) (f : Field α) : Prop :=
  ∀ a, f.Restores depth a

theorem required_faithful (key : String) {c : Codec α} (h : c.Faithful depth) :
    (required key c).Faithful depth := by
  intro a
  exact ⟨fun _ => h.restores a, fun homitted => absurd homitted (by simp [required])⟩

theorem defaulted_faithful (key : String) {c : Codec α} (h : c.Faithful depth) (value : α) :
    (defaulted key c value).Faithful depth := by
  intro a
  exact ⟨fun _ => h.restores a, fun homitted => absurd homitted (by simp [defaulted])⟩

theorem optional_faithful (key : String) {c : Codec α} (h : c.Solid depth) :
    (optional key c).Faithful depth := by
  intro o
  refine ⟨fun _ => h.nullable.restores o, ?_⟩
  intro homitted
  rw [Option.isNone_iff_eq_none.1 homitted]
  rfl

theorem nullable_faithful (key : String) {c : Codec α} (h : c.Solid depth) :
    (nullable key c).Faithful depth := by
  intro o
  exact ⟨fun _ => h.nullable.restores o, fun homitted => absurd homitted (by simp [nullable])⟩

theorem setAside_faithful {f : Field α} (h : f.Faithful depth) : f.setAside.Faithful depth := by
  intro a
  refine ⟨?_, (h a).absent_eq⟩
  intro hkept
  have hrestores := (h a).kept hkept
  refine ⟨hrestores.plain_encode, ?_⟩
  intro known
  have hvalue : (Tree.ofJson known (f.codec.encode a)).toJson?.isSome = true := by
    rw [hrestores.plain_encode.toJson?_ofJson]
    rfl
  exact (f.setAside_decode_eq_ok_iff _ a).2 ⟨hvalue, hrestores.decode_encode known⟩

end Field

namespace Fields

/-- Each field restores its value. -/
def Restores (depth : Nat) : {αs : List Type} → Fields αs → Row αs → Prop
  | _, nil, () => True
  | _, cons f fs, (a, as) => f.Restores depth a ∧ fs.Restores depth as

/-- All fields are faithful. -/
def Faithful (depth : Nat) : {αs : List Type} → Fields αs → Prop
  | _, nil => True
  | _, cons f fs => f.Faithful depth ∧ fs.Faithful depth

theorem Faithful.restores {fs : Fields αs} (h : fs.Faithful depth) (row : Row αs) :
    fs.Restores depth row := by
  induction fs with
  | nil => trivial
  | cons f fs ih =>
    obtain ⟨a, as⟩ := row
    exact ⟨h.1 a, ih h.2 as⟩

theorem mem_keys_of_mem_write (fs : Fields αs) (row : Row αs) :
    ∀ m ∈ fs.write row, m.1 ∈ fs.keys := by
  induction fs with
  | nil =>
    intro m hm
    exact absurd hm List.not_mem_nil
  | cons f fs ih =>
    obtain ⟨a, as⟩ := row
    intro m hm
    rw [write] at hm
    split at hm
    · exact List.mem_cons_of_mem _ (ih as m hm)
    · rcases List.mem_cons.1 hm with rfl | hm
      · exact List.mem_cons_self
      · exact List.mem_cons_of_mem _ (ih as m hm)

/-- No key is written twice. -/
theorem nodup_keys_write (fs : Fields αs) (hnodup : fs.keys.Nodup) (row : Row αs) :
    ((fs.write row).map Prod.fst).Nodup := by
  induction fs with
  | nil => exact List.nodup_nil
  | cons f fs ih =>
    obtain ⟨a, as⟩ := row
    obtain ⟨hfresh, hnodup⟩ := List.nodup_cons.1 hnodup
    rw [write]
    split
    · exact ih hnodup as
    · rw [List.map_cons, List.nodup_cons]
      refine ⟨?_, ih hnodup as⟩
      intro hmem
      obtain ⟨m, hm, hkey⟩ := List.mem_map.1 hmem
      have hmem := fs.mem_keys_of_mem_write as m hm
      rw [hkey] at hmem
      exact hfresh hmem

theorem plain_of_mem_write (fs : Fields αs) (row : Row αs) (hrow : fs.Restores depth row) :
    ∀ m ∈ fs.write row, Plain depth m.2 := by
  induction fs with
  | nil =>
    intro m hm
    exact absurd hm List.not_mem_nil
  | cons f fs ih =>
    obtain ⟨a, as⟩ := row
    obtain ⟨ha, has⟩ := hrow
    intro m hm
    rw [write] at hm
    split at hm
    · exact ih as has m hm
    · rename_i hkept
      rcases List.mem_cons.1 hm with rfl | hm
      · exact (ha.kept (Bool.eq_false_iff.2 hkept)).plain_encode
      · exact ih as has m hm

theorem reads_cons_iff_of_not_mem (fs : Fields αs) {key : String} (hkey : key ∉ fs.keys) (t : Tree)
    (members : List (Option String × Tree)) (row : Row αs) :
    fs.Reads ((some key, t) :: members) row ↔ fs.Reads members row := by
  induction fs with
  | nil => rfl
  | cons f fs ih =>
    obtain ⟨hne, hkey⟩ := List.ne_and_not_mem_of_not_mem_cons hkey
    obtain ⟨a, as⟩ := row
    rw [Reads, Reads, ih hkey, contentsOf_cons_of_ne hne]

theorem contentsOf_ofMembers (known : Bool) (key : String) (members : List (String × Json))
    (h : ∀ m ∈ members, m.1 ≠ key) : contentsOf key (Tree.ofMembers known members) = [] := by
  induction members with
  | nil => rfl
  | cons m members ih =>
    obtain ⟨k, v⟩ := m
    rw [Tree.ofMembers, contentsOf_cons_of_ne (h _ List.mem_cons_self)]
    exact ih fun m hm => h m (List.mem_cons_of_mem _ hm)

/-- The members that are written for some values are read as these values. -/
theorem reads_write (fs : Fields αs) (hnodup : fs.keys.Nodup) (known : Bool) (row : Row αs)
    (hrow : fs.Restores depth row) : fs.Reads (Tree.ofMembers known (fs.write row)) row := by
  induction fs with
  | nil => trivial
  | cons f fs ih =>
    obtain ⟨a, as⟩ := row
    obtain ⟨ha, has⟩ := hrow
    obtain ⟨hfresh, hnodup⟩ := List.nodup_cons.1 hnodup
    -- as keys differ, no other field is written under the key of this one
    have hothers : contentsOf f.key (Tree.ofMembers known (fs.write as)) = [] := by
      refine contentsOf_ofMembers known f.key _ ?_
      intro m hm hkey
      exact hfresh (hkey ▸ fs.mem_keys_of_mem_write as m hm)
    rw [write]
    split
    · rename_i homitted
      rw [Reads, hothers]
      exact ⟨ha.absent_eq homitted, ih hnodup as has⟩
    · rename_i hkept
      rw [Tree.ofMembers, Reads, contentsOf_cons_self, hothers, reads_cons_iff_of_not_mem fs hfresh]
      exact ⟨(ha.kept (Bool.eq_false_iff.2 hkept)).decode_encode known, ih hnodup as has⟩

theorem readObject_write (fs : Fields αs) (hnodup : fs.keys.Nodup) (skip : Tree → Bool)
    (known : Bool) (row : Row αs) (hrow : fs.Restores depth row) :
    fs.readObject skip (Tree.ofMembers known (fs.write row)) true = .ok row := by
  rw [fs.readObject_eq_ok_iff hnodup]
  refine ⟨rfl, ?_, fs.reads_write hnodup known row hrow⟩
  intro m hm
  rw [Tree.ofMembers_eq_map] at hm
  obtain ⟨n, hn, rfl⟩ := List.mem_map.1 hm
  exact ⟨n.1, rfl, fun hkey => absurd (fs.mem_keys_of_mem_write row n hn) hkey⟩

end Fields

/-! ## Records -/

namespace Record

variable {σ : Type} {r : Record σ}

theorem plain_object_members (hnodup : r.fields.keys.Nodup) (s : σ)
    (hfields : r.fields.Restores depth (r.toRow s)) : Plain (depth + 1) (.object (r.members s)) :=
  .object _ (r.fields.nodup_keys_write hnodup _) (r.fields.plain_of_mem_write _ hfields)

theorem map_readObject_members (hnodup : r.fields.keys.Nodup) (s : σ)
    (hfields : r.fields.Restores depth (r.toRow s)) (hrow : r.ofRow (r.toRow s) = s)
    (skip : Tree → Bool) (known : Bool) :
    (r.fields.readObject skip (Tree.ofMembers known (r.members s)) true).map r.ofRow = .ok s := by
  rw [members, r.fields.readObject_write hnodup skip known _ hfields]
  exact congrArg Except.ok hrow

theorem codec_restores (hnodup : r.fields.keys.Nodup) (s : σ)
    (hfields : r.fields.Restores depth (r.toRow s)) (hrow : r.ofRow (r.toRow s) = s) :
    r.codec.Restores (depth + 1) s where
  plain_encode := plain_object_members hnodup s hfields
  decode_encode known := map_readObject_members hnodup s hfields hrow _ known

theorem codec_solid (hnodup : r.fields.keys.Nodup) (hfields : r.fields.Faithful depth)
    (hrow : ∀ s, r.ofRow (r.toRow s) = s) : r.codec.Solid (depth + 1) where
  plain_encode s := (codec_restores hnodup s (hfields.restores _) (hrow s)).plain_encode
  decode_encode known s :=
    (codec_restores hnodup s (hfields.restores _) (hrow s)).decode_encode known
  encode_ne_null _ := by simp [codec]

theorem mergedCodec_solid (hnodup : r.fields.keys.Nodup) (hfields : r.fields.Faithful depth)
    (hrow : ∀ s, r.ofRow (r.toRow s) = s) : r.mergedCodec.Solid (depth + 1) where
  plain_encode s := plain_object_members hnodup s (hfields.restores _)
  decode_encode known s := map_readObject_members hnodup s (hfields.restores _) (hrow s) _ known
  encode_ne_null _ := by simp [mergedCodec]

end Record

end LedgerWire.Json
