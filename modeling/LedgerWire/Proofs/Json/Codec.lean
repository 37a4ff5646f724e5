import LedgerWire.Proofs.Json.Fields

set_option autoImplicit false

/-! # What codecs accept

Each codec succeeds on the trees that are described here, with the given result, and on no other
trees. -/

namespace LedgerWire.Json

variable {α : Type}

namespace Codec

theorem fromText_eq_ok_iff (c : Codec α) (text : String) (a : α) :
    c.fromText text = .ok a ↔ c.decode (readText text).1 = .ok a ∧ (readText text).2 = true := by
  unfold fromText
  simp only [except_bind_eq_ok_iff]
  refine ⟨?_, ?_⟩
  · intro h
    obtain ⟨b, hb, h⟩ := h
    split at h
    · rename_i hend
      cases h
      exact ⟨hb, hend⟩
    · exact absurd h (by simp [throw, throwThe, MonadExceptOf.throw])
  · intro h
    obtain ⟨ha, hend⟩ := h
    refine ⟨a, ha, ?_⟩
    rw [if_pos hend]
    rfl

/-- What is wrong with a value is reported whatever follows it. -/
theorem fromText_eq_error (c : Codec α) (text : String) (e : ReadError)
    (h : c.decode (readText text).1 = .error e) : c.fromText text = .error e := by
  show (c.decode (readText text).1 >>= _) = _
  rw [h]
  rfl

/-! ## Simple types -/

theorem value_decode_eq_ok_iff (t : Tree) (v : Json) :
    value.decode t = .ok v ↔ t.toJson? = some v := by
  unfold value
  cases htree : t.toJson? <;> simp [htree]

theorem bool_decode_eq_ok_iff (t : Tree) (b : Bool) : bool.decode t = .ok b ↔ t = .bool b := by
  unfold bool
  cases t <;> simp

theorem string_decode_eq_ok_iff (t : Tree) (s : String) :
    string.decode t = .ok s ↔ t = .string s := by
  unfold string
  cases t <;> simp

theorem u64_decode_eq_ok_iff (t : Tree) (n : UInt64) :
    u64.decode t = .ok n ↔ t = .number (.natural n) := by
  unfold u64
  cases t with
  | number m => cases m <;> simp
  | _ => simp

theorem u8_decode_eq_ok_iff (t : Tree) (n : UInt8) :
    u8.decode t = .ok n ↔ ∃ m, t = .number (.natural m) ∧ m < 256 ∧ m.toUInt8 = n := by
  unfold u8
  cases t with
  | number m =>
    cases m with
    | natural m => by_cases hm : m < 256 <;> simp [hm]
    | _ => simp
  | _ => simp

/-- An integer that is not negative is written as it was read. -/
theorem ofInt64_ofNat {n : UInt64} (h : n.toNat < 1 <<< 63) :
    Number.ofInt64 (.ofNat n.toNat) = .natural n := by
  have hint : (Int64.ofNat n.toNat).toInt = n.toNat := Int64.toInt_ofNat_of_lt h
  have hnonneg : 0 ≤ (Int64.ofNat n.toNat).toInt := by omega
  rw [Number.ofInt64, dif_pos hnonneg, hint, Int.toNat_natCast, UInt64.ofNat_toNat]

/-- A negative integer is written as it was read. -/
theorem ofInt64_ofInt_neg (n : Fin (1 <<< 63)) :
    Number.ofInt64 (.ofInt (-(n.val + 1 : Nat))) = .negative n := by
  have hlt : n.val < 2 ^ 63 := n.isLt
  have hint : (Int64.ofInt (-(n.val + 1 : Nat))).toInt = -(n.val + 1 : Nat) :=
    Int64.toInt_ofInt_of_le (by omega) (by omega)
  have hneg : ¬0 ≤ (Int64.ofInt (-(n.val + 1 : Nat))).toInt := by omega
  have hnat : (-(Int64.ofInt (-(n.val + 1 : Nat))).toInt - 1).toNat = n.val := by omega
  simp only [Number.ofInt64, dif_neg hneg, hnat]

theorem i64_decode_ofInt64 (n : Int64) : i64.decode (.number (.ofInt64 n)) = .ok n := by
  have hhigh := n.toInt_lt
  have hlow := n.le_toInt
  unfold Number.ofInt64
  split
  · rename_i hnonneg
    have hnat : (UInt64.ofNat n.toInt.toNat).toNat = n.toInt.toNat := by
      rw [UInt64.toNat_ofNat']
      omega
    have hlt : n.toInt.toNat < 1 <<< 63 := by omega
    have hn : Int64.ofNat n.toInt.toNat = n := by
      rw [← Int64.ofInt_eq_ofNat, Int.toNat_of_nonneg hnonneg, Int64.ofInt_toInt]
    simp only [i64, hnat, if_pos hlt, hn]
  · have hint : (-((-n.toInt - 1).toNat + 1 : Nat) : Int) = n.toInt := by omega
    simp only [i64, hint, Int64.ofInt_toInt]

theorem i64_decode_eq_ok_iff (t : Tree) (n : Int64) :
    i64.decode t = .ok n ↔ t = .number (.ofInt64 n) := by
  refine ⟨?_, ?_⟩
  · intro h
    cases t with
    | number m =>
      cases m with
      | natural m =>
        simp only [i64] at h
        split at h
        · rename_i hlt
          rw [← Except.ok.inj h, ofInt64_ofNat hlt]
        · exact absurd h (by simp)
      | negative m => rw [← Except.ok.inj h, ofInt64_ofInt_neg]
      | double x => exact absurd h (by simp [i64])
    | _ => exact absurd h (by simp [i64])
  · intro h
    rw [h]
    exact i64_decode_ofInt64 n

theorem key_decode_eq_ok_iff {size : Nat} (ofText : String → Except KeyError (Key size)) (t : Tree)
    (k : Key size) : (key ofText).decode t = .ok k ↔ ∃ s, t = .string s ∧ ofText s = .ok k := by
  unfold key
  cases t with
  | string s => cases hk : ofText s <;> simp [hk]
  | _ => simp

/-! ## Composed types -/

theorem nullable_decode_eq_ok_iff (c : Codec α) (t : Tree) (o : Option α) :
    c.nullable.decode t = .ok o ↔
      t = .null ∧ o = none ∨ t ≠ .null ∧ ∃ a, c.decode t = .ok a ∧ o = some a := by
  have hmap : (c.decode t).map some = .ok o ↔ ∃ a, c.decode t = .ok a ∧ o = some a := by
    rw [except_map_eq_ok_iff]
    simp only [eq_comm]
  cases t with
  | null => simp [nullable, eq_comm]
  | _ => simpa [nullable] using hmap

theorem mapM_eq_ok_iff {ε β : Type} (f : α → Except ε β) (as : List α) (bs : List β) :
    as.mapM f = .ok bs ↔ as.map f = bs.map .ok := by
  induction as generalizing bs with
  | nil =>
    rw [List.mapM_nil, List.map_nil, eq_comm (a := []), List.map_eq_nil_iff]
    refine ⟨?_, ?_⟩
    · intro h
      cases h
      rfl
    · intro h
      obtain rfl := h
      rfl
  | cons a as ih =>
    simp only [List.mapM_cons, List.map_cons, except_bind_eq_ok_iff, ih]
    refine ⟨?_, ?_⟩
    · intro h
      obtain ⟨b, hb, bs', hbs, h⟩ := h
      cases h
      rw [hb, hbs, List.map_cons]
    · intro h
      cases bs with
      | nil => exact absurd h (by simp)
      | cons b bs =>
        obtain ⟨hb, hbs⟩ := List.cons.inj h
        exact ⟨b, hb, bs, hbs, rfl⟩

theorem list_decode_eq_ok_iff (c : Codec α) (t : Tree) (as : List α) :
    c.list.decode t = .ok as ↔
      ∃ items, t = .array items true ∧ items.map c.decode = as.map .ok := by
  cases t with
  | array items closed =>
    show (items.mapM c.decode >>= fun as => if closed then pure as else throw .malformed) = _ ↔ _
    rw [except_bind_eq_ok_iff]
    cases closed with
    | true => simp [mapM_eq_ok_iff, pure, Except.pure]
    | false => simp [throw, throwThe, MonadExceptOf.throw]
  | _ => simp [list]

/-- A named form that is the only key of its object is read by the reader of its name. -/
theorem variants_decode_singleton_eq_ok_iff (encode : α → String × Json)
    (readers : List (String × (Tree → Except ReadError α))) (name : String) (t : Tree)
    (known : Bool) (a : α) :
    (variants encode readers).decode (.object [(some name, t)] true known) = .ok a ↔
      ∃ read, readers.lookup name = some read ∧ read t = .ok a := by
  unfold variants
  cases hlookup : readers.lookup name with
  | none => simp [hlookup]
  | some read =>
    cases hread : read t <;> simp [hlookup, hread, bind, Except.bind, pure, Except.pure]

/-- Other members, or the end of the text in front of the brace, are a fault. -/
theorem variants_decode_ne_ok (encode : α → String × Json)
    (readers : List (String × (Tree → Except ReadError α))) (name : String) (t : Tree)
    {others : List (Option String × Tree)} {closed : Bool} (h : ¬(others = [] ∧ closed = true))
    (known : Bool) (a : α) :
    (variants encode readers).decode (.object ((some name, t) :: others) closed known) ≠ .ok a := by
  have hend : (others.isEmpty && closed) = false := by simpa using h
  unfold variants
  cases hlookup : readers.lookup name with
  | none => simp [hlookup]
  | some read =>
    cases hextra : known && !others.isEmpty <;> cases hread : read t <;>
      simp [hlookup, hextra, hread, hend, bind, Except.bind, throw, throwThe, MonadExceptOf.throw]

/-- A named form is read from an object with a single key only. -/
theorem variants_decode_eq_ok_iff (encode : α → String × Json)
    (readers : List (String × (Tree → Except ReadError α))) (t : Tree) (a : α) :
    (variants encode readers).decode t = .ok a ↔
      ∃ name u known read, t = .object [(some name, u)] true known ∧
        readers.lookup name = some read ∧ read u = .ok a := by
  constructor
  · intro h
    match t with
    | .object ((some name, u) :: others) closed known =>
      by_cases hsingle : others = [] ∧ closed = true
      · obtain ⟨rfl, rfl⟩ := hsingle
        obtain ⟨read, hread⟩ :=
          (variants_decode_singleton_eq_ok_iff encode readers name u known a).1 h
        exact ⟨name, u, known, read, rfl, hread⟩
      · exact absurd h (variants_decode_ne_ok encode readers name u hsingle known a)
    | .object [] _ _ | .object ((none, _) :: _) _ _ => exact absurd h (by simp [variants])
    | .null | .bool _ | .number _ | .string _ | .array _ _ | .unfit | .broken =>
      exact absurd h (by simp [variants])
  · rintro ⟨name, u, known, read, rfl, hread⟩
    exact (variants_decode_singleton_eq_ok_iff encode readers name u known a).2 ⟨read, hread⟩

end Codec

/-! ## Names -/

namespace Names

theorem find_eq_ok_iff (names : Names α) (h : ∀ a, names.find (names.name a) = .ok a) (s : String)
    (a : α) : names.find s = .ok a ↔ s = names.name a := by
  refine ⟨?_, fun hs => hs ▸ h a⟩
  intro hfind
  unfold find at hfind
  split at hfind
  · rename_i b hb
    cases hfind
    have hname := List.find?_some hb
    exact (of_decide_eq_true hname).symm
  · exact absurd hfind (by simp)

/-- A name may stand alone or be the key of a null. -/
theorem decode_eq_ok_iff (names : Names α) (h : ∀ a, names.find (names.name a) = .ok a) (t : Tree)
    (a : α) :
    names.codec.decode t = .ok a ↔
      t = .string (names.name a) ∨
        ∃ known, t = .object [(some (names.name a), .null)] true known := by
  simp only [codec]
  split
  · simp [names.find_eq_ok_iff h]
  · simp [names.find_eq_ok_iff h]
  · rename_i hstring hobject
    simp only [reduceCtorEq, false_iff, not_or, not_exists]
    exact ⟨hstring _, fun known => hobject _ known⟩

end Names

/-! ## Fields -/

theorem Field.setAside_decode_eq_ok_iff (f : Field α) (t : Tree) (a : α) :
    f.setAside.codec.decode t = .ok a ↔ t.toJson?.isSome = true ∧ f.codec.decode t = .ok a := by
  unfold setAside
  cases htree : t.toJson? <;> simp [htree]

/-- A required field has the value that was written. -/
theorem Field.required_takes_iff (key : String) (c : Codec α) (a : α) (part : Option Tree) :
    (required key c).Takes none a part ↔ ∃ t, part = some t ∧ c.decode t = .ok a := by
  cases part <;> simp [Takes, required]

/-- An optional field has the value that was written, if it is not null. -/
theorem Field.optional_takes_iff (key : String) (c : Codec α) (o : Option α) (part : Option Tree) :
    (optional key c).Takes (some none) o part ↔
      match part with
      | none | some .null => o = none
      | some t => ∃ a, c.decode t = .ok a ∧ o = some a := by
  cases part with
  | none => simp [Takes, eq_comm]
  | some t =>
    show c.nullable.decode t = .ok o ↔ _
    rw [Codec.nullable_decode_eq_ok_iff]
    cases t <;> simp

/-- An optional field has a value only if one was written. -/
theorem Field.exists_eq_some_of_optional_takes {key : String} {c : Codec α} {a : α}
    {part : Option Tree} (h : (optional key c).Takes (some none) (some a) part) :
    ∃ t, part = some t ∧ c.decode t = .ok a := by
  rw [optional_takes_iff] at h
  split at h
  · exact absurd h (by simp)
  · exact absurd h (by simp)
  · obtain ⟨b, hb, h⟩ := h
    rw [Option.some.inj h]
    exact ⟨_, rfl, hb⟩

/-! ## Records -/

theorem Record.decode_object_eq_ok_iff {σ : Type} (r : Record σ) (hnodup : r.fields.keys.Nodup)
    (members : List (Option String × Tree)) (closed known : Bool) (s : σ) :
    r.codec.decode (.object members closed known) = .ok s ↔
      closed = true ∧ r.fields.Admits Tree.isGrammatical members ∧
        ∃ row, r.fields.Reads members row ∧ r.ofRow row = s := by
  show (r.fields.readObject _ members closed).map r.ofRow = .ok s ↔ _
  rw [except_map_eq_ok_iff]
  simp only [r.fields.readObject_eq_ok_iff hnodup, and_assoc, exists_and_left]

theorem Record.decode_array_eq_ok_iff {σ : Type} (r : Record σ) (items : List Tree) (closed : Bool)
    (s : σ) :
    r.codec.decode (.array items closed) = .ok s ↔
      closed = true ∧ ∃ row, r.fields.TakesItems items row ∧ r.ofRow row = s := by
  show (r.fields.readArray items closed).map r.ofRow = .ok s ↔ _
  rw [except_map_eq_ok_iff]
  simp only [r.fields.readArray_eq_ok_iff, and_assoc, exists_and_left]

end LedgerWire.Json
