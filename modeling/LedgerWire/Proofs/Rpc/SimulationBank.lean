import LedgerWire.Proofs.Rpc.Options

set_option autoImplicit false

/-! # The shapes of a bank

A bank is read from the shape it is sent as. Which text, keys and numbers there are is looked at
strictly, but the name of a commitment is left to the reader of commitments, which takes the name
also as the key of a null. So each commitment has a second shape that is accepted and never sent. -/

namespace LedgerWire.Rpc.SimulationBank

open Json (Tree)

/-- The shape of a commitment with its name as the key of a null. -/
def keyedShape (level : Commitment) : Json :=
  .object [("commitment", .object [("commitment", .object [(Commitment.names.name level, .null)])])]

theorem ofMembers_eq_singleton_null_iff (known : Bool) (key : String)
    (members : List (String × Json)) :
    Tree.ofMembers known members = [(some key, .null)] ↔ members = [(key, .null)] := by
  match members with
  | [] => simp [Tree.ofMembers]
  | [(k, v)] => cases v <;> simp [Tree.ofMembers, Tree.ofJson]
  | _ :: _ :: _ => simp [Tree.ofMembers]

theorem commitment_fromJson_eq_ok_iff (value : Json) (level : Commitment) :
    Commitment.codec.fromJson value = .ok level ↔
      value = Commitment.codec.encode level ∨
        value = .object [(Commitment.names.name level, .null)] := by
  unfold Json.Codec.fromJson Commitment.codec
  rw [Json.Names.decode_eq_ok_iff _ Commitment.find_name]
  cases value with
  | object members => simp [Tree.ofJson, Json.Names.codec, ofMembers_eq_singleton_null_iff]
  | _ => simp [Tree.ofJson, Json.Names.codec]

theorem ofJson?_eq_some_iff (value : Json) (bank : SimulationBank) :
    ofJson? value = some bank ↔
      value = bank.toJson ∨ ∃ level, bank = commitment level ∧ value = keyedShape level := by
  refine ⟨?_, ?_⟩
  · intro h
    unfold ofJson? at h
    split at h
    · cases h
      exact Or.inl rfl
    · cases h
      exact Or.inl rfl
    · rename_i inner
      split at h
      · rename_i level hlevel
        cases h
        rcases (commitment_fromJson_eq_ok_iff inner level).1 hlevel with rfl | rfl
        · exact Or.inl rfl
        · exact Or.inr ⟨level, rfl, rfl⟩
      · exact absurd h (by simp)
    · exact absurd h (by simp)
  · rintro (rfl | ⟨level, rfl, rfl⟩)
    · exact ofJson?_toJson bank
    · cases level <;> rfl

theorem keyedShape_ne_toJson (level : Commitment) (bank : SimulationBank) :
    keyedShape level ≠ bank.toJson := by
  cases bank with
  | tip => simp [keyedShape, toJson]
  | slot n => simp [keyedShape, toJson]
  | commitment other => simp [keyedShape, toJson, Commitment.codec, Json.Names.codec]

theorem ofJson_eq_ok_iff (value : Json) (bank : SimulationBank) :
    ofJson value = .ok bank ↔
      value = bank.toJson ∨ ∃ level, bank = commitment level ∧ value = keyedShape level := by
  rw [← ofJson?_eq_some_iff, ofJson]
  cases ofJson? value <;> simp

theorem exists_eq_toJson_iff (value : Json) :
    (∃ bank : SimulationBank, value = bank.toJson) ↔
      value = .string "tip" ∨ (∃ n, value = .object [("slot", .number (.natural n))]) ∨
        ∃ name ∈ ["processed", "confirmed", "finalized"],
          value = .object [("commitment", .object [("commitment", .string name)])] := by
  refine ⟨?_, ?_⟩
  · rintro ⟨bank, rfl⟩
    cases bank with
    | tip => exact Or.inl rfl
    | slot n => exact Or.inr (Or.inl ⟨n, rfl⟩)
    | commitment level =>
      refine Or.inr (Or.inr ⟨Commitment.names.name level, ?_, rfl⟩)
      cases level <;> simp [Commitment.names]
  · rintro (rfl | ⟨n, rfl⟩ | ⟨name, hname, rfl⟩)
    · exact ⟨tip, rfl⟩
    · exact ⟨slot n, rfl⟩
    · simp only [List.mem_cons, List.not_mem_nil, or_false] at hname
      rcases hname with rfl | rfl | rfl
      · exact ⟨commitment .processed, rfl⟩
      · exact ⟨commitment .confirmed, rfl⟩
      · exact ⟨commitment .finalized, rfl⟩

/-- A value is accepted as a bank exactly if it is the shape of the bank or, for a commitment, its
    keyed shape, and every other value is refused and shown. So only the keyed shapes are accepted
    without being sent. -/
theorem ofJson_accepts_shapes (value : Json) :
    (∀ bank, ofJson value = .ok bank ↔
        value = bank.toJson ∨ ∃ level, bank = commitment level ∧ value = keyedShape level) ∧
      ((∃ bank, ofJson value = .ok bank) ∨
        ofJson value = .error (.invalidUnionVariant "simulationBank" value)) ∧
      (RpcError.invalidUnionVariant "simulationBank" value).message? =
        some ("Invalid value for simulationBank: " ++ value.text) ∧
      ((∃ bank : SimulationBank, value = bank.toJson) ↔
        value = .string "tip" ∨ (∃ n, value = .object [("slot", .number (.natural n))]) ∨
          ∃ name ∈ ["processed", "confirmed", "finalized"],
            value = .object [("commitment", .object [("commitment", .string name)])]) ∧
      ((∀ bank, ofJson value = .ok bank ↔ value = bank.toJson) ↔
        ∀ level, value ≠ keyedShape level) := by
  refine ⟨ofJson_eq_ok_iff value, ?_, rfl, exists_eq_toJson_iff value, ?_⟩
  · rw [ofJson]
    cases ofJson? value with
    | none => exact Or.inr rfl
    | some bank => exact Or.inl ⟨bank, rfl⟩
  · simp only [ofJson_eq_ok_iff]
    refine ⟨?_, ?_⟩
    · rintro h level rfl
      exact keyedShape_ne_toJson level _ ((h (commitment level)).1 (Or.inr ⟨level, rfl, rfl⟩))
    · intro h bank
      refine or_iff_left ?_
      rintro ⟨level, -, hlevel⟩
      exact h level hlevel

/-- The name of a commitment is accepted as the key of a null. -/
theorem ofJson_keyed_confirmed :
    ofJson (.object [("commitment", .object [("commitment", .object [("confirmed", .null)])])]) =
        .ok (commitment .confirmed) ∧
      .object [("commitment", .object [("commitment", .object [("confirmed", .null)])])] ≠
        (commitment .confirmed).toJson :=
  ⟨rfl, keyedShape_ne_toJson .confirmed (commitment .confirmed)⟩

end LedgerWire.Rpc.SimulationBank
