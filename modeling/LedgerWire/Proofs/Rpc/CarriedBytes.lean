import LedgerWire.Proofs.Rpc.Envelopes
import LedgerWire.Proofs.Rpc.Identity
import Mathlib.Data.List.Forall2

set_option autoImplicit false

/-! # Bytes that travel as text

Transactions and the bytes of a pattern travel as text, and what stands beside the text says how it is
to be read: the encoding among the options of the call, or the encoding of the pattern. Whatever the
bytes are, they are read back from the text in this way. Transactions are only written as Base58 if
the options say so, by either of its names. For every other encoding, and where none is named, they
are written as Base64. -/

namespace LedgerWire.Rpc

open Json (Codec)

/-! ## Transactions -/

/-- A text gives back the bytes of a transaction, read as the encoding that is named asks for. -/
structure StandsFor (encoding : Option TransactionEncoding) (text : String) (bytes : Bytes) :
    Prop where
  base58 : encoding = some .base58 ∨ encoding = some .binary → Base58.decode text = .ok bytes
  base64 : ¬(encoding = some .base58 ∨ encoding = some .binary) →
    Base64.decode? text = some bytes

theorem standsFor_transactionText (encoding : Option TransactionEncoding) (bytes : Bytes) :
    StandsFor encoding (Call.transactionText encoding bytes) bytes where
  base58 h := by
    have htext : Call.transactionText encoding bytes = Base58.encode bytes := by
      rcases h with rfl | rfl <;> rfl
    rw [htext, Base58.decode_eq_ok_iff]
  base64 h := by
    have htext : Call.transactionText encoding bytes = Base64.encode bytes := by
      unfold Call.transactionText
      split
      · exact absurd (.inl rfl) h
      · exact absurd (.inr rfl) h
      · rfl
    rw [htext, Base64.decode?_encode]

/-- A value is a transaction as text. -/
def IsTransaction (encoding : Option TransactionEncoding) (bytes : Bytes) (value : Json) : Prop :=
  ∃ text, value = .string text ∧ StandsFor encoding text bytes

/-- A value is a bundle, with one text for each transaction in order. -/
def IsBundle (encoding : Option TransactionEncoding) (transactions : List Bytes) (value : Json) :
    Prop :=
  ∃ texts : List String,
    value = .object [("encodedTransactions", .array (texts.map .string))] ∧
      List.Forall₂ (StandsFor encoding) texts transactions

theorem isBundle_transactionTexts (encoding : Option TransactionEncoding)
    (transactions : List Bytes) :
    IsBundle encoding transactions (.object [("encodedTransactions", .array
      (transactions.map fun t => .string (Call.transactionText encoding t)))]) := by
  refine ⟨transactions.map (Call.transactionText encoding), ?_, ?_⟩
  · rw [List.map_map]
    rfl
  · rw [List.forall₂_map_left_iff, List.forall₂_same]
    exact fun t _ => standsFor_transactionText encoding t

/-! ## The encoding that is named -/

/-- The member of the options behind the first argument that has this key. -/
def namedBeside (key : String) (params : List Json) : Option Json :=
  params[1]?.bind (Json.member? key)

/-- The name of an encoding, if there is one. -/
def encodingName (encoding : Option TransactionEncoding) : Option Json :=
  encoding.map fun e => .string (TransactionEncoding.names.name e)

theorem SendOptions.member?_encoding (o : SendOptions) :
    (codec.encode o).member? "encoding" = encodingName o.encoding := by
  obtain ⟨_, commitment, encoding, retries, slot⟩ := o
  -- the key is looked for among the members that are there, so which fields are set matters
  cases commitment <;> cases encoding <;> cases retries <;> cases slot <;> rfl

theorem SimulateOptions.member?_encoding (o : SimulateOptions) :
    (codec.encode o).member? "encoding" = encodingName o.encoding := by
  obtain ⟨_, _, commitment, encoding, accounts, slot, _⟩ := o
  cases commitment <;> cases encoding <;> cases accounts <;> cases slot <;> rfl

theorem BundleOptions.member?_transactionEncoding (o : BundleOptions) :
    (codec.encode o).member? "transactionEncoding" = encodingName o.transactionEncoding := by
  obtain ⟨_, _, encoding, bank, _, _⟩ := o
  cases encoding <;> cases bank <;> rfl

/-- Options name what their member with this key is, and where there are none nothing is named. -/
theorem namedBeside_optionsParam {β : Type} (c : Codec β) (key : String)
    (encoding : β → Option TransactionEncoding)
    (h : ∀ o, (c.encode o).member? key = encodingName (encoding o)) (front : Json)
    (options : Option β) :
    namedBeside key (front :: Call.optionsParam c options) =
      encodingName (options.bind encoding) := by
  cases options with
  | none => rfl
  | some o => exact h o

/-! ## Calls and patterns -/

/-- The arguments of a call start with some bytes as text, and the options behind them name the
    encoding in which they are read. -/
structure CarriedBeside (IsCarried : Json → Prop) (key : String)
    (encoding : Option TransactionEncoding) (params : List Json) : Prop where
  front : ∃ value, params[0]? = some value ∧ IsCarried value
  named : namedBeside key params = encodingName encoding

/-- The bytes of a pattern, read as its encoding says. -/
def BytePattern.bytes? (p : BytePattern) : Option Bytes :=
  match p.encoding with
  | .base58 => (Base58.decode p.text).toOption
  | .base64 => Base64.decode? p.text

/-- Whatever transaction is sent or simulated, alone or in a bundle, and with whatever options, it is
    read back from the first argument as the options say that it is written. Likewise the bytes of a
    pattern are read back as the pattern says, in whichever encoding it was made. -/
theorem carriedBytes_recoverable :
    (∀ (bytes : Bytes) (o : Option SendOptions),
      CarriedBeside (IsTransaction (o.bind (·.encoding)) bytes) "encoding" (o.bind (·.encoding))
        (Call.sendTransaction bytes o).params) ∧
    (∀ (bytes : Bytes) (o : Option SimulateOptions),
      CarriedBeside (IsTransaction (o.bind (·.encoding)) bytes) "encoding" (o.bind (·.encoding))
        (Call.simulateTransaction bytes o).params) ∧
    (∀ (transactions : List Bytes) (o : Option BundleOptions),
      CarriedBeside (IsBundle (o.bind (·.transactionEncoding)) transactions)
        "transactionEncoding" (o.bind (·.transactionEncoding))
        (Call.simulateBundle transactions o).params) ∧
    ∀ (offset : UInt64) (bytes : Bytes),
      (BytePattern.ofBytes offset bytes).bytes? = some bytes ∧
        (BytePattern.ofBytesBase64 offset bytes).bytes? = some bytes := by
  refine ⟨?_, ?_, ?_, ?_⟩
  · intro bytes o
    exact ⟨⟨_, rfl, _, rfl, standsFor_transactionText _ bytes⟩,
      namedBeside_optionsParam _ _ _ SendOptions.member?_encoding _ o⟩
  · intro bytes o
    exact ⟨⟨_, rfl, _, rfl, standsFor_transactionText _ bytes⟩,
      namedBeside_optionsParam _ _ _ SimulateOptions.member?_encoding _ o⟩
  · intro transactions o
    exact ⟨⟨_, rfl, isBundle_transactionTexts _ transactions⟩,
      namedBeside_optionsParam _ _ _ BundleOptions.member?_transactionEncoding _ o⟩
  · intro offset bytes
    refine ⟨?_, Base64.decode?_encode bytes⟩
    show (Base58.decode (Base58.encode bytes)).toOption = some bytes
    rw [(Base58.decode_eq_ok_iff _ bytes).2 rfl]
    rfl

end LedgerWire.Rpc
