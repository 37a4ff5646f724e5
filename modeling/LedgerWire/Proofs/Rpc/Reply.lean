import LedgerWire.Proofs.Json.Codec
import LedgerWire.Rpc.Reply

set_option autoImplicit false

/-! # What a reply says

An envelope is an object or an array, and either way a reply is read from its parts: the id, the
result and the error. An error has parts of its own. What comes of a reply depends on its error and
its result only, and one of three things does: the error, the result, or that there is neither. -/

namespace LedgerWire.Rpc

open Json (Codec Field Fields Record Row Tree contentsOf)

/-! ## Parts -/

/-- What an envelope holds for a field: the member with its key or, in an array, the item at its
    place. -/
def envelopePart? (key : String) (place : Nat) : Tree → Option Tree
  | .object members _ _ => (contentsOf key members).head?
  | .array items _ => items[place]?
  | _ => none

/-- The fields have the values of their parts, the first of which is at `place` in an array. Those
    without a part have the value that `missing` says. -/
def TakesParts (missing : (α : Type) → Json.Field α → Option α) (envelope : Tree) :
    {αs : List Type} → Fields αs → (place : Nat) → Row αs → Prop
  | _, .nil, _, () => True
  | _, .cons f fs, place, (a, as) =>
    f.Takes (missing _ f) a (envelopePart? f.key place envelope) ∧
      TakesParts missing envelope fs (place + 1) as

theorem takesParts_of_reads {αs : List Type} (fs : Fields αs) (place : Nat)
    (members : List (Option String × Tree)) (closed known : Bool) (row : Row αs)
    (h : fs.Reads members row) :
    TakesParts @Field.absent (.object members closed known) fs place row := by
  induction fs generalizing place with
  | nil => trivial
  | cons f fs ih =>
    obtain ⟨a, as⟩ := row
    obtain ⟨hfirst, hothers⟩ := h
    exact ⟨Field.takes_of_reads f a _ hfirst, ih (place + 1) as hothers⟩

theorem takesParts_of_takesItems {αs : List Type} (fs : Fields αs) (place : Nat)
    (items : List Tree) (closed : Bool) (row : Row αs)
    (h : fs.TakesItems (items.drop place) row) :
    TakesParts @Field.beyond (.array items closed) fs place row := by
  induction fs generalizing place with
  | nil => trivial
  | cons f fs ih =>
    obtain ⟨a, as⟩ := row
    obtain ⟨hfirst, hothers⟩ := h
    rw [List.head?_drop] at hfirst
    rw [List.tail_drop] at hothers
    exact ⟨hfirst, ih (place + 1) as hothers⟩

/-- A record is read from the parts of an object or of an array. -/
theorem takesParts_of_decode {σ : Type} (r : Record σ) (hnodup : r.fields.keys.Nodup)
    (envelope : Tree) (s : σ) (h : r.codec.decode envelope = .ok s) :
    ∃ row, r.ofRow row = s ∧
      (TakesParts @Field.absent envelope r.fields 0 row ∨
        TakesParts @Field.beyond envelope r.fields 0 row) := by
  cases envelope with
  | object members closed known =>
    obtain ⟨-, -, row, hreads, hrow⟩ :=
      (Record.decode_object_eq_ok_iff r hnodup members closed known s).1 h
    exact ⟨row, hrow, Or.inl (takesParts_of_reads _ 0 members closed known row hreads)⟩
  | array items closed =>
    obtain ⟨-, row, hitems, hrow⟩ := (Record.decode_array_eq_ok_iff r items closed s).1 h
    exact ⟨row, hrow, Or.inr (takesParts_of_takesItems _ 0 items closed row hitems)⟩
  | _ => exact absurd h (by simp [Record.codec])

/-! ## Errors -/

/-- An error says what is written in its parts. Data that is null is none. -/
structure RemoteError.IsReadFrom (e : RemoteError) (t : Tree) : Prop where
  code_eq : envelopePart? "code" 0 t = some (.number (.ofInt64 e.code))
  message_eq : envelopePart? "message" 1 t = some (.string e.message)
  data_eq :
    match envelopePart? "data" 2 t with
    | none | some .null => e.data = none
    | some t => ∃ v, t.toJson? = some v ∧ e.data = some v

theorem RemoteError.isReadFrom_of_takes (e : RemoteError) (t : Tree)
    (hcode : (Field.required "code" Codec.i64).Takes none e.code (envelopePart? "code" 0 t))
    (hmessage : (Field.required "message" Codec.string).Takes none e.message
      (envelopePart? "message" 1 t))
    (hdata : (Field.optional "data" Codec.value).Takes (some none) e.data
      (envelopePart? "data" 2 t)) : e.IsReadFrom t := by
  simp only [Field.required_takes_iff, Codec.i64_decode_eq_ok_iff, exists_eq_right] at hcode
  simp only [Field.required_takes_iff, Codec.string_decode_eq_ok_iff, exists_eq_right] at hmessage
  simp only [Field.optional_takes_iff, Codec.value_decode_eq_ok_iff] at hdata
  exact ⟨hcode, hmessage, hdata⟩

theorem RemoteError.isReadFrom_of_decode (e : RemoteError) (t : Tree)
    (h : RemoteError.codec.decode t = .ok e) : e.IsReadFrom t := by
  obtain ⟨⟨code, message, data, ⟨⟩⟩, rfl, hparts⟩ :=
    takesParts_of_decode RemoteError.record (by decide) t e h
  -- a field without a part has the same value in an object and in an array
  obtain ⟨hcode, hmessage, hdata, -⟩ := or_self_iff.1 hparts
  exact isReadFrom_of_takes _ t hcode hmessage hdata

/-! ## Replies -/

namespace Reply

theorem nodup_keys_record {α : Type} (c : Codec α) : (record c).fields.keys.Nodup := by
  show ["jsonrpc", "id", "result", "error"].Nodup
  decide

/-- A reply says what its envelope does. An error that is null is none, but a result that is null is
    a result. -/
structure IsReadFrom (reply : Reply Json) (envelope : Tree) : Prop where
  id_eq : reply.id =
    match envelopePart? "id" 1 envelope with
    | some (.number (.natural id)) => some id
    | _ => none
  result_eq : reply.result = (envelopePart? "result" 2 envelope).bind Tree.toJson?
  error_eq :
    match envelopePart? "error" 3 envelope with
    | none | some .null => reply.error = none
    | some t => ∃ e, RemoteError.codec.decode t = .ok e ∧ e.IsReadFrom t ∧ reply.error = some e

theorem isReadFrom_of_takes (reply : Reply Json) (envelope : Tree)
    (hid : (Field.optional "id" Codec.u64).Takes (some none) reply.id
      (envelopePart? "id" 1 envelope))
    (hresult : (Field.present "result" Codec.value).Takes (some none) reply.result
      (envelopePart? "result" 2 envelope))
    (herror : (Field.optional "error" RemoteError.codec).Takes (some none) reply.error
      (envelopePart? "error" 3 envelope)) : reply.IsReadFrom envelope := by
  rw [Field.optional_takes_iff] at hid herror
  simp only [Codec.u64_decode_eq_ok_iff] at hid
  refine ⟨?_, ?_, ?_⟩
  · cases hpart : envelopePart? "id" 1 envelope with
    | none =>
      rw [hpart] at hid
      exact hid
    | some t =>
      rw [hpart] at hid
      cases t with
      | null => exact hid
      | _ =>
        obtain ⟨id, ht, h⟩ := hid
        rw [ht, h]
  · cases hpart : envelopePart? "result" 2 envelope with
    | none =>
      rw [hpart] at hresult
      exact (Option.some.inj hresult).symm
    | some t =>
      rw [hpart] at hresult
      obtain ⟨v, hdecode, h⟩ := (except_map_eq_ok_iff _ _ _).1 hresult
      rw [← h, Option.bind_some, (Codec.value_decode_eq_ok_iff t v).1 hdecode]
  · cases hpart : envelopePart? "error" 3 envelope with
    | none =>
      rw [hpart] at herror
      exact herror
    | some t =>
      rw [hpart] at herror
      cases t with
      | null => exact herror
      | _ =>
        obtain ⟨e, hdecode, h⟩ := herror
        exact ⟨e, hdecode, e.isReadFrom_of_decode _ hdecode, h⟩

theorem isReadFrom_of_decode (reply : Reply Json) (envelope : Tree)
    (h : (codec Codec.value).decode envelope = .ok reply) : reply.IsReadFrom envelope := by
  obtain ⟨⟨version, id, result, error, ⟨⟩⟩, rfl, hparts⟩ :=
    takesParts_of_decode (record Codec.value) (nodup_keys_record _) envelope reply h
  obtain ⟨-, hid, hresult, herror, -⟩ := or_self_iff.1 hparts
  exact isReadFrom_of_takes _ envelope hid hresult herror

/-! ## Outcomes -/

variable {α : Type}

/-- What comes of a reply. An error is reported with its code, its message and its data, and wins
    over a result; without one the result counts, be it null; and a reply with neither says so. -/
inductive HasOutcome (reply : Reply α) : Except RpcError α → Prop
  | error {code : Int64} {message : String} {data : Option Json}
      (herror : reply.error = some ⟨code, message, data⟩) :
      HasOutcome reply (.error (.remote ⟨code, message, data⟩))
  | result {value : α} (herror : reply.error = none) (hresult : reply.result = some value) :
      HasOutcome reply (.ok value)
  | neither (herror : reply.error = none) (hresult : reply.result = none) :
      HasOutcome reply (.error .missingResult)

/-- A reply has one outcome, which is the one that is read from it. -/
theorem hasOutcome_iff (reply : Reply α) (o : Except RpcError α) :
    reply.HasOutcome o ↔ reply.outcome = o := by
  refine ⟨?_, ?_⟩
  · intro h
    cases h with
    | error herror => rw [outcome, herror]
    | result herror hresult => rw [outcome, herror, hresult]
    | neither herror hresult => rw [outcome, herror, hresult]
  · intro h
    rw [← h]
    unfold outcome
    split
    · rename_i herror
      exact .error herror
    · rename_i herror hresult
      exact .result herror hresult
    · rename_i herror hresult
      exact .neither herror hresult

theorem hasOutcome_outcome (reply : Reply α) : reply.HasOutcome reply.outcome :=
  (hasOutcome_iff reply _).2 rfl

theorem outcome_eq_remote_iff (reply : Reply α) (e : RemoteError) :
    reply.outcome = .error (.remote e) ↔ reply.error = some e := by
  rw [← hasOutcome_iff]
  refine ⟨?_, fun h => .error h⟩
  intro h
  cases h with
  | error herror => exact herror

end Reply

end LedgerWire.Rpc
