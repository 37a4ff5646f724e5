import LedgerWire.Proofs.Json.Faithful
import LedgerWire.Proofs.Rpc.Reply

set_option autoImplicit false

/-! # When an error of the remote side is reported

A reply is read as a whole before anyone asks whether it carries an error, and its result is read on
the way, as the type that is expected. An envelope with an error may well have a result next to it,
a null as a rule, and this is where types differ: one that can read the result reports the error,
and one that cannot reports that the reply is malformed. Everything else in an envelope is read
alike for all types. -/

namespace LedgerWire.Rpc

open Json (Codec Field Fields ReadError Record Tree contentsOf readText maxDepth)

namespace Reply

variable {α β : Type}

/-- Reads the result of an envelope, if it has one. -/
def readResult (c : Codec α) : Option Tree → Except ReadError (Option α)
  | none => .ok none
  | some t => (c.decode t).map some

/-- The reply with another result. -/
def withResult (reply : Reply β) (result : Option α) : Reply α :=
  ⟨reply.version, reply.id, result, reply.error⟩

/-! ## Envelopes that are objects -/

/-- A result that cannot be read is reported, as nothing else in the envelope is at fault. -/
theorem decode_object_eq_error (c : Codec α) {members : List (Option String × Tree)} {known : Bool}
    {version : String} {id : Option UInt64} {error : Option RemoteError} {t : Tree} {e : ReadError}
    (hadmits : (record c).fields.Admits Tree.isGrammatical members)
    (hversion : (Field.required "jsonrpc" Codec.string).Reads version
      (contentsOf "jsonrpc" members))
    (hid : (Field.optional "id" Codec.u64).Reads id (contentsOf "id" members))
    (herror : (Field.optional "error" RemoteError.codec).Reads error (contentsOf "error" members))
    (hresult : contentsOf "result" members = [t]) (hdecode : c.decode t = .error e) :
    (codec c).decode (.object members true known) = .error e := by
  obtain ⟨before, after, rfl, hbefore⟩ := Json.exists_eq_append_of_contentsOf_eq_cons hresult
  -- the other fields have been read as far as they stand in front of the result
  rw [Json.contentsOf_append] at hversion hid herror
  obtain ⟨version', hversion'⟩ := Field.exists_fills_of_reads_append _ _ _ _ hversion
  obtain ⟨id', hid'⟩ := Field.exists_fills_of_reads_append _ _ _ _ hid
  obtain ⟨error', herror'⟩ := Field.exists_fills_of_reads_append _ _ _ _ herror
  have hnone : (Field.present "result" c).Fills none none (contentsOf "result" before) := by
    rw [hbefore]
    rfl
  have hread : (record c).fields.readMembers Tree.isGrammatical (record c).fields.empty before =
      .ok (version', id', none, error', ()) := by
    refine (Fields.readMembers_eq_ok_iff _ (nodup_keys_record c) _ _ _ _).2 ⟨?_, ?_⟩
    · intro m hm
      exact hadmits m (List.mem_append_left _ hm)
    · exact ⟨hversion', hid', hnone, herror', trivial⟩
  have hstore : (record c).fields.store? (version', id', none, error', ()) "result" t =
      some (.error e) := by
    simp [record, Fields.store?, Field.required, Field.optional, Field.present, hdecode, Except.map]
  show ((record c).fields.readObject _ _ true).map _ = _
  rw [(record c).fields.readObject_eq_error _ true hread hstore]
  rfl

theorem decode_object_eq (c : Codec α) (d : Codec β) (members : List (Option String × Tree))
    (closed known : Bool) (reply : Reply β)
    (h : (codec d).decode (.object members closed known) = .ok reply) :
    (codec c).decode (.object members closed known) =
      (readResult c (contentsOf "result" members).head?).map reply.withResult := by
  obtain ⟨rfl, hadmits, ⟨version, id, result, error, ⟨⟩⟩,
      ⟨hversion, hid, hresult, herror, -⟩, rfl⟩ :=
    (Record.decode_object_eq_ok_iff _ (nodup_keys_record d) members closed known reply).1 h
  have hread : ∀ result' : Option α,
      (Field.present "result" c).Reads result' (contentsOf "result" members) →
        (codec c).decode (.object members true known) = .ok ⟨version, id, result', error⟩ := by
    intro result' hresult'
    exact (Record.decode_object_eq_ok_iff _ (nodup_keys_record c) members true known _).2
      ⟨rfl, hadmits, ⟨version, id, result', error, ()⟩,
        ⟨hversion, hid, hresult', herror, trivial⟩, rfl⟩
  match hparts : contentsOf "result" members with
  | [] =>
    rw [hparts] at hread
    exact hread none rfl
  | [t] =>
    rw [hparts] at hread
    cases hdecode : c.decode t with
    | ok a =>
      have hpresent : (Field.present "result" c).Reads (some a) [t] := by
        simp [Field.Reads, Field.present, hdecode, Except.map]
      rw [hread _ hpresent, List.head?_cons, readResult, hdecode]
      rfl
    | error e =>
      rw [decode_object_eq_error c hadmits hversion hid herror hparts hdecode, List.head?_cons,
        readResult, hdecode]
      rfl
  | _ :: _ :: _ =>
    have hreads : (Field.present "result" d).Reads result (contentsOf "result" members) := hresult
    rw [hparts] at hreads
    exact absurd hreads (by simp [Field.Reads])

/-! ## Envelopes that are arrays -/

theorem decode_array_eq_error (c : Codec α) {v i t : Tree} (rest : List Tree) (closed : Bool)
    {version : String} {id : Option UInt64} {e : ReadError}
    (hversion : (Field.required "jsonrpc" Codec.string).codec.decode v = .ok version)
    (hid : (Field.optional "id" Codec.u64).codec.decode i = .ok id)
    (hdecode : c.decode t = .error e) :
    (codec c).decode (.array (v :: i :: t :: rest) closed) = .error e := by
  have hresult : (Field.present "result" c).codec.decode t = .error e := by
    show (c.decode t).map some = _
    rw [hdecode]
    rfl
  show ((record c).fields.readArray _ closed).map _ = _
  rw [record, Fields.readArray, hversion]
  simp only [Fields.readArray, hid, hresult]
  rfl

theorem decode_array_eq (c : Codec α) (d : Codec β) (items : List Tree) (closed : Bool)
    (reply : Reply β) (h : (codec d).decode (.array items closed) = .ok reply) :
    (codec c).decode (.array items closed) =
      (readResult c items[2]?).map reply.withResult := by
  obtain ⟨rfl, ⟨version, id, result, error, ⟨⟩⟩, ⟨hversion, hid, hresult, herror⟩, rfl⟩ :=
    (Record.decode_array_eq_ok_iff _ items closed reply).1 h
  have hread : ∀ result' : Option α,
      (Field.present "result" c).Takes (some none) result' items.tail.tail.head? →
        (codec c).decode (.array items true) = .ok ⟨version, id, result', error⟩ := by
    intro result' hresult'
    exact (Record.decode_array_eq_ok_iff _ items true _).2
      ⟨rfl, ⟨version, id, result', error, ()⟩, ⟨hversion, hid, hresult', herror⟩, rfl⟩
  match items with
  | [] => exact absurd hversion (by simp [Field.Takes, Field.required])
  | [_] => exact hread none rfl
  | [_, _] => exact hread none rfl
  | v :: i :: t :: rest =>
    rw [List.getElem?_cons_succ, List.getElem?_cons_succ, List.getElem?_cons_zero, readResult]
    cases hdecode : c.decode t with
    | ok a =>
      refine hread (some a) ?_
      show (c.decode t).map some = _
      rw [hdecode]
      rfl
    | error e => exact decode_array_eq_error c rest true hversion hid hdecode

/-! ## Both forms -/

/-- What is read as one type is read as another, but for the result. -/
theorem decode_eq_of_decode (c : Codec α) (d : Codec β) (envelope : Tree) (reply : Reply β)
    (h : (codec d).decode envelope = .ok reply) :
    (codec c).decode envelope =
      (readResult c (envelopePart? "result" 2 envelope)).map reply.withResult := by
  cases envelope with
  | object members closed known => exact decode_object_eq c d members closed known reply h
  | array items closed => exact decode_array_eq c d items closed reply h
  | _ => exact absurd h (by simp [codec, Record.codec])

/-! ## The error of an envelope -/

theorem exists_error_part (d : Codec β) (envelope : Tree) (reply : Reply β) (e : RemoteError)
    (h : (codec d).decode envelope = .ok reply) (herr : reply.error = some e) :
    ∃ t, envelopePart? "error" 3 envelope = some t ∧ RemoteError.codec.decode t = .ok e := by
  obtain ⟨⟨version, id, result, error, ⟨⟩⟩, rfl, hparts⟩ :=
    takesParts_of_decode (record d) (nodup_keys_record d) envelope reply h
  obtain ⟨-, -, -, herror, -⟩ := or_self_iff.1 hparts
  obtain rfl : error = some e := herr
  exact Field.exists_eq_some_of_optional_takes herror

/-! ## Whole texts -/

theorem read_eq_remote_iff (c : Codec α) (text : String) (e : RemoteError) :
    read c text = .error (.remote e) ↔
      ∃ reply, (codec c).decode (readText text).1 = .ok reply ∧ (readText text).2 = true ∧
        reply.error = some e := by
  unfold read
  cases hread : (codec c).fromText text with
  | ok reply =>
    obtain ⟨hdecode, hend⟩ := (Codec.fromText_eq_ok_iff _ text reply).1 hread
    rw [hdecode, hend]
    simp [outcome_eq_remote_iff]
  | error cause =>
    simp only [Except.error.injEq, reduceCtorEq, false_iff, not_exists]
    rintro reply ⟨hdecode, hend, -⟩
    rw [(Codec.fromText_eq_ok_iff _ text reply).2 ⟨hdecode, hend⟩] at hread
    exact absurd hread (by simp)

/-- If reading the result as one type reports an error of the remote side, then that is the error in
    the envelope, and reading the result as another type reports it exactly if there is no result or
    it can be read as that type. Otherwise the fault of the result is reported, and the error is
    lost. -/
theorem read_of_remote_error (c : Codec α) (d : Codec β) (text : String) (e : RemoteError)
    (h : read d text = .error (.remote e)) :
    (∃ t, envelopePart? "error" 3 (readText text).1 = some t ∧
        RemoteError.codec.decode t = .ok e) ∧
      (read c text = .error (.remote e) ↔
        ∀ t, envelopePart? "result" 2 (readText text).1 = some t → ∃ a, c.decode t = .ok a) ∧
      ∀ t cause, envelopePart? "result" 2 (readText text).1 = some t →
        c.decode t = .error cause → read c text = .error (.serialization cause) := by
  obtain ⟨reply, hdecode, hend, herror⟩ := (read_eq_remote_iff d text e).1 h
  have hother := decode_eq_of_decode c d _ reply hdecode
  have hfault : ∀ t cause, envelopePart? "result" 2 (readText text).1 = some t →
      c.decode t = .error cause → read c text = .error (.serialization cause) := by
    intro t cause hpart hcause
    have hdecode' : (codec c).decode (readText text).1 = .error cause := by
      rw [hother, hpart, readResult, hcause]
      rfl
    rw [read, Codec.fromText_eq_error _ text cause hdecode']
  refine ⟨exists_error_part d _ reply e hdecode herror, ⟨?_, ?_⟩, hfault⟩
  · intro hread t hpart
    cases hresult : c.decode t with
    | ok a => exact ⟨a, rfl⟩
    | error cause =>
      rw [hfault t cause hpart hresult] at hread
      exact absurd hread (by simp)
  · intro hreadable
    rw [read_eq_remote_iff, hother]
    cases hpart : envelopePart? "result" 2 (readText text).1 with
    | none => exact ⟨_, rfl, hend, herror⟩
    | some t =>
      obtain ⟨a, ha⟩ := hreadable t hpart
      rw [readResult, ha]
      exact ⟨_, rfl, hend, herror⟩

/-- An error with a result next to it. -/
def errorWith (result : Json) : Json :=
  .object [("jsonrpc", .string "2.0"), ("id", .natural 1), ("result", result),
    ("error", .object [("code", .number (.negative ⟨32600, by decide⟩)),
      ("message", .string "Method not found")])]

/-- The error in it. -/
def methodNotFound : RemoteError := ⟨-32601, "Method not found", none⟩

theorem plain_errorWith {result : Json} (h : Json.Plain 126 result) :
    Json.Plain maxDepth (errorWith result) := by
  have herror : Json.Plain 126 (.object [("code", .number (.negative ⟨32600, by decide⟩)),
      ("message", .string "Method not found")]) := by
    refine .object _ (by decide) ?_
    intro m hm
    simp only [List.mem_cons, List.not_mem_nil, or_false] at hm
    rcases hm with rfl | rfl
    · exact .number _ trivial
    · exact .string _
  refine .object _ (by decide : ["jsonrpc", "id", "result", "error"].Nodup) ?_
  intro m hm
  simp only [List.mem_cons, List.not_mem_nil, or_false] at hm
  rcases hm with rfl | rfl | rfl | rfl
  · exact .string _
  · exact .number _ trivial
  · exact h
  · exact herror

/-- An error with a number for its result is reported to one who expects a number, and not to one
    who expects a string. -/
theorem read_of_remote_error_number :
    read Codec.value (errorWith (.natural 5)).text = .error (.remote methodNotFound) ∧
      read Codec.u64 (errorWith (.natural 5)).text = .error (.remote methodNotFound) ∧
      read Codec.string (errorWith (.natural 5)).text = .error (.serialization .malformed) := by
  have hplain : Json.Plain maxDepth (errorWith (.natural 5)) :=
    plain_errorWith (.number _ trivial)
  have hvalue : read Codec.value (errorWith (.natural 5)).text =
      .error (.remote methodNotFound) := by
    rw [read, Codec.fromText_text _ hplain]
    rfl
  have hpart : envelopePart? "result" 2 (readText (errorWith (.natural 5)).text).1 =
      some (.number (.natural 5)) := by
    rw [Json.readText_text _ hplain]
    rfl
  refine ⟨hvalue, ?_, ?_⟩
  · refine (read_of_remote_error Codec.u64 _ _ _ hvalue).2.1.2 ?_
    rw [hpart]
    rintro _ ⟨⟩
    exact ⟨5, rfl⟩
  · exact (read_of_remote_error Codec.string _ _ _ hvalue).2.2 _ _ hpart rfl

/-- With null for its result, an error is reported only to those who take a null. -/
theorem read_error_with_null :
    read Codec.value (errorWith .null).text = .error (.remote methodNotFound) ∧
      read Codec.u64.nullable (errorWith .null).text = .error (.remote methodNotFound) ∧
      read Codec.u64 (errorWith .null).text = .error (.serialization .malformed) ∧
      read Codec.string (errorWith .null).text = .error (.serialization .malformed) ∧
      read Codec.address (errorWith .null).text = .error (.serialization .malformed) ∧
      read (InContext.codec Codec.u64) (errorWith .null).text =
        .error (.serialization .malformed) := by
  have hplain : Json.Plain maxDepth (errorWith .null) := plain_errorWith .null
  refine ⟨?_, ?_, ?_, ?_, ?_, ?_⟩
  all_goals
    rw [read, Codec.fromText_text _ hplain]
    rfl

end Reply

end LedgerWire.Rpc
