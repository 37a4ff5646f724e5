import LedgerWire.Proofs.Rpc.Envelopes

set_option autoImplicit false

/-! # A batch is its requests, numbered

A batch could be made by hand: give each request the id that it has in the batch, render the
requests one by one, and put an array around them. `Batch.numbered` is the first step, and the
renderings of a batch are what comes out of the others. Which id a request asks for shows in the
place of that id and nowhere else, neither in the rest of its envelope nor in the envelopes of other
requests, which keep their ids whatever is asked for in front of them. -/

namespace LedgerWire

namespace Json

/-- An object in which the member with this key has another value. -/
def setMember (value : Json) (key : String) (member : Json) : Json :=
  match value with
  | .object members => .object (insert key member members)
  | other => other

/-- An array in which the item at this place is changed. -/
def modifyItem (value : Json) (k : Nat) (change : Json → Json) : Json :=
  match value with
  | .array items => .array (items.modify k change)
  | other => other

theorem modifyItem_array (front back : List Json) (item : Json) (change : Json → Json) :
    (array (front ++ item :: back)).modifyItem front.length change =
      array (front ++ change item :: back) := by
  simp [modifyItem, List.modify_eq_take_cons_drop]

end Json

/-- What one item of a list is shows in the text of the list in one place. -/
theorem exists_intercalate_eq (separator : String) (front back : List String) :
    ∃ before after, ∀ item,
      separator.intercalate (front ++ item :: back) = before ++ item ++ after := by
  induction front with
  | nil =>
    cases back with
    | nil => exact ⟨"", "", fun item => by simp⟩
    | cons next back =>
      refine ⟨"", separator ++ separator.intercalate (next :: back), fun item => ?_⟩
      rw [List.nil_append, String.intercalate_cons_cons, String.empty_append,
        String.append_assoc]
  | cons first front ih =>
    obtain ⟨before, after, h⟩ := ih
    refine ⟨first ++ separator ++ before, after, fun item => ?_⟩
    rw [List.cons_append, String.intercalate_cons_of_ne_nil (by simp), h]
    simp only [String.append_assoc]

namespace Rpc

/-! ## Texts with an id in them -/

/-- A text that is the same for all ids apart from one place, where it names the id. -/
def VariesInId (text : UInt64 → String) : Prop :=
  ∃ before after, ∀ id, text id = before ++ ("\"id\":" ++ toString id.toNat) ++ after

theorem VariesInId.append {text : UInt64 → String} (h : VariesInId text) (front back : String) :
    VariesInId fun id => front ++ text id ++ back := by
  obtain ⟨before, after, h⟩ := h
  refine ⟨front ++ before, after ++ back, fun id => ?_⟩
  simp only [h, String.append_assoc]

theorem VariesInId.intercalate {text : UInt64 → String} (h : VariesInId text) (separator : String)
    (front back : List String) :
    VariesInId fun id => separator.intercalate (front ++ text id :: back) := by
  obtain ⟨before, after, hitem⟩ := exists_intercalate_eq separator front back
  simp only [hitem]
  exact h.append before after

/-- An envelope names its id in one place. -/
theorem Request.envelope_variesInId (r : Request) : VariesInId fun id => (r.envelope id).toText := by
  have hmember : VariesInId fun id => Envelope.memberText "id" (toString id.toNat) :=
    ⟨"", "", fun id => by simp [Envelope.memberText]⟩
  have hmembers := hmember.intercalate ","
    [Envelope.memberText "method" ("\"" ++ r.call.method.name ++ "\""),
     Envelope.memberText "jsonrpc" ("\"" ++ protocolVersion ++ "\"")]
    [Envelope.memberText "params" ("[" ++ ",".intercalate (r.call.params.map Json.text) ++ "]")]
  exact hmembers.append "\x7b" "\x7d"

/-! ## Requests under other ids -/

/-- A request that asks for another id. -/
def Request.withId (r : Request) (id : Option UInt64) : Request :=
  { r with id }

theorem Request.envelope_toJson_eq_setMember (r : Request) (id id' : UInt64) :
    (r.envelope id').toJson = (r.envelope id).toJson.setMember "id" (.natural id') := by
  simp [envelope, Envelope.toJson, Json.setMember, Json.insert]

namespace Batch

/-- The requests of a batch, each under the id that it is given there. -/
def numbered (rs : List Request) : List Request :=
  List.zipWith (fun r id => r.withId (some id)) rs (ids rs)

theorem getElem?_numbered (rs : List Request) (k : Nat) :
    (numbered rs)[k]? = rs[k]?.map fun r => r.withId (some (r.id.getD (UInt64.ofNat k))) := by
  rw [numbered, List.getElem?_zipWith, getElem?_ids]
  cases rs[k]? <;> rfl

theorem envelopes_eq_map_numbered (rs : List Request) :
    envelopes rs = (numbered rs).map Request.single := by
  rw [envelopes, numbered, List.map_zipWith]
  rfl

theorem toJson_eq_map_numbered (rs : List Request) :
    toJson rs = .array ((numbered rs).map Request.toJson) := by
  rw [toJson, envelopes_eq_map_numbered, List.map_map]
  rfl

theorem toText_eq_map_numbered (rs : List Request) :
    toText rs = "[" ++ ",".intercalate ((numbered rs).map Request.toText) ++ "]" := by
  rw [toText, envelopes_eq_map_numbered, List.map_map]
  rfl

/-! ## One id of a batch -/

theorem idsFrom_append (position : UInt64) (front back : List Request) :
    idsFrom position (front ++ back) =
      idsFrom position front ++ idsFrom (position + UInt64.ofNat front.length) back := by
  induction front generalizing position with
  | nil => simp [idsFrom]
  | cons r front ih =>
    rw [List.cons_append, idsFrom, ih, next_position, idsFrom, List.cons_append,
      List.length_cons]

/-- Whatever id one request asks for, the others have the same envelopes. -/
theorem exists_envelopes_eq (front back : List Request) (r : Request) :
    ∃ es es', es.length = front.length ∧ ∀ id : Option UInt64,
      envelopes (front ++ r.withId id :: back) =
        es ++ r.envelope (id.getD (UInt64.ofNat front.length)) :: es' := by
  refine ⟨envelopes front, List.zipWith Request.envelope back
    (idsFrom (UInt64.ofNat front.length + 1) back), length_envelopes front, fun id => ?_⟩
  rw [envelopes, ids, idsFrom_append, List.zipWith_append (length_idsFrom 0 front).symm,
    UInt64.zero_add]
  rfl

end Batch

/-- A batch renders as its requests do one by one, each under the id that it is given: its own one,
    or else its position. Which id a request asks for, alone or in a batch, shows in the place of
    that id only. -/
theorem batch_eq_numbered :
    (∀ rs : List Request,
      Batch.toJson rs = .array ((Batch.numbered rs).map Request.toJson) ∧
      Batch.toText rs = "[" ++ ",".intercalate ((Batch.numbered rs).map Request.toText) ++ "]" ∧
      (Batch.numbered rs).length = rs.length ∧
      ∀ k : Nat, (Batch.ids rs)[k]? = rs[k]?.map (fun r => r.id.getD (UInt64.ofNat k)) ∧
        (Batch.numbered rs)[k]? =
          rs[k]?.map fun r => r.withId (some (r.id.getD (UInt64.ofNat k)))) ∧
    Batch.toText [] = "[]" ∧
    (∀ r : Request,
      (∀ id, (r.withId id).toJson = r.toJson.setMember "id" (.natural (id.getD 0))) ∧
      ∃ text, VariesInId text ∧ ∀ id, (r.withId id).toText = text (id.getD 0)) ∧
    ∀ (front back : List Request) (r : Request),
      (∀ id, Batch.toJson (front ++ r.withId id :: back) =
        (Batch.toJson (front ++ r :: back)).modifyItem front.length
          (·.setMember "id" (.natural (id.getD (UInt64.ofNat front.length))))) ∧
      ∃ text, VariesInId text ∧ ∀ id,
        Batch.toText (front ++ r.withId id :: back) =
          text (id.getD (UInt64.ofNat front.length)) := by
  refine ⟨?_, rfl, ?_, ?_⟩
  · intro rs
    have hlen : (Batch.numbered rs).length = rs.length := by
      rw [Batch.numbered, List.length_zipWith, Batch.length_ids, Nat.min_self]
    exact ⟨Batch.toJson_eq_map_numbered rs, Batch.toText_eq_map_numbered rs, hlen,
      fun k => ⟨Batch.getElem?_ids rs k, Batch.getElem?_numbered rs k⟩⟩
  · intro r
    exact ⟨fun id => r.envelope_toJson_eq_setMember _ _, _, r.envelope_variesInId, fun id => rfl⟩
  · intro front back r
    obtain ⟨es, es', hlen, henvelopes⟩ := Batch.exists_envelopes_eq front back r
    refine ⟨fun id => ?_, ?_⟩
    · have hself : Batch.envelopes (front ++ r :: back) =
          es ++ r.envelope (r.id.getD (UInt64.ofNat front.length)) :: es' := henvelopes r.id
      have hplace : (es.map Envelope.toJson).length = front.length := by
        rw [List.length_map, hlen]
      simp only [Batch.toJson, henvelopes, hself, List.map_append, List.map_cons]
      rw [← hplace, Json.modifyItem_array, ← Request.envelope_toJson_eq_setMember]
    · refine ⟨_, (r.envelope_variesInId.intercalate "," (es.map Envelope.toText)
        (es'.map Envelope.toText)).append "[" "]", fun id => ?_⟩
      rw [Batch.toText, henvelopes, List.map_append, List.map_cons]

end Rpc

end LedgerWire
