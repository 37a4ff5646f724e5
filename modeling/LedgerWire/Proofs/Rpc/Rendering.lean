import LedgerWire.Proofs.Rpc.Envelopes
import LedgerWire.Proofs.Rpc.Identity

set_option autoImplicit false

/-! # Rendering as a value and as text

A request and a batch of requests can be rendered in two ways, and neither can fail. The two say the
same: the text is the compact text of the value, and reading the text gives the value again, in
which nothing is lost or reordered. This is so for whatever strings and numbers the requests carry,
since a request holds no doubles, no object with a key that comes up twice, and few containers
inside each other. -/

namespace LedgerWire.Rpc

open Json (Codec Plain maxDepth)

/-- A text and a value stand for each other. -/
structure Renders (text : String) (value : Json) : Prop where
  /-- Written compactly, the value is the text. -/
  text_eq : value.text = text
  /-- Read as any value, the text is the value. -/
  fromText_eq : Codec.value.fromText text = .ok value

theorem renders_text {v : Json} (h : Plain maxDepth v) : Renders v.text v where
  text_eq := rfl
  fromText_eq := (Codec.value_restores h).fromText_toText

namespace Batch

theorem toText_eq_text (rs : List Request) : toText rs = (toJson rs).text := by
  have htexts : (envelopes rs).map Envelope.toText =
      ((envelopes rs).map Envelope.toJson).map Json.text := by
    rw [List.map_map]
    exact List.map_congr_left fun e _ => e.toText_eq_text
  rw [toText, toJson, Json.text_array, htexts]

theorem plain_toJson (rs : List Request) : Plain maxDepth (toJson rs) := by
  have hbatch : Plain 7 (toJson rs) := by
    refine .array _ ?_
    intro v hv
    obtain ⟨k, hk⟩ := List.mem_iff_getElem?.1 hv
    have hitem : (toJson rs).item? k = some v := hk
    rw [item?_toJson] at hitem
    obtain ⟨r, -, rfl⟩ := Option.map_eq_some_iff.1 hitem
    exact r.plain_envelope _
  exact hbatch.mono (by decide)

end Batch

/-- Both renderings of a request stand for each other, and so do both renderings of a batch. A
    request is rendered with its own id or zero, and in a batch with its own id or its position. -/
theorem renderings_agree :
    (∀ r : Request, Renders r.toText r.toJson ∧ IsEnvelope r.toJson r.call (r.id.getD 0)) ∧
      ∀ rs : List Request, Renders (Batch.toText rs) (Batch.toJson rs) ∧
        ∃ items, Batch.toJson rs = .array items ∧ items.length = rs.length ∧
          ∀ (k : Nat) (r : Request), rs[k]? = some r →
            ∃ v, items[k]? = some v ∧ IsEnvelope v r.call (r.id.getD (UInt64.ofNat k)) := by
  refine ⟨?_, ?_⟩
  · intro r
    rw [r.toText_eq_text]
    exact ⟨renders_text r.plain_toJson, r.envelope_isEnvelope _⟩
  · intro rs
    rw [Batch.toText_eq_text]
    refine ⟨renders_text (Batch.plain_toJson rs), _, rfl, ?_, ?_⟩
    · rw [List.length_map, Batch.length_envelopes]
    · intro k r hr
      have hitem := Batch.item?_toJson rs k
      rw [hr] at hitem
      exact ⟨_, hitem, r.envelope_isEnvelope _⟩

end LedgerWire.Rpc
