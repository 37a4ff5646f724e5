import LedgerWire.Proofs.Rpc.Batch
import LedgerWire.Proofs.Rpc.Envelopes
import Mathlib.Data.List.Nodup
import Mathlib.Data.List.Perm.Subperm

set_option autoImplicit false

/-! # Requests and replies of a batch, end to end

Between the rendering of a batch and the reading of its replies only the ids tell which reply
belongs to which request. Ids given by position differ from each other, and so a batch has an id
twice only if its requests ask for it: two for the same one, or one for the position of another that
asks for none.

If no id of the batch is replied to twice, then the queue of each id holds one reply at most, which
is the same in whatever order the replies come. -/

namespace LedgerWire.Rpc

open Json (Codec Tree readText)

namespace Batch

/-! ## Ids that differ -/

/-- The ids that requests ask for cannot be mistaken for others. -/
structure NoClash (rs : List Request) : Prop where
  /-- No two requests ask for the same id. -/
  own_nodup : (rs.filterMap Request.id).Nodup
  /-- The position of a request without an id is not asked for. -/
  position_free : ∀ (k : Nat) (r : Request), rs[k]? = some r → r.id = none →
    ∀ id ∈ rs.filterMap Request.id, id.toNat ≠ k

theorem getElem?_ids_eq_some_iff (rs : List Request) (k : Nat) (id : UInt64) :
    (ids rs)[k]? = some id ↔
      ∃ r, rs[k]? = some r ∧ (r.id = some id ∨ r.id = none ∧ UInt64.ofNat k = id) := by
  rw [getElem?_ids, Option.map_eq_some_iff]
  refine exists_congr fun r => and_congr_right fun _ => ?_
  cases r.id <;> simp

/-- There are no more different ids than there are numbers of 64 bits. -/
theorem length_le_of_nodup_ids {rs : List Request} (h : (ids rs).Nodup) :
    rs.length ≤ UInt64.size := by
  have hsub : (ids rs).map UInt64.toNat ⊆ List.range UInt64.size := by
    intro n hn
    obtain ⟨id, -, rfl⟩ := List.mem_map.1 hn
    exact List.mem_range.2 id.toNat_lt
  have hle := ((h.map fun _ _ => UInt64.toNat_inj.1).subperm hsub).length_le
  rwa [List.length_map, List.length_range, length_ids] at hle

theorem noClash_of_nodup_ids {rs : List Request} (h : (ids rs).Nodup) : NoClash rs := by
  have place_unique : ∀ (i j : Nat) (id : UInt64),
      (ids rs)[i]? = some id → (ids rs)[j]? = some id → i = j := by
    intro i j id hi hj
    exact (List.getElem?_inj (List.getElem?_eq_some_iff.1 hi).1 h).1 (hi.trans hj.symm)
  refine ⟨?_, ?_⟩
  · rw [List.Nodup, List.pairwise_filterMap, List.pairwise_iff_getElem]
    rintro i j hi hj hij id hid _ hid' rfl
    refine Nat.ne_of_lt hij (place_unique i j id ?_ ?_)
    · exact (getElem?_ids_eq_some_iff rs i id).2 ⟨_, List.getElem?_eq_getElem hi, Or.inl hid⟩
    · exact (getElem?_ids_eq_some_iff rs j id).2 ⟨_, List.getElem?_eq_getElem hj, Or.inl hid'⟩
  · rintro k r hk hnone id hmem rfl
    obtain ⟨r', hr', hid⟩ := List.mem_filterMap.1 hmem
    obtain ⟨j, hj⟩ := List.mem_iff_getElem?.1 hr'
    have hplace : j = id.toNat := by
      refine place_unique j id.toNat id ?_ ?_
      · exact (getElem?_ids_eq_some_iff rs j id).2 ⟨r', hj, Or.inl hid⟩
      · exact (getElem?_ids_eq_some_iff rs _ id).2
          ⟨r, hk, Or.inr ⟨hnone, UInt64.ofNat_toNat⟩⟩
    -- the request there asks for an id and for none
    rw [hplace, hk, Option.some.injEq] at hj
    rw [← hj, hnone] at hid
    exact absurd hid (by simp)

theorem nodup_ids_of_noClash {rs : List Request} (hlen : rs.length ≤ UInt64.size)
    (h : NoClash rs) : (ids rs).Nodup := by
  have hown := h.own_nodup
  rw [List.Nodup, List.pairwise_filterMap, List.pairwise_iff_getElem] at hown
  have toNat_position : ∀ (k : Nat) (r : Request),
      rs[k]? = some r → (UInt64.ofNat k).toNat = k := by
    intro k r hk
    obtain ⟨hlt, -⟩ := List.getElem?_eq_some_iff.1 hk
    exact UInt64.toNat_ofNat_of_lt' (Nat.lt_of_lt_of_le hlt hlen)
  rw [List.nodup_iff_getElem?_ne_getElem?]
  intro i j hij hj heq
  obtain ⟨id, hidj⟩ : ∃ id, (ids rs)[j]? = some id := ⟨_, List.getElem?_eq_getElem hj⟩
  obtain ⟨r, hr, hid⟩ := (getElem?_ids_eq_some_iff rs i id).1 (heq.trans hidj)
  obtain ⟨r', hr', hid'⟩ := (getElem?_ids_eq_some_iff rs j id).1 hidj
  rcases hid with hid | ⟨hnone, hpos⟩
  · rcases hid' with hid' | ⟨hnone', hpos'⟩
    · -- both ask for it
      obtain ⟨hi, rfl⟩ := List.getElem?_eq_some_iff.1 hr
      obtain ⟨hj, rfl⟩ := List.getElem?_eq_some_iff.1 hr'
      exact hown i j hi hj hij id hid id hid' rfl
    · -- the first asks for the position of the second
      have hmem := List.mem_filterMap.2 ⟨r, List.mem_of_getElem? hr, hid⟩
      exact h.position_free j r' hr' hnone' id hmem (hpos' ▸ toNat_position j r' hr')
  · rcases hid' with hid' | ⟨hnone', hpos'⟩
    · -- the second asks for the position of the first
      have hmem := List.mem_filterMap.2 ⟨r', List.mem_of_getElem? hr', hid'⟩
      exact h.position_free i r hr hnone id hmem (hpos ▸ toNat_position i r hr)
    · -- both have it by position
      have htoNat := toNat_position i r hr
      rw [hpos, ← hpos', toNat_position j r' hr'] at htoNat
      exact Nat.ne_of_lt hij htoNat.symm

/-- The ids of a batch differ exactly if it has no more requests than there are ids, no two of them
    ask for the same id, and none asks for the position of one that asks for none. -/
theorem nodup_ids_iff (rs : List Request) :
    (ids rs).Nodup ↔ rs.length ≤ UInt64.size ∧ NoClash rs := by
  refine ⟨?_, ?_⟩
  · intro h
    exact ⟨length_le_of_nodup_ids h, noClash_of_nodup_ids h⟩
  · rintro ⟨hlen, h⟩
    exact nodup_ids_of_noClash hlen h

/-! ## Ids that are sent -/

/-- What an element of a batch carries as its id. -/
def sentId? (rs : List Request) (k : Nat) : Option Json :=
  ((toJson rs).item? k).bind (Json.member? "id")

theorem sentId?_eq (rs : List Request) (k : Nat) :
    sentId? rs k = (ids rs)[k]?.map Json.natural := by
  rw [sentId?, item?_toJson, getElem?_ids]
  cases rs[k]? <;> rfl

end Batch

/-! ## Ids that come back -/

/-- The id that an envelope names. -/
def envelopeId? (envelope : Tree) : Option UInt64 :=
  match envelopePart? "id" 1 envelope with
  | some (.number (.natural id)) => some id
  | _ => none

variable {envelopes : List Tree} {replies : List (Reply Json)}

theorem exists_replies
    (h : ∀ t ∈ envelopes, ∃ r, (Reply.codec Codec.value).decode t = .ok r) :
    ∃ replies : List (Reply Json),
      envelopes.map (Reply.codec Codec.value).decode = replies.map .ok := by
  induction envelopes with
  | nil => exact ⟨[], rfl⟩
  | cons t ts ih =>
    obtain ⟨r, hr⟩ := h t List.mem_cons_self
    obtain ⟨rs, hrs⟩ := ih fun t' ht' => h t' (List.mem_cons_of_mem _ ht')
    exact ⟨r :: rs, by rw [List.map_cons, List.map_cons, hr, hrs]⟩

theorem map_id_of_decode (h : envelopes.map (Reply.codec Codec.value).decode = replies.map .ok) :
    replies.map Reply.id = envelopes.map envelopeId? := by
  induction envelopes generalizing replies with
  | nil =>
    rw [List.map_eq_nil_iff.1 h.symm]
    rfl
  | cons t ts ih =>
    obtain ⟨r, rs, rfl, hr, hrs⟩ := List.map_eq_cons_iff.1 h.symm
    rw [List.map_cons, List.map_cons, ih hrs.symm,
      (Reply.isReadFrom_of_decode r t hr.symm).id_eq]
    rfl

theorem length_repliesTo_of_decode
    (h : envelopes.map (Reply.codec Codec.value).decode = replies.map .ok) (id : UInt64) :
    (repliesTo id replies).length = envelopes.countP fun t => envelopeId? t = some id := by
  have hcount := congrArg (List.countP (· = some id)) (map_id_of_decode h)
  rw [List.countP_map, List.countP_map] at hcount
  rw [length_repliesTo]
  exact hcount

theorem mem_repliesTo_of_decode
    (h : envelopes.map (Reply.codec Codec.value).decode = replies.map .ok) {t : Tree}
    (ht : t ∈ envelopes) {id : UInt64} (hid : envelopeId? t = some id) {r : Reply Json}
    (hr : (Reply.codec Codec.value).decode t = .ok r) : r ∈ repliesTo id replies := by
  have hmem : (Reply.codec Codec.value).decode t ∈ replies.map .ok := h ▸ List.mem_map_of_mem ht
  rw [hr] at hmem
  obtain ⟨_, hr', heq⟩ := List.mem_map.1 hmem
  cases heq
  have hrid : r.id = some id := (Reply.isReadFrom_of_decode r t hr).id_eq.trans hid
  exact List.mem_filter.2 ⟨hr', decide_eq_true hrid⟩

/-! ## Any order -/

theorem perm_of_decode {envelopes' : List Tree} {replies' : List (Reply Json)}
    (hperm : envelopes'.Perm envelopes)
    (h : envelopes.map (Reply.codec Codec.value).decode = replies.map .ok)
    (h' : envelopes'.map (Reply.codec Codec.value).decode = replies'.map .ok) :
    replies'.Perm replies := by
  have hdecoded := hperm.map (Reply.codec Codec.value).decode
  rw [h, h'] at hdecoded
  exact (List.map_perm_map_iff fun _ _ => Except.ok.inj).1 hdecoded

theorem eq_singleton_of_mem {α : Type} {as : List α} {a : α} (hle : as.length ≤ 1) (ha : a ∈ as) :
    as = [a] := by
  obtain ⟨b, rfl⟩ := List.length_eq_one_iff.1 (Nat.le_antisymm hle (List.length_pos_of_mem ha))
  rw [List.mem_singleton.1 ha]

/-- A queue of one reply at most is the same in whatever order the replies come. -/
theorem repliesTo_eq_of_perm {replies' : List (Reply Json)} (hperm : replies'.Perm replies)
    (id : UInt64) (hle : (repliesTo id replies).length ≤ 1) :
    repliesTo id replies' = repliesTo id replies := by
  have hqueue : (repliesTo id replies').Perm (repliesTo id replies) := hperm.filter _
  cases hto : repliesTo id replies with
  | nil =>
    rw [hto] at hqueue
    exact hqueue.eq_nil
  | cons r rs =>
    rw [hto] at hle hqueue
    have hone := eq_singleton_of_mem hle List.mem_cons_self
    rw [hone] at hqueue ⊢
    exact List.perm_singleton.1 hqueue

/-- Among ids that differ, each request is in front of the queue of its id. -/
theorem matchReplies_getElem?_of_nodup {ids : List UInt64} (hids : ids.Nodup)
    (replies : List (Reply Json)) {k : Nat} {id : UInt64} (hk : ids[k]? = some id) :
    (matchReplies ids replies)[k]? = some (slotOutcome id (repliesTo id replies).head?) := by
  have hlt := countP_take_lt (· == id) ids (List.getElem?_eq_some_iff.1 hk).1 hk
    (beq_self_eq_true id)
  rw [List.take_length] at hlt
  have hle : ids.countP (· == id) ≤ 1 := List.nodup_iff_count_le_one.1 hids id
  have hnone : (ids.take k).count id = 0 := by
    rw [List.count_eq_countP]
    omega
  rw [matchReplies_getElem? ids replies k id hk, hnone, List.head?_eq_getElem?]

/-- A slot holds what the envelopes say about an id. -/
structure IsAnswer (id : UInt64) (envelopes : List Tree) (slot : Except RpcError Json) : Prop where
  /-- If an envelope names the id, then the slot holds what comes of the reply that it is read
      as. -/
  replied : ∀ t ∈ envelopes, envelopeId? t = some id →
    ∀ r, (Reply.codec Codec.value).decode t = .ok r → r.IsReadFrom t ∧ r.HasOutcome slot
  /-- If none does, then the slot says so. -/
  missing : (∀ t ∈ envelopes, envelopeId? t ≠ some id) → slot = .error (.missingResponse id)

theorem isAnswer_head?
    (h : envelopes.map (Reply.codec Codec.value).decode = replies.map .ok) (id : UInt64)
    (hle : (repliesTo id replies).length ≤ 1) :
    IsAnswer id envelopes (slotOutcome id (repliesTo id replies).head?) where
  replied := by
    intro t ht hid r hr
    rw [eq_singleton_of_mem hle (mem_repliesTo_of_decode h ht hid hr)]
    exact ⟨Reply.isReadFrom_of_decode r t hr, r.hasOutcome_outcome⟩
  missing := by
    intro hnone
    have hlen : (repliesTo id replies).length = 0 := by
      rw [length_repliesTo_of_decode h, List.countP_eq_zero]
      intro t ht
      simpa using hnone t ht
    rw [List.eq_nil_of_length_eq_zero hlen]
    rfl

/-- Each slot answers what was sent in its place. -/
structure Correlates (rs : List Request) (envelopes : List Tree)
    (slots : List (Except RpcError Json)) : Prop where
  length_eq : slots.length = rs.length
  answer : ∀ (k : Nat) (slot : Except RpcError Json), slots[k]? = some slot →
    ∃ id, Batch.sentId? rs k = some (.natural id) ∧ IsAnswer id envelopes slot

theorem matchReplies_correlates {rs : List Request} (hids : (Batch.ids rs).Nodup)
    (h : envelopes.map (Reply.codec Codec.value).decode = replies.map .ok)
    (hle : ∀ id ∈ Batch.ids rs, (repliesTo id replies).length ≤ 1) :
    Correlates rs envelopes (matchReplies (Batch.ids rs) replies) where
  length_eq := by
    rw [length_matchReplies, Batch.length_ids]
  answer := by
    intro k slot hslot
    have hlt := (List.getElem?_eq_some_iff.1 hslot).1
    rw [length_matchReplies] at hlt
    obtain ⟨id, hk⟩ : ∃ id, (Batch.ids rs)[k]? = some id := ⟨_, List.getElem?_eq_getElem hlt⟩
    rw [matchReplies_getElem?_of_nodup hids replies hk, Option.some.injEq] at hslot
    refine ⟨id, ?_, ?_⟩
    · rw [Batch.sentId?_eq, hk]
      rfl
    · rw [← hslot]
      exact isAnswer_head? h id (hle id (List.mem_of_getElem? hk))

/-- The ids of a batch differ exactly if there are not too many of them and they do not clash. In
    whatever order envelopes come that name no id of the batch twice, they are read as the same
    outcomes, and if the ids differ, each outcome is that of the envelope with the id that was
    sent. -/
theorem readBatch_correlates (rs : List Request) :
    ((Batch.ids rs).Nodup ↔ rs.length ≤ UInt64.size ∧ Batch.NoClash rs) ∧
      ∀ (text text' : String) (envelopes envelopes' : List Tree),
        readText text = (.array envelopes true, true) →
        readText text' = (.array envelopes' true, true) →
        envelopes'.Perm envelopes →
        (∀ t ∈ envelopes, ∃ r, (Reply.codec Codec.value).decode t = .ok r) →
        (∀ id ∈ Batch.ids rs, envelopes.countP (fun t => envelopeId? t = some id) ≤ 1) →
        ∃ slots, readBatch text (Batch.ids rs) = .ok slots ∧
          readBatch text' (Batch.ids rs) = .ok slots ∧
          ((Batch.ids rs).Nodup → Correlates rs envelopes slots) := by
  refine ⟨Batch.nodup_ids_iff rs, ?_⟩
  intro text text' envelopes envelopes' htext htext' hperm hreadable honce
  obtain ⟨replies, hreplies⟩ := exists_replies hreadable
  obtain ⟨replies', hreplies'⟩ := exists_replies fun t ht => hreadable t (hperm.subset ht)
  have hle : ∀ id ∈ Batch.ids rs, (repliesTo id replies).length ≤ 1 := by
    intro id hid
    rw [length_repliesTo_of_decode hreplies]
    exact honce id hid
  refine ⟨matchReplies (Batch.ids rs) replies, readBatch_eq_ok _ htext hreplies, ?_, ?_⟩
  · rw [readBatch_eq_ok _ htext' hreplies']
    refine congrArg Except.ok (matchReplies_congr _ _ _ ?_)
    intro id hid
    exact repliesTo_eq_of_perm (perm_of_decode hperm hreplies hreplies') id (hle id hid)
  · intro hids
    exact matchReplies_correlates hids hreplies hle

/-- Two requests, one with the id 7. -/
def healthChecks : List Request :=
  [⟨.getHealth, none⟩, ⟨.getHealth, some 7⟩]

/-- A reply to no request in particular. -/
def strayReply : Json :=
  .object [("jsonrpc", .string "2.0"), ("id", .null), ("result", .null)]

/-- A reply to request 7 and a stray one, in both orders. -/
theorem readBatch_correlates_strayReply :
    ∃ slots,
      readBatch (Json.array [nullReply, strayReply]).text (Batch.ids healthChecks) = .ok slots ∧
      readBatch (Json.array [strayReply, nullReply]).text (Batch.ids healthChecks) = .ok slots ∧
      Correlates healthChecks ([nullReply, strayReply].map (Tree.ofJson false)) slots := by
  have hnull : Json.Plain 126 nullReply := plain_emptyReply _ (.number _ trivial)
  have hstray : Json.Plain 126 strayReply := plain_emptyReply _ .null
  have htext : readText (Json.array [nullReply, strayReply]).text =
      (.array ([nullReply, strayReply].map (Tree.ofJson false)) true, true) :=
    Json.readText_text _ (.array _ (by simpa using ⟨hnull, hstray⟩))
  have htext' : readText (Json.array [strayReply, nullReply]).text =
      (.array ([strayReply, nullReply].map (Tree.ofJson false)) true, true) :=
    Json.readText_text _ (.array _ (by simpa using ⟨hstray, hnull⟩))
  have hreadable : ∀ t ∈ [nullReply, strayReply].map (Tree.ofJson false),
      ∃ r, (Reply.codec Codec.value).decode t = .ok r := by
    intro t ht
    simp only [List.map_cons, List.map_nil, List.mem_cons, List.not_mem_nil, or_false] at ht
    rcases ht with rfl | rfl
    · exact ⟨⟨"2.0", some 7, some .null, none⟩, rfl⟩
    · exact ⟨⟨"2.0", none, some .null, none⟩, rfl⟩
  have hids : Batch.ids healthChecks = [0, 7] := by decide
  have honce : ∀ id ∈ Batch.ids healthChecks,
      ([nullReply, strayReply].map (Tree.ofJson false)).countP
        (fun t => envelopeId? t = some id) ≤ 1 := by
    rw [hids]
    exact List.forall_mem_cons.2 ⟨by decide, List.forall_mem_singleton.2 (by decide)⟩
  have hnodup : (Batch.ids healthChecks).Nodup := by decide
  obtain ⟨slots, hslots, hslots', hcorrelates⟩ :=
    (readBatch_correlates healthChecks).2 _ _ _ _ htext htext' (.swap _ _ _) hreadable honce
  exact ⟨slots, hslots, hslots', hcorrelates hnodup⟩

end LedgerWire.Rpc
