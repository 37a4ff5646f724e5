import LedgerWire.Proofs.Json.Text
import LedgerWire.Proofs.Rpc.Reply

set_option autoImplicit false

/-! # Which reply belongs to which request of a batch

Matching walks over the requests and takes the first reply to each one's id out of the list. So the
replies to one id form a queue of their own, which the requests with that id empty from the front:
the request in front of which `m` others have the same id gets reply number `m`, counted from zero,
among the replies to the id. Everything else is read off from this count. -/

namespace LedgerWire.Rpc

open Json (Codec Tree readText)

/-! ## One id -/

/-- The replies to one id, in the order in which they came. -/
def repliesTo (id : UInt64) (replies : List (Reply Json)) : List (Reply Json) :=
  replies.filter fun r => r.id = some id

theorem repliesTo_cons_of_eq {id : UInt64} {r : Reply Json} (h : r.id = some id)
    (rs : List (Reply Json)) : repliesTo id (r :: rs) = r :: repliesTo id rs := by
  simp [repliesTo, h]

theorem repliesTo_cons_of_ne {id : UInt64} {r : Reply Json} (h : r.id ≠ some id)
    (rs : List (Reply Json)) : repliesTo id (r :: rs) = repliesTo id rs := by
  simp [repliesTo, h]

theorem takeReply_eq_none_iff (id : UInt64) (replies : List (Reply Json)) :
    takeReply id replies = none ↔ repliesTo id replies = [] := by
  induction replies with
  | nil => exact iff_of_true rfl rfl
  | cons r rs ih =>
    rw [takeReply]
    split
    · rename_i hr
      simp [repliesTo_cons_of_eq hr]
    · rename_i hr
      rw [Option.map_eq_none_iff, ih, repliesTo_cons_of_ne hr]

/-- Taking a reply shortens the queue of its id and leaves those of other ids as they are. -/
theorem repliesTo_of_takeReply (id : UInt64) (replies others : List (Reply Json)) (r : Reply Json)
    (h : takeReply id replies = some (r, others)) :
    repliesTo id replies = r :: repliesTo id others ∧
      ∀ other, other ≠ id → repliesTo other others = repliesTo other replies := by
  induction replies generalizing others with
  | nil => exact absurd h (by simp [takeReply])
  | cons q qs ih =>
    rw [takeReply] at h
    split at h
    · rename_i hq
      cases h
      refine ⟨repliesTo_cons_of_eq hq _, ?_⟩
      intro other hne
      exact (repliesTo_cons_of_ne (by simp [hq, Ne.symm hne]) _).symm
    · rename_i hq
      obtain ⟨⟨found, behind⟩, htake, heq⟩ := Option.map_eq_some_iff.1 h
      cases heq
      obtain ⟨hid, hothers⟩ := ih behind htake
      rw [repliesTo_cons_of_ne hq, repliesTo_cons_of_ne hq]
      refine ⟨hid, ?_⟩
      intro other hne
      by_cases hto : q.id = some other
      · rw [repliesTo_cons_of_eq hto, repliesTo_cons_of_eq hto, hothers other hne]
      · rw [repliesTo_cons_of_ne hto, repliesTo_cons_of_ne hto, hothers other hne]

/-! ## All requests -/

/-- The outcome of a request to `id` that gets this reply, or none. -/
def slotOutcome (id : UInt64) : Option (Reply Json) → Except RpcError Json
  | some r => r.outcome
  | none => .error (.missingResponse id)

theorem length_matchReplies (ids : List UInt64) (replies : List (Reply Json)) :
    (matchReplies ids replies).length = ids.length := by
  induction ids generalizing replies with
  | nil => rfl
  | cons id ids ih =>
    rw [matchReplies]
    split <;> simp [ih]

/-- A request gets the reply whose place in the queue of its id is the number of requests with that
    id in front of it. -/
theorem matchReplies_getElem? (ids : List UInt64) (replies : List (Reply Json)) (k : Nat)
    (id : UInt64) (hk : ids[k]? = some id) :
    (matchReplies ids replies)[k]? =
      some (slotOutcome id (repliesTo id replies)[(ids.take k).count id]?) := by
  induction ids generalizing replies k with
  | nil => exact absurd hk (by simp)
  | cons first ids ih =>
    rw [matchReplies]
    cases k with
    | zero =>
      rw [List.getElem?_cons_zero, Option.some.injEq] at hk
      subst hk
      cases htake : takeReply first replies with
      | none =>
        rw [(takeReply_eq_none_iff first replies).1 htake]
        rfl
      | some found =>
        obtain ⟨r, others⟩ := found
        rw [(repliesTo_of_takeReply first replies others r htake).1]
        rfl
    | succ k =>
      rw [List.getElem?_cons_succ] at hk
      rw [List.take_succ_cons, List.count_cons]
      cases htake : takeReply first replies with
      | none =>
        have hnone := (takeReply_eq_none_iff first replies).1 htake
        rw [List.getElem?_cons_succ, ih replies k hk]
        by_cases heq : first = id
        · -- the queue was empty before and is so now
          subst heq
          rw [hnone]
          rfl
        · simp [heq]
      | some found =>
        obtain ⟨r, others⟩ := found
        obtain ⟨hid, hothers⟩ := repliesTo_of_takeReply first replies others r htake
        rw [List.getElem?_cons_succ, ih others k hk]
        by_cases heq : first = id
        · subst heq
          simp [hid]
        · simp [heq, hothers id (Ne.symm heq)]

theorem matchReplies_getElem?_of_reply {ids : List UInt64} {replies : List (Reply Json)} {k : Nat}
    {id : UInt64} {r : Reply Json} (hk : ids[k]? = some id)
    (hr : (repliesTo id replies)[(ids.take k).count id]? = some r) :
    (matchReplies ids replies)[k]? = some r.outcome := by
  rw [matchReplies_getElem? ids replies k id hk, hr]
  rfl

/-! ## Places -/

theorem getElem?_filter_eq_some_iff {α : Type} (p : α → Bool) (as : List α) (m : Nat) (a : α) :
    (as.filter p)[m]? = some a ↔
      ∃ j, as[j]? = some a ∧ p a = true ∧ (as.take j).countP p = m := by
  induction as generalizing m with
  | nil => simp
  | cons b bs ih =>
    refine ⟨?_, ?_⟩
    · intro h
      by_cases hb : p b = true
      · rw [List.filter_cons_of_pos hb] at h
        cases m with
        | zero =>
          rw [List.getElem?_cons_zero, Option.some.injEq] at h
          subst h
          exact ⟨0, rfl, hb, rfl⟩
        | succ m =>
          obtain ⟨j, hj, ha, hcount⟩ := (ih m).1 h
          exact ⟨j + 1, hj, ha, by simp [hb, hcount]⟩
      · rw [List.filter_cons_of_neg hb] at h
        obtain ⟨j, hj, ha, hcount⟩ := (ih m).1 h
        exact ⟨j + 1, hj, ha, by simp [hb, hcount]⟩
    · intro h
      obtain ⟨j, hj, ha, rfl⟩ := h
      cases j with
      | zero =>
        rw [List.getElem?_cons_zero, Option.some.injEq] at hj
        subst hj
        simp [ha]
      | succ j =>
        have hbs := (ih _).2 ⟨j, hj, ha, rfl⟩
        by_cases hb : p b = true
        · simpa [hb] using hbs
        · simpa [hb] using hbs

theorem countP_take_lt {α : Type} (p : α → Bool) (as : List α) {i j : Nat} {a : α} (hij : i < j)
    (hi : as[i]? = some a) (ha : p a = true) : (as.take i).countP p < (as.take j).countP p := by
  have hsub : (as.take (i + 1)).Sublist (as.take j) := List.take_sublist_take_left hij
  have hstep : (as.take (i + 1)).countP p = (as.take i).countP p + 1 := by
    simp [List.take_add_one, hi, ha]
  have := hsub.countP_le (p := p)
  omega

theorem eq_of_countP_take_eq {α : Type} (p : α → Bool) (as : List α) {i j : Nat} {a b : α}
    (hi : as[i]? = some a) (ha : p a = true) (hj : as[j]? = some b) (hb : p b = true)
    (h : (as.take i).countP p = (as.take j).countP p) : i = j := by
  rcases Nat.lt_trichotomy i j with hij | hij | hij
  · exact absurd h (Nat.ne_of_lt (countP_take_lt p as hij hi ha))
  · exact hij
  · exact absurd h.symm (Nat.ne_of_lt (countP_take_lt p as hij hj hb))

theorem length_repliesTo (id : UInt64) (replies : List (Reply Json)) :
    (repliesTo id replies).length = replies.countP fun r => r.id = some id :=
  List.countP_eq_length_filter.symm

/-- Reply `j` goes into slot `k`: both have the same id, and as many replies to it came before the
    one as there are requests with it in front of the other. -/
def Serves (ids : List UInt64) (replies : List (Reply Json)) (j k : Nat) : Prop :=
  ∃ id r, ids[k]? = some id ∧ replies[j]? = some r ∧ r.id = some id ∧
    (repliesTo id (replies.take j)).length = (ids.take k).count id

theorem exists_serves_iff (ids : List UInt64) (replies : List (Reply Json)) (k : Nat) (id : UInt64)
    (r : Reply Json) (hk : ids[k]? = some id) :
    (∃ j, replies[j]? = some r ∧ Serves ids replies j k) ↔
      (repliesTo id replies)[(ids.take k).count id]? = some r := by
  rw [repliesTo, getElem?_filter_eq_some_iff]
  refine ⟨?_, ?_⟩
  · intro h
    obtain ⟨j, hj, id', r', hk', hj', hid, hcount⟩ := h
    rw [hk, Option.some.injEq] at hk'
    rw [hj, Option.some.injEq] at hj'
    subst hk' hj'
    rw [length_repliesTo] at hcount
    exact ⟨j, hj, decide_eq_true hid, hcount⟩
  · intro h
    obtain ⟨j, hj, hid, hcount⟩ := h
    rw [← length_repliesTo] at hcount
    exact ⟨j, hj, id, r, hk, hj, of_decide_eq_true hid, hcount⟩

theorem slot_eq_of_serves (ids : List UInt64) (replies : List (Reply Json)) (j k k' : Nat)
    (h : Serves ids replies j k) (h' : Serves ids replies j k') : k = k' := by
  obtain ⟨id, r, hk, hj, hid, hcount⟩ := h
  obtain ⟨id', r', hk', hj', hid', hcount'⟩ := h'
  rw [hj, Option.some.injEq] at hj'
  subst hj'
  rw [hid, Option.some.injEq] at hid'
  subst hid'
  exact eq_of_countP_take_eq (· == id) ids hk (beq_self_eq_true id) hk' (beq_self_eq_true id)
    (hcount.symm.trans hcount')

theorem reply_eq_of_serves (ids : List UInt64) (replies : List (Reply Json)) (j j' k : Nat)
    (h : Serves ids replies j k) (h' : Serves ids replies j' k) : j = j' := by
  obtain ⟨id, r, hk, hj, hid, hcount⟩ := h
  obtain ⟨id', r', hk', hj', hid', hcount'⟩ := h'
  rw [hk, Option.some.injEq] at hk'
  subst hk'
  rw [length_repliesTo] at hcount hcount'
  exact eq_of_countP_take_eq _ replies hj (decide_eq_true hid) hj' (decide_eq_true hid')
    (hcount.trans hcount'.symm)

theorem exists_serves_or_all_served (ids : List UInt64) (replies : List (Reply Json)) (j : Nat)
    (r : Reply Json) (id : UInt64) (hj : replies[j]? = some r) (hid : r.id = some id) :
    (∃ k, Serves ids replies j k) ∨
      ∀ k, ids[k]? = some id → ∃ j' < j, Serves ids replies j' k := by
  rcases Nat.lt_or_ge (repliesTo id (replies.take j)).length (ids.count id) with hlt | hle
  · -- more requests have the id than replies to it came before, and one of them is next
    rw [List.count_eq_countP, List.countP_eq_length_filter] at hlt
    obtain ⟨k, hk, -, hcount⟩ :=
      (getElem?_filter_eq_some_iff _ _ _ _).1 (List.getElem?_eq_getElem hlt)
    have hmem := List.getElem_mem hlt
    rw [List.mem_filter, beq_iff_eq] at hmem
    rw [hmem.2] at hk
    exact Or.inl ⟨k, id, r, hk, hj, hid, hcount.symm⟩
  · -- the replies that came before are enough for all requests with the id
    refine Or.inr ?_
    intro k hk
    have hcount : (ids.take k).count id < (repliesTo id (replies.take j)).length := by
      obtain ⟨hlt, -⟩ := List.getElem?_eq_some_iff.1 hk
      have := countP_take_lt (· == id) ids hlt hk (beq_self_eq_true id)
      rw [List.take_length] at this
      exact Nat.lt_of_lt_of_le this hle
    obtain ⟨j', hj', id', r', hk', hr', hid', hcount'⟩ :=
      (exists_serves_iff ids (replies.take j) k id _ hk).2 (List.getElem?_eq_getElem hcount)
    rw [List.getElem?_take] at hr'
    split at hr'
    · rename_i hlt
      rw [List.take_take, Nat.min_eq_left (Nat.le_of_lt hlt)] at hcount'
      exact ⟨j', hlt, id', r', hk', hr', hid', hcount'⟩
    · exact absurd hr' (by simp)

/-- The slots are filled as the ids say. -/
structure IsMatching (ids : List UInt64) (replies : List (Reply Json))
    (slots : List (Except RpcError Json)) : Prop where
  /-- There is one slot for each request. -/
  length_eq : slots.length = ids.length
  /-- A slot with `m` earlier slots of its id holds what comes of reply number `m` to the id. -/
  replied : ∀ k id r, ids[k]? = some id →
    (repliesTo id replies)[(ids.take k).count id]? = some r →
    ∃ slot, slots[k]? = some slot ∧ r.HasOutcome slot
  /-- If there are not more than `m` replies to the id, then the slot says so. -/
  missing : ∀ k id, ids[k]? = some id →
    (repliesTo id replies).length ≤ (ids.take k).count id →
    slots[k]? = some (.error (.missingResponse id))
  /-- A slot that a reply goes into holds what comes of it. -/
  served : ∀ j k r, replies[j]? = some r → Serves ids replies j k →
    ∃ slot, slots[k]? = some slot ∧ r.HasOutcome slot
  /-- No reply goes into two slots. -/
  slot_unique : ∀ j k k', Serves ids replies j k → Serves ids replies j k' → k = k'
  /-- No two replies go into one slot. -/
  reply_unique : ∀ j j' k, Serves ids replies j k → Serves ids replies j' k → j = j'
  /-- A reply that goes nowhere came after replies for all the slots of its id. -/
  not_skipped : ∀ j r id, replies[j]? = some r → r.id = some id →
    (∃ k, Serves ids replies j k) ∨ ∀ k, ids[k]? = some id → ∃ j' < j, Serves ids replies j' k
  /-- Only the replies to the ids of the requests matter. -/
  others_free : ∀ replies', (∀ id ∈ ids, repliesTo id replies' = repliesTo id replies) →
    matchReplies ids replies' = slots

theorem matchReplies_congr (ids : List UInt64) (replies replies' : List (Reply Json))
    (h : ∀ id ∈ ids, repliesTo id replies' = repliesTo id replies) :
    matchReplies ids replies' = matchReplies ids replies := by
  apply List.ext_getElem?
  intro k
  cases hk : ids[k]? with
  | none =>
    have hle := List.getElem?_eq_none_iff.1 hk
    rw [List.getElem?_eq_none (by rwa [length_matchReplies]),
      List.getElem?_eq_none (by rwa [length_matchReplies])]
  | some id =>
    rw [matchReplies_getElem? ids replies' k id hk, matchReplies_getElem? ids replies k id hk,
      h id (List.mem_of_getElem? hk)]

theorem matchReplies_isMatching (ids : List UInt64) (replies : List (Reply Json)) :
    IsMatching ids replies (matchReplies ids replies) where
  length_eq := length_matchReplies ids replies
  replied := by
    intro k id r hk hr
    exact ⟨r.outcome, matchReplies_getElem?_of_reply hk hr, r.hasOutcome_outcome⟩
  missing := by
    intro k id hk hle
    rw [matchReplies_getElem? ids replies k id hk, List.getElem?_eq_none hle]
    rfl
  served := by
    intro j k r hj h
    obtain ⟨id, _, hk, _⟩ := id h
    have hr := (exists_serves_iff ids replies k id r hk).1 ⟨j, hj, h⟩
    exact ⟨r.outcome, matchReplies_getElem?_of_reply hk hr, r.hasOutcome_outcome⟩
  slot_unique := slot_eq_of_serves ids replies
  reply_unique := reply_eq_of_serves ids replies
  not_skipped := exists_serves_or_all_served ids replies
  others_free := matchReplies_congr ids replies

theorem readBatch_eq_ok {text : String} (ids : List UInt64) {envelopes : List Tree}
    {replies : List (Reply Json)} (htext : readText text = (.array envelopes true, true))
    (hreplies : envelopes.map (Reply.codec Codec.value).decode = replies.map .ok) :
    readBatch text ids = .ok (matchReplies ids replies) := by
  have hread : (Reply.codec Codec.value).list.fromText text = .ok replies := by
    rw [Codec.fromText_eq_ok_iff, Codec.list_decode_eq_ok_iff, htext]
    exact ⟨⟨envelopes, rfl, hreplies⟩, rfl⟩
  rw [readBatch, hread]

/-- If a text is an array of envelopes, each of which is read as a reply, then the replies say what
    the envelopes do, and the outcomes of a batch are those of the replies, handed out by the
    ids. -/
theorem readBatch_isMatching (text : String) (ids : List UInt64) (envelopes : List Tree)
    (replies : List (Reply Json)) (htext : readText text = (.array envelopes true, true))
    (hreplies : envelopes.map (Reply.codec Codec.value).decode = replies.map .ok) :
    (∀ (j : Nat) (t : Tree) (r : Reply Json),
        envelopes[j]? = some t → replies[j]? = some r → r.IsReadFrom t) ∧
      ∃ slots, readBatch text ids = .ok slots ∧ IsMatching ids replies slots := by
  refine ⟨?_, ?_⟩
  · intro j t r ht hr
    have hj := congrArg (·[j]?) hreplies
    simp only [List.getElem?_map, ht, hr, Option.map_some, Option.some.injEq] at hj
    exact Reply.isReadFrom_of_decode r t hj
  · exact ⟨matchReplies ids replies, readBatch_eq_ok ids htext hreplies,
      matchReplies_isMatching ids replies⟩

/-- A reply to request 7 with the result null. -/
def nullReply : Json :=
  .object [("jsonrpc", .string "2.0"), ("id", .natural 7), ("result", .null)]

theorem plain_emptyReply {depth : Nat} (id : Json) (hid : Json.Plain depth id) :
    Json.Plain (depth + 1)
      (.object [("jsonrpc", .string "2.0"), ("id", id), ("result", .null)]) := by
  have hkeys : ["jsonrpc", "id", "result"].Nodup := by decide
  refine .object _ hkeys ?_
  intro m hm
  simp only [List.mem_cons, List.not_mem_nil, or_false] at hm
  rcases hm with rfl | rfl | rfl
  · exact .string _
  · exact hid
  · exact .null

theorem plain_nullReplies : Json.Plain Json.maxDepth (.array [nullReply]) :=
  .array _ (List.forall_mem_singleton.2 (plain_emptyReply _ (.number _ trivial)))

/-- One reply, two requests with its id. -/
theorem readBatch_isMatching_nullReply :
    readText (Json.array [nullReply]).text = (.array [Tree.ofJson false nullReply] true, true) ∧
      [Tree.ofJson false nullReply].map (Reply.codec Codec.value).decode =
        [⟨"2.0", some 7, some .null, none⟩].map .ok ∧
      ∃ slots, readBatch (Json.array [nullReply]).text [7, 7] = .ok slots ∧
        IsMatching [7, 7] [⟨"2.0", some 7, some .null, none⟩] slots := by
  have htext : readText (Json.array [nullReply]).text =
      (.array [Tree.ofJson false nullReply] true, true) :=
    Json.readText_text _ plain_nullReplies
  have hreplies : [Tree.ofJson false nullReply].map (Reply.codec Codec.value).decode =
      [⟨"2.0", some 7, some .null, none⟩].map .ok := by
    rfl
  exact ⟨htext, hreplies, (readBatch_isMatching _ [7, 7] _ _ htext hreplies).2⟩

end LedgerWire.Rpc
