import LedgerWire.Proofs.Json.Faithful

set_option autoImplicit false

/-! # What a text can stand for

A text is read down to a certain depth, and a container below it is unfit for everything. So a value
that a text stands for is nested no deeper than that. A key that comes up again replaces the value
it had, so the objects of such a value have each key once. Unless it holds a double, the value is
plain then. -/

namespace LedgerWire.Json

variable {depth : Nat}

/-! ## Trees -/

/-- At most `depth` containers lie inside each other. -/
inductive Tree.Fits : (depth : Nat) → Tree → Prop where
  | null {depth : Nat} : Fits depth .null
  | bool {depth : Nat} (b : Bool) : Fits depth (.bool b)
  | number {depth : Nat} (n : Number) : Fits depth (.number n)
  | string {depth : Nat} (s : String) : Fits depth (.string s)
  | array {depth : Nat} (items : List Tree) (closed : Bool) (hitems : ∀ t ∈ items, Fits depth t) :
    Fits (depth + 1) (.array items closed)
  | object {depth : Nat} (members : List (Option String × Tree)) (closed known : Bool)
    (hmembers : ∀ m ∈ members, Fits depth m.2) : Fits (depth + 1) (.object members closed known)
  | unfit {depth : Nat} : Fits depth .unfit
  | broken {depth : Nat} : Fits depth .broken

namespace Tree.Fits

theorem container_array (items : List Tree) (closed : Bool)
    (h : ∀ t ∈ items, t.Fits (depth - 1)) : (container depth (.array items closed)).Fits depth := by
  cases depth with
  | zero =>
    rw [container]
    split
    · exact .unfit
    · exact .broken
  | succ depth => exact .array items closed h

theorem container_object (members : List (Option String × Tree)) (closed known : Bool)
    (h : ∀ m ∈ members, m.2.Fits (depth - 1)) :
    (container depth (.object members closed known)).Fits depth := by
  cases depth with
  | zero =>
    rw [container]
    split
    · exact .unfit
    · exact .broken
  | succ depth => exact .object members closed known h

theorem readNumber (cs : List Char) : (Json.readNumber cs).1.Fits depth := by
  unfold Json.readNumber
  split
  · split
    · exact .number _
    · exact .unfit
  · exact .broken

end Tree.Fits

/-! ## Reading -/

/-- With this much fuel nothing is read that does not fit. -/
structure ReadsFit (fuel : Nat) : Prop where
  value : ∀ depth cs, (readTree fuel depth cs).1.Fits depth
  items : ∀ depth cs, ∀ t ∈ (readItems fuel depth cs).1, t.Fits depth
  members : ∀ depth cs, ∀ m ∈ (readMembers fuel depth cs).1, m.2.Fits depth

namespace ReadsFit

variable {fuel : Nat}

theorem zero : ReadsFit 0 where
  value _ _ := .broken
  items _ _ := by simp [readItems]
  members _ _ := by simp [readMembers]

theorem readTree_succ (h : ReadsFit fuel) (depth : Nat) (cs : List Char) :
    (readTree (fuel + 1) depth cs).1.Fits depth := by
  rw [readTree]
  split
  · exact .null
  · exact .bool true
  · exact .bool false
  · split
    · exact .string _
    · exact .unfit
    · exact .broken
  · refine Tree.Fits.container_array _ _ ?_
    split
    · simp
    · exact h.items _ _
  · refine Tree.Fits.container_object _ _ _ ?_
    split
    · simp
    · exact h.members _ _
  · exact Tree.Fits.readNumber _

theorem readItems_succ (h : ReadsFit fuel) (depth : Nat) (cs : List Char) :
    ∀ t ∈ (readItems (fuel + 1) depth cs).1, t.Fits depth := by
  have hfirst := h.value depth cs
  rw [readItems]
  generalize readTree fuel depth cs = read at hfirst
  obtain ⟨t, rest⟩ := read
  dsimp only
  split
  · simpa using hfirst
  · exact List.forall_mem_cons.2 ⟨hfirst, h.items depth _⟩
  · simpa using hfirst

theorem readMembers_succ (h : ReadsFit fuel) (depth : Nat) (cs : List Char) :
    ∀ m ∈ (readMembers (fuel + 1) depth cs).1, m.2.Fits depth := by
  rw [readMembers]
  split
  · split
    · simp
    · split
      · rename_i rest _
        have hfirst := h.value depth rest
        generalize readTree fuel depth rest = read at hfirst
        obtain ⟨t, rest⟩ := read
        dsimp only
        split
        · simpa using hfirst
        · exact List.forall_mem_cons.2 ⟨hfirst, h.members depth _⟩
        · simpa using hfirst
      · simp
  · simp

end ReadsFit

theorem readsFit (fuel : Nat) : ReadsFit fuel := by
  induction fuel with
  | zero => exact ReadsFit.zero
  | succ fuel ih => exact ⟨ih.readTree_succ, ih.readItems_succ, ih.readMembers_succ⟩

theorem readText_fits (text : String) : (readText text).1.Fits maxDepth := by
  have hread := (readsFit (2 * text.toList.length + 2)).value maxDepth text.toList
  rw [readText]
  exact hread

/-! ## Values -/

/-- A value that is nested at most `depth` deep and whose objects have each key once. -/
inductive Held : (depth : Nat) → Json → Prop where
  | null {depth : Nat} : Held depth .null
  | bool {depth : Nat} (b : Bool) : Held depth (.bool b)
  | number {depth : Nat} (n : Number) : Held depth (.number n)
  | string {depth : Nat} (s : String) : Held depth (.string s)
  | array {depth : Nat} (items : List Json) (hitems : ∀ v ∈ items, Held depth v) :
    Held (depth + 1) (.array items)
  | object {depth : Nat} (members : List (String × Json)) (hkeys : (members.map Prod.fst).Nodup)
    (hmembers : ∀ m ∈ members, Held depth m.2) : Held (depth + 1) (.object members)

theorem map_fst_insert (key : String) (value : Json) (members : List (String × Json)) :
    (insert key value members).map Prod.fst =
      if key ∈ members.map Prod.fst then members.map Prod.fst
      else members.map Prod.fst ++ [key] := by
  induction members with
  | nil => simp [insert]
  | cons m members ih =>
    obtain ⟨k, v⟩ := m
    rw [insert]
    by_cases hk : k = key
    · simp [hk]
    · rw [if_neg hk, List.map_cons, ih]
      by_cases hmem : key ∈ members.map Prod.fst <;> simp [hmem, Ne.symm hk]

theorem nodup_insert {members : List (String × Json)} (h : (members.map Prod.fst).Nodup)
    (key : String) (value : Json) : ((insert key value members).map Prod.fst).Nodup := by
  rw [map_fst_insert]
  split
  · exact h
  · rename_i hfresh
    refine List.nodup_append.2 ⟨h, by simp, ?_⟩
    intro k hk k' hk' heq
    rw [List.mem_singleton.1 hk'] at heq
    exact hfresh (heq ▸ hk)

theorem held_insert {members : List (String × Json)} (h : ∀ m ∈ members, Held depth m.2)
    (key : String) {value : Json} (hvalue : Held depth value) :
    ∀ m ∈ insert key value members, Held depth m.2 := by
  induction members with
  | nil => simpa [insert] using hvalue
  | cons m members ih =>
    obtain ⟨hm, hmembers⟩ := List.forall_mem_cons.1 h
    rw [insert]
    split
    · exact List.forall_mem_cons.2 ⟨hvalue, hmembers⟩
    · exact List.forall_mem_cons.2 ⟨hm, ih hmembers⟩

theorem held_of_itemsToJson? {ts : List Tree} {vs : List Json}
    (h : ∀ t ∈ ts, ∀ v, t.toJson? = some v → Held depth v)
    (hvs : Tree.itemsToJson? ts = some vs) : ∀ v ∈ vs, Held depth v := by
  induction ts generalizing vs with
  | nil =>
    cases hvs
    simp
  | cons t ts ih =>
    obtain ⟨ht, hts⟩ := List.forall_mem_cons.1 h
    rw [Tree.itemsToJson?] at hvs
    split at hvs
    · rename_i v vs' hv hvs'
      cases hvs
      exact List.forall_mem_cons.2 ⟨ht v hv, ih hts hvs'⟩
    · exact absurd hvs (by simp)

theorem held_of_membersToJson? {ms : List (Option String × Tree)}
    {before after : List (String × Json)}
    (h : ∀ m ∈ ms, ∀ v, m.2.toJson? = some v → Held depth v)
    (hkeys : (before.map Prod.fst).Nodup) (hbefore : ∀ m ∈ before, Held depth m.2)
    (hafter : Tree.membersToJson? before ms = some after) :
    (after.map Prod.fst).Nodup ∧ ∀ m ∈ after, Held depth m.2 := by
  induction ms generalizing before with
  | nil =>
    cases hafter
    exact ⟨hkeys, hbefore⟩
  | cons m ms ih =>
    obtain ⟨key, t⟩ := m
    obtain ⟨ht, hms⟩ := List.forall_mem_cons.1 h
    cases key with
    | none => exact absurd hafter (by simp [Tree.membersToJson?])
    | some key =>
      rw [Tree.membersToJson?] at hafter
      split at hafter
      · rename_i v hv
        exact ih hms (nodup_insert hkeys key v) (held_insert hbefore key (ht v hv)) hafter
      · exact absurd hafter (by simp)

/-- The value of a tree is nested as the tree is. -/
theorem Tree.Fits.held {t : Tree} (h : t.Fits depth) {v : Json} (hv : t.toJson? = some v) :
    Held depth v := by
  induction h generalizing v with
  | null =>
    cases hv
    exact .null
  | bool b =>
    cases hv
    exact .bool b
  | number n =>
    cases hv
    exact .number n
  | string s =>
    cases hv
    exact .string s
  | array items closed _ ih =>
    cases closed with
    | false => exact absurd hv (by simp [toJson?])
    | true =>
      obtain ⟨vs, hvs, rfl⟩ := Option.map_eq_some_iff.1 hv
      exact .array vs (held_of_itemsToJson? (fun t ht v hv => ih t ht hv) hvs)
  | object members closed known _ ih =>
    cases closed with
    | false => exact absurd hv (by simp [toJson?])
    | true =>
      obtain ⟨ms, hms, rfl⟩ := Option.map_eq_some_iff.1 hv
      have hnone : (([] : List (String × Json)).map Prod.fst).Nodup := List.nodup_nil
      obtain ⟨hkeys, hmembers⟩ :=
        held_of_membersToJson? (fun m hm v hv => ih m hm hv) hnone (by simp) hms
      exact .object ms hkeys hmembers
  | unfit => exact absurd hv (by simp [toJson?])
  | broken => exact absurd hv (by simp [toJson?])

theorem Tree.eq_null_of_toJson? {t : Tree} (h : t.toJson? = some .null) : t = .null := by
  cases t with
  | null => rfl
  | array items closed => cases closed <;> simp [toJson?] at h
  | object members closed known => cases closed <;> simp [toJson?] at h
  | _ => simp [toJson?] at h

/-! ## Integers only -/

/-- No number in the value is a double. -/
inductive IsIntegral : Json → Prop where
  | null : IsIntegral .null
  | bool (b : Bool) : IsIntegral (.bool b)
  | number (n : Number) (hn : n.IsInteger) : IsIntegral (.number n)
  | string (s : String) : IsIntegral (.string s)
  | array (items : List Json) (hitems : ∀ v ∈ items, IsIntegral v) : IsIntegral (.array items)
  | object (members : List (String × Json)) (hmembers : ∀ m ∈ members, IsIntegral m.2) :
    IsIntegral (.object members)

theorem Held.plain {v : Json} (h : Held depth v) (hv : v.IsIntegral) : Plain depth v := by
  induction h with
  | null => exact .null
  | bool b => exact .bool b
  | number n =>
    cases hv with
    | number _ hn => exact .number n hn
  | string s => exact .string s
  | array items _ ih =>
    cases hv with
    | array _ hitems => exact .array items fun v hmem => ih v hmem (hitems v hmem)
  | object members hkeys _ ih =>
    cases hv with
    | object _ hmembers => exact .object members hkeys fun m hmem => ih m hmem (hmembers m hmem)

end LedgerWire.Json
