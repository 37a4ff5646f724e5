import LedgerWire.Json.Record

set_option autoImplicit false

/-! # What records are read from

Reading an object walks over its members once and fills the slots of the fields as they come. Here
the result is said field by field: a field with one member under its key has the value of that
member, a field without one has the value that it takes when it is absent, and nothing is read if a
key comes up twice. Which other members there are matters only as far as they must be skipped. The
same is said of the items of an array. -/

namespace LedgerWire.Json

variable {α : Type} {αs : List Type}

/-- The contents of the members with this key, in order. -/
def contentsOf (key : String) : List (Option String × Tree) → List Tree
  | [] => []
  | (k, t) :: members =>
    if k = some key then t :: contentsOf key members else contentsOf key members

theorem contentsOf_cons_self (key : String) (t : Tree) (members : List (Option String × Tree)) :
    contentsOf key ((some key, t) :: members) = t :: contentsOf key members := by
  rw [contentsOf, if_pos rfl]

theorem contentsOf_cons_of_ne {key other : String} (h : other ≠ key) (t : Tree)
    (members : List (Option String × Tree)) :
    contentsOf key ((some other, t) :: members) = contentsOf key members := by
  rw [contentsOf, if_neg (fun heq => h (Option.some.inj heq))]

theorem mem_of_mem_contentsOf {key : String} {t : Tree} {members : List (Option String × Tree)}
    (h : t ∈ contentsOf key members) : (some key, t) ∈ members := by
  induction members with
  | nil => exact absurd h List.not_mem_nil
  | cons m members ih =>
    obtain ⟨k, u⟩ := m
    rw [contentsOf] at h
    split at h
    · rename_i hk
      rcases List.mem_cons.1 h with rfl | h
      · exact hk ▸ List.mem_cons_self
      · exact List.mem_cons_of_mem _ (ih h)
    · exact List.mem_cons_of_mem _ (ih h)

theorem mem_contentsOf_of_mem {key : String} {t : Tree} {members : List (Option String × Tree)}
    (h : (some key, t) ∈ members) : t ∈ contentsOf key members := by
  induction members with
  | nil => exact absurd h List.not_mem_nil
  | cons m members ih =>
    obtain ⟨k, u⟩ := m
    rw [contentsOf]
    rcases List.mem_cons.1 h with heq | h
    · obtain ⟨rfl, rfl⟩ := Prod.mk.inj heq
      rw [if_pos rfl]
      exact List.mem_cons_self
    · split
      · exact List.mem_cons_of_mem _ (ih h)
      · exact ih h

theorem contentsOf_append (key : String) (members members' : List (Option String × Tree)) :
    contentsOf key (members ++ members') = contentsOf key members ++ contentsOf key members' := by
  induction members with
  | nil => rfl
  | cons m members ih =>
    obtain ⟨k, t⟩ := m
    rw [List.cons_append, contentsOf, contentsOf, ih]
    split <;> rfl

/-- The members are cut in front of the first one with the key. -/
theorem exists_eq_append_of_contentsOf_eq_cons {key : String} {t : Tree} {ts : List Tree}
    {members : List (Option String × Tree)} (h : contentsOf key members = t :: ts) :
    ∃ before after, members = before ++ (some key, t) :: after ∧ contentsOf key before = [] := by
  induction members with
  | nil => exact absurd h (by simp [contentsOf])
  | cons m members ih =>
    obtain ⟨k, u⟩ := m
    rw [contentsOf] at h
    split at h
    · rename_i hk
      subst hk
      rw [(List.cons.inj h).1]
      exact ⟨[], members, rfl, rfl⟩
    · rename_i hk
      obtain ⟨before, after, rfl, hbefore⟩ := ih h
      refine ⟨(k, u) :: before, after, rfl, ?_⟩
      rw [contentsOf, if_neg hk, hbefore]

/-! ## One field -/

namespace Field

/-- Reading the contents one after the other takes a slot from `slot` to `slot'`. -/
def Fills (f : Field α) (slot slot' : Option α) : List Tree → Prop
  | [] => slot' = slot
  | [t] => slot = none ∧ ∃ a, f.codec.decode t = .ok a ∧ slot' = some a
  | _ => False

/-- The value of a field that has these contents in an object. -/
def Reads (f : Field α) (a : α) : List Tree → Prop
  | [] => f.absent = some a
  | [t] => f.codec.decode t = .ok a
  | _ => False

/-- The value of a field for which something or nothing is written; `missing` is the value it has in
    the latter case. -/
def Takes (f : Field α) (missing : Option α) (a : α) : Option Tree → Prop
  | none => missing = some a
  | some t => f.codec.decode t = .ok a

theorem takes_of_reads (f : Field α) (a : α) (ts : List Tree) (h : f.Reads a ts) :
    f.Takes f.absent a ts.head? := by
  match ts with
  | [] => exact h
  | [t] => exact h
  | _ :: _ :: _ => exact absurd h (by simp [Reads])

theorem fills_cons (f : Field α) (slot slot' : Option α) (t : Tree) (ts : List Tree) :
    f.Fills slot slot' (t :: ts) ↔
      slot = none ∧ ∃ a, f.codec.decode t = .ok a ∧ f.Fills (some a) slot' ts := by
  cases ts with
  | nil => rfl
  | cons u us =>
    refine ⟨?_, ?_⟩
    · intro h
      exact absurd h (by simp [Fills])
    · intro h
      obtain ⟨-, a, -, h⟩ := h
      -- the slot is taken, so there is no reading of a second member
      cases us with
      | nil => exact absurd h.1 (by simp)
      | cons => exact h

theorem exists_fills_iff_reads (f : Field α) (a : α) (ts : List Tree) :
    (∃ slot, f.Fills none slot ts ∧ slot.or f.absent = some a) ↔ f.Reads a ts := by
  match ts with
  | [] => simp [Fills, Reads]
  | [t] =>
    refine ⟨?_, ?_⟩
    · intro h
      obtain ⟨slot, ⟨-, b, hb, rfl⟩, ha⟩ := h
      cases ha
      exact hb
    · intro ha
      exact ⟨some a, ⟨rfl, a, ha, rfl⟩, rfl⟩
  | _ :: _ :: _ => simp [Fills, Reads]

/-- A field that is read can be filled with what comes first of its contents. -/
theorem exists_fills_of_reads_append (f : Field α) (a : α) (ts ts' : List Tree)
    (h : f.Reads a (ts ++ ts')) : ∃ slot, f.Fills none slot ts := by
  match ts, ts' with
  | [], _ => exact ⟨none, rfl⟩
  | [t], [] => exact ⟨some a, rfl, a, h, rfl⟩
  | [_], _ :: _ => exact absurd h (by simp [Reads])
  | _ :: _ :: _, _ => exact absurd h (by simp [Reads])

end Field

/-! ## All fields -/

namespace Fields

/-- Reading the members one after the other takes the slots from `slots` to `slots'`. -/
def Fills : {αs : List Type} → Fields αs → List (Option String × Tree) → (slots slots' : Slots αs) →
    Prop
  | _, nil, _, (), () => True
  | _, cons f fs, members, (slot, slots), (slot', slots') =>
    f.Fills slot slot' (contentsOf f.key members) ∧ fs.Fills members slots slots'

/-- The values of the fields in an object with these members. -/
def Reads : {αs : List Type} → Fields αs → List (Option String × Tree) → Row αs → Prop
  | _, nil, _, () => True
  | _, cons f fs, members, (a, as) => f.Reads a (contentsOf f.key members) ∧ fs.Reads members as

/-- Every member has a key, and belongs to a field or passes `skip`. -/
def Admits (fs : Fields αs) (skip : Tree → Bool) (members : List (Option String × Tree)) : Prop :=
  ∀ m ∈ members, ∃ key, m.1 = some key ∧ (key ∉ fs.keys → skip m.2 = true)

theorem fills_nil (fs : Fields αs) (slots slots' : Slots αs) :
    fs.Fills [] slots slots' ↔ slots' = slots := by
  induction fs with
  | nil => exact iff_of_true trivial rfl
  | cons f fs ih =>
    obtain ⟨slot, slots⟩ := slots
    obtain ⟨slot', slots'⟩ := slots'
    rw [Fills, ih]
    refine ⟨?_, ?_⟩
    · intro h
      obtain ⟨rfl, rfl⟩ := h
      rfl
    · intro h
      cases h
      exact ⟨rfl, rfl⟩

theorem fills_cons_of_not_mem (fs : Fields αs) {key : String} (hkey : key ∉ fs.keys) (t : Tree)
    (members : List (Option String × Tree)) (slots slots' : Slots αs) :
    fs.Fills ((some key, t) :: members) slots slots' ↔ fs.Fills members slots slots' := by
  induction fs with
  | nil => rfl
  | cons f fs ih =>
    obtain ⟨hne, hkey⟩ := List.ne_and_not_mem_of_not_mem_cons hkey
    obtain ⟨slot, slots⟩ := slots
    obtain ⟨slot', slots'⟩ := slots'
    rw [Fills, Fills, ih hkey, contentsOf_cons_of_ne hne]

theorem store?_eq_none_iff (fs : Fields αs) (slots : Slots αs) (key : String) (t : Tree) :
    fs.store? slots key t = none ↔ key ∉ fs.keys := by
  induction fs with
  | nil => exact iff_of_true rfl (by simp [keys])
  | cons f fs ih =>
    obtain ⟨slot, slots⟩ := slots
    rw [store?, keys, List.mem_cons, not_or, ← ih slots]
    split
    · rename_i heq
      simp [heq]
    · rename_i hne
      simp [Ne.symm hne]

/-- A member of a field is a step of reading. -/
theorem fills_cons_iff (fs : Fields αs) (hnodup : fs.keys.Nodup) {key : String}
    (hkey : key ∈ fs.keys) (t : Tree) (members : List (Option String × Tree))
    (slots slots' : Slots αs) :
    fs.Fills ((some key, t) :: members) slots slots' ↔
      ∃ mid, fs.store? slots key t = some (.ok mid) ∧ fs.Fills members mid slots' := by
  induction fs with
  | nil => exact absurd hkey (by simp [keys])
  | cons f fs ih =>
    obtain ⟨slot, slots⟩ := slots
    obtain ⟨slot', slots'⟩ := slots'
    obtain ⟨hfresh, hnodup⟩ := List.nodup_cons.1 hnodup
    rw [Fills, store?]
    by_cases heq : f.key = key
    · -- the member belongs to this field and, as keys differ, to no field behind it
      subst heq
      rw [if_pos rfl, contentsOf_cons_self, Field.fills_cons, fs.fills_cons_of_not_mem hfresh]
      cases slot with
      | some a => simp
      | none =>
        cases f.codec.decode t with
        | error e => simp [Except.map]
        | ok a =>
          refine ⟨?_, ?_⟩
          · intro h
            obtain ⟨⟨-, b, hb, hfirst⟩, hothers⟩ := h
            cases hb
            exact ⟨(some a, slots), rfl, hfirst, hothers⟩
          · intro h
            obtain ⟨mid, hmid, hfills⟩ := h
            cases hmid
            exact ⟨⟨rfl, a, rfl, hfills.1⟩, hfills.2⟩
    · rw [if_neg heq, contentsOf_cons_of_ne (Ne.symm heq),
        ih hnodup ((List.mem_cons.1 hkey).resolve_left (Ne.symm heq))]
      cases fs.store? slots key t with
      | none => simp
      | some stored =>
        cases stored with
        | error e => simp [Except.map]
        | ok mid =>
          refine ⟨?_, ?_⟩
          · intro h
            obtain ⟨hfirst, stored, hstored, hothers⟩ := h
            cases hstored
            exact ⟨(slot, mid), rfl, hfirst, hothers⟩
          · intro h
            obtain ⟨stored, hstored, hfills⟩ := h
            cases hstored
            exact ⟨hfills.1, mid, rfl, hfills.2⟩

theorem readMembers_eq_ok_iff (fs : Fields αs) (hnodup : fs.keys.Nodup) (skip : Tree → Bool)
    (members : List (Option String × Tree)) (slots slots' : Slots αs) :
    fs.readMembers skip slots members = .ok slots' ↔
      fs.Admits skip members ∧ fs.Fills members slots slots' := by
  induction members generalizing slots with
  | nil =>
    rw [readMembers, fills_nil, Except.ok.injEq, eq_comm, iff_and_self]
    intro _ m hm
    exact absurd hm (by simp)
  | cons m members ih =>
    obtain ⟨key, t⟩ := m
    cases key with
    | none => simp [readMembers, Admits]
    | some key =>
      have hadmits : fs.Admits skip ((some key, t) :: members) ↔
          (key ∉ fs.keys → skip t = true) ∧ fs.Admits skip members := by
        simp [Admits]
      rw [readMembers, hadmits]
      by_cases hkey : key ∈ fs.keys
      · rw [fs.fills_cons_iff hnodup hkey]
        cases hstored : fs.store? slots key t with
        | none => exact absurd hkey ((fs.store?_eq_none_iff slots key t).1 hstored)
        | some stored =>
          cases stored with
          | error e => simp
          | ok mid => simp [ih, hkey]
      · rw [(fs.store?_eq_none_iff slots key t).2 hkey, fs.fills_cons_of_not_mem hkey]
        cases hskip : skip t with
        | true => simp [ih]
        | false => simp [hkey]

theorem exists_complete_iff_reads (fs : Fields αs) (members : List (Option String × Tree))
    (row : Row αs) :
    (∃ slots, fs.Fills members fs.empty slots ∧ fs.complete slots = .ok row) ↔
      fs.Reads members row := by
  induction fs with
  | nil =>
    obtain ⟨⟩ := row
    exact iff_of_true ⟨(), trivial, rfl⟩ trivial
  | cons f fs ih =>
    obtain ⟨a, as⟩ := row
    rw [Reads, ← ih, ← Field.exists_fills_iff_reads]
    refine ⟨?_, ?_⟩
    · intro h
      obtain ⟨⟨slot, slots⟩, ⟨hfirst, hothers⟩, h⟩ := h
      rw [complete] at h
      split at h
      · rename_i b bs hb hbs
        cases h
        exact ⟨⟨slot, hfirst, hb⟩, slots, hothers, hbs⟩
      · exact absurd h (by simp)
    · intro h
      obtain ⟨⟨slot, hfirst, ha⟩, slots, hothers, has⟩ := h
      refine ⟨(slot, slots), ⟨hfirst, hothers⟩, ?_⟩
      rw [complete, ha, has]

/-- An object is read to the values of its fields. -/
theorem readObject_eq_ok_iff (fs : Fields αs) (hnodup : fs.keys.Nodup) (skip : Tree → Bool)
    (members : List (Option String × Tree)) (closed : Bool) (row : Row αs) :
    fs.readObject skip members closed = .ok row ↔
      closed = true ∧ fs.Admits skip members ∧ fs.Reads members row := by
  rw [readObject, ← exists_complete_iff_reads]
  refine ⟨?_, ?_⟩
  · intro h
    cases hread : fs.readMembers skip fs.empty members with
    | error e =>
      rw [hread] at h
      exact absurd h (by simp [bind, Except.bind])
    | ok slots =>
      rw [hread] at h
      obtain ⟨hadmits, hfills⟩ := (fs.readMembers_eq_ok_iff hnodup skip members _ slots).1 hread
      cases closed with
      | false => exact absurd h (by simp [bind, Except.bind, throw, throwThe, MonadExceptOf.throw])
      | true => exact ⟨rfl, hadmits, slots, hfills, h⟩
  · intro h
    obtain ⟨rfl, hadmits, slots, hfills, h⟩ := h
    rw [(fs.readMembers_eq_ok_iff hnodup skip members _ slots).2 ⟨hadmits, hfills⟩]
    exact h

/-- What is in front of a member is read first. -/
theorem readMembers_append_of_ok (fs : Fields αs) (skip : Tree → Bool)
    (before after : List (Option String × Tree)) (slots mid : Slots αs)
    (h : fs.readMembers skip slots before = .ok mid) :
    fs.readMembers skip slots (before ++ after) = fs.readMembers skip mid after := by
  induction before generalizing slots with
  | nil =>
    cases h
    rfl
  | cons m before ih =>
    obtain ⟨key, t⟩ := m
    cases key with
    | none => exact absurd h (by simp [readMembers])
    | some key =>
      rw [readMembers] at h
      rw [List.cons_append, readMembers]
      split at h
      · exact ih _ h
      · exact absurd h (by simp)
      · split at h
        · rename_i hskip
          rw [if_pos hskip]
          exact ih _ h
        · exact absurd h (by simp)

/-- The first member that cannot be read ends the reading. -/
theorem readObject_eq_error (fs : Fields αs) (skip : Tree → Bool) (closed : Bool)
    {before after : List (Option String × Tree)} {key : String} {t : Tree} {mid : Slots αs}
    {e : ReadError} (hbefore : fs.readMembers skip fs.empty before = .ok mid)
    (hstore : fs.store? mid key t = some (.error e)) :
    fs.readObject skip (before ++ (some key, t) :: after) closed = .error e := by
  rw [readObject, fs.readMembers_append_of_ok skip _ _ _ mid hbefore, readMembers, hstore]
  rfl

/-! ## Arrays -/

/-- The values of the fields in an array of these items. -/
def TakesItems : {αs : List Type} → Fields αs → List Tree → Row αs → Prop
  | _, nil, items, () => items = []
  | _, cons f fs, items, (a, as) =>
    f.Takes f.beyond a items.head? ∧ fs.TakesItems items.tail as

/-- An array is read to the values of its fields. -/
theorem readArray_eq_ok_iff (fs : Fields αs) (items : List Tree) (closed : Bool) (row : Row αs) :
    fs.readArray items closed = .ok row ↔ closed = true ∧ fs.TakesItems items row := by
  induction fs generalizing items with
  | nil =>
    obtain ⟨⟩ := row
    cases items <;> cases closed <;> simp [readArray, TakesItems]
  | @cons β βs f fs ih =>
    obtain ⟨a, as⟩ := row
    have hothers : ∀ (b : β) (ts : List Tree),
        ((fs.readArray ts closed).map fun bs => (b, bs)) = .ok (a, as) ↔
          b = a ∧ closed = true ∧ fs.TakesItems ts as := by
      intro b ts
      rw [except_map_eq_ok_iff, ← ih]
      refine ⟨?_, ?_⟩
      · intro h
        obtain ⟨bs, hbs, h⟩ := h
        cases h
        exact ⟨rfl, hbs⟩
      · intro h
        obtain ⟨rfl, has⟩ := h
        exact ⟨as, has, rfl⟩
    rw [TakesItems]
    cases items with
    | cons t ts =>
      rw [readArray]
      cases hdecode : f.codec.decode t with
      | error e => simp [Field.Takes, hdecode]
      | ok b =>
        refine (hothers b ts).trans ?_
        show _ ↔ closed = true ∧ f.codec.decode t = .ok a ∧ fs.TakesItems ts as
        rw [hdecode, Except.ok.injEq, and_left_comm]
    | nil =>
      cases closed with
      | false => simp [readArray]
      | true =>
        rw [readArray]
        cases hbeyond : f.beyond with
        | none => simp [Field.Takes]
        | some b =>
          refine (hothers b []).trans ?_
          show _ ↔ true = true ∧ some b = some a ∧ fs.TakesItems [] as
          rw [Option.some.injEq, and_left_comm]

end Fields

end LedgerWire.Json
