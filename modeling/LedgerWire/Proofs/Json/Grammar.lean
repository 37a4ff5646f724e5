import LedgerWire.Proofs.Json.Codec

set_option autoImplicit false

/-! # What is read keeps to the grammar

A record skips what it does not ask for, but not blindly: what is skipped has to be grammatical, and
in a record that another one is merged into it even has to be a value. When the same object is read
as two records, what one of them reads may be what the other one skips. So for each codec it is shown
which trees it reads at all (`Codec.ReadsOnly`), and from that, that an object that was read as one
record is admitted by another one (`Fields.Admits.of_reads`). -/

namespace LedgerWire.Json

variable {α : Type} {αs βs : List Type}

/-! ## Values are grammatical -/

namespace Tree

/-- The tree stands for a value. -/
def isValue (t : Tree) : Bool :=
  t.toJson?.isSome

mutual

theorem isGrammatical_of_toJson? (t : Tree) (v : Json) (h : t.toJson? = some v) :
    t.isGrammatical = true := by
  cases t with
  | array items closed =>
    cases closed with
    | false => exact absurd h (by simp [toJson?])
    | true =>
      obtain ⟨vs, hvs, -⟩ := Option.map_eq_some_iff.1 h
      exact areGrammatical_of_itemsToJson? items vs hvs
  | object members closed known =>
    cases closed with
    | false => exact absurd h (by simp [toJson?])
    | true =>
      obtain ⟨ms, hms, -⟩ := Option.map_eq_some_iff.1 h
      exact membersAreGrammatical_of_membersToJson? members [] ms hms
  | broken => exact absurd h (by simp [toJson?])
  | _ => rfl

theorem areGrammatical_of_itemsToJson? (ts : List Tree) (vs : List Json)
    (h : itemsToJson? ts = some vs) : areGrammatical ts = true := by
  cases ts with
  | nil => rfl
  | cons t ts =>
    rw [itemsToJson?] at h
    split at h
    · rename_i v vs' hv hvs
      rw [areGrammatical, isGrammatical_of_toJson? t v hv,
        areGrammatical_of_itemsToJson? ts vs' hvs]
      rfl
    · exact absurd h (by simp)

theorem membersAreGrammatical_of_membersToJson? (ms : List (Option String × Tree))
    (before after : List (String × Json)) (h : membersToJson? before ms = some after) :
    membersAreGrammatical ms = true := by
  match ms with
  | [] => rfl
  | (none, t) :: ms => exact absurd h (by simp [membersToJson?])
  | (some key, t) :: ms =>
    rw [membersToJson?] at h
    split at h
    · rename_i v hv
      rw [membersAreGrammatical, isGrammatical_of_toJson? t v hv,
        membersAreGrammatical_of_membersToJson? ms _ after h]
      rfl
    · exact absurd h (by simp)

end

theorem isGrammatical_of_isValue {t : Tree} (h : t.isValue = true) : t.isGrammatical = true := by
  obtain ⟨v, hv⟩ := Option.isSome_iff_exists.1 h
  exact isGrammatical_of_toJson? t v hv

theorem areGrammatical_iff (ts : List Tree) :
    areGrammatical ts = true ↔ ∀ t ∈ ts, t.isGrammatical = true := by
  induction ts with
  | nil => simp [areGrammatical]
  | cons t ts ih => simp [areGrammatical, ih]

theorem membersAreGrammatical_iff (ms : List (Option String × Tree)) :
    membersAreGrammatical ms = true ↔ ∀ m ∈ ms, m.2.isGrammatical = true := by
  induction ms with
  | nil => simp [membersAreGrammatical]
  | cons m ms ih =>
    obtain ⟨key, t⟩ := m
    simp [membersAreGrammatical, ih]

end Tree

/-! ## Codecs -/

namespace Codec

/-- Whatever is read fits. -/
def ReadsOnly (fits : Tree → Bool) (c : Codec α) : Prop :=
  ∀ t a, c.decode t = .ok a → fits t = true

theorem ReadsOnly.grammatical {c : Codec α} (h : c.ReadsOnly Tree.isValue) :
    c.ReadsOnly Tree.isGrammatical :=
  fun t a ha => Tree.isGrammatical_of_isValue (h t a ha)

theorem bool_readsOnly : bool.ReadsOnly Tree.isValue := by
  intro t b h
  rw [(bool_decode_eq_ok_iff t b).1 h]
  rfl

theorem string_readsOnly : string.ReadsOnly Tree.isValue := by
  intro t s h
  rw [(string_decode_eq_ok_iff t s).1 h]
  rfl

theorem u64_readsOnly : u64.ReadsOnly Tree.isValue := by
  intro t n h
  rw [(u64_decode_eq_ok_iff t n).1 h]
  rfl

theorem ReadsOnly.nullable {fits : Tree → Bool} {c : Codec α} (h : c.ReadsOnly fits)
    (hnull : fits .null = true) : c.nullable.ReadsOnly fits := by
  intro t o ho
  rcases (nullable_decode_eq_ok_iff c t o).1 ho with ⟨rfl, -⟩ | ⟨-, a, ha, -⟩
  · exact hnull
  · exact h t a ha

theorem ReadsOnly.list {c : Codec α} (h : c.ReadsOnly Tree.isGrammatical) :
    c.list.ReadsOnly Tree.isGrammatical := by
  intro t as has
  obtain ⟨items, rfl, hitems⟩ := (list_decode_eq_ok_iff c t as).1 has
  refine (Tree.areGrammatical_iff items).2 ?_
  intro t ht
  obtain ⟨a, -, ha⟩ := List.mem_map.1 (hitems ▸ List.mem_map_of_mem ht)
  exact h t a ha.symm

theorem variants_readsOnly {encode : α → String × Json}
    {readers : List (String × (Tree → Except ReadError α))}
    (h : ∀ r ∈ readers, ∀ t a, r.2 t = .ok a → t.isGrammatical = true) :
    (variants encode readers).ReadsOnly Tree.isGrammatical := by
  intro t a ha
  obtain ⟨name, u, known, read, rfl, hlookup, hread⟩ :=
    (variants_decode_eq_ok_iff encode readers t a).1 ha
  obtain ⟨before, after, rfl, -⟩ := List.lookup_eq_some_iff.1 hlookup
  have hu : u.isGrammatical = true := h (name, read) (by simp) u a hread
  simp [Tree.isGrammatical, Tree.membersAreGrammatical, hu]

end Codec

theorem Names.codec_readsOnly (names : Names α) : names.codec.ReadsOnly Tree.isValue := by
  intro t a h
  simp only [codec] at h
  split at h
  · rfl
  · rfl
  · exact absurd h (by simp)

/-! ## Fields -/

/-- A field that is read takes its value from all that stands under its key. -/
theorem Field.decode_of_mem_reads {f : Field α} {a : α} {ts : List Tree} (h : f.Reads a ts)
    {t : Tree} (ht : t ∈ ts) : f.codec.decode t = .ok a := by
  match ts with
  | [] => exact absurd ht List.not_mem_nil
  | [u] =>
    rw [List.mem_singleton.1 ht]
    exact h
  | _ :: _ :: _ => exact absurd h (by simp [Reads])

namespace Fields

/-- Whatever a field reads under its key fits. -/
def ReadOnly (fits : String → Tree → Prop) : {αs : List Type} → Fields αs → Prop
  | _, nil => True
  | _, cons f fs => (∀ t a, f.codec.decode t = .ok a → fits f.key t) ∧ fs.ReadOnly fits

/-- What stands under the key of a field was read by the field. -/
theorem ReadOnly.of_mem {fits : String → Tree → Prop} {fs : Fields αs} (h : fs.ReadOnly fits)
    {members : List (Option String × Tree)} {row : Row αs} (hreads : fs.Reads members row)
    {key : String} (hkey : key ∈ fs.keys) {t : Tree} (ht : t ∈ contentsOf key members) :
    fits key t := by
  induction fs with
  | nil => exact absurd hkey List.not_mem_nil
  | cons f fs ih =>
    obtain ⟨a, as⟩ := row
    rcases List.mem_cons.1 hkey with rfl | hkey
    · exact h.1 t a (Field.decode_of_mem_reads hreads.1 ht)
    · exact ih h.2 hreads.2 hkey

theorem ReadOnly.of_mem_items {fits : Tree → Prop} {fs : Fields αs}
    (h : fs.ReadOnly fun _ => fits) {items : List Tree} {row : Row αs}
    (htakes : fs.TakesItems items row) {t : Tree} (ht : t ∈ items) : fits t := by
  induction fs generalizing items with
  | nil =>
    obtain rfl : items = [] := htakes
    exact absurd ht List.not_mem_nil
  | cons f fs ih =>
    obtain ⟨a, as⟩ := row
    obtain ⟨hfirst, hothers⟩ := htakes
    cases items with
    | nil => exact absurd ht List.not_mem_nil
    | cons u items =>
      rcases List.mem_cons.1 ht with rfl | ht
      · exact h.1 t a hfirst
      · exact ih h.2 hothers ht

/-- Whatever is read under a key that the other record does not have can be skipped there. -/
def SkippedBy (skip : Tree → Bool) (fs : Fields αs) (fs' : Fields βs) : Prop :=
  fs.ReadOnly fun key t => key ∉ fs'.keys → skip t = true

/-- A key that the other record has is not skipped there. -/
theorem skipped_of_mem {keys : List String} {skip : Tree → Bool} (f : Field α) (hkey : f.key ∈ keys)
    (t : Tree) (a : α) (_ : f.codec.decode t = .ok a) (hother : f.key ∉ keys) : skip t = true :=
  absurd hkey hother

/-- An optional field is skipped if its contents and null can be. -/
theorem skipped_of_readsOnly {keys : List String} {skip : Tree → Bool} (key : String) {c : Codec α}
    (h : c.ReadsOnly skip) (hnull : skip .null = true) (t : Tree) (o : Option α)
    (ho : c.nullable.decode t = .ok o) (_ : key ∉ keys) : skip t = true :=
  h.nullable hnull t o ho

/-- What was read as one record is admitted by another one, if that can skip what the first one
    reads on its own and what it skips. -/
theorem Admits.of_reads {fs : Fields αs} {fs' : Fields βs} {skip skip' : Tree → Bool}
    {members : List (Option String × Tree)} {row : Row αs} (h : fs.Admits skip members)
    (hreads : fs.Reads members row) (hskip : ∀ t, skip t = true → skip' t = true)
    (hfields : fs.SkippedBy skip' fs') : fs'.Admits skip' members := by
  intro m hm
  obtain ⟨key, hkey, hfits⟩ := h m hm
  refine ⟨key, hkey, ?_⟩
  intro hother
  by_cases hown : key ∈ fs.keys
  · have ht : m.2 ∈ contentsOf key members := mem_contentsOf_of_mem (hkey ▸ hm)
    exact hfields.of_mem hreads hown ht hother
  · exact hskip _ (hfits hown)

end Fields

/-! ## Records -/

theorem Record.codec_readsOnly {σ : Type} {r : Record σ} (hnodup : r.fields.keys.Nodup)
    (h : r.fields.ReadOnly fun _ t => t.isGrammatical = true) :
    r.codec.ReadsOnly Tree.isGrammatical := by
  intro t s hdecode
  cases t with
  | object members closed known =>
    obtain ⟨rfl, hadmits, row, hreads, -⟩ :=
      (r.decode_object_eq_ok_iff hnodup members closed known s).1 hdecode
    refine (Tree.membersAreGrammatical_iff members).2 ?_
    intro m hm
    obtain ⟨key, hkey, hskip⟩ := hadmits m hm
    by_cases hown : key ∈ r.fields.keys
    · exact h.of_mem hreads hown (mem_contentsOf_of_mem (hkey ▸ hm))
    · exact hskip hown
  | array items closed =>
    obtain ⟨rfl, row, htakes, -⟩ := (r.decode_array_eq_ok_iff items closed s).1 hdecode
    exact (Tree.areGrammatical_iff items).2 fun t ht => h.of_mem_items htakes ht
  | _ => exact absurd hdecode (by simp [codec])

end LedgerWire.Json
