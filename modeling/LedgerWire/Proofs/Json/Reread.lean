import LedgerWire.Proofs.Json.Depth

set_option autoImplicit false

/-! # Values that were read are read again

A codec that hands on a JSON value as it is cannot restore every value: a value may be nested too
deep for a text, have a key twice, or be a null where null means that there is no value. None of
this comes out of a text. Only doubles stay out, as the text of a double need not be read as the
same double. Records keep what their fields do, whether they are read from an object or from an
array. -/

namespace LedgerWire.Json

variable {α : Type} {αs : List Type} {depth : Nat}

namespace Codec

/-- If this value was read from a tree that fits, it is restored. -/
def RestoresRead (depth : Nat) (c : Codec α) (a : α) : Prop :=
  ∀ t, t.Fits depth → c.decode t = .ok a → c.Restores depth a

theorem RestoresRead.fromText_toText {c : Codec α} {a : α} (h : c.RestoresRead maxDepth a)
    {text : String} (hread : c.fromText text = .ok a) : c.fromText (c.toText a) = .ok a := by
  have hdecode := ((fromText_eq_ok_iff c text a).1 hread).1
  exact (h _ (readText_fits text) hdecode).fromText_toText

/-- Reads a text and writes what was read. -/
def rewrite (c : Codec α) (text : String) : Except ReadError String :=
  (c.fromText text).map c.toText

theorem rewrite_eq_ok_iff (c : Codec α) (text written : String) :
    c.rewrite text = .ok written ↔ ∃ a, c.fromText text = .ok a ∧ c.toText a = written := by
  rw [rewrite, except_map_eq_ok_iff]

theorem rewrite_toText {c : Codec α} {a : α} (h : c.fromText (c.toText a) = .ok a) :
    c.rewrite (c.toText a) = .ok (c.toText a) :=
  (rewrite_eq_ok_iff c _ _).2 ⟨a, h, rfl⟩

theorem nullable_restores_none (c : Codec α) : c.nullable.Restores depth none where
  plain_encode := .null
  decode_encode _ := rfl

theorem nullable_restores_some {c : Codec α} {a : α} (h : c.Restores depth a)
    (hnull : c.encode a ≠ .null) : c.nullable.Restores depth (some a) where
  plain_encode := h.plain_encode
  decode_encode known := by
    rw [nullable_decode_eq_ok_iff]
    exact Or.inr ⟨ofJson_ne_null known hnull, a, h.decode_encode known, rfl⟩

/-- A value that was read is not null, as null is read as no value. -/
theorem nullable_value_restoresRead {o : Option Json} (hintegral : ∀ v ∈ o, v.IsIntegral) :
    value.nullable.RestoresRead depth o := by
  intro t hfits hdecode
  rcases (nullable_decode_eq_ok_iff value t o).1 hdecode with ⟨-, rfl⟩ | ⟨hnull, v, hv, rfl⟩
  · exact nullable_restores_none value
  · have htree := (value_decode_eq_ok_iff t v).1 hv
    have hplain := (hfits.held htree).plain (hintegral v rfl)
    refine nullable_restores_some (value_restores hplain) ?_
    rintro rfl
    exact hnull (Tree.eq_null_of_toJson? htree)

end Codec

/-! ## Fields -/

namespace Field

/-- If this value was read for the field, or taken where nothing was written, it is restored. -/
structure RestoresRead (depth : Nat) (f : Field α) (a : α) : Prop where
  read : ∀ t, t.Fits depth → f.codec.decode t = .ok a → f.Restores depth a
  absent : f.absent = some a → f.Restores depth a
  beyond : f.beyond = some a → f.Restores depth a

theorem Faithful.restoresRead {f : Field α} (h : f.Faithful depth) (a : α) :
    f.RestoresRead depth a where
  read _ _ _ := h a
  absent _ := h a
  beyond _ := h a

theorem optional_restores_none (key : String) (c : Codec α) :
    (optional key c).Restores depth none where
  kept hkept := absurd hkept (by simp [optional])
  absent_eq _ := rfl

theorem optional_restoresRead (key : String) {c : Codec α} {o : Option α}
    (h : c.nullable.RestoresRead depth o) : (optional key c).RestoresRead depth o where
  read t hfits hdecode := by
    cases o with
    | none => exact optional_restores_none key c
    | some a =>
      exact ⟨fun _ => h t hfits hdecode, fun homitted => absurd homitted (by simp [optional])⟩
  absent ho := by
    cases ho
    exact optional_restores_none key c
  beyond ho := by
    cases ho
    exact optional_restores_none key c

theorem nullable_restoresRead (key : String) {c : Codec α} {o : Option α}
    (h : c.nullable.RestoresRead depth o) : (nullable key c).RestoresRead depth o where
  read t hfits hdecode :=
    ⟨fun _ => h t hfits hdecode, fun homitted => absurd homitted (by simp [nullable])⟩
  absent ho := by
    cases ho
    exact ⟨fun _ => c.nullable_restores_none, fun _ => rfl⟩
  beyond ho := absurd ho (by simp [nullable])

/-- A field with the contents that were written for it, or with none. -/
theorem RestoresRead.of_takes {f : Field α} {a : α} (h : f.RestoresRead depth a)
    {missing : Option α} (hmissing : missing = some a → f.Restores depth a) {part : Option Tree}
    (hfits : ∀ t, part = some t → t.Fits depth) (htakes : f.Takes missing a part) :
    f.Restores depth a := by
  cases part with
  | none => exact hmissing htakes
  | some t => exact h.read t (hfits t rfl) htakes

end Field

namespace Fields

/-- Each field restores its value if it was read. -/
def RestoresRead (depth : Nat) : {αs : List Type} → Fields αs → Row αs → Prop
  | _, nil, () => True
  | _, cons f fs, (a, as) => f.RestoresRead depth a ∧ fs.RestoresRead depth as

/-- The values of the fields in an object. -/
theorem restores_of_reads (fs : Fields αs) (row : Row αs) (h : fs.RestoresRead depth row)
    (members : List (Option String × Tree)) (hfits : ∀ m ∈ members, m.2.Fits depth)
    (hreads : fs.Reads members row) : fs.Restores depth row := by
  induction fs with
  | nil => trivial
  | cons f fs ih =>
    obtain ⟨a, as⟩ := row
    obtain ⟨ha, has⟩ := h
    refine ⟨?_, ih as has hreads.2⟩
    refine ha.of_takes ha.absent ?_ (f.takes_of_reads a _ hreads.1)
    intro t ht
    exact hfits _ (mem_of_mem_contentsOf (List.mem_of_mem_head? ht))

/-- The values of the fields in an array. -/
theorem restores_of_takesItems (fs : Fields αs) (row : Row αs) (h : fs.RestoresRead depth row)
    (items : List Tree) (hfits : ∀ t ∈ items, t.Fits depth) (htakes : fs.TakesItems items row) :
    fs.Restores depth row := by
  induction fs generalizing items with
  | nil => trivial
  | cons f fs ih =>
    obtain ⟨a, as⟩ := row
    obtain ⟨ha, has⟩ := h
    refine ⟨?_, ih as has items.tail (fun t ht => hfits t (List.mem_of_mem_tail ht)) htakes.2⟩
    exact ha.of_takes ha.beyond (fun t ht => hfits t (List.mem_of_mem_head? ht)) htakes.1

end Fields

/-! ## Records -/

theorem Record.codec_restoresRead {σ : Type} {r : Record σ} (hnodup : r.fields.keys.Nodup) {s : σ}
    (hfields : r.fields.RestoresRead depth (r.toRow s)) (hrow : r.ofRow (r.toRow s) = s)
    (hofRow : ∀ row, r.toRow (r.ofRow row) = row) : r.codec.RestoresRead (depth + 1) s := by
  intro t hfits hdecode
  refine codec_restores hnodup s ?_ hrow
  cases hfits with
  | object members closed known hmembers =>
    obtain ⟨-, -, row, hreads, rfl⟩ :=
      (r.decode_object_eq_ok_iff hnodup members closed known s).1 hdecode
    rw [hofRow] at hfields ⊢
    exact r.fields.restores_of_reads row hfields members hmembers hreads
  | array items closed hitems =>
    obtain ⟨-, row, htakes, rfl⟩ := (r.decode_array_eq_ok_iff items closed s).1 hdecode
    rw [hofRow] at hfields ⊢
    exact r.fields.restores_of_takesItems row hfields items hitems htakes
  | _ => exact absurd hdecode (by simp [codec])

end LedgerWire.Json
