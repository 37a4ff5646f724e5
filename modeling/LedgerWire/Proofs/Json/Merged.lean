import LedgerWire.Proofs.Json.Faithful
import LedgerWire.Proofs.Json.Grammar

set_option autoImplicit false

/-! # Records merged into others

The members of a record that is merged into another one are set aside as values before they are read.
The values themselves are read as ever, with one exception: a name that is the key of an object may
have empty contents instead of null (`Tree.isEmptyForm`). So the members of a merged record mean what
they mean alone, unless one of them has that form, which is then refused. -/

namespace LedgerWire.Json

variable {α : Type} {αs : List Type}

/-! ## Names with empty contents -/

/-- An object with a single key, and an empty object under it. -/
def Tree.isEmptyForm : Tree → Bool
  | .object [(some _, .object [] true _)] true _ => true
  | _ => false

namespace Names

theorem laxCodec_decode_of_not {t : Tree} (h : t.isEmptyForm = false) (names : Names α) :
    names.laxCodec.decode t = names.codec.decode t := by
  unfold laxCodec
  dsimp only
  split
  · exact absurd h (by simp [Tree.isEmptyForm])
  · rfl

theorem codec_decode_ne_ok {t : Tree} (h : t.isEmptyForm = true) (names : Names α) (a : α) :
    names.codec.decode t ≠ .ok a := by
  unfold Tree.isEmptyForm at h
  split at h
  · simp [codec]
  · exact absurd h (by simp)

/-- What is read of a name that was set aside is read of the name alone as well, unless it has empty
    contents. -/
theorem decode_iff_of_laxCodec (names : Names α) {t : Tree} {a : α}
    (h : names.laxCodec.decode t = .ok a) (b : α) :
    names.codec.decode t = .ok b ↔ b = a ∧ t.isEmptyForm = false := by
  by_cases hform : t.isEmptyForm = true
  · simp [hform, names.codec_decode_ne_ok hform b]
  · have hform : t.isEmptyForm = false := Bool.eq_false_iff.2 hform
    rw [← names.laxCodec_decode_of_not hform, h, Except.ok.injEq, eq_comm]
    exact (and_iff_left hform).symm

end Names

/-! ## Fields -/

namespace Field

theorem reads_of_setAside {f : Field α} {a : α} {ts : List Tree} (h : f.setAside.Reads a ts) :
    f.Reads a ts := by
  match ts with
  | [] => exact h
  | [t] => exact ((f.setAside_decode_eq_ok_iff t a).1 h).2
  | _ :: _ :: _ => exact absurd h (by simp [Reads])

/-- A field has one value at most. -/
theorem reads_iff_eq {f : Field α} {a : α} {ts : List Tree} (h : f.Reads a ts) (b : α) :
    f.Reads b ts ↔ b = a := by
  constructor
  · intro h'
    match ts with
    | [] => exact Option.some.inj (h'.symm.trans h)
    | [t] => exact Except.ok.inj (h'.symm.trans h)
    | _ :: _ :: _ => exact absurd h (by simp [Reads])
  · rintro rfl
    exact h

/-- A name that was read after it was set aside. -/
theorem optional_reads_iff_of_laxCodec {key : String} {names : Names α} {o : Option α}
    {ts : List Tree} (h : (optional key names.laxCodec).setAside.Reads o ts) (o' : Option α) :
    (optional key names.codec).Reads o' ts ↔ o' = o ∧ ∀ t ∈ ts, t.isEmptyForm = false := by
  have hreads := reads_of_setAside h
  match ts with
  | [] =>
    obtain rfl : none = o := Option.some.inj hreads
    show some none = some o' ↔ _
    rw [Option.some.injEq, eq_comm]
    simp
  | [t] =>
    show names.codec.nullable.decode t = .ok o' ↔ _
    rw [List.forall_mem_singleton, Codec.nullable_decode_eq_ok_iff]
    rcases (Codec.nullable_decode_eq_ok_iff _ t o).1 hreads with ⟨rfl, rfl⟩ | ⟨hnull, a, ha, rfl⟩
    · simp [Tree.isEmptyForm]
    · simp only [hnull, names.decode_iff_of_laxCodec ha]
      constructor
      · rintro (⟨hfalse, -⟩ | ⟨-, b, ⟨rfl, hform⟩, rfl⟩)
        · exact hfalse.elim
        · exact ⟨rfl, hform⟩
      · rintro ⟨rfl, hform⟩
        exact .inr ⟨hnull, a, ⟨rfl, hform⟩, rfl⟩
  | _ :: _ :: _ => exact absurd h (by simp [Reads])

end Field

/-! ## Writing -/

/-- The member of an optional field. -/
def Codec.member (key : String) (c : Codec α) : Option α → List (String × Json)
  | none => []
  | some a => [(key, c.encode a)]

theorem Fields.write_cons_optional {key : String} {c : Codec α} {fs : Fields αs} {o : Option α}
    {as : Row αs} {others : List (String × Json)} (h : fs.write as = others) :
    (cons (.optional key c) fs).write (o, as) = c.member key o ++ others := by
  subst h
  cases o <;> rfl

/-- What is set aside when it is read is written as ever. -/
theorem Fields.write_cons_setAside {key : String} {c : Codec α} {fs : Fields αs} {o : Option α}
    {as : Row αs} {others : List (String × Json)} (h : fs.write as = others) :
    (cons (Field.optional key c).setAside fs).write (o, as) = c.member key o ++ others := by
  subst h
  cases o <;> rfl

theorem Fields.write_optional (key : String) (c : Codec α) (o : Option α) :
    (cons (.optional key c) nil).write (o, ()) = c.member key o := by
  cases o <;> rfl

/-! ## Records -/

theorem Record.mergedCodec_decode_object_eq_ok_iff {σ : Type} (r : Record σ)
    (hnodup : r.fields.keys.Nodup) (members : List (Option String × Tree)) (closed known : Bool)
    (s : σ) :
    r.mergedCodec.decode (.object members closed known) = .ok s ↔
      closed = true ∧ r.fields.Admits Tree.isValue members ∧
        ∃ row, r.fields.Reads members row ∧ r.ofRow row = s := by
  show (r.fields.readObject _ members closed).map r.ofRow = .ok s ↔ _
  rw [except_map_eq_ok_iff]
  simp only [r.fields.readObject_eq_ok_iff hnodup, and_assoc, exists_and_left]
  rfl

/-- Only objects are read. -/
theorem Record.exists_object_of_mergedCodec {σ : Type} {r : Record σ} {t : Tree} {s : σ}
    (h : r.mergedCodec.decode t = .ok s) :
    ∃ members closed known, t = .object members closed known := by
  cases t with
  | object members closed known => exact ⟨members, closed, known, rfl⟩
  | _ => exact absurd h (by simp [mergedCodec])

end LedgerWire.Json
