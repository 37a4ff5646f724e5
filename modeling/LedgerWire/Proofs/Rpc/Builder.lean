import LedgerWire.Json.Codec
import LedgerWire.Rpc.Error

set_option autoImplicit false

/-! # Options set one by one

Options are built by a run of changes from any starting value. A change is about one field, and a
change that is refused leaves the options as they were, so that the run goes on from there.

A `Setting` tells a field by what it holds and by what each change puts into it. A builder is lawful
if its settings are all that there is to know about its options, and every change writes the field
that it is about and no other. Then a run is known field by field: each one holds what the last
change that is about it has put there. What a field holds is carried through the run by induction
over the changes; that the order of the changes does not matter beyond that follows, as options with
equal fields are equal. -/

namespace LedgerWire.Rpc

open Json (Codec)

variable {σ χ α : Type}

/-! ## Settings -/

/-- A field of options of type `σ`, and what changes of type `χ` do with it. -/
structure Setting (σ χ : Type) where
  Value : Type
  /-- What the field holds. -/
  get : σ → Value
  /-- What a change puts into the field, if it is about the field and is accepted. -/
  written? : χ → Option Value

namespace Setting

/-- A field that no change is about. -/
def fixed (get : σ → α) : Setting σ χ := ⟨α, get, fun _ => none⟩

/-- What the last of some changes puts into the field, leaving out those that are not about it. -/
def lastWritten? (s : Setting σ χ) (changes : List χ) : Option s.Value :=
  (changes.filterMap s.written?).getLast?

end Setting

/-! ## Builders -/

/-- A type of options with its changes. -/
structure Builder where
  Options : Type
  Change : Type
  codec : Codec Options
  apply : Options → Change → Except RpcError Options
  settings : List (Setting Options Change)

namespace Builder

/-- Options whose changes are never refused. -/
def total (codec : Codec σ) (apply : σ → χ → σ) (settings : List (Setting σ χ)) : Builder where
  Options := σ
  Change := χ
  codec := codec
  apply o c := .ok (apply o c)
  settings := settings

variable (B : Builder)

/-- The options after a change. A change that is refused leaves them. -/
def step (o : B.Options) (c : B.Change) : B.Options :=
  match B.apply o c with
  | .ok changed => changed
  | .error _ => o

/-- The options after all of the changes, one after the other. -/
def run (start : B.Options) (changes : List B.Change) : B.Options :=
  changes.foldl B.step start

/-- The settings are the fields of the options, and every change that is accepted writes one of
    them. -/
structure Lawful : Prop where
  /-- Options with equal fields are equal. -/
  ext : ∀ o o', (∀ s ∈ B.settings, s.get o = s.get o') → o = o'
  /-- A change that is accepted is about a single field. -/
  single : ∀ o c o', B.apply o c = .ok o' →
    ∃ s, B.settings.filter (fun s => (s.written? c).isSome) = [s]
  /-- It is written, and the others are kept. -/
  get_of_ok : ∀ o c o', B.apply o c = .ok o' →
    ∀ s ∈ B.settings, s.get o' = (s.written? c).getD (s.get o)
  /-- A change that is refused is about no field. -/
  written_of_error : ∀ o c e, B.apply o c = .error e → ∀ s ∈ B.settings, s.written? c = none

variable {B}

/-- Where no change is refused, the laws are checked for each kind of change and each field in
    turn. -/
theorem lawful_total {codec : Codec σ} {apply : σ → χ → σ} {settings : List (Setting σ χ)}
    (ext : ∀ o o', (∀ s ∈ settings, s.get o = s.get o') → o = o' := by
      rintro ⟨⟩ ⟨⟩ h
      simpa [Setting.fixed] using h)
    (single : ∀ c, ∃ s, settings.filter (fun s => (s.written? c).isSome) = [s] := by
      rintro ⟨⟩ <;> exact ⟨_, rfl⟩)
    (get_apply : ∀ o c, ∀ s ∈ settings, s.get (apply o c) = (s.written? c).getD (s.get o) := by
      rintro o ⟨⟩ <;> repeat first
        | exact List.forall_mem_nil _
        | refine List.forall_mem_cons.2 ⟨rfl, ?_⟩) :
    (total codec apply settings).Lawful where
  ext := ext
  single _ c _ _ := single c
  get_of_ok o c o' h := by
    obtain rfl := Except.ok.inj h
    exact get_apply o c
  written_of_error _ _ _ h := nomatch h

/-! ## Single changes -/

/-- A change that is accepted puts its value into one field and keeps all others. -/
theorem Lawful.exists_written (h : B.Lawful) {o o' : B.Options} {c : B.Change}
    (hok : B.apply o c = .ok o') :
    ∃ before s after, B.settings = before ++ s :: after ∧ s.written? c = some (s.get o') ∧
      ∀ t ∈ before ++ after, t.written? c = none ∧ t.get o' = t.get o := by
  obtain ⟨s, hsingle⟩ := h.single o c o' hok
  obtain ⟨before, after, hsettings, hbefore, hs, hafter⟩ := List.filter_eq_cons_iff.1 hsingle
  have hget := h.get_of_ok o c o' hok
  refine ⟨before, s, after, hsettings, ?_, ?_⟩
  · obtain ⟨a, ha⟩ := Option.isSome_iff_exists.1 hs
    rw [hget s (by simp [hsettings]), ha]
    rfl
  · intro t ht
    have hmem : t ∈ B.settings := by
      rw [hsettings]
      rcases List.mem_append.1 ht with ht | ht <;> simp [ht]
    have hnone : t.written? c = none := by
      rw [← Option.not_isSome_iff_eq_none]
      rcases List.mem_append.1 ht with ht | ht
      · exact hbefore t ht
      · exact List.filter_eq_nil_iff.1 hafter t ht
    rw [hget t hmem, hnone]
    exact ⟨rfl, rfl⟩

theorem step_of_ok {o o' : B.Options} {c : B.Change} (h : B.apply o c = .ok o') :
    B.step o c = o' := by
  rw [step, h]

theorem step_of_error {o : B.Options} {c : B.Change} {e : RpcError} (h : B.apply o c = .error e) :
    B.step o c = o := by
  rw [step, h]

theorem Lawful.get_step (h : B.Lawful) (o : B.Options) (c : B.Change) {s} (hs : s ∈ B.settings) :
    s.get (B.step o c) = (s.written? c).getD (s.get o) := by
  cases happly : B.apply o c with
  | ok o' =>
    rw [step_of_ok happly]
    exact h.get_of_ok o c o' happly s hs
  | error e =>
    rw [step_of_error happly, h.written_of_error o c e happly s hs]
    rfl

/-! ## Runs -/

theorem run_cons (start : B.Options) (c : B.Change) (changes : List B.Change) :
    B.run start (c :: changes) = B.run (B.step start c) changes :=
  rfl

theorem run_append (start : B.Options) (before after : List B.Change) :
    B.run start (before ++ after) = B.run (B.run start before) after :=
  List.foldl_append

/-- After a run every field holds what was put there last. -/
theorem Lawful.get_run (h : B.Lawful) (start : B.Options) (changes : List B.Change) {s}
    (hs : s ∈ B.settings) :
    s.get (B.run start changes) = (s.lastWritten? changes).getD (s.get start) := by
  induction changes generalizing start with
  | nil => rfl
  | cons c changes ih =>
    rw [run_cons, ih, h.get_step start c hs, Setting.lastWritten?, Setting.lastWritten?]
    cases hwritten : s.written? c with
    | none => rw [List.filterMap_cons_none hwritten, Option.getD_none]
    | some a =>
      rw [List.filterMap_cons_some hwritten, List.getLast?_cons, Option.getD_some,
        Option.getD_some]

/-- Runs that put the same into every field last end with the same options. -/
theorem Lawful.run_eq_of_lastWritten (h : B.Lawful) (start : B.Options)
    {changes changes' : List B.Change}
    (hsame : ∀ s ∈ B.settings, s.lastWritten? changes = s.lastWritten? changes') :
    B.run start changes = B.run start changes' := by
  refine h.ext _ _ fun s hs => ?_
  rw [h.get_run start changes hs, h.get_run start changes' hs, hsame s hs]

/-- A change that is refused can be struck from a run. -/
theorem run_strike {start : B.Options} {before : List B.Change} {c : B.Change} {e : RpcError}
    (h : B.apply (B.run start before) c = .error e) (after : List B.Change) :
    B.run start (before ++ c :: after) = B.run start (before ++ after) := by
  rw [run_append, run_append, run_cons, step_of_error h]

/-- The options of a run are told by the last change of each field. -/
structure LastWriteWins (B : Builder) : Prop where
  /-- There is nothing to options besides the fields. -/
  ext : ∀ o o', (∀ s ∈ B.settings, s.get o = s.get o') → o = o'
  /-- A change that is accepted writes one field and changes no other. -/
  exists_written : ∀ o c o', B.apply o c = .ok o' →
    ∃ before s after, B.settings = before ++ s :: after ∧ s.written? c = some (s.get o') ∧
      ∀ t ∈ before ++ after, t.written? c = none ∧ t.get o' = t.get o
  /-- A change that is refused writes none. -/
  written_of_error : ∀ o c e, B.apply o c = .error e → ∀ s ∈ B.settings, s.written? c = none
  /-- A field holds what the last change that writes it puts there, or what it held in the
      beginning. -/
  get_run : ∀ start changes, ∀ s ∈ B.settings,
    s.get (B.run start changes) = (s.lastWritten? changes).getD (s.get start)
  /-- Runs with the same last change for every field end with the same text. -/
  toText_run : ∀ start changes changes',
    (∀ s ∈ B.settings, s.lastWritten? changes = s.lastWritten? changes') →
      B.codec.toText (B.run start changes) = B.codec.toText (B.run start changes')
  /-- A run with a change that is refused ends with the text of the run without it. -/
  toText_strike : ∀ start before c after e, B.apply (B.run start before) c = .error e →
    B.codec.toText (B.run start (before ++ c :: after)) =
      B.codec.toText (B.run start (before ++ after))

theorem Lawful.lastWriteWins (h : B.Lawful) : B.LastWriteWins where
  ext := h.ext
  exists_written _ _ _ hok := h.exists_written hok
  written_of_error := h.written_of_error
  get_run start changes _ hs := h.get_run start changes hs
  toText_run start _ _ hsame := congrArg _ (h.run_eq_of_lastWritten start hsame)
  toText_strike _ _ _ after _ herror := congrArg _ (run_strike herror after)

end Builder

end LedgerWire.Rpc
