import LedgerWire.Proofs.Json.Number

set_option autoImplicit false

/-! # Reading compact text back

The text of a value is read as the tree of the value. The exceptions are doubles, whose decimals are
read with an error in the last place, and values that are nested too deep; `Json.Plain` leaves both
out. It leaves out objects with a key that comes up twice as well: they have a tree, but it stands
for another value. The text is followed by the end, or by a comma or bracket of the container around
it, so an integer ends where its digits do. -/

namespace LedgerWire.Json

/-! ## Strings -/

theorem hexUnit?_hexDigit (n : Nat) (hn : n < 32) :
    hexUnit? '0' '0' (Radix.hexDigit (n / 16)) (Radix.hexDigit (n % 16)) = some n := by
  have hall : ∀ n < 32,
      hexUnit? '0' '0' (Radix.hexDigit (n / 16)) (Radix.hexDigit (n % 16)) = some n := by
    decide
  exact hall n hn

theorem readPieces?_plain {c : Char} (hquote : c ≠ '"') (hbackslash : c ≠ '\\')
    (hlow : ¬ c.toNat < 32) (cs : List Char) :
    readPieces? (c :: cs) = (readPieces? cs).map fun (ps, rest) => (.char c :: ps, rest) := by
  rw [readPieces?, if_neg hlow]
  · cases readPieces? cs <;> rfl
  · exact hquote
  · intro _ _ _ _ _ h _
    exact hbackslash h
  · intro _ _ h _
    exact hbackslash h

theorem readPieces?_escape {e c : Char} (hc : unescape? e = some c) (hu : e ≠ 'u')
    (cs : List Char) :
    readPieces? ('\\' :: e :: cs) =
      (readPieces? cs).map fun (ps, rest) => (.char c :: ps, rest) := by
  rw [readPieces?, hc]
  · cases readPieces? cs <;> rfl
  · intro _ _ _ _ _ h _
    exact hu h

theorem readPieces?_hexEscape {a b c d : Char} {n : Nat} (hn : hexUnit? a b c d = some n)
    (cs : List Char) :
    readPieces? ('\\' :: 'u' :: a :: b :: c :: d :: cs) =
      (readPieces? cs).map fun (ps, rest) => (.unit n :: ps, rest) := by
  rw [readPieces?, hn]
  cases readPieces? cs <;> rfl

theorem joinPieces?_unit {n : Nat} (hn : n < 0xD800) (ps : List Piece) :
    joinPieces? (.unit n :: ps) = (joinPieces? ps).map (Char.ofNat n :: ·) := by
  conv_lhs => unfold joinPieces?
  exact if_pos (Or.inl hn)

/-- A character is written as one piece that stands for it. -/
theorem exists_piece_escapeChar (c : Char) :
    ∃ p, (∀ cs, readPieces? (escapeChar c ++ cs) =
        (readPieces? cs).map fun (ps, rest) => (p :: ps, rest)) ∧
      ∀ ps, joinPieces? (p :: ps) = (joinPieces? ps).map (c :: ·) := by
  unfold escapeChar
  split
  case h_1 => exact ⟨.char '"', readPieces?_escape rfl (by decide), fun _ => rfl⟩
  case h_2 => exact ⟨.char '\\', readPieces?_escape rfl (by decide), fun _ => rfl⟩
  case h_3 => exact ⟨.char '\x08', readPieces?_escape rfl (by decide), fun _ => rfl⟩
  case h_4 => exact ⟨.char '\x0c', readPieces?_escape rfl (by decide), fun _ => rfl⟩
  case h_5 => exact ⟨.char '\n', readPieces?_escape rfl (by decide), fun _ => rfl⟩
  case h_6 => exact ⟨.char '\r', readPieces?_escape rfl (by decide), fun _ => rfl⟩
  case h_7 => exact ⟨.char '\t', readPieces?_escape rfl (by decide), fun _ => rfl⟩
  case h_8 hquote hbackslash _ _ _ _ _ =>
    split
    · rename_i hlow
      refine ⟨.unit c.toNat, readPieces?_hexEscape (hexUnit?_hexDigit c.toNat hlow), ?_⟩
      intro ps
      rw [joinPieces?_unit (by omega), Char.ofNat_toNat]
    · rename_i hlow
      exact ⟨.char c, readPieces?_plain hquote hbackslash hlow, fun _ => rfl⟩

theorem readString?_flatMap_escapeChar (cs rest : List Char) :
    readString? (cs.flatMap escapeChar ++ '"' :: rest) = some (some (String.ofList cs), rest) := by
  have hpieces : ∃ ps, readPieces? (cs.flatMap escapeChar ++ '"' :: rest) = some (ps, rest) ∧
      joinPieces? ps = some cs := by
    induction cs with
    | nil => exact ⟨[], rfl, rfl⟩
    | cons c cs ih =>
      obtain ⟨ps, hread, hjoin⟩ := ih
      obtain ⟨p, hp, hc⟩ := exists_piece_escapeChar c
      refine ⟨p :: ps, ?_, ?_⟩
      · rw [List.flatMap_cons, List.append_assoc, hp, hread]
        rfl
      · rw [hc, hjoin]
        rfl
  obtain ⟨ps, hread, hjoin⟩ := hpieces
  simp only [readString?, hread, Option.map_some, hjoin]

/-! ## Values -/

/-- A value without doubles that is nested at most `depth` deep and whose objects have each key
    once. -/
inductive Plain : (depth : Nat) → Json → Prop where
  | null {depth : Nat} : Plain depth .null
  | bool {depth : Nat} (b : Bool) : Plain depth (.bool b)
  | number {depth : Nat} (n : Number) (hn : n.IsInteger) : Plain depth (.number n)
  | string {depth : Nat} (s : String) : Plain depth (.string s)
  | array {depth : Nat} (items : List Json) (hitems : ∀ v ∈ items, Plain depth v) :
    Plain (depth + 1) (.array items)
  | object {depth : Nat} (members : List (String × Json)) (hkeys : (members.map Prod.fst).Nodup)
    (hmembers : ∀ m ∈ members, Plain depth m.2) : Plain (depth + 1) (.object members)

theorem Plain.mono {depth depth' : Nat} {v : Json} (h : Plain depth v) (hle : depth ≤ depth') :
    Plain depth' v := by
  induction h generalizing depth' with
  | null => exact .null
  | bool b => exact .bool b
  | number n hn => exact .number n hn
  | string s => exact .string s
  | array items _ ih =>
    obtain ⟨depth', rfl⟩ := Nat.exists_eq_add_one.2 (Nat.lt_of_lt_of_le (Nat.succ_pos _) hle)
    exact .array items fun v hv => ih v hv (Nat.le_of_succ_le_succ hle)
  | object members hkeys _ ih =>
    obtain ⟨depth', rfl⟩ := Nat.exists_eq_add_one.2 (Nat.lt_of_lt_of_le (Nat.succ_pos _) hle)
    exact .object members hkeys fun m hm => ih m hm (Nat.le_of_succ_le_succ hle)

theorem Plain.object_singleton {depth : Nat} (key : String) {v : Json} (h : Plain depth v) :
    Plain (depth + 1) (.object [(key, v)]) := by
  refine .object _ (by simp) ?_
  intro m hm
  rw [List.mem_singleton.1 hm]
  exact h

/-! ## Single steps of reading -/

theorem skipBlanks_cons {c : Char} (hc : isBlank c = false) (cs : List Char) :
    skipBlanks (c :: cs) = c :: cs := by
  rw [skipBlanks, List.dropWhile_cons_of_neg (by simp [hc])]

/-- A string in front of a text is read behind its opening quote. -/
theorem exists_readString?_eq (s : String) (rest : List Char) :
    ∃ cs, stringChars s ++ rest = '"' :: cs ∧ readString? cs = some (some s, rest) := by
  refine ⟨s.toList.flatMap escapeChar ++ '"' :: rest, ?_, ?_⟩
  · rw [stringChars, List.cons_append, List.cons_append, List.append_assoc, List.singleton_append]
  · rw [readString?_flatMap_escapeChar, String.ofList_toList]

theorem readTree_string (fuel depth : Nat) (s : String) (rest : List Char) :
    readTree (fuel + 1) depth (stringChars s ++ rest) = (.string s, rest) := by
  obtain ⟨cs, hcs, hstring⟩ := exists_readString?_eq s rest
  rw [hcs, readTree, skipBlanks_cons (by decide)]
  simp only [hstring]

/-- The characters that an integer starts with. -/
def StartsInteger (c : Char) : Prop :=
  c = '-' ∨ ∃ d < 10, c = Char.ofNat (48 + d)

theorem exists_chars_eq_cons_of_isInteger (n : Number) (hn : n.IsInteger) :
    ∃ c cs, StartsInteger c ∧ n.chars = c :: cs := by
  cases n with
  | natural n =>
    obtain ⟨d, cs, hd, hcs⟩ := Decimal.exists_naturalChars_eq_cons n.toNat
    exact ⟨_, cs, Or.inr ⟨d, hd, rfl⟩, hcs⟩
  | negative n => exact ⟨'-', _, Or.inl rfl, rfl⟩
  | double x => exact absurd hn id

theorem StartsInteger.other {c : Char} (h : StartsInteger c) :
    isBlank c = false ∧ c ≠ 'n' ∧ c ≠ 't' ∧ c ≠ 'f' ∧ c ≠ '"' ∧ c ≠ '[' ∧ c ≠ '\x7b' ∧ c ≠ ']' := by
  have hdigit : ∀ d < 10, isBlank (Char.ofNat (48 + d)) = false ∧ Char.ofNat (48 + d) ≠ 'n' ∧
      Char.ofNat (48 + d) ≠ 't' ∧ Char.ofNat (48 + d) ≠ 'f' ∧ Char.ofNat (48 + d) ≠ '"' ∧
      Char.ofNat (48 + d) ≠ '[' ∧ Char.ofNat (48 + d) ≠ '\x7b' ∧ Char.ofNat (48 + d) ≠ ']' := by
    decide
  rcases h with rfl | ⟨d, hd, rfl⟩
  · decide
  · exact hdigit d hd

theorem readTree_number (fuel depth : Nat) (n : Number) (hn : n.IsInteger) (rest : List Char)
    (hrest : EndsNumber rest) :
    readTree (fuel + 1) depth (n.chars ++ rest) = (.number n, rest) := by
  rw [← readNumber_chars n hn rest hrest]
  obtain ⟨c, cs, hc, hcs⟩ := exists_chars_eq_cons_of_isInteger n hn
  obtain ⟨hblank, hn, ht, hf, hquote, harray, hobject, -⟩ := hc.other
  rw [hcs, List.cons_append, readTree, skipBlanks_cons hblank]
  -- no other kind of value starts with this character
  split
  all_goals try (rename_i heq; exact absurd (List.cons.inj heq).1 (by assumption))
  rfl

theorem readTree_array (fuel depth : Nat) (cs rest : List Char) (c : Char) (hc : isBlank c = false)
    (hclose : c ≠ ']') (items : List Tree)
    (h : readItems fuel depth (c :: cs) = (items, true, rest)) :
    readTree (fuel + 1) (depth + 1) ('[' :: c :: cs) = (.array items true, rest) := by
  rw [readTree, skipBlanks_cons (by decide)]
  simp only [skipBlanks_cons hc]
  split
  · rename_i heq
    exact absurd (List.cons.inj heq).1 hclose
  · simp only [Nat.add_sub_cancel, h]
    rfl

theorem readTree_object (fuel depth : Nat) (cs rest : List Char)
    (members : List (Option String × Tree))
    (h : readMembers fuel depth ('"' :: cs) = (members, true, rest)) :
    readTree (fuel + 1) (depth + 1) ('\x7b' :: '"' :: cs) = (.object members true false, rest) := by
  rw [readTree, skipBlanks_cons (by decide)]
  simp only [skipBlanks_cons (show isBlank '"' = false by decide)]
  split
  · rename_i heq
    exact absurd (List.cons.inj heq).1 (by decide)
  · simp only [Nat.add_sub_cancel, h]
    rfl

theorem readItems_last (fuel depth : Nat) (cs rest : List Char) (t : Tree)
    (h : readTree fuel depth cs = (t, ']' :: rest)) :
    readItems (fuel + 1) depth cs = ([t], true, rest) := by
  rw [readItems, h]
  simp only [skipBlanks_cons (show isBlank ']' = false by decide)]

theorem readItems_cons (fuel depth : Nat) (cs mid rest : List Char) (t : Tree) (ts : List Tree)
    (h : readTree fuel depth cs = (t, ',' :: mid))
    (hothers : readItems fuel depth mid = (ts, true, rest)) :
    readItems (fuel + 1) depth cs = (t :: ts, true, rest) := by
  rw [readItems, h]
  simp only [skipBlanks_cons (show isBlank ',' = false by decide), hothers]

theorem readMembers_last (fuel depth : Nat) (key : String) (cs rest : List Char) (t : Tree)
    (h : readTree fuel depth cs = (t, '\x7d' :: rest)) :
    readMembers (fuel + 1) depth (stringChars key ++ ':' :: cs) =
      ([(some key, t)], true, rest) := by
  obtain ⟨tail, htail, hstring⟩ := exists_readString?_eq key (':' :: cs)
  rw [htail, readMembers, skipBlanks_cons (by decide)]
  simp only [hstring, skipBlanks_cons (show isBlank ':' = false by decide), h,
    skipBlanks_cons (show isBlank '\x7d' = false by decide)]

theorem readMembers_cons (fuel depth : Nat) (key : String) (cs mid rest : List Char) (t : Tree)
    (ms : List (Option String × Tree)) (h : readTree fuel depth cs = (t, ',' :: mid))
    (hothers : readMembers fuel depth mid = (ms, true, rest)) :
    readMembers (fuel + 1) depth (stringChars key ++ ':' :: cs) =
      ((some key, t) :: ms, true, rest) := by
  obtain ⟨tail, htail, hstring⟩ := exists_readString?_eq key (':' :: cs)
  rw [htail, readMembers, skipBlanks_cons (by decide)]
  simp only [hstring, skipBlanks_cons (show isBlank ':' = false by decide), h,
    skipBlanks_cons (show isBlank ',' = false by decide), hothers]

/-! ## Whole values -/

theorem exists_chars_eq_cons {depth : Nat} {v : Json} (hv : Plain depth v) :
    ∃ c cs, isBlank c = false ∧ c ≠ ']' ∧ v.chars = c :: cs := by
  cases hv with
  | null => exact ⟨_, _, by decide, by decide, rfl⟩
  | bool b => cases b <;> exact ⟨_, _, by decide, by decide, rfl⟩
  | number n hn =>
    obtain ⟨c, cs, hc, hcs⟩ := exists_chars_eq_cons_of_isInteger n hn
    obtain ⟨hblank, -, -, -, -, -, -, hclose⟩ := hc.other
    exact ⟨c, cs, hblank, hclose, by rw [chars, hcs]⟩
  | string s => exact ⟨'"', _, by decide, by decide, rfl⟩
  | array items _ => exact ⟨'[', _, by decide, by decide, rfl⟩
  | object members _ _ => exact ⟨'\x7b', _, by decide, by decide, rfl⟩

theorem endsNumber_cons {c : Char} (rest : List Char)
    (h : c.isDigit = false ∧ c ≠ '.' ∧ c ≠ 'e' ∧ c ≠ 'E') : EndsNumber (c :: rest) := by
  intro c' hc'
  cases hc'
  exact h

theorem exists_itemChars_eq_cons {depth : Nat} {v : Json} (hv : Plain depth v) (vs : List Json) :
    ∃ c cs, isBlank c = false ∧ c ≠ ']' ∧ itemChars (v :: vs) = c :: cs := by
  obtain ⟨c, cs, hblank, hclose, hcs⟩ := exists_chars_eq_cons hv
  cases vs with
  | nil => exact ⟨c, cs, hblank, hclose, by rw [itemChars, hcs]⟩
  | cons w ws =>
    exact ⟨c, cs ++ ',' :: itemChars (w :: ws), hblank, hclose, by rw [itemChars, hcs]; rfl⟩

theorem exists_memberChars_eq_cons (m : String × Json) (ms : List (String × Json)) :
    ∃ cs, memberChars (m :: ms) = '"' :: cs := by
  obtain ⟨key, v⟩ := m
  cases ms with
  | nil => exact ⟨_, rfl⟩
  | cons m' ms => exact ⟨_, rfl⟩

/-- With this much fuel every value, and every list of items or members, is read back if its text is
    short enough. A value needs one unit less than what is around it. -/
structure ReadsBack (fuel : Nat) : Prop where
  value : ∀ depth v rest, Plain depth v → 2 * v.chars.length ≤ fuel + 1 → EndsNumber rest →
    readTree fuel depth (v.chars ++ rest) = (Tree.ofJson false v, rest)
  items : ∀ depth v vs rest, (∀ w ∈ v :: vs, Plain depth w) →
    2 * (itemChars (v :: vs)).length ≤ fuel →
    readItems fuel depth (itemChars (v :: vs) ++ ']' :: rest) =
      (Tree.ofItems false (v :: vs), true, rest)
  members : ∀ depth m ms rest, (∀ n ∈ m :: ms, Plain depth n.2) →
    2 * (memberChars (m :: ms)).length ≤ fuel →
    readMembers fuel depth (memberChars (m :: ms) ++ '\x7d' :: rest) =
      (Tree.ofMembers false (m :: ms), true, rest)

namespace ReadsBack

variable {fuel : Nat}

/-- No text is so short that it needs no fuel. -/
theorem zero : ReadsBack 0 where
  value := by
    intro depth v rest hv hfuel _
    obtain ⟨c, cs, -, -, hcs⟩ := exists_chars_eq_cons hv
    rw [hcs, List.length_cons] at hfuel
    omega
  items := by
    intro depth v vs rest hvs hfuel
    obtain ⟨c, cs, -, -, hcs⟩ := exists_itemChars_eq_cons (hvs v List.mem_cons_self) vs
    rw [hcs, List.length_cons] at hfuel
    omega
  members := by
    intro depth m ms rest _ hfuel
    obtain ⟨cs, hcs⟩ := exists_memberChars_eq_cons m ms
    rw [hcs, List.length_cons] at hfuel
    omega

theorem readTree_succ (h : ReadsBack fuel) (depth : Nat) (v : Json) (rest : List Char)
    (hv : Plain depth v) (hfuel : 2 * v.chars.length ≤ fuel + 2) (hrest : EndsNumber rest) :
    readTree (fuel + 1) depth (v.chars ++ rest) = (Tree.ofJson false v, rest) := by
  cases hv with
  | null => rfl
  | bool b => cases b <;> rfl
  | number n hn => exact readTree_number fuel depth n hn rest hrest
  | string s => exact readTree_string fuel depth s rest
  | array items hitems =>
    cases items with
    | nil => rfl
    | cons v vs =>
      obtain ⟨c, cs, hblank, hclose, hcs⟩ :=
        exists_itemChars_eq_cons (hitems v List.mem_cons_self) vs
      have hread := h.items _ v vs rest hitems (by simp [chars] at hfuel; omega)
      rw [hcs] at hread
      rw [chars, hcs, Tree.ofJson]
      simp only [List.cons_append, List.append_assoc, List.nil_append]
      exact readTree_array fuel _ _ rest c hblank hclose _ hread
  | object members _ hmembers =>
    cases members with
    | nil => rfl
    | cons m ms =>
      obtain ⟨cs, hcs⟩ := exists_memberChars_eq_cons m ms
      have hread := h.members _ m ms rest hmembers (by simp [chars] at hfuel; omega)
      rw [hcs] at hread
      rw [chars, hcs, Tree.ofJson]
      simp only [List.cons_append, List.append_assoc, List.nil_append]
      exact readTree_object fuel _ _ rest _ hread

theorem readItems_succ (h : ReadsBack fuel) (depth : Nat) (v : Json) (vs : List Json)
    (rest : List Char) (hvs : ∀ w ∈ v :: vs, Plain depth w)
    (hfuel : 2 * (itemChars (v :: vs)).length ≤ fuel + 1) :
    readItems (fuel + 1) depth (itemChars (v :: vs) ++ ']' :: rest) =
      (Tree.ofItems false (v :: vs), true, rest) := by
  have hv := hvs v List.mem_cons_self
  cases vs with
  | nil =>
    rw [itemChars] at hfuel ⊢
    refine readItems_last fuel depth _ rest _ ?_
    exact h.value depth v _ hv hfuel (endsNumber_cons _ (by decide))
  | cons w ws =>
    rw [itemChars, List.length_append, List.length_cons] at hfuel
    rw [itemChars, List.append_assoc, List.cons_append]
    refine readItems_cons fuel depth _ (itemChars (w :: ws) ++ ']' :: rest) rest _ _ ?_ ?_
    · exact h.value depth v _ hv (by omega) (endsNumber_cons _ (by decide))
    · exact h.items depth w ws rest (fun u hu => hvs u (List.mem_cons_of_mem _ hu)) (by omega)

theorem readMembers_succ (h : ReadsBack fuel) (depth : Nat) (m : String × Json)
    (ms : List (String × Json)) (rest : List Char) (hms : ∀ n ∈ m :: ms, Plain depth n.2)
    (hfuel : 2 * (memberChars (m :: ms)).length ≤ fuel + 1) :
    readMembers (fuel + 1) depth (memberChars (m :: ms) ++ '\x7d' :: rest) =
      (Tree.ofMembers false (m :: ms), true, rest) := by
  obtain ⟨key, v⟩ := m
  have hv := hms _ List.mem_cons_self
  cases ms with
  | nil =>
    rw [memberChars, List.length_append, List.length_cons] at hfuel
    rw [memberChars, List.append_assoc, List.cons_append]
    refine readMembers_last fuel depth key _ rest _ ?_
    exact h.value depth v _ hv (by omega) (endsNumber_cons _ (by decide))
  | cons m ms =>
    rw [memberChars, List.length_append, List.length_append, List.length_cons,
      List.length_cons] at hfuel
    rw [memberChars, List.append_assoc, List.append_assoc, List.cons_append, List.cons_append]
    refine readMembers_cons fuel depth key _ (memberChars (m :: ms) ++ '\x7d' :: rest) rest _ _
      ?_ ?_
    · exact h.value depth v _ hv (by omega) (endsNumber_cons _ (by decide))
    · exact h.members depth m ms rest (fun n hn => hms n (List.mem_cons_of_mem _ hn)) (by omega)

end ReadsBack

theorem readsBack (fuel : Nat) : ReadsBack fuel := by
  induction fuel with
  | zero => exact ReadsBack.zero
  | succ fuel ih => exact ⟨ih.readTree_succ, ih.readItems_succ, ih.readMembers_succ⟩

/-- The text of a value is read as the tree of the value. -/
theorem readText_text (v : Json) (hv : Plain maxDepth v) :
    readText v.text = (Tree.ofJson false v, true) := by
  have hend : EndsNumber [] := by
    intro c hc
    exact absurd hc (by simp)
  have hread := (readsBack (2 * v.chars.length + 2)).value maxDepth v [] hv (by omega) hend
  rw [List.append_nil] at hread
  rw [readText, text, String.toList_ofList, hread]
  rfl

end LedgerWire.Json
