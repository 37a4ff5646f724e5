import LedgerWire.Proofs.Json.Merged
import LedgerWire.Rpc.Options.Accounts

set_option autoImplicit false

/-! # Options of scans and of single accounts

The options of a scan and those of a single account query stand in one object. Here it is said what
that object means to whoever reads it for less: the options of a paged scan are read as options of a
plain scan, which are the same as far as it has them, and the options of a scan are read as options
of a single account query. That last reading is stricter in one point: a name that is the key of an
object has to have null for its contents there, whereas among the options of a scan they may be an
empty object too.

Written, the options of the account query stay together, in their own order, between the filters and
whatever else the scan sets. -/

namespace LedgerWire.Rpc

open Json (Codec Field Fields Tree contentsOf)

/-! ## What is read -/

theorem BytePattern.codec_readsOnly : codec.ReadsOnly Tree.isGrammatical := by
  refine Json.Record.codec_readsOnly (by decide) ⟨?_, ?_, ?_, trivial⟩
  · exact Codec.u64_readsOnly.grammatical
  · exact Codec.string_readsOnly.grammatical
  · exact PatternEncoding.names.codec_readsOnly.grammatical

theorem ScanFilter.codec_readsOnly : codec.ReadsOnly Tree.isGrammatical := by
  refine Codec.variants_readsOnly ?_
  intro r hr t filter h
  rcases List.mem_cons.1 hr with rfl | hr
  · obtain ⟨size, hsize, -⟩ := (except_map_eq_ok_iff _ _ _).1 h
    exact Codec.u64_readsOnly.grammatical t size hsize
  · obtain rfl := List.mem_singleton.1 hr
    obtain ⟨pattern, hpattern, -⟩ := (except_map_eq_ok_iff _ _ _).1 h
    exact BytePattern.codec_readsOnly t pattern hpattern

/-! ## Fewer options -/

/-- The options of a plain scan among those of a paged one. -/
def PagedScanOptions.toScan (o : PagedScanOptions) : ScanOptions :=
  ⟨o.filters, o.account, o.withContext, o.sortResults⟩

/-- The three options that only a paged scan has are skipped by a plain one, as they are values. -/
theorem PagedScanOptions.skippedBy_scan :
    record.fields.SkippedBy Tree.isValue ScanOptions.record.fields :=
  ⟨Fields.skipped_of_mem _ (by decide), Fields.skipped_of_mem _ (by decide),
   Fields.skipped_of_mem _ (by decide), Fields.skipped_of_mem _ (by decide),
   Fields.skipped_of_mem _ (by decide), Fields.skipped_of_mem _ (by decide),
   Fields.skipped_of_mem _ (by decide), Fields.skipped_of_readsOnly _ Codec.u64_readsOnly rfl,
   Fields.skipped_of_readsOnly _ Codec.string_readsOnly rfl,
   Fields.skipped_of_readsOnly _ Codec.u64_readsOnly rfl, trivial⟩

theorem ScanOptions.decode_of_paged {t : Tree} {o : PagedScanOptions}
    (h : PagedScanOptions.codec.decode t = .ok o) : codec.decode t = .ok o.toScan := by
  obtain ⟨members, closed, known, rfl⟩ := Json.Record.exists_object_of_mergedCodec h
  obtain ⟨rfl, hadmits, row, hreads, rfl⟩ :=
    (PagedScanOptions.record.mergedCodec_decode_object_eq_ok_iff (by decide) _ _ _ _).1 h
  have hadmits' : record.fields.Admits Tree.isValue members :=
    hadmits.of_reads hreads (fun _ hvalue => hvalue) PagedScanOptions.skippedBy_scan
  obtain ⟨filters, encoding, dataSlice, commitment, minContextSlot, withContext, sortResults,
    limit, paginationKey, changedSinceSlot, ⟨⟩⟩ := row
  obtain ⟨hfilters, hencoding, hdataSlice, hcommitment, hslot, hcontext, hsort, -⟩ := hreads
  exact (record.mergedCodec_decode_object_eq_ok_iff (by decide) _ _ _ _).2 ⟨rfl, hadmits',
    (filters, encoding, dataSlice, commitment, minContextSlot, withContext, sortResults, ()),
    ⟨hfilters, hencoding, hdataSlice, hcommitment, hslot, hcontext, hsort, trivial⟩, rfl⟩

/-- What a scan reads for itself is skipped by an account query, as it is grammatical. -/
theorem ScanOptions.skippedBy_account :
    record.fields.SkippedBy Tree.isGrammatical AccountOptions.record.fields := by
  have hbool : Codec.bool.ReadsOnly Tree.isGrammatical := Codec.bool_readsOnly.grammatical
  exact ⟨Fields.skipped_of_readsOnly _ ScanFilter.codec_readsOnly.list rfl,
    Fields.skipped_of_mem _ (by decide), Fields.skipped_of_mem _ (by decide),
    Fields.skipped_of_mem _ (by decide), Fields.skipped_of_mem _ (by decide),
    Fields.skipped_of_readsOnly _ hbool rfl, Fields.skipped_of_readsOnly _ hbool rfl, trivial⟩

/-- The encoding or the commitment is an object with empty contents. -/
def NamesEmptyForm : Tree → Prop
  | .object members _ _ =>
    ∃ t ∈ contentsOf "encoding" members ++ contentsOf "commitment" members, t.isEmptyForm = true
  | _ => False

theorem not_namesEmptyForm_object_iff (members : List (Option String × Tree))
    (closed known : Bool) :
    ¬NamesEmptyForm (.object members closed known) ↔
      (∀ t ∈ contentsOf "encoding" members, t.isEmptyForm = false) ∧
        ∀ t ∈ contentsOf "commitment" members, t.isEmptyForm = false := by
  simp only [NamesEmptyForm, not_exists, not_and, Bool.not_eq_true, List.forall_mem_append]

theorem AccountOptions.decode_eq_ok_iff_of_scan {t : Tree} {o : ScanOptions}
    (h : ScanOptions.codec.decode t = .ok o) (account : AccountOptions) :
    codec.decode t = .ok account ↔ account = o.account ∧ ¬NamesEmptyForm t := by
  obtain ⟨members, closed, known, rfl⟩ := Json.Record.exists_object_of_mergedCodec h
  obtain ⟨rfl, hadmits, row, hreads, rfl⟩ :=
    (ScanOptions.record.mergedCodec_decode_object_eq_ok_iff (by decide) _ _ _ _).1 h
  have hadmits' : record.fields.Admits Tree.isGrammatical members :=
    hadmits.of_reads hreads (fun _ => Tree.isGrammatical_of_isValue) ScanOptions.skippedBy_account
  obtain ⟨filters, encoding, dataSlice, commitment, minContextSlot, withContext, sortResults, ⟨⟩⟩ :=
    row
  obtain ⟨-, hencoding, hdataSlice, hcommitment, hslot, -⟩ := hreads
  have hrow : ∀ encoding' dataSlice' commitment' minContextSlot',
      record.fields.Reads members (encoding', dataSlice', commitment', minContextSlot', ()) ↔
        (encoding' = encoding ∧ ∀ t ∈ contentsOf "encoding" members, t.isEmptyForm = false) ∧
          dataSlice' = dataSlice ∧
          (commitment' = commitment ∧ ∀ t ∈ contentsOf "commitment" members, t.isEmptyForm = false) ∧
          minContextSlot' = minContextSlot ∧ True := by
    intro encoding' dataSlice' commitment' minContextSlot'
    refine and_congr (Field.optional_reads_iff_of_laxCodec hencoding _) ?_
    refine and_congr (Field.reads_iff_eq (Field.reads_of_setAside hdataSlice) _) ?_
    refine and_congr (Field.optional_reads_iff_of_laxCodec hcommitment _) ?_
    exact and_congr (Field.reads_iff_eq (Field.reads_of_setAside hslot) _) Iff.rfl
  rw [codec, record.decode_object_eq_ok_iff (by decide), not_namesEmptyForm_object_iff]
  constructor
  · rintro ⟨-, -, ⟨encoding', dataSlice', commitment', minContextSlot', ⟨⟩⟩, hreads, rfl⟩
    obtain ⟨⟨rfl, hforms⟩, rfl, ⟨rfl, hforms'⟩, rfl, -⟩ := (hrow _ _ _ _).1 hreads
    exact ⟨rfl, hforms, hforms'⟩
  · rintro ⟨rfl, hforms, hforms'⟩
    refine ⟨rfl, hadmits', (encoding, dataSlice, commitment, minContextSlot, ()), ?_, rfl⟩
    exact (hrow _ _ _ _).2 ⟨⟨rfl, hforms⟩, rfl, ⟨rfl, hforms'⟩, rfl, trivial⟩

/-! ## What is written -/

theorem AccountOptions.members_eq (o : AccountOptions) :
    record.members o =
      AccountEncoding.codec.member "encoding" o.encoding ++
        (DataSlice.codec.member "dataSlice" o.dataSlice ++
          (Commitment.codec.member "commitment" o.commitment ++
            Codec.u64.member "minContextSlot" o.minContextSlot)) :=
  Fields.write_cons_optional <| Fields.write_cons_optional <| Fields.write_cons_optional <|
    Fields.write_optional _ _ _

theorem ScanOptions.members_eq (o : ScanOptions) :
    record.members o =
      ScanFilter.codec.list.member "filters" o.filters ++
        (AccountOptions.record.members o.account ++
          (Codec.bool.member "withContext" o.withContext ++
            Codec.bool.member "sortResults" o.sortResults)) := by
  rw [AccountOptions.members_eq]
  simp only [List.append_assoc]
  refine Fields.write_cons_optional ?_
  refine Fields.write_cons_setAside <| Fields.write_cons_setAside <| Fields.write_cons_setAside <|
    Fields.write_cons_setAside ?_
  exact Fields.write_cons_optional <| Fields.write_optional _ _ _

theorem PagedScanOptions.members_eq (o : PagedScanOptions) :
    record.members o =
      ScanFilter.codec.list.member "filters" o.filters ++
        (AccountOptions.record.members o.account ++
          (Codec.bool.member "withContext" o.withContext ++
            (Codec.bool.member "sortResults" o.sortResults ++
              (Codec.u64.member "limit" o.limit ++
                (Codec.string.member "paginationKey" o.paginationKey ++
                  Codec.u64.member "changedSinceSlot" o.changedSinceSlot))))) := by
  rw [AccountOptions.members_eq]
  simp only [List.append_assoc]
  refine Fields.write_cons_optional ?_
  refine Fields.write_cons_setAside <| Fields.write_cons_setAside <| Fields.write_cons_setAside <|
    Fields.write_cons_setAside ?_
  exact Fields.write_cons_optional <| Fields.write_cons_optional <| Fields.write_cons_optional <|
    Fields.write_cons_optional <| Fields.write_optional _ _ _

/-! ## Both directions -/

/-- Options of a paged scan are options of a scan, with the same filters, account options and flags.
    Options of a scan are options of an account query, with the account options of the scan and no
    others, unless a name among them has empty contents. In what is written for either kind of scan
    the members of the account options stand as they are written alone, between the filters and the
    rest, and no key comes up twice. -/
theorem options_merge :
    (∀ (t : Tree) (o : PagedScanOptions), PagedScanOptions.codec.decode t = .ok o →
        ScanOptions.codec.decode t = .ok ⟨o.filters, o.account, o.withContext, o.sortResults⟩) ∧
      (∀ (t : Tree) (o : ScanOptions), ScanOptions.codec.decode t = .ok o →
        ∀ account, AccountOptions.codec.decode t = .ok account ↔
          account = o.account ∧ ¬NamesEmptyForm t) ∧
      (∀ o : ScanOptions, ∃ own members, AccountOptions.codec.encode o.account = .object own ∧
        ScanOptions.codec.encode o = .object members ∧ (members.map Prod.fst).Nodup ∧
        members =
          ScanFilter.codec.list.member "filters" o.filters ++
            (own ++
              (Codec.bool.member "withContext" o.withContext ++
                Codec.bool.member "sortResults" o.sortResults))) ∧
      ∀ o : PagedScanOptions, ∃ own members, AccountOptions.codec.encode o.account = .object own ∧
        PagedScanOptions.codec.encode o = .object members ∧ (members.map Prod.fst).Nodup ∧
        members =
          ScanFilter.codec.list.member "filters" o.filters ++
            (own ++
              (Codec.bool.member "withContext" o.withContext ++
                (Codec.bool.member "sortResults" o.sortResults ++
                  (Codec.u64.member "limit" o.limit ++
                    (Codec.string.member "paginationKey" o.paginationKey ++
                      Codec.u64.member "changedSinceSlot" o.changedSinceSlot))))) := by
  refine ⟨?_, ?_, ?_, ?_⟩
  · intro t o h
    exact ScanOptions.decode_of_paged h
  · intro t o h
    exact AccountOptions.decode_eq_ok_iff_of_scan h
  · intro o
    exact ⟨_, _, rfl, rfl, Fields.nodup_keys_write _ (by decide) _, o.members_eq⟩
  · intro o
    exact ⟨_, _, rfl, rfl, Fields.nodup_keys_write _ (by decide) _, o.members_eq⟩

/-- A limit, an encoding, and something under a key that nobody asks for. -/
def firstPage : Json :=
  .object [("limit", .natural 100), ("encoding", .string "base64"), ("page", .array [.null])]

/-- The object is read in all three ways. -/
theorem options_merge_firstPage :
    (PagedScanOptions.codec.decode (.ofJson false firstPage) =
          .ok { account := { encoding := some .base64 }, limit := some 100 } ∧
        ScanOptions.codec.decode (.ofJson false firstPage) =
          .ok { account := { encoding := some .base64 } }) ∧
      AccountOptions.codec.decode (.ofJson false firstPage) = .ok { encoding := some .base64 } := by
  have hpaged : PagedScanOptions.codec.decode (.ofJson false firstPage) =
      .ok { account := { encoding := some .base64 }, limit := some 100 } := rfl
  have hscan := options_merge.1 _ _ hpaged
  have hform : ¬NamesEmptyForm (.ofJson false firstPage) := by
    simp [firstPage, Tree.ofJson, Tree.ofMembers, NamesEmptyForm, contentsOf, Tree.isEmptyForm]
  exact ⟨⟨hpaged, hscan⟩, (options_merge.2.1 _ _ hscan _).2 ⟨rfl, hform⟩⟩

/-- An encoding as the key of an empty object. -/
def keyedEncoding : Json :=
  .object [("encoding", .object [("base64", .object [])])]

/-- The options of a scan are read from it, but those of an account query are not. -/
theorem keyedEncoding_only_for_scans :
    ScanOptions.codec.fromText keyedEncoding.text =
        .ok { account := { encoding := some .base64 } } ∧
      AccountOptions.codec.fromText keyedEncoding.text = .error .malformed := by
  have hempty : Json.Plain 125 (.object []) := .object _ List.nodup_nil (by simp)
  have hplain : keyedEncoding.Plain Json.maxDepth :=
    .object_singleton _ (.object_singleton _ hempty)
  rw [Codec.fromText_text _ hplain, Codec.fromText_text _ hplain]
  exact ⟨rfl, rfl⟩

end LedgerWire.Rpc
