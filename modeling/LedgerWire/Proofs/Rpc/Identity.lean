import LedgerWire.Proofs.Base64
import LedgerWire.Proofs.Rpc.Options
import LedgerWire.Proofs.Rpc.RequestText

set_option autoImplicit false

/-! # What the text of a request says

A request is only ever written. `Call.read?` is the reader on the other side: from the method it
knows which arguments to expect, by their places, and it reads the options first where they say how
a transaction is written. It gives back every call, so the arguments of a call say all there is to
it, and so does the text of a request. -/

namespace LedgerWire.Rpc

open Json (Codec Tree)

variable {α β γ : Type}

/-! ## Reading arguments -/

/-- An argument that is written by `c`. -/
def argument? (c : Codec α) (t : Tree) : Option α :=
  (c.decode t).toOption

/-- The options behind the arguments, if there are any. -/
def options? (c : Codec α) : List Tree → Option (Option α)
  | [] => some none
  | [t] => (argument? c t).map some
  | _ => none

/-- A call without arguments. -/
def noArgument? (call : Call) : List Tree → Option Call
  | [] => some call
  | _ => none

/-- A call with nothing but options. -/
def onlyOptions? (o : Codec β) (call : Option β → Call) (params : List Tree) : Option Call :=
  (options? o params).map call

/-- A call with one argument in front of the options. -/
def oneArgument? (c : Codec α) (o : Codec β) (call : α → Option β → Call) :
    List Tree → Option Call
  | t :: params =>
    match argument? c t, options? o params with
    | some a, some x => some (call a x)
    | _, _ => none
  | [] => none

/-- A call with two arguments in front of the options. -/
def twoArguments? (c : Codec α) (d : Codec γ) (o : Codec β)
    (call : α → γ → Option β → Call) : List Tree → Option Call
  | t :: params =>
    match argument? c t with
    | some a => oneArgument? d o (call a) params
    | none => none
  | [] => none

/-- The transaction that a text stands for. -/
def transaction? (encoding : Option TransactionEncoding) (text : String) : Option Bytes :=
  match encoding with
  | some .base58 => (Base58.decode text).toOption
  | some .binary => (Base58.decode text).toOption
  | _ => Base64.decode? text

/-- A call with a transaction in front of the options, which say how it is written. -/
def oneTransaction? (o : Codec β) (encoding : β → Option TransactionEncoding)
    (call : Bytes → Option β → Call) : List Tree → Option Call
  | .string text :: params =>
    match options? o params with
    | some x => (transaction? (x.bind encoding) text).map fun bytes => call bytes x
    | none => none
  | _ => none

/-- The transactions of a bundle. -/
def bundle? (encoding : Option TransactionEncoding) : List Tree → Option (List Bytes)
  | [] => some []
  | .string text :: items =>
    match transaction? encoding text, bundle? encoding items with
    | some bytes, some others => some (bytes :: others)
    | _, _ => none
  | _ => none

/-- A call with a bundle in front of the options. -/
def oneBundle? : List Tree → Option Call
  | .object [(some "encodedTransactions", .array items true)] true _ :: params =>
    match options? BundleOptions.codec params with
    | some x =>
      (bundle? (x.bind (·.transactionEncoding)) items).map fun transactions =>
        .simulateBundle transactions x
    | none => none
  | _ => none

/-- The slot of a leader schedule may be missing together with the options. -/
def leaderSchedule? : List Tree → Option Call
  | [] => some (.getLeaderSchedule none none)
  | params => oneArgument? Codec.u64.nullable LeaderScheduleOptions.codec .getLeaderSchedule params

/-- The call of a method with these arguments. -/
def Call.read? : Method → List Tree → Option Call
  | .getAccountInfo => oneArgument? Codec.address AccountOptions.codec getAccountInfo
  | .getBalance => oneArgument? Codec.address ContextOptions.codec getBalance
  | .getBlock => oneArgument? Codec.u64 BlockOptions.codec getBlock
  | .getBlockHeight => onlyOptions? ContextOptions.codec getBlockHeight
  | .getBlockProduction => onlyOptions? BlockProductionOptions.codec getBlockProduction
  | .getEpochInfo => onlyOptions? ContextOptions.codec getEpochInfo
  | .getGenesisHash => noArgument? getGenesisHash
  | .getHealth => noArgument? getHealth
  | .getIdentity => noArgument? getIdentity
  | .getInflationReward => oneArgument? Codec.address.list EpochOptions.codec getInflationReward
  | .getLargestAccounts => onlyOptions? LargestAccountsOptions.codec getLargestAccounts
  | .getLatestBlockhash => onlyOptions? ContextOptions.codec getLatestBlockhash
  | .getLeaderSchedule => leaderSchedule?
  | .getMinimumBalanceForRentExemption =>
    oneArgument? Codec.u64 ContextOptions.codec getMinimumBalanceForRentExemption
  | .getMultipleAccounts =>
    oneArgument? Codec.address.list AccountOptions.codec getMultipleAccounts
  | .getProgramAccounts => oneArgument? Codec.address ScanOptions.codec getProgramAccounts
  | .getProgramAccountsV2 => oneArgument? Codec.address PagedScanOptions.codec getProgramAccountsV2
  | .getSignatureStatuses =>
    oneArgument? Codec.signature.list SignatureStatusOptions.codec getSignatureStatuses
  | .getSignaturesForAddress =>
    oneArgument? Codec.address SignaturesOptions.codec getSignaturesForAddress
  | .getSlot => onlyOptions? ContextOptions.codec getSlot
  | .getSupply => onlyOptions? SupplyOptions.codec getSupply
  | .getTokenAccountsByDelegate =>
    twoArguments? Codec.address TokenFilter.codec AccountOptions.codec getTokenAccountsByDelegate
  | .getTokenAccountsByOwner =>
    twoArguments? Codec.address TokenFilter.codec AccountOptions.codec getTokenAccountsByOwner
  | .getTransaction => oneArgument? Codec.signature TransactionOptions.codec getTransaction
  | .getTransactionsForAddress =>
    oneArgument? Codec.address HistoryOptions.codec getTransactionsForAddress
  | .getVersion => noArgument? getVersion
  | .getVoteAccounts => onlyOptions? VoteAccountsOptions.codec getVoteAccounts
  | .requestAirdrop => twoArguments? Codec.address Codec.u64 AirdropOptions.codec requestAirdrop
  | .sendTransaction => oneTransaction? SendOptions.codec (·.encoding) sendTransaction
  | .simulateTransaction => oneTransaction? SimulateOptions.codec (·.encoding) simulateTransaction
  | .simulateBundle => oneBundle?

/-! ## Arguments are read as they were written -/

/-- The arguments are what `read` makes `call` of, and are nested at most four deep. -/
structure Convey (params : List Json) (read : List Tree → Option Call) (call : Call) : Prop where
  plain : ∀ v ∈ params, Json.Plain 4 v
  read_eq : read (Tree.ofItems false params) = some call

theorem plain_of_mem_optionsParam {o : Codec β} (ho : o.Faithful 4) (x : Option β) :
    ∀ v ∈ Call.optionsParam o x, Json.Plain 4 v := by
  intro v hv
  cases x with
  | none => exact absurd hv List.not_mem_nil
  | some a =>
    rw [List.mem_singleton.1 hv]
    exact ho.plain_encode a

theorem argument?_encode {c : Codec α} (hc : c.Faithful 4) (a : α) :
    argument? c (Tree.ofJson false (c.encode a)) = some a := by
  rw [argument?, hc.decode_encode]
  rfl

theorem options?_optionsParam {o : Codec β} (ho : o.Faithful 4) (x : Option β) :
    options? o (Tree.ofItems false (Call.optionsParam o x)) = some x := by
  cases x with
  | none => rfl
  | some a =>
    show (argument? o (Tree.ofJson false (o.encode a))).map some = _
    rw [argument?_encode ho]
    rfl

theorem noArgument_convey (call : Call) : Convey [] (noArgument? call) call where
  plain _ hv := absurd hv List.not_mem_nil
  read_eq := rfl

theorem onlyOptions_convey {o : Codec β} (ho : o.Faithful 4) (call : Option β → Call)
    (x : Option β) : Convey (Call.optionsParam o x) (onlyOptions? o call) (call x) where
  plain := plain_of_mem_optionsParam ho x
  read_eq := by
    rw [onlyOptions?, options?_optionsParam ho]
    rfl

theorem oneArgument_convey {c : Codec α} {o : Codec β} (hc : c.Faithful 4) (ho : o.Faithful 4)
    (call : α → Option β → Call) (a : α) (x : Option β) :
    Convey (c.encode a :: Call.optionsParam o x) (oneArgument? c o call) (call a x) where
  plain := List.forall_mem_cons.2 ⟨hc.plain_encode a, plain_of_mem_optionsParam ho x⟩
  read_eq := by rw [Tree.ofItems, oneArgument?, argument?_encode hc, options?_optionsParam ho]

theorem twoArguments_convey {c : Codec α} {d : Codec γ} {o : Codec β} (hc : c.Faithful 4)
    (hd : d.Faithful 4) (ho : o.Faithful 4) (call : α → γ → Option β → Call) (a : α) (b : γ)
    (x : Option β) :
    Convey (c.encode a :: d.encode b :: Call.optionsParam o x) (twoArguments? c d o call)
      (call a b x) where
  plain :=
    List.forall_mem_cons.2 ⟨hc.plain_encode a, (oneArgument_convey hd ho (call a) b x).plain⟩
  read_eq := by
    rw [Tree.ofItems, twoArguments?, argument?_encode hc]
    exact (oneArgument_convey hd ho (call a) b x).read_eq

theorem transaction?_transactionText (encoding : Option TransactionEncoding) (bytes : Bytes) :
    transaction? encoding (Call.transactionText encoding bytes) = some bytes := by
  have hbase58 : (Base58.decode (Base58.encode bytes)).toOption = some bytes := by
    rw [(Base58.decode_eq_ok_iff _ bytes).2 rfl]
    rfl
  have hbase64 := Base64.decode?_encode bytes
  cases encoding with
  | none => exact hbase64
  | some e =>
    cases e with
    | base58 | binary => exact hbase58
    | base64 | json | jsonParsed => exact hbase64

theorem oneTransaction_convey {o : Codec β} (ho : o.Faithful 4)
    (encoding : β → Option TransactionEncoding) (call : Bytes → Option β → Call) (bytes : Bytes)
    (x : Option β) :
    Convey (.string (Call.transactionText (x.bind encoding) bytes) :: Call.optionsParam o x)
      (oneTransaction? o encoding call) (call bytes x) where
  plain := List.forall_mem_cons.2 ⟨.string _, plain_of_mem_optionsParam ho x⟩
  read_eq := by
    -- the options behind the transaction say how it is written
    rw [Tree.ofItems, Tree.ofJson, oneTransaction?, options?_optionsParam ho]
    simp only [transaction?_transactionText, Option.map_some]

theorem bundle?_transactionTexts (encoding : Option TransactionEncoding)
    (transactions : List Bytes) :
    bundle? encoding (Tree.ofItems false
      (transactions.map fun t => .string (Call.transactionText encoding t))) =
        some transactions := by
  induction transactions with
  | nil => rfl
  | cons t ts ih =>
    rw [List.map_cons, Tree.ofItems, Tree.ofJson, bundle?, transaction?_transactionText, ih]

theorem oneBundle_convey (transactions : List Bytes) (x : Option BundleOptions) :
    Convey (Call.simulateBundle transactions x).params oneBundle? (.simulateBundle transactions x)
    where
  plain := by
    refine List.forall_mem_cons.2 ⟨.object_singleton _ (.array _ ?_),
      plain_of_mem_optionsParam BundleOptions.codec_solid.toFaithful x⟩
    intro v hv
    obtain ⟨t, -, rfl⟩ := List.mem_map.1 hv
    exact .string _
  read_eq := by
    have hoptions := options?_optionsParam BundleOptions.codec_solid.toFaithful x
    have hbundle := bundle?_transactionTexts (x.bind (·.transactionEncoding)) transactions
    simp only [Call.params, Tree.ofItems, Tree.ofJson, Tree.ofMembers, oneBundle?, hoptions,
      hbundle, Option.map_some]

theorem leaderSchedule_convey (slot : Option UInt64) (x : Option LeaderScheduleOptions) :
    Convey (Call.getLeaderSchedule slot x).params leaderSchedule? (.getLeaderSchedule slot x) := by
  have hread := oneArgument_convey Codec.u64_solid.nullable
    LeaderScheduleOptions.codec_solid.toFaithful .getLeaderSchedule slot x
  -- unless there is neither, the slot stands in front of the options, if only as null
  cases slot with
  | some slot => exact ⟨hread.plain, hread.read_eq⟩
  | none =>
    cases x with
    | some o => exact ⟨hread.plain, hread.read_eq⟩
    | none => exact ⟨fun v hv => absurd hv List.not_mem_nil, rfl⟩

/-- Every call is read from its arguments. -/
theorem Call.params_convey (call : Call) : Convey call.params (read? call.method) call := by
  have hnumber : Codec.u64.Faithful 4 := Codec.u64_solid.toFaithful
  have haddress : Codec.address.Faithful 4 := Codec.address_solid.toFaithful
  have haddresses : Codec.address.list.Faithful 4 := Codec.address_solid.toFaithful.list.toFaithful
  have hsignature : Codec.signature.Faithful 4 := Codec.signature_solid.toFaithful
  have hsignatures : Codec.signature.list.Faithful 4 :=
    Codec.signature_solid.toFaithful.list.toFaithful
  have hfilter : TokenFilter.codec.Faithful 4 := TokenFilter.codec_solid.toFaithful
  cases call with
  | getAccountInfo a o =>
    exact oneArgument_convey haddress AccountOptions.codec_solid.toFaithful getAccountInfo a o
  | getBalance a o =>
    exact oneArgument_convey haddress ContextOptions.codec_solid.toFaithful getBalance a o
  | getBlock a o =>
    exact oneArgument_convey hnumber BlockOptions.codec_solid.toFaithful getBlock a o
  | getBlockHeight o =>
    exact onlyOptions_convey ContextOptions.codec_solid.toFaithful getBlockHeight o
  | getBlockProduction o =>
    exact onlyOptions_convey BlockProductionOptions.codec_solid.toFaithful getBlockProduction o
  | getEpochInfo o => exact onlyOptions_convey ContextOptions.codec_solid.toFaithful getEpochInfo o
  | getGenesisHash => exact noArgument_convey getGenesisHash
  | getHealth => exact noArgument_convey getHealth
  | getIdentity => exact noArgument_convey getIdentity
  | getInflationReward a o =>
    exact oneArgument_convey haddresses EpochOptions.codec_solid.toFaithful getInflationReward a o
  | getLargestAccounts o =>
    exact onlyOptions_convey LargestAccountsOptions.codec_solid.toFaithful getLargestAccounts o
  | getLatestBlockhash o =>
    exact onlyOptions_convey ContextOptions.codec_solid.toFaithful getLatestBlockhash o
  | getLeaderSchedule slot o => exact leaderSchedule_convey slot o
  | getMinimumBalanceForRentExemption a o =>
    exact oneArgument_convey hnumber ContextOptions.codec_solid.toFaithful
      getMinimumBalanceForRentExemption a o
  | getMultipleAccounts a o =>
    exact oneArgument_convey haddresses AccountOptions.codec_solid.toFaithful
      getMultipleAccounts a o
  | getProgramAccounts a o =>
    exact oneArgument_convey haddress ScanOptions.codec_solid.toFaithful getProgramAccounts a o
  | getProgramAccountsV2 a o =>
    exact oneArgument_convey haddress PagedScanOptions.codec_solid.toFaithful
      getProgramAccountsV2 a o
  | getSignatureStatuses a o =>
    exact oneArgument_convey hsignatures SignatureStatusOptions.codec_solid.toFaithful
      getSignatureStatuses a o
  | getSignaturesForAddress a o =>
    exact oneArgument_convey haddress SignaturesOptions.codec_solid.toFaithful
      getSignaturesForAddress a o
  | getSlot o => exact onlyOptions_convey ContextOptions.codec_solid.toFaithful getSlot o
  | getSupply o => exact onlyOptions_convey SupplyOptions.codec_solid.toFaithful getSupply o
  | getTokenAccountsByDelegate a b o =>
    exact twoArguments_convey haddress hfilter AccountOptions.codec_solid.toFaithful
      getTokenAccountsByDelegate a b o
  | getTokenAccountsByOwner a b o =>
    exact twoArguments_convey haddress hfilter AccountOptions.codec_solid.toFaithful
      getTokenAccountsByOwner a b o
  | getTransaction a o =>
    exact oneArgument_convey hsignature TransactionOptions.codec_solid.toFaithful getTransaction a o
  | getTransactionsForAddress a o =>
    exact oneArgument_convey haddress HistoryOptions.codec_solid.toFaithful
      getTransactionsForAddress a o
  | getVersion => exact noArgument_convey getVersion
  | getVoteAccounts o =>
    exact onlyOptions_convey VoteAccountsOptions.codec_solid.toFaithful getVoteAccounts o
  | requestAirdrop a b o =>
    exact twoArguments_convey haddress hnumber AirdropOptions.codec_solid.toFaithful
      requestAirdrop a b o
  | sendTransaction bytes o =>
    exact oneTransaction_convey SendOptions.codec_solid.toFaithful _ sendTransaction bytes o
  | simulateTransaction bytes o =>
    exact oneTransaction_convey SimulateOptions.codec_solid.toFaithful _ simulateTransaction bytes o
  | simulateBundle transactions o => exact oneBundle_convey transactions o

/-! ## Requests -/

/-- The methods with their names. -/
def Method.names : Json.Names Method where
  all :=
    [.getAccountInfo, .getBalance, .getBlock, .getBlockHeight, .getBlockProduction,
     .getEpochInfo, .getGenesisHash, .getHealth, .getIdentity, .getInflationReward,
     .getLargestAccounts, .getLatestBlockhash, .getLeaderSchedule,
     .getMinimumBalanceForRentExemption, .getMultipleAccounts, .getProgramAccounts,
     .getProgramAccountsV2, .getSignatureStatuses, .getSignaturesForAddress, .getSlot,
     .getSupply, .getTokenAccountsByDelegate, .getTokenAccountsByOwner, .getTransaction,
     .getTransactionsForAddress, .getVersion, .getVoteAccounts, .requestAirdrop,
     .sendTransaction, .simulateTransaction, .simulateBundle]
  name := Method.name

theorem Method.find_name (m : Method) : names.find m.name = .ok m := by
  cases m <;> rfl

theorem Request.plain_envelope (r : Request) (id : UInt64) :
    Json.Plain 6 (r.envelope id).toJson := by
  have hparams : Json.Plain 5 (.array r.call.params) := .array _ r.call.params_convey.plain
  refine .object _ (show ["method", "jsonrpc", "id", "params"].Nodup by decide) ?_
  intro m hm
  simp only [List.mem_cons, List.not_mem_nil, or_false] at hm
  rcases hm with rfl | rfl | rfl | rfl
  · exact .string _
  · exact .string _
  · exact .number _ trivial
  · exact hparams

theorem Request.plain_toJson (r : Request) : Json.Plain Json.maxDepth r.toJson :=
  (r.plain_envelope _).mono (by decide)

/-- Two requests have the same text exactly if they are the same call with the same options and are
    sent with the same id. -/
theorem Request.toText_eq_iff (r s : Request) :
    r.toText = s.toText ↔ r.call = s.call ∧ r.id.getD 0 = s.id.getD 0 := by
  refine ⟨?_, ?_⟩
  · intro h
    -- both texts are read as the trees of their envelopes, which therefore are the same
    rw [r.toText_eq_text, s.toText_eq_text] at h
    have htrees : Tree.ofJson false r.toJson = Tree.ofJson false s.toJson := by
      have hr := Json.readText_text _ r.plain_toJson
      rw [h, Json.readText_text _ s.plain_toJson] at hr
      exact (Prod.mk.inj hr).1.symm
    simp only [toJson, single, envelope, Envelope.toJson, Json.natural, Tree.ofJson,
      Tree.ofMembers, Tree.object.injEq, List.cons.injEq, Prod.mk.injEq, Tree.string.injEq,
      Tree.number.injEq, Json.Number.natural.injEq, Tree.array.injEq, true_and, and_true] at htrees
    obtain ⟨hname, hid, hparams⟩ := htrees
    refine ⟨?_, hid⟩
    have hmethod : r.call.method = s.call.method := by
      have hfind := r.call.method.find_name
      rw [hname, s.call.method.find_name] at hfind
      exact (Except.ok.inj hfind).symm
    -- the same reader takes both calls from the same arguments
    have hread := r.call.params_convey.read_eq
    rw [hmethod, hparams, s.call.params_convey.read_eq] at hread
    exact (Option.some.inj hread).symm
  · intro h
    obtain ⟨hcall, hid⟩ := h
    rw [toText, toText, single, single, envelope, envelope, hcall, hid]

end LedgerWire.Rpc
