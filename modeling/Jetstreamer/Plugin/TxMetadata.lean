import Jetstreamer.Archive.RoundTrip
import Jetstreamer.Horizon.InPlace
import Jetstreamer.Plugin.SchedulerMetrics
set_option autoImplicit false

namespace Jetstreamer.Plugin
open Lib Lencode Horizon Archive

def baseSignatureFeeLamports : UInt64 := 5000

/-- A row of the metadata table. -/
structure TxMetadataRow where
  slot : UInt64
  txIdx : UInt32
  cu : UInt64
  cuLimit : Option UInt64
  cuPrice : Option UInt64
  prioFee : UInt64
  txnFee : UInt64
  schedulerCostUnits : Option UInt64
  schedulerPriority : Option UInt64
  isVote : Bool
  isSuccess : Bool
  numIxs : UInt16
  numIxsBuiltin : UInt16
  numAccountsRw : UInt16
  numAccountsRo : UInt16
  txVersion : Option Int8
  deriving DecidableEq

structure TxMetadataInput where
  slot : UInt64
  txIdx : UInt32
  numSignatures : Nat
  header : MessageHeader
  isLegacy : Bool
  v1Config : Option V1TransactionConfig
  fee : UInt64
  computeUnitsConsumed : Option UInt64
  isSuccess : Bool
  accounts : ResolvedAccounts

variable (ids : SdkIds)

def isTxMetadataBuiltin (program : Address) : Bool :=
  [ids.vote,ids.systemProgram,ids.computeBudget,ids.bpfLoaderUpgradeable,ids.bpfLoaderDeprecated,
    ids.bpfLoader,ids.loaderV4,ids.secp256k1Program,ids.ed25519Program].contains program

/-- What the instructions seen so far amount to. -/
structure InstructionTotals where
  cuLimit : Option UInt64
  cuPrice : Option UInt64 := none
  numIxs : UInt16 := 0
  numIxsBuiltin : UInt16 := 0

def InstructionTotals.add (v1 : Bool) (accounts : ResolvedAccounts) (t : InstructionTotals)
    (ix : InstructionView) : InstructionTotals :=
  let t := { t with numIxs := satSucc16 t.numIxs }
  match accounts.get ix.programIdIndex.toNat with
  | none => t
  | some program =>
    let t := if isTxMetadataBuiltin ids program then
      { t with numIxsBuiltin := satSucc16 t.numIxsBuiltin } else t
    if v1 = false ∧ program = ids.computeBudget then
      match ix.data.head? with
      | some 2 => { t with cuLimit := (decodeComputeBudgetU32 ix.data).map UInt32.toUInt64 }
      | some 3 => { t with cuPrice := decodeComputeBudgetU64 ix.data }
      | _ => t
    else t

def txVersion (isLegacy : Bool) (v1Config : Option V1TransactionConfig) : Int8 :=
  if isLegacy then -1 else if v1Config.isSome then 1 else 0

/-- The first instruction calls the vote program through a static key. -/
def isVote (accounts : ResolvedAccounts) (instructions : List InstructionView) : Bool :=
  (instructions.head?.bind fun ix => accounts.getStatic ix.programIdIndex.toNat) == some ids.vote

def parseTxMetadata (input : TxMetadataInput) (instructions : List InstructionView) :
    TxMetadataRow :=
  let accounts := input.accounts
  let staticReadonly := input.header.numReadonlySignedAccounts.toNat +
    input.header.numReadonlyUnsignedAccounts.toNat
  let metrics := SchedulerMetrics.calculate ids input.numSignatures input.header input.isLegacy
    input.v1Config accounts instructions
  let row : TxMetadataRow := {
    slot := input.slot
    txIdx := input.txIdx
    cu := input.computeUnitsConsumed.getD 0
    cuLimit := none
    cuPrice := none
    prioFee := 0
    txnFee := baseSignatureFeeLamports
    schedulerCostUnits := metrics.map (·.costUnits)
    schedulerPriority := metrics.map (·.priority)
    isVote := true
    isSuccess := input.isSuccess
    numIxs := 1
    numIxsBuiltin := 1
    numAccountsRw := UInt16.ofNat
      (accounts.staticKeys.length - staticReadonly + accounts.loadedWritable.length)
    numAccountsRo := UInt16.ofNat (staticReadonly + accounts.loadedReadonly.length)
    txVersion := some (txVersion input.isLegacy input.v1Config) }
  if isVote ids accounts instructions then row
  else
    let totals := instructions.foldl (InstructionTotals.add ids input.v1Config.isSome accounts)
      { cuLimit := (input.v1Config.bind (·.computeUnitLimit)).map UInt32.toUInt64 }
    let baseFee := satMul (UInt64.ofNat input.numSignatures) baseSignatureFeeLamports
    { row with
      cuLimit := totals.cuLimit
      cuPrice := totals.cuPrice
      prioFee := satSub input.fee baseFee
      txnFee := input.fee
      isVote := false
      numIxs := totals.numIxs
      numIxsBuiltin := totals.numIxsBuiltin }

/-- A transaction as the firehose hands it over. -/
structure TransactionData where
  slot : UInt64
  transactionSlotIndex : Nat
  transaction : Solana.VersionedTransaction
  transactionStatusMeta : Solana.TransactionStatusMeta

def instructionView (ix : Solana.CompiledInstruction) : InstructionView :=
  ⟨ix.programIdIndex,ix.accounts,ix.data⟩

def rowFromFirehose (transaction : TransactionData) : TxMetadataRow :=
  let info := transaction.transactionStatusMeta
  let input (header : MessageHeader) (staticKeys : List Address) (isLegacy : Bool)
      (v1Config : Option V1TransactionConfig) : TxMetadataInput := {
    slot := transaction.slot
    txIdx := UInt32.ofNat transaction.transactionSlotIndex
    numSignatures := transaction.transaction.signatures.length
    header, isLegacy, v1Config
    fee := info.fee
    computeUnitsConsumed := info.computeUnitsConsumed
    isSuccess := info.status.isOk
    accounts := ⟨staticKeys,info.loadedAddresses.writable,info.loadedAddresses.readonly⟩ }
  match transaction.transaction.message with
  | .legacy m => parseTxMetadata ids (input m.header m.accountKeys true none)
      (m.instructions.map instructionView)
  | .v0 m => parseTxMetadata ids (input m.header m.accountKeys false none)
      (m.instructions.map instructionView)
  | .v1 m => parseTxMetadata ids (input m.header m.accountKeys false (some m.config))
      (m.instructions.map instructionView)

def horizonInstructionView (ix : CompiledInstruction) : InstructionView :=
  ⟨ix.programIdIndex,ix.accounts.items,ix.data.items⟩

def rowFromHorizon (slot : UInt64) (txIndex : UInt32) (tx : Transaction) : TxMetadataRow :=
  let input (header : MessageHeader) (staticKeys : List Address) (isLegacy : Bool)
      (v1Config : Option V1TransactionConfig) : TxMetadataInput := {
    slot, txIdx := txIndex
    numSignatures := tx.signatures.items.length
    header, isLegacy, v1Config
    fee := tx.fee
    computeUnitsConsumed := tx.computeUnitsConsumed
    isSuccess := tx.status.isOk
    accounts := ⟨staticKeys,tx.loadedWritableAddresses.items,tx.loadedReadonlyAddresses.items⟩ }
  match tx.message with
  | .legacy m => parseTxMetadata ids (input m.header m.accountKeys.items true none)
      (m.instructions.items.map horizonInstructionView)
  | .v0 m => parseTxMetadata ids (input m.header m.accountKeys.items false none)
      (m.instructions.items.map horizonInstructionView)
  | .v1 m => parseTxMetadata ids (input m.header m.accountKeys.items false (some m.config))
      (m.instructions.items.map horizonInstructionView)

section Parity

theorem instructionView_upstream (instructions : List CompiledInstruction) :
    (instructions.map CompiledInstruction.upstream).map instructionView =
      instructions.map horizonInstructionView := by
  rw [List.map_map]
  rfl

theorem rowFromHorizon_carries {t : Transaction} {tx : Solana.VersionedTransaction}
    {info : Solana.TransactionStatusMeta} (h : t.Carries tx info) (slot : UInt64) (index : Nat) :
    rowFromHorizon ids slot (UInt32.ofNat index) t = rowFromFirehose ids ⟨slot,index,tx,info⟩ := by
  have hok : t.status.isOk = info.status.isOk := by rw [h.status,statusFromResult_isOk]
  unfold rowFromHorizon rowFromFirehose
  simp only [h.signatures,h.fee,h.computeUnits,hok,h.writable,h.readonly,← h.message]
  cases t.message with
  | legacy m => simp only [VersionedMessage.upstream,instructionView_upstream]
  | v0 m => simp only [VersionedMessage.upstream,instructionView_upstream]
  | v1 m => simp only [VersionedMessage.upstream,instructionView_upstream]

theorem rowFromHorizon_updates (slot : UInt64) (txIndex : UInt32) (t : Transaction)
    (updates : AccountUpdates maxTxAccountUpdates maxTxAccountUpdateData) :
    rowFromHorizon ids slot txIndex { t with accountUpdates := updates } =
      rowFromHorizon ids slot txIndex t := rfl

theorem reads_populatedRecord {env : Env} {log : List Event} {hash : Hash} {t : Transaction}
    (h : t.accountUpdates = .empty) (materialize : Bool) :
    Reads (InStep env log hash) (encodeTxRecord env t) (readTxRecord env materialize) t
      (InStep env log hash) := by
  have hnone : Reads (InStep env log hash) (encodeUpdates env t.accountUpdates.updates)
      (readUpdates env materialize .addTxUpdateBytes) t.accountUpdates (InStep env log hash) := by
    rw [h]
    refine (reads_len 0).cons (Reads.tally ?_ fun n _ _ h => (h.book n).2.2).all_single
    exact reads_onDecoders (Reads.nil AccountUpdates.empty)
  refine Reads.tally ?_ fun n _ _ h => (h.book n).2.1
  exact (reads_onDecoders (reads_txFields t)).cons (hnone.cons (Reads.nil _))

/-- The two pipelines give one row for a transaction: from the runtime's types, from the converted
transaction, and from that transaction decoded over any other one. -/
theorem metadata_parity (p : Solana.Parsers) (dst t : Transaction)
    (tx : Solana.VersionedTransaction) (info : Solana.TransactionStatusMeta)
    (h : populateTransaction p dst tx info = .ok t) (slot : UInt64) (index : Nat) :
    let row := rowFromFirehose ids ⟨slot,index,tx,info⟩
    rowFromHorizon ids slot (UInt32.ofNat index) t = row ∧
    (∀ (env : Env) (materialize : Bool) (scratch : Transaction) (log : List Event) (hash : Hash)
      (enc enc' : EncoderContext) (ctx : FrameContext) (bytes rest : Bytes),
      InStep env log hash enc ctx → encodeTxRecord env t enc = .ok (bytes,enc') →
        ∃ decoded ctx', readTxRecordInto env materialize scratch ⟨ctx,bytes ++ rest⟩ =
            .ok decoded ⟨ctx',rest⟩ ∧ InStep env log hash enc' ctx' ∧
          rowFromHorizon ids slot (UInt32.ofNat index) decoded = row) ∧
    (∀ (σ τ : Type) (P : σ → τ → Prop) (putAddress : Address → Put Failure σ)
      (getAddress : Get Failure τ Address) (scratch : Transaction × TxArena) (enc enc' : σ)
        (ctx : τ)
      (bytes rest : Bytes), (∀ a, Reads P (putAddress a) getAddress a P) → P enc ctx →
      encodeTransaction putAddress t enc = .ok (bytes,enc') →
        ∃ decoded ctx', Transaction.decodeInto getAddress scratch ⟨ctx,bytes ++ rest⟩ =
            .ok decoded ⟨ctx',rest⟩ ∧ P enc' ctx' ∧
          rowFromHorizon ids slot (UInt32.ofNat index) decoded.1 = row) := by
  have hcarries := populateTransaction_carries h
  have hrow := rowFromHorizon_carries ids hcarries slot index
  refine ⟨hrow,?_,?_⟩
  · intro env materialize scratch log hash enc enc' ctx bytes rest hstep henc
    obtain ⟨ctx',hread,hstep'⟩ := reads_populatedRecord hcarries.updates materialize enc ctx bytes
      enc' rest hstep henc
    refine ⟨t,ctx',?_,hstep',hrow⟩
    rw [readTxRecordInto_eq]
    exact hread
  · intro σ τ P putAddress getAddress scratch enc enc' ctx bytes rest haddr hP henc
    obtain ⟨ctx',hread,hP'⟩ := reads_transactionInto haddr t scratch enc ctx bytes enc' rest hP henc
    refine ⟨_,ctx',hread,hP',?_⟩
    rw [rowFromHorizon_updates ids]
    exact hrow

end Parity

section Example

def oneByteAddress (b : UInt8) : Address := ⟨List.replicate 32 b,length_replicate32 b⟩

def smallIds : SdkIds := ⟨oneByteAddress 1,oneByteAddress 0,oneByteAddress 3,oneByteAddress 4,
  oneByteAddress 5,oneByteAddress 6,oneByteAddress 7,oneByteAddress 8,oneByteAddress 9,
  oneByteAddress 10⟩

/-- A price for its compute units and a call of the loader, signed once. -/
def smallTransaction : Solana.VersionedTransaction where
  signatures := [⟨List.replicate 64 1,by simp⟩]
  message := .legacy {
    header := ⟨1,0,2⟩
    accountKeys := [oneByteAddress 20,oneByteAddress 3,oneByteAddress 6]
    recentBlockhash := oneByteAddress 9
    instructions := [⟨1,[],[3,7,0,0,0,0,0,0,0]⟩,⟨2,[0],[1,2]⟩] }

def smallMeta : Solana.TransactionStatusMeta where
  status := .error (.instructionError 1 (.custom 6))
  fee := 5003
  preBalances := [10,1,1]
  postBalances := [9,1,1]
  innerInstructions := some []
  logMessages := some [[104,105]]
  preTokenBalances := none
  postTokenBalances := none
  rewards := none
  loadedAddresses := ⟨[],[]⟩
  returnData := none
  computeUnitsConsumed := some 150
  costUnits := none

theorem smallTransaction_parity : ∃ t,
    populateTransaction ⟨fun _ => none,fun _ => none⟩ blankTransaction smallTransaction smallMeta =
      .ok t ∧
    rowFromHorizon smallIds 7 0 t = rowFromFirehose smallIds ⟨7,0,smallTransaction,smallMeta⟩ := by
  have hok : (populateTransaction ⟨fun _ => none,fun _ => none⟩ blankTransaction smallTransaction
      smallMeta).isOk = true := by decide +kernel
  cases ht : populateTransaction ⟨fun _ => none,fun _ => none⟩ blankTransaction smallTransaction
      smallMeta with
  | error e =>
    rw [ht] at hok
    cases hok
  | ok t => exact ⟨t,rfl,(metadata_parity smallIds _ _ t _ _ ht 7 0).1⟩

end Example

end Jetstreamer.Plugin
