import Jetstreamer.Archive.Format
set_option autoImplicit false

namespace Jetstreamer.Archive
open Lib Lencode Horizon

def encodeTxFields (env : Env) (tx : Transaction) : Put Failure EncoderContext :=
  let address := encodeAddress env
  Put.all [encodeZeroVec encodeFixed tx.signatures,encodeVersionedMessage address tx.message,
    encodeTransactionStatus tx.status,encodeU64 tx.fee,encodeZeroVec encodeU64 tx.preBalances,
    encodeZeroVec encodeU64 tx.postBalances,encodeZeroVec address tx.loadedWritableAddresses,
    encodeZeroVec address tx.loadedReadonlyAddresses,
    encodeOption (encodeZeroVec encodeInnerInstruction) tx.innerInstructions,
    encodeOption encodeLogMessages tx.logMessages,
    encodeOption (encodeZeroVec (encodeTokenBalance address)) tx.preTokenBalances,
    encodeOption (encodeZeroVec (encodeTokenBalance address)) tx.postTokenBalances,
    encodeOption (encodeZeroVec (encodeReward address)) tx.rewards,
    encodeOption (encodeReturnData address) tx.returnData,
    encodeOption encodeU64 tx.computeUnitsConsumed,encodeOption encodeU64 tx.costUnits]

def encodeUpdates (env : Env) (updates : List AccountUpdate) : Put Failure EncoderContext :=
  Put.all [encodeLen updates.length,Put.each (encodeUpdateRecord env) updates]

def encodeTxRecord (env : Env) (tx : Transaction) : Put Failure EncoderContext :=
  Put.all [encodeTxFields env tx,encodeUpdates env tx.accountUpdates.updates]

def encodeEpochMeta (env : Env) (m : EpochMeta) : Put Failure EncoderContext :=
  Put.all [encodeU64 m.epoch,encodeU64 m.startSlot,encodeU64 m.slotCount,
    encodeU64 m.firstBlockSlot,encodeOption encodeU64 m.numRewardPartitions,
    encodeUpdates env m.updates.updates]

def encodeEntries (entries : List EntryRecord) : Put Failure EncoderContext :=
  Put.all [encodeLen entries.length,Put.each encodeEntryRecord entries]

/-- What the visitor has been given so far, with the state of the decoders and the bytes booked
for the frame. -/
structure FrameContext where
  decoders : DecoderContext
  lastBlockhash : Hash
  events : List Event
  updateBytes : Nat
  txBytes : Nat
  txUpdateBytes : Nat

def onDecoders {α : Type} (read : Get Failure DecoderContext α) : Get Failure FrameContext α :=
  Get.onPart (·.decoders) (fun decoders ctx => { ctx with decoders }) read

def deliver (emit : Bool) (event : Event) : Get Failure FrameContext Unit :=
  Get.modifyCtx fun ctx => if emit then { ctx with events := ctx.events ++ [event] } else ctx

def FrameContext.addUpdateBytes (n : Nat) (ctx : FrameContext) : FrameContext :=
  { ctx with updateBytes := ctx.updateBytes + n }

def FrameContext.addTxBytes (n : Nat) (ctx : FrameContext) : FrameContext :=
  { ctx with txBytes := ctx.txBytes + n }

def FrameContext.addTxUpdateBytes (n : Nat) (ctx : FrameContext) : FrameContext :=
  { ctx with txUpdateBytes := ctx.txUpdateBytes + n }

def readUpdates {MAX DATA : Nat} (env : Env) (materialize : Bool)
    (book : Nat → FrameContext → FrameContext) :
    Get Failure FrameContext (AccountUpdates MAX DATA) := do
  let count ← decodeLen
  Get.tally book (onDecoders
    (Get.loop count (decodeUpdateRecordInto env materialize) AccountUpdates.empty))

def decodeTxFields (env : Env) : Get Failure DecoderContext Transaction := do
  let address := decodeAddress env
  let signatures ← decodeZeroVec _ (decodeFixed 64)
  let message ← decodeVersionedMessage address
  let status ← decodeTransactionStatus
  let fee ← decodeU64
  let preBalances ← decodeZeroVec _ decodeU64
  let postBalances ← decodeZeroVec _ decodeU64
  let loadedWritableAddresses ← decodeZeroVec _ address
  let loadedReadonlyAddresses ← decodeZeroVec _ address
  let innerInstructions ← decodeOptionInto (decodeZeroVec _ decodeInnerInstruction)
  let logMessages ← decodeOptionInto decodeLogMessages
  let preTokenBalances ← decodeOptionInto (decodeZeroVec _ (decodeTokenBalance address))
  let postTokenBalances ← decodeOptionInto (decodeZeroVec _ (decodeTokenBalance address))
  let rewards ← decodeOptionInto (decodeZeroVec _ (decodeReward address))
  let returnData ← decodeOption (decodeReturnData address)
  let computeUnitsConsumed ← decodeOption decodeU64
  let costUnits ← decodeOption decodeU64
  return { status, fee, preBalances, postBalances, loadedWritableAddresses,
           loadedReadonlyAddresses, innerInstructions, logMessages, preTokenBalances,
           postTokenBalances, rewards, returnData, computeUnitsConsumed, costUnits, signatures,
           message, accountUpdates := AccountUpdates.empty }

def readTxRecord (env : Env) (materialize : Bool) : Get Failure FrameContext Transaction :=
  Get.tally .addTxBytes do
    let tx ← onDecoders (decodeTxFields env)
    let accountUpdates ← readUpdates env materialize .addTxUpdateBytes
    return { tx with accountUpdates }

def readEpochMeta (env : Env) (materialize : Bool) : Get Failure FrameContext EpochMeta := do
  return ⟨← decodeU64,← decodeU64,← decodeU64,← decodeU64,← decodeOption decodeU64,
    ← readUpdates env materialize .addUpdateBytes⟩

def readEpochSection (env : Env) (materialize emit : Bool) : Get Failure FrameContext Unit := do
  let flag ← decodeU8
  if flag = 1 then
    let info ← readEpochMeta env materialize
    deliver emit (.epoch info)
  else return ()

def readTransaction (env : Env) (materialize emit : Bool) (slot : UInt64) (txIndex : Nat) :
    Get Failure FrameContext Nat := do
  let tx ← readTxRecord env materialize
  deliver emit (.transaction slot (UInt32.ofNat txIndex) tx)
  return txIndex + 1

def readTransactions (env : Env) (materialize emit : Bool) (slot : UInt64) :
    Get Failure FrameContext Nat := do
  let txCount ← decodeLen
  Get.loop (txCount % 2 ^ 32) (readTransaction env materialize emit slot) 0

def Hash.default : Hash := ⟨List.replicate 32 0,by simp⟩

def checkChain (verifyChain : Bool) (info : BlockMeta) : Get Failure FrameContext Unit := do
  let ctx ← Get.ctx
  if verifyChain ∧ ctx.lastBlockhash ≠ Hash.default ∧ info.parentBlockhash ≠ ctx.lastBlockhash then
    throw (.error (.pohMismatch info.slot))
  else Get.modifyCtx fun ctx => { ctx with lastBlockhash := info.blockhash }

def readBlock (env : Env) (materialize verifyChain emit : Bool) (slot : UInt64) :
    Get Failure FrameContext Unit := do
  readEpochSection env materialize emit
  let pre ← readUpdates env materialize .addUpdateBytes
  let _ ← readTransactions env materialize emit slot
  let post ← readUpdates env materialize .addUpdateBytes
  let info ← decodeBlockMetaFields slot pre post
  let entryCount ← decodeLen
  let entries ← Get.times entryCount decodeEntryRecord
  checkChain verifyChain info
  deliver emit (.block (.block info) entries.1)

def readFrame (env : Env) (materialize verifyChain : Bool) (startSlot : UInt64) :
    Get Failure FrameContext (UInt64 × Bool) := do
  let slot ← decodeU64
  let kind ← decodeU8
  let emit := decide (startSlot ≤ slot)
  if kind = 0 then
    deliver emit (.block (.skipped slot) [])
    return (slot,emit)
  else if kind = 1 then
    readBlock env materialize verifyChain emit slot
    return (slot,emit)
  else throw (.error (.badSlotKind kind))

end Jetstreamer.Archive
