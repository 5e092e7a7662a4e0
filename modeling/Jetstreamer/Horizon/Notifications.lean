import Jetstreamer.Horizon.Transactions
set_option autoImplicit false

namespace Jetstreamer.Horizon
open Lib Lencode

def maxBlockRewards : Nat := 8192
def maxSlotPreUpdates : Nat := 16384
def maxSlotPreUpdateData : Nat := 32 * 1024 * 1024
def maxSlotPostUpdates : Nat := 4096
def maxSlotPostUpdateData : Nat := 8 * 1024 * 1024
def maxEpochUpdates : Nat := 4096
def maxEpochUpdateData : Nat := 8 * 1024 * 1024

abbrev PreUpdates := AccountUpdates maxSlotPreUpdates maxSlotPreUpdateData
abbrev PostUpdates := AccountUpdates maxSlotPostUpdates maxSlotPostUpdateData
abbrev EpochUpdates := AccountUpdates maxEpochUpdates maxEpochUpdateData

structure EntryRecord where
  numHashes : UInt64
  txCount : UInt32
  deriving DecidableEq

structure EpochMeta where
  epoch : UInt64
  startSlot : UInt64
  slotCount : UInt64
  firstBlockSlot : UInt64
  numRewardPartitions : Option UInt64
  updates : EpochUpdates
  deriving DecidableEq

/-- A block without its transactions and entries. -/
structure BlockMeta where
  slot : UInt64
  parentSlot : UInt64
  parentBlockhash : Hash
  blockhash : Hash
  blockTime : Option Int64
  blockHeight : Option UInt64
  executedTransactionCount : UInt64
  entryCount : UInt64
  rewards : ZeroVec maxBlockRewards Reward
  numPartitions : Option UInt64
  preUpdates : PreUpdates
  postUpdates : PostUpdates
  deriving DecidableEq

inductive BlockNotification where
  | skipped (slot : UInt64)
  | block (info : BlockMeta)
  deriving DecidableEq

def BlockNotification.slot : BlockNotification → UInt64
  | .skipped slot => slot
  | .block info => info.slot

/-- A callback of the visitor, with what it is given. -/
inductive Event where
  | epoch (info : EpochMeta)
  | transaction (slot : UInt64) (txIndex : UInt32) (tx : Transaction)
  | block (notification : BlockNotification) (entries : List EntryRecord)
  deriving DecidableEq

section Codecs

variable {ε σ τ : Type} [Raises ε] {P : σ → τ → Prop}

def encodeEntryRecord (e : EntryRecord) : Put ε σ :=
  Put.all [encodeU64 e.numHashes,encodeU32 e.txCount]

def decodeEntryRecord : Get ε τ EntryRecord := do
  return ⟨← decodeU64,← decodeU32⟩

theorem reads_entryRecord (e : EntryRecord) :
    Reads P (encodeEntryRecord e : Put ε σ) decodeEntryRecord e P :=
  (reads_u64 _).cons ((reads_u32 _).cons (Reads.nil e))

/-- Metadata of a block as a frame carries it: the addresses of its rewards are written out,
and the slot and the arenas travel elsewhere in the frame. -/
def encodeBlockMetaFields (m : BlockMeta) : Put ε σ :=
  Put.all [encodeU64 m.parentSlot,encodeFixed m.parentBlockhash,encodeFixed m.blockhash,
    encodeOption encodeI64 m.blockTime,encodeOption encodeU64 m.blockHeight,
    encodeU64 m.executedTransactionCount,encodeU64 m.entryCount,
    encodeZeroVec (encodeReward encodeFixed) m.rewards,encodeOption encodeU64 m.numPartitions]

def decodeBlockMetaFields (slot : UInt64) (pre : PreUpdates) (post : PostUpdates) :
    Get ε τ BlockMeta := do
  return ⟨slot,← decodeU64,← decodeFixed 32,← decodeFixed 32,← decodeOption decodeI64,
    ← decodeOption decodeU64,← decodeU64,← decodeU64,
    ← decodeZeroVec _ (decodeReward (decodeFixed 32)),← decodeOption decodeU64,pre,post⟩

theorem reads_blockMetaFields (m : BlockMeta) (slot : UInt64) (pre : PreUpdates)
    (post : PostUpdates) :
    Reads P (encodeBlockMetaFields m : Put ε σ) (decodeBlockMetaFields slot pre post)
      { m with slot := slot, preUpdates := pre, postUpdates := post } P :=
  (reads_u64 _).cons ((reads_fixed _).cons ((reads_fixed _).cons
    ((reads_option fun v _ => reads_i64 v).cons ((reads_optionU64 _).cons ((reads_u64 _).cons
      ((reads_u64 _).cons ((reads_zeroVec _ fun r _ => reads_reward reads_fixed r).cons
        ((reads_optionU64 _).cons (Reads.nil _)))))))))

end Codecs

end Jetstreamer.Horizon
