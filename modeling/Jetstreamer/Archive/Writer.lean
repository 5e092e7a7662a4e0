import Jetstreamer.Archive.Frames
set_option autoImplicit false

namespace Jetstreamer.Archive
open Lib Lencode Horizon

structure ArchiveWriterConfig where
  bucketSlots : UInt16
  compression : Compression
  zstdLevel : Int

structure ArchiveStats where
  bytesWritten : UInt64 := 0
  uncompressedPayloadBytes : UInt64 := 0
  buckets : UInt64 := 0
  slots : UInt64 := 0
  blocks : UInt64 := 0
  transactions : UInt64 := 0
  accountUpdates : UInt64 := 0
  orphanAccountUpdates : UInt64 := 0
  epochs : UInt64 := 0
  accountDataBytesIn : UInt64 := 0
  deriving DecidableEq

/-- The frame being written, its sections in buffers of their own. -/
structure Staging where
  slot : Option UInt64 := none
  hasEpoch : Bool := false
  epochBytes : Bytes := []
  preCount : UInt32 := 0
  preBytes : Bytes := []
  txCount : UInt32 := 0
  txBytes : Bytes := []
  postCount : UInt32 := 0
  postBytes : Bytes := []

/-- Where an update that belongs to no transaction is kept: before or after the transactions,
by whether one has been written yet. -/
def Staging.addOrphan (st : Staging) (bytes : Bytes) : Staging :=
  if st.txCount = 0 then
    { st with preBytes := st.preBytes ++ bytes, preCount := st.preCount + 1 }
  else { st with postBytes := st.postBytes ++ bytes, postCount := st.postCount + 1 }

def Staging.addTx (st : Staging) (bytes : Bytes) : Staging :=
  { st with txBytes := st.txBytes ++ bytes, txCount := st.txCount + 1 }

def Staging.sections (st : Staging) : Put Failure EncoderContext :=
  Put.all [encodeBool st.hasEpoch,Put.raw st.epochBytes,encodeLen st.preCount.toNat,
    Put.raw st.preBytes,
    encodeLen st.txCount.toNat,Put.raw st.txBytes,encodeLen st.postCount.toNat,
    Put.raw st.postBytes]

structure ArchiveWriter where
  sink : Bytes
  config : ArchiveWriterConfig
  slotStart : UInt64
  slotEnd : UInt64
  fileOffset : UInt64
  index : List BucketIndexEntry
  stats : ArchiveStats
  bucketBuf : Bytes
  bucketFirstSlot : Option UInt64
  bucketSlotCount : UInt32
  bucketPohAnchor : Hash
  enc : EncoderContext
  lastBlockhash : Hash
  lastSlot : Option UInt64
  staging : Staging

/-- No sink holds more bytes than a signed 64-bit offset can reach. -/
def writeAll (sink bytes : Bytes) : Except Failure Bytes :=
  if (sink ++ bytes).length < 2 ^ 63 then .ok (sink ++ bytes) else .error (.error .io)

/-- A buffer in memory has the same limit. -/
def extendBuf (buf bytes : Bytes) : Except Failure Bytes :=
  if (buf ++ bytes).length < 2 ^ 63 then .ok (buf ++ bytes) else .error .panics

def toBytes (p : Put Failure Unit) : Except Failure Bytes := do
  let written ← p ()
  return written.1

def lenU64 (bytes : Bytes) : UInt64 := UInt64.ofNat bytes.length

def storedPayload (env : Env) (config : ArchiveWriterConfig) (payload : Bytes) :
    Except Failure Bytes :=
  match config.compression with
  | .none => .ok payload
  | .zstd =>
    match env.zstd.compress config.zstdLevel payload with
    | some stored => .ok stored
    | none => .error (.error .io)

def bucketBytes (env : Env) (config : ArchiveWriterConfig) (firstSlot : UInt64)
    (slotCount : UInt32) (pohAnchor : Hash) (payload : Bytes) : Except Failure Bytes := do
  let stored ← storedPayload env config payload
  let headerBytes ← toBytes (encodeBucketHeader
    ⟨firstSlot,slotCount,config.compression,lenU64 payload,lenU64 stored,env.xxh64 stored,
      pohAnchor⟩)
  return headerBytes ++ stored

namespace ArchiveWriter

variable (env : Env)

def new (nowMs epoch slotStart slotCount : UInt64) (config : ArchiveWriterConfig) :
    Except Failure ArchiveWriter :=
  if config.bucketSlots < 1 then .error .panics
  else do
    let headerBytes ← toBytes (encodeFileHeader
      ⟨formatVersion,config.bucketSlots,epoch,slotStart,slotCount,primeTableId env,0,
        ⟨nowMs,writerVersion,[]⟩⟩)
    let lenPrefix ← toBytes (encodeLen headerBytes.length)
    let sink ← writeAll [] (magic ++ lenPrefix ++ headerBytes)
    return {
      sink, config, slotStart
      slotEnd := slotStart + slotCount
      fileOffset := lenU64 sink
      index := []
      stats := { bytesWritten := lenU64 sink }
      bucketBuf := []
      bucketFirstSlot := none
      bucketSlotCount := 0
      bucketPohAnchor := Hash.default
      enc := env.newEncoderContext
      lastBlockhash := Hash.default
      lastSlot := none
      staging := {} }

variable (w : ArchiveWriter)

def bucketId (slot : UInt64) : UInt64 := (slot - w.slotStart) / w.config.bucketSlots.toUInt64

def flushBucket : Except Failure ArchiveWriter :=
  match w.bucketFirstSlot with
  | none => .ok w
  | some firstSlot => do
    let raw ← bucketBytes env w.config firstSlot w.bucketSlotCount w.bucketPohAnchor w.bucketBuf
    let sink ← writeAll w.sink raw
    let totalLen := lenU64 raw
    return { w with
      sink
      bucketFirstSlot := none
      index := w.index ++ [⟨firstSlot,w.fileOffset,totalLen⟩]
      fileOffset := w.fileOffset + totalLen
      stats := { w.stats with
        bytesWritten := w.stats.bytesWritten + totalLen
        uncompressedPayloadBytes := w.stats.uncompressedPayloadBytes + lenU64 w.bucketBuf
        buckets := w.stats.buckets + 1 }
      bucketBuf := []
      bucketSlotCount := 0
      enc := env.newEncoderContext }

def leaveBucket (slot : UInt64) : Except Failure ArchiveWriter :=
  match w.bucketFirstSlot with
  | none => .ok w
  | some first => if w.bucketId first ≠ w.bucketId slot then w.flushBucket env else .ok w

def enterBucket (slot : UInt64) : ArchiveWriter :=
  match w.bucketFirstSlot with
  | none => { w with
      bucketFirstSlot := some slot, bucketPohAnchor := w.lastBlockhash, lastSlot := some slot }
  | some _ => { w with lastSlot := some slot }

def checkSlot (slot : UInt64) : Except Failure ArchiveWriter :=
  if slot < w.slotStart ∨ w.slotEnd ≤ slot then
    .error (.error (.slotOutOfRange slot w.slotStart w.slotEnd))
  else
    match w.lastSlot.filter (slot ≤ ·) with
    | some last => .error (.error (.nonMonotonicSlot slot last))
    | none => do
      let w ← w.leaveBucket env slot
      return w.enterBucket slot

def writeSkippedSlot (slot : UInt64) : Except Failure ArchiveWriter :=
  if w.staging.slot.isSome then .error .panics
  else do
    let w ← w.checkSlot env slot
    let (bytes,enc) ← Put.all [encodeU64 slot,encodeU8 0] w.enc
    let bucketBuf ← extendBuf w.bucketBuf bytes
    return { w with
      enc, bucketBuf
      bucketSlotCount := w.bucketSlotCount + 1
      stats := { w.stats with slots := w.stats.slots + 1 } }

def beginSlot (slot : UInt64) : Except Failure ArchiveWriter :=
  if w.staging.slot.isSome then .error .panics
  else do
    let w ← w.checkSlot env slot
    return { w with staging := { slot := some slot } }

def countOrphans (stats : ArchiveStats) (updates : List AccountUpdate) : ArchiveStats :=
  { stats with
    orphanAccountUpdates := stats.orphanAccountUpdates + UInt64.ofNat updates.length
    accountDataBytesIn := stats.accountDataBytesIn + UInt64.ofNat (dataLen updates) }

def writeEpochMeta (info : EpochMeta) : Except Failure ArchiveWriter :=
  if w.staging.slot.isNone ∨ w.staging.hasEpoch ∨
      ¬(w.staging.preCount = 0 ∧ w.staging.txCount = 0) then .error .panics
  else do
    let (bytes,enc) ← encodeEpochMeta env info w.enc
    let stats := countOrphans w.stats info.updates.updates
    return { w with
      enc
      staging := { w.staging with epochBytes := w.staging.epochBytes ++ bytes, hasEpoch := true }
      stats := { stats with epochs := stats.epochs + 1 } }

def writeOrphanUpdate (view : AccountUpdate) : Except Failure ArchiveWriter :=
  if w.staging.slot.isNone then .error .panics
  else do
    let (bytes,enc) ← encodeUpdateRecord env view w.enc
    return { w with
      enc
      staging := w.staging.addOrphan bytes
      stats := countOrphans w.stats [view] }

def writeTransaction (tx : Transaction) : Except Failure ArchiveWriter :=
  if w.staging.slot.isNone then .error .panics
  else do
    let (bytes,enc) ← encodeTxRecord env tx w.enc
    let updates := tx.accountUpdates.updates
    return { w with
      enc
      staging := w.staging.addTx bytes
      stats := { w.stats with
        transactions := w.stats.transactions + 1
        accountUpdates := w.stats.accountUpdates + UInt64.ofNat updates.length
        accountDataBytesIn := w.stats.accountDataBytesIn + UInt64.ofNat (dataLen updates) } }

/-- Closes the frame. The update arenas of the metadata are not written. -/
def endSlot (info : BlockMeta) (entries : List EntryRecord) : Except Failure ArchiveWriter :=
  match w.staging.slot with
  | none => .error .panics
  | some slot => do
    let (bytes,enc) ← Put.all [encodeU64 slot,encodeU8 1,w.staging.sections,
      encodeBlockMetaFields info,encodeEntries entries] w.enc
    let bucketBuf ← extendBuf w.bucketBuf bytes
    return { w with
      enc, bucketBuf
      staging := { w.staging with slot := none }
      lastBlockhash := info.blockhash
      bucketSlotCount := w.bucketSlotCount + 1
      stats := { w.stats with slots := w.stats.slots + 1, blocks := w.stats.blocks + 1 } }

def finish : Except Failure (Bytes × ArchiveStats) :=
  if w.staging.slot.isSome then .error .panics
  else do
    let w ← w.flushBucket env
    let indexBytes ← toBytes
      (Put.all [encodeLen w.index.length,Put.each encodeBucketIndexEntry w.index])
    let sink ← writeAll w.sink indexBytes
    let footer : Footer :=
      ⟨w.fileOffset,lenU64 indexBytes,UInt64.ofNat w.index.length,env.xxh64 indexBytes⟩
    let sink ← writeAll sink footer.toBytes
    return (sink,{ w.stats with
      bytesWritten := w.stats.bytesWritten + lenU64 indexBytes + UInt64.ofNat footerLen })

end ArchiveWriter

end Jetstreamer.Archive
