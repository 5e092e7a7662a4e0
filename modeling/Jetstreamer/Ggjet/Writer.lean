import Jetstreamer.Ggjet.Format
set_option autoImplicit false

namespace Jetstreamer.Ggjet
open Lib Lencode Horizon Archive

structure GgjetWriterConfig where
  bucketSlots : UInt16
  checkpointBucketAccounts : UInt32
  checkpointBucketBytes : UInt64
  compression : Compression
  zstdLevel : Int

structure GgjetStats where
  bytesWritten : UInt64 := 0
  checkpointAccounts : UInt64 := 0
  checkpointPresent : UInt64 := 0
  checkpointDataBytes : UInt64 := 0
  slots : UInt64 := 0
  updates : UInt64 := 0
  updateDataBytes : UInt64 := 0
  buckets : UInt64 := 0
  deriving DecidableEq

structure CheckpointAccount where
  lastModifiedSlot : UInt64
  lamports : UInt64
  owner : Address
  executable : Bool
  rentEpoch : UInt64
  data : Bytes
  deriving DecidableEq

structure GgjetWriter where
  sink : Bytes
  header : GgjetHeader
  manifest : AccountManifest
  config : GgjetWriterConfig
  fileOffset : UInt64
  stats : GgjetStats
  checkpointBuf : Bytes
  checkpointBucketFirst : UInt64
  checkpointBucketCount : UInt32
  checkpointFinished : Bool
  bucketBuf : Bytes
  bucketFirstSlot : Option UInt64
  bucketSlotCount : UInt32
  bucketUpdateCount : UInt64
  index : List GgjetBucketIndexEntry
  enc : EncoderContext

def writeAll (sink bytes : Bytes) : Except GgjetFailure Bytes :=
  if (sink ++ bytes).length < 2 ^ 63 then .ok (sink ++ bytes) else .error (.error .io)

def extendBuf (buf bytes : Bytes) : Except GgjetFailure Bytes :=
  if (buf ++ bytes).length < 2 ^ 63 then .ok (buf ++ bytes) else .error .panics

def checkedAdd (a b : UInt64) : Except GgjetFailure UInt64 :=
  if a.toNat + b.toNat < 2 ^ 64 then .ok (a + b) else .error (.error .rangeOverflow)

def encodeCheckpointAccount : Option CheckpointAccount → Put GgjetFailure Unit
  | none => encodeU8 0
  | some a => Put.all [encodeU8 1,encodeU64 a.lastModifiedSlot,encodeU64 a.lamports,
      encodeFixed a.owner,encodeU8 (if a.executable then 1 else 0),encodeU64 a.rentEpoch,
      encodeLen a.data.length,Put.raw a.data]

def encodeUpdate (env : GgjetEnv) (m : AccountManifest) (u : AccountUpdate) :
    Put GgjetFailure EncoderContext :=
  match m.indexOf u.pubkey with
  | none => fun _ => .error (.error (.accountNotInManifest u.pubkey))
  | some ordinal => Put.all [encodeU32 ordinal,encodeU64 u.writeVersion,encodeU64 u.lamports,
      encodeAddress env.toEnv u.owner,encodeBool u.executable,encodeU64 u.rentEpoch,
      encodeData env.toEnv u.pubkey u.data]

def encodeSlot (env : GgjetEnv) (m : AccountManifest) (slot : UInt64)
    (updates : List AccountUpdate) :
    Put GgjetFailure EncoderContext :=
  Put.all [encodeU64 slot,encodeLen updates.length,Put.each (encodeUpdate env m) updates]

def sortUpdates (updates : List AccountUpdate) : List AccountUpdate :=
  updates.insertionSort fun a b => a.writeVersion ≤ b.writeVersion

/-- The first two neighbours whose write versions do not increase. -/
def firstDisorder : List AccountUpdate → Option (UInt64 × UInt64)
  | a :: b :: rest =>
    if b.writeVersion ≤ a.writeVersion then some (a.writeVersion,b.writeVersion)
    else firstDisorder (b :: rest)
  | _ => none

namespace GgjetWriter

variable (env : GgjetEnv)

def frontBytes (header : GgjetHeader) (manifest : AccountManifest) (config : GgjetWriterConfig) :
    Except GgjetFailure Bytes := do
  let headerBytes ← writeFramed (encodeGgjetHeader header)
  let manifestBytes ← writeBlob env 0 (UInt32.ofNat manifest.accounts.length) manifest.raw
    config.compression config.zstdLevel
  return magic ++ headerBytes ++ manifestBytes

def new (nowMs : UInt64) (manifest : AccountManifest)
    (checkpointSlot updateStartSlot updateSlotCount : UInt64) (config : GgjetWriterConfig) :
    Except GgjetFailure GgjetWriter :=
  if config.bucketSlots = 0 ∨ config.checkpointBucketAccounts = 0 ∨
      config.checkpointBucketBytes = 0 then .error (.error (.manifest .bucketSizes))
  else do
    let _ ← checkedAdd updateStartSlot updateSlotCount
    let header : GgjetHeader := ⟨formatVersion,config.bucketSlots,config.checkpointBucketAccounts,
      checkpointSlot,updateStartSlot,updateSlotCount,UInt64.ofNat manifest.accounts.length,
      manifest.digest env,0,nowMs,writerVersion⟩
    let front ← frontBytes env header manifest config
    let sink ← writeAll [] front
    return {
      sink, header, manifest, config
      fileOffset := lenU64 sink
      stats := { bytesWritten := lenU64 sink }
      checkpointBuf := []
      checkpointBucketFirst := 0
      checkpointBucketCount := 0
      checkpointFinished := false
      bucketBuf := []
      bucketFirstSlot := none
      bucketSlotCount := 0
      bucketUpdateCount := 0
      index := []
      enc := env.toEnv.newEncoderContext }

variable (w : GgjetWriter)

def wrote (sink raw : Bytes) : GgjetWriter := { w with
  sink
  fileOffset := w.fileOffset + lenU64 raw
  stats := { w.stats with bytesWritten := w.stats.bytesWritten + lenU64 raw } }

def flushCheckpointBucket : Except GgjetFailure GgjetWriter :=
  if w.checkpointBucketCount = 0 then .ok w
  else do
    let raw ← writeBlob env w.checkpointBucketFirst w.checkpointBucketCount w.checkpointBuf
      w.config.compression w.config.zstdLevel
    let sink ← writeAll w.sink raw
    return { w.wrote sink raw with
      checkpointBucketFirst := w.checkpointBucketFirst + w.checkpointBucketCount.toUInt64
      checkpointBucketCount := 0
      checkpointBuf := [] }

def countCheckpoint (stats : GgjetStats) (account : Option CheckpointAccount) : GgjetStats :=
  let stats := { stats with checkpointAccounts := stats.checkpointAccounts + 1 }
  match account with
  | none => stats
  | some a => { stats with
      checkpointPresent := stats.checkpointPresent + 1
      checkpointDataBytes := stats.checkpointDataBytes + lenU64 a.data }

def writeCheckpointAccount (account : Option CheckpointAccount) :
    Except GgjetFailure GgjetWriter :=
  if w.checkpointFinished ∨ w.header.accountCount ≤ w.stats.checkpointAccounts then
    .error (.error (.checkpointCount (w.stats.checkpointAccounts + 1) w.header.accountCount))
  else do
    let bytes ← toBytes (encodeCheckpointAccount account)
    let checkpointBuf ← extendBuf w.checkpointBuf bytes
    let w := { w with
      checkpointBuf
      checkpointBucketCount := w.checkpointBucketCount + 1
      stats := countCheckpoint w.stats account }
    if w.checkpointBucketCount = w.config.checkpointBucketAccounts ∨
        w.config.checkpointBucketBytes.toNat ≤ checkpointBuf.length then w.flushCheckpointBucket env
    else return w

def finishCheckpoint : Except GgjetFailure GgjetWriter :=
  if w.checkpointFinished then .ok w
  else if w.stats.checkpointAccounts ≠ w.header.accountCount then
    .error (.error (.checkpointCount w.stats.checkpointAccounts w.header.accountCount))
  else do
    let w ← w.flushCheckpointBucket env
    let raw ← writeBlob env w.header.accountCount 0 [] .none w.config.zstdLevel
    let sink ← writeAll w.sink raw
    return { w.wrote sink raw with checkpointFinished := true }

def bucketId (slot : UInt64) : UInt64 :=
  (slot - w.header.updateStartSlot) / w.config.bucketSlots.toUInt64

/-- An entry takes 40 bytes of memory. -/
def pushEntry (index : List GgjetBucketIndexEntry) (entry : GgjetBucketIndexEntry) :
    Except GgjetFailure (List GgjetBucketIndexEntry) :=
  if tooLarge (40 * (index.length + 1)) then .error .panics else .ok (index ++ [entry])

def flushUpdateBucket : Except GgjetFailure GgjetWriter :=
  match w.bucketFirstSlot with
  | none => .ok w
  | some firstSlot => do
    let raw ← writeBlob env firstSlot w.bucketSlotCount w.bucketBuf w.config.compression
      w.config.zstdLevel
    let sink ← writeAll w.sink raw
    let index ← pushEntry w.index
      ⟨firstSlot,w.bucketSlotCount,w.bucketUpdateCount,w.fileOffset,lenU64 raw⟩
    let next := w.wrote sink raw
    return { next with
      index
      bucketFirstSlot := none
      stats := { next.stats with buckets := next.stats.buckets + 1 }
      bucketBuf := []
      bucketSlotCount := 0
      bucketUpdateCount := 0
      enc := env.toEnv.newEncoderContext }

def leaveBucket (slot : UInt64) : Except GgjetFailure GgjetWriter :=
  match w.bucketFirstSlot with
  | none => .ok w
  | some first => if w.bucketId slot ≠ w.bucketId first then w.flushUpdateBucket env else .ok w

def enterBucket (slot : UInt64) : Except GgjetFailure GgjetWriter := do
  let w ← w.leaveBucket env slot
  return { w with bucketFirstSlot := some (w.bucketFirstSlot.getD slot) }

def appendSlot (slot : UInt64) (updates : List AccountUpdate) :
    Except GgjetFailure GgjetWriter := do
  let (bytes,enc) ← encodeSlot env w.manifest slot updates w.enc
  let bucketBuf ← extendBuf w.bucketBuf bytes
  let count := UInt64.ofNat updates.length
  return { w with
    enc, bucketBuf
    bucketSlotCount := w.bucketSlotCount + 1
    bucketUpdateCount := w.bucketUpdateCount + count
    stats := { w.stats with
      updateDataBytes := w.stats.updateDataBytes + UInt64.ofNat (dataLen updates)
      slots := w.stats.slots + 1
      updates := w.stats.updates + count } }

def writeSlotUpdates (slot : UInt64) (updates : List AccountUpdate) :
    Except GgjetFailure GgjetWriter := do
  let w ← w.finishCheckpoint env
  let expected ← checkedAdd w.header.updateStartSlot w.stats.slots
  if slot ≠ expected ∨ w.header.updateSlotCount ≤ w.stats.slots then
    .error (.error (.slotSequence slot expected))
  else
    let w ← w.enterBucket env slot
    let updates := sortUpdates updates
    match firstDisorder updates with
    | some (previous,got) => .error (.error (.nonMonotonicWriteVersion slot previous got))
    | none => w.appendSlot env slot updates

def indexBytes (index : List GgjetBucketIndexEntry) : Except GgjetFailure Bytes :=
  toBytes (Put.all [encodeLen index.length,Put.each encodeIndexEntry index])

def finish : Except GgjetFailure (Bytes × GgjetStats) := do
  let w ← w.finishCheckpoint env
  if w.stats.slots ≠ w.header.updateSlotCount then
    let got ← checkedAdd w.header.updateStartSlot w.stats.slots
    let expected ← checkedAdd w.header.updateStartSlot w.header.updateSlotCount
    .error (.error (.slotSequence got expected))
  else
    let w ← w.flushUpdateBucket env
    let index ← indexBytes w.index
    let sink ← writeAll w.sink index
    let footer : Footer :=
      ⟨w.fileOffset,lenU64 index,UInt64.ofNat w.index.length,env.xxh64 index⟩
    let sink ← writeAll sink footer.toBytes
    return (sink,{ w.stats with
      bytesWritten := w.stats.bytesWritten + lenU64 index + UInt64.ofNat footerLen })

inductive Call where
  | checkpoint (account : Option CheckpointAccount)
  | finishCheckpoint
  | slot (slot : UInt64) (updates : List AccountUpdate)

def call (w : GgjetWriter) : Call → Except GgjetFailure GgjetWriter
  | .checkpoint account => w.writeCheckpointAccount env account
  | .finishCheckpoint => w.finishCheckpoint env
  | .slot slot updates => w.writeSlotUpdates env slot updates

def writeFile (nowMs : UInt64) (manifest : AccountManifest)
    (checkpointSlot updateStartSlot updateSlotCount : UInt64) (config : GgjetWriterConfig)
    (calls : List Call) : Except GgjetFailure (Bytes × GgjetStats) := do
  let w ← new env nowMs manifest checkpointSlot updateStartSlot updateSlotCount config
  let w ← calls.foldlM (call env) w
  w.finish env

def Call.account : Call → Option (Option CheckpointAccount)
  | .checkpoint account => some account
  | _ => none

def Call.updates : Call → Option (UInt64 × List AccountUpdate)
  | .slot number updates => some (number,updates)
  | _ => none

end GgjetWriter

end Jetstreamer.Ggjet
