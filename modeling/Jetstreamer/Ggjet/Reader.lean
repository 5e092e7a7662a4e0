import Jetstreamer.Ggjet.Writer
import Jetstreamer.Lib.Logged
set_option autoImplicit false

namespace Jetstreamer.Ggjet
open Lib Lencode Horizon Archive

section Streams

variable {τ α : Type} (env : GgjetEnv)

/-- A length whose first byte has been read. -/
def readVarintAfter (first : Nat) : Get GgjetFailure τ Nat :=
  if first < 128 then return first
  else if 8 < first - 128 then fail .invalidData
  else do
    let rest ← Get.take (.error .io) (first - 128)
    return leValue rest.1

def readVarint : Get GgjetFailure τ Nat := do
  let first ← Get.take (.error .io) 1
  readVarintAfter (first.1.headD 0).toNat

/-- A value behind its length. What it leaves of its bytes is dropped. -/
def readFramed (decode : Get GgjetFailure Unit α) : Get GgjetFailure τ α := do
  let len ← readVarint
  if tooLarge len then panic
  else
    let bytes ← Get.take (.error .io) len
    MonadExcept.ofExcept (Get.parse decode bytes.1)

def readFramedCursor (decode : Get GgjetFailure Unit α) : Get GgjetFailure τ α := do
  let len ← decodeU64
  let bytes ← Get.take (Raises.encode .readerOutOfData) len.toNat
  MonadExcept.ofExcept (Get.parse decode bytes.1)

def readStored (header : BlobHeader) : Get GgjetFailure τ Bytes :=
  if tooLarge header.storedLen.toNat then panic
  else do
    let stored ← Get.take (.error .io) header.storedLen.toNat
    MonadExcept.ofExcept (decompress env header stored.1)

/-- The bytes of a source from an offset on. None can be read from anywhere. -/
def readAt (source : Bytes) (offset len : Nat) : Except GgjetFailure Bytes :=
  if tooLarge len then .error .panics
  else if offset + len ≤ source.length ∨ len = 0 then .ok ((source.drop offset).take len)
  else .error (.error .io)

end Streams

section Opening

variable (env : GgjetEnv)

def splitAddresses : Nat → Bytes → List Address
  | 0, _ => []
  | n+1, raw =>
    if h : 32 ≤ raw.length then ⟨raw.take 32,by simp [h]⟩ :: splitAddresses n (raw.drop 32) else []

def readManifest (header : GgjetHeader) : Get GgjetFailure Unit AccountManifest := do
  let blob ← readFramed decodeBlobHeader
  let raw ← readStored env blob
  if 2 ^ 64 ≤ header.accountCount.toNat * 32 then throw (.error .rangeOverflow)
  else if blob.firstOrdinal ≠ 0 ∨ blob.itemCount.toNat ≠ header.accountCount.toNat ∨
      raw.length ≠ header.accountCount.toNat * 32 then throw (.error (.manifest .dimensions))
  else
    let manifest ← MonadExcept.ofExcept
      (AccountManifest.fromAccounts (splitAddresses (raw.length / 32) raw))
    if manifest.digest env ≠ header.accountSetSha256 then
      throw (.error (.manifestDigest header.accountSetSha256 (manifest.digest env)))
    else return manifest

def readFront : Get GgjetFailure Unit (GgjetHeader × AccountManifest) := do
  let start ← Get.take (.error .io) 8
  if start.1 ≠ magic then throw (.error .badMagic)
  else
    let header ← readFramed (decodeGgjetHeader env.zstd)
    if header.formatVersion ≠ formatVersion then
      throw (.error (.unsupportedVersion header.formatVersion))
    else
      let manifest ← readManifest env header
      return (header,manifest)

def readFooter (source : Bytes) : Except GgjetFailure Footer :=
  if source.length < footerLen then .error (.error .io)
  else Footer.fromBytes (source.drop (source.length - footerLen))

/-- A cursor past the end is only let through behind the last entry. -/
def readEntries : Nat → Get GgjetFailure Unit (List GgjetBucketIndexEntry)
  | 0 => return []
  | n+1 => do
    let (entry,past) ← decodeIndexEntry
    if past ∧ n ≠ 0 then throw .undefined
    else
      let rest ← readEntries n
      return entry :: rest

/-- An entry takes 40 bytes of memory. -/
def readIndex (footer : Footer) : Get GgjetFailure Unit (List GgjetBucketIndexEntry) := do
  let (count,past) ← decodeU64Past
  if count ≠ footer.bucketCount then throw (.error .indexChecksum)
  else if tooLarge (40 * count.toNat) then panic
  else if past ∧ count ≠ 0 then throw .undefined
  else readEntries count.toNat

def parseIndex (footer : Footer) (index : Bytes) :
    Except GgjetFailure (List GgjetBucketIndexEntry) :=
  if env.xxh64 index ≠ footer.indexXxh64 then .error (.error .indexChecksum)
  else Get.parse (readIndex footer) index

def checkIndex (expected : UInt64) : List GgjetBucketIndexEntry → Except GgjetFailure UInt64
  | [] => .ok expected
  | e :: rest =>
    if e.firstSlot ≠ expected ∨ e.slotCount = 0 then
      .error (.error (.slotSequence e.firstSlot expected))
    else do
      let next ← checkedAdd expected e.slotCount.toUInt64
      checkIndex next rest

/-- The entries lie one behind the other from `start` to `stop`. -/
def Tiled (start stop : Nat) : List GgjetBucketIndexEntry → Prop
  | [] => start = stop
  | e :: rest => e.firstSlot.toNat = start ∧ 0 < e.slotCount.toNat ∧
      Tiled (start + e.slotCount.toNat) stop rest

end Opening

theorem checkedAdd_ok {a b c : UInt64} (h : checkedAdd a b = .ok c) :
    c.toNat = a.toNat + b.toNat := by
  unfold checkedAdd at h
  split at h
  · rename_i hlt
    cases h
    rw [UInt64.toNat_add,Nat.mod_eq_of_lt hlt]
  · cases h

theorem tiled_of_checkIndex {expected stop : UInt64} {index : List GgjetBucketIndexEntry}
    (h : checkIndex expected index = .ok stop) : Tiled expected.toNat stop.toNat index := by
  induction index generalizing expected with
  | nil =>
    cases h
    rfl
  | cons e rest ih =>
    rw [checkIndex] at h
    split at h
    · cases h
    · rename_i hfits
      rw [not_or,not_not] at hfits
      obtain ⟨next,hnext,hrest⟩ := bind_ok h
      have htail := ih hrest
      rw [checkedAdd_ok hnext,UInt32.toNat_toUInt64] at htail
      refine ⟨by rw [hfits.1],Nat.pos_of_ne_zero fun hzero => hfits.2 ?_,htail⟩
      exact UInt32.toNat_inj.mp hzero

/-- An opened file. Its buckets cover the declared range without gaps. -/
structure GgjetReader where
  source : Bytes
  header : GgjetHeader
  manifest : AccountManifest
  checkpointOffset : Nat
  index : List GgjetBucketIndexEntry
  bounded : header.updateStartSlot.toNat + header.updateSlotCount.toNat < 2 ^ 64
  tiled : Tiled header.updateStartSlot.toNat
    (header.updateStartSlot.toNat + header.updateSlotCount.toNat) index

theorem tiled_of_checks {header : GgjetHeader} {index : List GgjetBucketIndexEntry}
    {stop expectedEnd : UInt64} (hindex : checkIndex header.updateStartSlot index = .ok stop)
    (hend : checkedAdd header.updateStartSlot header.updateSlotCount = .ok expectedEnd)
    (heq : stop = expectedEnd) :
    header.updateStartSlot.toNat + header.updateSlotCount.toNat < 2 ^ 64 ∧
      Tiled header.updateStartSlot.toNat
        (header.updateStartSlot.toNat + header.updateSlotCount.toNat) index := by
  have htiled := tiled_of_checkIndex hindex
  rw [heq,checkedAdd_ok hend] at htiled
  refine ⟨?_,htiled⟩
  rw [← checkedAdd_ok hend]
  exact expectedEnd.toNat_lt

def GgjetReader.ofIndex (source : Bytes) (header : GgjetHeader) (manifest : AccountManifest)
    (checkpointOffset : Nat) (index : List GgjetBucketIndexEntry) :
    Except GgjetFailure GgjetReader :=
  match hindex : checkIndex header.updateStartSlot index with
  | .error e => .error e
  | .ok stop =>
    match hend : checkedAdd header.updateStartSlot header.updateSlotCount with
    | .error e => .error e
    | .ok expectedEnd =>
      if heq : stop = expectedEnd then
        .ok ⟨source,header,manifest,checkpointOffset,index,(tiled_of_checks hindex hend heq).1,
          (tiled_of_checks hindex hend heq).2⟩
      else .error (.error (.slotSequence stop expectedEnd))

def GgjetReader.open (env : GgjetEnv) (source : Bytes) : Except GgjetFailure GgjetReader :=
  match readFront env ⟨(),source⟩ with
  | .error e _ => .error e
  | .ok (header,manifest) rest => do
    let footer ← readFooter source
    let indexBytes ← readAt source footer.indexOffset.toNat footer.indexLen.toNat
    let index ← parseIndex env footer indexBytes
    ofIndex source header manifest (source.length - rest.bytes.length) index

section Checkpoint

variable {τ : Type} (env : GgjetEnv)

/-- Reads into an array of zeros whatever is there, but not nothing. -/
def readSome (n : Nat) : Get GgjetFailure τ (FixedBytes n) := fun input =>
  if input.bytes = [] then .error (Raises.encode .readerOutOfData) input
  else .ok ⟨input.bytes.take n ++ List.replicate (n - input.bytes.length) 0,by simp; omega⟩
    ⟨input.ctx,input.bytes.drop n⟩

/-- The number of lamports may move the cursor past the end: reading the owner then finds
nothing. -/
def readCheckpointAccount : Get GgjetFailure τ CheckpointAccount := do
  let lastModifiedSlot ← decodeU64
  let lamports ← decodeU64Past
  let owner ← readSome 32
  let executable ← readSome 1
  let rentEpoch ← decodeU64
  let dataLen ← decodeU64
  let data ← Get.take (Raises.encode .readerOutOfData) dataLen.toNat
  let flag := executable.1.headD 0
  if 1 < flag then fail .invalidData
  else return ⟨lastModifiedSlot,lamports.1,owner,flag != 0,rentEpoch,data.1⟩

abbrev CheckpointEvent := Address × Option CheckpointAccount

def onCheckpoint (event : CheckpointEvent) : Get GgjetFailure (List CheckpointEvent) Unit :=
  Get.modifyCtx (· ++ [event])

variable (header : GgjetHeader) (manifest : AccountManifest)

def visitAccount (ordinal : UInt64) : Get GgjetFailure (List CheckpointEvent) UInt64 := do
  let flag ← readSome 1
  match manifest.accounts[ordinal.toNat]? with
  | none => throw (.error (.checkpointCount (ordinal + 1) header.accountCount))
  | some address =>
    if flag.1 = [0] then
      onCheckpoint (address,none)
      return ordinal + 1
    else if flag.1 = [1] then
      let account ← readCheckpointAccount
      onCheckpoint (address,some account)
      return ordinal + 1
    else fail .invalidData

/-- Buckets up to the empty one. Each of them takes at least a byte of the file, which bounds
their number. -/
def visitCheckpointBuckets : Nat → UInt64 → Get GgjetFailure (List CheckpointEvent) UInt64
  | 0, _ => panic
  | fuel+1, ordinal => do
    let bucket ← readFramed decodeBlobHeader
    if bucket.firstOrdinal ≠ ordinal then
      throw (.error (.checkpointCount bucket.firstOrdinal ordinal))
    else if bucket.itemCount = 0 then
      if bucket.uncompressedLen ≠ 0 ∨ bucket.storedLen ≠ 0 ∨ bucket.xxh64 ≠ env.xxh64 [] then
        throw (.error (.checksum bucket.firstOrdinal))
      else return ordinal
    else if header.checkpointBucketAccounts < bucket.itemCount then
      throw (.error (.checkpointCount bucket.itemCount.toUInt64
        header.checkpointBucketAccounts.toUInt64))
    else
      let raw ← readStored env bucket
      let (next,left) ← Get.inside raw
        (Get.loop bucket.itemCount.toNat (visitAccount header manifest) ordinal)
      if left ≠ [] then fail .invalidData
      else visitCheckpointBuckets fuel next

end Checkpoint

/-- A call with a visitor: what the visitor has been told so far, also when the call fails. -/
abbrev Visit (E : Type) := EStateM GgjetFailure (List E)

def GgjetReader.visitCheckpoint (env : GgjetEnv) (r : GgjetReader) : Visit CheckpointEvent UInt64 :=
  fun log =>
    let bytes := r.source.drop r.checkpointOffset
    match visitCheckpointBuckets env r.header r.manifest (bytes.length + 1) 0 ⟨log,bytes⟩ with
    | .error e next => .error e next.ctx
    | .ok ordinal next =>
      if ordinal ≠ r.header.accountCount then
        .error (.error (.checkpointCount ordinal r.header.accountCount)) next.ctx
      else .ok ordinal next.ctx

section Slots

variable (env : GgjetEnv) (manifest : AccountManifest)

def readUpdate (slot : UInt64) (previous : Option UInt64) :
    Get GgjetFailure DecoderContext AccountUpdate := do
  let ordinal ← decodeU32
  match manifest.accounts[ordinal.toNat]? with
  | none => throw (.error (.manifest (.ordinalOutOfRange ordinal)))
  | some pubkey =>
    let writeVersion ← decodeU64
    match previous.filter (writeVersion ≤ ·) with
    | some previous => throw (.error (.nonMonotonicWriteVersion slot previous writeVersion))
    | none =>
      let lamports ← decodeU64
      let owner ← decodeAddress env.toEnv
      let executable ← decodeBool
      let rentEpoch ← decodeU64
      let data ← decodeData env.toEnv pubkey
      return ⟨pubkey,lamports,owner,executable,rentEpoch,writeVersion,data⟩

abbrev UpdateEvent := UInt64 × AccountUpdate

abbrev VisitSlots := Get GgjetFailure (Logged DecoderContext UpdateEvent)

def visitUpdate (emit : Bool) (slot : UInt64) (previous : Option UInt64) :
    VisitSlots (Option UInt64) := do
  let u ← Get.quiet (readUpdate env manifest slot previous)
  Get.tell emit (slot,u)
  return some u.writeVersion

/-- The counters of a bucket, and the slots the visitor has seen in all. -/
structure VisitState where
  frameIndex : Nat
  bucketUpdates : UInt64
  visited : UInt64

def readFrameHeader (first : UInt64) (frameIndex : Nat) (bucketUpdates : UInt64) :
    Get GgjetFailure DecoderContext (UInt64 × UInt64 × UInt64) := do
  let slot ← decodeU64
  let expected ← MonadExcept.ofExcept (checkedAdd first (UInt64.ofNat frameIndex))
  if slot ≠ expected then throw (.error (.slotSequence slot expected))
  else
    let count ← decodeU64
    let total ← MonadExcept.ofExcept (checkedAdd bucketUpdates count)
    return (slot,count,total)

def visitFrame (start stop first : UInt64) (st : VisitState) : VisitSlots VisitState := do
  let (slot,count,total) ← Get.quiet (readFrameHeader first st.frameIndex st.bucketUpdates)
  let emit := start ≤ slot && slot < stop
  let _ ← Get.loop count.toNat (visitUpdate env manifest emit slot) none
  return ⟨st.frameIndex + 1,total,if emit then st.visited + 1 else st.visited⟩

end Slots

namespace GgjetReader

variable (env : GgjetEnv) (r : GgjetReader)

def readBucket (entry : GgjetBucketIndexEntry) : Except GgjetFailure (BlobHeader × Bytes) := do
  let raw ← readAt r.source entry.offset.toNat entry.len.toNat
  match (readFramedCursor decodeBlobHeader : Get GgjetFailure Unit BlobHeader) ⟨(),raw⟩ with
  | .error e _ => .error e
  | .ok header framed =>
    let stored := framed.bytes
    if header.firstOrdinal ≠ entry.firstSlot ∨ header.itemCount ≠ entry.slotCount ∨
        header.storedLen.toNat ≠ stored.length then .error (.error (.checksum entry.firstSlot))
    else
      let payload ← decompress env header stored
      return (header,payload)

def visitBucket (start stop : UInt64) (entry : GgjetBucketIndexEntry) (visited : UInt64) :
    Visit UpdateEvent UInt64 := fun log =>
  match r.readBucket env entry with
  | .error e => .error e log
  | .ok (header,payload) =>
    match Get.loop header.itemCount.toNat (visitFrame env r.manifest start stop header.firstOrdinal)
        ⟨0,0,visited⟩ ⟨⟨newDecoderContext,log⟩,payload⟩ with
    | .error e next => .error e next.ctx.log
    | .ok st next =>
      if st.bucketUpdates ≠ entry.updateCount ∨ next.bytes ≠ [] then
        .error (.error (.checksum entry.firstSlot)) next.ctx.log
      else .ok st.visited next.ctx.log

def visitBuckets (start stop : UInt64) :
    List GgjetBucketIndexEntry → UInt64 → Visit UpdateEvent UInt64
  | [], visited => return visited
  | entry :: rest, visited =>
    if stop ≤ entry.firstSlot then return visited
    else do
      let visited ← r.visitBucket env start stop entry visited
      visitBuckets start stop rest visited

def saturatingEnd (entry : GgjetBucketIndexEntry) : Nat :=
  min (entry.firstSlot.toNat + entry.slotCount.toNat) (2 ^ 64 - 1)

/-- The visitor is told of the updates of up to `maxSlots` slots from `start` on. -/
def visitSlots (start maxSlots : UInt64) : Visit UpdateEvent UInt64 :=
  if maxSlots = 0 ∨ r.index = [] then return 0
  else do
    let stop ← MonadExcept.ofExcept (checkedAdd start maxSlots)
    r.visitBuckets env start stop
      (r.index.dropWhile fun entry => saturatingEnd entry ≤ start.toNat) 0

end GgjetReader

end Jetstreamer.Ggjet
