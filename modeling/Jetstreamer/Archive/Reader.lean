import Jetstreamer.Archive.Frames
import Jetstreamer.Archive.Writer
set_option autoImplicit false

namespace Jetstreamer.Archive
open Lib Lencode Horizon

structure PayloadByteStats where
  transactionBytes : Nat := 0
  accountUpdateBytes : Nat := 0
  otherBytes : Nat := 0
  deriving DecidableEq, Repr

structure BucketDecoder where
  verifyChain : Bool := false
  materializeAccountData : Bool := true
  bucketMaterialize : Bool := true
  payload : Bytes := []
  pos : Nat := 0
  slotsRemaining : UInt32 := 0
  lastDecodedSlot : Option UInt64 := none
  decoders : DecoderContext := newDecoderContext
  lastBlockhash : Hash := Hash.default
  byteStats : PayloadByteStats := {}

/-- The payload behind stored bytes; on failure, with what the buffer is left holding. -/
def unpackPayload (env : Env) (header : BucketHeader) (stored : Bytes) :
    Except (Failure × Bytes) Bytes :=
  match header.compression with
  | .none => .ok stored
  | .zstd =>
    if tooLarge header.uncompressedLen.toNat then .error (.panics,[])
    else
      match env.zstd.decompress stored with
      | none => .error (.error .io,[])
      | some out =>
        -- more than was announced does not fit the buffer
        if header.uncompressedLen.toNat < out.length then .error (.error .io,[])
        else if lenU64 out ≠ header.uncompressedLen then
          .error (.error (.bucketChecksum header.firstSlot),out)
        else .ok out

namespace BucketDecoder

variable (env : Env)

def loadBucketBytes (raw : Bytes) : EStateM Failure BucketDecoder Unit := fun d =>
  match (decodeBucketHeader : Get Failure Unit BucketHeader) ⟨(),raw⟩ with
  | .error e _ => .error e d
  | .ok header rest =>
    let stored := rest.bytes
    if lenU64 stored ≠ header.storedLen ∨ env.xxh64 stored ≠ header.xxh64 then
      .error (.error (.bucketChecksum header.firstSlot)) d
    else
      match unpackPayload env header stored with
      | .error (e,payload) => .error e { d with payload }
      | .ok payload => .ok () { d with
          payload
          pos := 0
          slotsRemaining := header.slotCount
          lastDecodedSlot := none
          lastBlockhash := header.pohStartHash
          decoders := newDecoderContext
          bucketMaterialize := d.materializeAccountData }

def frameContext (d : BucketDecoder) (events : List Event) : FrameContext :=
  ⟨d.decoders,d.lastBlockhash,events,0,0,0⟩

def PayloadByteStats.add (s : PayloadByteStats) (ctx : FrameContext) (frameBytes : Nat) :
    PayloadByteStats :=
  let auBytes := ctx.updateBytes + ctx.txUpdateBytes
  let txFieldBytes := ctx.txBytes - ctx.txUpdateBytes
  ⟨s.transactionBytes + txFieldBytes,s.accountUpdateBytes + auBytes,
    s.otherBytes + (frameBytes - auBytes - txFieldBytes)⟩

/-- Decodes the next frame. A failure leaves the position where it was, but not the decoders. -/
def decodeSlotFrame (startSlot : UInt64) : EStateM Failure (BucketDecoder × List Event) Bool :=
  fun (d,events) =>
    if d.payload.length < d.pos then .error .panics (d,events)
    else
      let bytes := d.payload.drop d.pos
      match readFrame env d.bucketMaterialize d.verifyChain startSlot
          ⟨d.frameContext events,bytes⟩ with
      | .error e next => .error e
          ({ d with decoders := next.ctx.decoders, lastBlockhash := next.ctx.lastBlockhash },
            next.ctx.events)
      | .ok (slot,emit) next =>
        let frameBytes := bytes.length - next.bytes.length
        let d := { d with
          decoders := next.ctx.decoders
          lastBlockhash := next.ctx.lastBlockhash
          byteStats := PayloadByteStats.add d.byteStats next.ctx frameBytes
          pos := d.pos + frameBytes }
        if d.slotsRemaining = 0 then .error .panics (d,next.ctx.events)
        else .ok emit ({ d with
          slotsRemaining := d.slotsRemaining - 1, lastDecodedSlot := some slot },next.ctx.events)

end BucketDecoder

section Framing

variable (env : Env)

/-- A length whose first byte has been read. -/
def readIoVarintAfter (first : Nat) : Get Failure Unit Nat :=
  if first < 128 then return first
  else if 8 < first - 128 then fail .invalidData
  else do
    let rest ← Get.take (.error .io) (first - 128)
    return leValue rest.1

def readIoVarint : Get Failure Unit Nat := do
  let first ← Get.take (.error .io) 1
  readIoVarintAfter (first.1.headD 0).toNat

def readFileHeader : Get Failure Unit FileHeader := do
  let front ← Get.take (.error .io) 8
  if front.1 ≠ magic then throw (.error .badMagic)
  else
    let headerLen ← readIoVarint
    if tooLarge headerLen then panic
    else
      let headerBytes ← Get.take (.error .io) headerLen
      match Get.parse (decodeFileHeader env.zstd) headerBytes.1 with
      | .error e => throw e
      | .ok header =>
        if header.formatVersion ≠ formatVersion then
          throw (.error (.unsupportedVersion header.formatVersion))
        else if header.primeTableId ≠ primeTableId env then
          throw (.error (.primeTableMismatch header.primeTableId (primeTableId env)))
        else return header

def readIndex : Get Failure Unit (List BucketIndexEntry) := do
  let count ← decodeLen
  if tooLarge (24 * count) then panic
  else
    let entries ← Get.times count decodeBucketIndexEntry
    return entries.1

def parseBucketIndex (index : Bytes) (footer : Footer) : Except Failure (List BucketIndexEntry) :=
  if env.xxh64 index ≠ footer.indexXxh64 then .error (.error .indexChecksum)
  else Get.parse readIndex index

def readAt (source : Bytes) (offset len : Nat) : Except Failure Bytes :=
  if tooLarge len then .error .panics
  else if offset + len ≤ source.length then .ok ((source.drop offset).take len)
  else .error (.error .io)

def readFooter (source : Bytes) : Except Failure Footer :=
  if source.length < footerLen then .error (.error .io)
  else Footer.fromBytes (source.drop (source.length - footerLen))

/-- From the bucket nearest to where a dense archive would have the slot, back to one that does
not start behind it. -/
def walkBack (index : List BucketIndexEntry) (slot : UInt64) : Nat → Nat
  | 0 => 0
  | i+1 => if (index[i+1]?).any (slot < ·.firstSlot) then walkBack index slot i else i + 1

def bucketContaining (header : FileHeader) (index : List BucketIndexEntry) (slot : UInt64) :
    Except Failure Nat :=
  if header.bucketSlots = 0 then .error .panics
  else
    let id := (slot.toNat - header.slotStart.toNat) / header.bucketSlots.toNat
    .ok (walkBack index slot (min id (index.length - 1)))

end Framing

structure ArchiveReader where
  source : Bytes
  header : FileHeader
  index : List BucketIndexEntry
  verifyChain : Bool
  currentBucket : Option Nat
  bucketLoads : Nat
  decoder : BucketDecoder

def ArchiveReader.open (env : Env) (source : Bytes) : Except Failure ArchiveReader := do
  let header ← Get.parse (readFileHeader env) source
  let footer ← readFooter source
  let indexBytes ← readAt source footer.indexOffset.toNat footer.indexLen.toNat
  let index ← parseBucketIndex env indexBytes footer
  return { source, header, index, verifyChain := false, currentBucket := none, bucketLoads := 0,
           decoder := {} }

namespace ArchiveReader

abbrev Visit := EStateM Failure (ArchiveReader × List Event)

variable (env : Env)

def loadBucket (idx : Nat) : Visit Unit := fun (r,events) =>
  match r.index[idx]? with
  | none => .error .panics (r,events)
  | some entry =>
    match readAt r.source entry.offset.toNat entry.len.toNat with
    | .error e => .error e (r,events)
    | .ok raw =>
      match BucketDecoder.loadBucketBytes env raw r.decoder with
      | .error e decoder => .error e ({ r with decoder },events)
      | .ok _ decoder => .ok ()
          ({ r with decoder, currentBucket := some idx, bucketLoads := r.bucketLoads + 1 },events)

def decodeSlotFrame (startSlot : UInt64) : Visit Bool := fun (r,events) =>
  match BucketDecoder.decodeSlotFrame env startSlot (r.decoder,events) with
  | .error e (decoder,events) => .error e ({ r with decoder },events)
  | .ok emit (decoder,events) => .ok emit ({ r with decoder },events)

/-- Up to `n` frames of the loaded bucket, until the visitor has been told of enough. -/
def readFrames (startSlot : UInt64) (maxSlots : Nat) : Nat → Nat → Visit Nat
  | 0, visited => return visited
  | n+1, visited =>
    if visited < maxSlots then do
      let emitted ← decodeSlotFrame env startSlot
      readFrames startSlot maxSlots n (if emitted then visited + 1 else visited)
    else return visited

/-- The buckets ahead. One that announces no frame is asked for one all the same. -/
def readBuckets (startSlot : UInt64) (maxSlots : Nat) : List Nat → Nat → Visit Nat
  | [], visited => return visited
  | idx :: rest, visited =>
    if visited < maxSlots then do
      loadBucket env idx
      let (r,_) ← get
      let visited ← readFrames env startSlot maxSlots (max r.decoder.slotsRemaining.toNat 1) visited
      readBuckets startSlot maxSlots rest visited
    else return visited

/-- Whether the loaded bucket can be read on: it is the right one, was decoded in the mode the
visitor wants, and not yet past the slot. -/
def continues (r : ArchiveReader) (target : Nat) (startSlot : UInt64) : Bool :=
  r.currentBucket = some target &&
    r.decoder.bucketMaterialize = r.decoder.materializeAccountData &&
    r.decoder.lastDecodedSlot.all (· < startSlot)

def seek (target : Nat) (startSlot : UInt64) : Visit Unit := do
  let (r,_) ← get
  if r.continues target startSlot then return () else loadBucket env target

def readSlots (startSlot : UInt64) (maxSlots : Nat) (accountUpdateData : Bool) : Visit Nat := do
  let (r,_) ← get
  if r.index.isEmpty ∨ maxSlots = 0 then return 0
  else
    modify fun (r,events) => ({ r with decoder := { r.decoder with
      verifyChain := r.verifyChain, materializeAccountData := accountUpdateData } },events)
    match bucketContaining r.header r.index startSlot with
    | .error e => throw e
    | .ok target =>
      seek env target startSlot
      let (r,_) ← get
      let visited ← readFrames env startSlot maxSlots r.decoder.slotsRemaining.toNat 0
      readBuckets env startSlot maxSlots
        (List.range' (target + 1) (r.index.length - (target + 1))) visited

end ArchiveReader

end Jetstreamer.Archive
