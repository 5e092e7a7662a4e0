import Jetstreamer.Archive.Reader
set_option autoImplicit false

namespace Jetstreamer.Firehose
open Lib Lencode Horizon Archive

inductive JetSource where
  | memory (bytes : Bytes)
  | stream (bytes : Bytes)

def JetSource.bytes : JetSource → Bytes
  | .memory bytes => bytes
  | .stream bytes => bytes

/-- `panics` is the call itself stopping, `join` one of its tasks. -/
inductive HorizonFirehoseError where
  | io
  | archive (e : ArchiveFormatError)
  | truncated
  | join
  | panics
  deriving DecidableEq, Repr

namespace HorizonFirehoseError

def ofFraming : Failure → HorizonFirehoseError
  | .error e => .archive e
  | _ => .panics

def ofWorker : Failure → HorizonFirehoseError
  | .error e => .archive e
  | _ => .join

end HorizonFirehoseError

open HorizonFirehoseError

def headerPrefix : Nat := 16 * 1024

def readRange (bytes : Bytes) (offset len : Nat) : Except HorizonFirehoseError Bytes :=
  match readAt bytes offset len with
  | .ok range => .ok range
  | .error (.error _) => .error .io
  | .error _ => .error .panics

def fetchBucket : JetSource → BucketIndexEntry → Except HorizonFirehoseError Bytes
  | .memory bytes, e =>
    if 2 ^ 64 ≤ e.offset.toNat + e.len.toNat then .error .join
    else if bytes.length < e.offset.toNat + e.len.toNat then .error .truncated
    else .ok ((bytes.drop e.offset.toNat).take e.len.toNat)
  | .stream bytes, e =>
    match readAt bytes e.offset.toNat e.len.toNat with
    | .ok raw => .ok raw
    | .error (.error _) => .error .io
    | .error _ => .error .join

/-- What the visitor behind `Bounded` is told of: nothing from `stop` on, epochs excepted. -/
def passes (stop : UInt64) : Event → Bool
  | .epoch _ => true
  | .transaction slot _ _ => slot < stop
  | .block notification _ => notification.slot < stop

abbrev Stream := EStateM Failure (BucketDecoder × List Event)

section Worker

variable (env : Env) (start stop : UInt64)

def decodeBounded : Stream Unit := fun (d,log) =>
  match BucketDecoder.decodeSlotFrame env start (d,[]) with
  | .error e (d,events) => .error e (d,log ++ events.filter (passes stop))
  | .ok _ (d,events) => .ok () (d,log ++ events.filter (passes stop))

/-- Up to `n` frames of the loaded bucket. The result says whether the last slot of the range
has been reached. -/
def decodeFrames : Nat → Stream Bool
  | 0 => return false
  | n+1 => do
    decodeBounded env start stop
    let (d,_) ← get
    match d.lastDecodedSlot with
    | none => decodeFrames n
    | some slot =>
      if slot.toNat + 1 = 2 ^ 64 then throw .panics
      else if stop ≤ slot + 1 then return true
      else decodeFrames n

def decodeBuckets (src : JetSource) (index : List BucketIndexEntry) :
    List Nat → BucketDecoder × List Event → Except HorizonFirehoseError (List Event)
  | [], (_,log) => .ok log
  | b :: rest, (d,log) =>
    match index[b]? with
    | none => .error .join
    | some entry => do
      let raw ← fetchBucket src entry
      match BucketDecoder.loadBucketBytes env raw d with
      | .error e _ => .error (ofWorker e)
      | .ok _ d =>
        match decodeFrames env start stop d.slotsRemaining.toNat (d,log) with
        | .error e _ => .error (ofWorker e)
        | .ok true (_,log) => .ok log
        | .ok false s => decodeBuckets src index rest s

end Worker

/-- `left` more chunks from bucket `s` on, the first of them being number `i`. -/
def chunksFrom (per rem i s : Nat) : Nat → List (List Nat)
  | 0 => []
  | left+1 =>
    let n := per + if i < rem then 1 else 0
    List.range' s n :: chunksFrom per rem (i + 1) (s + n) left

def partitionBuckets (start endInclusive threads : Nat) :
    Except HorizonFirehoseError (List (List Nat)) :=
  if endInclusive + 1 < start then .error .panics
  else
    let total := endInclusive + 1 - start
    .ok (chunksFrom (total / threads) (total % threads) 0 start threads)

def readFraming (env : Env) (bytes : Bytes) :
    Except HorizonFirehoseError (FileHeader × List BucketIndexEntry) :=
  if bytes.length < footerLen then .error .truncated
  else do
    let front ← readRange bytes 0 (min headerPrefix bytes.length)
    let header ← (Get.parse (readFileHeader env) front).mapError ofFraming
    let footerBytes ← readRange bytes (bytes.length - footerLen) footerLen
    let footer ← (Footer.fromBytes footerBytes).mapError ofFraming
    let indexBytes ← readRange bytes footer.indexOffset.toNat footer.indexLen.toNat
    let index ← (parseBucketIndex env indexBytes footer).mapError ofFraming
    return (header,index)

/-- The callbacks each worker's visitor receives, in the order of the workers. The visitors say
whether they want the data of updates. -/
def firehoseHorizon (env : Env) (threads : Nat) (src : JetSource) (start stop : UInt64)
    (accountUpdateData : Bool) : Except HorizonFirehoseError (List (List Event)) := do
  let threads := max threads 1
  let (header,index) ← readFraming env src.bytes
  if index.isEmpty ∨ stop ≤ start then return List.replicate threads []
  else
    let startBucket ← (bucketContaining header index start).mapError ofFraming
    let endBucket ← (bucketContaining header index (stop - 1)).mapError ofFraming
    let chunks ← partitionBuckets startBucket endBucket threads
    chunks.mapM fun chunk => decodeBuckets env start stop src index chunk
      ({ materializeAccountData := accountUpdateData },[])

end Jetstreamer.Firehose
