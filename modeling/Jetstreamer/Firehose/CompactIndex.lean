import Jetstreamer.Lib.Eytzinger
import Jetstreamer.Lib.Records
set_option autoImplicit false

namespace Jetstreamer.Firehose
open Lib

inductive FormatError where
  | sliceOverflow
  | sliceExceeds (offset stop size : Nat)
  | bucketOutOfBounds (index : Nat)
  | bucketHeaderLength (got : Nat)
  | zeroStride
  | bucketDataOverflow (offset len : Nat)
  | bucketDataLength (expected got : Nat)
  | shortHeader
  | badMagic
  | incompleteHeader (expected got : Nat)
  | unsupportedVersion (version : UInt8)
  | metadataKeyLengthEnd
  | metadataKeyOutOfBounds
  | metadataValueLengthEnd
  | metadataValueOutOfBounds
  | wrongKind (expected got : Bytes)
  | unexpectedValueSize (expected got : Nat)
  | rangesLength (got expected : Nat)
  | slotNotInEpoch (slot : Nat)
  | offsetAndSizeLength (got : Nat)
  | rangeInverted (slot stop start : Nat)
  deriving DecidableEq, Repr

/-- How a lookup can end without an answer. Fetching covers the network and the HTTP status. -/
inductive SlotOffsetIndexError where
  | slotNotFound (slot : Nat)
  | indexFormat (reason : FormatError)
  | fetching
  | panics
  deriving DecidableEq, Repr

/-- A downloaded index; it lies in memory, so its length is a machine word. -/
structure IndexFile where
  data : Bytes
  fits : data.length < 2 ^ 64

def IndexFile.slice (file : IndexFile) (offset len : Nat) : Except SlotOffsetIndexError Bytes :=
  if 2 ^ 64 ≤ offset+len then .error (.indexFormat .sliceOverflow)
  else if offset+len > file.data.length then
    .error (.indexFormat (.sliceExceeds offset (offset+len) file.data.length))
  else .ok ((file.data.drop offset).take len)

theorem IndexFile.slice_at {file : IndexFile} {offset : Nat} {part : Bytes}
    (h : At file.data offset part) : file.slice offset part.length = .ok part := by
  have hle := h.le
  have hfits := file.fits
  rw [slice,if_neg (by omega),if_neg (by omega),h.slice]

def bucketHeaderSize : Nat := 16

structure BucketHeader where
  hashDomain : UInt32
  numEntries : UInt32
  hashLen : UInt8
  fileOffset : UInt64
  deriving DecidableEq

/-- Byte 9 is padding; the offset has six bytes. -/
def BucketHeader.fromBytes (bytes : Bytes) : BucketHeader where
  hashDomain := UInt32.ofNat (leValue (bytes.take 4))
  numEntries := UInt32.ofNat (leValue ((bytes.drop 4).take 4))
  hashLen := bytes.getD 8 0
  fileOffset := UInt64.ofNat (leValue ((bytes.drop 10).take 6))

/-- The stored hash; past the eighth byte the shift wraps around the word. -/
def readHash (bytes : Bytes) : UInt64 :=
  bytes.zipIdx.foldl (fun buf (b,i) => buf ||| b.toUInt64 <<< UInt64.ofNat (8*i)) 0

theorem or_shifted_byte {buf : UInt64} {b : UInt8} {i : Nat} (hbuf : buf.toNat < 2 ^ (8*i))
    (hfits : b.toNat*2 ^ (8*i) < 2 ^ 64) :
    (buf ||| b.toUInt64 <<< UInt64.ofNat (8*i)).toNat = buf.toNat + b.toNat*2 ^ (8*i) := by
  rcases Nat.eq_zero_or_pos b.toNat with hzero | hpos
  · have hb : b = 0 := UInt8.toNat_inj.mp hzero
    subst hb
    simp
  · -- a byte that is not zero fits the word only below its end
    have hi : 8*i < 64 := by
      by_contra hge
      have := Nat.pow_le_pow_right (show 0 < 2 by decide) (Nat.le_of_not_lt hge)
      nlinarith
    have hshift : (UInt64.ofNat (8*i)).toNat % 64 = 8*i := by
      rw [UInt64.toNat_ofNat']
      omega
    rw [UInt64.toNat_or,UInt64.toNat_shiftLeft,hshift,UInt8.toNat_toUInt64,Nat.shiftLeft_eq,
      Nat.mod_eq_of_lt hfits,Nat.or_comm,← Nat.shiftLeft_eq,
      ← Nat.shiftLeft_add_eq_or_of_lt hbuf]
    omega

theorem foldl_leBytes {w v i : Nat} {buf : UInt64} (hv : v < 256 ^ w)
    (hbuf : buf.toNat < 2 ^ (8*i)) (hfits : v*2 ^ (8*i) < 2 ^ 64) :
    (((leBytes w v).zipIdx i).foldl
      (fun buf (b,i) => buf ||| b.toUInt64 <<< UInt64.ofNat (8*i)) buf).toNat =
      buf.toNat + v*2 ^ (8*i) := by
  induction w generalizing v i buf with
  | zero =>
    have hzero : v = 0 := by simpa using hv
    simp [leBytes,hzero]
  | succ w ih =>
    have hbyte : (UInt8.ofNat (v % 256)).toNat = v % 256 := by
      rw [UInt8.toNat_ofNat']
      omega
    have hpow : 2 ^ (8*(i+1)) = 256*2 ^ (8*i) := by
      rw [show 8*(i+1) = 8*i+8 by ring,pow_add]
      ring
    have hsplit : v*2 ^ (8*i) = (v % 256)*2 ^ (8*i) + v/256*2 ^ (8*(i+1)) := by
      nth_rewrite 1 [← Nat.mod_add_div v 256]
      rw [hpow]
      ring
    have hlow : (v % 256)*2 ^ (8*i) ≤ 255*2 ^ (8*i) := Nat.mul_le_mul_right _ (by omega)
    have hstep := or_shifted_byte (b := UInt8.ofNat (v % 256)) hbuf (by rw [hbyte]; omega)
    rw [hbyte] at hstep
    have hdiv : v/256 < 256 ^ w := by
      rw [Nat.div_lt_iff_lt_mul (by decide)]
      simpa only [pow_succ] using hv
    rw [leBytes,List.zipIdx_cons,List.foldl_cons,ih hdiv (by rw [hstep]; omega) (by omega),hstep]
    omega

theorem readHash_leBytes {w : Nat} {hash : UInt64} (h : hash.toNat < 256 ^ w) :
    readHash (leBytes w hash.toNat) = hash := by
  apply UInt64.toNat_inj.mp
  rw [readHash,foldl_leBytes h (by simp) (by simpa using hash.toNat_lt)]
  simp

def entryHash64 (xxh64 : Bytes → UInt64) (domain : UInt32) (key : Bytes) : UInt64 :=
  xxh64 (leBytes 4 domain.toNat ++ List.replicate 28 0 ++ key)

def truncatedEntryHash (xxh64 : Bytes → UInt64) (hashDomain : UInt32) (key : Bytes)
    (hashLen : UInt8) : UInt64 :=
  let raw := entryHash64 xxh64 hashDomain key
  if hashLen ≥ 8 then raw
  else
    let bits := hashLen.toNat*8
    let mask : UInt64 := if bits = 64 then 18446744073709551615 else (1 <<< UInt64.ofNat bits) - 1
    raw &&& mask

def hashUint64 (x : UInt64) : UInt64 :=
  let x := x ^^^ (x >>> 33)
  let x := x * 0xff51afd7ed558ccd
  let x := x ^^^ (x >>> 33)
  let x := x * 0xc4ceb9fe1a85ec53
  x ^^^ (x >>> 33)

/-- An index without buckets divides by zero. -/
def bucketHash (xxh64 : Bytes → UInt64) (numBuckets : UInt32) (key : Bytes) :
    Except SlotOffsetIndexError Nat :=
  if numBuckets = 0 then .error .panics
  else
    let h := xxh64 key
    let n := numBuckets.toUInt64
    let u := h % n
    let u := if (h - u) / n < u then hashUint64 u else u
    .ok (u % n).toNat

theorem left_child (index : Nat) : index <<< 1 ||| 1 = 2*index+1 := by
  have h := Nat.shiftLeft_add_eq_or_of_lt (show 1 < 2 ^ 1 by decide) index
  rw [← h,Nat.shiftLeft_eq]
  omega

/-- The loop the three lookups share: each reads its own bytes at an entry's index and makes its
own answer of the index found. -/
def searchBucket {ε α : Type} (max : Nat) (hashAt : Nat → Except ε UInt64)
    (found : Nat → Except ε α) (absent : α) (targetHash : UInt64) (index : Nat) : Except ε α :=
  if index < max then do
    let hash ← hashAt index
    if hash = targetHash then found index
    else
      let next := index <<< 1 ||| 1
      searchBucket max hashAt found absent targetHash (if hash < targetHash then next+1 else next)
  else .ok absent
termination_by max - index
decreasing_by
  rw [left_child]
  split <;> omega

variable {targetHash : UInt64} {xxh64 : Bytes → UInt64} {index : Nat}

theorem searchBucket_eq {ε α : Type} {max : Nat} {hashAt : Nat → Except ε UInt64}
    {found : Nat → Except ε α} {absent : α} {hash : Nat → UInt64}
    (h : ∀ index < max, hashAt index = .ok (hash index)) (index : Nat) :
    searchBucket max hashAt found absent targetHash index =
      match descend max (fun i => (hash i).toNat) targetHash.toNat index with
      | some i => found i
      | none => .ok absent := by
  induction index using descend.induct max (fun i => (hash i).toNat) targetHash.toNat with
  | case1 index hlt heq =>
    rw [searchBucket,descend,if_pos hlt,if_pos hlt,if_pos heq,h index hlt,ok_bind,
      if_pos (UInt64.toNat_inj.mp heq)]
  | case2 index hlt hne ih =>
    have hne' : hash index ≠ targetHash := fun heq => hne (congrArg UInt64.toNat heq)
    rw [searchBucket,descend,if_pos hlt,if_pos hlt,if_neg hne,h index hlt,ok_bind,if_neg hne']
    simp only [left_child,UInt64.lt_iff_toNat_lt]
    exact ih
  | case3 index hlt => rw [searchBucket,descend,if_neg hlt,if_neg hlt]

structure SlotBucketData where
  header : BucketHeader
  file : IndexFile
  dataOffset : Nat
  stride : Nat
  valueWidth : Nat

def SlotBucketData.lookup (xxh64 : Bytes → UInt64) (self : SlotBucketData) (key : Bytes) :
    Except SlotOffsetIndexError (Option Bytes) :=
  let targetHash := truncatedEntryHash xxh64 self.header.hashDomain key self.header.hashLen
  let hashLen := self.header.hashLen.toNat
  searchBucket self.header.numEntries.toNat
    (fun index => do
      let hashSlice ← self.file.slice (self.dataOffset + index*self.stride) hashLen
      return readHash hashSlice)
    (fun index => do
      let valueSlice ←
        self.file.slice (self.dataOffset + index*self.stride + hashLen) self.valueWidth
      return some valueSlice)
    none targetHash 0

/-- Indexing a vector by a range stops the program when the range is not inside it. -/
def indexRange (data : Bytes) (start stop : Nat) : Except SlotOffsetIndexError Bytes :=
  if start ≤ stop ∧ stop ≤ data.length then .ok ((data.drop start).take (stop-start))
  else .error .panics

theorem indexRange_at {data part : Bytes} {offset : Nat} (h : At data offset part) :
    indexRange data offset (offset+part.length) = .ok part := by
  rw [indexRange,if_pos ⟨by omega,h.le⟩,Nat.add_sub_cancel_left,h.slice]

structure RemoteBucketData where
  header : BucketHeader
  data : Bytes
  stride : Nat
  valueWidth : Nat

def RemoteBucketData.lookup (xxh64 : Bytes → UInt64) (self : RemoteBucketData) (key : Bytes) :
    Except SlotOffsetIndexError (Option Bytes) :=
  let targetHash := truncatedEntryHash xxh64 self.header.hashDomain key self.header.hashLen
  let hashLen := self.header.hashLen.toNat
  searchBucket self.header.numEntries.toNat
    (fun index => do
      let hashSlice ← indexRange self.data (index*self.stride) (index*self.stride + hashLen)
      return readHash hashSlice)
    (fun index => do
      let valueStart := index*self.stride + hashLen
      let value ← indexRange self.data valueStart (valueStart + self.valueWidth)
      return some value)
    none targetHash 0

structure CompactIndexHeader where
  valueSize : Nat
  numBuckets : UInt32
  headerSize : Nat
  deriving DecidableEq

structure LocalSlotIndex where
  file : IndexFile
  header : CompactIndexHeader
  buckets : List BucketHeader

def LocalSlotIndex.containsSlot (xxh64 : Bytes → UInt64) (self : LocalSlotIndex) (slot : Nat) :
    Except SlotOffsetIndexError Bool := do
  let key := leBytes 8 slot
  let bucketIndex ← bucketHash xxh64 self.header.numBuckets key
  match self.buckets[bucketIndex]? with
  | none => .error (.indexFormat (.bucketOutOfBounds bucketIndex))
  | some header =>
    if header.numEntries = 0 then return false
    else
      let targetHash := truncatedEntryHash xxh64 header.hashDomain key header.hashLen
      let hashLen := header.hashLen.toNat
      let stride := hashLen + self.header.valueSize
      searchBucket header.numEntries.toNat
        (fun index => do
          let hashSlice ← self.file.slice (header.fileOffset.toNat + index*stride) hashLen
          return readHash hashSlice)
        (fun _ => .ok true)
        false targetHash 0

/-- The magic `compiszd`. -/
def compactIndexMagic : Bytes := [99,111,109,112,105,115,122,100]

/-- The kind `slot-to-cid`. -/
def slotToCidKind : Bytes := [115,108,111,116,45,116,111,45,99,105,100]

/-- The key `index_kind`. -/
def metadataKeyKind : Bytes := [105,110,100,101,120,95,107,105,110,100]

def parsePairs : Nat → Bytes → Except SlotOffsetIndexError (List (Bytes × Bytes))
  | 0, _ => .ok []
  | _+1, [] => .error (.indexFormat .metadataKeyLengthEnd)
  | pairs+1, keyLen :: rest =>
    if keyLen.toNat > rest.length then .error (.indexFormat .metadataKeyOutOfBounds)
    else
      match rest.drop keyLen.toNat with
      | [] => .error (.indexFormat .metadataValueLengthEnd)
      | valueLen :: values =>
        if valueLen.toNat > values.length then .error (.indexFormat .metadataValueOutOfBounds)
        else do
          let others ← parsePairs pairs (values.drop valueLen.toNat)
          return (rest.take keyLen.toNat,values.take valueLen.toNat) :: others

def parseMetadata : Bytes → Except SlotOffsetIndexError (List (Bytes × Bytes))
  | [] => .ok []
  | pairs :: rest => parsePairs pairs.toNat rest

def metadataGet (metadata : List (Bytes × Bytes)) (key : Bytes) : Option Bytes :=
  (metadata.reverse.find? (·.1 = key)).map Prod.snd

/-- Only the firehose states the value size it expects; the node takes any. -/
def parseCompactIndexHeader (data expectedKind : Bytes) (expectedValueSize : Option Nat) :
    Except SlotOffsetIndexError CompactIndexHeader :=
  if data.length < 12 then .error (.indexFormat .shortHeader)
  else if data.take 8 ≠ compactIndexMagic then .error (.indexFormat .badMagic)
  else
    let totalHeaderSize := 12 + leValue ((data.drop 8).take 4)
    if data.length < totalHeaderSize then
      .error (.indexFormat (.incompleteHeader totalHeaderSize data.length))
    -- the fields after the length are read without asking whether they are there
    else if data.length < 25 then .error .panics
    else
      let valueSize := leValue ((data.drop 12).take 8)
      let numBuckets := UInt32.ofNat (leValue ((data.drop 20).take 4))
      let version := data.getD 24 0
      if version ≠ 1 then .error (.indexFormat (.unsupportedVersion version))
      else if totalHeaderSize < 25 then .error .panics
      else do
        let metadata ← parseMetadata ((data.drop 25).take (totalHeaderSize-25))
        match expectedValueSize with
        | some expected =>
          if valueSize ≠ expected then
            throw (.indexFormat (.unexpectedValueSize expected valueSize))
        | none => pure ()
        match metadataGet metadata metadataKeyKind with
        | some kind =>
          if kind ≠ expectedKind then throw (.indexFormat (.wrongKind expectedKind kind))
        | none => pure ()
        return ⟨valueSize,numBuckets,totalHeaderSize⟩

def readBucketHeader (file : IndexFile) (header : CompactIndexHeader) (index : Nat) :
    Except SlotOffsetIndexError BucketHeader := do
  let raw ← file.slice (header.headerSize + index*bucketHeaderSize) bucketHeaderSize
  return BucketHeader.fromBytes raw

def LocalSlotIndex.fromBytes (file : IndexFile) : Except SlotOffsetIndexError LocalSlotIndex := do
  let header ← parseCompactIndexHeader file.data slotToCidKind none
  let buckets ← (List.range header.numBuckets.toNat).mapM (readBucketHeader file header)
  return ⟨file,header,buckets⟩

/-- The firehose's index from slots to block CIDs, downloaded whole. -/
structure SlotCidIndex where
  file : IndexFile
  header : CompactIndexHeader

namespace SlotCidIndex

def loadBucket (self : SlotCidIndex) (index : Nat) :
    Except SlotOffsetIndexError SlotBucketData := do
  let header ← readBucketHeader self.file self.header index
  let stride := header.hashLen.toNat + self.header.valueSize
  let dataLen := stride*header.numEntries.toNat
  let dataStart := header.fileOffset.toNat
  -- the whole bucket has to be inside the file
  let _ ← self.file.slice dataStart dataLen
  return ⟨header,self.file,dataStart,stride,self.header.valueSize⟩

def lookupRaw (xxh64 : Bytes → UInt64) (self : SlotCidIndex) (key : Bytes) :
    Except SlotOffsetIndexError (Option Bytes) := do
  let bucketIndex ← bucketHash xxh64 self.header.numBuckets key
  let bucket ← self.loadBucket bucketIndex
  bucket.lookup xxh64 key

def lookup (xxh64 : Bytes → UInt64) (self : SlotCidIndex) (slot : Nat) :
    Except SlotOffsetIndexError Bytes := do
  match ← self.lookupRaw xxh64 (leBytes 8 slot) with
  | some bytes => return bytes
  | none => throw (.slotNotFound slot)

end SlotCidIndex

/-- The firehose's index from CIDs to sections, of which only the buckets asked for are fetched.
A range is fetched by its first and last byte. -/
structure CidOffsetIndex where
  header : CompactIndexHeader
  fetchRange : Nat → Nat → Except SlotOffsetIndexError Bytes

namespace CidOffsetIndex

def loadBucket (self : CidOffsetIndex) (index : Nat) :
    Except SlotOffsetIndexError RemoteBucketData := do
  let bucketHeaderOffset := self.header.headerSize + index*bucketHeaderSize
  let headerBytes ← self.fetchRange bucketHeaderOffset (bucketHeaderOffset+bucketHeaderSize-1)
  if headerBytes.length ≠ bucketHeaderSize then
    throw (.indexFormat (.bucketHeaderLength headerBytes.length))
  let header := BucketHeader.fromBytes headerBytes
  let stride := header.hashLen.toNat + self.header.valueSize
  if stride = 0 then
    if header.numEntries = 0 then return ⟨header,[],stride,self.header.valueSize⟩
    else throw (.indexFormat .zeroStride)
  else
    let dataLen := stride*header.numEntries.toNat
    if dataLen = 0 then return ⟨header,[],stride,self.header.valueSize⟩
    else
      let dataStart := header.fileOffset.toNat
      if 2 ^ 64 ≤ dataStart+dataLen then
        throw (.indexFormat (.bucketDataOverflow dataStart dataLen))
      else
        let data ← self.fetchRange dataStart (dataStart+dataLen-1)
        if data.length ≠ dataLen then
          throw (.indexFormat (.bucketDataLength dataLen data.length))
        return ⟨header,data,stride,self.header.valueSize⟩

def lookup (xxh64 : Bytes → UInt64) (self : CidOffsetIndex) (key : Bytes) :
    Except SlotOffsetIndexError (Option Bytes) := do
  let bucketIndex ← bucketHash xxh64 self.header.numBuckets key
  let bucket ← self.loadBucket bucketIndex
  bucket.lookup xxh64 key

end CidOffsetIndex

/-- What a bucket stores: values of one width under distinct truncated hashes, in the order of the
implicit tree. -/
structure Bucket where
  hashLen : UInt8
  valueWidth : Nat
  entries : List (UInt64 × Bytes)
  truncated : ∀ entry ∈ entries, entry.1.toNat < 256 ^ hashLen.toNat
  widths : ∀ entry ∈ entries, entry.2.length = valueWidth
  ordered : EytzingerOrder entries.length fun i => ((entries[i]?.map Prod.fst).getD 0).toNat

namespace Bucket

def stride (bucket : Bucket) : Nat := bucket.hashLen.toNat + bucket.valueWidth

def hash (bucket : Bucket) (index : Nat) : UInt64 :=
  (bucket.entries[index]?.map Prod.fst).getD 0

def entryBytes (bucket : Bucket) (entry : UInt64 × Bytes) : Bytes :=
  leBytes bucket.hashLen.toNat entry.1.toNat ++ entry.2

def bytes (bucket : Bucket) : Bytes := bucket.entries.flatMap bucket.entryBytes

def find (bucket : Bucket) (targetHash : UInt64) : Option Bytes := do
  let index ← descend bucket.entries.length (fun i => (bucket.hash i).toNat) targetHash.toNat 0
  let entry ← bucket.entries[index]?
  return entry.2

variable {bucket : Bucket} {file : Bytes} {offset : Nat}

variable {entry : UInt64 × Bytes} {index : Nat}

theorem length_entryBytes (h : entry ∈ bucket.entries) :
    (bucket.entryBytes entry).length = bucket.stride := by
  rw [entryBytes,List.length_append,leBytes_length,bucket.widths entry h,stride]

theorem hash_eq (h : bucket.entries[index]? = some entry) : bucket.hash index = entry.1 := by
  simp [hash,h]

theorem find_eq_some_iff {value : Bytes} :
    bucket.find targetHash = some value ↔ (targetHash,value) ∈ bucket.entries := by
  have hsome (index : Nat) : descend bucket.entries.length (fun i => (bucket.hash i).toNat)
      targetHash.toNat 0 = some index ↔
        index < bucket.entries.length ∧ (bucket.hash index).toNat = targetHash.toNat :=
    bucket.ordered.descend_eq_some_iff
  constructor
  · intro h
    obtain ⟨index,hindex,h⟩ := Option.bind_eq_some_iff.mp h
    obtain ⟨entry,hentry,h⟩ := Option.bind_eq_some_iff.mp h
    have hkey := ((hsome index).mp hindex).2
    have hhash : entry.1 = targetHash := by
      rw [← hash_eq hentry]
      exact UInt64.toNat_inj.mp hkey
    cases h
    rw [← hhash]
    exact List.mem_of_getElem? hentry
  · intro h
    obtain ⟨index,hentry⟩ := List.mem_iff_getElem?.mp h
    have hlt := (List.getElem?_eq_some_iff.mp hentry).1
    have hindex := (hsome index).mpr ⟨hlt,congrArg UInt64.toNat (hash_eq hentry)⟩
    simp [find,hindex,hentry]

theorem hash_at (h : At file offset bucket.bytes) (hlt : index < bucket.entries.length) :
    ∃ hashSlice, At file (offset + index*bucket.stride) hashSlice ∧
      hashSlice.length = bucket.hashLen.toNat ∧ readHash hashSlice = bucket.hash index := by
  have hentry := List.getElem?_eq_getElem hlt
  have hmem := List.mem_of_getElem? hentry
  have hrecord := h.record (fun entry => length_entryBytes) hentry
  exact ⟨_,hrecord.left,leBytes_length _ _,
    by rw [readHash_leBytes (bucket.truncated _ hmem),hash_eq hentry]⟩

theorem value_at (h : At file offset bucket.bytes) (hentry : bucket.entries[index]? = some entry) :
    At file (offset + index*bucket.stride + bucket.hashLen.toNat) entry.2 := by
  have hrecord := (h.record (fun entry => length_entryBytes) hentry).right
  rwa [leBytes_length] at hrecord

structure DescribedBy (bucket : Bucket) (header : BucketHeader) : Prop where
  numEntries : header.numEntries.toNat = bucket.entries.length
  hashLen : header.hashLen = bucket.hashLen

variable {header : BucketHeader} {ε α : Type}

theorem searchBucket_eq_find (hdesc : bucket.DescribedBy header) (answer : Bytes → α)
    {hashAt : Nat → Except ε UInt64} {found : Nat → Except ε α} {absent : α}
    (hhash : ∀ index < bucket.entries.length, hashAt index = .ok (bucket.hash index))
    (hfound : ∀ index entry, bucket.entries[index]? = some entry →
      found index = .ok (answer entry.2)) :
    searchBucket header.numEntries.toNat hashAt found absent targetHash 0 =
      .ok (((bucket.find targetHash).map answer).getD absent) := by
  rw [hdesc.numEntries,searchBucket_eq hhash]
  cases hindex : descend bucket.entries.length (fun i => (bucket.hash i).toNat)
      targetHash.toNat 0 with
  | none => simp [find,hindex]
  | some index =>
    have hentry := List.getElem?_eq_getElem (descend_some hindex).1
    simp [find,hindex,hentry,hfound index _ hentry]

end Bucket

section Lookups

variable {xxh64 : Bytes → UInt64} {bucket : Bucket} {header : BucketHeader} {file : IndexFile}
  {offset : Nat}

section

variable (hdesc : bucket.DescribedBy header)
include hdesc

theorem IndexFile.readHash_slice
    (hat : At file.data offset bucket.bytes) {index : Nat} (hlt : index < bucket.entries.length) :
    (do
      let hashSlice ← file.slice (offset + index*bucket.stride) header.hashLen.toNat
      return readHash hashSlice) = .ok (bucket.hash index) := by
  obtain ⟨hashSlice,hslice,hlen,hhash⟩ := bucket.hash_at hat hlt
  rw [hdesc.hashLen,← hlen,slice_at hslice,ok_bind,hhash]
  rfl

theorem SlotBucketData.lookup_eq_find
    (hat : At file.data offset bucket.bytes) (key : Bytes) :
    SlotBucketData.lookup xxh64 ⟨header,file,offset,bucket.stride,bucket.valueWidth⟩ key =
      .ok (bucket.find (truncatedEntryHash xxh64 header.hashDomain key header.hashLen)) := by
  refine (bucket.searchBucket_eq_find hdesc some
    (fun index => IndexFile.readHash_slice hdesc hat) fun index entry hentry => ?_).trans ?_
  · have hvalue := IndexFile.slice_at (bucket.value_at hat hentry)
    rw [bucket.widths entry (List.mem_of_getElem? hentry)] at hvalue
    simp only [hdesc.hashLen,hvalue,ok_bind]
    rfl
  · cases bucket.find (truncatedEntryHash xxh64 header.hashDomain key header.hashLen) <;> rfl

theorem RemoteBucketData.lookup_eq_find (key : Bytes) :
    RemoteBucketData.lookup xxh64 ⟨header,bucket.bytes,bucket.stride,bucket.valueWidth⟩ key =
      .ok (bucket.find (truncatedEntryHash xxh64 header.hashDomain key header.hashLen)) := by
  have hat := At.self bucket.bytes
  refine (bucket.searchBucket_eq_find hdesc some (fun index hlt => ?_)
    fun index entry hentry => ?_).trans ?_
  · obtain ⟨hashSlice,hslice,hlen,hhash⟩ := bucket.hash_at hat hlt
    have hrange := indexRange_at hslice
    rw [hlen,Nat.zero_add] at hrange
    simp only [hdesc.hashLen,hrange,ok_bind,hhash]
    rfl
  · have hrange := indexRange_at (bucket.value_at hat hentry)
    rw [bucket.widths entry (List.mem_of_getElem? hentry),Nat.zero_add] at hrange
    simp only [hdesc.hashLen,hrange,ok_bind]
    rfl
  · cases bucket.find (truncatedEntryHash xxh64 header.hashDomain key header.hashLen) <;> rfl

theorem LocalSlotIndex.containsSlot_eq_find {self : LocalSlotIndex} {slot index : Nat}
    (hat : At self.file.data header.fileOffset.toNat bucket.bytes)
    (hvalue : self.header.valueSize = bucket.valueWidth)
    (hindex : bucketHash xxh64 self.header.numBuckets (leBytes 8 slot) = .ok index)
    (hheader : self.buckets[index]? = some header) :
    self.containsSlot xxh64 slot = .ok (bucket.find (truncatedEntryHash xxh64
      header.hashDomain (leBytes 8 slot) header.hashLen)).isSome := by
  simp only [containsSlot,hindex,ok_bind,hheader]
  split
  · -- an empty bucket is answered before its bytes are looked at
    rename_i hzero
    have hnone : bucket.entries = [] := by
      rw [← List.length_eq_zero_iff,← hdesc.numEntries,hzero]
      rfl
    rw [Option.isSome_eq_false_iff.mpr]
    · rfl
    · rw [Option.isNone_iff_eq_none,Option.eq_none_iff_forall_ne_some]
      intro value hfind
      have hmem := bucket.find_eq_some_iff.mp hfind
      simp [hnone] at hmem
  · have hstride : header.hashLen.toNat + self.header.valueSize = bucket.stride := by
      rw [hdesc.hashLen,hvalue,Bucket.stride]
    simp only [hstride]
    refine (bucket.searchBucket_eq_find hdesc (fun _ => true)
      (fun index => IndexFile.readHash_slice hdesc hat) fun _ _ _ => rfl).trans ?_
    cases bucket.find (truncatedEntryHash xxh64 header.hashDomain (leBytes 8 slot)
      header.hashLen) <;> rfl

end

/-- The three lookups of a bucket answer alike: with what is stored under the truncated hash of
the key, or that nothing is. -/
theorem bucket_lookups (xxh64 : Bytes → UInt64) (bucket : Bucket) (header : BucketHeader)
    (hdesc : bucket.DescribedBy header) (file : IndexFile)
    (hat : At file.data header.fileOffset.toNat bucket.bytes) (key : Bytes) :
    ∃ answer : Option Bytes,
      (∀ value, answer = some value ↔
        (truncatedEntryHash xxh64 header.hashDomain key header.hashLen,value) ∈ bucket.entries) ∧
      SlotBucketData.lookup xxh64
        ⟨header,file,header.fileOffset.toNat,bucket.stride,bucket.valueWidth⟩ key = .ok answer ∧
      RemoteBucketData.lookup xxh64
        ⟨header,bucket.bytes,bucket.stride,bucket.valueWidth⟩ key = .ok answer ∧
      ∀ (self : LocalSlotIndex) (slot index : Nat), self.file = file →
        self.header.valueSize = bucket.valueWidth → key = leBytes 8 slot →
        bucketHash xxh64 self.header.numBuckets key = .ok index →
        self.buckets[index]? = some header →
          self.containsSlot xxh64 slot = .ok answer.isSome := by
  refine ⟨_,fun value => bucket.find_eq_some_iff,SlotBucketData.lookup_eq_find hdesc hat key,
    RemoteBucketData.lookup_eq_find hdesc key,?_⟩
  rintro self slot index rfl hvalue rfl hindex hheader
  exact LocalSlotIndex.containsSlot_eq_find hdesc hat hvalue hindex hheader

def smallBucket : Bucket where
  hashLen := 1
  valueWidth := 2
  entries := [(5,[50,0]),(3,[30,0]),(9,[90,0]),(1,[10,0])]
  truncated := by decide
  widths := by decide
  ordered := by simp [EytzingerOrder,inorder]

def smallHeader : BucketHeader := ⟨7,4,1,2⟩

def smallIndexFile : IndexFile := ⟨[0,0] ++ smallBucket.bytes,by decide⟩

def lastWord (bytes : Bytes) : UInt64 := UInt64.ofNat (leValue (bytes.drop (bytes.length-8)))

theorem bucket_lookups_smallBucket :
    SlotBucketData.lookup lastWord ⟨smallHeader,smallIndexFile,2,3,2⟩ (leBytes 8 1) =
        .ok (some [10,0]) ∧
      SlotBucketData.lookup lastWord ⟨smallHeader,smallIndexFile,2,3,2⟩ (leBytes 8 4) =
        .ok none := by
  have hlookups := bucket_lookups lastWord smallBucket smallHeader ⟨rfl,rfl⟩ smallIndexFile
    ⟨[0,0],[],by simp [smallIndexFile],rfl⟩
  constructor
  · obtain ⟨answer,hanswer,hlookup,-⟩ := hlookups (leBytes 8 1)
    rw [(hanswer [10,0]).mpr (by decide)] at hlookup
    exact hlookup
  · obtain ⟨answer,hanswer,hlookup,-⟩ := hlookups (leBytes 8 4)
    have hnone : answer = none := by
      rw [Option.eq_none_iff_forall_ne_some]
      intro value hsome
      have hmem := (hanswer value).mp hsome
      simp only [show truncatedEntryHash lastWord smallHeader.hashDomain (leBytes 8 4)
        smallHeader.hashLen = 4 by decide,smallBucket] at hmem
      simp at hmem
    rw [hnone] at hlookup
    exact hlookup

end Lookups

theorem Bucket.length_bytes (bucket : Bucket) :
    bucket.bytes.length = bucket.stride*bucket.entries.length := by
  rw [Bucket.bytes,length_flatMap_of_width fun entry => bucket.length_entryBytes,Nat.mul_comm]

variable {header : BucketHeader} {bucket : Bucket}

theorem SlotCidIndex.loadBucket_eq {self : SlotCidIndex}
    (hheader : readBucketHeader self.file self.header index = .ok header)
    (hdesc : bucket.DescribedBy header)
    (hat : At self.file.data header.fileOffset.toNat bucket.bytes)
    (hvalue : self.header.valueSize = bucket.valueWidth) :
    self.loadBucket index = .ok
      ⟨header,self.file,header.fileOffset.toNat,bucket.stride,bucket.valueWidth⟩ := by
  have hslice := IndexFile.slice_at hat
  rw [bucket.length_bytes] at hslice
  have hstride : header.hashLen.toNat + bucket.valueWidth = bucket.stride := by
    rw [hdesc.hashLen,Bucket.stride]
  simp only [loadBucket,hheader,ok_bind,hvalue,hstride,hdesc.numEntries,hslice]
  rfl

theorem SlotCidIndex.lookup_eq_find {self : SlotCidIndex} {slot : Nat}
    (hindex : bucketHash xxh64 self.header.numBuckets (leBytes 8 slot) = .ok index)
    (hheader : readBucketHeader self.file self.header index = .ok header)
    (hdesc : bucket.DescribedBy header)
    (hat : At self.file.data header.fileOffset.toNat bucket.bytes)
    (hvalue : self.header.valueSize = bucket.valueWidth) :
    self.lookup xxh64 slot = (bucket.find (truncatedEntryHash xxh64 header.hashDomain
      (leBytes 8 slot) header.hashLen)).elim (.error (.slotNotFound slot)) .ok := by
  simp only [lookup,lookupRaw,hindex,ok_bind,loadBucket_eq hheader hdesc hat hvalue,
    SlotBucketData.lookup_eq_find hdesc hat]
  cases bucket.find (truncatedEntryHash xxh64 header.hashDomain (leBytes 8 slot)
    header.hashLen) <;> rfl

def CidOffsetIndex.Fetches (self : CidOffsetIndex) (file : IndexFile) : Prop :=
  ∀ offset part, At file.data offset part → part ≠ [] →
    self.fetchRange offset (offset+part.length-1) = .ok part

theorem CidOffsetIndex.lookup_eq_find {self : CidOffsetIndex} {file : IndexFile} {key raw : Bytes}
    (hfetches : self.Fetches file)
    (hindex : bucketHash xxh64 self.header.numBuckets key = .ok index)
    (hraw : At file.data (self.header.headerSize + index*bucketHeaderSize) raw)
    (hlen : raw.length = bucketHeaderSize) (hheader : BucketHeader.fromBytes raw = header)
    (hdesc : bucket.DescribedBy header) (hat : At file.data header.fileOffset.toNat bucket.bytes)
    (hvalue : self.header.valueSize = bucket.valueWidth) (hpos : 0 < bucket.valueWidth) :
    self.lookup xxh64 key = .ok (bucket.find
      (truncatedEntryHash xxh64 header.hashDomain key header.hashLen)) := by
  have hheaderBytes := hfetches _ raw hraw (by
    rw [← List.length_pos_iff,hlen]
    decide)
  rw [hlen] at hheaderBytes
  have hstride : header.hashLen.toNat + bucket.valueWidth = bucket.stride := by
    rw [hdesc.hashLen,Bucket.stride]
  have hstridePos : bucket.stride ≠ 0 := by
    rw [Bucket.stride]
    omega
  have hload : self.loadBucket index =
      .ok ⟨header,bucket.bytes,bucket.stride,bucket.valueWidth⟩ := by
    have hbytes := bucket.length_bytes
    simp only [loadBucket,hheaderBytes,ok_bind,hlen,ne_eq,not_true_eq_false,if_false,hheader,
      hvalue,hstride,hstridePos,hdesc.numEntries]
    by_cases hempty : bucket.stride*bucket.entries.length = 0
    · have hnil : bucket.bytes = [] := by rw [← List.length_eq_zero_iff,hbytes,hempty]
      simp only [hempty,if_true,hnil]
      rfl
    · have hdata := hfetches _ bucket.bytes hat (by rw [← List.length_pos_iff]; omega)
      have hle := hat.le
      have hfits := file.fits
      rw [hbytes] at hdata hle
      have hover : ¬2 ^ 64 ≤ header.fileOffset.toNat + bucket.stride*bucket.entries.length := by
        omega
      simp only [hempty,if_false,hover,hdata,ok_bind,hbytes,not_true_eq_false]
      rfl
  simp only [lookup,hindex,ok_bind,hload,RemoteBucketData.lookup_eq_find hdesc]

end Jetstreamer.Firehose
