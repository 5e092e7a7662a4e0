import Jetstreamer.Archive.Reader
set_option autoImplicit false

namespace Jetstreamer.Ggjet
open Lib Lencode Horizon Archive

inductive ManifestError where
  | bucketSizes
  | dimensions
  | tooManyAccounts
  | duplicateAddress (address : Address) (ordinal : Nat)
  | ordinalOutOfRange (ordinal : UInt32)
  deriving DecidableEq

inductive GgjetError where
  | badMagic
  | unsupportedVersion (version : UInt16)
  | manifest (e : ManifestError)
  | manifestDigest (declared calculated : Hash)
  | checksum (ordinal : UInt64)
  | indexChecksum
  | checkpointCount (got expected : UInt64)
  | slotSequence (got expected : UInt64)
  | accountNotInManifest (address : Address)
  | nonMonotonicWriteVersion (slot previous got : UInt64)
  | sourceRangeMismatch (sourceStart sourceEnd ggjetStart ggjetEnd : UInt64)
  | rangeOverflow
  | decode (e : Lencode.Error)
  | jet (e : ArchiveFormatError)
  | io
  deriving DecidableEq

inductive GgjetFailure where
  | error (e : GgjetError)
  | panics
  | undefined
  deriving DecidableEq

instance : Raises GgjetFailure := ⟨fun e => .error (.decode e),.panics,.undefined⟩

/-- What the format takes from outside, with the hash of its manifest. -/
structure GgjetEnv extends Env where
  sha256 : Bytes → Hash

def magic : Bytes := [71,71,74,69,84,49,0,0]

def magicEnd : Bytes := [0,0,84,69,74,71,71,49]

def formatVersion : UInt16 := 1

def footerLen : Nat := 56

/-- The accounts of an archive: no account twice, and all of them within reach of an ordinal. -/
structure AccountManifest where
  accounts : List Address
  nodup : accounts.Nodup
  count : accounts.length < 2 ^ 32

def firstDuplicate (seen : List Address) : List Address → Option (Address × Nat)
  | [] => none
  | a :: rest => if a ∈ seen then some (a,seen.length) else firstDuplicate (seen ++ [a]) rest

theorem nodup_of_firstDuplicate {seen rest : List Address} (hseen : seen.Nodup)
    (h : firstDuplicate seen rest = none) : (seen ++ rest).Nodup := by
  induction rest generalizing seen with
  | nil => simpa using hseen
  | cons a rest ih =>
    rw [firstDuplicate] at h
    split at h
    · cases h
    · rename_i hnew
      have hnext : (seen ++ [a]).Nodup := List.nodup_append.mpr
        ⟨hseen,by simp,fun x hx y hy => by
          rw [List.mem_singleton.mp hy]
          exact fun heq => hnew (heq ▸ hx)⟩
      simpa using ih hnext h

theorem firstDuplicate_of_nodup {seen rest : List Address} (h : (seen ++ rest).Nodup) :
    firstDuplicate seen rest = none := by
  induction rest generalizing seen with
  | nil => rfl
  | cons a rest ih =>
    have hnew : a ∉ seen := fun hmem =>
      (List.nodup_append.mp h).2.2 a hmem a List.mem_cons_self rfl
    rw [firstDuplicate,if_neg hnew]
    exact ih (by simpa using h)

namespace AccountManifest

def fromAccounts (accounts : List Address) : Except GgjetFailure AccountManifest :=
  if hcount : 2 ^ 32 ≤ accounts.length then .error (.error (.manifest .tooManyAccounts))
  else
    match h : firstDuplicate [] accounts with
    | some (address,ordinal) => .error (.error (.manifest (.duplicateAddress address ordinal)))
    | none => .ok ⟨accounts,nodup_of_firstDuplicate List.nodup_nil h,by omega⟩

theorem fromAccounts_accounts (m : AccountManifest) : fromAccounts m.accounts = .ok m := by
  have hcount : ¬2 ^ 32 ≤ m.accounts.length := not_le.mpr m.count
  have hnone : firstDuplicate [] m.accounts = none :=
    firstDuplicate_of_nodup (by simpa using m.nodup)
  unfold fromAccounts
  rw [dif_neg hcount]
  split
  · rename_i heq
    rw [hnone] at heq
    cases heq
  · rfl

/-- The bytes of the manifest section, whose hash names the account set. -/
def raw (m : AccountManifest) : Bytes := m.accounts.flatMap (·.1)

def digest (env : GgjetEnv) (m : AccountManifest) : Hash := env.sha256 m.raw

def indexOf (m : AccountManifest) (address : Address) : Option UInt32 :=
  (m.accounts.idxOf? address).map UInt32.ofNat

def contains (m : AccountManifest) (address : Address) : Bool := m.accounts.contains address

theorem indexOf_some {m : AccountManifest} {address : Address} {ordinal : UInt32}
    (h : m.indexOf address = some ordinal) : m.accounts[ordinal.toNat]? = some address := by
  obtain ⟨i,hi,hord⟩ := Option.map_eq_some_iff.mp h
  obtain ⟨hlt,hget,-⟩ := List.idxOf?_eq_some_iff.mp hi
  have hsmall : (UInt32.ofNat i).toNat = i :=
    UInt32.toNat_ofNat_of_lt' (lt_trans hlt m.count)
  rw [← hord,hsmall,List.getElem?_eq_getElem hlt,hget]

end AccountManifest

structure GgjetHeader where
  formatVersion : UInt16
  bucketSlots : UInt16
  checkpointBucketAccounts : UInt32
  checkpointSlot : UInt64
  updateStartSlot : UInt64
  updateSlotCount : UInt64
  accountCount : UInt64
  accountSetSha256 : Hash
  flags : UInt64
  createdUnixMs : UInt64
  writerVersion : Bytes
  deriving DecidableEq

/-- Ahead of every section: what it starts with, how much is in it and how it is stored. -/
structure BlobHeader where
  firstOrdinal : UInt64
  itemCount : UInt32
  compression : Compression
  uncompressedLen : UInt64
  storedLen : UInt64
  xxh64 : UInt64
  deriving DecidableEq

structure GgjetBucketIndexEntry where
  firstSlot : UInt64
  slotCount : UInt32
  updateCount : UInt64
  offset : UInt64
  len : UInt64
  deriving DecidableEq

structure Footer where
  indexOffset : UInt64
  indexLen : UInt64
  bucketCount : UInt64
  indexXxh64 : UInt64
  deriving DecidableEq

section Codecs

variable {ε σ τ : Type} [Raises ε] {P : σ → τ → Prop}

def encodeGgjetHeader (h : GgjetHeader) : Put ε σ :=
  Put.all [encodeU16 h.formatVersion,encodeU16 h.bucketSlots,encodeU32 h.checkpointBucketAccounts,
    encodeU64 h.checkpointSlot,encodeU64 h.updateStartSlot,encodeU64 h.updateSlotCount,
    encodeU64 h.accountCount,encodeFixed h.accountSetSha256,encodeU64 h.flags,
    encodeU64 h.createdUnixMs,writeFlaggedRaw h.writerVersion]

def decodeGgjetHeader (z : Zstd) : Get ε τ GgjetHeader := do
  return ⟨← decodeU16,← decodeU16,← decodeU32,← decodeU64,← decodeU64,← decodeU64,← decodeU64,
    ← decodeFixed 32,← decodeU64,← decodeU64,← decodeVecU8 z⟩

def encodeBlobHeader (h : BlobHeader) : Put ε σ :=
  Put.all [encodeU64 h.firstOrdinal,encodeU32 h.itemCount,encodeCompression h.compression,
    encodeU64 h.uncompressedLen,encodeU64 h.storedLen,encodeU64 h.xxh64]

/-- Nothing looks at the cursor behind the last field. -/
def decodeBlobHeader : Get ε τ BlobHeader := do
  return ⟨← decodeU64,← decodeU32,← decodeCompression,← decodeU64,← decodeU64,(← decodeU64Past).1⟩

def encodeIndexEntry (e : GgjetBucketIndexEntry) : Put ε σ :=
  Put.all [encodeU64 e.firstSlot,encodeU32 e.slotCount,encodeU64 e.updateCount,encodeU64 e.offset,
    encodeU64 e.len]

def decodeIndexEntry : Get ε τ (GgjetBucketIndexEntry × Bool) := do
  let firstSlot ← decodeU64
  let slotCount ← decodeU32
  let updateCount ← decodeU64
  let offset ← decodeU64
  let len ← decodeU64Past
  return (⟨firstSlot,slotCount,updateCount,offset,len.1⟩,len.2)

theorem reads_ggjetHeader (z : Zstd) (h : GgjetHeader) :
    Reads P (encodeGgjetHeader h : Put ε σ) (decodeGgjetHeader z) h P :=
  (reads_u16 _).cons ((reads_u16 _).cons ((reads_u32 _).cons ((reads_u64 _).cons
    ((reads_u64 _).cons ((reads_u64 _).cons ((reads_u64 _).cons ((reads_fixed _).cons
      ((reads_u64 _).cons ((reads_u64 _).cons ((reads_vecU8 z _).cons (Reads.nil h)))))))))))

theorem reads_blobHeader (h : BlobHeader) :
    Reads P (encodeBlobHeader h : Put ε σ) decodeBlobHeader h P :=
  (reads_u64 _).cons ((reads_u32 _).cons ((reads_compression _).cons ((reads_u64 _).cons
    ((reads_u64 _).cons ((reads_u64Past _).cons (Reads.nil h))))))

theorem reads_indexEntry (e : GgjetBucketIndexEntry) :
    Reads P (encodeIndexEntry e : Put ε σ) decodeIndexEntry (e,false) P :=
  (reads_u64 _).cons ((reads_u32 _).cons ((reads_u64 _).cons ((reads_u64 _).cons
    ((reads_u64Past _).cons (Reads.nil (e,false))))))

end Codecs

def Footer.toBytes (f : Footer) : Bytes :=
  leBytes 8 f.indexOffset.toNat ++ leBytes 8 f.indexLen.toNat ++ leBytes 8 f.bucketCount.toNat ++
    leBytes 8 f.indexXxh64.toNat ++ List.replicate 16 0 ++ magicEnd

def Footer.fromBytes (bytes : Bytes) : Except GgjetFailure Footer :=
  if (bytes.drop 48).take 8 ≠ magicEnd then .error (.error .badMagic)
  else .ok ⟨leField bytes 0,leField bytes 1,leField bytes 2,leField bytes 3⟩

theorem Footer.toBytes_length (f : Footer) : f.toBytes.length = footerLen := by
  simp [Footer.toBytes,footerLen,magicEnd]

theorem Footer.fromBytes_toBytes (f : Footer) : Footer.fromBytes f.toBytes = .ok f := by
  have hvalue (v : UInt64) : UInt64.ofNat (leValue (leBytes 8 v.toNat)) = v := by
    rw [leValue_leBytes (by simpa using v.toNat_lt),UInt64.ofNat_toNat]
  have hdrop (v : UInt64) (n : Nat) : (leBytes 8 v.toNat).drop (n + 8) = [] :=
    List.drop_eq_nil_of_le (by simp)
  simp [Footer.fromBytes,Footer.toBytes,leField,List.drop_append,magicEnd,hdrop,hvalue]

section Blobs

variable (env : GgjetEnv)

def toBytes (p : Put GgjetFailure Unit) : Except GgjetFailure Bytes := do
  let written ← p ()
  return written.1

def writeFramed (p : Put GgjetFailure Unit) : Except GgjetFailure Bytes := do
  let bytes ← toBytes p
  let len ← toBytes (encodeLen bytes.length)
  return len ++ bytes

def compress (raw : Bytes) (compression : Compression) (level : Int) :
    Except GgjetFailure Bytes :=
  match compression with
  | .none => .ok raw
  | .zstd =>
    match env.zstd.compress level raw with
    | some stored => .ok stored
    | none => .error (.error .io)

def writeBlob (firstOrdinal : UInt64) (itemCount : UInt32) (raw : Bytes)
    (compression : Compression) (level : Int) : Except GgjetFailure Bytes := do
  let stored ← compress env raw compression level
  let header ← writeFramed (encodeBlobHeader
    ⟨firstOrdinal,itemCount,compression,lenU64 raw,lenU64 stored,env.xxh64 stored⟩)
  return header ++ stored

/-- The bytes behind a section. A frame that unpacks to more than was announced is an error of
the library. -/
def decompress (header : BlobHeader) (stored : Bytes) : Except GgjetFailure Bytes :=
  if lenU64 stored ≠ header.storedLen ∨ env.xxh64 stored ≠ header.xxh64 then
    .error (.error (.checksum header.firstOrdinal))
  else do
    let raw ← match header.compression with
      | .none => .ok stored
      | .zstd =>
        if tooLarge header.uncompressedLen.toNat then .error .panics
        else
          match env.zstd.decompress stored with
          | some out =>
              if header.uncompressedLen.toNat < out.length then .error (.error .io) else .ok out
          | none => .error (.error .io)
    if lenU64 raw ≠ header.uncompressedLen then
      .error (.error (.checksum header.firstOrdinal))
    else return raw

theorem decompress_compress (hz : env.zstd.Inverts) {raw stored : Bytes} {compression : Compression}
    {level : Int} (h : compress env raw compression level = .ok stored)
    (hsmall : raw.length < 2 ^ 63)
    (firstOrdinal : UInt64) (itemCount : UInt32) :
    decompress env ⟨firstOrdinal,itemCount,compression,lenU64 raw,lenU64 stored,
      env.xxh64 stored⟩ stored = .ok raw := by
  have hlen : (lenU64 raw).toNat = raw.length :=
    UInt64.toNat_ofNat_of_lt' (lt_trans hsmall (by decide))
  cases compression with
  | none =>
    cases h
    simp [decompress,pure,Except.pure]
  | zstd =>
    unfold compress at h
    dsimp only at h
    split at h
    · rename_i out hout
      cases h
      have hlarge : ¬tooLarge raw.length := not_le.mpr hsmall
      have hin := hz level raw stored hout
      simp [decompress,hlarge,hin,hlen,pure,Except.pure]
    · cases h

end Blobs

end Jetstreamer.Ggjet
