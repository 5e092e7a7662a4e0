import Jetstreamer.Horizon.Notifications
set_option autoImplicit false

namespace Jetstreamer.Archive
open Lib Lencode Horizon

inductive ArchiveFormatError where
  | badMagic
  | unsupportedVersion (version : UInt16)
  | primeTableMismatch (file compiled : UInt64)
  | badSlotKind (kind : UInt8)
  | bucketChecksum (firstSlot : UInt64)
  | indexChecksum
  | nonMonotonicSlot (got last : UInt64)
  | slotOutOfRange (slot start stop : UInt64)
  | pohMismatch (slot : UInt64)
  | encode (e : Lencode.Error)
  | io
  deriving DecidableEq, Repr

/-- How a call can end other than well: with an error value, or by stopping the program. -/
inductive Failure where
  | error (e : ArchiveFormatError)
  | panics
  | undefined
  deriving DecidableEq, Repr

instance : Raises Failure := ⟨fun e => .error (.encode e),.panics,.undefined⟩

def magic : Bytes := [74,83,72,90,78,50,0,0]

def magicEnd : Bytes := [0,0,78,90,72,83,74,50]

def formatVersion : UInt16 := 2

def footerLen : Nat := 48

def writerVersion : Bytes := [48,46,55,46,48]

def primeTableId (env : Env) : UInt64 := env.xxh64 (env.primed.values.flatMap (·.1))

inductive Compression where
  | none
  | zstd
  deriving DecidableEq, Repr

structure ArchiveMeta where
  createdUnixMs : UInt64
  writerVersion : Bytes
  reserved : Bytes
  deriving DecidableEq

structure FileHeader where
  formatVersion : UInt16
  bucketSlots : UInt16
  epoch : UInt64
  slotStart : UInt64
  slotCount : UInt64
  primeTableId : UInt64
  flags : UInt64
  archiveMeta : ArchiveMeta
  deriving DecidableEq

structure BucketHeader where
  firstSlot : UInt64
  slotCount : UInt32
  compression : Compression
  uncompressedLen : UInt64
  storedLen : UInt64
  xxh64 : UInt64
  pohStartHash : Hash
  deriving DecidableEq

structure BucketIndexEntry where
  firstSlot : UInt64
  offset : UInt64
  len : UInt64
  deriving DecidableEq

structure Footer where
  indexOffset : UInt64
  indexLen : UInt64
  bucketCount : UInt64
  indexXxh64 : UInt64
  deriving DecidableEq

section Encoders

variable {ε σ : Type} [Raises ε]

/-- The two byte vectors of a header stay below the 64 bytes from which such a vector is
compressed. -/
def encodeArchiveMeta (m : ArchiveMeta) : Put ε σ :=
  Put.all [encodeU64 m.createdUnixMs,writeFlaggedRaw m.writerVersion,writeFlaggedRaw m.reserved]

def encodeFileHeader (h : FileHeader) : Put ε σ :=
  Put.all [encodeU16 h.formatVersion,encodeU16 h.bucketSlots,encodeU64 h.epoch,
    encodeU64 h.slotStart,encodeU64 h.slotCount,encodeU64 h.primeTableId,encodeU64 h.flags,
    encodeArchiveMeta h.archiveMeta]

def Compression.discriminant : Compression → Nat
  | .none => 0
  | .zstd => 1

def encodeCompression (c : Compression) : Put ε σ := encodeLen c.discriminant

def encodeBucketHeader (h : BucketHeader) : Put ε σ :=
  Put.all [encodeU64 h.firstSlot,encodeU32 h.slotCount,encodeCompression h.compression,
    encodeU64 h.uncompressedLen,encodeU64 h.storedLen,encodeU64 h.xxh64,
    encodeFixed h.pohStartHash]

def encodeBucketIndexEntry (e : BucketIndexEntry) : Put ε σ :=
  Put.all [encodeU64 e.firstSlot,encodeU64 e.offset,encodeU64 e.len]

def Footer.toBytes (f : Footer) : Bytes :=
  leBytes 8 f.indexOffset.toNat ++ leBytes 8 f.indexLen.toNat ++ leBytes 8 f.bucketCount.toNat ++
    leBytes 8 f.indexXxh64.toNat ++ List.replicate 8 0 ++ magicEnd

end Encoders

section Decoders

variable {ε τ : Type} [Raises ε]

def decodeVecU8 (z : Zstd) : Get ε τ Bytes := do
  let flagged ← decodeLen
  let payload ← Get.take (Raises.encode .readerOutOfData) (flagged / 2)
  if flagged % 2 = 1 then
    match z.decompress payload.1 with
    | some out => return out
    | none => fail .invalidData
  else return payload.1

def decodeArchiveMeta (z : Zstd) : Get ε τ ArchiveMeta := do
  return ⟨← decodeU64,← decodeVecU8 z,← decodeVecU8 z⟩

def decodeFileHeader (z : Zstd) : Get ε τ FileHeader := do
  return ⟨← decodeU16,← decodeU16,← decodeU64,← decodeU64,← decodeU64,← decodeU64,← decodeU64,
    ← decodeArchiveMeta z⟩

def decodeCompression : Get ε τ Compression := do
  let disc ← decodeLen
  match disc with
  | 0 => return .none
  | 1 => return .zstd
  | _ => fail .invalidData

def decodeBucketHeader : Get ε τ BucketHeader := do
  return ⟨← decodeU64,← decodeU32,← decodeCompression,← decodeU64,← decodeU64,← decodeU64,
    ← decodeFixed 32⟩

def decodeBucketIndexEntry : Get ε τ BucketIndexEntry := do
  return ⟨← decodeU64,← decodeU64,← decodeU64⟩

def leField (bytes : Bytes) (i : Nat) : UInt64 :=
  UInt64.ofNat (leValue ((bytes.drop (8 * i)).take 8))

def Footer.fromBytes (bytes : Bytes) : Except Failure Footer :=
  if (bytes.drop 40).take 8 ≠ magicEnd then .error (.error .badMagic)
  else .ok ⟨leField bytes 0,leField bytes 1,leField bytes 2,leField bytes 3⟩

end Decoders

section RoundTrip

variable {ε σ τ : Type} [Raises ε] {P : σ → τ → Prop}

theorem reads_vecU8 (z : Zstd) (bytes : Bytes) :
    Reads P (writeFlaggedRaw bytes : Put ε σ) (decodeVecU8 z) bytes P := by
  refine (reads_len _).cons ?_
  have heven : ¬2 * bytes.length % 2 = 1 := by omega
  have hhalf : 2 * bytes.length / 2 = bytes.length := by omega
  rw [hhalf]
  refine (Reads.of_raw fun t rest => Get.take_append _ t bytes rest).cons ?_
  rw [if_neg heven]
  exact Reads.nil bytes

theorem reads_archiveMeta (z : Zstd) (m : ArchiveMeta) :
    Reads P (encodeArchiveMeta m : Put ε σ) (decodeArchiveMeta z) m P :=
  (reads_u64 _).cons ((reads_vecU8 z _).cons ((reads_vecU8 z _).cons (Reads.nil m)))

theorem reads_fileHeader (z : Zstd) (h : FileHeader) :
    Reads P (encodeFileHeader h : Put ε σ) (decodeFileHeader z) h P :=
  (reads_u16 _).cons ((reads_u16 _).cons ((reads_u64 _).cons ((reads_u64 _).cons
    ((reads_u64 _).cons ((reads_u64 _).cons ((reads_u64 _).cons ((reads_archiveMeta z _).cons
      (Reads.nil h))))))))

theorem reads_compression (c : Compression) :
    Reads P (encodeCompression c : Put ε σ) decodeCompression c P := by
  refine ((reads_len c.discriminant).cons ?_).single
  cases c <;> exact Reads.nil _

theorem reads_bucketHeader (h : BucketHeader) :
    Reads P (encodeBucketHeader h : Put ε σ) decodeBucketHeader h P :=
  (reads_u64 _).cons ((reads_u32 _).cons ((reads_compression _).cons ((reads_u64 _).cons
    ((reads_u64 _).cons ((reads_u64 _).cons ((reads_fixed _).cons (Reads.nil h)))))))

theorem reads_bucketIndexEntry (e : BucketIndexEntry) :
    Reads P (encodeBucketIndexEntry e : Put ε σ) decodeBucketIndexEntry e P :=
  (reads_u64 _).cons ((reads_u64 _).cons ((reads_u64 _).cons (Reads.nil e)))

end RoundTrip

theorem Footer.toBytes_length (f : Footer) : f.toBytes.length = footerLen := by
  simp [Footer.toBytes,footerLen,magicEnd]

theorem Footer.fromBytes_toBytes (f : Footer) : Footer.fromBytes f.toBytes = .ok f := by
  have hvalue (v : UInt64) : UInt64.ofNat (leValue (leBytes 8 v.toNat)) = v := by
    rw [leValue_leBytes (by simpa using v.toNat_lt),UInt64.ofNat_toNat]
  have hdrop (v : UInt64) (n : Nat) : (leBytes 8 v.toNat).drop (n + 8) = [] :=
    List.drop_eq_nil_of_le (by simp)
  simp [Footer.fromBytes,Footer.toBytes,leField,List.drop_append,magicEnd,hdrop,hvalue]

end Jetstreamer.Archive
