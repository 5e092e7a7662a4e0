import Jetstreamer.Lencode.Varint
set_option autoImplicit false

namespace Jetstreamer.Lencode
open Lib

section Encoders

variable {ε σ α : Type} [Raises ε]

def encodeU8 (v : UInt8) : Put ε σ := Put.raw [v]

def encodeU16 (v : UInt16) : Put ε σ := Put.raw (encodeVarint 2 v.toNat)

def encodeU32 (v : UInt32) : Put ε σ := Put.raw (encodeVarint 4 v.toNat)

def encodeU64 (v : UInt64) : Put ε σ := Put.raw (encodeVarint 8 v.toNat)

/-- Lengths, counters and identifiers of type `usize`. Nothing in memory is longer than a
`usize` can count: growing past it stops the program. -/
def encodeLen (n : Nat) : Put ε σ := fun s =>
  if n < 2 ^ 64 then .ok (encodeVarint 8 n,s) else .error Raises.panics

def zigzagEncode (v : Int64) : UInt64 := ((v <<< 1) ^^^ (v >>> 63)).toUInt64

def encodeI64 (v : Int64) : Put ε σ := encodeU64 (zigzagEncode v)

def encodeBool (v : Bool) : Put ε σ := Put.raw [if v then 1 else 0]

def encodeOption (encode : α → Put ε σ) : Option α → Put ε σ
  | some value => Put.all [encodeBool true,encode value]
  | none => encodeBool false

/-- Fixed arrays of bytes: addresses, hashes and signatures. -/
abbrev FixedBytes (n : Nat) := {bytes : Bytes // bytes.length = n}

theorem length_replicate32 (b : UInt8) : (List.replicate 32 b).length = 32 :=
  List.length_replicate

theorem length_zeros32 : (List.replicate 32 (0 : UInt8)).length = 32 := length_replicate32 0

def encodeFixed {n : Nat} (v : FixedBytes n) : Put ε σ := Put.raw v.1

/-- A byte vector written uncompressed, the low bit of its header left clear. -/
def writeFlaggedRaw (bytes : Bytes) : Put ε σ :=
  Put.all [encodeLen (2 * bytes.length),Put.raw bytes]

end Encoders

section Decoders

variable {ε τ α : Type} [Raises ε]

def decodeU8 : Get ε τ UInt8 := fun input =>
  match input.bytes with
  | [] => .error (Raises.encode .readerOutOfData) input
  | byte :: rest => .ok byte ⟨input.ctx,rest⟩

def decodeU16 : Get ε τ UInt16 := UInt16.ofNat <$> decodeVarint 2

def decodeU32 : Get ε τ UInt32 := UInt32.ofNat <$> decodeVarint 4

def decodeU64 : Get ε τ UInt64 := UInt64.ofNat <$> decodeVarint 8

def decodeLen : Get ε τ Nat := decodeVarint 8

/-- The same reader with whether it has moved the cursor past the end. That goes unnoticed where
nothing looks at the cursor again. -/
def decodeU64Past : Get ε τ (UInt64 × Bool) := fun input =>
  match input.bytes with
  | [] => .error (Raises.encode .readerOutOfData) input
  | first :: tail =>
    if first.toNat < 128 then .ok (UInt64.ofNat first.toNat,false) ⟨input.ctx,tail⟩
    else
      let n := first.toNat - 128
      if n ≤ tail.length then
        .ok (UInt64.ofNat (leValue (tail.take (min n 8))),false) ⟨input.ctx,tail.drop n⟩
      else if tail.length < 8 then .error (Raises.encode .readerOutOfData) input
      else .ok (UInt64.ofNat (leValue (tail.take 8)),true) ⟨input.ctx,[]⟩

def zigzagDecode (u : UInt64) : Int64 := (u >>> 1).toInt64 ^^^ -(u &&& 1).toInt64

def decodeI64 : Get ε τ Int64 := zigzagDecode <$> decodeU64

def decodeBool : Get ε τ Bool := do
  let byte ← decodeU8
  if 1 < byte then fail .invalidData else return byte != 0

def decodeOption (decode : Get ε τ α) : Get ε τ (Option α) := do
  if ← decodeBool then return some (← decode) else return none

def decodeFixed (n : Nat) : Get ε τ (FixedBytes n) := Get.take (Raises.encode .readerOutOfData) n

end Decoders

theorem neg_and_one (x : BitVec 64) :
    -(x &&& 1#64) = if x.toNat % 2 = 1 then BitVec.allOnes 64 else 0#64 := by
  rw [BitVec.and_one_eq_setWidth_ofBool_getLsbD,BitVec.getLsbD,Nat.testBit_zero]
  rcases Nat.mod_two_eq_zero_or_one x.toNat with h | h <;> simp [h]

theorem sshiftRight_sign (b : BitVec 64) :
    b.sshiftRight 63 = if b.msb then BitVec.allOnes 64 else 0#64 := by
  ext i hi
  rw [BitVec.getElem_sshiftRight]
  by_cases h0 : i = 0
  · subst h0
    cases hm : b.msb <;> simpa [BitVec.msb_eq_getLsbD_last] using hm
  · simp only [show ¬63 + i < 64 by omega,dite_false]
    cases b.msb <;> simp only [Bool.false_eq_true,if_false,if_true,BitVec.getElem_zero,
      BitVec.getElem_allOnes]

theorem zigzag_bits (b : BitVec 64) :
    (((b <<< 1) ^^^ (b.sshiftRight 63)) >>> 1) ^^^
      (-(((b <<< 1) ^^^ (b.sshiftRight 63)) &&& 1#64)) = b := by
  rw [sshiftRight_sign,neg_and_one]
  cases hm : b.msb with
  | false =>
    have hlt : b.toNat < 2 ^ 63 := by simpa [BitVec.msb_eq_decide] using hm
    have hshl : (b <<< 1).toNat = 2 * b.toNat := by simp [Nat.shiftLeft_eq]; omega
    simp only [Bool.false_eq_true,if_false,BitVec.xor_zero,hshl]
    rw [if_neg (by omega),BitVec.xor_zero]
    bv_omega
  | true =>
    have hge : 2 ^ 63 ≤ b.toNat := by simpa [BitVec.msb_eq_decide] using hm
    simp only [if_true,BitVec.xor_allOnes]
    rw [if_pos (by bv_omega),BitVec.xor_allOnes]
    bv_omega

theorem zigzagDecode_zigzagEncode (v : Int64) : zigzagDecode (zigzagEncode v) = v := by
  apply Int64.toBitVec_inj.mp
  simpa [zigzagDecode,zigzagEncode] using zigzag_bits v.toBitVec

example : zigzagEncode (-3) = 5 := by decide

section RoundTrip

variable {ε σ τ α : Type} [Raises ε] {P : σ → τ → Prop}

theorem reads_varint {w v : Nat} (hw : 0 < w) (hmax : w ≤ 127) (h : v < 256 ^ w) :
    Reads P (Put.raw (encodeVarint w v) : Put ε σ) (decodeVarint w : Get ε τ Nat) v P :=
  Reads.of_raw (decodeVarint_encodeVarint hw hmax h)

theorem reads_u8 (v : UInt8) : Reads P (encodeU8 v : Put ε σ) (decodeU8 : Get ε τ UInt8) v P :=
  Reads.of_raw fun _ _ => rfl

theorem reads_u16 (v : UInt16) :
    Reads P (encodeU16 v : Put ε σ) (decodeU16 : Get ε τ UInt16) v P := by
  have h := (reads_varint (ε := ε) (P := P) (w := 2) (by decide) (by decide)
    v.toNat_lt).map (f := UInt16.ofNat)
  rwa [UInt16.ofNat_toNat] at h

theorem reads_u32 (v : UInt32) :
    Reads P (encodeU32 v : Put ε σ) (decodeU32 : Get ε τ UInt32) v P := by
  have h := (reads_varint (ε := ε) (P := P) (w := 4) (by decide) (by decide)
    v.toNat_lt).map (f := UInt32.ofNat)
  rwa [UInt32.ofNat_toNat] at h

theorem reads_u64 (v : UInt64) :
    Reads P (encodeU64 v : Put ε σ) (decodeU64 : Get ε τ UInt64) v P := by
  have h := (reads_varint (ε := ε) (P := P) (w := 8) (by decide) (by decide)
    v.toNat_lt).map (f := UInt64.ofNat)
  rwa [UInt64.ofNat_toNat] at h

theorem decodeU64Past_of_decodeU64 {v : UInt64} {input next : Input τ}
    (h : (decodeU64 : Get ε τ UInt64) input = .ok v next) :
    (decodeU64Past : Get ε τ (UInt64 × Bool)) input = .ok (v,false) next := by
  obtain ⟨t,bytes⟩ := input
  change EStateM.map UInt64.ofNat (decodeVarint 8) ⟨t,bytes⟩ = .ok v next at h
  cases bytes with
  | nil => cases h
  | cons first tail =>
    simp only [EStateM.map,decodeVarint] at h
    unfold decodeU64Past
    dsimp only
    by_cases hsmall : first.toNat < 128
    · rw [if_pos hsmall] at h ⊢
      obtain ⟨rfl,rfl⟩ := EStateM.Result.ok.inj h
      rfl
    · rw [if_neg hsmall] at h ⊢
      by_cases hfits : first.toNat - 128 ≤ tail.length
      · rw [if_pos hfits] at h ⊢
        obtain ⟨rfl,rfl⟩ := EStateM.Result.ok.inj h
        rfl
      · rw [if_neg hfits] at h
        by_cases hshort : tail.length < 8
        · rw [if_pos hshort] at h
          cases h
        · rw [if_neg hshort] at h
          cases h

theorem reads_u64Past (v : UInt64) :
    Reads P (encodeU64 v : Put ε σ) (decodeU64Past : Get ε τ (UInt64 × Bool)) (v,false) P := by
  intro s t bytes s' rest hP hp
  obtain ⟨t',hread,hP'⟩ := reads_u64 (ε := ε) (P := P) v s t bytes s' rest hP hp
  exact ⟨t',decodeU64Past_of_decodeU64 hread,hP'⟩

theorem encodeLen_ok {n : Nat} {s s' : σ} {bytes : Bytes}
    (h : (encodeLen n : Put ε σ) s = .ok (bytes,s')) :
    n < 2 ^ 64 ∧ bytes = encodeVarint 8 n ∧ s' = s := by
  unfold encodeLen at h
  split at h
  · rename_i hn
    cases h
    exact ⟨hn,rfl,rfl⟩
  · cases h

theorem reads_len (n : Nat) : Reads P (encodeLen n : Put ε σ) (decodeLen : Get ε τ Nat) n P := by
  intro s t bytes s' rest hP hp
  obtain ⟨hn,rfl,rfl⟩ := encodeLen_ok hp
  exact ⟨t,decodeVarint_encodeVarint (by decide) (by decide) (by simpa using hn) t rest,hP⟩

theorem reads_i64 (v : Int64) :
    Reads P (encodeI64 v : Put ε σ) (decodeI64 : Get ε τ Int64) v P := by
  have h := (reads_u64 (ε := ε) (P := P) (zigzagEncode v)).map (f := zigzagDecode)
  rwa [zigzagDecode_zigzagEncode] at h

theorem reads_bool (v : Bool) :
    Reads P (encodeBool v : Put ε σ) (decodeBool : Get ε τ Bool) v P := by
  cases v <;> exact Reads.of_raw fun _ _ => rfl

theorem reads_option {encode : α → Put ε σ} {decode : Get ε τ α} {v : Option α}
    (h : ∀ value, v = some value → Reads P (encode value) decode value P) :
    Reads P (encodeOption encode v) (decodeOption decode) v P := by
  cases v with
  | none => exact ((reads_bool false).cons (Reads.nil none)).single
  | some value => exact (reads_bool true).cons ((h value rfl).cons (Reads.nil (some value)))

theorem decodeFixed_append {n : Nat} (v : FixedBytes n) (t : τ) (rest : Bytes) :
    (decodeFixed n : Get ε τ (FixedBytes n)) ⟨t,v.1 ++ rest⟩ = .ok v ⟨t,rest⟩ := by
  obtain ⟨bytes,rfl⟩ := v
  exact Get.take_append _ t bytes rest

theorem reads_fixed {n : Nat} (v : FixedBytes n) :
    Reads P (encodeFixed v : Put ε σ) (decodeFixed n : Get ε τ (FixedBytes n)) v P :=
  Reads.of_raw (decodeFixed_append v)

end RoundTrip

end Jetstreamer.Lencode
