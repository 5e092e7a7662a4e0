import Jetstreamer.Lencode.Primitives
set_option autoImplicit false

namespace Jetstreamer.Horizon
open Lib Lencode

@[ext]
structure ZeroVec (N : Nat) (α : Type) where
  items : List α
  fits : items.length ≤ N
  deriving DecidableEq

theorem length_val_le {n N : Nat} {α : Type} (items : {items : List α // items.length = n})
    (h : n ≤ N) : items.1.length ≤ N := by
  rw [items.2]
  exact h

def ZeroVec.empty {N : Nat} {α : Type} : ZeroVec N α := ⟨[],Nat.zero_le N⟩

def ZeroVec.clear {N : Nat} {α : Type} (_ : ZeroVec N α) : ZeroVec N α := .empty

section Codecs

variable {ε σ τ α : Type} {N : Nat} [Raises ε]

def encodeZeroVec (encode : α → Put ε σ) (v : ZeroVec N α) : Put ε σ :=
  Put.all [encodeLen v.items.length,Put.each encode v.items]

/-- Bytes are written raw, under the header of uncompressed data. -/
def encodeZeroVecU8 (v : ZeroVec N UInt8) : Put ε σ := writeFlaggedRaw v.items

def decodeZeroVec (N : Nat) (decode : Get ε τ α) : Get ε τ (ZeroVec N α) := do
  let len ← decodeLen
  if h : len ≤ N then
    let items ← Get.times len decode
    return ⟨items.1,length_val_le items h⟩
  else panic

/-- One read into a buffer whose length is set afterwards. The cursor refuses a read only when
nothing is left: a shorter one leaves the rest of the buffer unset. -/
def readBuf (n : Nat) : Get ε τ {bytes : Bytes // bytes.length = n} := fun input =>
  if h : n = 0 then .ok ⟨[],h.symm⟩ input
  else if input.bytes = [] then .error (Raises.encode .readerOutOfData) input
  else Get.take Raises.undefined n input

def readPayload (N payloadLen : Nat) : Get ε τ (ZeroVec N UInt8) := do
  if h : payloadLen ≤ N then
    let bytes ← readBuf payloadLen
    return ⟨bytes.1,by rw [bytes.2]; exact h⟩
  else panic

def decodeZeroVecU8 (N : Nat) : Get ε τ (ZeroVec N UInt8) := do
  let flagged ← decodeLen
  if flagged % 2 = 1 then panic else readPayload N (flagged / 2)

/-- The tag of an optional vector that is decoded in place. -/
def decodeOptionInto (decode : Get ε τ α) : Get ε τ (Option α) := do
  let tag ← decodeU8
  if tag = 0 then return none
  else if tag = 1 then return some (← decode)
  else fail .invalidData

end Codecs

section RoundTrip

variable {ε σ τ α : Type} {N : Nat} [Raises ε] {P : σ → τ → Prop}

theorem reads_zeroVec {encode : α → Put ε σ} {decode : Get ε τ α} (v : ZeroVec N α)
    (h : ∀ item ∈ v.items, Reads P (encode item) decode item P) :
    Reads P (encodeZeroVec encode v) (decodeZeroVec N decode) v P := by
  refine (reads_len _).cons ?_
  simp only [v.fits,dite_true]
  exact (Reads.each h).cons (Reads.nil _)

theorem reads_buf (bytes : Bytes) :
    Reads P (Put.raw bytes : Put ε σ) (readBuf bytes.length) ⟨bytes,rfl⟩ P := by
  refine Reads.of_raw fun t rest => ?_
  cases bytes with
  | nil => rfl
  | cons b bs =>
    simp only [readBuf,List.length_cons,Nat.add_eq_zero_iff,one_ne_zero,and_false,dite_false,
      List.cons_append,reduceCtorEq,if_false]
    exact Get.take_append _ t (b :: bs) rest

theorem reads_zeroVecU8 (v : ZeroVec N UInt8) :
    Reads P (encodeZeroVecU8 v : Put ε σ) (decodeZeroVecU8 N) v P := by
  refine (reads_len _).cons ?_
  have heven : ¬2 * v.items.length % 2 = 1 := by omega
  have hhalf : 2 * v.items.length / 2 = v.items.length := by omega
  rw [if_neg heven,hhalf]
  simp only [readPayload,v.fits,dite_true]
  exact (reads_buf v.items).cons (Reads.nil _)

theorem reads_optionInto {encode : α → Put ε σ} {decode : Get ε τ α} {v : Option α}
    (h : ∀ value, v = some value → Reads P (encode value) decode value P) :
    Reads P (encodeOption encode v) (decodeOptionInto decode) v P := by
  cases v with
  | none => exact ((reads_u8 0).cons (Reads.nil none)).single
  | some value => exact (reads_u8 1).cons ((h value rfl).cons (Reads.nil (some value)))

end RoundTrip

end Jetstreamer.Horizon
