import Jetstreamer.Lib.Codec
set_option autoImplicit false

namespace Jetstreamer.Lencode
open Lib

inductive Error where
  | invalidData
  | incorrectLength
  | readerOutOfData
  deriving DecidableEq, Repr

/-- How a decoder can fail: with an error of the codec, with a failed assertion, or by a step
whose effect the language leaves undefined. -/
class Raises (ε : Type) where
  encode : Error → ε
  panics : ε
  undefined : ε

/-- Number of significant bytes of a number, as the leading zeros give it. -/
def byteLen (v : Nat) : Nat := Nat.log2 v / 8 + 1

/-- Integers of `w` bytes: one byte up to 127, else a length byte and the significant bytes. -/
def encodeVarint (w v : Nat) : Bytes :=
  if v ≤ 127 then [UInt8.ofNat v]
  else UInt8.ofNat (128 + byteLen v) :: (leBytes w v).take (byteLen v)

section Decoders

variable {ε τ : Type} [Raises ε]

def fail {α : Type} (e : Error) : Get ε τ α := throw (Raises.encode e)

def panic {α : Type} : Get ε τ α := throw Raises.panics

/-- Memory for more bytes than a signed offset can count is refused by stopping the program. -/
def tooLarge (n : Nat) : Prop := 2 ^ 63 ≤ n

instance (n : Nat) : Decidable (tooLarge n) := inferInstanceAs (Decidable (2 ^ 63 ≤ n))

def reserve (n : Nat) : Get ε τ Unit := if tooLarge n then panic else pure ()

theorem reserve_of_fits {n : Nat} (h : ¬tooLarge n) : (reserve n : Get ε τ Unit) = pure () :=
  if_neg h

/-- The readers of fixed integer types: a buffer of more than `w` bytes is read without
looking at the length again, so a larger length byte moves the cursor past the end. -/
def decodeVarint (w : Nat) : Get ε τ Nat := fun input =>
  match input.bytes with
  | [] => .error (Raises.encode .readerOutOfData) input
  | first :: tail =>
    if first.toNat < 128 then .ok first.toNat ⟨input.ctx,tail⟩
    else
      let n := first.toNat - 128
      if n ≤ tail.length then .ok (leValue (tail.take (min n w))) ⟨input.ctx,tail.drop n⟩
      else if tail.length < w then .error (Raises.encode .readerOutOfData) input
      else .error Raises.undefined input

/-- The generic reader, which copies the announced bytes over the integer. -/
def decodeVarintUsize : Get ε τ Nat := fun input =>
  match input.bytes with
  | [] => .error (Raises.encode .readerOutOfData) input
  | first :: tail =>
    if first.toNat < 128 then .ok first.toNat ⟨input.ctx,tail⟩
    else
      let n := first.toNat - 128
      if tail.length < n then .error (Raises.encode .readerOutOfData) input
      else if n ≤ 8 then .ok (leValue (tail.take n)) ⟨input.ctx,tail.drop n⟩
      else .error Raises.undefined input

end Decoders

theorem byteLen_le {v w : Nat} (hw : 0 < w) (h : v < 256 ^ w) : byteLen v ≤ w := by
  unfold byteLen
  by_cases hv : v = 0
  · subst hv
    simp only [Nat.log2_zero]
    omega
  · have hpow : v < 2 ^ (8 * w) := by
      rw [pow_mul]
      exact h
    have := (Nat.log2_lt hv).mpr hpow
    omega

theorem lt_pow_byteLen (v : Nat) : v < 256 ^ byteLen v := by
  unfold byteLen
  have h : v < 2 ^ (8 * (Nat.log2 v / 8 + 1)) := by
    refine lt_of_lt_of_le Nat.lt_log2_self (Nat.pow_le_pow_right (by decide) ?_)
    omega
  rw [pow_mul] at h
  exact h

theorem encodeVarint_cases {w v : Nat} (hw : 0 < w) (h : v < 256 ^ w) :
    (v ≤ 127 ∧ encodeVarint w v = [UInt8.ofNat v]) ∨
      ∃ n, n ≤ w ∧ v < 256 ^ n ∧ encodeVarint w v = UInt8.ofNat (128 + n) :: leBytes n v := by
  have hle := byteLen_le hw h
  by_cases hsmall : v ≤ 127
  · exact .inl ⟨hsmall,by simp [encodeVarint,hsmall]⟩
  · refine .inr ⟨byteLen v,hle,lt_pow_byteLen v,?_⟩
    simp [encodeVarint,hsmall,leBytes_take hle]

section RoundTrip

variable {ε τ : Type} [Raises ε]

theorem decodeVarint_encodeVarint {w v : Nat} (hw : 0 < w) (hmax : w ≤ 127) (h : v < 256 ^ w)
    (ctx : τ) (rest : Bytes) :
    (decodeVarint w : Get ε τ Nat) ⟨ctx,encodeVarint w v ++ rest⟩ = .ok v ⟨ctx,rest⟩ := by
  rcases encodeVarint_cases hw h with ⟨hsmall,heq⟩ | ⟨n,hn,hv,heq⟩
  · have hfirst : v % 256 = v := by omega
    simp [heq,decodeVarint,hfirst,show v < 128 by omega]
  · have hfirst : (128 + n) % 256 = 128 + n := by omega
    simp [heq,decodeVarint,hfirst,Nat.min_eq_left hn,leValue_leBytes hv]

theorem decodeVarintUsize_encodeVarint {v : Nat} (h : v < 2 ^ 64) (ctx : τ) (rest : Bytes) :
    (decodeVarintUsize : Get ε τ Nat) ⟨ctx,encodeVarint 8 v ++ rest⟩ = .ok v ⟨ctx,rest⟩ := by
  rcases encodeVarint_cases (w := 8) (by decide) (by simpa using h) with
    ⟨hsmall,heq⟩ | ⟨n,hn,hv,heq⟩
  · have hfirst : v % 256 = v := by omega
    simp [heq,decodeVarintUsize,hfirst,show v < 128 by omega]
  · have hfirst : (128 + n) % 256 = 128 + n := by omega
    simp [heq,decodeVarintUsize,hfirst,hn,leValue_leBytes hv]

end RoundTrip

end Jetstreamer.Lencode
