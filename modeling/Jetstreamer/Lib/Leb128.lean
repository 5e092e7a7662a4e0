import Jetstreamer.Lib.Codec
set_option autoImplicit false

namespace Jetstreamer.Lib

/-- The standard LEB128 form of a number: seven bits a byte, the lowest first,
every byte but the last with its high bit set. -/
def lebEncode (n : Nat) : Bytes :=
  if n < 128 then [UInt8.ofNat n] else UInt8.ofNat (n % 128 + 128) :: lebEncode (n / 128)
termination_by n
decreasing_by omega

/-- The number of any size that an encoding at the head of the bytes stands for,
and how many bytes it takes. -/
def lebDecode : Bytes → Option (Nat × Nat)
  | [] => none
  | b :: rest =>
    if b < 128 then some (b.toNat,1)
    else (lebDecode rest).map fun (v,n) => (b.toNat - 128 + 128 * v,n + 1)

theorem lebDecode_encode (n : Nat) (rest : Bytes) :
    lebDecode (lebEncode n ++ rest) = some (n,(lebEncode n).length) := by
  induction n using Nat.strongRecOn with
  | ind n ih =>
    rw [lebEncode]
    split
    case isTrue hsmall =>
      have hbyte : UInt8.ofNat n < 128 := by
        simpa [UInt8.lt_iff_toNat_lt,Nat.mod_eq_of_lt (show n < 256 by omega)] using hsmall
      simp [lebDecode,hbyte,Nat.mod_eq_of_lt (show n < 256 by omega)]
    case isFalse hbig =>
      have hbyte : ¬ UInt8.ofNat (n % 128 + 128) < 128 := by
        simp [UInt8.lt_iff_toNat_lt,Nat.mod_eq_of_lt (show n % 128 + 128 < 256 by omega)]
      simp only [List.cons_append,lebDecode,hbyte,if_false,ih (n / 128) (by omega),Option.map_some,
        UInt8.toNat_ofNat',List.length_cons,Option.some.injEq,Prod.mk.injEq,and_true]
      omega

theorem lebEncode_length_le {k n : Nat} (h : n < 128 ^ (k + 1)) : (lebEncode n).length ≤ k + 1 := by
  induction k generalizing n with
  | zero =>
    rw [lebEncode,if_pos (by simpa using h)]
    simp
  | succ k ih =>
    rw [lebEncode]
    split
    · simp
    · have hdiv : n / 128 < 128 ^ (k + 1) := by
        rw [Nat.div_lt_iff_lt_mul (by decide),← pow_succ]
        exact h
      simpa using ih hdiv

theorem lebDigit_div (b : UInt8) (v : Nat) : (b.toNat - 128 + 128 * v) / 128 = v := by
  have hbound := b.toNat_lt
  omega

section Split

variable {low bytes : Bytes} {last : UInt8} {v n : Nat}

/-- What is decoded stands in continuation bytes and one last byte, and the last
byte holds the digits above theirs. -/
theorem lebDecode_split (h : lebDecode bytes = some (v,n)) :
    ∃ low last rest, bytes = low ++ last :: rest ∧ n = low.length + 1 ∧
      (∀ b ∈ low, ¬ b < 128) ∧ last < 128 ∧ v / 128 ^ low.length = last.toNat := by
  induction bytes generalizing v n with
  | nil => cases h
  | cons b rest ih =>
    rw [lebDecode] at h
    split at h
    case isTrue hb =>
      cases h
      exact ⟨[],b,rest,rfl,rfl,by simp,hb,by simp⟩
    case isFalse hb =>
      obtain ⟨⟨w,m⟩,hrest,heq⟩ := Option.map_eq_some_iff.mp h
      cases heq
      obtain ⟨low,last,after,rfl,rfl,hlow,hlast,hw⟩ := ih hrest
      refine ⟨b :: low,last,after,rfl,rfl,List.forall_mem_cons.mpr ⟨hb,hlow⟩,hlast,?_⟩
      rw [List.length_cons,pow_succ',← Nat.div_div_eq_div_mul,lebDigit_div,hw]

theorem lebDecode_of_split (rest : Bytes) (hlow : ∀ b ∈ low, ¬ b < 128) (hlast : last < 128) :
    ∃ v, lebDecode (low ++ last :: rest) = some (v,low.length + 1) ∧
      v / 128 ^ low.length = last.toNat := by
  induction low with
  | nil => exact ⟨last.toNat,by simp [lebDecode,hlast],by simp⟩
  | cons b low ih =>
    obtain ⟨hb,hlow⟩ := List.forall_mem_cons.mp hlow
    obtain ⟨v,hv,hdiv⟩ := ih hlow
    refine ⟨b.toNat - 128 + 128 * v,by simp [lebDecode,hb,hv],?_⟩
    rw [List.length_cons,pow_succ',← Nat.div_div_eq_div_mul,lebDigit_div,hdiv]

end Split

end Jetstreamer.Lib
