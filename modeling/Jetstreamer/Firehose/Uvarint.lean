import Jetstreamer.Lib.Leb128
set_option autoImplicit false

namespace Jetstreamer.Firehose.Uvarint
open Lib

inductive UvarintError where
  | unexpectedEof
  | overflow
  | tooLong
  deriving DecidableEq, Repr

/-- The loop of both `read_uvarint`s, with the turns it has left: what it reads
and the bytes it leaves in the reader. -/
def readUvarintLoop : Nat → UInt64 → Nat → Bytes → Except UvarintError (UInt64 × Bytes)
  | 0, _, _, _ => .error .overflow
  | _+1, _, _, [] => .error .unexpectedEof
  | left+1, x, s, b :: rest =>
    if b < 0x80 then
      if left = 0 ∧ 1 < b then .error .overflow
      else .ok (x ||| b.toUInt64 <<< UInt64.ofNat s,rest)
    else if 63 < s + 7 then .error .tooLong
    else readUvarintLoop left (x ||| (b &&& 0x7f).toUInt64 <<< UInt64.ofNat s) (s + 7) rest

def maxVarintLen64 : Nat := 10

def Utils.readUvarint : Bytes → Except UvarintError (UInt64 × Bytes) :=
  readUvarintLoop maxVarintLen64 0 0

def NodeReader.readUvarint : Bytes → Except UvarintError (UInt64 × Bytes) :=
  readUvarintLoop maxVarintLen64 0 0

inductive VarintError where
  | overflow
  | bufferEnded
  deriving DecidableEq, Repr

/-- The loop of both `decode_varint`s: the tenth byte is taken as it is. -/
def decodeVarintLoop (idx : Nat) (value : UInt64) (shift : Nat) :
    Bytes → Except VarintError (UInt64 × Nat)
  | [] => .error .bufferEnded
  | b :: rest =>
    if b.toUInt64 < 0x80 then .ok (value ||| b.toUInt64 <<< UInt64.ofNat shift,idx + 1)
    else if 63 < shift + 7 then .error .overflow
    else decodeVarintLoop (idx + 1) (value ||| (b.toUInt64 &&& 0x7f) <<< UInt64.ofNat shift)
      (shift + 7) rest

def Index.decodeVarint : Bytes → Except VarintError (UInt64 × Nat) := decodeVarintLoop 0 0 0

def Main.decodeVarint : Bytes → Except VarintError (UInt64 × Nat) := decodeVarintLoop 0 0 0

def taken (read : Bytes → Except UvarintError (UInt64 × Bytes)) (bytes : Bytes) :
    Option (UInt64 × Nat) :=
  (read bytes).toOption.map fun (x,rest) => (x,bytes.length - rest.length)

def readers : List (Bytes → Option (UInt64 × Nat)) :=
  [taken Utils.readUvarint,taken NodeReader.readUvarint,fun bytes =>
    (Index.decodeVarint bytes).toOption,fun bytes => (Main.decodeVarint bytes).toOption]

section Groups

variable {x y : UInt64} {i : Nat} {b : UInt8}

theorem accumulate (hx : x.toNat < 128 ^ i) (hi : i ≤ 9) :
    x ||| y <<< UInt64.ofNat (7 * i) = UInt64.ofNat (x.toNat + 128 ^ i * y.toNat) := by
  have hpow : 128 ^ i = 2 ^ (7 * i) := pow_mul 2 7 i ▸ rfl
  have hshift : 7 * i % 2 ^ 64 % 64 = 7 * i := by omega
  rw [hpow] at hx ⊢
  apply UInt64.toNat.inj
  calc
    (x ||| y <<< UInt64.ofNat (7 * i)).toNat
      = x.toNat % 2 ^ 64 ||| 2 ^ (7 * i) * y.toNat % 2 ^ 64 := by
        rw [UInt64.toNat_or,UInt64.toNat_shiftLeft,UInt64.toNat_ofNat',hshift,Nat.shiftLeft_eq,
          Nat.mul_comm,Nat.mod_eq_of_lt x.toNat_lt]
    _ = (2 ^ (7 * i) * y.toNat ||| x.toNat) % 2 ^ 64 := by
        rw [← Nat.or_mod_two_pow,Nat.or_comm]
    _ = (UInt64.ofNat (x.toNat + 2 ^ (7 * i) * y.toNat)).toNat := by
        rw [← Nat.two_pow_add_eq_or_of_lt hx,Nat.add_comm,UInt64.toNat_ofNat']

theorem pow128_le (hi : i ≤ 9) : 128 ^ i ≤ 2 ^ 63 :=
  Nat.pow_le_pow_right (by decide) hi

theorem accumulate_group (hx : x.toNat < 128 ^ i) (hi : i < 9) (hb : ¬ b < 0x80) :
    (x ||| (b.toUInt64 &&& 0x7f) <<< UInt64.ofNat (7 * i)).toNat =
        x.toNat + 128 ^ i * (b.toNat - 128) ∧
      (x ||| (b.toUInt64 &&& 0x7f) <<< UInt64.ofNat (7 * i)).toNat < 128 ^ (i + 1) := by
  have hlt := b.toNat_lt
  have hge : 128 ≤ b.toNat := by simpa [UInt8.lt_iff_toNat_lt] using hb
  have hlow : (b.toUInt64 &&& 0x7f).toNat = b.toNat - 128 := by
    have hmask := Nat.and_two_pow_sub_one_eq_mod b.toNat 7
    simp only [UInt64.toNat_and,UInt8.toNat_toUInt64]
    exact hmask.trans (by omega)
  have hbound : x.toNat + 128 ^ i * (b.toNat - 128) < 128 ^ (i + 1) := by
    have hgroup := Nat.mul_le_mul_left (128 ^ i) (show b.toNat - 128 ≤ 127 by omega)
    rw [pow_succ]
    omega
  have hsmall := pow128_le (show i + 1 ≤ 9 by omega)
  rw [accumulate hx (by omega),hlow,UInt64.toNat_ofNat',Nat.mod_eq_of_lt (by omega)]
  exact ⟨rfl,hbound⟩

theorem group_sum (x i d v : Nat) :
    x + 128 ^ i * d + 128 ^ (i + 1) * v = x + 128 ^ i * (d + 128 * v) := by
  ring

theorem toUInt64_lt : b.toUInt64 < 0x80 ↔ b < 0x80 := by
  simp [UInt64.lt_iff_toNat_lt,UInt8.lt_iff_toNat_lt]

end Groups

variable {bytes : Bytes}

theorem lebDecode_pos {v n : Nat} (h : lebDecode bytes = some (v,n)) : 1 ≤ n := by
  obtain ⟨low,_,_,_,rfl,_⟩ := lebDecode_split h
  exact Nat.le_add_left 1 _

theorem decodeVarintLoop_eq {i : Nat} {value : UInt64} (hvalue : value.toNat < 128 ^ i)
    (hi : i ≤ 9) : (decodeVarintLoop i value (7 * i) bytes).toOption =
      (lebDecode bytes).bind fun read => if i + read.2 ≤ 10 then
        some (UInt64.ofNat (value.toNat + 128 ^ i * read.1),i + read.2) else none := by
  induction bytes generalizing i value with
  | nil => rfl
  | cons b rest ih =>
    rw [decodeVarintLoop,lebDecode]
    by_cases hb : b < 0x80
    · rw [if_pos (toUInt64_lt.mpr hb),if_pos hb,accumulate hvalue hi]
      simp [Except.toOption,show i + 1 ≤ 10 by omega]
    · rw [if_neg (toUInt64_lt.not.mpr hb),if_neg hb]
      by_cases hlast : i = 9
      · rw [if_pos (by omega)]
        cases hrest : lebDecode rest with
        | none => rfl
        | some read =>
          have hpos := lebDecode_pos hrest
          simp [Except.toOption,show ¬ i + (read.2 + 1) ≤ 10 by omega]
      · obtain ⟨hnext,hbound⟩ := accumulate_group hvalue (by omega) hb
        rw [if_neg (by omega),← Nat.mul_succ,ih hbound (by omega),hnext,Option.bind_map]
        congr 1
        funext read
        obtain ⟨v,n⟩ := read
        simp only [Function.comp_apply,group_sum,show i + 1 + n = i + (n + 1) by omega]

theorem readUvarintLoop_eq {i left : Nat} {x : UInt64} (hx : x.toNat < 128 ^ i)
    (hleft : i + (left + 1) = 10) : (readUvarintLoop (left + 1) x (7 * i) bytes).toOption =
      (lebDecode bytes).bind fun read =>
        if i + read.2 ≤ 10 ∧ x.toNat + 128 ^ i * read.1 < 2 ^ 64 then
          some (UInt64.ofNat (x.toNat + 128 ^ i * read.1),bytes.drop read.2) else none := by
  induction bytes generalizing i left x with
  | nil => rfl
  | cons b rest ih =>
    rw [readUvarintLoop,lebDecode]
    by_cases hb : b < 0x80
    · rw [if_pos hb,if_pos hb,accumulate hx (by omega)]
      have hfits : (left = 0 ∧ 1 < b) ↔ ¬ x.toNat + 128 ^ i * b.toNat < 2 ^ 64 := by
        have hlt : b.toNat < 128 := by simpa [UInt8.lt_iff_toNat_lt] using hb
        have hone : 1 < b ↔ 1 < b.toNat := by simp [UInt8.lt_iff_toNat_lt]
        cases left with
        | zero =>
          obtain rfl : i = 9 := by omega
          rw [hone]
          omega
        | succ left =>
          have hgroup := Nat.mul_le_mul_left (128 ^ i) (show b.toNat ≤ 127 by omega)
          have hsmall := pow128_le (show i + 1 ≤ 9 by omega)
          rw [pow_succ] at hsmall
          omega
      simp only [Option.bind_some]
      by_cases hbig : left = 0 ∧ 1 < b
      · rw [if_pos hbig,if_neg fun h => hfits.mp hbig h.2]
        rfl
      · rw [if_neg hbig,if_pos ⟨by omega,not_not.mp (hfits.not.mp hbig)⟩]
        rfl
    · rw [if_neg hb,if_neg hb]
      cases left with
      | zero =>
        rw [if_pos (by omega)]
        cases hrest : lebDecode rest with
        | none => rfl
        | some read =>
          have hpos := lebDecode_pos hrest
          simp [Except.toOption,show ¬ i + (read.2 + 1) ≤ 10 by omega]
      | succ left =>
        have hgroup : (b &&& 0x7f).toUInt64 = b.toUInt64 &&& 0x7f := by simp
        obtain ⟨hnext,hbound⟩ := accumulate_group hx (by omega) hb
        rw [if_neg (by omega),hgroup,← Nat.mul_succ,ih hbound (by omega),hnext,Option.bind_map]
        congr 1
        funext read
        obtain ⟨v,n⟩ := read
        simp only [Function.comp_apply,group_sum,List.drop_succ_cons,
          show i + 1 + n = i + (n + 1) by omega]

/-- Nine continuation bytes, and a tenth with more than the one bit that is left. -/
def TenthByteOverflows (bytes : Bytes) : Prop :=
  ∃ low last rest, bytes = low ++ last :: rest ∧ low.length = 9 ∧ (∀ b ∈ low, ¬ b < 128) ∧
    1 < last ∧ last < 128

/-- The four readers on a byte string: one outcome for all of them, the standard
encoding read back, and nothing accepted that does not fit. -/
structure ReadersAgree (bytes : Bytes) : Prop where
  agree : ∀ read ∈ readers, ∀ other ∈ readers, read bytes = other bytes
  inverts : ∀ read ∈ readers, ∀ (v : UInt64) rest, bytes = lebEncode v.toNat ++ rest →
    read bytes = some (v,(lebEncode v.toNat).length)
  fits : ∀ read ∈ readers, ∀ v n, read bytes = some (v,n) → lebDecode bytes = some (v.toNat,n)

def fitting (bytes : Bytes) : Option (UInt64 × Nat) :=
  (lebDecode bytes).bind fun read =>
    if read.2 ≤ 10 ∧ read.1 < 2 ^ 64 then some (UInt64.ofNat read.1,read.2) else none

theorem taken_readUvarint : taken Utils.readUvarint bytes = fitting bytes := by
  have hloop := @readUvarintLoop_eq bytes 0 9 0 (by decide) rfl
  rw [taken,Utils.readUvarint,maxVarintLen64,hloop,fitting]
  cases hread : lebDecode bytes with
  | none => rfl
  | some read =>
    obtain ⟨low,last,rest,rfl,hn,_⟩ := lebDecode_split hread
    have hlen : read.2 ≤ (low ++ last :: rest).length := by simp [hn]
    simp only [Option.bind_some,Nat.zero_add,pow_zero,Nat.one_mul,UInt64.toNat_zero]
    split
    · simp only [Option.map_some,List.length_drop,Nat.sub_sub_self hlen]
    · rfl

theorem decodeVarint_eq : (Index.decodeVarint bytes).toOption =
    (lebDecode bytes).bind fun read =>
      if read.2 ≤ 10 then some (UInt64.ofNat read.1,read.2) else none := by
  have hloop := @decodeVarintLoop_eq bytes 0 0 (by decide) (by decide)
  simpa [Index.decodeVarint] using hloop

theorem TenthByteOverflows.decoded (h : TenthByteOverflows bytes) :
    ∃ v, lebDecode bytes = some (v,10) ∧ 2 ^ 64 ≤ v := by
  obtain ⟨low,last,rest,rfl,hnine,hlow,hone,hlast⟩ := h
  obtain ⟨v,hv,hdiv⟩ := lebDecode_of_split rest hlow hlast
  rw [hnine] at hv hdiv
  have htwo : 1 < last.toNat := by simpa [UInt8.lt_iff_toNat_lt] using hone
  exact ⟨v,hv,by omega⟩

theorem overflows_of_decoded {v n : Nat} (h : lebDecode bytes = some (v,n)) (hn : n ≤ 10)
    (hv : 2 ^ 64 ≤ v) : TenthByteOverflows bytes := by
  obtain ⟨low,last,rest,rfl,rfl,hlow,hlast,hdiv⟩ := lebDecode_split h
  have hlt : last.toNat < 128 := by simpa [UInt8.lt_iff_toNat_lt] using hlast
  have hnine : low.length = 9 := by
    by_contra hne
    -- A shorter encoding stays below `128 ^ 9`.
    have hshort := pow128_le (show low.length + 1 ≤ 9 by omega)
    rw [← hdiv,Nat.div_lt_iff_lt_mul (by positivity),← pow_succ'] at hlt
    omega
  refine ⟨low,last,rest,rfl,hnine,hlow,?_,hlast⟩
  rw [hnine] at hdiv
  rw [UInt8.lt_iff_toNat_lt]
  change 1 < last.toNat
  omega

/-- The readers agree, and accept no more than a `u64`, unless a tenth byte overflows. -/
theorem readers_agree_iff (bytes : Bytes) : ReadersAgree bytes ↔ ¬ TenthByteOverflows bytes := by
  constructor
  · intro h hover
    obtain ⟨v,hv,hbig⟩ := hover.decoded
    have hsame := h.agree _ (.head _) _ (.tail _ (.tail _ (.head _)))
    simp only [taken_readUvarint,decodeVarint_eq,fitting,hv,Option.bind_some,
      Nat.not_lt.mpr hbig,and_false,if_false,Nat.le_refl,if_true] at hsame
    cases hsame
  · intro hnone
    have hdecode : (Index.decodeVarint bytes).toOption = fitting bytes := by
      rw [decodeVarint_eq,fitting]
      cases hread : lebDecode bytes with
      | none => rfl
      | some read =>
        have hfits : read.1 < 2 ^ 64 ∨ ¬ read.2 ≤ 10 := by
          by_contra hcon
          rw [not_or,not_not] at hcon
          exact hnone (overflows_of_decoded hread hcon.2 (Nat.not_lt.mp hcon.1))
        rcases hfits with hfits | hfits
        · simp only [Option.bind_some,hfits,and_true]
        · simp only [Option.bind_some,hfits,false_and]
    have hall : ∀ read ∈ readers, read bytes = fitting bytes := by
      simp only [readers,List.forall_mem_cons]
      exact ⟨taken_readUvarint,taken_readUvarint,hdecode,hdecode,by simp⟩
    refine ⟨?_,?_,?_⟩
    · intro read hread other hother
      rw [hall read hread,hall other hother]
    · rintro read hread v rest rfl
      have hlen := lebEncode_length_le (k := 9)
        (Nat.lt_of_lt_of_le v.toNat_lt (by decide : 2 ^ 64 ≤ 128 ^ 10))
      rw [hall read hread,fitting,lebDecode_encode]
      simp [hlen,v.toNat_lt]
    · intro read hread v n hsome
      rw [hall read hread] at hsome
      obtain ⟨⟨u,m⟩,hdecoded,hif⟩ := Option.bind_eq_some_iff.mp hsome
      simp only at hif
      split at hif
      case isFalse => cases hif
      case isTrue hfits =>
        cases hif
        rw [UInt64.toNat_ofNat',Nat.mod_eq_of_lt hfits.2]
        exact hdecoded

/-- Nine continuation bytes and a two: `read_uvarint` refuses what `decode_varint` reads as zero. -/
theorem not_readersAgree_overlong :
    ¬ ReadersAgree [0x80,0x80,0x80,0x80,0x80,0x80,0x80,0x80,0x80,2] := by
  intro h
  have hsame := h.agree _ (.head _) _ (.tail _ (.tail _ (.head _)))
  revert hsame
  decide

end Jetstreamer.Firehose.Uvarint
