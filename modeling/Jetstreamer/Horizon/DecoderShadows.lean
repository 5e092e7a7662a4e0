import Jetstreamer.Lib.Shadow
import Jetstreamer.Horizon.Notifications
set_option autoImplicit false

namespace Jetstreamer.Horizon
open Lib Lencode

/-! The decoders of values look at their state only to read an address. -/

section Primitives

variable {ε τ υ α : Type} [Raises ε] {kept : ε → Prop} {f : τ → υ}

theorem shadows_u8 : Shadows kept f id (decodeU8 : Get ε τ UInt8) decodeU8 := by
  intro t bytes
  cases bytes with
  | nil => exact fun _ => rfl
  | cons byte rest => rfl

theorem shadows_varint (w : Nat) :
    Shadows kept f id (decodeVarint w : Get ε τ Nat) (decodeVarint w) := by
  intro t bytes
  cases bytes with
  | nil => exact fun _ => rfl
  | cons first tail =>
    by_cases hsmall : first.toNat < 128
    · simp only [decodeVarint,hsmall,if_true,id]
    · by_cases hlen : first.toNat - 128 ≤ tail.length
      · simp only [decodeVarint,hsmall,if_false,hlen,if_true,id]
      · by_cases hshort : tail.length < w
        · simp [decodeVarint,hsmall,hlen,hshort]
        · simp [decodeVarint,hsmall,hlen,hshort]

theorem shadows_u16 : Shadows kept f id (decodeU16 : Get ε τ UInt16) decodeU16 :=
  (shadows_varint 2).map fun _ => rfl

theorem shadows_u32 : Shadows kept f id (decodeU32 : Get ε τ UInt32) decodeU32 :=
  (shadows_varint 4).map fun _ => rfl

theorem shadows_u64 : Shadows kept f id (decodeU64 : Get ε τ UInt64) decodeU64 :=
  (shadows_varint 8).map fun _ => rfl

theorem shadows_len : Shadows kept f id (decodeLen : Get ε τ Nat) decodeLen := shadows_varint 8

theorem shadows_i64 : Shadows kept f id (decodeI64 : Get ε τ Int64) decodeI64 :=
  shadows_u64.map fun _ => rfl

theorem shadows_fail {β : Type} {g : α → β} (e : Lencode.Error) :
    Shadows kept f g (fail e : Get ε τ α) (fail e) := Shadows.throw _

theorem shadows_panic {β : Type} {g : α → β} : Shadows kept f g (panic : Get ε τ α) panic :=
  Shadows.throw _

theorem shadows_bool : Shadows kept f id (decodeBool : Get ε τ Bool) decodeBool := by
  refine shadows_u8.bind fun byte => ?_
  simp only [id]
  split
  · exact shadows_fail _
  · exact Shadows.pure _

theorem shadows_option {read : Get ε τ α} {read' : Get ε υ α} (h : Shadows kept f id read read') :
    Shadows kept f id (decodeOption read) (decodeOption read') := by
  refine shadows_bool.bind fun present => ?_
  cases present with
  | true => exact h.bind fun _ => Shadows.pure _
  | false => exact Shadows.pure _

theorem shadows_fixed (n : Nat) : Shadows kept f id (decodeFixed n : Get ε τ _) (decodeFixed n) :=
  Shadows.take _ n

theorem shadows_zeroVec {N : Nat} {read : Get ε τ α} {read' : Get ε υ α}
    (h : Shadows kept f id read read') :
    Shadows kept f id (decodeZeroVec N read) (decodeZeroVec N read') := by
  refine shadows_len.bind fun len => ?_
  simp only [id]
  split
  · exact (h.times len).bind fun _ => Shadows.pure _
  · exact shadows_panic

theorem shadows_buf (n : Nat) : Shadows kept f id (readBuf n : Get ε τ _) (readBuf n) := by
  intro t bytes
  by_cases hzero : n = 0
  · subst hzero
    rfl
  · by_cases hnil : bytes = []
    · subst hnil
      simp [readBuf,hzero]
    · simp only [readBuf,hzero,hnil,dite_false,if_false]
      exact Shadows.take Raises.undefined n t bytes

theorem shadows_zeroVecU8 {N : Nat} :
    Shadows kept f id (decodeZeroVecU8 N : Get ε τ _) (decodeZeroVecU8 N) := by
  refine shadows_len.bind fun flagged => ?_
  simp only [id]
  split
  · exact shadows_panic
  · unfold readPayload
    split
    · exact (shadows_buf _).bind fun _ => Shadows.pure _
    · exact shadows_panic

theorem shadows_optionInto {read : Get ε τ α} {read' : Get ε υ α}
    (h : Shadows kept f id read read') :
    Shadows kept f id (decodeOptionInto read) (decodeOptionInto read') := by
  refine shadows_u8.bind fun tag => ?_
  simp only [id]
  split
  · exact Shadows.pure _
  · split
    · exact h.bind fun _ => Shadows.pure _
    · exact shadows_fail _

end Primitives

section Records

variable {ε τ υ : Type} [Raises ε] {kept : ε → Prop} {f : τ → υ} {address : Get ε τ Address}
  {address' : Get ε υ Address}

theorem shadows_messageHeader :
    Shadows kept f id (decodeMessageHeader : Get ε τ _) decodeMessageHeader :=
  shadows_u8.bind fun _ => shadows_u8.bind fun _ => shadows_u8.bind fun _ => Shadows.pure _

theorem shadows_compiledInstruction :
    Shadows kept f id (decodeCompiledInstruction : Get ε τ _) decodeCompiledInstruction :=
  shadows_u8.bind fun _ => shadows_zeroVecU8.bind fun _ => shadows_zeroVecU8.bind fun _ =>
    Shadows.pure _

theorem shadows_innerInstruction :
    Shadows kept f id (decodeInnerInstruction : Get ε τ _) decodeInnerInstruction :=
  shadows_u8.bind fun _ => shadows_compiledInstruction.bind fun _ =>
    (shadows_option shadows_u32).bind fun _ => Shadows.pure _

theorem shadows_logMessages :
    Shadows kept f id (decodeLogMessages : Get ε τ _) decodeLogMessages :=
  (shadows_zeroVec shadows_u32).bind fun _ => shadows_zeroVecU8.bind fun _ => Shadows.pure _

theorem shadows_transactionStatus :
    Shadows kept f id (decodeTransactionStatus : Get ε τ _) decodeTransactionStatus :=
  shadows_u16.bind fun _ => shadows_u8.bind fun _ => shadows_u32.bind fun _ =>
    shadows_zeroVecU8.bind fun _ => Shadows.pure _

theorem shadows_tokenAmount :
    Shadows kept f id (decodeTokenAmount : Get ε τ _) decodeTokenAmount :=
  shadows_u64.bind fun _ => shadows_u8.bind fun _ => Shadows.pure _

theorem shadows_rewardType :
    Shadows kept f id (decodeRewardType : Get ε τ _) decodeRewardType := by
  refine shadows_len.bind fun disc => ?_
  simp only [id]
  split <;> first | exact Shadows.pure _ | exact shadows_fail _

theorem shadows_v1TransactionConfig :
    Shadows kept f id (decodeV1TransactionConfig : Get ε τ _) decodeV1TransactionConfig :=
  (shadows_option shadows_u64).bind fun _ => (shadows_option shadows_u32).bind fun _ =>
    (shadows_option shadows_u32).bind fun _ => (shadows_option shadows_u32).bind fun _ =>
      Shadows.pure _

theorem shadows_entryRecord :
    Shadows kept f id (decodeEntryRecord : Get ε τ _) decodeEntryRecord :=
  shadows_u64.bind fun _ => shadows_u32.bind fun _ => Shadows.pure _

theorem shadows_reward (h : Shadows kept f id address address') :
    Shadows kept f id (decodeReward address) (decodeReward address') :=
  h.bind fun _ => shadows_i64.bind fun _ => shadows_u64.bind fun _ =>
    (shadows_option shadows_rewardType).bind fun _ => (shadows_option shadows_u8).bind fun _ =>
      (shadows_option shadows_u16).bind fun _ => Shadows.pure _

theorem shadows_blockMetaFields (slot : UInt64) (onPre : PreUpdates → PreUpdates)
    (onPost : PostUpdates → PostUpdates) (pre : PreUpdates) (post : PostUpdates) :
    Shadows kept f (fun info => { info with
        preUpdates := onPre info.preUpdates, postUpdates := onPost info.postUpdates })
      (decodeBlockMetaFields slot pre post : Get ε τ _)
      (decodeBlockMetaFields slot (onPre pre) (onPost post)) :=
  shadows_u64.bind fun _ => (shadows_fixed 32).bind fun _ => (shadows_fixed 32).bind fun _ =>
    (shadows_option shadows_i64).bind fun _ => (shadows_option shadows_u64).bind fun _ =>
      shadows_u64.bind fun _ => shadows_u64.bind fun _ =>
        (shadows_zeroVec (shadows_reward (shadows_fixed 32))).bind fun _ =>
          (shadows_option shadows_u64).bind fun _ => Shadows.pure _

variable (h : Shadows kept f id address address')
include h

theorem shadows_lookup : Shadows kept f id (decodeLookup address) (decodeLookup address') :=
  h.bind fun _ => shadows_zeroVecU8.bind fun _ => shadows_zeroVecU8.bind fun _ => Shadows.pure _

theorem shadows_legacyMessage :
    Shadows kept f id (decodeLegacyMessage address) (decodeLegacyMessage address') :=
  shadows_messageHeader.bind fun _ => (shadows_zeroVec h).bind fun _ =>
    (shadows_fixed 32).bind fun _ => (shadows_zeroVec shadows_compiledInstruction).bind fun _ =>
      Shadows.pure _

theorem shadows_v0Message : Shadows kept f id (decodeV0Message address)
    (decodeV0Message address') :=
  shadows_messageHeader.bind fun _ => (shadows_zeroVec h).bind fun _ =>
    (shadows_fixed 32).bind fun _ => (shadows_zeroVec shadows_compiledInstruction).bind fun _ =>
      (shadows_zeroVec (shadows_lookup h)).bind fun _ => Shadows.pure _

theorem shadows_v1Message : Shadows kept f id (decodeV1Message address)
    (decodeV1Message address') :=
  shadows_messageHeader.bind fun _ => shadows_v1TransactionConfig.bind fun _ =>
    (shadows_fixed 32).bind fun _ => (shadows_zeroVec h).bind fun _ =>
      (shadows_zeroVec shadows_compiledInstruction).bind fun _ => Shadows.pure _

theorem shadows_versionedMessage :
    Shadows kept f id (decodeVersionedMessage address) (decodeVersionedMessage address') := by
  refine shadows_len.bind fun disc => ?_
  simp only [id]
  split
  · exact (shadows_legacyMessage h).bind fun _ => Shadows.pure _
  · exact (shadows_v0Message h).bind fun _ => Shadows.pure _
  · exact (shadows_v1Message h).bind fun _ => Shadows.pure _
  · exact shadows_fail _

theorem shadows_returnData :
    Shadows kept f id (decodeReturnData address) (decodeReturnData address') :=
  h.bind fun _ => shadows_zeroVecU8.bind fun _ => Shadows.pure _

theorem shadows_tokenBalance :
    Shadows kept f id (decodeTokenBalance address) (decodeTokenBalance address') :=
  shadows_u8.bind fun _ => h.bind fun _ => shadows_tokenAmount.bind fun _ =>
    (shadows_option h).bind fun _ => (shadows_option h).bind fun _ => Shadows.pure _

end Records

end Jetstreamer.Horizon
