import Jetstreamer.Horizon.InPlace
set_option autoImplicit false

namespace Jetstreamer.Horizon
open Lib Lencode

/-! A transaction written on its own and decoded over a used one. -/

section Total

variable {ε σ α : Type} {N : Nat}

@[simp] theorem total_u8 (v : UInt8) : (encodeU8 v : Put ε σ).Total := Put.total_raw _

@[simp] theorem total_u16 (v : UInt16) : (encodeU16 v : Put ε σ).Total := Put.total_raw _

@[simp] theorem total_u32 (v : UInt32) : (encodeU32 v : Put ε σ).Total := Put.total_raw _

@[simp] theorem total_u64 (v : UInt64) : (encodeU64 v : Put ε σ).Total := Put.total_raw _

@[simp] theorem total_i64 (v : Int64) : (encodeI64 v : Put ε σ).Total := Put.total_raw _

@[simp] theorem total_bool (v : Bool) : (encodeBool v : Put ε σ).Total := Put.total_raw _

@[simp] theorem total_fixed {n : Nat} (v : FixedBytes n) : (encodeFixed v : Put ε σ).Total :=
  Put.total_raw _

theorem total_option {encode : α → Put ε σ} (h : ∀ value, (encode value).Total)
    (v : Option α) : (encodeOption encode v).Total := by
  cases v with
  | none => exact total_bool false
  | some value => exact Put.total_all (by simp [h])

@[simp] theorem total_messageHeader (h : MessageHeader) :
    (encodeMessageHeader h : Put ε σ).Total :=
  Put.total_all (by simp)

@[simp] theorem total_v1TransactionConfig (c : V1TransactionConfig) :
    (encodeV1TransactionConfig c : Put ε σ).Total :=
  Put.total_all (by simp [total_option])

@[simp] theorem total_tokenAmount (t : TokenAmount) : (encodeTokenAmount t : Put ε σ).Total :=
  Put.total_all (by simp)

variable [Raises ε]

theorem total_len {n : Nat} (h : n < 2 ^ 64) : (encodeLen n : Put ε σ).Total :=
  fun s => ⟨encodeVarint 8 n,s,if_pos h⟩

theorem total_zeroVec {encode : α → Put ε σ} (hN : N < 2 ^ 64) (h : ∀ item, (encode item).Total)
    (v : ZeroVec N α) : (encodeZeroVec encode v).Total := by
  have hlen : v.items.length < 2 ^ 64 := lt_of_le_of_lt v.fits hN
  exact Put.total_all (by simp [total_len hlen,Put.total_each h])

theorem total_zeroVecU8 (hN : 2 * N < 2 ^ 64) (v : ZeroVec N UInt8) :
    (encodeZeroVecU8 v : Put ε σ).Total := by
  have hlen : 2 * v.items.length < 2 ^ 64 :=
    lt_of_le_of_lt (Nat.mul_le_mul_left 2 v.fits) hN
  exact Put.total_all (by simp [total_len hlen])

@[simp] theorem total_compiledInstruction (ix : CompiledInstruction) :
    (encodeCompiledInstruction ix : Put ε σ).Total :=
  Put.total_all (by simp +decide [total_zeroVecU8])

@[simp] theorem total_innerInstruction (ix : InnerInstruction) :
    (encodeInnerInstruction ix : Put ε σ).Total :=
  Put.total_all (by simp [total_option])

@[simp] theorem total_logMessages (logs : LogMessages) :
    (encodeLogMessages logs : Put ε σ).Total :=
  Put.total_all (by simp +decide [total_zeroVec,total_zeroVecU8])

@[simp] theorem total_rewardType (t : RewardType) : (encodeRewardType t : Put ε σ).Total := by
  refine total_len ?_
  cases t <;> decide

@[simp] theorem total_transactionStatus (s : TransactionStatus) :
    (encodeTransactionStatus s : Put ε σ).Total :=
  Put.total_all (by simp +decide [total_zeroVecU8])

variable {address : Address → Put ε σ} (haddr : ∀ a, (address a).Total)
include haddr

theorem total_lookup (l : MessageAddressTableLookup) : (encodeLookup address l).Total :=
  Put.total_all (by simp +decide [haddr,total_zeroVecU8])

theorem total_legacyMessage (m : LegacyMessage) : (encodeLegacyMessage address m).Total :=
  Put.total_all (by simp +decide [haddr,total_zeroVec])

theorem total_v0Message (m : V0Message) : (encodeV0Message address m).Total :=
  Put.total_all (by simp +decide [haddr,total_zeroVec,total_lookup haddr])

theorem total_v1Message (m : V1Message) : (encodeV1Message address m).Total :=
  Put.total_all (by simp +decide [haddr,total_zeroVec])

theorem total_versionedMessage (m : VersionedMessage) :
    (encodeVersionedMessage address m).Total := by
  cases m with
  | legacy m => exact Put.total_all (by simp [total_len,total_legacyMessage haddr])
  | v0 m => exact Put.total_all (by simp [total_len,total_v0Message haddr])
  | v1 m => exact Put.total_all (by simp [total_len,total_v1Message haddr])

theorem total_returnData (r : ReturnData) : (encodeReturnData address r).Total :=
  Put.total_all (by simp +decide [haddr,total_zeroVecU8])

theorem total_reward (r : Reward) : (encodeReward address r).Total :=
  Put.total_all (by simp [haddr,total_option])

omit [Raises ε] in
theorem total_tokenBalance (b : TransactionTokenBalance) :
    (encodeTokenBalance address b).Total :=
  Put.total_all (by simp [haddr,total_option])

omit [Raises ε] in
theorem total_accountUpdateMeta (m : AccountUpdateMeta) :
    (encodeAccountUpdateMeta address m).Total :=
  Put.total_all (by simp [haddr])

theorem total_updateArena (arena : TxArena) : (encodeUpdateArena address arena).Total :=
  Put.total_all (by simp +decide [total_accountUpdateMeta haddr,total_zeroVec,total_zeroVecU8])

theorem total_transaction (tx : Transaction) : (encodeTransaction address tx).Total :=
  Put.total_all (by simp +decide [haddr,total_option,total_zeroVec,total_versionedMessage haddr,
    total_returnData haddr,total_reward haddr,total_tokenBalance haddr,total_updateArena haddr])

end Total

section Arena

variable {MAX DATA : Nat}

/-- One update with the data its entry points to. A range past the end of the arena stops the
program. -/
def AccountUpdateMeta.view (arena : Bytes) (m : AccountUpdateMeta) : Option AccountUpdate :=
  if m.dataOffset.toNat + m.dataLen.toNat ≤ arena.length then
    some ⟨m.pubkey,m.lamports,m.owner,m.executable,m.rentEpoch,m.writeVersion,
      (arena.drop m.dataOffset.toNat).take m.dataLen.toNat⟩
  else none

/-- All updates of an arena, in the order they were pushed. -/
def UpdateArena.iter (arena : UpdateArena MAX DATA) : Option (List AccountUpdate) :=
  arena.info.items.mapM (AccountUpdateMeta.view arena.data.items)

theorem view_layOut (before : Bytes) {updates : List AccountUpdate}
    (h : before.length + dataLen updates < 2 ^ 32) :
    (layOut before.length updates).mapM
      (AccountUpdateMeta.view (before ++ updates.flatMap (·.data))) = some updates := by
  induction updates generalizing before with
  | nil => rfl
  | cons u rest ih =>
    have hlen : dataLen (u :: rest) = u.data.length + dataLen rest := by simp [dataLen]
    have hoffset : (UInt32.ofNat before.length).toNat = before.length :=
      UInt32.toNat_ofNat_of_lt' (by rw [UInt32.size]; omega)
    have hdata : (UInt32.ofNat u.data.length).toNat = u.data.length :=
      UInt32.toNat_ofNat_of_lt' (by rw [UInt32.size]; omega)
    have hrest := ih (before ++ u.data) (by rw [List.length_append]; omega)
    rw [List.length_append,List.append_assoc] at hrest
    have hview : AccountUpdateMeta.view (before ++ (u.data ++ rest.flatMap (·.data)))
        ⟨u.pubkey,u.lamports,u.owner,u.executable,u.rentEpoch,u.writeVersion,
          UInt32.ofNat before.length,UInt32.ofNat u.data.length⟩ = some u := by
      simp [AccountUpdateMeta.view,hoffset,hdata]
    simp only [layOut,List.flatMap_cons,List.mapM_cons,hview,hrest]
    rfl

theorem AccountUpdates.iter_arena (updates : AccountUpdates MAX DATA) (hDATA : DATA < 2 ^ 32) :
    updates.arena.iter = some updates.updates :=
  view_layOut [] (by simpa using lt_of_le_of_lt updates.size hDATA)

end Arena

section Records

variable {ε : Type} [Raises ε]

/-- The record of a transaction as the raw table stores it, without a context. -/
def transactionRecord (tx : Transaction) : Except ε Bytes := do
  let written ← encodeTransaction encodeFixed tx ()
  return written.1

/-- Whatever a transaction and its arena held before, the record decoded over them is read to its
last byte and no further and leaves every field and every update as it was written. -/
theorem decodeInto_transactionRecord (tx : Transaction) (old : Transaction × TxArena)
    (rest : Bytes) :
    ∃ record arena, transactionRecord (ε := ε) tx = .ok record ∧
      Transaction.decodeInto (decodeFixed 32 : Get ε Unit Address) old ⟨(),record ++ rest⟩ =
        .ok ({ tx with accountUpdates := .empty },arena) ⟨(),rest⟩ ∧
      arena = tx.accountUpdates.arena ∧ arena.iter = some tx.accountUpdates.updates := by
  obtain ⟨record,s,hwritten⟩ := total_transaction (ε := ε) (σ := Unit) total_fixed tx ()
  have haddr (a : Address) : Reads (fun _ _ => True) (encodeFixed a : Put ε Unit)
      (decodeFixed 32 : Get ε Unit Address) a (fun _ _ => True) := reads_fixed a
  obtain ⟨t,hdecoded,-⟩ := reads_transactionInto haddr tx old () () record s rest trivial hwritten
  refine ⟨record,tx.accountUpdates.arena,?_,hdecoded,rfl,?_⟩
  · rw [transactionRecord,hwritten]
    rfl
  · exact AccountUpdates.iter_arena _ (by decide)

end Records

end Jetstreamer.Horizon
