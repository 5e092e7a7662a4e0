import Jetstreamer.Horizon.Convert
set_option autoImplicit false

namespace Jetstreamer.Horizon
open Lib Lencode

/-! Decoding into values that still hold what was decoded last. -/

section Slots

variable {ε τ α : Type} {N : Nat} [Raises ε]

def ZeroVec.decodeInto (decode : Get ε τ α) (old : ZeroVec N α) : Get ε τ (ZeroVec N α) := do
  let old := old.clear
  let len ← decodeLen
  if h : len ≤ N then
    let items ← Get.times len decode
    return ⟨old.items ++ items.1,by simp [old,ZeroVec.clear,ZeroVec.empty,items.2,h]⟩
  else panic

def ZeroVec.decodeIntoU8 (_old : ZeroVec N UInt8) : Get ε τ (ZeroVec N UInt8) := decodeZeroVecU8 N

/-- The slots from the front on, each decoded over. -/
def decodeSlots (decodeInto : α → Get ε τ α) (slot : Nat → α) :
    (n : Nat) → Get ε τ {items : List α // items.length = n}
  | 0 => pure ⟨[],List.length_nil⟩
  | n+1 => do
    let item ← decodeInto (slot 0)
    let items ← decodeSlots decodeInto (fun i => slot (i+1)) n
    return ⟨item :: items.1,Get.length_cons_val item items⟩

/-- The slots that are there already are used again, those behind them start out as zero. -/
def decodeZeroVecInPlace (zero : α) (decodeInto : α → Get ε τ α) (old : ZeroVec N α) :
    Get ε τ (ZeroVec N α) := do
  let newLen ← decodeLen
  if h : newLen ≤ N then
    let items ← decodeSlots decodeInto (fun i => old.items.getD i zero) newLen
    return ⟨items.1,length_val_le items h⟩
  else panic

def decodeOptionZeroVecInto (decode : Get ε τ α) (slot : Option (ZeroVec N α)) :
    Get ε τ (Option (ZeroVec N α)) :=
  decodeOptionInto (ZeroVec.decodeInto decode (slot.getD .empty))

def decodeOptionZeroVecInPlace (zero : α) (decodeInto : α → Get ε τ α)
    (slot : Option (ZeroVec N α)) : Get ε τ (Option (ZeroVec N α)) :=
  decodeOptionInto (decodeZeroVecInPlace zero decodeInto (slot.getD .empty))

end Slots

section Decoders

variable {ε τ : Type} [Raises ε] (address : Get ε τ Address)

def CompiledInstruction.decodeInto (old : CompiledInstruction) : Get ε τ CompiledInstruction := do
  let programIdIndex ← decodeU8
  let accounts ← old.accounts.decodeIntoU8
  let data ← old.data.decodeIntoU8
  return { old with programIdIndex, accounts, data }

def MessageAddressTableLookup.decodeInto (old : MessageAddressTableLookup) :
    Get ε τ MessageAddressTableLookup := do
  let accountKey ← address
  let writableIndexes ← old.writableIndexes.decodeIntoU8
  let readonlyIndexes ← old.readonlyIndexes.decodeIntoU8
  return { old with accountKey, writableIndexes, readonlyIndexes }

def LegacyMessage.decodeInto (old : LegacyMessage) : Get ε τ LegacyMessage := do
  let header ← decodeMessageHeader
  let accountKeys ← old.accountKeys.decodeInto address
  let recentBlockhash ← decodeFixed 32
  let instructions ←
    decodeZeroVecInPlace CompiledInstruction.zero CompiledInstruction.decodeInto old.instructions
  return { old with header, accountKeys, recentBlockhash, instructions }

def V0Message.decodeInto (old : V0Message) : Get ε τ V0Message := do
  let header ← decodeMessageHeader
  let accountKeys ← old.accountKeys.decodeInto address
  let recentBlockhash ← decodeFixed 32
  let instructions ←
    decodeZeroVecInPlace CompiledInstruction.zero CompiledInstruction.decodeInto old.instructions
  let addressTableLookups ← decodeZeroVecInPlace MessageAddressTableLookup.zero
    (MessageAddressTableLookup.decodeInto address) old.addressTableLookups
  return { old with header, accountKeys, recentBlockhash, instructions, addressTableLookups }

def V1Message.decodeInto (old : V1Message) : Get ε τ V1Message := do
  let header ← decodeMessageHeader
  let config ← decodeV1TransactionConfig
  let lifetimeSpecifier ← decodeFixed 32
  let accountKeys ← old.accountKeys.decodeInto address
  let instructions ←
    decodeZeroVecInPlace CompiledInstruction.zero CompiledInstruction.decodeInto old.instructions
  return { old with header, config, lifetimeSpecifier, accountKeys, instructions }

/-- A message of another version than the last is decoded over zeroed storage. -/
def VersionedMessage.decodeInto (old : VersionedMessage) : Get ε τ VersionedMessage := do
  let disc ← decodeLen
  match disc with
  | 0 =>
    let old := match old with
      | .legacy m => m
      | _ => .empty
    return .legacy (← old.decodeInto address)
  | 1 =>
    let old := match old with
      | .v0 m => m
      | _ => .empty
    return .v0 (← old.decodeInto address)
  | 2 =>
    let old := match old with
      | .v1 m => m
      | _ => .empty
    return .v1 (← old.decodeInto address)
  | _ => fail .invalidData

def InnerInstruction.decodeInto (old : InnerInstruction) : Get ε τ InnerInstruction := do
  let outerIndex ← decodeU8
  let instruction ← old.instruction.decodeInto
  let stackHeight ← decodeOption decodeU32
  return { old with outerIndex, instruction, stackHeight }

def LogMessages.decodeInto (old : LogMessages) : Get ε τ LogMessages := do
  let lens ← old.lens.decodeInto decodeU32
  let data ← old.data.decodeIntoU8
  return { old with lens, data }

def decodeOptionLogMessagesInto (slot : Option LogMessages) : Get ε τ (Option LogMessages) :=
  decodeOptionInto (slot.getD .empty).decodeInto

end Decoders

section Unseen

variable {ε τ α : Type} {N : Nat} [Raises ε] (address : Get ε τ Address)

theorem ZeroVec.decodeInto_eq (decode : Get ε τ α) (old : ZeroVec N α) :
    old.decodeInto decode = decodeZeroVec N decode := rfl

omit [Raises ε] in
theorem decodeSlots_eq {decodeInto : α → Get ε τ α} {decode : Get ε τ α}
    (h : ∀ old, decodeInto old = decode) (slot : Nat → α) (n : Nat) :
    decodeSlots decodeInto slot n = Get.times n decode := by
  induction n generalizing slot with
  | zero => rfl
  | succ n ih =>
    rw [decodeSlots,Get.times,h,ih]

theorem decodeZeroVecInPlace_eq {decodeInto : α → Get ε τ α} {decode : Get ε τ α}
    (h : ∀ old, decodeInto old = decode) (zero : α) (old : ZeroVec N α) :
    decodeZeroVecInPlace zero decodeInto old = decodeZeroVec N decode := by
  simp only [decodeZeroVecInPlace,decodeZeroVec,decodeSlots_eq h]

theorem CompiledInstruction.decodeInto_eq (old : CompiledInstruction) :
    (old.decodeInto : Get ε τ CompiledInstruction) = decodeCompiledInstruction := rfl

theorem MessageAddressTableLookup.decodeInto_eq (old : MessageAddressTableLookup) :
    old.decodeInto address = decodeLookup address := rfl

theorem InnerInstruction.decodeInto_eq (old : InnerInstruction) :
    (old.decodeInto : Get ε τ InnerInstruction) = decodeInnerInstruction := rfl

theorem LogMessages.decodeInto_eq (old : LogMessages) :
    (old.decodeInto : Get ε τ LogMessages) = decodeLogMessages := rfl

theorem LegacyMessage.decodeInto_eq (old : LegacyMessage) :
    old.decodeInto address = decodeLegacyMessage address := by
  simp only [LegacyMessage.decodeInto,decodeLegacyMessage,ZeroVec.decodeInto_eq,
    decodeZeroVecInPlace_eq CompiledInstruction.decodeInto_eq]

theorem V0Message.decodeInto_eq (old : V0Message) :
    old.decodeInto address = decodeV0Message address := by
  simp only [V0Message.decodeInto,decodeV0Message,ZeroVec.decodeInto_eq,
    decodeZeroVecInPlace_eq CompiledInstruction.decodeInto_eq,
    decodeZeroVecInPlace_eq (MessageAddressTableLookup.decodeInto_eq address)]

theorem V1Message.decodeInto_eq (old : V1Message) :
    old.decodeInto address = decodeV1Message address := by
  simp only [V1Message.decodeInto,decodeV1Message,ZeroVec.decodeInto_eq,
    decodeZeroVecInPlace_eq CompiledInstruction.decodeInto_eq]

theorem VersionedMessage.decodeInto_eq (old : VersionedMessage) :
    old.decodeInto address = decodeVersionedMessage address := by
  unfold VersionedMessage.decodeInto decodeVersionedMessage
  refine bind_congr fun disc => ?_
  match disc with
  | 0 => simp only [LegacyMessage.decodeInto_eq]
  | 1 => simp only [V0Message.decodeInto_eq]
  | 2 => simp only [V1Message.decodeInto_eq]
  | n+3 => rfl

theorem decodeOptionZeroVecInto_eq (decode : Get ε τ α) (slot : Option (ZeroVec N α)) :
    decodeOptionZeroVecInto decode slot = decodeOptionInto (decodeZeroVec N decode) := by
  rw [decodeOptionZeroVecInto,ZeroVec.decodeInto_eq]

theorem decodeOptionZeroVecInPlace_eq {decodeInto : α → Get ε τ α} {decode : Get ε τ α}
    (h : ∀ old, decodeInto old = decode) (zero : α) (slot : Option (ZeroVec N α)) :
    decodeOptionZeroVecInPlace zero decodeInto slot =
      decodeOptionInto (decodeZeroVec N decode) := by
  rw [decodeOptionZeroVecInPlace,decodeZeroVecInPlace_eq h]

theorem decodeOptionLogMessagesInto_eq (slot : Option LogMessages) :
    (decodeOptionLogMessagesInto slot : Get ε τ (Option LogMessages)) =
      decodeOptionInto decodeLogMessages := by
  rw [decodeOptionLogMessagesInto,LogMessages.decodeInto_eq]

end Unseen

section Arena

/-- An update without its data, which lies in the arena it points into. -/
structure AccountUpdateMeta where
  pubkey : Address
  lamports : UInt64
  owner : Address
  executable : Bool
  rentEpoch : UInt64
  writeVersion : UInt64
  dataOffset : UInt32
  dataLen : UInt32
  deriving DecidableEq

/-- Updates as they lie in memory. -/
structure UpdateArena (MAX DATA : Nat) where
  info : ZeroVec MAX AccountUpdateMeta
  data : ZeroVec DATA UInt8
  deriving DecidableEq

variable {MAX DATA : Nat}

/-- The entries of updates pushed one after the other from `offset` on. -/
def layOut (offset : Nat) : List AccountUpdate → List AccountUpdateMeta
  | [] => []
  | u :: rest => ⟨u.pubkey,u.lamports,u.owner,u.executable,u.rentEpoch,u.writeVersion,
      UInt32.ofNat offset,UInt32.ofNat u.data.length⟩ :: layOut (offset + u.data.length) rest

theorem layOut_length (offset : Nat) (updates : List AccountUpdate) :
    (layOut offset updates).length = updates.length := by
  induction updates generalizing offset with
  | nil => rfl
  | cons u rest ih => simp [layOut,ih]

def AccountUpdates.arena (updates : AccountUpdates MAX DATA) : UpdateArena MAX DATA where
  info := ⟨layOut 0 updates.updates,by rw [layOut_length]; exact updates.count⟩
  data := ⟨updates.updates.flatMap (·.data),by
    rw [List.length_flatMap]
    exact updates.size⟩

variable {ε σ τ : Type} [Raises ε]

def encodeAccountUpdateMeta (address : Address → Put ε σ) (m : AccountUpdateMeta) : Put ε σ :=
  Put.all [address m.pubkey,encodeU64 m.lamports,address m.owner,encodeBool m.executable,
    encodeU64 m.rentEpoch,encodeU64 m.writeVersion,encodeU32 m.dataOffset,encodeU32 m.dataLen]

def encodeUpdateArena (address : Address → Put ε σ) (arena : UpdateArena MAX DATA) : Put ε σ :=
  Put.all [encodeZeroVec (encodeAccountUpdateMeta address) arena.info,encodeZeroVecU8 arena.data]

def AccountUpdateMeta.zero : AccountUpdateMeta := ⟨zeroAddress,0,zeroAddress,false,0,0,0,0⟩

def AccountUpdateMeta.decodeInto (address : Get ε τ Address) (old : AccountUpdateMeta) :
    Get ε τ AccountUpdateMeta := do
  let pubkey ← address
  let lamports ← decodeU64
  let owner ← address
  let executable ← decodeBool
  let rentEpoch ← decodeU64
  let writeVersion ← decodeU64
  let dataOffset ← decodeU32
  let dataLen ← decodeU32
  return { old with
    pubkey, lamports, owner, executable, rentEpoch, writeVersion, dataOffset, dataLen }

def UpdateArena.decodeInto (address : Get ε τ Address) (old : UpdateArena MAX DATA) :
    Get ε τ (UpdateArena MAX DATA) := do
  let info ← decodeZeroVecInPlace .zero (AccountUpdateMeta.decodeInto address) old.info
  let data ← old.data.decodeIntoU8
  return { old with info, data }

variable {P : σ → τ → Prop} {putAddress : Address → Put ε σ} {getAddress : Get ε τ Address}

theorem reads_accountUpdateMeta (haddr : ∀ a, Reads P (putAddress a) getAddress a P)
    (m old : AccountUpdateMeta) :
    Reads P (encodeAccountUpdateMeta putAddress m) (old.decodeInto getAddress) m P :=
  (haddr _).cons ((reads_u64 _).cons ((haddr _).cons ((reads_bool _).cons ((reads_u64 _).cons
    ((reads_u64 _).cons ((reads_u32 _).cons ((reads_u32 _).cons (Reads.nil m))))))))

theorem reads_updateArena (haddr : ∀ a, Reads P (putAddress a) getAddress a P)
    (arena old : UpdateArena MAX DATA) :
    Reads P (encodeUpdateArena putAddress arena) (old.decodeInto getAddress) arena P := by
  have hinfo : Reads P (encodeZeroVec (encodeAccountUpdateMeta putAddress) arena.info)
      (decodeZeroVecInPlace .zero (AccountUpdateMeta.decodeInto getAddress) old.info) arena.info
        P := by
    have hsame : ∀ m : AccountUpdateMeta, m.decodeInto getAddress =
        AccountUpdateMeta.zero.decodeInto getAddress := fun _ => rfl
    rw [decodeZeroVecInPlace_eq hsame]
    exact reads_zeroVec _ fun m _ => reads_accountUpdateMeta haddr m .zero
  exact hinfo.cons ((reads_zeroVecU8 _).cons (Reads.nil arena))

end Arena

section Whole

abbrev TxArena := UpdateArena maxTxAccountUpdates maxTxAccountUpdateData

variable {ε σ τ : Type} [Raises ε]

/-- A transaction field by field, its updates last. -/
def encodeTransaction (address : Address → Put ε σ) (tx : Transaction) : Put ε σ :=
  Put.all [encodeTransactionStatus tx.status,encodeU64 tx.fee,
    encodeZeroVec encodeU64 tx.preBalances,
    encodeZeroVec encodeU64 tx.postBalances,encodeZeroVec address tx.loadedWritableAddresses,
    encodeZeroVec address tx.loadedReadonlyAddresses,
    encodeOption (encodeZeroVec encodeInnerInstruction) tx.innerInstructions,
    encodeOption encodeLogMessages tx.logMessages,
    encodeOption (encodeZeroVec (encodeTokenBalance address)) tx.preTokenBalances,
    encodeOption (encodeZeroVec (encodeTokenBalance address)) tx.postTokenBalances,
    encodeOption (encodeZeroVec (encodeReward address)) tx.rewards,
    encodeOption (encodeReturnData address) tx.returnData,
    encodeOption encodeU64 tx.computeUnitsConsumed,encodeOption encodeU64 tx.costUnits,
    encodeZeroVec encodeFixed tx.signatures,encodeVersionedMessage address tx.message,
    encodeUpdateArena address tx.accountUpdates.arena]

/-- Decodes over a transaction and its arena; the list of updates the arena stands for is left
empty. -/
def Transaction.decodeInto (address : Get ε τ Address) (old : Transaction × TxArena) :
    Get ε τ (Transaction × TxArena) := do
  let status ← decodeTransactionStatus
  let fee ← decodeU64
  let preBalances ← old.1.preBalances.decodeInto decodeU64
  let postBalances ← old.1.postBalances.decodeInto decodeU64
  let loadedWritableAddresses ← old.1.loadedWritableAddresses.decodeInto address
  let loadedReadonlyAddresses ← old.1.loadedReadonlyAddresses.decodeInto address
  let innerInstructions ←
    decodeOptionZeroVecInPlace .zero InnerInstruction.decodeInto old.1.innerInstructions
  let logMessages ← decodeOptionLogMessagesInto old.1.logMessages
  let preTokenBalances ← decodeOptionZeroVecInto (decodeTokenBalance address) old.1.preTokenBalances
  let postTokenBalances ← decodeOptionZeroVecInto
      (decodeTokenBalance address) old.1.postTokenBalances
  let rewards ← decodeOptionZeroVecInto (decodeReward address) old.1.rewards
  let returnData ← decodeOption (decodeReturnData address)
  let computeUnitsConsumed ← decodeOption decodeU64
  let costUnits ← decodeOption decodeU64
  let signatures ← old.1.signatures.decodeInto (decodeFixed 64)
  let message ← old.1.message.decodeInto address
  let arena ← old.2.decodeInto address
  return ({ old.1 with
    status, fee, preBalances, postBalances, loadedWritableAddresses, loadedReadonlyAddresses,
    innerInstructions, logMessages, preTokenBalances, postTokenBalances, rewards, returnData,
    computeUnitsConsumed, costUnits, signatures, message
    accountUpdates := .empty },arena)

variable {P : σ → τ → Prop} {putAddress : Address → Put ε σ} {getAddress : Get ε τ Address}

theorem reads_transactionInto (haddr : ∀ a, Reads P (putAddress a) getAddress a P)
    (tx : Transaction)
    (old : Transaction × TxArena) :
    Reads P (encodeTransaction putAddress tx) (Transaction.decodeInto getAddress old)
      ({ tx with accountUpdates := .empty },tx.accountUpdates.arena) P := by
  unfold Transaction.decodeInto
  simp only [ZeroVec.decodeInto_eq,decodeOptionZeroVecInPlace_eq InnerInstruction.decodeInto_eq,
    decodeOptionLogMessagesInto_eq,decodeOptionZeroVecInto_eq,VersionedMessage.decodeInto_eq]
  refine (reads_transactionStatus _).cons ((reads_u64 _).cons
    ((reads_zeroVec _ fun b _ => reads_u64 b).cons ((reads_zeroVec _ fun b _ => reads_u64 b).cons
    ((reads_zeroVec _ fun a _ => haddr a).cons ((reads_zeroVec _ fun a _ => haddr a).cons ?_)))))
  refine (reads_optionInto fun v _ => reads_zeroVec _ fun ix _ => reads_innerInstruction ix).cons
    ((reads_optionInto fun v _ => reads_logMessages v).cons
    ((reads_optionInto fun v _ => reads_zeroVec _ fun b _ => reads_tokenBalance haddr b).cons
    ((reads_optionInto fun v _ => reads_zeroVec _ fun b _ => reads_tokenBalance haddr b).cons
    ((reads_optionInto fun v _ => reads_zeroVec _ fun r _ => reads_reward haddr r).cons ?_))))
  exact (reads_option fun v _ => reads_returnData haddr v).cons ((reads_optionU64 _).cons
    ((reads_optionU64 _).cons ((reads_zeroVec _ fun s _ => reads_fixed s).cons
    ((reads_versionedMessage haddr _).cons ((reads_updateArena haddr _ _).cons (Reads.nil _))))))

end Whole

end Jetstreamer.Horizon
