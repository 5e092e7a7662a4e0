import Jetstreamer.Horizon.AccountUpdates
set_option autoImplicit false

namespace Jetstreamer.Horizon
open Lib Lencode

def maxTxAccounts : Nat := 256
def maxIxAccounts : Nat := 255
def maxIxDataLen : Nat := 10 * 1024
def maxTxInnerIx : Nat := 64
def maxTxAddrLookups : Nat := 128
def maxTxAccountUpdates : Nat := 128
def maxTxAccountUpdateData : Nat := 128 * 1024 * 1024
def maxReturnDataLen : Nat := 1024
def maxTxInstructions : Nat := 64
def maxTxSigs : Nat := 19
def maxTxLogMsgs : Nat := 16384
def maxTxLogData : Nat := 4 * 1024 * 1024
def maxTxRewards : Nat := 16
def maxTxTokenBalances : Nat := maxTxAccounts
def maxCustomErrorLen : Nat := 256

structure MessageHeader where
  numRequiredSignatures : UInt8
  numReadonlySignedAccounts : UInt8
  numReadonlyUnsignedAccounts : UInt8
  deriving DecidableEq

structure CompiledInstruction where
  programIdIndex : UInt8
  accounts : ZeroVec maxIxAccounts UInt8
  data : ZeroVec maxIxDataLen UInt8
  deriving DecidableEq

structure MessageAddressTableLookup where
  accountKey : Address
  writableIndexes : ZeroVec maxTxAccounts UInt8
  readonlyIndexes : ZeroVec maxTxAccounts UInt8
  deriving DecidableEq

structure LegacyMessage where
  header : MessageHeader
  accountKeys : ZeroVec maxTxAccounts Address
  recentBlockhash : Hash
  instructions : ZeroVec maxTxInstructions CompiledInstruction
  deriving DecidableEq

structure V0Message where
  header : MessageHeader
  accountKeys : ZeroVec maxTxAccounts Address
  recentBlockhash : Hash
  instructions : ZeroVec maxTxInstructions CompiledInstruction
  addressTableLookups : ZeroVec maxTxAddrLookups MessageAddressTableLookup
  deriving DecidableEq

structure V1TransactionConfig where
  priorityFee : Option UInt64
  computeUnitLimit : Option UInt32
  loadedAccountsDataSizeLimit : Option UInt32
  heapSize : Option UInt32
  deriving DecidableEq

structure V1Message where
  header : MessageHeader
  config : V1TransactionConfig
  lifetimeSpecifier : Hash
  accountKeys : ZeroVec maxTxAccounts Address
  instructions : ZeroVec maxTxInstructions CompiledInstruction
  deriving DecidableEq

inductive VersionedMessage where
  | legacy (m : LegacyMessage)
  | v0 (m : V0Message)
  | v1 (m : V1Message)
  deriving DecidableEq

/-- `outerIndex` is the instruction that made the call. -/
structure InnerInstruction where
  outerIndex : UInt8
  instruction : CompiledInstruction
  stackHeight : Option UInt32
  deriving DecidableEq

/-- The lines end to end, and how long each is. -/
structure LogMessages where
  lens : ZeroVec maxTxLogMsgs UInt32
  data : ZeroVec maxTxLogData UInt8
  deriving DecidableEq

structure ReturnData where
  programId : Address
  data : ZeroVec maxReturnDataLen UInt8
  deriving DecidableEq

inductive RewardType where
  | fee
  | rent
  | staking
  | voting
  | deactivatedStake
  deriving DecidableEq

structure Reward where
  pubkey : Address
  lamports : Int64
  postBalance : UInt64
  rewardType : Option RewardType
  commission : Option UInt8
  commissionBps : Option UInt16
  deriving DecidableEq

/-- A packed error; code 0 is success. -/
structure TransactionStatus where
  errorCode : UInt16
  instructionIndex : UInt8
  customErrorCode : UInt32
  errorMessage : ZeroVec maxCustomErrorLen UInt8
  deriving DecidableEq

structure TokenAmount where
  amount : UInt64
  decimals : UInt8
  deriving DecidableEq

structure TransactionTokenBalance where
  accountIndex : UInt8
  mint : Address
  uiTokenAmount : TokenAmount
  owner : Option Address
  programId : Option Address
  deriving DecidableEq

structure Transaction where
  status : TransactionStatus
  fee : UInt64
  preBalances : ZeroVec maxTxAccounts UInt64
  postBalances : ZeroVec maxTxAccounts UInt64
  loadedWritableAddresses : ZeroVec maxTxAccounts Address
  loadedReadonlyAddresses : ZeroVec maxTxAccounts Address
  innerInstructions : Option (ZeroVec maxTxInnerIx InnerInstruction)
  logMessages : Option LogMessages
  preTokenBalances : Option (ZeroVec maxTxTokenBalances TransactionTokenBalance)
  postTokenBalances : Option (ZeroVec maxTxTokenBalances TransactionTokenBalance)
  rewards : Option (ZeroVec maxTxRewards Reward)
  returnData : Option ReturnData
  computeUnitsConsumed : Option UInt64
  costUnits : Option UInt64
  signatures : ZeroVec maxTxSigs Signature
  message : VersionedMessage
  accountUpdates : AccountUpdates maxTxAccountUpdates maxTxAccountUpdateData
  deriving DecidableEq

section Encoders

variable {ε σ : Type} [Raises ε] (address : Address → Put ε σ)

def encodeMessageHeader (h : MessageHeader) : Put ε σ :=
  Put.all [encodeU8 h.numRequiredSignatures,encodeU8 h.numReadonlySignedAccounts,
    encodeU8 h.numReadonlyUnsignedAccounts]

def encodeCompiledInstruction (ix : CompiledInstruction) : Put ε σ :=
  Put.all [encodeU8 ix.programIdIndex,encodeZeroVecU8 ix.accounts,encodeZeroVecU8 ix.data]

def encodeLookup (l : MessageAddressTableLookup) : Put ε σ :=
  Put.all [address l.accountKey,encodeZeroVecU8 l.writableIndexes,
    encodeZeroVecU8 l.readonlyIndexes]

def encodeLegacyMessage (m : LegacyMessage) : Put ε σ :=
  Put.all [encodeMessageHeader m.header,encodeZeroVec address m.accountKeys,
    encodeFixed m.recentBlockhash,encodeZeroVec encodeCompiledInstruction m.instructions]

def encodeV0Message (m : V0Message) : Put ε σ :=
  Put.all [encodeMessageHeader m.header,encodeZeroVec address m.accountKeys,
    encodeFixed m.recentBlockhash,encodeZeroVec encodeCompiledInstruction m.instructions,
    encodeZeroVec (encodeLookup address) m.addressTableLookups]

def encodeV1TransactionConfig (c : V1TransactionConfig) : Put ε σ :=
  Put.all [encodeOption encodeU64 c.priorityFee,encodeOption encodeU32 c.computeUnitLimit,
    encodeOption encodeU32 c.loadedAccountsDataSizeLimit,encodeOption encodeU32 c.heapSize]

def encodeV1Message (m : V1Message) : Put ε σ :=
  Put.all [encodeMessageHeader m.header,encodeV1TransactionConfig m.config,
    encodeFixed m.lifetimeSpecifier,encodeZeroVec address m.accountKeys,
    encodeZeroVec encodeCompiledInstruction m.instructions]

/-- The version stands before the message, as a length does. -/
def encodeVersionedMessage : VersionedMessage → Put ε σ
  | .legacy m => Put.all [encodeLen 0,encodeLegacyMessage address m]
  | .v0 m => Put.all [encodeLen 1,encodeV0Message address m]
  | .v1 m => Put.all [encodeLen 2,encodeV1Message address m]

def encodeInnerInstruction (ix : InnerInstruction) : Put ε σ :=
  Put.all [encodeU8 ix.outerIndex,encodeCompiledInstruction ix.instruction,
    encodeOption encodeU32 ix.stackHeight]

def encodeLogMessages (logs : LogMessages) : Put ε σ :=
  Put.all [encodeZeroVec encodeU32 logs.lens,encodeZeroVecU8 logs.data]

def encodeReturnData (r : ReturnData) : Put ε σ :=
  Put.all [address r.programId,encodeZeroVecU8 r.data]

def RewardType.discriminant : RewardType → Nat
  | .fee => 0
  | .rent => 1
  | .staking => 2
  | .voting => 3
  | .deactivatedStake => 4

def encodeRewardType (t : RewardType) : Put ε σ := encodeLen t.discriminant

def encodeReward (r : Reward) : Put ε σ :=
  Put.all [address r.pubkey,encodeI64 r.lamports,encodeU64 r.postBalance,
    encodeOption encodeRewardType r.rewardType,encodeOption encodeU8 r.commission,
    encodeOption encodeU16 r.commissionBps]

def encodeTransactionStatus (s : TransactionStatus) : Put ε σ :=
  Put.all [encodeU16 s.errorCode,encodeU8 s.instructionIndex,encodeU32 s.customErrorCode,
    encodeZeroVecU8 s.errorMessage]

def encodeTokenAmount (t : TokenAmount) : Put ε σ :=
  Put.all [encodeU64 t.amount,encodeU8 t.decimals]

def encodeTokenBalance (b : TransactionTokenBalance) : Put ε σ :=
  Put.all [encodeU8 b.accountIndex,address b.mint,encodeTokenAmount b.uiTokenAmount,
    encodeOption address b.owner,encodeOption address b.programId]

end Encoders

section Decoders

variable {ε τ : Type} [Raises ε] (address : Get ε τ Address)

def decodeMessageHeader : Get ε τ MessageHeader := do
  return ⟨← decodeU8,← decodeU8,← decodeU8⟩

def decodeCompiledInstruction : Get ε τ CompiledInstruction := do
  return ⟨← decodeU8,← decodeZeroVecU8 _,← decodeZeroVecU8 _⟩

def decodeLookup : Get ε τ MessageAddressTableLookup := do
  return ⟨← address,← decodeZeroVecU8 _,← decodeZeroVecU8 _⟩

def decodeLegacyMessage : Get ε τ LegacyMessage := do
  return ⟨← decodeMessageHeader,← decodeZeroVec _ address,← decodeFixed 32,
    ← decodeZeroVec _ decodeCompiledInstruction⟩

def decodeV0Message : Get ε τ V0Message := do
  return ⟨← decodeMessageHeader,← decodeZeroVec _ address,← decodeFixed 32,
    ← decodeZeroVec _ decodeCompiledInstruction,← decodeZeroVec _ (decodeLookup address)⟩

def decodeV1TransactionConfig : Get ε τ V1TransactionConfig := do
  return ⟨← decodeOption decodeU64,← decodeOption decodeU32,← decodeOption decodeU32,
    ← decodeOption decodeU32⟩

def decodeV1Message : Get ε τ V1Message := do
  return ⟨← decodeMessageHeader,← decodeV1TransactionConfig,← decodeFixed 32,
    ← decodeZeroVec _ address,← decodeZeroVec _ decodeCompiledInstruction⟩

def decodeVersionedMessage : Get ε τ VersionedMessage := do
  let disc ← decodeLen
  match disc with
  | 0 => return .legacy (← decodeLegacyMessage address)
  | 1 => return .v0 (← decodeV0Message address)
  | 2 => return .v1 (← decodeV1Message address)
  | _ => fail .invalidData

def decodeInnerInstruction : Get ε τ InnerInstruction := do
  return ⟨← decodeU8,← decodeCompiledInstruction,← decodeOption decodeU32⟩

def decodeLogMessages : Get ε τ LogMessages := do
  return ⟨← decodeZeroVec _ decodeU32,← decodeZeroVecU8 _⟩

def decodeReturnData : Get ε τ ReturnData := do
  return ⟨← address,← decodeZeroVecU8 _⟩

def decodeRewardType : Get ε τ RewardType := do
  let disc ← decodeLen
  match disc with
  | 0 => return .fee
  | 1 => return .rent
  | 2 => return .staking
  | 3 => return .voting
  | 4 => return .deactivatedStake
  | _ => fail .invalidData

def decodeReward : Get ε τ Reward := do
  return ⟨← address,← decodeI64,← decodeU64,← decodeOption decodeRewardType,
    ← decodeOption decodeU8,← decodeOption decodeU16⟩

def decodeTransactionStatus : Get ε τ TransactionStatus := do
  return ⟨← decodeU16,← decodeU8,← decodeU32,← decodeZeroVecU8 _⟩

def decodeTokenAmount : Get ε τ TokenAmount := do
  return ⟨← decodeU64,← decodeU8⟩

def decodeTokenBalance : Get ε τ TransactionTokenBalance := do
  return ⟨← decodeU8,← address,← decodeTokenAmount,← decodeOption address,
    ← decodeOption address⟩

end Decoders

section RoundTrip

variable {ε σ τ : Type} [Raises ε] {P : σ → τ → Prop}

theorem reads_messageHeader (h : MessageHeader) :
    Reads P (encodeMessageHeader h : Put ε σ) decodeMessageHeader h P :=
  (reads_u8 _).cons ((reads_u8 _).cons ((reads_u8 _).cons (Reads.nil h)))

theorem reads_compiledInstruction (ix : CompiledInstruction) :
    Reads P (encodeCompiledInstruction ix : Put ε σ) decodeCompiledInstruction ix P :=
  (reads_u8 _).cons ((reads_zeroVecU8 _).cons ((reads_zeroVecU8 _).cons (Reads.nil ix)))

theorem reads_optionU32 (v : Option UInt32) :
    Reads P (encodeOption encodeU32 v : Put ε σ) (decodeOption decodeU32) v P :=
  reads_option fun value _ => reads_u32 value

theorem reads_optionU64 (v : Option UInt64) :
    Reads P (encodeOption encodeU64 v : Put ε σ) (decodeOption decodeU64) v P :=
  reads_option fun value _ => reads_u64 value

theorem reads_v1TransactionConfig (c : V1TransactionConfig) :
    Reads P (encodeV1TransactionConfig c : Put ε σ) decodeV1TransactionConfig c P :=
  (reads_optionU64 _).cons ((reads_optionU32 _).cons ((reads_optionU32 _).cons
    ((reads_optionU32 _).cons (Reads.nil c))))

theorem reads_innerInstruction (ix : InnerInstruction) :
    Reads P (encodeInnerInstruction ix : Put ε σ) decodeInnerInstruction ix P :=
  (reads_u8 _).cons ((reads_compiledInstruction _).cons ((reads_optionU32 _).cons
    (Reads.nil ix)))

theorem reads_logMessages (logs : LogMessages) :
    Reads P (encodeLogMessages logs : Put ε σ) decodeLogMessages logs P :=
  (reads_zeroVec _ fun len _ => reads_u32 len).cons ((reads_zeroVecU8 _).cons (Reads.nil logs))

theorem reads_rewardType (t : RewardType) :
    Reads P (encodeRewardType t : Put ε σ) decodeRewardType t P := by
  refine ((reads_len t.discriminant).cons ?_).single
  cases t <;> exact Reads.nil _

theorem reads_transactionStatus (s : TransactionStatus) :
    Reads P (encodeTransactionStatus s : Put ε σ) decodeTransactionStatus s P :=
  (reads_u16 _).cons ((reads_u8 _).cons ((reads_u32 _).cons ((reads_zeroVecU8 _).cons
    (Reads.nil s))))

theorem reads_tokenAmount (t : TokenAmount) :
    Reads P (encodeTokenAmount t : Put ε σ) decodeTokenAmount t P :=
  (reads_u64 _).cons ((reads_u8 _).cons (Reads.nil t))

variable {putAddress : Address → Put ε σ} {getAddress : Get ε τ Address}

section

variable (haddr : ∀ a, Reads P (putAddress a) getAddress a P)
include haddr

theorem reads_lookup
    (l : MessageAddressTableLookup) :
    Reads P (encodeLookup putAddress l) (decodeLookup getAddress) l P :=
  (haddr _).cons ((reads_zeroVecU8 _).cons ((reads_zeroVecU8 _).cons (Reads.nil l)))

theorem reads_legacyMessage
    (m : LegacyMessage) :
    Reads P (encodeLegacyMessage putAddress m) (decodeLegacyMessage getAddress) m P :=
  (reads_messageHeader _).cons ((reads_zeroVec _ fun a _ => haddr a).cons
    ((reads_fixed _).cons ((reads_zeroVec _ fun ix _ => reads_compiledInstruction ix).cons
      (Reads.nil m))))

theorem reads_v0Message (m : V0Message) :
    Reads P (encodeV0Message putAddress m) (decodeV0Message getAddress) m P :=
  (reads_messageHeader _).cons ((reads_zeroVec _ fun a _ => haddr a).cons
    ((reads_fixed _).cons ((reads_zeroVec _ fun ix _ => reads_compiledInstruction ix).cons
      ((reads_zeroVec _ fun l _ => reads_lookup haddr l).cons (Reads.nil m)))))

theorem reads_v1Message (m : V1Message) :
    Reads P (encodeV1Message putAddress m) (decodeV1Message getAddress) m P :=
  (reads_messageHeader _).cons ((reads_v1TransactionConfig _).cons ((reads_fixed _).cons
    ((reads_zeroVec _ fun a _ => haddr a).cons
      ((reads_zeroVec _ fun ix _ => reads_compiledInstruction ix).cons (Reads.nil m)))))

/-- Whatever reads addresses back reads whole messages back. -/
theorem reads_versionedMessage
    (m : VersionedMessage) :
    Reads P (encodeVersionedMessage putAddress m) (decodeVersionedMessage getAddress) m P := by
  cases m with
  | legacy m => exact (reads_len 0).cons ((reads_legacyMessage haddr m).cons (Reads.nil _))
  | v0 m => exact (reads_len 1).cons ((reads_v0Message haddr m).cons (Reads.nil _))
  | v1 m => exact (reads_len 2).cons ((reads_v1Message haddr m).cons (Reads.nil _))

theorem reads_returnData (r : ReturnData) :
    Reads P (encodeReturnData putAddress r) (decodeReturnData getAddress) r P :=
  (haddr _).cons ((reads_zeroVecU8 _).cons (Reads.nil r))

theorem reads_reward (r : Reward) :
    Reads P (encodeReward putAddress r) (decodeReward getAddress) r P :=
  (haddr _).cons ((reads_i64 _).cons ((reads_u64 _).cons
    ((reads_option fun t _ => reads_rewardType t).cons ((reads_option fun c _ => reads_u8 c).cons
      ((reads_option fun b _ => reads_u16 b).cons (Reads.nil r))))))

theorem reads_tokenBalance
    (b : TransactionTokenBalance) :
    Reads P (encodeTokenBalance putAddress b) (decodeTokenBalance getAddress) b P :=
  (reads_u8 _).cons ((haddr _).cons ((reads_tokenAmount _).cons
    ((reads_option fun a _ => haddr a).cons ((reads_option fun a _ => haddr a).cons
      (Reads.nil b)))))

end

end RoundTrip

end Jetstreamer.Horizon
