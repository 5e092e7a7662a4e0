import Jetstreamer.Horizon.AccountUpdates
import Jetstreamer.Horizon.Transactions
set_option autoImplicit false

namespace Jetstreamer.Plugin
open Lib Horizon

/-- Addresses of the runtime's own programs. -/
structure SdkIds where
  vote : Address
  systemProgram : Address
  computeBudget : Address
  bpfLoaderUpgradeable : Address
  bpfLoaderDeprecated : Address
  bpfLoader : Address
  loaderV4 : Address
  secp256k1Program : Address
  ed25519Program : Address
  secp256r1Program : Address

section Saturating

/-- Arithmetic that stops at the ends of its type. -/
def satAdd (a b : UInt64) : UInt64 :=
  if a.toNat + b.toNat < 2 ^ 64 then a + b else UInt64.ofNat (2 ^ 64 - 1)

def satMul (a b : UInt64) : UInt64 :=
  if a.toNat * b.toNat < 2 ^ 64 then a * b else UInt64.ofNat (2 ^ 64 - 1)

def satSub (a b : UInt64) : UInt64 := if b ≤ a then a - b else 0

def satAdd32 (a b : UInt32) : UInt32 :=
  if a.toNat + b.toNat < 2 ^ 32 then a + b else UInt32.ofNat (2 ^ 32 - 1)

def satMul32 (a b : UInt32) : UInt32 :=
  if a.toNat * b.toNat < 2 ^ 32 then a * b else UInt32.ofNat (2 ^ 32 - 1)

def satSucc16 (a : UInt16) : UInt16 := if a = 65535 then a else a + 1

end Saturating

structure ResolvedAccounts where
  staticKeys : List Address
  loadedWritable : List Address
  loadedReadonly : List Address

/-- Static keys, then loaded writable keys, then loaded readonly keys. -/
def ResolvedAccounts.get (accounts : ResolvedAccounts) (index : Nat) : Option Address :=
  match accounts.staticKeys[index]? with
  | some key => some key
  | none =>
    let index := index - accounts.staticKeys.length
    match accounts.loadedWritable[index]? with
    | some key => some key
    | none => accounts.loadedReadonly[index - accounts.loadedWritable.length]?

def ResolvedAccounts.getStatic (accounts : ResolvedAccounts) (index : Nat) : Option Address :=
  accounts.staticKeys[index]?

structure InstructionView where
  programIdIndex : UInt8
  accounts : Bytes
  data : Bytes

/-- The bytes behind the tag; what follows them is ignored. -/
def decodeComputeBudgetU32 (data : Bytes) : Option UInt32 :=
  if 5 ≤ data.length then some (UInt32.ofNat (leValue ((data.drop 1).take 4))) else none

def decodeComputeBudgetU64 (data : Bytes) : Option UInt64 :=
  if 9 ≤ data.length then some (UInt64.ofNat (leValue ((data.drop 1).take 8))) else none

namespace SchedulerMetrics

def baseFeeBurnPercent : UInt64 := 50
def lamportsPerSignature : UInt64 := 5000
def priorityMultiplier : UInt64 := 1000000
def signatureCost : UInt64 := 720
def secp256k1VerifyCost : UInt64 := 6690
def ed25519VerifyStrictCost : UInt64 := 2400
def secp256r1VerifyCost : UInt64 := 4800
def writeLockUnits : UInt64 := 300
def instructionDataBytesCost : Nat := 4
def defaultInstructionComputeUnitLimit : UInt32 := 200000
def maxBuiltinAllocationComputeUnitLimit : UInt32 := 3000
def maxComputeUnitLimit : UInt32 := 1400000
def minHeapFrameBytes : UInt32 := 32768
def maxHeapFrameBytes : UInt32 := 262144
def maxLoadedAccountsDataSizeBytes : UInt32 := 67108864
def accountDataCostPageSize : UInt64 := 32768
def defaultHeapCost : UInt64 := 8
def microLamportsPerLamport : Nat := 1000000

structure SchedulerConfiguration where
  computeUnitLimit : UInt32
  priorityFeeLamports : UInt64
  loadedAccountsDataSizeLimit : UInt32

structure SignatureDetails where
  transaction : UInt64
  secp256k1 : UInt64
  ed25519 : UInt64
  secp256r1 : UInt64

def SignatureDetails.total (d : SignatureDetails) : UInt64 :=
  satAdd (satAdd (satAdd d.transaction d.secp256k1) d.ed25519) d.secp256r1

def SignatureDetails.cost (d : SignatureDetails) : UInt64 :=
  satAdd (satAdd (satAdd (satMul d.transaction signatureCost)
    (satMul d.secp256k1 secp256k1VerifyCost)) (satMul d.ed25519 ed25519VerifyStrictCost))
    (satMul d.secp256r1 secp256r1VerifyCost)

def heapSizeOk (bytes : UInt32) : Bool :=
  minHeapFrameBytes ≤ bytes && bytes ≤ maxHeapFrameBytes && bytes % 1024 == 0

def schedulerConfigurationV1 (config : V1TransactionConfig) : Option SchedulerConfiguration :=
  if heapSizeOk (config.heapSize.getD minHeapFrameBytes) then
    some ⟨min (config.computeUnitLimit.getD 0) maxComputeUnitLimit,config.priorityFee.getD 0,
      min (config.loadedAccountsDataSizeLimit.getD 0) maxLoadedAccountsDataSizeBytes⟩
  else none

/-- A request that is made a second time makes the transaction invalid. -/
def setOnce {α : Type} (target : Option α) (value : α) : Option (Option α) :=
  if target.isSome then none else some (some value)

/-- What the instructions of the compute budget have asked for so far. -/
structure Requested where
  heapSize : Option UInt32 := none
  computeUnitLimit : Option UInt32 := none
  computeUnitPrice : Option UInt64 := none
  loadedAccountsDataSizeLimit : Option UInt32 := none
  builtinInstructions : UInt32 := 0
  nonBuiltinInstructions : UInt32 := 0

variable (ids : SdkIds)

def isAgave42Builtin (program : Address) : Bool :=
  [ids.systemProgram,ids.computeBudget,ids.bpfLoaderUpgradeable,ids.bpfLoaderDeprecated,
    ids.bpfLoader,ids.loaderV4,ids.secp256k1Program,ids.ed25519Program].contains program

def request (r : Requested) (ix : InstructionView) : Option Requested := do
  let tag ← ix.data.head?
  match tag with
  | 1 =>
    let heapSize ← setOnce r.heapSize (← decodeComputeBudgetU32 ix.data)
    return { r with heapSize }
  | 2 =>
    let computeUnitLimit ← setOnce r.computeUnitLimit (← decodeComputeBudgetU32 ix.data)
    return { r with computeUnitLimit }
  | 3 =>
    let computeUnitPrice ← setOnce r.computeUnitPrice (← decodeComputeBudgetU64 ix.data)
    return { r with computeUnitPrice }
  | 4 =>
    let loadedAccountsDataSizeLimit ←
      setOnce r.loadedAccountsDataSizeLimit (← decodeComputeBudgetU32 ix.data)
    return { r with loadedAccountsDataSizeLimit }
  | _ => none

def addInstruction (accounts : ResolvedAccounts) (r : Requested) (ix : InstructionView) :
    Option Requested := do
  let programId ← accounts.get ix.programIdIndex.toNat
  if programId = ids.computeBudget then
    let r ← request r ix
    return { r with builtinInstructions := satAdd32 r.builtinInstructions 1 }
  else if isAgave42Builtin ids programId then
    return { r with builtinInstructions := satAdd32 r.builtinInstructions 1 }
  else return { r with nonBuiltinInstructions := satAdd32 r.nonBuiltinInstructions 1 }

/-- The fee in lamports, rounded up. -/
def priorityFeeLamports (price : UInt64) (limit : UInt32) : UInt64 :=
  let fee := (price.toNat * limit.toNat + (microLamportsPerLamport - 1)) / microLamportsPerLamport
  if fee < 2 ^ 64 then UInt64.ofNat fee else UInt64.ofNat (2 ^ 64 - 1)

def schedulerConfigurationLegacyAndV0 (accounts : ResolvedAccounts)
    (instructions : List InstructionView) : Option SchedulerConfiguration := do
  let r ← instructions.foldlM (addInstruction ids accounts) {}
  if r.heapSize.any (!heapSizeOk ·) then none
  else
    let requestedLimit := r.computeUnitLimit.getD
      (satAdd32 (satMul32 r.builtinInstructions maxBuiltinAllocationComputeUnitLimit)
        (satMul32 r.nonBuiltinInstructions defaultInstructionComputeUnitLimit))
    let computeUnitLimit := min requestedLimit maxComputeUnitLimit
    let loadedAccountsDataSizeLimit ← match r.loadedAccountsDataSizeLimit with
      | some bytes => if bytes = 0 then none else some (min bytes maxLoadedAccountsDataSizeBytes)
      | none => some maxLoadedAccountsDataSizeBytes
    return ⟨computeUnitLimit,priorityFeeLamports (r.computeUnitPrice.getD 0) computeUnitLimit,
      loadedAccountsDataSizeLimit⟩

def addSignatures (accounts : ResolvedAccounts) (d : SignatureDetails) (ix : InstructionView) :
    SignatureDetails :=
  match accounts.get ix.programIdIndex.toNat with
  | none => d
  | some programId =>
    let count := (ix.data.headD 0).toUInt64
    if programId = ids.secp256k1Program then { d with secp256k1 := d.secp256k1 + count }
    else if programId = ids.ed25519Program then { d with ed25519 := d.ed25519 + count }
    else if programId = ids.secp256r1Program then { d with secp256r1 := d.secp256r1 + count }
    else d

def signatureDetails (transactionSignatures : UInt64) (accounts : ResolvedAccounts)
    (instructions : List InstructionView) : SignatureDetails :=
  instructions.foldl (addSignatures ids accounts) ⟨transactionSignatures,0,0,0⟩

structure Metrics where
  priority : UInt64
  costUnits : UInt64

/-- Indices of an instruction that point past the accounts of the transaction. -/
def danglingInstruction (accounts : ResolvedAccounts) (accountCount : Nat) (ix : InstructionView) :
    Bool :=
  (accounts.get ix.programIdIndex.toNat).isNone || ix.accounts.any fun index => accountCount ≤
    index.toNat

def calculate (numSignatures : Nat) (header : MessageHeader) (isLegacy : Bool)
    (v1Config : Option V1TransactionConfig) (accounts : ResolvedAccounts)
    (instructions : List InstructionView) : Option Metrics := do
  let requiredSignatures := header.numRequiredSignatures.toNat
  let readonlySigned := header.numReadonlySignedAccounts.toNat
  let readonlyUnsigned := header.numReadonlyUnsignedAccounts.toNat
  let accountCount :=
    accounts.staticKeys.length + accounts.loadedWritable.length + accounts.loadedReadonly.length
  if accounts.staticKeys.length < requiredSignatures then none
  else if numSignatures ≠ requiredSignatures ∨ requiredSignatures < readonlySigned ∨
      accounts.staticKeys.length - requiredSignatures < readonlyUnsigned ∨
      ((isLegacy || v1Config.isSome) ∧
        ¬(accounts.loadedWritable.isEmpty ∧ accounts.loadedReadonly.isEmpty)) then none
  else if instructions.any (danglingInstruction accounts accountCount) then none
  else
    let configuration ← match v1Config with
      | some config => schedulerConfigurationV1 config
      | none => schedulerConfigurationLegacyAndV0 ids accounts instructions
    let details := signatureDetails ids header.numRequiredSignatures.toUInt64 accounts instructions
    let instructionDataLen := (instructions.map (·.data.length)).sum
    let readonlyAccounts := readonlySigned + readonlyUnsigned + accounts.loadedReadonly.length
    if 65536 ≤ instructionDataLen then none
    else if accountCount < readonlyAccounts then none
    else
      let numWriteLocks := UInt64.ofNat (accountCount - readonlyAccounts)
      let loadedAccountPages :=
        satAdd configuration.loadedAccountsDataSizeLimit.toUInt64 (accountDataCostPageSize - 1) /
          accountDataCostPageSize
      let costUnits := satAdd (satAdd (satAdd (satAdd details.cost
        (satMul numWriteLocks writeLockUnits))
        (UInt64.ofNat (instructionDataLen / instructionDataBytesCost)))
        configuration.computeUnitLimit.toUInt64) (satMul loadedAccountPages defaultHeapCost)
      let baseFee := satMul details.total lamportsPerSignature
      let burnedBaseFee := satMul baseFee baseFeeBurnPercent / 100
      let schedulerReward := satAdd configuration.priorityFeeLamports (satSub baseFee burnedBaseFee)
      return ⟨satMul schedulerReward priorityMultiplier / satAdd costUnits 1,costUnits⟩

end SchedulerMetrics

end Jetstreamer.Plugin
