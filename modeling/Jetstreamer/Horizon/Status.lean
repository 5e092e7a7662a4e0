import Jetstreamer.Horizon.Transactions
set_option autoImplicit false

namespace Jetstreamer.Horizon

inductive InstructionError where
  | genericError
  | invalidArgument
  | invalidInstructionData
  | invalidAccountData
  | accountDataTooSmall
  | insufficientFunds
  | incorrectProgramId
  | missingRequiredSignature
  | accountAlreadyInitialized
  | uninitializedAccount
  | unbalancedInstruction
  | modifiedProgramId
  | externalAccountLamportSpend
  | externalAccountDataModified
  | readonlyLamportChange
  | readonlyDataModified
  | duplicateAccountIndex
  | executableModified
  | rentEpochModified
  | notEnoughAccountKeys
  | accountDataSizeChanged
  | accountNotExecutable
  | accountBorrowFailed
  | accountBorrowOutstanding
  | duplicateAccountOutOfSync
  | custom (code : UInt32)
  | invalidError
  | executableDataModified
  | executableLamportChange
  | executableAccountNotRentExempt
  | unsupportedProgramId
  | callDepth
  | missingAccount
  | reentrancyNotAllowed
  | maxSeedLengthExceeded
  | invalidSeeds
  | invalidRealloc
  | computationalBudgetExceeded
  | privilegeEscalation
  | programEnvironmentSetupFailure
  | programFailedToComplete
  | programFailedToCompile
  | immutable
  | incorrectAuthority
  | borshIoError
  | accountNotRentExempt
  | invalidAccountOwner
  | arithmeticOverflow
  | unsupportedSysvar
  | illegalOwner
  | maxAccountsDataAllocationsExceeded
  | maxAccountsExceeded
  | maxInstructionTraceLengthExceeded
  | builtinProgramsMustConsumeComputeUnits
  deriving DecidableEq

inductive TransactionError where
  | accountInUse
  | accountLoadedTwice
  | accountNotFound
  | programAccountNotFound
  | insufficientFundsForFee
  | invalidAccountForFee
  | alreadyProcessed
  | blockhashNotFound
  | instructionError (index : UInt8) (e : InstructionError)
  | callChainTooDeep
  | missingSignatureForFee
  | invalidAccountIndex
  | signatureFailure
  | invalidProgramForExecution
  | sanitizeFailure
  | clusterMaintenance
  | accountBorrowOutstanding
  | wouldExceedMaxBlockCostLimit
  | unsupportedVersion
  | invalidWritableAccount
  | wouldExceedMaxAccountCostLimit
  | wouldExceedAccountDataBlockLimit
  | tooManyAccountLocks
  | addressLookupTableNotFound
  | invalidAddressLookupTableOwner
  | invalidAddressLookupTableData
  | invalidAddressLookupTableIndex
  | invalidRentPayingAccount
  | wouldExceedMaxVoteCostLimit
  | wouldExceedAccountDataTotalLimit
  | duplicateInstruction (index : UInt8)
  | insufficientFundsForRent (accountIndex : UInt8)
  | maxLoadedAccountsDataSizeExceeded
  | invalidLoadedAccountsDataSizeLimit
  | resanitizationNeeded
  | programExecutionTemporarilyRestricted (accountIndex : UInt8)
  | unbalancedTransaction
  | programCacheHitMaxLimit
  | commitCancelled
  deriving DecidableEq

inductive ConvertError where
  | capacityExceeded (field : String) (len max : Nat)
  | invalidAddress (field : String)
  | invalidTokenAmount
  | unknownErrorCode (errorCode : UInt16)
  /-- Not an error of the source: an assertion of `push` that stops the process. -/
  | panics
  deriving DecidableEq, Repr

/-- The frozen code of each error of a transaction. -/
def txErrorCode : TransactionError → UInt16
  | .accountInUse => 0
  | .accountLoadedTwice => 1
  | .accountNotFound => 2
  | .programAccountNotFound => 3
  | .insufficientFundsForFee => 4
  | .invalidAccountForFee => 5
  | .alreadyProcessed => 6
  | .blockhashNotFound => 7
  | .instructionError .. => 8
  | .callChainTooDeep => 9
  | .missingSignatureForFee => 10
  | .invalidAccountIndex => 11
  | .signatureFailure => 12
  | .invalidProgramForExecution => 13
  | .sanitizeFailure => 14
  | .clusterMaintenance => 15
  | .accountBorrowOutstanding => 16
  | .wouldExceedMaxBlockCostLimit => 17
  | .unsupportedVersion => 18
  | .invalidWritableAccount => 19
  | .wouldExceedMaxAccountCostLimit => 20
  | .wouldExceedAccountDataBlockLimit => 21
  | .tooManyAccountLocks => 22
  | .addressLookupTableNotFound => 23
  | .invalidAddressLookupTableOwner => 24
  | .invalidAddressLookupTableData => 25
  | .invalidAddressLookupTableIndex => 26
  | .invalidRentPayingAccount => 27
  | .wouldExceedMaxVoteCostLimit => 28
  | .wouldExceedAccountDataTotalLimit => 29
  | .duplicateInstruction .. => 30
  | .insufficientFundsForRent .. => 31
  | .maxLoadedAccountsDataSizeExceeded => 32
  | .invalidLoadedAccountsDataSizeLimit => 33
  | .resanitizationNeeded => 34
  | .programExecutionTemporarilyRestricted .. => 35
  | .unbalancedTransaction => 36
  | .programCacheHitMaxLimit => 37
  | .commitCancelled => 38

/-- The frozen code of each error of an instruction. -/
def instructionErrorCode : InstructionError → UInt16
  | .genericError => 0
  | .invalidArgument => 1
  | .invalidInstructionData => 2
  | .invalidAccountData => 3
  | .accountDataTooSmall => 4
  | .insufficientFunds => 5
  | .incorrectProgramId => 6
  | .missingRequiredSignature => 7
  | .accountAlreadyInitialized => 8
  | .uninitializedAccount => 9
  | .unbalancedInstruction => 10
  | .modifiedProgramId => 11
  | .externalAccountLamportSpend => 12
  | .externalAccountDataModified => 13
  | .readonlyLamportChange => 14
  | .readonlyDataModified => 15
  | .duplicateAccountIndex => 16
  | .executableModified => 17
  | .rentEpochModified => 18
  | .notEnoughAccountKeys => 19
  | .accountDataSizeChanged => 20
  | .accountNotExecutable => 21
  | .accountBorrowFailed => 22
  | .accountBorrowOutstanding => 23
  | .duplicateAccountOutOfSync => 24
  | .custom .. => 25
  | .invalidError => 26
  | .executableDataModified => 27
  | .executableLamportChange => 28
  | .executableAccountNotRentExempt => 29
  | .unsupportedProgramId => 30
  | .callDepth => 31
  | .missingAccount => 32
  | .reentrancyNotAllowed => 33
  | .maxSeedLengthExceeded => 34
  | .invalidSeeds => 35
  | .invalidRealloc => 36
  | .computationalBudgetExceeded => 37
  | .privilegeEscalation => 38
  | .programEnvironmentSetupFailure => 39
  | .programFailedToComplete => 40
  | .programFailedToCompile => 41
  | .immutable => 42
  | .incorrectAuthority => 43
  | .borshIoError => 44
  | .accountNotRentExempt => 45
  | .invalidAccountOwner => 46
  | .arithmeticOverflow => 47
  | .unsupportedSysvar => 48
  | .illegalOwner => 49
  | .maxAccountsDataAllocationsExceeded => 50
  | .maxAccountsExceeded => 51
  | .maxInstructionTraceLengthExceeded => 52
  | .builtinProgramsMustConsumeComputeUnits => 53

/-- The errors of an instruction in the order of their codes. -/
def instructionErrors (customErrorCode : UInt32) : List InstructionError :=
  [.genericError,.invalidArgument,.invalidInstructionData,.invalidAccountData,.accountDataTooSmall,
    .insufficientFunds,.incorrectProgramId,.missingRequiredSignature,.accountAlreadyInitialized,
    .uninitializedAccount,.unbalancedInstruction,.modifiedProgramId,.externalAccountLamportSpend,
    .externalAccountDataModified,.readonlyLamportChange,.readonlyDataModified,
    .duplicateAccountIndex,.executableModified,.rentEpochModified,.notEnoughAccountKeys,
    .accountDataSizeChanged,.accountNotExecutable,.accountBorrowFailed,.accountBorrowOutstanding,
    .duplicateAccountOutOfSync,.custom customErrorCode,.invalidError,.executableDataModified,
    .executableLamportChange,.executableAccountNotRentExempt,.unsupportedProgramId,.callDepth,
    .missingAccount,.reentrancyNotAllowed,.maxSeedLengthExceeded,.invalidSeeds,.invalidRealloc,
    .computationalBudgetExceeded,.privilegeEscalation,.programEnvironmentSetupFailure,
    .programFailedToComplete,.programFailedToCompile,.immutable,.incorrectAuthority,.borshIoError,
    .accountNotRentExempt,.invalidAccountOwner,.arithmeticOverflow,.unsupportedSysvar,.illegalOwner,
    .maxAccountsDataAllocationsExceeded,.maxAccountsExceeded,.maxInstructionTraceLengthExceeded,
    .builtinProgramsMustConsumeComputeUnits]

def instructionErrorFromCode (code : UInt16) (customErrorCode : UInt32) :
    Except ConvertError InstructionError :=
  match (instructionErrors customErrorCode)[code.toNat]? with
  | some e => .ok e
  | none => .error (.unknownErrorCode ((code + 1) <<< 8))

/-- The errors of a transaction in the order of their codes, with the payloads they may carry. -/
def transactionErrors (index : UInt8) (e : InstructionError) : List TransactionError :=
  [.accountInUse,.accountLoadedTwice,.accountNotFound,.programAccountNotFound,
    .insufficientFundsForFee,.invalidAccountForFee,.alreadyProcessed,.blockhashNotFound,
    .instructionError index e,.callChainTooDeep,.missingSignatureForFee,.invalidAccountIndex,
    .signatureFailure,.invalidProgramForExecution,.sanitizeFailure,.clusterMaintenance,
    .accountBorrowOutstanding,.wouldExceedMaxBlockCostLimit,.unsupportedVersion,
    .invalidWritableAccount,.wouldExceedMaxAccountCostLimit,.wouldExceedAccountDataBlockLimit,
    .tooManyAccountLocks,.addressLookupTableNotFound,.invalidAddressLookupTableOwner,
    .invalidAddressLookupTableData,.invalidAddressLookupTableIndex,.invalidRentPayingAccount,
    .wouldExceedMaxVoteCostLimit,.wouldExceedAccountDataTotalLimit,.duplicateInstruction index,
    .insufficientFundsForRent index,.maxLoadedAccountsDataSizeExceeded,
    .invalidLoadedAccountsDataSizeLimit,.resanitizationNeeded,
    .programExecutionTemporarilyRestricted index,.unbalancedTransaction,.programCacheHitMaxLimit,
    .commitCancelled]

def TransactionStatus.ok : TransactionStatus := ⟨0,0,0,.empty⟩

def TransactionStatus.isOk (status : TransactionStatus) : Bool := status.errorCode == 0

def statusFromResult : Except TransactionError Unit → TransactionStatus
  | .ok () => .ok
  | .error e =>
    let status : TransactionStatus := ⟨txErrorCode e + 1,0,0,.empty⟩
    match e with
    | .instructionError index (.custom code) => { status with
        errorCode := status.errorCode ||| (instructionErrorCode (.custom code) + 1) <<< 8
        instructionIndex := index
        customErrorCode := code }
    | .instructionError index ie => { status with
        errorCode := status.errorCode ||| (instructionErrorCode ie + 1) <<< 8
        instructionIndex := index }
    | .duplicateInstruction index | .insufficientFundsForRent index
    | .programExecutionTemporarilyRestricted index => { status with instructionIndex := index }
    | _ => status

/-- A code whose low byte is 0 wraps around to one that no error has. -/
def resultFromStatus (status : TransactionStatus) :
    Except ConvertError (Except TransactionError Unit) :=
  if status.errorCode = 0 then .ok (.ok ())
  else
    let txCode := (status.errorCode &&& 255) - 1
    let ieCode := status.errorCode >>> 8
    if txCode = 8 then
      if ieCode = 0 then .error (.unknownErrorCode status.errorCode)
      else do
        let e ← instructionErrorFromCode (ieCode - 1) status.customErrorCode
        return .error (.instructionError status.instructionIndex e)
    else
      match (transactionErrors status.instructionIndex .genericError)[txCode.toNat]? with
      | some e => if ieCode = 0 then .ok (.error e) else .error (.unknownErrorCode status.errorCode)
      | none => .error (.unknownErrorCode status.errorCode)

section Codes

variable (e : InstructionError)

theorem instructionErrorFromCode_code (customErrorCode : UInt32)
    (hcustom : ∀ code, e = .custom code → code = customErrorCode) :
    instructionErrorFromCode (instructionErrorCode e) customErrorCode = .ok e := by
  cases e with
  | custom code =>
    rw [hcustom code rfl]
    rfl
  | _ => rfl

/-- The code of an instruction's error as its transaction carries it. -/
def combinedCode : UInt16 := (9 : UInt16) ||| (instructionErrorCode e + 1) <<< 8

theorem combinedCode_bytes : combinedCode e ≠ 0 ∧ (combinedCode e &&& 255) - 1 = 8 ∧
    combinedCode e >>> 8 ≠ 0 ∧ (combinedCode e >>> 8) - 1 = instructionErrorCode e := by
  cases e <;> simp only [combinedCode,instructionErrorCode] <;> decide

end Codes

theorem statusFromResult_instructionError (index : UInt8) (e : InstructionError) :
    ∃ customErrorCode, (∀ code, e = .custom code → code = customErrorCode) ∧
      statusFromResult (.error (.instructionError index e)) =
        ⟨combinedCode e,index,customErrorCode,.empty⟩ := by
  cases e with
  | custom code => exact ⟨code,fun _ h => (InstructionError.custom.inj h).symm,rfl⟩
  | _ => exact ⟨0,(fun _ h => nomatch h),rfl⟩

theorem resultFromStatus_statusFromResult (result : Except TransactionError Unit) :
    resultFromStatus (statusFromResult result) = .ok result := by
  cases result with
  | ok u => rfl
  | error e =>
    cases e with
    | instructionError index ie =>
      obtain ⟨customErrorCode,hcustom,hstatus⟩ := statusFromResult_instructionError index ie
      obtain ⟨hne,hlow,hhigh,hcode⟩ := combinedCode_bytes ie
      rw [hstatus]
      simp only [resultFromStatus,hne,hlow,hhigh,hcode,if_true,if_false,
        instructionErrorFromCode_code ie customErrorCode hcustom]
      rfl
    | duplicateInstruction index | insufficientFundsForRent index
    | programExecutionTemporarilyRestricted index =>
      simp +decide [statusFromResult,resultFromStatus,txErrorCode,transactionErrors]
    | _ => rfl

theorem statusFromResult_isOk (result : Except TransactionError Unit) :
    (statusFromResult result).isOk = result.isOk := by
  cases result with
  | ok u => rfl
  | error e =>
    cases e with
    | instructionError index ie =>
      obtain ⟨customErrorCode,-,hstatus⟩ := statusFromResult_instructionError index ie
      rw [hstatus]
      exact beq_eq_false_iff_ne.mpr (combinedCode_bytes ie).1
    | _ => rfl

section Checked

def checkedAdd16 (a b : UInt16) : Option UInt16 :=
  if a.toNat + b.toNat < 2 ^ 16 then some (a + b) else none

def checkedSub16 (a b : UInt16) : Option UInt16 := if b ≤ a then some (a - b) else none

/-- `instruction_error_from_code` where overflow traps: `none` is the trap. -/
def instructionErrorFromCodeChecked (code : UInt16) (customErrorCode : UInt32) :
    Option (Except ConvertError InstructionError) :=
  match (instructionErrors customErrorCode)[code.toNat]? with
  | some e => some (.ok e)
  | none => do
    let next ← checkedAdd16 code 1
    return .error (.unknownErrorCode (next <<< 8))

/-- `result_from_status` where overflow traps. -/
def resultFromStatusChecked (status : TransactionStatus) :
    Option (Except ConvertError (Except TransactionError Unit)) :=
  if status.errorCode = 0 then some (.ok (.ok ()))
  else do
    let txCode ← checkedSub16 (status.errorCode &&& 255) 1
    let ieCode := status.errorCode >>> 8
    if txCode = 8 then
      if ieCode = 0 then return .error (.unknownErrorCode status.errorCode)
      else
        let code ← checkedSub16 ieCode 1
        let e ← instructionErrorFromCodeChecked code status.customErrorCode
        return e.map fun e => .error (.instructionError status.instructionIndex e)
    else
      match (transactionErrors status.instructionIndex .genericError)[txCode.toNat]? with
      | some e =>
        if ieCode = 0 then return .ok (.error e)
        else return .error (.unknownErrorCode status.errorCode)
      | none => return .error (.unknownErrorCode status.errorCode)

theorem code_of_get {α : Type} {code : α → UInt16} {table : List α} {n k : Nat} {e : α}
    (htable : table.map (fun e => (code e).toNat) = List.range k) (h : table[n]? = some e) :
    (code e).toNat = n := by
  have hget := congrArg (fun codes => codes[n]?) htable
  rw [List.getElem?_map,h,Option.map_some,List.getElem?_range] at hget
  · exact Option.some.inj hget
  · have hlt := (List.getElem?_eq_some_iff.mp h).1
    have hlen := congrArg List.length htable
    rw [List.length_map,List.length_range] at hlen
    omega

theorem instructionErrorCode_of_get {customErrorCode : UInt32} {n : Nat} {e : InstructionError}
    (h : (instructionErrors customErrorCode)[n]? = some e) : (instructionErrorCode e).toNat = n :=
  code_of_get (show _ = List.range 54 from rfl) h

theorem txErrorCode_of_get {index : UInt8} {ie : InstructionError} {n : Nat} {e : TransactionError}
    (h : (transactionErrors index ie)[n]? = some e) : (txErrorCode e).toNat = n :=
  code_of_get (show _ = List.range 39 from rfl) h

variable (code : UInt16)

theorem toNat_low : (code &&& 255).toNat = code.toNat % 256 := by
  rw [UInt16.toNat_and]
  exact Nat.and_two_pow_sub_one_eq_mod code.toNat 8

theorem toNat_high : (code >>> 8).toNat = code.toNat / 256 := by
  rw [UInt16.toNat_shiftRight]
  exact Nat.shiftRight_eq_div_pow code.toNat 8

variable {code}

theorem toNat_pred (h : code ≠ 0) : (code - 1).toNat = code.toNat - 1 := by
  have hpos : code.toNat ≠ 0 := fun hzero => h (UInt16.toNat_inj.mp hzero)
  rw [UInt16.toNat_sub_of_le _ _ (by rw [UInt16.le_iff_toNat_le]; change 1 ≤ _; omega)]
  rfl

theorem checkedSub16_one (h : code ≠ 0) : checkedSub16 code 1 = some (code - 1) := by
  have hpos : code.toNat ≠ 0 := fun hzero => h (UInt16.toNat_inj.mp hzero)
  rw [checkedSub16,if_pos]
  rw [UInt16.le_iff_toNat_le]
  change 1 ≤ _
  omega

theorem instructionErrorFromCodeChecked_eq (customErrorCode : UInt32)
    (h : code.toNat < 2 ^ 16 - 1) :
    instructionErrorFromCodeChecked code customErrorCode =
      some (instructionErrorFromCode code customErrorCode) := by
  unfold instructionErrorFromCodeChecked instructionErrorFromCode
  cases (instructionErrors customErrorCode)[code.toNat]? with
  | some e => rfl
  | none =>
    have hroom : checkedAdd16 code 1 = some (code + 1) := by
      rw [checkedAdd16,if_pos]
      change code.toNat + 1 < _
      omega
    rw [hroom]
    rfl

variable {status : TransactionStatus}

theorem resultFromStatusChecked_eq (h : status.errorCode = 0 ∨ status.errorCode &&& 255 ≠ 0) :
    resultFromStatusChecked status = some (resultFromStatus status) := by
  unfold resultFromStatusChecked resultFromStatus
  by_cases hzero : status.errorCode = 0
  · rw [if_pos hzero,if_pos hzero]
  · have hlow := h.resolve_left hzero
    rw [if_neg hzero,if_neg hzero,checkedSub16_one hlow]
    dsimp only [Option.bind_eq_bind,Option.bind_some]
    by_cases height : (status.errorCode &&& 255) - 1 = 8
    · rw [if_pos height,if_pos height]
      by_cases hhigh : status.errorCode >>> 8 = 0
      · rw [if_pos hhigh,if_pos hhigh]
        rfl
      · have hsmall : (status.errorCode >>> 8 - 1).toNat < 2 ^ 16 - 1 := by
          have := status.errorCode.toNat_lt
          rw [toNat_pred hhigh,toNat_high]
          omega
        rw [if_neg hhigh,if_neg hhigh,checkedSub16_one hhigh,Option.bind_some,
          instructionErrorFromCodeChecked_eq _ hsmall,Option.bind_some]
        cases instructionErrorFromCode (status.errorCode >>> 8 - 1) status.customErrorCode <;> rfl
    · rw [if_neg height,if_neg height]
      cases (transactionErrors status.instructionIndex
        .genericError)[((status.errorCode &&& 255) - 1).toNat]? with
      | none => rfl
      | some e =>
        by_cases hhigh : status.errorCode >>> 8 = 0
        · simp only [hhigh,if_true]
          rfl
        · simp only [hhigh,if_false]
          rfl

theorem resultFromStatusChecked_trap (hzero : status.errorCode ≠ 0)
    (hlow : status.errorCode &&& 255 = 0) : resultFromStatusChecked status = none := by
  rw [resultFromStatusChecked,if_neg hzero,hlow]
  rfl

theorem statusFromResult_low (result : Except TransactionError Unit) :
    (statusFromResult result).errorCode = 0 ∨ (statusFromResult result).errorCode &&& 255 ≠ 0 := by
  cases result with
  | ok u => exact .inl rfl
  | error e =>
    right
    cases e with
    | instructionError index ie =>
      obtain ⟨customErrorCode,-,hstatus⟩ := statusFromResult_instructionError index ie
      obtain ⟨-,hlow,-⟩ := combinedCode_bytes ie
      rw [hstatus]
      intro hzero
      rw [hzero] at hlow
      exact absurd hlow (by decide)
    | _ => simp +decide [statusFromResult,txErrorCode]

theorem statusFromResult_errorCode {e : TransactionError}
    (h : ∀ index ie, e ≠ .instructionError index ie) :
    (statusFromResult (.error e)).errorCode.toNat = (txErrorCode e).toNat + 1 := by
  cases e with
  | instructionError index ie => exact absurd rfl (h index ie)
  | _ => rfl

theorem combinedCode_toNat (e : InstructionError) :
    (combinedCode e).toNat = 9 + 256 * ((instructionErrorCode e).toNat + 1) := by
  cases e <;> simp only [combinedCode,instructionErrorCode] <;> decide

theorem errorCode_of_instructionError {index : UInt8} {ie : InstructionError}
    (hlow : (status.errorCode &&& 255) - 1 = 8) (hhigh : status.errorCode >>> 8 ≠ 0)
    (h : instructionErrorFromCode (status.errorCode >>> 8 - 1) status.customErrorCode = .ok ie) :
    (statusFromResult (.error (.instructionError index ie))).errorCode = status.errorCode := by
  obtain ⟨customErrorCode,-,hstatus⟩ := statusFromResult_instructionError index ie
  have hnine : (status.errorCode &&& 255).toNat = 9 := by
    rw [← UInt16.sub_add_cancel (status.errorCode &&& 255) 1,hlow]
    rfl
  have hcode : (instructionErrorCode ie).toNat = (status.errorCode >>> 8 - 1).toNat := by
    unfold instructionErrorFromCode at h
    split at h
    · rename_i hget
      cases h
      exact instructionErrorCode_of_get hget
    · cases h
  have hpos : (status.errorCode >>> 8).toNat ≠ 0 := fun hzero => hhigh (UInt16.toNat_inj.mp hzero)
  rw [toNat_pred hhigh] at hcode
  rw [toNat_low] at hnine
  rw [toNat_high] at hcode hpos
  rw [hstatus]
  apply UInt16.toNat_inj.mp
  rw [combinedCode_toNat,hcode]
  omega

theorem errorCode_of_txError {index : UInt8} {e : TransactionError}
    (hlow : (status.errorCode &&& 255) - 1 ≠ 8) (hhigh : status.errorCode >>> 8 = 0)
    (h : (transactionErrors index .genericError)[((status.errorCode &&& 255) - 1).toNat]? =
      some e) :
    (statusFromResult (.error e)).errorCode = status.errorCode := by
  have hcode := txErrorCode_of_get h
  have hplain : ∀ index ie, e ≠ .instructionError index ie := by
    rintro index ie rfl
    exact hlow (UInt16.toNat_inj.mp hcode.symm)
  have hbound := (List.getElem?_eq_some_iff.mp h).1
  have hlowpos : status.errorCode &&& 255 ≠ 0 := by
    intro hzero
    rw [hzero] at hbound
    exact absurd hbound (by simp [transactionErrors])
  have hpos : (status.errorCode &&& 255).toNat ≠ 0 :=
    fun hzero => hlowpos (UInt16.toNat_inj.mp hzero)
  have hnone := congrArg UInt16.toNat hhigh
  rw [toNat_high] at hnone
  change _ = 0 at hnone
  apply UInt16.toNat_inj.mp
  rw [statusFromResult_errorCode hplain,hcode,toNat_pred hlowpos]
  rw [toNat_low] at hpos ⊢
  omega

theorem resultFromStatus_errorCode {result : Except TransactionError Unit}
    (h : resultFromStatus status = .ok result) :
    (statusFromResult result).errorCode = status.errorCode := by
  unfold resultFromStatus at h
  split at h
  · rename_i hzero
    cases h
    exact hzero.symm
  · dsimp only at h
    split at h
    · rename_i hlow
      split at h
      · cases h
      · rename_i hhigh
        cases hie : instructionErrorFromCode
          (status.errorCode >>> 8 - 1) status.customErrorCode with
        | error err =>
          rw [hie] at h
          cases h
        | ok ie =>
          rw [hie] at h
          cases h
          exact errorCode_of_instructionError hlow hhigh hie
    · rename_i hlow
      split at h
      · rename_i hget
        split at h
        · rename_i hhigh
          cases h
          exact errorCode_of_txError hlow hhigh hget
        · cases h
      · cases h

end Checked

/-- A stored status that is read without a trap, and never as what has another code. -/
def ReadFaithfully (status : TransactionStatus) : Prop :=
  ∃ result, resultFromStatusChecked status = some result ∧
    ∀ r, result = .ok r → (statusFromResult r).errorCode = status.errorCode

/-- Every result survives its code, and a stored code is read faithfully exactly when it is 0 or
its low byte is not. -/
theorem statusCodes_faithful (result : Except TransactionError Unit) (status : TransactionStatus) :
    resultFromStatusChecked (statusFromResult result) = some (.ok result) ∧
      (ReadFaithfully status ↔ status.errorCode = 0 ∨ status.errorCode &&& 255 ≠ 0) := by
  refine ⟨?_,?_,fun h => ?_⟩
  · rw [resultFromStatusChecked_eq (statusFromResult_low result),resultFromStatus_statusFromResult]
  · rintro ⟨result,hresult,-⟩
    by_contra hnot
    rw [not_or,not_not] at hnot
    rw [resultFromStatusChecked_trap hnot.1 hnot.2] at hresult
    cases hresult
  · exact ⟨_,resultFromStatusChecked_eq h,fun r hr => resultFromStatus_errorCode hr⟩

/-- An instruction's error without a transaction's: the subtraction underflows. -/
theorem not_readFaithfully_256 : ¬ReadFaithfully ⟨256,0,0,.empty⟩ := by
  rintro ⟨result,hresult,-⟩
  cases hresult

end Jetstreamer.Horizon
