import Jetstreamer.Plugin.BudgetRequests
set_option autoImplicit false

namespace Jetstreamer.Plugin
open Lib Horizon

namespace SchedulerMetrics

variable {ids : SdkIds} {accounts : ResolvedAccounts}

/-- Programs that verify the signatures in their instruction data. -/
inductive Precompile where
  | secp256k1
  | ed25519
  | secp256r1

def SignatureDetails.verified (d : SignatureDetails) : Precompile → UInt64
  | .secp256k1 => d.secp256k1
  | .ed25519 => d.ed25519
  | .secp256r1 => d.secp256r1

variable {d : SignatureDetails} {instructions : List InstructionView} {c : SchedulerConfiguration}
  {v1Config : Option V1TransactionConfig} {numSignatures : Nat} {header : MessageHeader}
  {isLegacy : Bool}

theorem SignatureDetails.ext_verified {d' : SignatureDetails}
    (ht : d.transaction = d'.transaction) (h : ∀ kind, d.verified kind = d'.verified kind) :
    d = d' := by
  have h1 := h .secp256k1
  have h2 := h .ed25519
  have h3 := h .secp256r1
  cases d
  cases d'
  simp_all [SignatureDetails.verified]

section Signatures

variable (ids accounts)

def precompile (p : Address) : Option Precompile :=
  if p = ids.secp256k1Program then some .secp256k1
  else if p = ids.ed25519Program then some .ed25519
  else if p = ids.secp256r1Program then some .secp256r1
  else none

/-- The first byte of the data is the number of signatures to verify. -/
def signaturesOf (kind : Precompile) (ix : InstructionView) : Nat :=
  match (program accounts ix).bind (precompile ids), kind with
  | some .secp256k1, .secp256k1 | some .ed25519, .ed25519 | some .secp256r1, .secp256r1 =>
    (ix.data.headD 0).toNat
  | _, _ => 0

def signatures (kind : Precompile) (instructions : List InstructionView) : Nat :=
  (instructions.map (signaturesOf ids accounts kind)).sum

def instructionDataLen (instructions : List InstructionView) : Nat :=
  (instructions.map (·.data.length)).sum

variable {ids accounts}

theorem addSignatures_verified (d : SignatureDetails) (ix : InstructionView) (kind : Precompile) :
    ((addSignatures ids accounts d ix).verified kind).toNat =
      ((d.verified kind).toNat + signaturesOf ids accounts kind ix) % 2 ^ 64 := by
  have hlt := (d.verified kind).toNat_lt
  unfold addSignatures signaturesOf program
  cases accounts.get ix.programIdIndex.toNat with
  | none => exact (Nat.mod_eq_of_lt hlt).symm
  | some p =>
    simp only [Option.bind_some,precompile]
    split_ifs <;> cases kind <;>
      simp [SignatureDetails.verified,Nat.mod_eq_of_lt (UInt64.toNat_lt _)]

theorem addSignatures_transaction (d : SignatureDetails) (ix : InstructionView) :
    (addSignatures ids accounts d ix).transaction = d.transaction := by
  unfold addSignatures
  cases accounts.get ix.programIdIndex.toNat with
  | none => rfl
  | some p =>
    dsimp only
    split_ifs <;> rfl

theorem signatureDetails_transaction (n : UInt64) (instructions : List InstructionView) :
    (signatureDetails ids n accounts instructions).transaction = n := by
  unfold signatureDetails
  generalize hd : (⟨n,0,0,0⟩ : SignatureDetails) = d
  have hn : d.transaction = n := by rw [← hd]
  clear hd
  induction instructions generalizing d with
  | nil => exact hn
  | cons ix rest ih => exact ih _ ((addSignatures_transaction d ix).trans hn)

theorem signatureDetails_verified (n : UInt64) (instructions : List InstructionView)
    (kind : Precompile) :
    ((signatureDetails ids n accounts instructions).verified kind).toNat =
      signatures ids accounts kind instructions % 2 ^ 64 := by
  have hfold (d : SignatureDetails) :
      ((instructions.foldl (addSignatures ids accounts) d).verified kind).toNat =
        ((d.verified kind).toNat + signatures ids accounts kind instructions) % 2 ^ 64 := by
    induction instructions generalizing d with
    | nil => exact (Nat.mod_eq_of_lt (UInt64.toNat_lt _)).symm
    | cons ix rest ih =>
      rw [List.foldl_cons,ih,addSignatures_verified]
      simp only [signatures,List.map_cons,List.sum_cons]
      omega
  rw [signatureDetails,hfold]
  cases kind <;> simp [SignatureDetails.verified]

theorem signaturesOf_le (kind : Precompile) (ix : InstructionView) :
    signaturesOf ids accounts kind ix ≤ 255 * ix.data.length := by
  have hhead : (ix.data.headD 0).toNat ≤ 255 * ix.data.length := by
    cases hdata : ix.data with
    | nil => simp
    | cons b rest =>
      have := b.toNat_lt
      simp only [List.headD_cons,List.length_cons]
      omega
  unfold signaturesOf
  split <;> first | exact hhead | exact Nat.zero_le _

theorem signatures_le (kind : Precompile) (instructions : List InstructionView) :
    signatures ids accounts kind instructions ≤ 255 * instructionDataLen instructions := by
  induction instructions with
  | nil => exact Nat.le_refl 0
  | cons ix rest ih =>
    have : signaturesOf ids accounts kind ix ≤ 255 * ix.data.length := signaturesOf_le kind ix
    simp only [signatures,instructionDataLen,List.map_cons,List.sum_cons] at ih ⊢
    omega

theorem signatureDetails_exact {instructions : List InstructionView}
    (h : instructionDataLen instructions < 65536) (n : UInt64) (kind : Precompile) :
    ((signatureDetails ids n accounts instructions).verified kind).toNat =
      signatures ids accounts kind instructions := by
  have : signatures ids accounts kind instructions ≤ 255 * instructionDataLen instructions :=
    signatures_le kind instructions
  rw [signatureDetails_verified]
  omega

theorem signatureDetails_perm {instructions other : List InstructionView}
    (h : instructions.Perm other) (n : UInt64) :
    signatureDetails ids n accounts instructions = signatureDetails ids n accounts other := by
  have hverified (kind : Precompile) :
      (signatureDetails ids n accounts instructions).verified kind =
        (signatureDetails ids n accounts other).verified kind := by
    refine UInt64.toNat_inj.mp ?_
    rw [signatureDetails_verified,signatureDetails_verified,signatures,(h.map _).sum_eq]
    rfl
  refine SignatureDetails.ext_verified ?_ hverified
  rw [signatureDetails_transaction,signatureDetails_transaction]

end Signatures

/-- The number of accounts a transaction names, static or loaded. -/
def accountCount (accounts : ResolvedAccounts) : Nat :=
  accounts.staticKeys.length + accounts.loadedWritable.length + accounts.loadedReadonly.length

/-! The cost model in unbounded numbers. -/

section Exact

variable (ids : SdkIds) (header : MessageHeader) (v1Config : Option V1TransactionConfig)
  (accounts : ResolvedAccounts) (instructions : List InstructionView)

def exactSignatures : Nat :=
  header.numRequiredSignatures.toNat + signatures ids accounts .secp256k1 instructions +
    signatures ids accounts .ed25519 instructions + signatures ids accounts .secp256r1 instructions

def exactSignatureCost : Nat :=
  720 * header.numRequiredSignatures.toNat +
    6690 * signatures ids accounts .secp256k1 instructions +
    2400 * signatures ids accounts .ed25519 instructions +
    4800 * signatures ids accounts .secp256r1 instructions

def exactWriteLocks : Nat :=
  accountCount accounts - (header.numReadonlySignedAccounts.toNat +
    header.numReadonlyUnsignedAccounts.toNat + accounts.loadedReadonly.length)

/-- What was asked for, or else an allowance for each instruction; never more than the cap. -/
def exactComputeUnitLimit : Nat :=
  min 1400000 (match v1Config with
    | some config => (config.computeUnitLimit.map UInt32.toNat).getD 0
    | none => (requests ids accounts .computeUnitLimit instructions).head?.getD
        (3000 * instructions.countP (callsBuiltin ids accounts) +
          200000 * instructions.countP (callsOther ids accounts)))

def exactLoadedAccountsDataSize : Nat :=
  min 67108864 (match v1Config with
    | some config => (config.loadedAccountsDataSizeLimit.map UInt32.toNat).getD 0
    | none => (requests ids accounts .loadedAccountsDataSizeLimit instructions).head?.getD 67108864)

def exactCost : Nat :=
  exactSignatureCost ids header accounts instructions + 300 * exactWriteLocks header accounts +
    instructionDataLen instructions / 4 +
    exactComputeUnitLimit ids v1Config accounts instructions +
    8 * ((exactLoadedAccountsDataSize ids v1Config accounts instructions + 32767) / 32768)

/-- The price is in millionths of a lamport; the fee is rounded up. -/
def exactPriorityFee : Nat :=
  match v1Config with
  | some config => (config.priorityFee.map UInt64.toNat).getD 0
  | none =>
    ((requests ids accounts .computeUnitPrice instructions).head?.getD 0 *
      exactComputeUnitLimit ids none accounts instructions + 999999) / 1000000

def exactReward : Nat :=
  min (2 ^ 64 - 1) (exactPriorityFee ids v1Config accounts instructions +
    5000 * exactSignatures ids header accounts instructions / 2)

theorem exactLoadedAccountsDataSize_le :
    exactLoadedAccountsDataSize ids v1Config accounts instructions ≤ 67108864 :=
  min_le_left _ _

end Exact

def configurationOf (ids : SdkIds) (v1Config : Option V1TransactionConfig)
    (accounts : ResolvedAccounts) (instructions : List InstructionView) :
    Option SchedulerConfiguration :=
  match v1Config with
  | some config => schedulerConfigurationV1 config
  | none => schedulerConfigurationLegacyAndV0 ids accounts instructions

/-- The configuration in force is the exact one, the fee cut off at the end of its type. -/
structure Configured (ids : SdkIds) (v1Config : Option V1TransactionConfig)
    (accounts : ResolvedAccounts) (instructions : List InstructionView)
    (c : SchedulerConfiguration) : Prop where
  limit : c.computeUnitLimit.toNat = exactComputeUnitLimit ids v1Config accounts instructions
  fee : c.priorityFeeLamports.toNat =
    min (2 ^ 64 - 1) (exactPriorityFee ids v1Config accounts instructions)
  loaded : c.loadedAccountsDataSizeLimit.toNat =
    exactLoadedAccountsDataSize ids v1Config accounts instructions

theorem head_requests {kind : BudgetRequest} {r : Requested}
    (h : Collected ids accounts instructions r) :
    (requests ids accounts kind instructions).head? = r.asked kind := by
  rw [← h.asked]
  cases r.asked kind <;> rfl

theorem toNat_priorityFeeLamports (price : UInt64) (limit : UInt32) :
    (priorityFeeLamports price limit).toNat =
      min (2 ^ 64 - 1) ((price.toNat * limit.toNat + 999999) / 1000000) := by
  unfold priorityFeeLamports microLamportsPerLamport
  dsimp only
  split
  · rename_i h
    rw [UInt64.toNat_ofNat_of_lt' h]
    exact (min_eq_right (by omega)).symm
  · rw [UInt64.toNat_ofNat_of_lt' (by decide)]
    exact (min_eq_left (by omega)).symm

theorem schedulerConfigurationV1_exact {config : V1TransactionConfig}
    (h : schedulerConfigurationV1 config = some c) (instructions : List InstructionView) :
    Configured ids (some config) accounts instructions c := by
  unfold schedulerConfigurationV1 at h
  split at h
  · cases h
    refine ⟨?_,?_,?_⟩
    · rw [toNat_min32,min_comm,exactComputeUnitLimit]
      cases config.computeUnitLimit <;> rfl
    · cases hfee : config.priorityFee with
      | none => simp [exactPriorityFee,hfee]
      | some fee =>
        have := fee.toNat_lt
        simp only [exactPriorityFee,hfee,Option.getD_some,Option.map_some]
        omega
    · rw [toNat_min32,min_comm,exactLoadedAccountsDataSize]
      cases config.loadedAccountsDataSizeLimit <;> rfl
  · cases h

theorem toNat_requestedLimit {r : Requested} (h : Collected ids accounts instructions r) :
    (min (r.computeUnitLimit.getD
      (satAdd32 (satMul32 r.builtinInstructions maxBuiltinAllocationComputeUnitLimit)
        (satMul32 r.nonBuiltinInstructions defaultInstructionComputeUnitLimit)))
      maxComputeUnitLimit).toNat = exactComputeUnitLimit ids none accounts instructions := by
  have hcap : maxComputeUnitLimit.toNat = 1400000 := rfl
  rw [toNat_min32,hcap,exactComputeUnitLimit,head_requests h,Requested.asked]
  cases hlimit : r.computeUnitLimit with
  | some limit => exact min_comm _ _
  | none =>
    have hbuiltin : maxBuiltinAllocationComputeUnitLimit.toNat = 3000 := rfl
    have hother : defaultInstructionComputeUnitLimit.toNat = 200000 := rfl
    simp only [Option.getD_none,Option.map_none,toNat_satAdd32,toNat_satMul32,h.builtin,
      h.nonBuiltin,hbuiltin,hother]
    omega

theorem schedulerConfigurationLegacyAndV0_exact
    (h : schedulerConfigurationLegacyAndV0 ids accounts instructions = some c) :
    Configured ids none accounts instructions c := by
  unfold schedulerConfigurationLegacyAndV0 at h
  obtain ⟨r,hr,h⟩ := Option.bind_eq_some_iff.mp h
  have hcollected := (collect_eq_some hr).2
  have hlimit := toNat_requestedLimit hcollected
  split at h
  · cases h
  · have hfee : (priorityFeeLamports (r.computeUnitPrice.getD 0)
        (min (r.computeUnitLimit.getD
          (satAdd32 (satMul32 r.builtinInstructions maxBuiltinAllocationComputeUnitLimit)
            (satMul32 r.nonBuiltinInstructions defaultInstructionComputeUnitLimit)))
          maxComputeUnitLimit)).toNat =
        min (2 ^ 64 - 1) (exactPriorityFee ids none accounts instructions) := by
      rw [toNat_priorityFeeLamports,hlimit,exactPriorityFee,head_requests hcollected,
        Requested.asked]
      cases r.computeUnitPrice <;> rfl
    have hloaded : (requests ids accounts .loadedAccountsDataSizeLimit instructions).head? =
        r.loadedAccountsDataSizeLimit.map UInt32.toNat := head_requests hcollected
    cases hsize : r.loadedAccountsDataSizeLimit with
    | none =>
      simp only [hsize] at h hloaded
      cases h
      exact ⟨hlimit,hfee,by rw [exactLoadedAccountsDataSize,hloaded]; rfl⟩
    | some bytes =>
      simp only [hsize] at h hloaded
      split at h
      · cases h
      · cases h
        refine ⟨hlimit,hfee,?_⟩
        rw [toNat_min32,exactLoadedAccountsDataSize,hloaded]
        exact min_comm _ _

theorem configurationOf_exact (h : configurationOf ids v1Config accounts instructions = some c) :
    Configured ids v1Config accounts instructions c := by
  cases v1Config with
  | some config => exact schedulerConfigurationV1_exact h instructions
  | none => exact schedulerConfigurationLegacyAndV0_exact h

theorem calculate_eq_some {m : Metrics}
    (h : calculate ids numSignatures header isLegacy v1Config accounts instructions = some m) :
    ∃ c, configurationOf ids v1Config accounts instructions = some c ∧
      instructionDataLen instructions < 65536 ∧
      m.costUnits = satAdd (satAdd (satAdd (satAdd
        (signatureDetails ids header.numRequiredSignatures.toUInt64 accounts instructions).cost
        (satMul (UInt64.ofNat (exactWriteLocks header accounts)) writeLockUnits))
        (UInt64.ofNat (instructionDataLen instructions / instructionDataBytesCost)))
        c.computeUnitLimit.toUInt64) (satMul (satAdd c.loadedAccountsDataSizeLimit.toUInt64
          (accountDataCostPageSize - 1) / accountDataCostPageSize) defaultHeapCost) ∧
      m.priority = satMul (satAdd c.priorityFeeLamports (satSub
        (satMul (signatureDetails ids header.numRequiredSignatures.toUInt64 accounts
          instructions).total lamportsPerSignature)
        (satMul (satMul (signatureDetails ids header.numRequiredSignatures.toUInt64 accounts
          instructions).total lamportsPerSignature) baseFeeBurnPercent / 100)))
        priorityMultiplier / satAdd m.costUnits 1 := by
  unfold calculate at h
  dsimp only at h
  split at h
  · cases h
  split at h
  · cases h
  split at h
  · cases h
  cases v1Config with
  | some config =>
    obtain ⟨c,hc,h⟩ := Option.bind_eq_some_iff.mp h
    split at h
    · cases h
    split at h
    · cases h
    cases h
    exact ⟨c,hc,by unfold instructionDataLen; omega,rfl,rfl⟩
  | none =>
    obtain ⟨c,hc,h⟩ := Option.bind_eq_some_iff.mp h
    split at h
    · cases h
    split at h
    · cases h
    cases h
    exact ⟨c,hc,by unfold instructionDataLen; omega,rfl,rfl⟩

/-- What the details of a transaction count, each count far from the end of its type. -/
structure Counted (ids : SdkIds) (header : MessageHeader) (accounts : ResolvedAccounts)
    (instructions : List InstructionView) (d : SignatureDetails) : Prop where
  transaction : d.transaction.toNat = header.numRequiredSignatures.toNat
  verified : ∀ kind, (d.verified kind).toNat = signatures ids accounts kind instructions
  bound : ∀ kind, signatures ids accounts kind instructions < 2 ^ 24

theorem signatureDetails_counted
    (h : instructionDataLen instructions < 65536) (header : MessageHeader) :
    Counted ids header accounts instructions
      (signatureDetails ids header.numRequiredSignatures.toUInt64 accounts instructions) := by
  refine ⟨?_,signatureDetails_exact h _,fun kind => ?_⟩
  · rw [signatureDetails_transaction,UInt8.toNat_toUInt64]
  · have : signatures ids accounts kind instructions ≤ 255 * instructionDataLen instructions :=
      signatures_le kind instructions
    omega

section

variable (h : Counted ids header accounts instructions d)
include h

theorem Counted.cost :
    d.cost.toNat = exactSignatureCost ids header accounts instructions := by
  have h1 := h.bound .secp256k1
  have h2 := h.bound .ed25519
  have h3 := h.bound .secp256r1
  have hrequired := header.numRequiredSignatures.toNat_lt
  have e1 : d.secp256k1.toNat = _ := h.verified .secp256k1
  have e2 : d.ed25519.toNat = _ := h.verified .ed25519
  have e3 : d.secp256r1.toNat = _ := h.verified .secp256r1
  have c0 : signatureCost.toNat = 720 := rfl
  have c1 : secp256k1VerifyCost.toNat = 6690 := rfl
  have c2 : ed25519VerifyStrictCost.toNat = 2400 := rfl
  have c3 : secp256r1VerifyCost.toNat = 4800 := rfl
  simp only [SignatureDetails.cost,exactSignatureCost,toNat_satAdd,toNat_satMul,h.transaction,
    e1,e2,e3,c0,c1,c2,c3]
  omega

theorem Counted.total :
    d.total.toNat = exactSignatures ids header accounts instructions := by
  have h1 := h.bound .secp256k1
  have h2 := h.bound .ed25519
  have h3 := h.bound .secp256r1
  have hrequired := header.numRequiredSignatures.toNat_lt
  have e1 : d.secp256k1.toNat = _ := h.verified .secp256k1
  have e2 : d.ed25519.toNat = _ := h.verified .ed25519
  have e3 : d.secp256r1.toNat = _ := h.verified .secp256r1
  simp only [SignatureDetails.total,exactSignatures,toNat_satAdd,h.transaction,e1,e2,e3]
  omega

theorem Counted.signatures_lt :
    exactSignatures ids header accounts instructions < 2 ^ 26 ∧
      exactSignatureCost ids header accounts instructions < 2 ^ 38 := by
  have h1 := h.bound .secp256k1
  have h2 := h.bound .ed25519
  have h3 := h.bound .secp256r1
  have hrequired := header.numRequiredSignatures.toNat_lt
  unfold exactSignatures exactSignatureCost
  omega

end

theorem exactCost_lt (hcounted : Counted ids header accounts instructions d)
    (hdata : instructionDataLen instructions < 65536) :
    exactCost ids header v1Config accounts instructions <
      2 ^ 39 + 300 * exactWriteLocks header accounts := by
  have hsignatures := hcounted.signatures_lt.2
  have hlimit : exactComputeUnitLimit ids v1Config accounts instructions ≤ 1400000 :=
    min_le_left _ _
  have hloaded := exactLoadedAccountsDataSize_le ids v1Config accounts instructions
  unfold exactCost
  omega

theorem costUnits_exact {m : Metrics} (hfew : accountCount accounts ≤ 2 ^ 55)
    (h : calculate ids numSignatures header isLegacy v1Config accounts instructions = some m) :
    m.costUnits.toNat = min (2 ^ 64 - 1) (exactCost ids header v1Config accounts instructions) := by
  obtain ⟨c,hc,hdata,hcost,-⟩ := calculate_eq_some h
  have hconfigured := configurationOf_exact hc
  have hcounted : Counted ids header accounts instructions _ :=
    signatureDetails_counted hdata header
  have hlocks : exactWriteLocks header accounts < 2 ^ 64 := by
    unfold exactWriteLocks
    omega
  have clock : writeLockUnits.toNat = 300 := rfl
  have cpage : (accountDataCostPageSize - 1).toNat = 32767 := rfl
  have csize : accountDataCostPageSize.toNat = 32768 := rfl
  have cheap : defaultHeapCost.toNat = 8 := rfl
  have hlocks64 : (UInt64.ofNat (exactWriteLocks header accounts)).toNat =
      exactWriteLocks header accounts := UInt64.toNat_ofNat_of_lt' hlocks
  have hdata64 : (UInt64.ofNat (instructionDataLen instructions / instructionDataBytesCost)).toNat =
      instructionDataLen instructions / 4 := by
    refine UInt64.toNat_ofNat_of_lt' ?_
    rw [UInt64.size]
    unfold instructionDataBytesCost
    omega
  have hpages := min_pages (exactLoadedAccountsDataSize_le ids v1Config accounts instructions)
  rw [hcost]
  simp only [toNat_satAdd,toNat_satMul,UInt64.toNat_div,UInt32.toNat_toUInt64,hcounted.cost,
    hconfigured.limit,hconfigured.loaded,hlocks64,hdata64,clock,cpage,csize,cheap,hpages,
    min_add_min,add_min_min,exactCost,Nat.mul_comm 300]

theorem priority_exact {m : Metrics}
    (h : calculate ids numSignatures header isLegacy v1Config accounts instructions = some m) :
    m.priority.toNat =
      min (2 ^ 64 - 1) (exactReward ids header v1Config accounts instructions * 1000000) /
        min (2 ^ 64 - 1) (m.costUnits.toNat + 1) := by
  obtain ⟨c,hc,hdata,-,hpriority⟩ := calculate_eq_some h
  have hconfigured := configurationOf_exact hc
  have hcounted : Counted ids header accounts instructions _ :=
    signatureDetails_counted hdata header
  have hsignatures := hcounted.signatures_lt.1
  have clamports : lamportsPerSignature.toNat = 5000 := rfl
  have cburn : baseFeeBurnPercent.toNat = 50 := rfl
  have chundred : (100 : UInt64).toNat = 100 := rfl
  have cmultiplier : priorityMultiplier.toNat = 1000000 := rfl
  have hreward : min (2 ^ 64 - 1) (min (2 ^ 64 - 1)
      (exactPriorityFee ids v1Config accounts instructions) +
        (min (2 ^ 64 - 1) (exactSignatures ids header accounts instructions * 5000) -
          min (2 ^ 64 - 1)
            (min (2 ^ 64 - 1) (exactSignatures ids header accounts instructions * 5000) * 50) /
            100)) = exactReward ids header v1Config accounts instructions := by
    unfold exactReward
    omega
  rw [hpriority]
  simp only [toNat_satAdd,toNat_satMul,toNat_satSub,UInt64.toNat_div,hcounted.total,
    hconfigured.fee,clamports,cburn,chundred,cmultiplier,UInt64.toNat_one,hreward]

theorem schedulerConfigurationLegacyAndV0_perm {other : List InstructionView}
    (h : instructions.Perm other) :
    schedulerConfigurationLegacyAndV0 ids accounts other =
      schedulerConfigurationLegacyAndV0 ids accounts instructions := by
  simp only [schedulerConfigurationLegacyAndV0]
  rw [collect_perm h]

theorem calculate_perm {other : List InstructionView} (h : instructions.Perm other) :
    calculate ids numSignatures header isLegacy v1Config accounts other =
      calculate ids numSignatures header isLegacy v1Config accounts instructions := by
  have hdangling (bad : InstructionView → Bool) : other.any bad = instructions.any bad := by
    refine Bool.eq_iff_iff.mpr ?_
    simp only [List.any_eq_true,h.mem_iff]
  have hdata : (other.map (·.data.length)).sum = (instructions.map (·.data.length)).sum :=
    (h.map _).sum_eq.symm
  simp only [calculate,hdangling,hdata,signatureDetails_perm h.symm,
    schedulerConfigurationLegacyAndV0_perm h]

end SchedulerMetrics

section Columns

open SchedulerMetrics

variable {ids : SdkIds} {accounts : ResolvedAccounts}

theorem requestOf_tag {ix : InstructionView} (h : Admissible ids accounts ix)
    (hprogram : program accounts ix = some ids.computeBudget) (kind : BudgetRequest)
    (htag : ix.data.head? = some kind.tag) :
    ∃ value, requestOf ids accounts kind ix = some value ∧ kind.decode ix.data = some value := by
  obtain ⟨p,hp,hask⟩ := h
  rw [hprogram] at hp
  obtain ⟨k,value,hvalue⟩ := hask (Option.some.inj hp).symm
  have hdecode := hvalue
  unfold requestOf at hdecode
  split at hdecode
  · rename_i hcall
    rw [htag,Option.some.injEq] at hcall
    cases BudgetRequest.tag_injective hcall.2
    exact ⟨value,hvalue,hdecode⟩
  · cases hdecode

theorem toNat_map_toUInt64 (o : Option UInt32) :
    (o.map UInt32.toUInt64).map UInt64.toNat = o.map UInt32.toNat := by
  cases o <;> simp

theorem InstructionTotals.add_columns (t : InstructionTotals) {ix : InstructionView}
    (h : Admissible ids accounts ix) :
    (t.add ids false accounts ix).cuLimit.map UInt64.toNat =
        (requestOf ids accounts .computeUnitLimit ix).or (t.cuLimit.map UInt64.toNat) ∧
      (t.add ids false accounts ix).cuPrice.map UInt64.toNat =
        (requestOf ids accounts .computeUnitPrice ix).or (t.cuPrice.map UInt64.toNat) := by
  obtain ⟨p,hprogram,-⟩ := id h
  have hget : accounts.get ix.programIdIndex.toNat = some p := hprogram
  unfold InstructionTotals.add
  simp only [hget,true_and]
  by_cases hp : p = ids.computeBudget
  · subst hp
    rw [if_pos rfl]
    split
    · rename_i htag
      obtain ⟨value,hvalue,hdecode⟩ := requestOf_tag h hprogram .computeUnitLimit htag
      have hother : requestOf ids accounts .computeUnitPrice ix = none := by
        simp [requestOf,htag,BudgetRequest.tag]
      rw [hvalue,hother,toNat_map_toUInt64]
      refine ⟨hdecode,?_⟩
      split_ifs <;> rfl
    · rename_i htag
      obtain ⟨value,hvalue,hdecode⟩ := requestOf_tag h hprogram .computeUnitPrice htag
      have hother : requestOf ids accounts .computeUnitLimit ix = none := by
        simp [requestOf,htag,BudgetRequest.tag]
      rw [hvalue,hother]
      refine ⟨?_,hdecode⟩
      split_ifs <;> rfl
    · rename_i hnot2 hnot3
      have hlimit : requestOf ids accounts .computeUnitLimit ix = none := by
        refine if_neg ?_
        exact fun hcall => hnot2 hcall.2
      have hprice : requestOf ids accounts .computeUnitPrice ix = none := by
        refine if_neg ?_
        exact fun hcall => hnot3 hcall.2
      rw [hlimit,hprice]
      split_ifs <;> exact ⟨rfl,rfl⟩
  · rw [if_neg hp,requestOf_other hprogram hp,requestOf_other hprogram hp]
    split_ifs <;> exact ⟨rfl,rfl⟩

theorem column_eq_requests (column : InstructionTotals → Option Nat) {kind : BudgetRequest}
    (hstep : ∀ t ix, Admissible ids accounts ix → column (t.add ids false accounts ix) =
      (requestOf ids accounts kind ix).or (column t))
    {start : InstructionTotals} (hstart : column start = none) {instructions : List InstructionView}
    (hall : ∀ ix ∈ instructions, Admissible ids accounts ix)
    (honce : (requests ids accounts kind instructions).length ≤ 1) :
    (column (instructions.foldl (InstructionTotals.add ids false accounts) start)).toList =
      requests ids accounts kind instructions := by
  induction instructions using List.reverseRecOn with
  | nil =>
    rw [List.foldl_nil,hstart]
    rfl
  | append_singleton rest ix ih =>
    rw [requests_append,List.length_append] at honce
    have hrest := ih (fun x hx => hall x (by simp [hx])) (by omega)
    rw [List.foldl_append,List.foldl_cons,List.foldl_nil,hstep _ ix (hall ix (by simp)),
      requests_append]
    cases hrequest : requestOf ids accounts kind ix with
    | none => simpa using hrest
    | some value =>
      simp only [hrequest,Option.toList_some,List.length_singleton] at honce
      have hnone : requests ids accounts kind rest = [] := List.length_eq_zero_iff.mp (by omega)
      simp [hnone]

theorem parseTxMetadata_columns {input : TxMetadataInput} {instructions : List InstructionView}
    {m : Metrics} (hv1 : input.v1Config = none)
    (hvote : isVote ids input.accounts instructions = false)
    (h : calculate ids input.numSignatures input.header input.isLegacy input.v1Config
      input.accounts instructions = some m) :
    ((parseTxMetadata ids input instructions).cuLimit.map UInt64.toNat).toList =
        requests ids input.accounts .computeUnitLimit instructions ∧
      ((parseTxMetadata ids input instructions).cuPrice.map UInt64.toNat).toList =
        requests ids input.accounts .computeUnitPrice instructions := by
  obtain ⟨c,hc,-⟩ := calculate_eq_some h
  rw [hv1] at hc
  simp only [configurationOf,schedulerConfigurationLegacyAndV0] at hc
  obtain ⟨r,hr,-⟩ := Option.bind_eq_some_iff.mp hc
  obtain ⟨hall,hcollected⟩ := collect_eq_some hr
  have honce (kind : BudgetRequest) :
      (requests ids input.accounts kind instructions).length ≤ 1 := by
    rw [← hcollected.asked]
    cases r.asked kind <;> simp
  simp only [parseTxMetadata,hvote,hv1,Bool.false_eq_true,if_false,Option.isSome_none,
    Option.bind_none,Option.map_none]
  constructor
  · exact column_eq_requests (fun t => t.cuLimit.map UInt64.toNat)
      (fun t ix hix => (t.add_columns hix).1) rfl hall (honce _)
  · exact column_eq_requests (fun t => t.cuPrice.map UInt64.toNat)
      (fun t ix hix => (t.add_columns hix).2) rfl hall (honce _)

end Columns

namespace SchedulerMetrics

/-- The cost is the exact sum and the priority the exact quotient, for more accounts than any
transaction has; the order of the instructions does not matter; and the columns of the row hold the
only requests there are. -/
theorem calculate_exact (ids : SdkIds) (input : TxMetadataInput)
    (instructions : List InstructionView) (hfew : accountCount input.accounts ≤ 2 ^ 55) :
    let result (instructions : List InstructionView) := calculate ids input.numSignatures
      input.header input.isLegacy input.v1Config input.accounts instructions
    let cost := exactCost ids input.header input.v1Config input.accounts instructions
    let reward := exactReward ids input.header input.v1Config input.accounts instructions
    let row := parseTxMetadata ids input instructions
    (∀ m, result instructions = some m →
      m.costUnits.toNat = cost ∧
      m.priority.toNat = min (2 ^ 64 - 1) (reward * 1000000) / (m.costUnits.toNat + 1)) ∧
    (∀ other, instructions.Perm other → result other = result instructions) ∧
    (input.v1Config = none → isVote ids input.accounts instructions = false →
      (result instructions).isSome →
      (row.cuLimit.map UInt64.toNat).toList =
          requests ids input.accounts .computeUnitLimit instructions ∧
        (row.cuPrice.map UInt64.toNat).toList =
          requests ids input.accounts .computeUnitPrice instructions) := by
  intro result cost reward row
  refine ⟨fun m hm => ?_,fun other hperm => calculate_perm hperm,fun hv1 hvote hsome => ?_⟩
  · have hcost := costUnits_exact hfew hm
    have hpriority := priority_exact hm
    obtain ⟨c,-,hdata,-⟩ := calculate_eq_some hm
    have hcounted : Counted ids input.header input.accounts instructions _ :=
      signatureDetails_counted hdata input.header
    have hlt : cost < 2 ^ 39 + 300 * exactWriteLocks input.header input.accounts :=
      exactCost_lt hcounted hdata
    have hlocks : exactWriteLocks input.header input.accounts ≤ 2 ^ 55 :=
      le_trans (Nat.sub_le _ _) hfew
    have hexact : m.costUnits.toNat = cost := hcost.trans (min_eq_right (by omega))
    have hsucc : min (2 ^ 64 - 1) (m.costUnits.toNat + 1) = m.costUnits.toNat + 1 :=
      min_eq_right (by omega)
    rw [hsucc] at hpriority
    exact ⟨hexact,hpriority⟩
  · obtain ⟨m,hm⟩ := Option.isSome_iff_exists.mp hsome
    exact parseTxMetadata_columns hv1 hvote hm

/-- A limit and a price, in this order or the other. -/
def pricedInput : TxMetadataInput where
  slot := 7
  txIdx := 0
  numSignatures := 1
  header := ⟨1,0,1⟩
  isLegacy := true
  v1Config := none
  fee := 5000
  computeUnitsConsumed := some 150
  isSuccess := true
  accounts := ⟨[oneByteAddress 20,oneByteAddress 3],[],[]⟩

def pricedInstructions : List InstructionView :=
  [⟨1,[],[2,64,13,3,0]⟩,⟨1,[],[3,10,0,0,0,0,0,0,0]⟩]

theorem pricedInput_exact : ∃ m,
    calculate smallIds 1 ⟨1,0,1⟩ true none pricedInput.accounts pricedInstructions = some m ∧
      m.costUnits.toNat = exactCost smallIds ⟨1,0,1⟩ none pricedInput.accounts pricedInstructions ∧
      m.costUnits.toNat = 217407 := by
  have hsome : (calculate smallIds 1 ⟨1,0,1⟩ true none pricedInput.accounts
      pricedInstructions).isSome = true := by decide +kernel
  obtain ⟨m,hm⟩ := Option.isSome_iff_exists.mp hsome
  have hexact := ((calculate_exact smallIds pricedInput pricedInstructions (by decide)).1 m hm).1
  refine ⟨m,hm,hexact,?_⟩
  rw [hexact]
  decide +kernel

end SchedulerMetrics

end Jetstreamer.Plugin
