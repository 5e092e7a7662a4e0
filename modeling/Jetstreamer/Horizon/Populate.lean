import Jetstreamer.Horizon.Convert
set_option autoImplicit false

namespace Jetstreamer.Horizon
open Lib Lencode

section Capacity

variable {N : Nat} {α β : Type} {field : String} {populate : β → Except ConvertError α}

theorem fit_succeeds {items : List α} :
    Succeeds (fit field items : Except ConvertError (ZeroVec N α)) ↔ items.length ≤ N := by
  unfold fit
  split
  · simp_all
  · simp_all

theorem checkCapacity_succeeds {len max : Nat} :
    Succeeds (checkCapacity field len max) ↔ len ≤ max := by
  unfold checkCapacity
  split
  · simp_all
  · simp_all

theorem exists_forall₂ {R : β → α → Prop} {srcs : List β} :
    (∃ items, List.Forall₂ R srcs items) ↔ ∀ src ∈ srcs, ∃ item, R src item := by
  induction srcs with
  | nil => simp
  | cons src rest ih =>
    rw [List.forall_mem_cons,← ih]
    constructor
    · rintro ⟨_,hall⟩
      cases hall with
      | cons hitem hall => exact ⟨⟨_,hitem⟩,_,hall⟩
    · rintro ⟨⟨item,hitem⟩,items,hall⟩
      exact ⟨item :: items,.cons hitem hall⟩

variable {srcs : List β}

theorem Appends.foldlM_succeeds {step : ZeroVec N α → β → Except ConvertError (ZeroVec N α)}
    (h : Appends step populate) {zv : ZeroVec N α} : Succeeds (srcs.foldlM step zv) ↔
      zv.items.length + srcs.length ≤ N ∧ ∀ src ∈ srcs, Succeeds (populate src) := by
  unfold Succeeds
  rw [← exists_forall₂]
  constructor
  · rintro ⟨next,hrun⟩
    obtain ⟨items,hall,hnext⟩ := h.foldlM.mp hrun
    have hfits := next.fits
    rw [hnext,List.length_append,← hall.length_eq] at hfits
    exact ⟨hfits,items,hall⟩
  · rintro ⟨hroom,items,hall⟩
    rw [hall.length_eq,← List.length_append] at hroom
    exact ⟨⟨zv.items ++ items,hroom⟩,h.foldlM.mpr ⟨items,hall,rfl⟩⟩

theorem pushAll_succeeds :
    Succeeds (pushAll field populate (.empty : ZeroVec N α) srcs) ↔
      srcs.length ≤ N ∧ ∀ src ∈ srcs, Succeeds (populate src) := by
  have hpushes : Succeeds (srcs.foldlM (fun zv src => do zv.push (← populate src))
      (.empty : ZeroVec N α)) ↔ srcs.length ≤ N ∧ ∀ src ∈ srcs, Succeeds (populate src) := by
    rw [push_appends.foldlM_succeeds,ZeroVec.empty,List.length_nil,Nat.zero_add]
  exact (succeeds_bind_iff checkCapacity_succeeds fun _ _ => hpushes).trans
    (and_iff_right_of_imp And.left)

theorem pushAll_pure_succeeds {items : List α} :
    Succeeds (pushAll field .ok (.empty : ZeroVec N α) items) ↔ items.length ≤ N := by
  simp [pushAll_succeeds]

theorem populateOption_succeeds {populate : Option α → β → Except ConvertError α}
    {dst : Option α} {src : Option β} : Succeeds (populateOption populate dst src) ↔
      ∀ s, src = some s → Succeeds (populate dst s) := by
  cases src with
  | none => simp [populateOption]
  | some s =>
    cases h : populate dst s with
    | error e => simp [populateOption,h]
    | ok a => simp [populateOption,h]

theorem populateOption_rel {populate : Option α → β → Except ConvertError α} {R : β → α → Prop}
    {src : Option β} {result : Option α} (h : populateOption populate none src = .ok result)
    (hR : ∀ s a, populate none s = .ok a → R s a) : Option.Rel R src result := by
  cases src with
  | none =>
    cases h
    exact .none
  | some s =>
    cases hs : populate none s with
    | error e =>
      rw [populateOption,hs] at h
      cases h
    | ok a =>
      rw [populateOption,hs] at h
      cases h
      exact .some (hR s a hs)

theorem populateOption_map {populate : Option α → β → Except ConvertError α} {γ : Type}
    {view : α → γ} {source : β → γ} {src : Option β} {result : Option α}
    (h : populateOption populate none src = .ok result)
    (hview : ∀ s a, populate none s = .ok a → view a = source s) :
    result.map view = src.map source := by
  have hrel := populateOption_rel h hview
  cases hrel with
  | none => rfl
  | some heq => exact congrArg some heq

end Capacity

section Messages

/-- An instruction that has a place in the fixed-capacity form. -/
def InstructionFits (ix : Solana.CompiledInstruction) : Prop :=
  ix.accounts.length ≤ maxIxAccounts ∧ ix.data.length ≤ maxIxDataLen

def LookupFits (l : Solana.MessageAddressTableLookup) : Prop :=
  l.writableIndexes.length ≤ maxTxAccounts ∧ l.readonlyIndexes.length ≤ maxTxAccounts

def CommonFits (keys : List Address) (instructions : List Solana.CompiledInstruction) : Prop :=
  keys.length ≤ maxTxAccounts ∧ instructions.length ≤ maxTxInstructions ∧
    ∀ ix ∈ instructions, InstructionFits ix

def MessageFits : Solana.VersionedMessage → Prop
  | .legacy m => CommonFits m.accountKeys m.instructions
  | .v0 m => CommonFits m.accountKeys m.instructions ∧
      m.addressTableLookups.length ≤ maxTxAddrLookups ∧ ∀ l ∈ m.addressTableLookups, LookupFits l
  | .v1 m => CommonFits m.accountKeys m.instructions

theorem populateCompiledInstruction_succeeds {dst : CompiledInstruction}
    {src : Solana.CompiledInstruction} :
    Succeeds (populateCompiledInstruction dst src) ↔ InstructionFits src := by
  refine succeeds_bind_iff fit_succeeds fun _ _ => ?_
  rw [succeeds_bind_pure,fit_succeeds]

theorem populateLookup_succeeds {slot : MessageAddressTableLookup}
    {src : Solana.MessageAddressTableLookup} :
    Succeeds (populateLookup slot src) ↔ LookupFits src := by
  refine succeeds_bind_iff fit_succeeds fun _ _ => ?_
  rw [succeeds_bind_pure,fit_succeeds]

theorem populateMessageCommon_succeeds {keys : List Address}
    {instructions : List Solana.CompiledInstruction} :
    Succeeds (populateMessageCommon .empty .empty keys instructions) ↔
      CommonFits keys instructions := by
  refine succeeds_bind_iff pushAll_pure_succeeds fun _ _ => ?_
  rw [succeeds_bind_pure,pushInPlace_appends.foldlM_succeeds]
  simp [ZeroVec.empty,populateCompiledInstruction_succeeds]

theorem populateLookups_succeeds {lookups : List Solana.MessageAddressTableLookup} :
    Succeeds (populateLookups .empty lookups) ↔
      lookups.length ≤ maxTxAddrLookups ∧ ∀ l ∈ lookups, LookupFits l := by
  have hpushes : Succeeds (lookups.foldlM
      (pushInPlace "address_table_lookups" (populateLookup .zero))
      (.empty : ZeroVec maxTxAddrLookups MessageAddressTableLookup)) ↔
      lookups.length ≤ maxTxAddrLookups ∧ ∀ l ∈ lookups, LookupFits l := by
    rw [pushInPlace_appends.foldlM_succeeds]
    simp [ZeroVec.empty,populateLookup_succeeds]
  rw [populateLookups,succeeds_bind_iff checkCapacity_succeeds fun _ _ => hpushes]
  exact and_iff_right_of_imp And.left

theorem populateMessage_succeeds {dst : VersionedMessage} {src : Solana.VersionedMessage} :
    Succeeds (populateMessage dst src) ↔ MessageFits src := by
  simp only [populateMessage,dst.forceLegacyMut_eq,dst.forceV0Mut_eq,dst.forceV1Mut_eq]
  cases src with
  | legacy m => exact succeeds_bind_pure.trans populateMessageCommon_succeeds
  | v0 m =>
    refine succeeds_bind_iff populateMessageCommon_succeeds fun _ _ => ?_
    exact succeeds_bind_pure.trans populateLookups_succeeds
  | v1 m => exact succeeds_bind_pure.trans populateMessageCommon_succeeds

end Messages

section Inner

def InnerInstruction.upstream (inner : InnerInstruction) : UInt8 × Solana.InnerInstruction :=
  (inner.outerIndex,⟨inner.instruction.upstream,inner.stackHeight⟩)

/-- The instructions of all groups, each with the index of its group. -/
def innerList (groups : List Solana.InnerInstructions) : List (UInt8 × Solana.InnerInstruction) :=
  groups.flatMap fun group => group.instructions.map (group.index,·)

def InnerFits (groups : List Solana.InnerInstructions) : Prop :=
  (innerList groups).length ≤ maxTxInnerIx ∧
    ∀ inner ∈ innerList groups, InstructionFits inner.2.instruction

theorem populateInnerInstruction_upstream {src : UInt8 × Solana.InnerInstruction}
    {slot inner : InnerInstruction} (h : populateInnerInstruction slot src = .ok inner) :
    inner.upstream = src := by
  obtain ⟨ix,hix,h⟩ := bind_ok h
  cases h
  rw [InnerInstruction.upstream,populateCompiledInstruction_upstream hix]

theorem populateInnerInstructions_upstream {dst : Option (ZeroVec maxTxInnerIx InnerInstruction)}
    {groups : List Solana.InnerInstructions} {zv : ZeroVec maxTxInnerIx InnerInstruction}
    (h : populateInnerInstructions dst groups = .ok zv) :
    zv.items.map InnerInstruction.upstream = innerList groups := by
  have hmap := foldlM_pushInPlace InnerInstruction.upstream id
    (fun src inner hinner => populateInnerInstruction_upstream hinner) h
  simpa [ZeroVec.clear,ZeroVec.empty,innerList] using hmap

theorem populateInnerInstructions_succeeds {dst : Option (ZeroVec maxTxInnerIx InnerInstruction)}
    {groups : List Solana.InnerInstructions} :
    Succeeds (populateInnerInstructions dst groups) ↔ InnerFits groups := by
  rw [populateInnerInstructions,pushInPlace_appends.foldlM_succeeds]
  have hone : ∀ src : UInt8 × Solana.InnerInstruction,
      Succeeds (populateInnerInstruction .zero src) ↔ InstructionFits src.2.instruction :=
        fun src =>
    succeeds_bind_pure.trans populateCompiledInstruction_succeeds
  simp only [hone,ZeroVec.clear,ZeroVec.empty,List.length_nil,Nat.zero_add]
  rfl

end Inner

section Logs

/-- The lines of an arena, cut off one after the other. -/
def cutLines : List UInt32 → Bytes → List Bytes
  | [], _ => []
  | len :: rest, data => data.take len.toNat :: cutLines rest (data.drop len.toNat)

def LogMessages.lines (logs : LogMessages) : List Bytes := cutLines logs.lens.items logs.data.items

def LogsFit (logs : List Bytes) : Prop :=
  logs.length ≤ maxTxLogMsgs ∧ logs.flatten.length ≤ maxTxLogData

theorem cutLines_flatten {logs : List Bytes} (h : logs.flatten.length < 2 ^ 32) :
    cutLines (logs.map fun line => UInt32.ofNat line.length) logs.flatten = logs := by
  induction logs with
  | nil => rfl
  | cons line rest ih =>
    rw [List.flatten_cons,List.length_append] at h
    have hlen : (UInt32.ofNat line.length).toNat = line.length :=
      UInt32.toNat_ofNat_of_lt' (by rw [UInt32.size]; omega)
    simp only [List.map_cons,List.flatten_cons,cutLines,hlen,List.take_left',List.drop_left']
    rw [ih (by omega)]

variable {lines : List Bytes} {line : Bytes} {total total' : Nat} {arena arena' : LogMessages}

theorem populateLogLine_ok (h : populateLogLine (total,arena) line = .ok (total',arena')) :
    arena'.lens.items = arena.lens.items ++ [UInt32.ofNat line.length] ∧
      arena'.data.items = arena.data.items ++ line := by
  unfold populateLogLine LogMessages.push at h
  split at h
  · rename_i hpush
    cases h
    split at hpush
    · cases hpush
    · split at hpush
      · cases hpush
      · cases hpush
        exact ⟨rfl,rfl⟩
  · cases h

theorem populateLogLine_succeeds : Succeeds (populateLogLine (total,arena) line) ↔
    arena.lens.items.length < maxTxLogMsgs ∧
      arena.data.items.length + line.length ≤ maxTxLogData := by
  unfold populateLogLine LogMessages.push
  dsimp only
  by_cases hlines : maxTxLogMsgs ≤ arena.lens.items.length
  · simp [hlines,Nat.not_lt.mpr hlines]
  · by_cases hdata : maxTxLogData < arena.data.items.length + line.length
    · simp [hlines,hdata,Nat.not_le.mpr hdata]
    · simp [hlines,hdata,Nat.not_le.mp hlines,Nat.not_lt.mp hdata]

theorem foldlM_populateLogLine (h : lines.foldlM populateLogLine (total,arena) =
    .ok (total',arena')) :
    arena'.lens.items = arena.lens.items ++ lines.map (fun line => UInt32.ofNat line.length) ∧
      arena'.data.items = arena.data.items ++ lines.flatten := by
  induction lines generalizing total arena with
  | nil =>
    cases h
    simp
  | cons line rest ih =>
    obtain ⟨⟨middle,arena1⟩,hone,hrest⟩ := bind_ok h
    obtain ⟨hlens,hdata⟩ := ih hrest
    obtain ⟨hlens1,hdata1⟩ := populateLogLine_ok hone
    rw [hlens,hdata,hlens1,hdata1]
    simp

theorem foldlM_populateLogLine_succeeds :
    Succeeds (lines.foldlM populateLogLine (total,arena)) ↔
      arena.lens.items.length + lines.length ≤ maxTxLogMsgs ∧
        arena.data.items.length + lines.flatten.length ≤ maxTxLogData := by
  induction lines generalizing total arena with
  | nil => simp [arena.lens.fits,arena.data.fits]
  | cons line rest ih =>
    simp only [List.foldlM_cons,List.length_cons,List.flatten_cons,List.length_append]
    rw [succeeds_bind_iff (P := arena.lens.items.length + (rest.length + 1) ≤ maxTxLogMsgs ∧
      arena.data.items.length + (line.length + rest.flatten.length) ≤ maxTxLogData)
      populateLogLine_succeeds]
    · constructor
      · exact And.right
      · intro h
        exact ⟨by omega,h⟩
    · rintro ⟨middle,next⟩ hnext
      obtain ⟨hlens,hdata⟩ := populateLogLine_ok hnext
      rw [ih,hlens,hdata]
      simp only [List.length_append,List.length_singleton]
      omega

theorem populateLogMessages_lines {logs : List Bytes} {dst : Option LogMessages}
    (h : populateLogMessages dst logs = .ok arena) : arena.lines = logs := by
  obtain ⟨_,-,h⟩ := bind_ok h
  obtain ⟨⟨total,done⟩,hdone,h⟩ := bind_ok h
  cases h
  obtain ⟨hlens,hdata⟩ := foldlM_populateLogLine hdone
  have hfits := done.data.fits
  rw [hdata] at hfits
  rw [LogMessages.lines,hlens,hdata]
  exact cutLines_flatten (lt_of_le_of_lt hfits (by decide))

theorem populateLogMessages_succeeds {logs : List Bytes} {dst : Option LogMessages} :
    Succeeds (populateLogMessages dst logs) ↔ LogsFit logs := by
  have hlines : Succeeds (logs.foldlM populateLogLine (0,(dst.getD .empty).clear)) ↔
      LogsFit logs := by
    rw [foldlM_populateLogLine_succeeds]
    simp [LogMessages.clear,ZeroVec.clear,ZeroVec.empty,LogsFit]
  refine (succeeds_bind_iff checkCapacity_succeeds fun _ _ =>
    succeeds_bind_pure.trans hlines).trans ?_
  exact and_iff_right_of_imp And.left

end Logs

section Texts

variable (p : Solana.Parsers)

/-- A text that stands for an address, or for none. -/
def ReadsOptional (text : String) (address : Option Address) : Prop :=
  if text.isEmpty then address = none else ∃ a, p.address text = some a ∧ address = some a

/-- A balance with its texts read. -/
structure BalanceOf (src : Solana.TransactionTokenBalance) (balance : TransactionTokenBalance) :
    Prop where
  accountIndex : balance.accountIndex = src.accountIndex
  mint : p.address src.mint = some balance.mint
  amount : p.amount src.uiTokenAmount.amount = some balance.uiTokenAmount.amount
  decimals : balance.uiTokenAmount.decimals = src.uiTokenAmount.decimals
  owner : ReadsOptional p src.owner balance.owner
  programId : ReadsOptional p src.programId balance.programId

structure RewardOf (src : Solana.Reward) (reward : Reward) : Prop where
  pubkey : p.address src.pubkey = some reward.pubkey
  lamports : reward.lamports = src.lamports
  postBalance : reward.postBalance = src.postBalance
  rewardType : reward.rewardType = src.rewardType
  commission : reward.commission = src.commission
  commissionBps : reward.commissionBps = src.commissionBps

def OptionalParses (text : String) : Prop := text.isEmpty ∨ p.address text ≠ none

def BalanceParses (src : Solana.TransactionTokenBalance) : Prop :=
  p.address src.mint ≠ none ∧ p.amount src.uiTokenAmount.amount ≠ none ∧
    OptionalParses p src.owner ∧ OptionalParses p src.programId

variable {p}

variable {text field : String}

theorem parseAddress_ok {a : Address} :
    parseAddress p field text = .ok a ↔ p.address text = some a := by
  unfold parseAddress
  cases p.address text <;> simp

theorem parseAddress_succeeds :
    Succeeds (parseAddress p field text) ↔ p.address text ≠ none := by
  unfold parseAddress
  cases p.address text <;> simp

theorem parseOptionalAddress_ok {address : Option Address}
    (h : parseOptionalAddress p field text = .ok address) : ReadsOptional p text address := by
  unfold parseOptionalAddress at h
  unfold ReadsOptional
  split at h
  · rename_i hempty
    cases h
    rw [if_pos hempty]
  · rename_i hempty
    rw [if_neg hempty]
    cases ha : parseAddress p field text with
    | error e =>
      rw [ha] at h
      cases h
    | ok a =>
      rw [ha] at h
      cases h
      exact ⟨a,parseAddress_ok.mp ha,rfl⟩

theorem parseOptionalAddress_succeeds :
    Succeeds (parseOptionalAddress p field text) ↔ OptionalParses p text := by
  unfold parseOptionalAddress OptionalParses
  by_cases hempty : text.isEmpty
  · simp [hempty]
  · rw [if_neg hempty,or_iff_right hempty]
    have hparse : Succeeds (parseAddress p field text) ↔ p.address text ≠ none :=
      parseAddress_succeeds
    rw [← hparse]
    cases parseAddress p field text <;> simp

theorem tokenBalanceFromUpstream_ok {src : Solana.TransactionTokenBalance}
    {balance : TransactionTokenBalance} (h : tokenBalanceFromUpstream p src = .ok balance) :
    BalanceOf p src balance := by
  obtain ⟨mint,hmint,h⟩ := bind_ok h
  cases hamount : p.amount src.uiTokenAmount.amount with
  | none =>
    rw [hamount] at h
    cases h
  | some amount =>
    rw [hamount] at h
    dsimp only [ok_bind] at h
    obtain ⟨owner,howner,h⟩ := bind_ok h
    obtain ⟨programId,hprogram,h⟩ := bind_ok h
    cases h
    exact ⟨rfl,parseAddress_ok.mp hmint,hamount,rfl,parseOptionalAddress_ok howner,
      parseOptionalAddress_ok hprogram⟩

theorem tokenBalanceFromUpstream_succeeds {src : Solana.TransactionTokenBalance} :
    Succeeds (tokenBalanceFromUpstream p src) ↔ BalanceParses p src := by
  unfold tokenBalanceFromUpstream BalanceParses
  refine succeeds_bind_iff parseAddress_succeeds fun mint _ => ?_
  cases p.amount src.uiTokenAmount.amount with
  | none => simp [succeeds_bind]
  | some amount =>
    simp only [ok_bind,ne_eq,reduceCtorEq,not_false_eq_true,true_and]
    refine succeeds_bind_iff parseOptionalAddress_succeeds fun _ _ => ?_
    exact succeeds_bind_pure.trans parseOptionalAddress_succeeds

theorem rewardFromStatusReward_ok {src : Solana.Reward} {reward : Reward}
    (h : rewardFromStatusReward p src = .ok reward) : RewardOf p src reward := by
  obtain ⟨pubkey,hpubkey,h⟩ := bind_ok h
  cases h
  exact ⟨parseAddress_ok.mp hpubkey,rfl,rfl,rfl,rfl,rfl⟩

theorem rewardFromStatusReward_succeeds {src : Solana.Reward} :
    Succeeds (rewardFromStatusReward p src) ↔ p.address src.pubkey ≠ none :=
  succeeds_bind_pure.trans parseAddress_succeeds

theorem populateTokenBalances_ok {dst : Option (ZeroVec maxTxTokenBalances TransactionTokenBalance)}
    {srcs : List Solana.TransactionTokenBalance}
    {zv : ZeroVec maxTxTokenBalances TransactionTokenBalance}
    (h : populateTokenBalances p dst field srcs = .ok zv) :
    List.Forall₂ (BalanceOf p) srcs zv.items := by
  obtain ⟨items,hall,hitems⟩ := pushAll_ok h
  rw [hitems]
  exact hall.imp fun _ _ hone => tokenBalanceFromUpstream_ok hone

theorem populateTokenBalances_succeeds
    {dst : Option (ZeroVec maxTxTokenBalances TransactionTokenBalance)}
    {srcs : List Solana.TransactionTokenBalance} :
    Succeeds (populateTokenBalances p dst field srcs) ↔
      srcs.length ≤ maxTxTokenBalances ∧ ∀ src ∈ srcs, BalanceParses p src := by
  simp only [populateTokenBalances,ZeroVec.clear,pushAll_succeeds,tokenBalanceFromUpstream_succeeds]

theorem populateRewards_ok {dst : Option (ZeroVec maxTxRewards Reward)}
    {srcs : List Solana.Reward} {zv : ZeroVec maxTxRewards Reward}
    (h : populateRewards p dst srcs = .ok zv) : List.Forall₂ (RewardOf p) srcs zv.items := by
  obtain ⟨items,hall,hitems⟩ := pushAll_ok h
  rw [hitems]
  exact hall.imp fun _ _ hone => rewardFromStatusReward_ok hone

theorem populateRewards_succeeds {dst : Option (ZeroVec maxTxRewards Reward)}
    {srcs : List Solana.Reward} : Succeeds (populateRewards p dst srcs) ↔
      srcs.length ≤ maxTxRewards ∧ ∀ src ∈ srcs, p.address src.pubkey ≠ none := by
  simp only [populateRewards,ZeroVec.clear,pushAll_succeeds,rewardFromStatusReward_succeeds]

theorem populateReturnData_ok {src : Solana.TransactionReturnData} {dst : Option ReturnData}
    {r : ReturnData} (h : populateReturnData dst src = .ok r) :
    r.programId = src.programId ∧ r.data.items = src.data := by
  obtain ⟨data,hdata,h⟩ := bind_ok h
  cases h
  exact ⟨rfl,fit_ok hdata⟩

theorem populateReturnData_succeeds {src : Solana.TransactionReturnData} {dst : Option ReturnData} :
    Succeeds (populateReturnData dst src) ↔ src.data.length ≤ maxReturnDataLen :=
  succeeds_bind_pure.trans fit_succeeds

end Texts

section Whole

variable (p : Solana.Parsers) (tx : Solana.VersionedTransaction)
  (info : Solana.TransactionStatusMeta)

/-- All lists and payloads have a place in the fixed-capacity form. -/
structure Fits : Prop where
  signatures : tx.signatures.length ≤ maxTxSigs
  message : MessageFits tx.message
  preBalances : info.preBalances.length ≤ maxTxAccounts
  postBalances : info.postBalances.length ≤ maxTxAccounts
  writable : info.loadedAddresses.writable.length ≤ maxTxAccounts
  readonly : info.loadedAddresses.readonly.length ≤ maxTxAccounts
  innerInstructions : ∀ groups, info.innerInstructions = some groups → InnerFits groups
  logMessages : ∀ logs, info.logMessages = some logs → LogsFit logs
  preTokenBalances : ∀ balances, info.preTokenBalances = some balances →
    balances.length ≤ maxTxTokenBalances
  postTokenBalances : ∀ balances, info.postTokenBalances = some balances →
    balances.length ≤ maxTxTokenBalances
  rewards : ∀ rewards, info.rewards = some rewards → rewards.length ≤ maxTxRewards
  returnData : ∀ r, info.returnData = some r → r.data.length ≤ maxReturnDataLen

/-- All texts can be read. -/
structure Parses : Prop where
  preTokenBalances : ∀ balances, info.preTokenBalances = some balances →
    ∀ balance ∈ balances, BalanceParses p balance
  postTokenBalances : ∀ balances, info.postTokenBalances = some balances →
    ∀ balance ∈ balances, BalanceParses p balance
  rewards : ∀ rewards, info.rewards = some rewards →
    ∀ reward ∈ rewards, p.address reward.pubkey ≠ none

variable {p tx info}

theorem populateTransaction_succeeds {dst : Transaction} :
    Succeeds (populateTransaction p dst tx info) ↔ Fits tx info ∧ Parses p info := by
  have hsteps : Succeeds (populateTransaction p dst tx info) ↔
      tx.signatures.length ≤ maxTxSigs ∧ MessageFits tx.message ∧
      info.preBalances.length ≤ maxTxAccounts ∧ info.postBalances.length ≤ maxTxAccounts ∧
      info.loadedAddresses.writable.length ≤ maxTxAccounts ∧
      info.loadedAddresses.readonly.length ≤ maxTxAccounts ∧
      (∀ groups, info.innerInstructions = some groups → InnerFits groups) ∧
      (∀ logs, info.logMessages = some logs → LogsFit logs) ∧
      (∀ balances, info.preTokenBalances = some balances → balances.length ≤ maxTxTokenBalances ∧
        ∀ balance ∈ balances, BalanceParses p balance) ∧
      (∀ balances, info.postTokenBalances = some balances → balances.length ≤ maxTxTokenBalances ∧
        ∀ balance ∈ balances, BalanceParses p balance) ∧
      (∀ rewards, info.rewards = some rewards → rewards.length ≤ maxTxRewards ∧
        ∀ reward ∈ rewards, p.address reward.pubkey ≠ none) ∧
      ∀ r, info.returnData = some r → r.data.length ≤ maxReturnDataLen := by
    refine succeeds_bind_iff pushAll_pure_succeeds fun _ _ => ?_
    refine succeeds_bind_iff populateMessage_succeeds fun _ _ => ?_
    refine succeeds_bind_iff fit_succeeds fun _ _ => ?_
    refine succeeds_bind_iff fit_succeeds fun _ _ => ?_
    refine succeeds_bind_iff pushAll_pure_succeeds fun _ _ => ?_
    refine succeeds_bind_iff pushAll_pure_succeeds fun _ _ => ?_
    refine succeeds_bind_iff ?_ fun _ _ => ?_
    · simp only [populateOption_succeeds,populateInnerInstructions_succeeds]
    refine succeeds_bind_iff ?_ fun _ _ => ?_
    · simp only [populateOption_succeeds,populateLogMessages_succeeds]
    refine succeeds_bind_iff ?_ fun _ _ => ?_
    · simp only [populateOption_succeeds,populateTokenBalances_succeeds]
    refine succeeds_bind_iff ?_ fun _ _ => ?_
    · simp only [populateOption_succeeds,populateTokenBalances_succeeds]
    refine succeeds_bind_iff ?_ fun _ _ => ?_
    · simp only [populateOption_succeeds,populateRewards_succeeds]
    refine succeeds_bind_pure.trans ?_
    simp only [populateOption_succeeds,populateReturnData_succeeds]
  rw [hsteps]
  constructor
  · rintro ⟨hsig,hmsg,hpre,hpost,hwritable,hreadonly,hinner,hlogs,hpretokens,hposttokens,hrewards,
      hreturn⟩
    exact ⟨⟨hsig,hmsg,hpre,hpost,hwritable,hreadonly,hinner,hlogs,fun b hb => (hpretokens b hb).1,
      fun b hb => (hposttokens b hb).1,fun r hr => (hrewards r hr).1,hreturn⟩,
      ⟨fun b hb => (hpretokens b hb).2,fun b hb => (hposttokens b hb).2,
        fun r hr => (hrewards r hr).2⟩⟩
  · rintro ⟨hfits,hparses⟩
    exact ⟨hfits.signatures,hfits.message,hfits.preBalances,hfits.postBalances,hfits.writable,
      hfits.readonly,hfits.innerInstructions,hfits.logMessages,
      fun b hb => ⟨hfits.preTokenBalances b hb,hparses.preTokenBalances b hb⟩,
      fun b hb => ⟨hfits.postTokenBalances b hb,hparses.postTokenBalances b hb⟩,
      fun r hr => ⟨hfits.rewards r hr,hparses.rewards r hr⟩,hfits.returnData⟩

variable (p tx info)

/-- A transaction that says all its source says. -/
structure Transaction.Faithful (t : Transaction) : Prop extends t.Carries tx info where
  innerInstructions : t.innerInstructions.map (fun zv => zv.items.map InnerInstruction.upstream) =
    info.innerInstructions.map innerList
  logMessages : t.logMessages.map LogMessages.lines = info.logMessages
  preTokenBalances : Option.Rel (fun srcs zv => List.Forall₂ (BalanceOf p) srcs zv.items)
    info.preTokenBalances t.preTokenBalances
  postTokenBalances : Option.Rel (fun srcs zv => List.Forall₂ (BalanceOf p) srcs zv.items)
    info.postTokenBalances t.postTokenBalances
  rewards : Option.Rel (fun srcs zv => List.Forall₂ (RewardOf p) srcs zv.items)
    info.rewards t.rewards
  returnData : Option.Rel (fun src r => r.programId = src.programId ∧ r.data.items = src.data)
    info.returnData t.returnData

variable {p tx info}

theorem populateTransaction_ok {dst t : Transaction}
    (h : populateTransaction p dst tx info = .ok t) : t.Faithful p tx info := by
  have hcarries := populateTransaction_carries h
  obtain ⟨_,-,h⟩ := bind_ok h
  obtain ⟨_,-,h⟩ := bind_ok h
  obtain ⟨_,-,h⟩ := bind_ok h
  obtain ⟨_,-,h⟩ := bind_ok h
  obtain ⟨_,-,h⟩ := bind_ok h
  obtain ⟨_,-,h⟩ := bind_ok h
  obtain ⟨inner,hinner,h⟩ := bind_ok h
  obtain ⟨logs,hlogs,h⟩ := bind_ok h
  obtain ⟨preTokens,hpre,h⟩ := bind_ok h
  obtain ⟨postTokens,hpost,h⟩ := bind_ok h
  obtain ⟨rewards,hrewards,h⟩ := bind_ok h
  obtain ⟨returnData,hreturn,h⟩ := bind_ok h
  cases h
  refine { hcarries with
    innerInstructions := ?_, logMessages := ?_, preTokenBalances := ?_, postTokenBalances := ?_,
    rewards := ?_, returnData := ?_ }
  · exact populateOption_map hinner fun _ _ h => populateInnerInstructions_upstream h
  · have hlines := populateOption_map hlogs fun _ _ h => populateLogMessages_lines h
    rwa [Option.map_id'] at hlines
  · exact populateOption_rel hpre fun _ _ hall => populateTokenBalances_ok hall
  · exact populateOption_rel hpost fun _ _ hall => populateTokenBalances_ok hall
  · exact populateOption_rel hrewards fun _ _ hall => populateRewards_ok hall
  · exact populateOption_rel hreturn fun _ _ hdata => populateReturnData_ok hdata

end Whole

section Assertions

variable {N : Nat} {α β : Type} {field : String} {populate : β → Except ConvertError α}

/-- No assertion of a container fails. -/
def Returns (x : Except ConvertError α) : Prop := x ≠ .error .panics

theorem Returns.bind {x : Except ConvertError α} {f : α → Except ConvertError β} (hx : Returns x)
    (hf : ∀ a, x = .ok a → Returns (f a)) : Returns (x >>= f) := by
  intro h
  obtain h | ⟨a,hok,h⟩ := bind_error h
  · exact hx h
  · exact hf a hok h

theorem Returns.map {x : Except ConvertError α} {f : α → β} (hx : Returns x) :
    Returns (x >>= fun a => pure (f a)) := hx.bind fun _ _ => nofun

theorem Returns.foldlM {σ : Type} {step : σ → β → Except ConvertError σ}
    (h : ∀ s src, Returns (step s src)) (srcs : List β) (s : σ) : Returns (srcs.foldlM step s) := by
  induction srcs generalizing s with
  | nil => nofun
  | cons src rest ih => exact (h s src).bind fun next _ => ih next

theorem checkCapacity_returns {len max : Nat} : Returns (checkCapacity field len max) := by
  unfold checkCapacity
  split <;> nofun

theorem fit_returns {items : List α} :
    Returns (fit field items : Except ConvertError (ZeroVec N α)) := by
  unfold fit
  split <;> nofun

theorem pushInPlace_returns (h : ∀ src, Returns (populate src)) (zv : ZeroVec N α) (src : β) :
    Returns (pushInPlace field populate zv src) := by
  unfold pushInPlace
  split
  · nofun
  · exact (h src).map

theorem foldlM_push_returns (h : ∀ src, Returns (populate src)) {srcs : List β} {zv : ZeroVec N α}
    (hroom : zv.items.length + srcs.length ≤ N) :
    Returns (srcs.foldlM (fun zv src => do zv.push (← populate src)) zv) := by
  induction srcs generalizing zv with
  | nil => nofun
  | cons src rest ih =>
    rw [List.length_cons] at hroom
    have hstep : Returns (populate src >>= zv.push) := (h src).bind fun item _ => by
      rw [ZeroVec.push,dif_pos (by omega)]
      nofun
    refine hstep.bind fun next hnext => ih ?_
    obtain ⟨item,-,hitems⟩ := (push_appends zv src next).mp hnext
    rw [hitems,List.length_append,List.length_singleton]
    omega

-- the check covers all pushes only because the list is empty before
theorem pushAll_returns (h : ∀ src, Returns (populate src)) {srcs : List β} :
    Returns (pushAll field populate (.empty : ZeroVec N α) srcs) := by
  refine checkCapacity_returns.bind fun _ hfits => foldlM_push_returns h ?_
  rw [ZeroVec.empty,List.length_nil,Nat.zero_add]
  exact checkCapacity_succeeds.mp ⟨_,hfits⟩

theorem pushAll_pure_returns {items : List α} :
    Returns (pushAll field .ok (.empty : ZeroVec N α) items) :=
  pushAll_returns fun item => (nofun : (.ok item : Except ConvertError α) ≠ .error .panics)

theorem populateOption_returns {populate : Option α → β → Except ConvertError α}
    (h : ∀ src, Returns (populate none src)) {src : Option β} :
    Returns (populateOption populate none src) := by
  cases src with
  | none => nofun
  | some src => exact (h src).map

theorem populateCompiledInstruction_returns (dst : CompiledInstruction)
    (src : Solana.CompiledInstruction) : Returns (populateCompiledInstruction dst src) :=
  fit_returns.bind fun _ _ => fit_returns.map

theorem populateMessageCommon_returns {keys : List Address}
    {instructions : List Solana.CompiledInstruction} :
    Returns (populateMessageCommon .empty .empty keys instructions) :=
  pushAll_pure_returns.bind fun _ _ => (Returns.foldlM (pushInPlace_returns
    (populateCompiledInstruction_returns .zero)) _ _).map

theorem populateLookups_returns (zv : ZeroVec maxTxAddrLookups MessageAddressTableLookup)
    (lookups : List Solana.MessageAddressTableLookup) : Returns (populateLookups zv lookups) :=
  checkCapacity_returns.bind fun _ _ => Returns.foldlM (pushInPlace_returns fun _ =>
    fit_returns.bind fun _ _ => fit_returns.map) _ _

theorem populateMessage_returns (dst : VersionedMessage) (src : Solana.VersionedMessage) :
    Returns (populateMessage dst src) := by
  simp only [populateMessage,dst.forceLegacyMut_eq,dst.forceV0Mut_eq,dst.forceV1Mut_eq]
  cases src with
  | legacy m => exact populateMessageCommon_returns.map
  | v0 m =>
    exact populateMessageCommon_returns.bind fun _ _ => (populateLookups_returns _ _).map
  | v1 m => exact populateMessageCommon_returns.map

theorem populateInnerInstructions_returns (dst : Option (ZeroVec maxTxInnerIx InnerInstruction))
    (groups : List Solana.InnerInstructions) : Returns (populateInnerInstructions dst groups) :=
  Returns.foldlM (pushInPlace_returns fun _ => (populateCompiledInstruction_returns _ _).map) _ _

theorem populateLogMessages_returns (dst : Option LogMessages) (logs : List Bytes) :
    Returns (populateLogMessages dst logs) := by
  refine checkCapacity_returns.bind fun _ _ => (Returns.foldlM (fun done line => ?_) _ _).map
  unfold populateLogLine
  dsimp only
  split <;> nofun

variable (p : Solana.Parsers)

theorem parseAddress_returns (text : String) : Returns (parseAddress p field text) := by
  unfold parseAddress
  split <;> nofun

theorem parseOptionalAddress_returns (text : String) :
    Returns (parseOptionalAddress p field text) := by
  unfold parseOptionalAddress
  split
  · nofun
  · exact (parseAddress_returns p text).map

theorem tokenBalanceFromUpstream_returns (src : Solana.TransactionTokenBalance) :
    Returns (tokenBalanceFromUpstream p src) := by
  refine (parseAddress_returns p src.mint).bind fun _ _ => ?_
  dsimp only
  split
  · exact (parseOptionalAddress_returns p src.owner).bind fun _ _ =>
      (parseOptionalAddress_returns p src.programId).map
  · nofun

theorem populateTransaction_returns (dst : Transaction) (tx : Solana.VersionedTransaction)
    (info : Solana.TransactionStatusMeta) : Returns (populateTransaction p dst tx info) := by
  refine pushAll_pure_returns.bind fun _ _ => ?_
  refine (populateMessage_returns _ _).bind fun _ _ => fit_returns.bind fun _ _ =>
    fit_returns.bind fun _ _ => ?_
  refine pushAll_pure_returns.bind fun _ _ => pushAll_pure_returns.bind fun _ _ => ?_
  refine (populateOption_returns (populateInnerInstructions_returns none)).bind fun _ _ => ?_
  refine (populateOption_returns (populateLogMessages_returns none)).bind fun _ _ => ?_
  refine (populateOption_returns fun _ =>
    pushAll_returns (tokenBalanceFromUpstream_returns p)).bind fun _ _ => ?_
  refine (populateOption_returns fun _ =>
    pushAll_returns (tokenBalanceFromUpstream_returns p)).bind fun _ _ => ?_
  refine (populateOption_returns fun _ => pushAll_returns fun src : Solana.Reward =>
    (parseAddress_returns p src.pubkey).map).bind fun _ _ => ?_
  exact (populateOption_returns fun _ => fit_returns.map).map

end Assertions

/-- Whatever the transaction held before, it is filled alike: with all that the source says, or not
at all where a list or payload has no place or a text cannot be read. -/
theorem populateTransaction_faithful (p : Solana.Parsers) (tx : Solana.VersionedTransaction)
    (info : Solana.TransactionStatusMeta) (dst : Transaction) :
    ((∃ t, populateTransaction p dst tx info = .ok t ∧ t.Faithful p tx info ∧
        Fits tx info ∧ Parses p info) ∨
      ∃ e, populateTransaction p dst tx info = .error e ∧ e ≠ .panics ∧
        (¬Fits tx info ∨ ¬Parses p info)) ∧
    ∀ dst', populateTransaction p dst' tx info = populateTransaction p dst tx info := by
  refine ⟨?_,fun dst' => populateTransaction_scratch p dst' dst tx info⟩
  have hsucceeds : Succeeds (populateTransaction p dst tx info) ↔ Fits tx info ∧ Parses p info :=
    populateTransaction_succeeds
  cases h : populateTransaction p dst tx info with
  | ok t => exact .inl ⟨t,rfl,populateTransaction_ok h,hsucceeds.mp ⟨t,h⟩⟩
  | error e =>
    rw [h] at hsucceeds
    have hreturns : e ≠ .panics := fun hpanics =>
      populateTransaction_returns p dst tx info (h.trans (congrArg _ hpanics))
    exact .inr ⟨e,rfl,hreturns,not_and_or.mp fun hboth => succeeds_error e (hsucceeds.mpr hboth)⟩

end Jetstreamer.Horizon
