import Jetstreamer.Horizon.Status
set_option autoImplicit false

namespace Jetstreamer.Solana
open Lib Lencode Horizon

structure CompiledInstruction where
  programIdIndex : UInt8
  accounts : Bytes
  data : Bytes
  deriving DecidableEq

structure MessageAddressTableLookup where
  accountKey : Address
  writableIndexes : Bytes
  readonlyIndexes : Bytes
  deriving DecidableEq

structure LegacyMessage where
  header : MessageHeader
  accountKeys : List Address
  recentBlockhash : Hash
  instructions : List CompiledInstruction
  deriving DecidableEq

structure V0Message where
  header : MessageHeader
  accountKeys : List Address
  recentBlockhash : Hash
  instructions : List CompiledInstruction
  addressTableLookups : List MessageAddressTableLookup
  deriving DecidableEq

structure V1Message where
  header : MessageHeader
  config : V1TransactionConfig
  lifetimeSpecifier : Hash
  accountKeys : List Address
  instructions : List CompiledInstruction
  deriving DecidableEq

inductive VersionedMessage where
  | legacy (m : LegacyMessage)
  | v0 (m : V0Message)
  | v1 (m : V1Message)
  deriving DecidableEq

structure VersionedTransaction where
  signatures : List Signature
  message : VersionedMessage
  deriving DecidableEq

structure InnerInstruction where
  instruction : CompiledInstruction
  stackHeight : Option UInt32

structure InnerInstructions where
  index : UInt8
  instructions : List InnerInstruction

structure UiTokenAmount where
  amount : String
  decimals : UInt8

structure TransactionTokenBalance where
  accountIndex : UInt8
  mint : String
  uiTokenAmount : UiTokenAmount
  owner : String
  programId : String

structure Reward where
  pubkey : String
  lamports : Int64
  postBalance : UInt64
  rewardType : Option RewardType
  commission : Option UInt8
  commissionBps : Option UInt16

structure LoadedAddresses where
  writable : List Address
  readonly : List Address

structure TransactionReturnData where
  programId : Address
  data : Bytes

/-- What the chain recorded of an executed transaction. Log lines are given by their bytes. -/
structure TransactionStatusMeta where
  status : Except TransactionError Unit
  fee : UInt64
  preBalances : List UInt64
  postBalances : List UInt64
  innerInstructions : Option (List InnerInstructions)
  logMessages : Option (List Bytes)
  preTokenBalances : Option (List TransactionTokenBalance)
  postTokenBalances : Option (List TransactionTokenBalance)
  rewards : Option (List Reward)
  loadedAddresses : LoadedAddresses
  returnData : Option TransactionReturnData
  computeUnitsConsumed : Option UInt64
  costUnits : Option UInt64

/-- How the texts of addresses and amounts are read. -/
structure Parsers where
  address : String → Option Address
  amount : String → Option UInt64

end Jetstreamer.Solana

namespace Jetstreamer.Horizon
open Lib Lencode

section Capacity

variable {N : Nat} {α β : Type}

def checkCapacity (field : String) (len max : Nat) : Except ConvertError Unit :=
  if max < len then .error (.capacityExceeded field len max) else .ok ()

/-- The check of a length and the `set` it is for, which replaces what was there. -/
def fit (field : String) (items : List α) : Except ConvertError (ZeroVec N α) :=
  if h : items.length ≤ N then .ok ⟨items,h⟩
  else .error (.capacityExceeded field items.length N)

def ZeroVec.push (zv : ZeroVec N α) (item : α) : Except ConvertError (ZeroVec N α) :=
  if h : zv.items.length < N then .ok ⟨zv.items ++ [item],by simp; omega⟩ else .error .panics

/-- Behind one check for the whole source, a push for each item. The check does not count what the
list holds already. -/
def pushAll (field : String) (convert : β → Except ConvertError α) (zv : ZeroVec N α)
    (srcs : List β) : Except ConvertError (ZeroVec N α) := do
  checkCapacity field srcs.length N
  srcs.foldlM (fun zv src => do zv.push (← convert src)) zv

/-- Room is looked for before the item is converted into it. -/
def pushInPlace (field : String) (populate : β → Except ConvertError α) (zv : ZeroVec N α)
    (src : β) : Except ConvertError (ZeroVec N α) :=
  if h : N ≤ zv.items.length then .error (.capacityExceeded field (zv.items.length + 1) N)
  else do
    let item ← populate src
    return ⟨zv.items ++ [item],by simp; omega⟩

/-- A field that is left as it is when there is nothing to put into it. -/
def populateOption (populate : Option α → β → Except ConvertError α) (dst : Option α) :
    Option β → Except ConvertError (Option α)
  | none => .ok dst
  | some src => some <$> populate dst src

theorem fit_ok {field : String} {items : List α} {zv : ZeroVec N α} (h : fit field items = .ok zv) :
    zv.items = items := by
  unfold fit at h
  split at h
  · cases h
    rfl
  · cases h

/-- Steps that put what they make of a source behind what the list holds. -/
def Appends (step : ZeroVec N α → β → Except ConvertError (ZeroVec N α))
    (populate : β → Except ConvertError α) : Prop :=
  ∀ zv src next, step zv src = .ok next ↔
    ∃ item, populate src = .ok item ∧ next.items = zv.items ++ [item]

variable {field : String} {populate : β → Except ConvertError α} {zv next : ZeroVec N α}

theorem ZeroVec.push_ok {item : α} : zv.push item = .ok next ↔ next.items = zv.items ++ [item] := by
  unfold ZeroVec.push
  split
  · rw [Except.ok.injEq,ZeroVec.ext_iff,eq_comm]
  · rename_i hfull
    refine iff_of_false (fun h => by cases h) fun hitems => hfull ?_
    have hfits := next.fits
    rw [hitems,List.length_append] at hfits
    exact hfits

theorem push_appends : Appends (N := N) (fun zv src => do zv.push (← populate src)) populate := by
  intro zv src next
  constructor
  · intro h
    obtain ⟨item,hitem,h⟩ := bind_ok h
    exact ⟨item,hitem,ZeroVec.push_ok.mp h⟩
  · rintro ⟨item,hitem,hitems⟩
    simp only [hitem,ok_bind,ZeroVec.push_ok,hitems]

theorem pushInPlace_appends : Appends (N := N) (pushInPlace field populate) populate := by
  intro zv src next
  unfold pushInPlace
  split
  · rename_i hfull
    refine iff_of_false (fun h => by cases h) ?_
    rintro ⟨item,_,hitems⟩
    have hfits := next.fits
    rw [hitems,List.length_append,List.length_singleton] at hfits
    omega
  · constructor
    · intro h
      obtain ⟨item,hitem,h⟩ := bind_ok h
      cases h
      exact ⟨item,hitem,rfl⟩
    · rintro ⟨item,hitem,hitems⟩
      rw [hitem,ok_bind]
      exact congrArg Except.ok (ZeroVec.ext hitems.symm)

theorem Appends.foldlM {step : ZeroVec N α → β → Except ConvertError (ZeroVec N α)}
    (h : Appends step populate) {srcs : List β} : srcs.foldlM step zv = .ok next ↔
      ∃ items, List.Forall₂ (fun src item => populate src = .ok item) srcs items ∧
        next.items = zv.items ++ items := by
  induction srcs generalizing zv with
  | nil =>
    simp only [List.foldlM_nil,List.forall₂_nil_left_iff,exists_eq_left,List.append_nil]
    exact (Except.ok.injEq zv next).to_iff.trans ((ZeroVec.ext_iff).trans eq_comm)
  | cons src rest ih =>
    rw [List.foldlM_cons]
    constructor
    · intro hrun
      obtain ⟨middle,hmiddle,hrest⟩ := bind_ok hrun
      obtain ⟨item,hitem,hitems⟩ := (h zv src middle).mp hmiddle
      obtain ⟨items,hall,hnext⟩ := ih.mp hrest
      exact ⟨item :: items,.cons hitem hall,
        by rw [hnext,hitems,List.append_assoc,List.singleton_append]⟩
    · rintro ⟨_,hall,hnext⟩
      cases hall with
      | @cons _ item _ items hitem hall =>
        have hfits := next.fits
        rw [hnext,List.length_append,List.length_cons] at hfits
        let middle : ZeroVec N α := ⟨zv.items ++ [item],by simp; omega⟩
        rw [(h zv src middle).mpr ⟨item,hitem,rfl⟩,ok_bind,ih]
        exact ⟨items,hall,by rw [hnext,List.append_assoc,List.singleton_append]⟩

theorem foldlM_pushInPlace {γ : Type} (view : α → γ) (source : β → γ)
    (hview : ∀ src item, populate src = .ok item → view item = source src) {srcs : List β}
    (h : srcs.foldlM (pushInPlace field populate) zv = .ok next) :
    next.items.map view = zv.items.map view ++ srcs.map source := by
  obtain ⟨items,hall,hnext⟩ := pushInPlace_appends.foldlM.mp h
  clear h
  rw [hnext,List.map_append]
  clear hnext
  congr 1
  induction hall with
  | nil => rfl
  | cons hitem _ ih => rw [List.map_cons,List.map_cons,hview _ _ hitem,ih]

theorem pushAll_ok {srcs : List β} (h : pushAll field populate zv srcs = .ok next) :
    ∃ items, List.Forall₂ (fun src item => populate src = .ok item) srcs items ∧
      next.items = zv.items ++ items := by
  obtain ⟨_,-,h⟩ := bind_ok h
  exact push_appends.foldlM.mp h

theorem pushAll_pure {items : List α} (h : pushAll field .ok zv items = .ok next) :
    next.items = zv.items ++ items := by
  obtain ⟨items',hall,hnext⟩ := pushAll_ok h
  rw [hnext,List.append_cancel_left_eq,← List.forall₂_eq_eq_eq]
  exact hall.flip.imp fun _ _ hok => Except.ok.inj hok.symm

end Capacity

section Clear

def MessageHeader.empty : MessageHeader := ⟨0,0,0⟩

/-- Hashes and configurations of a message whose storage has been zeroed. -/
def zeroHash : Hash := ⟨List.replicate 32 0,length_zeros32⟩

def LegacyMessage.empty : LegacyMessage := ⟨.empty,.empty,zeroHash,.empty⟩

def V0Message.empty : V0Message := ⟨.empty,.empty,zeroHash,.empty,.empty⟩

def V1Message.empty : V1Message := ⟨.empty,⟨none,none,none,none⟩,zeroHash,.empty,.empty⟩

def CompiledInstruction.zero : CompiledInstruction := ⟨0,.empty,.empty⟩

def zeroAddress : Address := ⟨List.replicate 32 0,length_zeros32⟩

def MessageAddressTableLookup.zero : MessageAddressTableLookup := ⟨zeroAddress,.empty,.empty⟩

def InnerInstruction.zero : InnerInstruction := ⟨0,.zero,none⟩

def LogMessages.empty : LogMessages := ⟨.empty,.empty⟩

def LogMessages.clear (logs : LogMessages) : LogMessages := ⟨logs.lens.clear,logs.data.clear⟩

def ReturnData.zero : ReturnData := ⟨zeroAddress,.empty⟩

def LegacyMessage.clear (m : LegacyMessage) : LegacyMessage := { m with
  header := .empty
  accountKeys := m.accountKeys.clear
  recentBlockhash := zeroHash
  instructions := m.instructions.clear }

def V0Message.clear (m : V0Message) : V0Message := { m with
  header := .empty
  accountKeys := m.accountKeys.clear
  recentBlockhash := zeroHash
  instructions := m.instructions.clear
  addressTableLookups := m.addressTableLookups.clear }

def V1Message.clear (m : V1Message) : V1Message := { m with
  header := .empty
  config := ⟨none,none,none,none⟩
  lifetimeSpecifier := zeroHash
  accountKeys := m.accountKeys.clear
  instructions := m.instructions.clear }

/-- Clears the message without changing its version. -/
def VersionedMessage.clear : VersionedMessage → VersionedMessage
  | .legacy m => .legacy m.clear
  | .v0 m => .v0 m.clear
  | .v1 m => .v1 m.clear

/-- A message of another version leaves zeroed storage, one of this version what it held: cleared
both times. -/
def VersionedMessage.forceLegacyMut : VersionedMessage → LegacyMessage
  | .legacy m => m.clear
  | _ => LegacyMessage.empty.clear

def VersionedMessage.forceV0Mut : VersionedMessage → V0Message
  | .v0 m => m.clear
  | _ => V0Message.empty.clear

def VersionedMessage.forceV1Mut : VersionedMessage → V1Message
  | .v1 m => m.clear
  | _ => V1Message.empty.clear

def Transaction.clear (tx : Transaction) : Transaction := { tx with
  status := .ok
  fee := 0
  preBalances := tx.preBalances.clear
  postBalances := tx.postBalances.clear
  loadedWritableAddresses := tx.loadedWritableAddresses.clear
  loadedReadonlyAddresses := tx.loadedReadonlyAddresses.clear
  innerInstructions := none
  logMessages := none
  preTokenBalances := none
  postTokenBalances := none
  rewards := none
  returnData := none
  computeUnitsConsumed := none
  costUnits := none
  signatures := tx.signatures.clear
  message := tx.message.clear
  accountUpdates := .empty }

theorem VersionedMessage.forceLegacyMut_eq (m : VersionedMessage) : m.forceLegacyMut = .empty := by
  cases m <;> rfl

theorem VersionedMessage.forceV0Mut_eq (m : VersionedMessage) : m.forceV0Mut = .empty := by
  cases m <;> rfl

theorem VersionedMessage.forceV1Mut_eq (m : VersionedMessage) : m.forceV1Mut = .empty := by
  cases m <;> rfl

end Clear

section Populate

variable (p : Solana.Parsers)

def parseAddress (field : String) (s : String) : Except ConvertError Address :=
  match p.address s with
  | some address => .ok address
  | none => .error (.invalidAddress field)

/-- The empty text stands for no address. -/
def parseOptionalAddress (field : String) (s : String) : Except ConvertError (Option Address) :=
  if s.isEmpty then .ok none else some <$> parseAddress p field s

def rewardFromStatusReward (src : Solana.Reward) : Except ConvertError Reward := do
  let pubkey ← parseAddress p "reward.pubkey" src.pubkey
  return ⟨pubkey,src.lamports,src.postBalance,src.rewardType,src.commission,src.commissionBps⟩

/-- A reward as a block carries it. -/
def rewardFromInfo (pubkey : Address) (rewardType : RewardType) (lamports : Int64)
    (postBalance : UInt64) (commissionBps : Option UInt16) : Reward where
  pubkey
  lamports
  postBalance
  rewardType := some rewardType
  commission := commissionBps.bind fun bps =>
    if (bps / 100).toNat < 256 then some (bps / 100).toUInt8 else none
  commissionBps

def tokenBalanceFromUpstream (src : Solana.TransactionTokenBalance) :
    Except ConvertError TransactionTokenBalance := do
  let mint ← parseAddress p "token_balance.mint" src.mint
  let amount ← match p.amount src.uiTokenAmount.amount with
    | some amount => .ok amount
    | none => .error .invalidTokenAmount
  let owner ← parseOptionalAddress p "token_balance.owner" src.owner
  let programId ← parseOptionalAddress p "token_balance.program_id" src.programId
  return ⟨src.accountIndex,mint,⟨amount,src.uiTokenAmount.decimals⟩,owner,programId⟩

def populateCompiledInstruction (dst : CompiledInstruction) (src : Solana.CompiledInstruction) :
    Except ConvertError CompiledInstruction := do
  let accounts ← fit "instruction.accounts" src.accounts
  let data ← fit "instruction.data" src.data
  return { dst with programIdIndex := src.programIdIndex, accounts, data }

def populateMessageCommon (accountKeys : ZeroVec maxTxAccounts Address)
    (instructions : ZeroVec maxTxInstructions CompiledInstruction) (srcKeys : List Address)
    (srcInstructions : List Solana.CompiledInstruction) : Except ConvertError
      (ZeroVec maxTxAccounts Address × ZeroVec maxTxInstructions CompiledInstruction) := do
  let accountKeys ← pushAll "message.account_keys" .ok accountKeys srcKeys
  let instructions ← srcInstructions.foldlM
    (pushInPlace "message.instructions" (populateCompiledInstruction .zero)) instructions
  return (accountKeys,instructions)

def populateLookup (slot : MessageAddressTableLookup) (src : Solana.MessageAddressTableLookup) :
    Except ConvertError MessageAddressTableLookup := do
  let writableIndexes ← fit "lookup.writable_indexes" src.writableIndexes
  let readonlyIndexes ← fit "lookup.readonly_indexes" src.readonlyIndexes
  return { slot with accountKey := src.accountKey, writableIndexes, readonlyIndexes }

def populateLookups (dst : ZeroVec maxTxAddrLookups MessageAddressTableLookup)
    (lookups : List Solana.MessageAddressTableLookup) :
    Except ConvertError (ZeroVec maxTxAddrLookups MessageAddressTableLookup) := do
  checkCapacity "message.address_table_lookups" lookups.length maxTxAddrLookups
  lookups.foldlM (pushInPlace "address_table_lookups" (populateLookup .zero)) dst

def populateMessage (dst : VersionedMessage) :
    Solana.VersionedMessage → Except ConvertError VersionedMessage
  | .legacy m => do
    let dst := { dst.forceLegacyMut with header := m.header, recentBlockhash := m.recentBlockhash }
    let (accountKeys,instructions) ← populateMessageCommon dst.accountKeys dst.instructions
      m.accountKeys m.instructions
    return .legacy { dst with accountKeys, instructions }
  | .v0 m => do
    let dst := { dst.forceV0Mut with header := m.header, recentBlockhash := m.recentBlockhash }
    let (accountKeys,instructions) ← populateMessageCommon dst.accountKeys dst.instructions
      m.accountKeys m.instructions
    let addressTableLookups ← populateLookups dst.addressTableLookups m.addressTableLookups
    return .v0 { dst with accountKeys, instructions, addressTableLookups }
  | .v1 m => do
    let dst := { dst.forceV1Mut with
      header := m.header, config := m.config, lifetimeSpecifier := m.lifetimeSpecifier }
    let (accountKeys,instructions) ← populateMessageCommon dst.accountKeys dst.instructions
      m.accountKeys m.instructions
    return .v1 { dst with accountKeys, instructions }

def populateInnerInstruction (slot : InnerInstruction) (src : UInt8 × Solana.InnerInstruction) :
    Except ConvertError InnerInstruction := do
  let instruction ← populateCompiledInstruction slot.instruction src.2.instruction
  return { slot with outerIndex := src.1, stackHeight := src.2.stackHeight, instruction }

/-- The groups are laid end to end, each instruction with the index of its group. -/
def populateInnerInstructions (dst : Option (ZeroVec maxTxInnerIx InnerInstruction))
    (groups : List Solana.InnerInstructions) :
    Except ConvertError (ZeroVec maxTxInnerIx InnerInstruction) :=
  let list := (dst.getD .empty).clear
  (groups.flatMap fun group => group.instructions.map (group.index,·)).foldlM
    (pushInPlace "inner_instructions" (populateInnerInstruction .zero)) list

inductive PushLogError where
  | linesFull
  | dataFull
  deriving DecidableEq, Repr

def LogMessages.push (logs : LogMessages) (line : Bytes) : Except PushLogError LogMessages :=
  if hlines : maxTxLogMsgs ≤ logs.lens.items.length then .error .linesFull
  else if hdata : maxTxLogData < logs.data.items.length + line.length then .error .dataFull
  else .ok ⟨⟨logs.lens.items ++ [UInt32.ofNat line.length],by simp; omega⟩,
    ⟨logs.data.items ++ line,by simp; omega⟩⟩

/-- One more line, with the bytes of all lines so far for the error. -/
def populateLogLine (done : Nat × LogMessages) (line : Bytes) :
    Except ConvertError (Nat × LogMessages) :=
  let total := done.1 + line.length
  match done.2.push line with
  | .ok logs => .ok (total,logs)
  | .error _ => .error (.capacityExceeded "log_messages.data" total maxTxLogData)

def populateLogMessages (dst : Option LogMessages) (logs : List Bytes) :
    Except ConvertError LogMessages := do
  checkCapacity "log_messages" logs.length maxTxLogMsgs
  let done ← logs.foldlM populateLogLine (0,(dst.getD .empty).clear)
  return done.2

def populateTokenBalances (dst : Option (ZeroVec maxTxTokenBalances TransactionTokenBalance))
    (field : String) (balances : List Solana.TransactionTokenBalance) :
    Except ConvertError (ZeroVec maxTxTokenBalances TransactionTokenBalance) :=
  pushAll field (tokenBalanceFromUpstream p) (dst.getD .empty).clear balances

def populateRewards (dst : Option (ZeroVec maxTxRewards Reward)) (rewards : List Solana.Reward) :
    Except ConvertError (ZeroVec maxTxRewards Reward) :=
  pushAll "rewards" (rewardFromStatusReward p) (dst.getD .empty).clear rewards

def populateReturnData (dst : Option ReturnData) (src : Solana.TransactionReturnData) :
    Except ConvertError ReturnData := do
  let data ← fit "return_data" src.data
  return { dst.getD .zero with programId := src.programId, data }

/-- Fills a transaction that may still hold another one. -/
def populateTransaction (dst : Transaction) (tx : Solana.VersionedTransaction)
    (info : Solana.TransactionStatusMeta) : Except ConvertError Transaction := do
  let dst := dst.clear
  let signatures ← pushAll "signatures" .ok dst.signatures tx.signatures
  let message ← populateMessage dst.message tx.message
  let preBalances ← fit "pre_balances" info.preBalances
  let postBalances ← fit "post_balances" info.postBalances
  let loadedWritableAddresses ← pushAll "loaded_addresses.writable" .ok
    dst.loadedWritableAddresses info.loadedAddresses.writable
  let loadedReadonlyAddresses ← pushAll "loaded_addresses.readonly" .ok
    dst.loadedReadonlyAddresses info.loadedAddresses.readonly
  let innerInstructions ← populateOption populateInnerInstructions dst.innerInstructions
    info.innerInstructions
  let logMessages ← populateOption populateLogMessages dst.logMessages info.logMessages
  let preTokenBalances ← populateOption (populateTokenBalances p · "pre_token_balances")
    dst.preTokenBalances info.preTokenBalances
  let postTokenBalances ← populateOption (populateTokenBalances p · "post_token_balances")
    dst.postTokenBalances info.postTokenBalances
  let rewards ← populateOption (populateRewards p) dst.rewards info.rewards
  let returnData ← populateOption populateReturnData dst.returnData info.returnData
  return { dst with
    signatures, message, preBalances, postBalances, loadedWritableAddresses,
    loadedReadonlyAddresses, innerInstructions, logMessages, preTokenBalances, postTokenBalances,
    rewards, returnData
    status := statusFromResult info.status
    fee := info.fee
    computeUnitsConsumed := info.computeUnitsConsumed
    costUnits := info.costUnits }

end Populate

section Lossless

/-- The message a fixed-capacity one stands for. -/
def CompiledInstruction.upstream (ix : CompiledInstruction) : Solana.CompiledInstruction :=
  ⟨ix.programIdIndex,ix.accounts.items,ix.data.items⟩

def MessageAddressTableLookup.upstream (l : MessageAddressTableLookup) :
    Solana.MessageAddressTableLookup :=
  ⟨l.accountKey,l.writableIndexes.items,l.readonlyIndexes.items⟩

def VersionedMessage.upstream : VersionedMessage → Solana.VersionedMessage
  | .legacy m => .legacy ⟨m.header,m.accountKeys.items,m.recentBlockhash,
      m.instructions.items.map CompiledInstruction.upstream⟩
  | .v0 m => .v0 ⟨m.header,m.accountKeys.items,m.recentBlockhash,
      m.instructions.items.map CompiledInstruction.upstream,
      m.addressTableLookups.items.map MessageAddressTableLookup.upstream⟩
  | .v1 m => .v1 ⟨m.header,m.config,m.lifetimeSpecifier,m.accountKeys.items,
      m.instructions.items.map CompiledInstruction.upstream⟩

theorem populateCompiledInstruction_upstream {dst ix : CompiledInstruction}
    {src : Solana.CompiledInstruction} (h : populateCompiledInstruction dst src = .ok ix) :
    ix.upstream = src := by
  obtain ⟨accounts,haccounts,h⟩ := bind_ok h
  obtain ⟨data,hdata,h⟩ := bind_ok h
  cases h
  rw [CompiledInstruction.upstream,fit_ok haccounts,fit_ok hdata]

theorem populateLookup_upstream {slot l : MessageAddressTableLookup}
    {src : Solana.MessageAddressTableLookup} (h : populateLookup slot src = .ok l) :
    l.upstream = src := by
  obtain ⟨writable,hwritable,h⟩ := bind_ok h
  obtain ⟨readonly,hreadonly,h⟩ := bind_ok h
  cases h
  rw [MessageAddressTableLookup.upstream,fit_ok hwritable,fit_ok hreadonly]

theorem populateMessageCommon_upstream {keys : List Address}
    {srcs : List Solana.CompiledInstruction} {accountKeys : ZeroVec maxTxAccounts Address}
    {instructions : ZeroVec maxTxInstructions CompiledInstruction}
    (h : populateMessageCommon .empty .empty keys srcs = .ok (accountKeys,instructions)) :
    accountKeys.items = keys ∧ instructions.items.map CompiledInstruction.upstream = srcs := by
  obtain ⟨keys',hkeys,h⟩ := bind_ok h
  obtain ⟨instructions',hinstructions,h⟩ := bind_ok h
  cases h
  refine ⟨pushAll_pure hkeys,?_⟩
  have hmap := foldlM_pushInPlace CompiledInstruction.upstream id
    (fun src ix hix => populateCompiledInstruction_upstream hix) hinstructions
  simpa [ZeroVec.empty] using hmap

theorem populateLookups_upstream {srcs : List Solana.MessageAddressTableLookup}
    {lookups : ZeroVec maxTxAddrLookups MessageAddressTableLookup}
    (h : populateLookups .empty srcs = .ok lookups) :
    lookups.items.map MessageAddressTableLookup.upstream = srcs := by
  obtain ⟨_,-,h⟩ := bind_ok h
  have hmap := foldlM_pushInPlace MessageAddressTableLookup.upstream id
    (fun src l hl => populateLookup_upstream hl) h
  simpa [ZeroVec.empty] using hmap

theorem populateMessage_upstream {dst m : VersionedMessage} {src : Solana.VersionedMessage}
    (h : populateMessage dst src = .ok m) : m.upstream = src := by
  unfold populateMessage at h
  simp only [dst.forceLegacyMut_eq,dst.forceV0Mut_eq,dst.forceV1Mut_eq] at h
  cases src with
  | legacy src =>
    obtain ⟨⟨keys,instructions⟩,hcommon,h⟩ := bind_ok h
    obtain ⟨hkeys,hinstructions⟩ := populateMessageCommon_upstream hcommon
    cases h
    simp only [VersionedMessage.upstream,hkeys,hinstructions]
  | v0 src =>
    obtain ⟨⟨keys,instructions⟩,hcommon,h⟩ := bind_ok h
    obtain ⟨lookups,hlookups,h⟩ := bind_ok h
    obtain ⟨hkeys,hinstructions⟩ := populateMessageCommon_upstream hcommon
    cases h
    simp only [VersionedMessage.upstream,hkeys,hinstructions,populateLookups_upstream hlookups]
  | v1 src =>
    obtain ⟨⟨keys,instructions⟩,hcommon,h⟩ := bind_ok h
    obtain ⟨hkeys,hinstructions⟩ := populateMessageCommon_upstream hcommon
    cases h
    simp only [VersionedMessage.upstream,hkeys,hinstructions]

/-- What a populated transaction says of the one it was made from. -/
structure Transaction.Carries (t : Transaction) (tx : Solana.VersionedTransaction)
    (info : Solana.TransactionStatusMeta) : Prop where
  signatures : t.signatures.items = tx.signatures
  message : t.message.upstream = tx.message
  status : t.status = statusFromResult info.status
  fee : t.fee = info.fee
  preBalances : t.preBalances.items = info.preBalances
  postBalances : t.postBalances.items = info.postBalances
  writable : t.loadedWritableAddresses.items = info.loadedAddresses.writable
  readonly : t.loadedReadonlyAddresses.items = info.loadedAddresses.readonly
  computeUnits : t.computeUnitsConsumed = info.computeUnitsConsumed
  costUnits : t.costUnits = info.costUnits
  updates : t.accountUpdates = .empty

theorem populateTransaction_carries {p : Solana.Parsers} {dst t : Transaction}
    {tx : Solana.VersionedTransaction} {info : Solana.TransactionStatusMeta}
    (h : populateTransaction p dst tx info = .ok t) : t.Carries tx info := by
  obtain ⟨signatures,hsignatures,h⟩ := bind_ok h
  obtain ⟨message,hmessage,h⟩ := bind_ok h
  obtain ⟨preBalances,hpre,h⟩ := bind_ok h
  obtain ⟨postBalances,hpost,h⟩ := bind_ok h
  obtain ⟨writable,hwritable,h⟩ := bind_ok h
  obtain ⟨readonly,hreadonly,h⟩ := bind_ok h
  obtain ⟨_,-,h⟩ := bind_ok h
  obtain ⟨_,-,h⟩ := bind_ok h
  obtain ⟨_,-,h⟩ := bind_ok h
  obtain ⟨_,-,h⟩ := bind_ok h
  obtain ⟨_,-,h⟩ := bind_ok h
  obtain ⟨_,-,h⟩ := bind_ok h
  cases h
  exact {
    signatures := pushAll_pure hsignatures, message := populateMessage_upstream hmessage,
      status := rfl
    fee := rfl, preBalances := fit_ok hpre, postBalances := fit_ok hpost
    writable := pushAll_pure hwritable, readonly := pushAll_pure hreadonly
    computeUnits := rfl, costUnits := rfl, updates := rfl }

theorem populateTransaction_scratch (p : Solana.Parsers) (dst dst' : Transaction)
    (tx : Solana.VersionedTransaction) (info : Solana.TransactionStatusMeta) :
    populateTransaction p dst tx info = populateTransaction p dst' tx info := by
  have hmessage (m : VersionedMessage) :
      populateMessage m tx.message = populateMessage dst.clear.message tx.message := by
    simp only [populateMessage,VersionedMessage.forceLegacyMut_eq,VersionedMessage.forceV0Mut_eq,
      VersionedMessage.forceV1Mut_eq]
  unfold populateTransaction
  simp only [hmessage dst'.clear.message]
  rfl

end Lossless

end Jetstreamer.Horizon
