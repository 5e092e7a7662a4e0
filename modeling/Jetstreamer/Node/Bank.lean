import Jetstreamer.Lib.Reordering
import Jetstreamer.Node.Rounds
set_option autoImplicit false

namespace Jetstreamer.Node
open Jetstreamer.Lib

section Bank

variable {Address Account Tx Status : Type}

/-- A sanitized transaction: its account keys, each with `is_writable`. -/
structure SanitizedTransaction (Address Tx : Type) where
  accountKeys : List (Address × Bool)
  tx : Tx

variable [DecidableEq Address]

def EntryAccounts.union (e f : EntryAccounts Address) : EntryAccounts Address :=
  ⟨e.writes ∪ f.writes,e.reads ∪ f.reads⟩

/-- The locks the transactions take: writable keys and read-only keys. -/
def lockFootprint (txs : List (SanitizedTransaction Address Tx)) : EntryAccounts Address :=
  let keys := txs.flatMap SanitizedTransaction.accountKeys
  ⟨((keys.filter fun key => key.2).map Prod.fst).toFinset,
    ((keys.filter fun key => !key.2).map Prod.fst).toFinset⟩

def entryAccounts (txs : List (SanitizedTransaction Address Tx)) : EntryAccounts Address :=
  let locks := lockFootprint txs
  ⟨locks.writes,locks.reads.filter fun a => a ∉ locks.writes⟩

variable {txs : List (SanitizedTransaction Address Tx)}

theorem mem_lockFootprint_writes {a : Address} :
    a ∈ (lockFootprint txs).writes ↔ ∃ tx ∈ txs, (a,true) ∈ tx.accountKeys := by
  simp [lockFootprint]

theorem mem_lockFootprint_reads {a : Address} :
    a ∈ (lockFootprint txs).reads ↔ ∃ tx ∈ txs, (a,false) ∈ tx.accountKeys := by
  simp [lockFootprint]

theorem lockFootprint_mono {txs' : List (SanitizedTransaction Address Tx)}
    (h : ∀ tx ∈ txs, tx ∈ txs') :
    (lockFootprint txs).writes ⊆ (lockFootprint txs').writes ∧
      (lockFootprint txs).reads ⊆ (lockFootprint txs').reads := by
  constructor
  · intro a ha
    obtain ⟨tx,htx,hkey⟩ := mem_lockFootprint_writes.mp ha
    exact mem_lockFootprint_writes.mpr ⟨tx,h tx htx,hkey⟩
  · intro a ha
    obtain ⟨tx,htx,hkey⟩ := mem_lockFootprint_reads.mp ha
    exact mem_lockFootprint_reads.mpr ⟨tx,h tx htx,hkey⟩

variable {e held : EntryAccounts Address}

omit [DecidableEq Address] in
theorem EntryAccounts.conflictsWith_mono {f e' f' : EntryAccounts Address}
    (hew : e.writes ⊆ e'.writes) (her : e.reads ⊆ e'.reads)
    (hfw : f.writes ⊆ f'.writes) (hfr : f.reads ⊆ f'.reads)
    (h : e.conflictsWith f) : e'.conflictsWith f' := by
  rcases h with ⟨a,ha,hw | hr⟩ | ⟨a,ha,hw⟩
  · exact .inl ⟨a,hew ha,.inl (hfw hw)⟩
  · exact .inl ⟨a,hew ha,.inr (hfr hr)⟩
  · exact .inr ⟨a,her ha,hfw hw⟩

theorem conflictsWith_union {f g : EntryAccounts Address} :
    e.conflictsWith (f.union g) ↔ e.conflictsWith f ∨ e.conflictsWith g := by
  simp only [EntryAccounts.conflictsWith,EntryAccounts.union,Finset.mem_union]
  grind

theorem conflictsWith_entryAccounts :
    e.conflictsWith (entryAccounts txs) ↔ e.conflictsWith (lockFootprint txs) := by
  simp only [EntryAccounts.conflictsWith,entryAccounts,Finset.mem_filter]
  grind

theorem entryAccounts_conflictsWith :
    (entryAccounts txs).conflictsWith e ↔ (lockFootprint txs).conflictsWith e := by
  rw [EntryAccounts.conflictsWith_comm,conflictsWith_entryAccounts,
    EntryAccounts.conflictsWith_comm]

/-- The lock table: a lock fails exactly on a write-write or write-read
overlap with a held lock. -/
def canLock (held : EntryAccounts Address) (tx : SanitizedTransaction Address Tx) : Bool :=
  tx.accountKeys.all fun key =>
    decide (key.1 ∉ held.writes) && (!key.2 || decide (key.1 ∉ held.reads))

variable {tx : SanitizedTransaction Address Tx}

theorem canLock_iff :
    canLock held tx = true ↔ ¬ (lockFootprint [tx]).conflictsWith held := by
  simp only [canLock,List.all_eq_true,EntryAccounts.conflictsWith,mem_lockFootprint_writes,
    mem_lockFootprint_reads]
  constructor
  · rintro h (⟨a,⟨t,ht,hkey⟩,hheld⟩ | ⟨a,⟨t,ht,hkey⟩,hheld⟩)
    · obtain rfl := List.mem_singleton.mp ht
      have := h (a,true) hkey
      simp at this
      tauto
    · obtain rfl := List.mem_singleton.mp ht
      have := h (a,false) hkey
      simp at this
      tauto
  · rintro h ⟨a,writable⟩ hkey
    cases writable <;> simp at * <;> grind

/-- A batch holds the locks of the transactions that could be locked. -/
structure TransactionBatch (Address Tx : Type) where
  txs : List (SanitizedTransaction Address Tx)
  lockResults : List Bool

def TransactionBatch.lockedTxs (batch : TransactionBatch Address Tx) :
    List (SanitizedTransaction Address Tx) :=
  ((batch.txs.zip batch.lockResults).filter fun pair => pair.2).map Prod.fst

def TransactionBatch.locks (batch : TransactionBatch Address Tx) : EntryAccounts Address :=
  lockFootprint batch.lockedTxs

structure ExecuteOutput (Address Account Status : Type) where
  accounts : Address → Account
  statuses : List Status
  captured : List (Address × Account)

/-- The runtime bank, as far as replay uses it. With the relaxed rule the
transactions of one batch do not lock each other out. `loadAndExecute` is an
attempt that commits nothing; it may end without a result. -/
structure Bank (Address Account Tx Status : Type) where
  sanitize : Tx → SanitizedTransaction Address Tx
  relaxIntrabatchLocks : Bool
  accountInUse : Status
  loadExecuteAndCommit : List (SanitizedTransaction Address Tx) → (Address → Account) →
    ExecuteOutput Address Account Status
  loadAndExecute : Nat → TransactionBatch Address Tx → (Address → Account) → Option Status

def lockTransactions (relax : Bool) (held own : EntryAccounts Address) :
    List (SanitizedTransaction Address Tx) → List Bool
  | [] => []
  | tx :: rest =>
      if canLock held tx && (relax || canLock own tx) then
        true :: lockTransactions relax held (own.union (lockFootprint [tx])) rest
      else
        false :: lockTransactions relax held own rest

def noLocks : EntryAccounts Address := ⟨∅,∅⟩

def Bank.prepareSanitizedBatch (bank : Bank Address Account Tx Status)
    (held : EntryAccounts Address) (txs : List (SanitizedTransaction Address Tx)) :
    TransactionBatch Address Tx :=
  ⟨txs,lockTransactions bank.relaxIntrabatchLocks held noLocks txs⟩

theorem lockFootprint_cons_conflictsWith
    {rest : List (SanitizedTransaction Address Tx)} :
    (lockFootprint (tx :: rest)).conflictsWith held ↔
      (lockFootprint [tx]).conflictsWith held ∨ (lockFootprint rest).conflictsWith held := by
  simp only [EntryAccounts.conflictsWith,mem_lockFootprint_writes,mem_lockFootprint_reads]
  grind

omit [DecidableEq Address] in
theorem not_conflictsWith_noLocks :
    ¬ e.conflictsWith noLocks := by
  simp [EntryAccounts.conflictsWith,noLocks]

@[simp] theorem canLock_noLocks :
    canLock noLocks tx = true :=
  canLock_iff.mpr not_conflictsWith_noLocks

theorem lockTransactions_of_free {relax : Bool} {own : EntryAccounts Address}
    (h : ¬ (lockFootprint txs).conflictsWith held) :
    lockTransactions relax held own txs = lockTransactions relax noLocks own txs := by
  induction txs generalizing own with
  | nil => rfl
  | cons tx rest ih =>
    rw [lockFootprint_cons_conflictsWith] at h
    have htx : canLock held tx = true := canLock_iff.mpr fun hc => h (.inl hc)
    have hrest : ¬ (lockFootprint rest).conflictsWith held := fun hc => h (.inr hc)
    simp only [lockTransactions,htx,canLock_noLocks,ih hrest]

theorem lockTransactions_all {relax : Bool} {own : EntryAccounts Address}
    (h : ∀ result ∈ lockTransactions relax held own txs, result = true) :
    ¬ (lockFootprint txs).conflictsWith held := by
  induction txs generalizing own with
  | nil => simp [EntryAccounts.conflictsWith,lockFootprint]
  | cons tx rest ih =>
    simp only [lockTransactions] at h
    split at h
    case isTrue hlock =>
      simp only [Bool.and_eq_true] at hlock
      have hrest := ih fun result hmem => h result (List.mem_cons_of_mem _ hmem)
      rw [lockFootprint_cons_conflictsWith]
      rintro (hc | hc)
      · exact canLock_iff.mp hlock.1 hc
      · exact hrest hc
    case isFalse => exact absurd (h false List.mem_cons_self) (by simp)

variable {batch : TransactionBatch Address Tx}

omit [DecidableEq Address] in
theorem lockedTxs_mem (h : tx ∈ batch.lockedTxs) : tx ∈ batch.txs := by
  simp only [TransactionBatch.lockedTxs,List.mem_map,List.mem_filter] at h
  obtain ⟨⟨t,ok⟩,⟨hmem,_⟩,rfl⟩ := h
  exact (List.of_mem_zip hmem).1

/-- One status a transaction: the executed ones in order, `AccountInUse` for
those that were not locked. -/
def batchStatuses (accountInUse : Status) : List Bool → List Status → List Status
  | [], _ => []
  | false :: rest, statuses => accountInUse :: batchStatuses accountInUse rest statuses
  | true :: rest, status :: statuses => status :: batchStatuses accountInUse rest statuses
  | true :: _, [] => []

def Bank.executeEntryBatch (bank : Bank Address Account Tx Status)
    (batch : TransactionBatch Address Tx) (accounts : Address → Account) :
    ExecuteOutput Address Account Status :=
  let output := bank.loadExecuteAndCommit batch.lockedTxs accounts
  { output with statuses := batchStatuses bank.accountInUse batch.lockResults output.statuses }

/-- Execution reads only the accounts of the entry's two sets, and changes and
reports only accounts of its write set. -/
structure Bank.RespectsFootprint (bank : Bank Address Account Tx Status) : Prop where
  reads : ∀ txs s s',
    (∀ a, a ∈ (entryAccounts txs).writes ∨ a ∈ (entryAccounts txs).reads → s a = s' a) →
    (bank.loadExecuteAndCommit txs s).statuses = (bank.loadExecuteAndCommit txs s').statuses ∧
    (bank.loadExecuteAndCommit txs s).captured = (bank.loadExecuteAndCommit txs s').captured ∧
    ∀ a ∈ (entryAccounts txs).writes, (bank.loadExecuteAndCommit txs s).accounts a =
      (bank.loadExecuteAndCommit txs s').accounts a
  writes : ∀ txs s a, a ∉ (entryAccounts txs).writes →
    (bank.loadExecuteAndCommit txs s).accounts a = s a
  captured : ∀ txs s, ∀ update ∈ (bank.loadExecuteAndCommit txs s).captured,
    update.1 ∈ (entryAccounts txs).writes

def appendWrites (writes : Address → List Account) (captured : List (Address × Account))
    (a : Address) : List Account :=
  writes a ++ (captured.filter fun update => update.1 = a).map Prod.snd

/-- What executed batches leave behind: the accounts, the writes of each
account in commit order, and the output of each position. -/
structure Store (Address Account Status : Type) where
  accounts : Address → Account
  writes : Address → List Account
  outputs : Nat → Option (List Status × List (Address × Account))

def Bank.commitBatch (bank : Bank Address Account Tx Status)
    (store : Store Address Account Status) (item : Nat × TransactionBatch Address Tx) :
    Store Address Account Status :=
  let output := bank.executeEntryBatch item.2 store.accounts
  { accounts := output.accounts
    writes := appendWrites store.writes output.captured
    outputs := Function.update store.outputs item.1 (some (output.statuses,output.captured)) }

/-- Two commits depend on each other when they fill the same position or take
conflicting locks. -/
def batchDep (x y : Nat × TransactionBatch Address Tx) : Prop :=
  x.1 = y.1 ∨ x.2.locks.conflictsWith y.2.locks

variable {bank : Bank Address Account Tx Status}

section

variable (hf : bank.RespectsFootprint)
include hf

theorem executeEntryBatch_accounts_of_not_mem
    {s : Address → Account} {a : Address} (ha : a ∉ batch.locks.writes) :
    (bank.executeEntryBatch batch s).accounts a = s a :=
  hf.writes batch.lockedTxs s a ha

theorem executeEntryBatch_captured_mem
    {s : Address → Account} {update : Address × Account}
    (h : update ∈ (bank.executeEntryBatch batch s).captured) : update.1 ∈ batch.locks.writes :=
  hf.captured batch.lockedTxs s update h

theorem executeEntryBatch_after {b c : TransactionBatch Address Tx}
    (h : ¬ b.locks.conflictsWith c.locks) (s : Address → Account) :
    let after := (bank.executeEntryBatch b s).accounts
    (bank.executeEntryBatch c after).statuses = (bank.executeEntryBatch c s).statuses ∧
    (bank.executeEntryBatch c after).captured = (bank.executeEntryBatch c s).captured ∧
    ∀ a ∈ c.locks.writes,
      (bank.executeEntryBatch c after).accounts a = (bank.executeEntryBatch c s).accounts a := by
  intro after
  have hsame : ∀ a, a ∈ (entryAccounts c.lockedTxs).writes ∨
      a ∈ (entryAccounts c.lockedTxs).reads → after a = s a := by
    intro a ha
    apply executeEntryBatch_accounts_of_not_mem hf
    intro hb
    apply h
    rcases ha with ha | ha
    · exact .inl ⟨a,hb,.inl ha⟩
    · exact .inl ⟨a,hb,.inr (Finset.mem_filter.mp ha).1⟩
  obtain ⟨hs,hc,ha⟩ := hf.reads c.lockedTxs after s hsame
  refine ⟨?_,hc,ha⟩
  simp only [Bank.executeEntryBatch]
  rw [hs]

theorem executeEntryBatch_accounts_comm {b c : TransactionBatch Address Tx}
    (h : ¬ b.locks.conflictsWith c.locks) (s : Address → Account) :
    (bank.executeEntryBatch c (bank.executeEntryBatch b s).accounts).accounts =
      (bank.executeEntryBatch b (bank.executeEntryBatch c s).accounts).accounts := by
  have h' : ¬ c.locks.conflictsWith b.locks := fun hc =>
    h (EntryAccounts.conflictsWith_comm.mp hc)
  funext a
  by_cases hb : a ∈ b.locks.writes
  · have hc : a ∉ c.locks.writes := fun hc => h (.inl ⟨a,hb,.inl hc⟩)
    rw [executeEntryBatch_accounts_of_not_mem hf hc,(executeEntryBatch_after hf h' s).2.2 a hb]
  · rw [executeEntryBatch_accounts_of_not_mem hf hb]
    by_cases hc : a ∈ c.locks.writes
    · exact (executeEntryBatch_after hf h s).2.2 a hc
    · rw [executeEntryBatch_accounts_of_not_mem hf hc,executeEntryBatch_accounts_of_not_mem hf hc,
        executeEntryBatch_accounts_of_not_mem hf hb]

end

theorem appendWrites_comm {writes : Address → List Account}
    {left right : List (Address × Account)} {L R : Finset Address}
    (hl : ∀ update ∈ left, update.1 ∈ L) (hr : ∀ update ∈ right, update.1 ∈ R)
    (hd : ∀ a ∈ L, a ∉ R) :
    appendWrites (appendWrites writes left) right =
      appendWrites (appendWrites writes right) left := by
  funext a
  by_cases ha : a ∈ L
  · have hright : right.filter (fun update => update.1 = a) = [] := by
      simp only [List.filter_eq_nil_iff,decide_eq_true_eq]
      rintro update hmem rfl
      exact hd _ ha (hr update hmem)
    simp [appendWrites,hright]
  · have hleft : left.filter (fun update => update.1 = a) = [] := by
      simp only [List.filter_eq_nil_iff,decide_eq_true_eq]
      rintro update hmem rfl
      exact ha (hl update hmem)
    simp [appendWrites,hleft]

theorem commitBatch_commutes
    (hf : bank.RespectsFootprint) : Commutes bank.commitBatch batchDep := by
  rintro ⟨i,b⟩ ⟨j,c⟩ hdep store
  have hij : i ≠ j := fun h => hdep (.inl h)
  have h : ¬ b.locks.conflictsWith c.locks := fun hc => hdep (.inr hc)
  have h' : ¬ c.locks.conflictsWith b.locks := fun hc =>
    h (EntryAccounts.conflictsWith_comm.mp hc)
  obtain ⟨hcs,hcc,_⟩ := executeEntryBatch_after hf h store.accounts
  obtain ⟨hbs,hbc,_⟩ := executeEntryBatch_after hf h' store.accounts
  simp only [Bank.commitBatch,Store.mk.injEq,hcs,hcc,hbs,hbc]
  refine ⟨executeEntryBatch_accounts_comm hf h _,?_,Function.update_comm hij _ _ _⟩
  exact appendWrites_comm (fun _ => executeEntryBatch_captured_mem hf)
    (fun _ => executeEntryBatch_captured_mem hf) (fun a hb hc => h (.inl ⟨a,hb,.inl hc⟩))

end Bank

end Jetstreamer.Node
