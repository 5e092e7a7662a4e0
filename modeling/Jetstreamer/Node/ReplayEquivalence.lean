import Jetstreamer.Lib.Runs
import Jetstreamer.Node.Replay
set_option autoImplicit false

namespace Jetstreamer.Node
open Jetstreamer.Lib

section InOrder

variable {Address Account Tx Status Hash : Type} [DecidableEq Address]

/-- The transaction entries of a group with their positions and their own
batches, in entry order. -/
def Bank.scheduledItems (bank : Bank Address Account Tx Status) (pos : Nat) :
    List (ReadyEntry Tx Hash) → List (Nat × TransactionBatch Address Tx)
  | [] => []
  | entry :: rest =>
      if entry.txCount = 0 then bank.scheduledItems (pos + 1) rest
      else (pos,bank.entryBatch entry) :: bank.scheduledItems (pos + 1) rest

variable {entries : List (ReadyEntry Tx Hash)} {bank : Bank Address Account Tx Status} {pos : Nat}
  {pending : List (PendingEntryBatch Address Tx Hash)}

theorem scheduledItems_pos_le {item : Nat × TransactionBatch Address Tx}
    (h : item ∈ bank.scheduledItems pos entries) : pos ≤ item.1 := by
  induction entries generalizing pos with
  | nil => simp [Bank.scheduledItems] at h
  | cons entry rest ih =>
    simp only [Bank.scheduledItems] at h
    split at h
    · have := ih h
      omega
    · rcases List.mem_cons.mp h with rfl | h
      · exact Nat.le_refl _
      · have := ih h
        omega

theorem scheduledItems_batch {item : Nat × TransactionBatch Address Tx}
    (h : item ∈ bank.scheduledItems pos entries) :
    ∃ entry ∈ entries, item.2 = bank.entryBatch entry := by
  induction entries generalizing pos with
  | nil => simp [Bank.scheduledItems] at h
  | cons entry rest ih =>
    simp only [Bank.scheduledItems] at h
    split at h
    · obtain ⟨e,he,hb⟩ := ih h
      exact ⟨e,List.mem_cons_of_mem _ he,hb⟩
    · rcases List.mem_cons.mp h with rfl | h
      · exact ⟨entry,List.mem_cons_self,rfl⟩
      · obtain ⟨e,he,hb⟩ := ih h
        exact ⟨e,List.mem_cons_of_mem _ he,hb⟩

theorem scheduledItems_free
    (h : entries.Pairwise fun e f =>
      ¬ (bank.entryBatch e).locks.conflictsWith (bank.entryBatch f).locks) :
    (bank.scheduledItems pos entries).Pairwise fun x y => ¬ batchDep x y := by
  induction entries generalizing pos with
  | nil => simp [Bank.scheduledItems]
  | cons entry rest ih =>
    obtain ⟨hhead,htail⟩ := List.pairwise_cons.mp h
    simp only [Bank.scheduledItems]
    split
    · exact ih htail
    · refine List.pairwise_cons.mpr ⟨?_,ih htail⟩
      rintro item hitem (heq | hc)
      · have hle := scheduledItems_pos_le hitem
        omega
      · obtain ⟨e,he,hb⟩ := scheduledItems_batch hitem
        rw [hb] at hc
        exact hhead e he hc

theorem scheduledItems_nodup : (bank.scheduledItems pos entries).Nodup := by
  induction entries generalizing pos with
  | nil => simp [Bank.scheduledItems]
  | cons entry rest ih =>
    simp only [Bank.scheduledItems]
    split
    · exact ih
    · refine List.nodup_cons.mpr ⟨fun h => ?_,ih⟩
      have hle : pos + 1 ≤ pos := scheduledItems_pos_le h
      omega

theorem scheduledItems_append {left right : List (ReadyEntry Tx Hash)} :
    bank.scheduledItems pos (left ++ right) =
      bank.scheduledItems pos left ++ bank.scheduledItems (pos + left.length) right := by
  induction left generalizing pos with
  | nil => simp [Bank.scheduledItems]
  | cons entry rest ih =>
    simp only [List.cons_append,Bank.scheduledItems,ih]
    have hpos : pos + 1 + rest.length = pos + (rest.length + 1) := by omega
    split <;> simp [hpos]

theorem foldl_commitBatch_outputs
    {items : List (Nat × TransactionBatch Address Tx)} (h : ∀ item ∈ items, item.1 ≠ pos)
    (store : Store Address Account Status) :
    (items.foldl bank.commitBatch store).outputs pos = store.outputs pos := by
  induction items generalizing store with
  | nil => rfl
  | cons item rest ih =>
    rw [List.foldl_cons,ih fun item' hmem => h item' (List.mem_cons_of_mem _ hmem)]
    have hne : pos ≠ item.1 := fun heq => h item List.mem_cons_self heq.symm
    simp [Bank.commitBatch,Function.update_of_ne hne]

theorem besideLocks_entries :
    (besideLocks pending).map Prod.fst = pending.map PendingEntryBatch.entry := by
  induction pending with
  | nil => rfl
  | cons pb rest ih => simp only [besideLocks,List.map_cons,ih]

theorem scheduledItems_of_pending (pos : Nat) (hcount : ∀ pb ∈ pending, pb.entry.txCount ≠ 0)
    (hbatch : ∀ pb ∈ pending, pb.batch = bank.entryBatch pb.entry) :
    bank.scheduledItems pos (pending.map PendingEntryBatch.entry) =
      pending.mapIdx fun i pb => (pos + i,pb.batch) := by
  induction pending generalizing pos with
  | nil => rfl
  | cons pb rest ih =>
    have hrest := ih (pos + 1) (fun pb' hmem => hcount pb' (List.mem_cons_of_mem _ hmem))
      (fun pb' hmem => hbatch pb' (List.mem_cons_of_mem _ hmem))
    simp only [List.map_cons,Bank.scheduledItems,hcount pb List.mem_cons_self,if_false,hrest,
      List.mapIdx_cons,hbatch pb List.mem_cons_self]
    congr 2
    funext i pb'
    congr 1
    omega

end InOrder

section Verified

variable {Address Account Tx Status Hash : Type} [DecidableEq Address]

/-- The entry, run from these accounts, has the results it is expected to have. -/
def Bank.Expected (bank : Bank Address Account Tx Status) (expectedStatus : Tx → Status)
    (accounts : Address → Account) (entry : ReadyEntry Tx Hash) : Prop :=
  entry.txCount = 0 ∨ (bank.executeEntryBatch (bank.entryBatch entry) accounts).statuses =
    entry.txs.map expectedStatus

def Bank.AllExpected (bank : Bank Address Account Tx Status) (expectedStatus : Tx → Status)
    (recording : Bool) (state : ReplayState Address Account Tx Status Hash) :
    List (ReadyEntry Tx Hash) → Prop
  | [] => True
  | entry :: rest => bank.Expected expectedStatus state.accounts entry ∧
      bank.AllExpected expectedStatus recording (bank.replayEntry recording state entry) rest

/-- The panic is at an entry whose results are not the expected ones when the
entries are replayed one by one. Its side effects are those of the entries
before it, and the entry's own updates are merged. -/
inductive Bank.Stops (bank : Bank Address Account Tx Status) (expectedStatus : Tx → Status)
    (recording : Bool) (panic : ReplayPanic Address Account Tx Status Hash) :
    ReplayState Address Account Tx Status Hash → List (ReadyEntry Tx Hash) → Prop where
  | here {state : ReplayState Address Account Tx Status Hash} {rest : List (ReadyEntry Tx Hash)}
      (hresults : ¬ bank.Expected expectedStatus state.accounts panic.entry)
      (heffects : panic.effects = state.effects ++ mergeEffects recording
        (bank.executeEntryBatch (bank.entryBatch panic.entry) state.accounts).captured) :
      bank.Stops expectedStatus recording panic state (panic.entry :: rest)
  | later {state : ReplayState Address Account Tx Status Hash} {entry : ReadyEntry Tx Hash}
      {rest : List (ReadyEntry Tx Hash)}
      (hrest : bank.Stops expectedStatus recording panic
        (bank.replayEntry recording state entry) rest) :
      bank.Stops expectedStatus recording panic state (entry :: rest)

/-- A replay of the entries ends in the state of the sequential one, or stops on the way. -/
def Bank.Follows (bank : Bank Address Account Tx Status) (expectedStatus : Tx → Status)
    (recording : Bool) (state : ReplayState Address Account Tx Status Hash)
    (entries : List (ReadyEntry Tx Hash)) :
    Replay Address Account Tx Status Hash (ReplayState Address Account Tx Status Hash) → Prop :=
  Ends (fun final => final = bank.replaySequential recording state entries)
    fun panic => bank.Stops expectedStatus recording panic state entries

variable {bank : Bank Address Account Tx Status} {expectedStatus : Tx → Status} {recording : Bool}
  {panic : ReplayPanic Address Account Tx Status Hash}
  {state : ReplayState Address Account Tx Status Hash} {entries : List (ReadyEntry Tx Hash)}

theorem Bank.Stops.append (h : bank.Stops expectedStatus recording panic state entries)
    (more : List (ReadyEntry Tx Hash)) :
    bank.Stops expectedStatus recording panic state (entries ++ more) := by
  induction h with
  | here hresults heffects => exact .here hresults heffects
  | later _ ih => exact .later ih

theorem Bank.Stops.after {before : List (ReadyEntry Tx Hash)}
    (h : bank.Stops expectedStatus recording panic
      (bank.replaySequential recording state before) entries) :
    bank.Stops expectedStatus recording panic state (before ++ entries) := by
  induction before generalizing state with
  | nil => exact h
  | cons entry rest ih => exact .later (ih h)

theorem Bank.Stops.not_allExpected (h : bank.Stops expectedStatus recording panic state entries) :
    ¬ bank.AllExpected expectedStatus recording state entries := by
  induction h with
  | here hresults => exact fun hall => hresults hall.1
  | later _ ih => exact fun hall => ih hall.2

theorem Bank.Follows.completes
    {result : Replay Address Account Tx Status Hash (ReplayState Address Account Tx Status Hash)}
    (h : bank.Follows expectedStatus recording state entries result)
    (hall : bank.AllExpected expectedStatus recording state entries) :
    result = .ok (bank.replaySequential recording state entries) := by
  cases result with
  | error panic => exact absurd hall (Bank.Stops.not_allExpected h)
  | ok final => exact congrArg Except.ok h

variable [DecidableEq Status]

theorem verifyResults_expected {held : EntryAccounts Address} {accounts : Address → Account}
    (txIndex : Nat) (txs : List Tx) :
    bank.verifyResults expectedStatus held accounts txIndex txs (txs.map expectedStatus) =
      .ok () := by
  induction txs generalizing txIndex with
  | nil => rfl
  | cons tx rest ih => simp only [List.map_cons,Bank.verifyResults,true_or,if_true,ih]

theorem postProcessEntry_expected {held : EntryAccounts Address} {accounts : Address → Account}
    (entry : ReadyEntry Tx Hash) :
    bank.postProcessEntry expectedStatus held accounts entry (entry.txs.map expectedStatus) =
      .ok () := by
  simp [Bank.postProcessEntry,verifyResults_expected]

/-- Executing a group in entry order and then performing all side effects is
replaying it entry by entry: an output is not touched after its commit. Retries
can only let an entry pass. -/
theorem finishEntries_ends (bank : Bank Address Account Tx Status) (expectedStatus : Tx → Status)
    (recording : Bool) (accounts : Address → Account)
    (items : List (ReadyEntry Tx Hash × EntryAccounts Address)) (pos : Nat)
    (store : Store Address Account Status)
    (effects : List (Effect Address Account Tx Status Hash)) :
    let entries := items.map Prod.fst
    let start : ReplayState Address Account Tx Status Hash :=
      ⟨store.accounts,store.writes,effects⟩
    let final := (bank.scheduledItems pos entries).foldl bank.commitBatch store
    Ends (fun performed => ⟨final.accounts,final.writes,performed⟩ =
        bank.replaySequential recording start entries)
      (fun panic => bank.Stops expectedStatus recording panic start entries)
      (bank.finishEntries expectedStatus recording accounts final.outputs pos items effects) := by
  induction items generalizing pos store effects with
  | nil => rfl
  | cons item rest ih =>
    obtain ⟨entry,held⟩ := item
    by_cases hcount : entry.txCount = 0
    · have hrest := ih (pos + 1) store (effects ++ [.registerTickEntry entry])
      have htick : bank.replayEntry recording ⟨store.accounts,store.writes,effects⟩ entry =
          ⟨store.accounts,store.writes,effects ++ [.registerTickEntry entry]⟩ := by
        simp [Bank.replayEntry,hcount]
      simp only [List.map_cons,Bank.scheduledItems,Bank.finishEntries,hcount,if_true]
      refine hrest.imp (fun performed h => ?_) fun panic h => .later (htick ▸ h)
      rw [h,← htick]
      rfl
    · let item := (pos,bank.entryBatch entry)
      let output := bank.executeEntryBatch item.2 store.accounts
      have hrest := ih (pos + 1) (bank.commitBatch store item) (effects ++
        mergeEffects recording output.captured ++ [.postProcessEntry entry output.statuses])
      have hnext : bank.replayEntry recording ⟨store.accounts,store.writes,effects⟩ entry =
          ⟨(bank.commitBatch store item).accounts,(bank.commitBatch store item).writes,
            effects ++ mergeEffects recording output.captured ++
              [.postProcessEntry entry output.statuses]⟩ := by
        simp [Bank.replayEntry,hcount,Bank.commitBatch,item,output]
      have hout : (((bank.scheduledItems (pos + 1) (rest.map Prod.fst)).foldl bank.commitBatch
          (bank.commitBatch store item)).outputs pos) =
          some (output.statuses,output.captured) := by
        rw [foldl_commitBatch_outputs]
        · simp [Bank.commitBatch,item,output]
        · intro item' hmem heq
          have := scheduledItems_pos_le hmem
          omega
      simp only [List.map_cons,Bank.scheduledItems,Bank.finishEntries,hcount,if_false,
        List.foldl_cons]
      rw [hout]
      cases hpost : bank.postProcessEntry expectedStatus held accounts entry output.statuses with
      | error mismatch =>
        simp only [hpost]
        refine .here ?_ rfl
        rintro (hzero | hresults)
        · exact hcount hzero
        · rw [show output.statuses = entry.txs.map expectedStatus from hresults,
            postProcessEntry_expected] at hpost
          cases hpost
      | ok _ =>
        simp only [hpost]
        refine hrest.imp (fun performed h => ?_) fun panic h => .later (hnext ▸ h)
        rw [h,← hnext]
        rfl

end Verified

section Waves

variable {Address Account Tx Status Hash : Type} [DecidableEq Address]

/-- A wave holds transaction entries with their own batches, and no two of its
batches conflict. -/
structure WaveState.Valid (bank : Bank Address Account Tx Status)
    (ws : WaveState Address Account Tx Status Hash) : Prop where
  count : ∀ pb ∈ ws.pending, pb.entry.txCount ≠ 0
  batch : ∀ pb ∈ ws.pending, pb.batch = bank.entryBatch pb.entry
  free : ws.pending.Pairwise fun x y => ¬ x.batch.locks.conflictsWith y.batch.locks

/-- The wave walk is behind the entries `done`: those not in the wave are replayed. -/
structure WaveState.Reached (bank : Bank Address Account Tx Status) (recording : Bool)
    (state : ReplayState Address Account Tx Status Hash) (done : List (ReadyEntry Tx Hash))
    (ws : WaveState Address Account Tx Status Hash) : Prop extends ws.Valid bank where
  flushed : ∃ replayed, done = replayed ++ ws.pending.map PendingEntryBatch.entry ∧
    ws.state = bank.replaySequential recording state replayed

variable {order : PoolOrder Address Tx} {bank : Bank Address Account Tx Status}
  {ws : WaveState Address Account Tx Status Hash}
  {pending : List (PendingEntryBatch Address Tx Hash)} {recording : Bool}
  {state : ReplayState Address Account Tx Status Hash} {done : List (ReadyEntry Tx Hash)}
  {entry : ReadyEntry Tx Hash}

theorem replaySequential_append (before after : List (ReadyEntry Tx Hash)) :
    bank.replaySequential recording state (before ++ after) =
      bank.replaySequential recording (bank.replaySequential recording state before) after :=
  List.foldl_append

theorem heldLocks_conflictsWith {e : EntryAccounts Address} :
    e.conflictsWith (heldLocks pending) ↔ ∃ pb ∈ pending, e.conflictsWith pb.batch.locks := by
  induction pending with
  | nil => simp [heldLocks,not_conflictsWith_noLocks]
  | cons pb rest ih =>
    have hcons : heldLocks (pb :: rest) = pb.batch.locks.union (heldLocks rest) := rfl
    rw [hcons,conflictsWith_union,ih]
    simp

theorem reached_of_pending_nil (h : ws.pending = [])
    (hstate : ws.state = bank.replaySequential recording state done) :
    ws.Reached bank recording state done := by
  constructor
  case toValid => constructor <;> simp [h]
  case flushed => exact ⟨done,by simp [h],hstate⟩

theorem push_reached (h : ws.Reached bank recording state done) (hcount : entry.txCount ≠ 0)
    (hfree : ∀ pb ∈ ws.pending, ¬ (bank.entryBatch entry).locks.conflictsWith pb.batch.locks) :
    (ws.push entry (bank.entryBatch entry)).Reached bank recording state (done ++ [entry]) := by
  constructor
  case flushed =>
    obtain ⟨replayed,hdone,hstate⟩ := h.flushed
    exact ⟨replayed,by simp [hdone,WaveState.push],hstate⟩
  case toValid =>
    constructor
    case count =>
      intro pb hpb
      rcases List.mem_append.mp hpb with hpb | hpb
      · exact h.count pb hpb
      · obtain rfl := List.mem_singleton.mp hpb
        exact hcount
    case batch =>
      intro pb hpb
      rcases List.mem_append.mp hpb with hpb | hpb
      · exact h.batch pb hpb
      · obtain rfl := List.mem_singleton.mp hpb
        rfl
    case free =>
      refine List.pairwise_append.mpr ⟨h.free,List.pairwise_singleton _ _,?_⟩
      intro pb hpb new hnew
      obtain rfl := List.mem_singleton.mp hnew
      exact fun hc => hfree pb hpb (EntryAccounts.conflictsWith_comm.mp hc)

theorem prepare_beside_pending
    (h : ((bank.prepareSanitizedBatch (heldLocks pending)
      (bank.sanitizeEntry entry)).lockResults.any fun result => !result) = false) :
    bank.prepareSanitizedBatch (heldLocks pending) (bank.sanitizeEntry entry) =
        bank.entryBatch entry ∧
      ∀ pb ∈ pending, ¬ (bank.entryBatch entry).locks.conflictsWith pb.batch.locks := by
  have hall : ∀ result ∈ lockTransactions bank.relaxIntrabatchLocks (heldLocks pending) noLocks
      (bank.sanitizeEntry entry), result = true := by
    intro result hmem
    simpa using List.any_eq_false.mp h result hmem
  have hfree := lockTransactions_all hall
  constructor
  · simp only [Bank.entryBatch,Bank.prepareSanitizedBatch]
    rw [lockTransactions_of_free hfree]
  · intro pb hpb hc
    have hsub : _ ∧ _ := lockFootprint_mono fun tx (htx : tx ∈ (bank.entryBatch entry).lockedTxs) =>
      lockedTxs_mem htx
    exact hfree (heldLocks_conflictsWith.mpr ⟨pb,hpb,EntryAccounts.conflictsWith_mono
      hsub.1 hsub.2 (Finset.Subset.refl _) (Finset.Subset.refl _) hc⟩)

section

variable [DecidableEq Status] (hf : bank.RespectsFootprint) (expectedStatus : Tx → Status)
  (horder : ∀ k items, (order k items).Perm items)
include hf horder

theorem flushPending_reached (h : ws.Reached bank recording state done) :
    Ends (fun next => next.pending = [] ∧
        next.state = bank.replaySequential recording state done)
      (fun panic => bank.Stops expectedStatus recording panic state done)
      (bank.flushPending expectedStatus recording order ws) := by
  obtain ⟨replayed,rfl,hstate⟩ := h.flushed
  unfold Bank.flushPending
  cases hp : ws.pending with
  | nil => exact ⟨hp,by simp [hstate]⟩
  | cons pb rest =>
    rw [← hp]
    have hitems : (ws.pending.mapIdx fun i pb => (i,pb.batch)) =
        bank.scheduledItems 0 (ws.pending.map PendingEntryBatch.entry) := by
      rw [scheduledItems_of_pending 0 h.count h.batch]
      simp
    have hfree : (bank.scheduledItems 0 (ws.pending.map PendingEntryBatch.entry)).Pairwise
        fun x y => ¬ batchDep x y := by
      apply scheduledItems_free
      rw [List.pairwise_map]
      refine h.free.imp_of_mem ?_
      intro x y hx hy hxy
      rwa [← h.batch x hx,← h.batch y hy]
    have hrun := (commitBatch_commutes hf).foldl_eq (horder ws.wave _).symm
      ((horder ws.wave _).nodup_iff.mpr scheduledItems_nodup)
      (KeepsOrder.of_pairwise hfree) ⟨ws.state.accounts,ws.state.writes,fun _ => none⟩
    have hfinish := fun accounts => finishEntries_ends bank expectedStatus recording accounts
      (besideLocks ws.pending) 0 ⟨ws.state.accounts,ws.state.writes,fun _ => none⟩
      ws.state.effects
    simp only [besideLocks_entries,hrun] at hfinish
    have hne : ws.pending.isEmpty = false := by simp [hp]
    simp only [hne,hitems]
    refine ((hfinish _).imp (fun _ hok => hok) fun panic hstop => ?_).bind fun _ hok => ⟨rfl,?_⟩
    · exact Bank.Stops.after (hstate ▸ hstop)
    · rw [replaySequential_append,← hstate]
      exact hok

theorem lockEntry_reached (h : ws.Reached bank recording state done)
    (hcount : entry.txCount ≠ 0) :
    Ends (fun next => next.Reached bank recording state (done ++ [entry]))
      (fun panic => bank.Stops expectedStatus recording panic state (done ++ [entry]))
      (bank.lockEntry expectedStatus recording order ws entry) := by
  unfold Bank.lockEntry
  simp only
  split
  case isTrue =>
    refine ((flushPending_reached hf expectedStatus horder h).imp (fun _ hok => hok)
      fun _ hstop => hstop.append [entry]).bind fun flushed hflushed => ?_
    obtain ⟨hnil,hstate⟩ := hflushed
    rw [hnil]
    exact push_reached (reached_of_pending_nil hnil hstate) hcount (by simp [hnil])
  case isFalse hok =>
    obtain ⟨hbatch,hfree⟩ := prepare_beside_pending (Bool.eq_false_iff.mpr hok)
    rw [hbatch]
    exact push_reached h hcount hfree

theorem waveEntry_reached (h : ws.Reached bank recording state done)
    (entry : ReadyEntry Tx Hash) :
    Ends (fun next => next.Reached bank recording state (done ++ [entry]))
      (fun panic => bank.Stops expectedStatus recording panic state (done ++ [entry]))
      (bank.waveEntry expectedStatus recording order ws entry) := by
  unfold Bank.waveEntry
  by_cases hcount : entry.txCount = 0
  · simp only [hcount]
    refine ((flushPending_reached hf expectedStatus horder h).imp (fun _ hok => hok)
      fun _ hstop => hstop.append [entry]).bind fun flushed hflushed => ?_
    obtain ⟨hnil,hstate⟩ := hflushed
    have hticknil : (flushed.registerTick entry).pending = [] := hnil
    refine reached_of_pending_nil hticknil ?_
    rw [replaySequential_append,← hstate]
    simp [Bank.replaySequential,Bank.replayEntry,hcount,WaveState.registerTick]
  · simp only [hcount]
    refine (lockEntry_reached hf expectedStatus horder h hcount).bind fun pushed hpushed => ?_
    split
    · refine (flushPending_reached hf expectedStatus horder hpushed).imp ?_ fun _ hstop => hstop
      exact fun full hfull => reached_of_pending_nil hfull.1 hfull.2
    · exact hpushed

theorem waveEntries_reached (h : ws.Reached bank recording state done)
    (entries : List (ReadyEntry Tx Hash)) :
    Ends (fun next => next.Reached bank recording state (done ++ entries))
      (fun panic => bank.Stops expectedStatus recording panic state (done ++ entries))
      (entries.foldlM (bank.waveEntry expectedStatus recording order) ws) := by
  induction entries generalizing ws done with
  | nil =>
    rw [List.append_nil]
    exact h
  | cons entry rest ih =>
    rw [← List.singleton_append,← List.append_assoc]
    exact ((waveEntry_reached hf expectedStatus horder h entry).imp (fun _ hok => hok)
      fun _ hstop => hstop.append rest).bind fun next hnext => ih hnext

theorem replaySlotWaves_follows (recording : Bool)
    (state : ReplayState Address Account Tx Status Hash) (group : List (ReadyEntry Tx Hash)) :
    bank.Follows expectedStatus recording state group
      (bank.replaySlotWaves expectedStatus recording order state group) := by
  have hstart : (⟨state,[],0,0⟩ : WaveState Address Account Tx Status Hash).Reached bank
      recording state [] := reached_of_pending_nil rfl rfl
  refine (waveEntries_reached hf expectedStatus horder hstart group).bind fun last hlast => ?_
  exact (flushPending_reached hf expectedStatus horder hlast).bind fun _ hflushed => hflushed.2

end

end Waves

section Rounds

variable {Address Account Tx Status Hash : Type} [DecidableEq Address]

def Bank.itemAt (bank : Bank Address Account Tx Status) (group : List (ReadyEntry Tx Hash))
    (pos : Nat) : Nat × TransactionBatch Address Tx :=
  (pos,bank.prepareSanitizedBatch noLocks (bank.sanitizedAt group pos))

variable {group : List (ReadyEntry Tx Hash)} {bank : Bank Address Account Tx Status}
  {order : PoolOrder Address Tx}

omit [DecidableEq Address] in
theorem txPositions_lt {pos : Nat} (h : pos ∈ txPositions group) : pos < group.length := by
  simp only [txPositions,List.mem_filter,List.mem_range] at h
  exact h.1

theorem txPositions_concat (group : List (ReadyEntry Tx Hash)) (entry : ReadyEntry Tx Hash) :
    txPositions (group ++ [entry]) =
      txPositions group ++ if entry.txCount = 0 then [] else [group.length] := by
  have hinit : (List.range group.length).filter (fun i => ((group ++ [entry])[i]?).any
      fun entry => 0 < entry.txCount) = txPositions group := by
    apply List.filter_congr
    intro i hi
    rw [List.getElem?_append_left (List.mem_range.mp hi)]
  rw [txPositions,List.length_append,List.length_singleton,List.range_succ,List.filter_append,hinit]
  by_cases hcount : entry.txCount = 0 <;> simp [hcount,Nat.pos_iff_ne_zero]

theorem itemAt_append {rest : List (ReadyEntry Tx Hash)} {pos : Nat} (h : pos < group.length) :
    bank.itemAt (group ++ rest) pos = bank.itemAt group pos := by
  simp only [Bank.itemAt,Bank.sanitizedAt,List.getElem?_map,List.getElem?_append_left h]

theorem scheduledItems_eq_itemAt (bank : Bank Address Account Tx Status)
    (group : List (ReadyEntry Tx Hash)) :
    bank.scheduledItems 0 group = (txPositions group).map (bank.itemAt group) := by
  induction group using List.reverseRecOn with
  | nil => rfl
  | append_singleton group entry ih =>
    have hsame : (txPositions group).map (bank.itemAt (group ++ [entry])) =
        (txPositions group).map (bank.itemAt group) :=
      List.map_congr_left fun pos hpos => itemAt_append (txPositions_lt hpos)
    rw [scheduledItems_append,txPositions_concat,List.map_append,hsame,ih]
    by_cases hcount : entry.txCount = 0
    · simp [Bank.scheduledItems,hcount]
    · simp [Bank.scheduledItems,hcount,Bank.itemAt,Bank.sanitizedAt,Bank.entryBatch]

theorem locks_subset_lockFootprint (batch : TransactionBatch Address Tx) :
    batch.locks.writes ⊆ (lockFootprint batch.txs).writes ∧
      batch.locks.reads ⊆ (lockFootprint batch.txs).reads :=
  lockFootprint_mono fun _ => lockedTxs_mem

theorem prepareRound_of_free
    {sanitized : Nat → List (SanitizedTransaction Address Tx)} {held : EntryAccounts Address}
    {positions : List Nat}
    (hheld : ∀ pos ∈ positions, ¬ (lockFootprint (sanitized pos)).conflictsWith held)
    (hfree : positions.Pairwise fun i j =>
      ¬ (lockFootprint (sanitized i)).conflictsWith (lockFootprint (sanitized j))) :
    bank.prepareRound sanitized held positions =
      positions.map fun pos => (pos,bank.prepareSanitizedBatch noLocks (sanitized pos)) := by
  induction positions generalizing held with
  | nil => rfl
  | cons pos rest ih =>
    obtain ⟨hhead,htail⟩ := List.pairwise_cons.mp hfree
    have hbatch : bank.prepareSanitizedBatch held (sanitized pos) =
        bank.prepareSanitizedBatch noLocks (sanitized pos) := by
      simp only [Bank.prepareSanitizedBatch]
      rw [lockTransactions_of_free (hheld pos List.mem_cons_self)]
    simp only [Bank.prepareRound,List.map_cons,hbatch]
    rw [ih ?_ htail]
    intro next hnext hc
    rcases conflictsWith_union.mp hc with hc | hc
    · exact hheld next (List.mem_cons_of_mem _ hnext) hc
    · have hsub := locks_subset_lockFootprint
        (bank.prepareSanitizedBatch noLocks (sanitized pos))
      exact hhead next hnext (EntryAccounts.conflictsWith_comm.mp
        (EntryAccounts.conflictsWith_mono (Finset.Subset.refl _) (Finset.Subset.refl _)
          hsub.1 hsub.2 hc))

theorem executeRounds_eq_foldl {sanitized : Nat → List (SanitizedTransaction Address Tx)}
    (start : Nat) (store : Store Address Account Status) (rounds : List (List Nat)) :
    bank.executeRounds order sanitized start store rounds =
      (rounds.mapIdx fun k positions =>
        order (start + k) (bank.prepareRound sanitized noLocks positions)).flatten.foldl
          bank.commitBatch store := by
  induction rounds generalizing start store with
  | nil => rfl
  | cons positions rest ih =>
    rw [Bank.executeRounds,ih,List.mapIdx_cons,List.flatten_cons,List.foldl_append]
    have hshift : ∀ k, start + 1 + k = start + (k + 1) := by omega
    simp only [hshift,Nat.add_zero]

/-- The entry set planned for round `r`, run in the pool's order. -/
def roundItems (order : PoolOrder Address Tx) (item : Nat → Nat × TransactionBatch Address Tx)
    (rounds : List (List Nat)) : List (List (Nat × TransactionBatch Address Tx)) :=
  rounds.mapIdx fun r round => order r (round.map item)

omit [DecidableEq Address] in
theorem roundItems_perm (horder : ∀ k items, (order k items).Perm items)
    {item : Nat → Nat × TransactionBatch Address Tx} {rounds : List (List Nat)} :
    (roundItems order item rounds).flatten.Perm (rounds.flatten.map item) := by
  induction rounds using List.reverseRecOn with
  | nil => rfl
  | append_singleton rounds round ih =>
    simp only [roundItems,List.mapIdx_concat,List.flatten_append,List.map_append] at ih ⊢
    exact ih.append (by simpa using horder rounds.length (round.map item))

omit [DecidableEq Address] in
theorem roundItems_mem (horder : ∀ k items, (order k items).Perm items)
    {item : Nat → Nat × TransactionBatch Address Tx} {rounds : List (List Nat)} {r i : Nat}
    (h : InRound rounds r i) :
    ∃ level, (roundItems order item rounds)[r]? = some level ∧ item i ∈ level := by
  obtain ⟨round,hround,hi⟩ := h
  refine ⟨order r (round.map item),by simp [roundItems,hround],?_⟩
  exact (horder r _).mem_iff.mpr (List.mem_map_of_mem hi)

theorem txPositions_nodup (group : List (ReadyEntry Tx Hash)) : (txPositions group).Nodup :=
  List.nodup_range.filter _

theorem range_map_positionOf (group : List (ReadyEntry Tx Hash)) :
    (List.range (txPositions group).length).map (positionOf group) = txPositions group := by
  apply List.ext_getElem (by simp)
  intro i h h'
  simp [positionOf,List.getElem?_eq_getElem h']

theorem positionOf_inj {i j : Nat}
    (hi : i < (txPositions group).length) (hj : j < (txPositions group).length)
    (h : positionOf group i = positionOf group j) : i = j := by
  simp only [positionOf,List.getElem?_eq_getElem hi,List.getElem?_eq_getElem hj] at h
  exact (txPositions_nodup group).getElem_inj_iff.mp h

theorem footprints_getElem? {k : Nat} (hk : k < (txPositions group).length) :
    (bank.footprints group)[k]? =
      some (entryAccounts (bank.sanitizedAt group (positionOf group k))) := by
  simp [Bank.footprints,positionOf,List.getElem?_eq_getElem hk]

theorem planned_lt {r k : Nat} (h : InRound (assignRounds (bank.footprints group)) r k) :
    k < (txPositions group).length := by
  have hlt := (assignRounds_valid (bank.footprints group)).bound r k h
  simpa [Bank.footprints] using hlt

theorem prepareRound_planned {r : Nat} {round : List Nat}
    (hround : (assignRounds (bank.footprints group))[r]? = some round) :
    bank.prepareRound (bank.sanitizedAt group) noLocks (round.map (positionOf group)) =
      round.map fun k => bank.itemAt group (positionOf group k) := by
  rw [prepareRound_of_free (fun _ _ => not_conflictsWith_noLocks),List.map_map]
  · rfl
  · rw [List.pairwise_map]
    refine (assignRounds_free hround).imp_of_mem ?_
    intro i j hi hj hfree hc
    have hiround : InRound (assignRounds (bank.footprints group)) r i := ⟨round,hround,hi⟩
    have hjround : InRound (assignRounds (bank.footprints group)) r j := ⟨round,hround,hj⟩
    exact hfree _ _ (footprints_getElem? (planned_lt hiround))
      (footprints_getElem? (planned_lt hjround))
        (entryAccounts_conflictsWith.mpr (conflictsWith_entryAccounts.mpr hc))

theorem locks_conflictsWith_footprint (b c : TransactionBatch Address Tx)
    (h : b.locks.conflictsWith c.locks) :
    (entryAccounts b.txs).conflictsWith (entryAccounts c.txs) :=
  entryAccounts_conflictsWith.mpr (conflictsWith_entryAccounts.mpr
    (EntryAccounts.conflictsWith_mono (locks_subset_lockFootprint b).1
      (locks_subset_lockFootprint b).2 (locks_subset_lockFootprint c).1
      (locks_subset_lockFootprint c).2 h))

theorem planned_order {i j : Nat} (hij : i < j) (hj : j < (txPositions group).length)
    (hdep : batchDep (bank.itemAt group (positionOf group i))
      (bank.itemAt group (positionOf group j))) :
    ∃ r r', r < r' ∧ InRound (assignRounds (bank.footprints group)) r i ∧
      InRound (assignRounds (bank.footprints group)) r' j := by
  have hi : i < (txPositions group).length := Nat.lt_trans hij hj
  have hlen : (bank.footprints group).length = (txPositions group).length := by
    simp [Bank.footprints]
  have hi' : i < (bank.footprints group).length := by omega
  have hj' : j < (bank.footprints group).length := by omega
  obtain ⟨r,hr⟩ := assignRounds_inRound hi'
  obtain ⟨r',hr'⟩ := assignRounds_inRound hj'
  refine ⟨r,r',?_,hr,hr'⟩
  rcases hdep with heq | hc
  · exact absurd (positionOf_inj hi hj heq) (Nat.ne_of_lt hij)
  · exact assignRounds_order hij hr hr' (footprints_getElem? hi) (footprints_getElem? hj)
      (locks_conflictsWith_footprint (bank.itemAt group (positionOf group i)).2
        (bank.itemAt group (positionOf group j)).2 hc)

theorem roundItems_keepsOrder (horder : ∀ k items, (order k items).Perm items)
    (group : List (ReadyEntry Tx Hash)) :
    KeepsOrder batchDep
      ((List.range (txPositions group).length).map fun k =>
        bank.itemAt group (positionOf group k))
      (roundItems order (fun k => bank.itemAt group (positionOf group k))
        (assignRounds (bank.footprints group))).flatten := by
  refine KeepsOrder.of_levels ?_
  intro a b hdep hsub
  obtain ⟨indices,hindices,hmap⟩ := List.sublist_map_iff.mp hsub
  obtain ⟨i,j,rfl⟩ : ∃ i j, indices = [i,j] := by
    have hlen : indices.length = 2 := by simpa using (congrArg List.length hmap).symm
    exact List.length_eq_two.mp hlen
  obtain ⟨rfl,rfl⟩ := hmap
  have hij : i < j := by
    have hpair := List.pairwise_lt_range.sublist hindices
    simpa using hpair
  have hj : j < (txPositions group).length :=
    List.mem_range.mp (hindices.subset (by simp))
  obtain ⟨r,r',hlt,hr,hr'⟩ := planned_order hij hj hdep
  obtain ⟨level,hlevel,hmem⟩ := roundItems_mem horder hr
  obtain ⟨level',hlevel',hmem'⟩ := roundItems_mem horder hr'
  exact ⟨r,r',level,level',hlt,hlevel,hlevel',hmem,hmem'⟩

theorem executeRounds_eq_scheduled (hf : bank.RespectsFootprint)
    (horder : ∀ k items, (order k items).Perm items) (group : List (ReadyEntry Tx Hash))
    (store : Store Address Account Status) :
    bank.executeRounds order (bank.sanitizedAt group) 0 store
        ((assignRounds (bank.footprints group)).map fun round => round.map (positionOf group)) =
      (bank.scheduledItems 0 group).foldl bank.commitBatch store := by
  have hlevels : (((assignRounds (bank.footprints group)).map fun round =>
      round.map (positionOf group)).mapIdx fun k positions =>
        order (0 + k) (bank.prepareRound (bank.sanitizedAt group) noLocks positions)) =
      roundItems order (fun k => bank.itemAt group (positionOf group k))
        (assignRounds (bank.footprints group)) := by
    apply List.ext_getElem?
    intro r
    simp only [roundItems,List.getElem?_mapIdx,List.getElem?_map]
    cases hround : (assignRounds (bank.footprints group))[r]? with
    | none => rfl
    | some round => simp [prepareRound_planned hround]
  have hsource : bank.scheduledItems 0 group =
      (List.range (txPositions group).length).map fun k =>
        bank.itemAt group (positionOf group k) := by
    rw [scheduledItems_eq_itemAt,← range_map_positionOf group,List.map_map,List.length_map,
      List.length_range]
    rfl
  have hperm : ((List.range (txPositions group).length).map fun k =>
      bank.itemAt group (positionOf group k)).Perm
        (roundItems order (fun k => bank.itemAt group (positionOf group k))
          (assignRounds (bank.footprints group))).flatten := by
    have hplan := assignRounds_perm (bank.footprints group)
    rw [Bank.footprints,List.length_map] at hplan
    exact ((roundItems_perm horder).trans (hplan.map _)).symm
  rw [executeRounds_eq_foldl,hlevels,hsource]
  refine ((commitBatch_commutes hf).foldl_eq hperm ?_ (roundItems_keepsOrder horder group)
    store).symm
  rw [hperm.symm.nodup_iff,← hsource]
  exact scheduledItems_nodup

theorem replaySlotRounds_follows [DecidableEq Status] (hf : bank.RespectsFootprint)
    (expectedStatus : Tx → Status) (horder : ∀ k items, (order k items).Perm items)
    (recording : Bool) (state : ReplayState Address Account Tx Status Hash)
    (group : List (ReadyEntry Tx Hash)) :
    bank.Follows expectedStatus recording state group
      (bank.replaySlotRounds expectedStatus recording order state group) := by
  have hentries : (group.map fun entry => (entry,(noLocks : EntryAccounts Address))).map Prod.fst =
      group := by simp [Function.comp_def]
  have hfinish := fun accounts => finishEntries_ends bank expectedStatus recording accounts
    (group.map fun entry => (entry,noLocks)) 0 ⟨state.accounts,state.writes,fun _ => none⟩
    state.effects
  simp only [hentries,← executeRounds_eq_scheduled hf horder] at hfinish
  exact (hfinish _).bind fun _ hok => hok

end Rounds

section Groups

variable {Address Account Tx Status Hash : Type} [DecidableEq Address]

/-- Replay a slot's ready entries as they arrive, one consecutive group after
the other; the group's number selects the pool's orders. -/
def replayGroups
    (replay : Nat → ReplayState Address Account Tx Status Hash → List (ReadyEntry Tx Hash) →
      Replay Address Account Tx Status Hash (ReplayState Address Account Tx Status Hash))
    (number : Nat) (state : ReplayState Address Account Tx Status Hash) :
    List (List (ReadyEntry Tx Hash)) →
      Replay Address Account Tx Status Hash (ReplayState Address Account Tx Status Hash)
  | [] => .ok state
  | group :: rest => do
      let state ← replay number state group
      replayGroups replay (number + 1) state rest

def Effect.entry : Effect Address Account Tx Status Hash → Option (ReadyEntry Tx Hash)
  | .registerTickEntry entry => some entry
  | .recordCapturedUpdates _ => none
  | .postProcessEntry entry _ => some entry

theorem replayGroups_follows {bank : Bank Address Account Tx Status} {recording : Bool}
    {expectedStatus : Tx → Status}
    {replay : Nat → ReplayState Address Account Tx Status Hash → List (ReadyEntry Tx Hash) →
      Replay Address Account Tx Status Hash (ReplayState Address Account Tx Status Hash)}
    (h : ∀ number state group,
      bank.Follows expectedStatus recording state group (replay number state group))
    (number : Nat) (state : ReplayState Address Account Tx Status Hash)
    (groups : List (List (ReadyEntry Tx Hash))) :
    bank.Follows expectedStatus recording state groups.flatten
      (replayGroups replay number state groups) := by
  induction groups generalizing number state with
  | nil => rfl
  | cons group rest ih =>
    rw [List.flatten_cons]
    refine ((h number state group).imp (fun _ hok => hok) fun _ hstop => hstop.append _).bind ?_
    rintro next rfl
    refine (ih (number + 1) _).imp (fun final hfinal => ?_) fun _ hstop => hstop.after
    rw [hfinal,replaySequential_append]

theorem replayEntry_effects (bank : Bank Address Account Tx Status) (recording : Bool)
    (state : ReplayState Address Account Tx Status Hash) (entry : ReadyEntry Tx Hash) :
    (bank.replayEntry recording state entry).effects.filterMap Effect.entry =
      state.effects.filterMap Effect.entry ++ [entry] := by
  unfold Bank.replayEntry
  split
  · simp [Effect.entry]
  · cases recording <;> simp [mergeEffects,List.filterMap_cons,Effect.entry]

theorem replaySequential_effects (bank : Bank Address Account Tx Status) (recording : Bool)
    (state : ReplayState Address Account Tx Status Hash) (entries : List (ReadyEntry Tx Hash)) :
    (bank.replaySequential recording state entries).effects.filterMap Effect.entry =
      state.effects.filterMap Effect.entry ++ entries := by
  induction entries generalizing state with
  | nil => simp [Bank.replaySequential]
  | cons entry rest ih =>
    have hrest := ih (bank.replayEntry recording state entry)
    rw [replayEntry_effects] at hrest
    simpa [Bank.replaySequential] using hrest

/-- A bank whose transactions credit one lamport to each writable account and
report the balances they read; each comes with the report expected of it. -/
def creditBank : Bank Nat Nat (List (Nat × Bool) × List Nat) (List Nat) where
  sanitize tx := ⟨tx.1,tx⟩
  relaxIntrabatchLocks := false
  accountInUse := []
  loadExecuteAndCommit txs accounts :=
    { accounts := fun a => if a ∈ (lockFootprint txs).writes then accounts a + 1 else accounts a
      statuses := txs.map fun tx => tx.accountKeys.map fun key => accounts key.1
      captured := ((txs.flatMap SanitizedTransaction.accountKeys).filter fun key => key.2).map
        fun key => (key.1,accounts key.1 + 1) }
  loadAndExecute _ batch accounts := (batch.lockedTxs.map fun tx =>
    tx.accountKeys.map fun key => accounts key.1).head?

theorem creditBank_respectsFootprint : creditBank.RespectsFootprint := by
  have hkey : ∀ {txs : List (SanitizedTransaction Nat (List (Nat × Bool) × List Nat))}
      {tx a writable}, tx ∈ txs → (a,writable) ∈ tx.accountKeys →
      a ∈ (entryAccounts txs).writes ∨ a ∈ (entryAccounts txs).reads := by
    intro txs tx a writable htx hmem
    by_cases hw : a ∈ (lockFootprint txs).writes
    · exact .inl hw
    · cases writable with
      | true => exact absurd (mem_lockFootprint_writes.mpr ⟨tx,htx,hmem⟩) hw
      | false => exact .inr (Finset.mem_filter.mpr
          ⟨mem_lockFootprint_reads.mpr ⟨tx,htx,hmem⟩,hw⟩)
  constructor
  case reads =>
    intro txs s s' hsame
    refine ⟨?_,?_,?_⟩
    · refine List.map_congr_left fun tx htx => List.map_congr_left fun key hmem => ?_
      exact hsame key.1 (hkey htx hmem)
    · refine List.map_congr_left fun key hmem => ?_
      obtain ⟨hmem,_⟩ := List.mem_filter.mp hmem
      obtain ⟨tx,htx,hmem⟩ := List.mem_flatMap.mp hmem
      rw [hsame key.1 (hkey htx hmem)]
    · intro a ha
      simp only [creditBank]
      rw [hsame a (.inl ha)]
  case writes =>
    intro txs s a ha
    exact if_neg ha
  case captured =>
    intro txs s update hmem
    obtain ⟨⟨a,writable⟩,hkeymem,rfl⟩ := List.mem_map.mp hmem
    obtain ⟨hkeymem,hwritable⟩ := List.mem_filter.mp hkeymem
    obtain ⟨tx,htx,hkeymem⟩ := List.mem_flatMap.mp hkeymem
    obtain rfl : writable = true := hwritable
    exact mem_lockFootprint_writes.mpr ⟨tx,htx,hkeymem⟩

end Groups

end Jetstreamer.Node
