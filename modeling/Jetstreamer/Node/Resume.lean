import Jetstreamer.Node.ReplayCompleteness
set_option autoImplicit false

namespace Jetstreamer.Node
open SlotExecutionBuffer

variable {C : ChainTypes}

namespace BlockData

/-- The part of an entry that is left when the transactions before `t` are done. -/
def remainder (block : BlockData C) (slot t : Nat) (entry : PendingEntry C) :
    ReadyEntry (ScheduledTransaction C) C.Hash :=
  let start := max entry.startIndex t
  let count := entry.startIndex + entry.txCount - start
  ⟨slot,entry.entryIndex,start,((block.txs.drop start).take count).map schedule,entry.hash,
    entry.numHashes,count⟩

theorem remainder_of_le (block : BlockData C) {slot t : Nat} {entry : PendingEntry C}
    (h : t ≤ entry.startIndex) : block.remainder slot t entry = block.readyEntry slot entry := by
  simp [remainder,readyEntry,h]

theorem remainder_zero (block : BlockData C) (slot : Nat) :
    block.remainder slot 0 = block.readyEntry slot :=
  funext fun _ => block.remainder_of_le (Nat.zero_le _)

/-- The transactions before `t` reach into the entry behind `done`, and no further. -/
def Reaches (block : BlockData C) (done : List (PendingEntry C)) (t : Nat) : Prop :=
  t ≤ txSum done ∨
    ∃ entry, block.entries[done.length]? = some entry ∧ t < txSum done + entry.txCount

end BlockData

section Draining

variable {block : BlockData C} {slot t : Nat} {f : Nat → Option (ScheduledTransaction C)}

theorem collectRange_own (hown : ∀ i tx, f i = some tx → block.scheduled i = some tx)
    {start count : Nat} {values : List (ScheduledTransaction C)}
    (h : collectRange f start count = some values) :
    values = ((block.txs.drop start).take count).map BlockData.schedule := by
  induction count generalizing start values with
  | zero => simpa [collectRange,eq_comm] using h
  | succ count ih =>
    simp only [collectRange,Option.bind_eq_bind,Option.bind_eq_some_iff,Option.some.injEq] at h
    obtain ⟨value,hvalue,rest,hrest,rfl⟩ := h
    obtain ⟨tx,htx,rfl⟩ := Option.map_eq_some_iff.mp (hown start value hvalue)
    obtain ⟨hlt,hget⟩ := List.getElem?_eq_some_iff.mp htx
    rw [List.drop_eq_getElem_cons hlt,hget,List.take_succ_cons,List.map_cons,ih hrest]

/-- What a drain after a resume does: it releases a first part of the pending entries, as far as
they are left, and stops at an entry that lacks a transaction. -/
structure Resumed (block : BlockData C) (slot t : Nat) (f : Nat → Option (ScheduledTransaction C))
    (buffer : SlotExecutionBuffer C) (done pending : List (PendingEntry C))
    (ready : List (ReadyEntry (ScheduledTransaction C) C.Hash))
    (final : SlotExecutionBuffer C) (released : List (PendingEntry C)) : Prop where
  split : pending = released ++ final.pendingEntries
  ready : ready = released.map (block.remainder slot t)
  entryCount : final.processedEntryCount = buffer.processedEntryCount + released.length
  txCount : final.processedTxCount = max t (txSum (done ++ released))
  holds : final.HoldsFrom f
  nextEntryIndex : final.nextEntryIndex = buffer.nextEntryIndex
  expectedTxCount : final.expectedTxCount = buffer.expectedTxCount
  expectedEntryCount : final.expectedEntryCount = buffer.expectedEntryCount
  stuck : ∀ entry rest, final.pendingEntries = entry :: rest → ∃ i, entry.startIndex ≤ i ∧ t ≤ i ∧
    i < entry.startIndex + entry.txCount ∧ f i = none

variable {buffer next final : SlotExecutionBuffer C} {entry : PendingEntry C}
  {done rest released : List (PendingEntry C)}

theorem Resumed.cons {ready : List (ReadyEntry (ScheduledTransaction C) C.Hash)}
    (h : Resumed block slot t f next (done ++ [entry]) rest ready final released)
    (hentry : next.processedEntryCount = buffer.processedEntryCount + 1)
    (hnext : next.nextEntryIndex = buffer.nextEntryIndex)
    (hexptx : next.expectedTxCount = buffer.expectedTxCount)
    (hexpentry : next.expectedEntryCount = buffer.expectedEntryCount) :
    Resumed block slot t f buffer done (entry :: rest) (block.remainder slot t entry :: ready) final
      (entry :: released) where
  split := by rw [h.split,List.cons_append]
  ready := by rw [h.ready,List.map_cons]
  entryCount := by rw [h.entryCount,hentry,List.length_cons]; omega
  txCount := by simpa using h.txCount
  holds := h.holds
  nextEntryIndex := h.nextEntryIndex.trans hnext
  expectedTxCount := h.expectedTxCount.trans hexptx
  expectedEntryCount := h.expectedEntryCount.trans hexpentry
  stuck := h.stuck

theorem resumed_stop (hp : buffer.processedTxCount = max t (txSum done)) (hh : buffer.HoldsFrom f)
    (hstuck : ∃ i, entry.startIndex ≤ i ∧ t ≤ i ∧ i < entry.startIndex + entry.txCount ∧
      f i = none) :
    Resumed block slot t f buffer done (entry :: rest) []
      { buffer with pendingEntries := entry :: rest } [] where
  split := rfl
  ready := rfl
  entryCount := rfl
  txCount := by simpa using hp
  holds := hh
  nextEntryIndex := rfl
  expectedTxCount := rfl
  expectedEntryCount := rfl
  stuck := by
    intro e r heq
    obtain ⟨rfl,rfl⟩ := List.cons.inj heq
    exact hstuck

theorem drainPending_resumed (slot : Nat)
    (hown : ∀ i tx, f i = some tx → block.scheduled i = some tx)
    {done pending : List (PendingEntry C)} (buffer : SlotExecutionBuffer C)
    (hc : Contiguous (done ++ pending)) (hp : buffer.processedTxCount = max t (txSum done))
    (hcut : ∀ entry ∈ pending.head?, t ≤ txSum done ∨ t < txSum done + entry.txCount)
    (hh : buffer.HoldsFrom f) :
    ∃ released, Resumed block slot t f buffer done pending (drainPending slot buffer pending).1
      (drainPending slot buffer pending).2 released := by
  induction pending generalizing done buffer with
  | nil =>
    exact ⟨[],⟨rfl,rfl,rfl,by simpa [drainPending] using hp,hh,rfl,rfl,rfl,by simp [drainPending]⟩⟩
  | cons entry rest ih =>
    have hstart : entry.startIndex = txSum done := hc.next
    have hcrest : Contiguous ((done ++ [entry]) ++ rest) := by simpa using hc
    have hhead := hcut entry (by simp)
    have hlater : ∀ e ∈ rest.head?, t ≤ txSum (done ++ [entry]) ∨
        t < txSum (done ++ [entry]) + e.txCount := by
      intro e _
      simp only [txSum_append,txSum_cons,txSum_nil]
      omega
    by_cases hcount : entry.txCount = 0
    · obtain ⟨released,hd⟩ := ih
        { buffer with processedEntryCount := buffer.processedEntryCount + 1 }
        hcrest (by simp [hp,hcount]) hlater hh
      have hmax : max entry.startIndex t = entry.startIndex := by omega
      have hempty : block.remainder slot t entry =
          ⟨slot,entry.entryIndex,entry.startIndex,[],entry.hash,entry.numHashes,0⟩ := by
        simp [BlockData.remainder,hcount,hmax]
      refine ⟨entry :: released,?_⟩
      simp only [drainPending,hcount,if_true]
      rw [← hempty]
      exact hd.cons rfl rfl rfl rfl
    · have hlive : ¬entry.startIndex + entry.txCount ≤ buffer.processedTxCount := by omega
      have hmax : max entry.startIndex buffer.processedTxCount = max entry.startIndex t := by omega
      have heq : max entry.startIndex t = buffer.processedTxCount := by omega
      -- Inside the part of the entry that is left the buffer agrees with `f`.
      have hsame : takeTxs buffer.txs (max entry.startIndex t)
          (entry.startIndex + entry.txCount - max entry.startIndex t) =
            collectRange f (max entry.startIndex t)
              (entry.startIndex + entry.txCount - max entry.startIndex t) := by
        apply collectRange_congr
        intro i hl _
        rw [hh i,if_neg (by omega)]
      simp only [drainPending,hcount,if_false,hlive,hmax,hsame]
      by_cases hlen : buffer.txs.length < entry.startIndex + entry.txCount
      · simp only [hlen,if_true]
        have hlast := hh (entry.startIndex + entry.txCount - 1)
        rw [List.getElem?_eq_none (by omega),if_neg (by omega)] at hlast
        exact ⟨[],resumed_stop hp hh ⟨_,by omega,by omega,by omega,hlast.symm⟩⟩
      · simp only [hlen,if_false]
        cases htake : collectRange f (max entry.startIndex t)
          (entry.startIndex + entry.txCount - max entry.startIndex t) with
        | none =>
          obtain ⟨i,hl,hu,hi⟩ := collectRange_none htake
          exact ⟨[],resumed_stop hp hh ⟨i,by omega,by omega,by omega,hi⟩⟩
        | some values =>
          have hclear := hh.clear heq (buffer.processedEntryCount + 1)
            (entry.startIndex + entry.txCount - max entry.startIndex t)
          obtain ⟨released,hd⟩ := ih _ hcrest (by
            simp only [txSum_append,txSum_cons,txSum_nil]
            omega) hlater hclear
          refine ⟨entry :: released,?_⟩
          rw [collectRange_own hown htake]
          exact hd.cons rfl rfl rfl rfl

end Draining

end Jetstreamer.Node
