import Jetstreamer.Node.Entries
set_option autoImplicit false

namespace Jetstreamer.Node

/-- The errors of the scheduler, with the values their texts print. -/
inductive SchedulerError (C : ChainTypes) where
  | lateTransaction (slot lastFinalizedSlot : Nat)
  | lateEntry (slot lastFinalizedSlot : Nat)
  | lateBlockMetadata (slot lastFinalizedSlot : Nat)
  | lateBlockMetadataMismatch (slot inferredTx inferredEntry expectedTx expectedEntry : Nat)
  | inferredMetadataMismatch (slot inferredTx inferredEntry expectedTx expectedEntry : Nat)
  | metadataMismatch (existingTx existingEntry expectedTx expectedEntry : Nat)
  | duplicateTransaction (index : Nat) (existing incoming : Option C.Sig)
  | entryOutOfOrder (expected got : Nat)
  | replayMismatch (slot processedTx expectedTx processedEntry expectedEntry : Nat)
  | replayLeftover (slot processedTx expectedTx processedEntry expectedEntry pendingEntries
      bufferedTxs : Nat)
  | skippedSlotHasData (slot : Nat)
  | stalled (currentSlot highestSeenSlot gap limit : Nat)
  | forceMissingOutsideRange (slot : Nat)
  | forceMissingBuffered (slot : Nat)
  | incompleteBuffered (slot : Nat)
  | beyondEnd (slot endInclusive : Nat)
  | incompleteMissing (slot : Nat)
  | outOfFuel

/-- What one slot has received and not yet released. -/
structure SlotExecutionBuffer (C : ChainTypes) where
  txs : List (Option (ScheduledTransaction C))
  pendingEntries : List (PendingEntry C)
  nextEntryIndex : Nat
  processedTxCount : Nat
  processedEntryCount : Nat
  expectedTxCount : Option Nat
  expectedEntryCount : Option Nat

namespace SlotExecutionBuffer

variable {C : ChainTypes}

def default : SlotExecutionBuffer C := ⟨[],[],0,0,0,none,none⟩

def resetForRestart (_buffer : SlotExecutionBuffer C) : SlotExecutionBuffer C := default

def applyResumeCounts (buffer : SlotExecutionBuffer C) (entryIndex txStart : Nat) :
    SlotExecutionBuffer C :=
  { buffer with
    nextEntryIndex := entryIndex
    processedEntryCount := entryIndex
    processedTxCount := txStart }

def bufferedTransactionCount (buffer : SlotExecutionBuffer C) : Nat :=
  buffer.txs.countP Option.isSome

def hasAnyData (buffer : SlotExecutionBuffer C) : Bool :=
  buffer.expectedTxCount.isSome || buffer.expectedEntryCount.isSome ||
    !buffer.pendingEntries.isEmpty || buffer.txs.any Option.isSome ||
    decide (0 < buffer.processedTxCount) || decide (0 < buffer.processedEntryCount)

/-- Without metadata, a slot whose data was all released is taken as complete. -/
def inferExpectedCountsIfMissing (buffer : SlotExecutionBuffer C) :
    Option (Nat × Nat) × SlotExecutionBuffer C :=
  if buffer.expectedTxCount.isSome || buffer.expectedEntryCount.isSome then (none,buffer)
  else if buffer.processedTxCount = 0 ∧ buffer.processedEntryCount = 0 then (none,buffer)
  else if !buffer.pendingEntries.isEmpty || decide (0 < buffer.bufferedTransactionCount) then
    (none,buffer)
  else
    (some (buffer.processedTxCount,buffer.processedEntryCount),
      { buffer with
        expectedTxCount := some buffer.processedTxCount
        expectedEntryCount := some buffer.processedEntryCount })

def setExpectedCounts (buffer : SlotExecutionBuffer C) (expectedTx expectedEntry : Nat) :
    Except (SchedulerError C) (SlotExecutionBuffer C) :=
  match buffer.expectedTxCount, buffer.expectedEntryCount with
  | some existingTx, some existingEntry =>
      if existingTx ≠ expectedTx ∨ existingEntry ≠ expectedEntry then
        .error (.metadataMismatch existingTx existingEntry expectedTx expectedEntry)
      else .ok buffer
  | _, _ => .ok { buffer with
      expectedTxCount := some expectedTx
      expectedEntryCount := some expectedEntry }

/-- `Vec::resize_with` upwards. -/
def growTo (txs : List (Option (ScheduledTransaction C))) (len : Nat) :
    List (Option (ScheduledTransaction C)) :=
  txs ++ List.replicate (len - txs.length) none

def insertTransaction [DecidableEq C.Sig] [DecidableEq C.Status]
    (buffer : SlotExecutionBuffer C) (index : Nat) (tx : VersionedTransaction C)
    (statusMeta : TransactionStatusMeta C) :
    Except (SchedulerError C) (Bool × SlotExecutionBuffer C) :=
  if index < buffer.processedTxCount then .ok (false,buffer)
  else
    let txs := growTo buffer.txs (index + 1)
    match (txs[index]?).join with
    | some existing =>
        if existing.tx.signatures.head? = tx.signatures.head? ∧
            existing.expectedStatus = statusMeta.status then
          .ok (false,{ buffer with txs := txs })
        else .error (.duplicateTransaction index existing.tx.signatures.head? tx.signatures.head?)
    | none =>
        .ok (true,{ buffer with txs := txs.set index (some ⟨tx,statusMeta.status,statusMeta⟩) })

def pushEntry (buffer : SlotExecutionBuffer C) (entry : PendingEntry C) :
    Except (SchedulerError C) (Bool × SlotExecutionBuffer C) :=
  if entry.entryIndex < buffer.nextEntryIndex then .ok (false,buffer)
  else if entry.entryIndex ≠ buffer.nextEntryIndex then
    .error (.entryOutOfOrder buffer.nextEntryIndex entry.entryIndex)
  else .ok (true,{ buffer with
    nextEntryIndex := buffer.nextEntryIndex + 1
    pendingEntries := buffer.pendingEntries ++ [entry] })

/-- The values at `start .. start + count`, if none is missing. -/
def collectRange {α : Type} (f : Nat → Option α) (start : Nat) : Nat → Option (List α)
  | 0 => some []
  | count + 1 => do
      let value ← f start
      let rest ← collectRange f (start + 1) count
      some (value :: rest)

def takeTxs (txs : List (Option (ScheduledTransaction C))) (start count : Nat) :
    Option (List (ScheduledTransaction C)) :=
  collectRange (fun i => (txs[i]?).join) start count

def clearTxs (txs : List (Option (ScheduledTransaction C))) (start count : Nat) :
    List (Option (ScheduledTransaction C)) :=
  txs.mapIdx fun i tx => if start ≤ i ∧ i < start + count then none else tx

/-- The drain loop over the pending entries: it stops at the first entry that
lacks a transaction, and drops entries that a resume has already covered. -/
def drainPending (slot : Nat) (buffer : SlotExecutionBuffer C) :
    List (PendingEntry C) → List (ReadyEntry (ScheduledTransaction C) C.Hash) ×
      SlotExecutionBuffer C
  | [] => ([],{ buffer with pendingEntries := [] })
  | entry :: rest =>
      let released := { buffer with processedEntryCount := buffer.processedEntryCount + 1 }
      if entry.txCount = 0 then
        let (ready,final) := drainPending slot released rest
        (⟨slot,entry.entryIndex,entry.startIndex,[],entry.hash,entry.numHashes,0⟩ :: ready,final)
      else
        let stop := entry.startIndex + entry.txCount
        if stop ≤ buffer.processedTxCount then drainPending slot released rest
        else
          let effectiveStart := max entry.startIndex buffer.processedTxCount
          let effectiveCount := stop - effectiveStart
          match if buffer.txs.length < stop then none
            else takeTxs buffer.txs effectiveStart effectiveCount with
          | none => ([],{ buffer with pendingEntries := entry :: rest })
          | some txs =>
              let (ready,final) := drainPending slot
                { released with
                  txs := clearTxs buffer.txs effectiveStart effectiveCount
                  processedTxCount := buffer.processedTxCount + effectiveCount } rest
              (⟨slot,entry.entryIndex,effectiveStart,txs,entry.hash,entry.numHashes,
                effectiveCount⟩ :: ready,final)

def drainReadyEntries (slot : Nat) (buffer : SlotExecutionBuffer C) :
    List (ReadyEntry (ScheduledTransaction C) C.Hash) × SlotExecutionBuffer C :=
  drainPending slot buffer buffer.pendingEntries

def shouldFinalize (slot : Nat) (buffer : SlotExecutionBuffer C) :
    Except (SchedulerError C) Bool :=
  match buffer.expectedTxCount, buffer.expectedEntryCount with
  | some expectedTx, some expectedEntry =>
      if expectedTx < buffer.processedTxCount ∨ expectedEntry < buffer.processedEntryCount then
        .error (.replayMismatch slot buffer.processedTxCount expectedTx
          buffer.processedEntryCount expectedEntry)
      else if buffer.processedTxCount = expectedTx ∧
          buffer.processedEntryCount = expectedEntry then
        if 0 < buffer.pendingEntries.length ∨ 0 < buffer.bufferedTransactionCount then
          .error (.replayLeftover slot buffer.processedTxCount expectedTx
            buffer.processedEntryCount expectedEntry buffer.pendingEntries.length
            buffer.bufferedTransactionCount)
        else .ok true
      else .ok false
  | _, _ => .ok false

variable {start count : Nat} {entry : PendingEntry C} {rest : List (PendingEntry C)}
  {f : Nat → Option (ScheduledTransaction C)} {txs : List (Option (ScheduledTransaction C))}

theorem collectRange_congr {α : Type} {f g : Nat → Option α}
    (h : ∀ i, start ≤ i → i < start + count → f i = g i) :
    collectRange f start count = collectRange g start count := by
  induction count generalizing start with
  | zero => rfl
  | succ count ih =>
    have hhead : f start = g start := h start (Nat.le_refl _) (by omega)
    have htail : collectRange f (start + 1) count = collectRange g (start + 1) count :=
      ih fun i hl hu => h i (by omega) (by omega)
    simp only [collectRange,hhead,htail]

theorem collectRange_mono {α : Type} {f g : Nat → Option α}
    (hfg : ∀ i value, f i = some value → g i = some value) {values : List α}
    (h : collectRange f start count = some values) : collectRange g start count = some values := by
  induction count generalizing start values with
  | zero => exact h
  | succ count ih =>
    simp only [collectRange,Option.bind_eq_bind,Option.bind_eq_some_iff,Option.some.injEq] at h ⊢
    obtain ⟨value,hvalue,rest,hrest,rfl⟩ := h
    exact ⟨value,hfg start value hvalue,rest,ih hrest,rfl⟩

theorem collectRange_none {α : Type} {f : Nat → Option α} (h : collectRange f start count = none) :
    ∃ i, start ≤ i ∧ i < start + count ∧ f i = none := by
  induction count generalizing start with
  | zero => simp [collectRange] at h
  | succ count ih =>
    cases hhead : f start with
    | none => exact ⟨start,Nat.le_refl _,by omega,hhead⟩
    | some value =>
      cases htail : collectRange f (start + 1) count with
      | none =>
        obtain ⟨i,hl,hu,hi⟩ := ih htail
        exact ⟨i,by omega,by omega,hi⟩
      | some rest => simp [collectRange,hhead,htail] at h

theorem collectRange_isSome {α : Type} {f : Nat → Option α} {i : Nat}
    {values : List α} (h : collectRange f start count = some values) (hl : start ≤ i)
    (hu : i < start + count) : f i ≠ none := by
  induction count generalizing start values with
  | zero => omega
  | succ count ih =>
    simp only [collectRange,Option.bind_eq_bind,Option.bind_eq_some_iff] at h
    obtain ⟨value,hvalue,rest,hrest,_⟩ := h
    by_cases hi : i = start
    · rw [hi,hvalue]
      exact Option.some_ne_none value
    · exact ih hrest (by omega) (by omega)

theorem collectRange_length {α : Type} {f : Nat → Option α} {values : List α}
    (h : collectRange f start count = some values) : values.length = count := by
  induction count generalizing start values with
  | zero =>
    simp only [collectRange,Option.some.injEq] at h
    simp [← h]
  | succ count ih =>
    cases hhead : f start with
    | none => simp [collectRange,hhead] at h
    | some value =>
      cases htail : collectRange f (start + 1) count with
      | none => simp [collectRange,hhead,htail] at h
      | some rest =>
        simp only [collectRange,hhead,htail,Option.bind_eq_bind,Option.bind_some,
          Option.some.injEq] at h
        simp [← h,ih htail]

def txSum (entries : List (PendingEntry C)) : Nat := (entries.map PendingEntry.txCount).sum

/-- Entry `k` starts at the running sum of the transaction counts. -/
def Contiguous (entries : List (PendingEntry C)) : Prop :=
  ∀ k entry, entries[k]? = some entry → entry.startIndex = txSum (entries.take k)

@[simp] theorem txSum_nil : txSum ([] : List (PendingEntry C)) = 0 := rfl

@[simp] theorem txSum_cons (entry : PendingEntry C) (rest : List (PendingEntry C)) :
    txSum (entry :: rest) = entry.txCount + txSum rest := by
  simp [txSum]

@[simp] theorem txSum_append (left right : List (PendingEntry C)) :
    txSum (left ++ right) = txSum left + txSum right := by
  simp [txSum]

theorem Contiguous.next {done : List (PendingEntry C)}
    (h : Contiguous (done ++ entry :: rest)) : entry.startIndex = txSum done := by
  have hnext := h done.length entry (by simp)
  simpa using hnext

theorem Contiguous.of_append {left right : List (PendingEntry C)}
    (h : Contiguous (left ++ right)) : Contiguous left := by
  intro k entry hk
  have hlt : k < left.length := (List.getElem?_eq_some_iff.mp hk).1
  have hstart := h k entry (by rw [List.getElem?_append_left hlt]; exact hk)
  rwa [List.take_append_of_le_length (Nat.le_of_lt hlt)] at hstart

theorem contiguous_nil : Contiguous ([] : List (PendingEntry C)) := by
  intro k entry hk
  simp at hk

theorem contiguous_singleton (h : entry.startIndex = 0) :
    Contiguous [entry] := by
  intro k first hk
  cases k with
  | zero =>
    obtain rfl := Option.some.inj hk
    exact h
  | succ k => simp at hk

theorem Contiguous.covers {entries : List (PendingEntry C)} (h : Contiguous entries) {i : Nat}
    (hi : i < txSum entries) :
    ∃ entry ∈ entries, entry.startIndex ≤ i ∧ i < entry.startIndex + entry.txCount := by
  induction entries using List.reverseRecOn with
  | nil => simp at hi
  | append_singleton done entry ih =>
    have hstart : entry.startIndex = txSum done := h.next
    by_cases hdone : i < txSum done
    · obtain ⟨found,hmem,hrange⟩ := ih h.of_append hdone
      exact ⟨found,List.mem_append_left _ hmem,hrange⟩
    · simp only [txSum_append,txSum_cons,txSum_nil] at hi
      exact ⟨entry,by simp,by omega,by omega⟩

/-- A ready entry releases a pending one with the transactions `f` holds for
its index range. -/
structure Carries (f : Nat → Option (ScheduledTransaction C)) (slot : Nat)
    (entry : PendingEntry C) (ready : ReadyEntry (ScheduledTransaction C) C.Hash) : Prop where
  slot : ready.slot = slot
  entryIndex : ready.entryIndex = entry.entryIndex
  startIndex : ready.startIndex = entry.startIndex
  hash : ready.hash = entry.hash
  numHashes : ready.numHashes = entry.numHashes
  txCount : ready.txCount = entry.txCount
  txs : collectRange f entry.startIndex entry.txCount = some ready.txs

theorem Carries.mono {g : Nat → Option (ScheduledTransaction C)} {slot : Nat}
    {ready : ReadyEntry (ScheduledTransaction C) C.Hash}
    (hfg : ∀ i value, f i = some value → g i = some value) (h : Carries f slot entry ready) :
    Carries g slot entry ready :=
  { h with txs := collectRange_mono hfg h.txs }

/-- The buffer holds exactly the transactions of `f` that are not yet released. -/
def HoldsFrom (buffer : SlotExecutionBuffer C) (f : Nat → Option (ScheduledTransaction C)) :
    Prop :=
  ∀ i, (buffer.txs[i]?).join = if i < buffer.processedTxCount then none else f i

theorem clearTxs_getElem? {i : Nat} :
    ((clearTxs txs start count)[i]?).join =
      if start ≤ i ∧ i < start + count then none else (txs[i]?).join := by
  simp only [clearTxs,List.getElem?_mapIdx]
  cases txs[i]? with
  | none => simp
  | some tx => by_cases h : start ≤ i ∧ i < start + count <;> simp [h]

/-- What a drain does: it releases a first part of the pending entries, each
with its transactions, and stops at an entry that lacks one. -/
structure Drained (slot : Nat) (f : Nat → Option (ScheduledTransaction C))
    (buffer : SlotExecutionBuffer C) (pending : List (PendingEntry C))
    (ready : List (ReadyEntry (ScheduledTransaction C) C.Hash))
    (final : SlotExecutionBuffer C) (released : List (PendingEntry C)) : Prop where
  split : pending = released ++ final.pendingEntries
  carries : List.Forall₂ (Carries f slot) released ready
  entryCount : final.processedEntryCount = buffer.processedEntryCount + released.length
  txCount : final.processedTxCount = buffer.processedTxCount + txSum released
  holds : final.HoldsFrom f
  nextEntryIndex : final.nextEntryIndex = buffer.nextEntryIndex
  expectedTxCount : final.expectedTxCount = buffer.expectedTxCount
  expectedEntryCount : final.expectedEntryCount = buffer.expectedEntryCount
  stuck : ∀ entry rest, final.pendingEntries = entry :: rest → ∃ i, entry.startIndex ≤ i ∧
    i < entry.startIndex + entry.txCount ∧ f i = none

variable {buffer final : SlotExecutionBuffer C}

theorem Drained.cons {slot : Nat} {next : SlotExecutionBuffer C} {released : List (PendingEntry C)}
    {ready : List (ReadyEntry (ScheduledTransaction C) C.Hash)}
    {first : ReadyEntry (ScheduledTransaction C) C.Hash}
    (h : Drained slot f next rest ready final released) (hcarry : Carries f slot entry first)
    (hentry : next.processedEntryCount = buffer.processedEntryCount + 1)
    (htx : next.processedTxCount = buffer.processedTxCount + entry.txCount)
    (hnext : next.nextEntryIndex = buffer.nextEntryIndex)
    (hexptx : next.expectedTxCount = buffer.expectedTxCount)
    (hexpentry : next.expectedEntryCount = buffer.expectedEntryCount) :
    Drained slot f buffer (entry :: rest) (first :: ready) final (entry :: released) where
  split := by rw [h.split,List.cons_append]
  carries := .cons hcarry h.carries
  entryCount := by rw [h.entryCount,hentry,List.length_cons]; omega
  txCount := by rw [h.txCount,htx,txSum_cons]; omega
  holds := h.holds
  nextEntryIndex := h.nextEntryIndex.trans hnext
  expectedTxCount := h.expectedTxCount.trans hexptx
  expectedEntryCount := h.expectedEntryCount.trans hexpentry
  stuck := h.stuck

theorem drained_stop {slot : Nat} (hh : buffer.HoldsFrom f)
    (hstuck : ∃ i, entry.startIndex ≤ i ∧ i < entry.startIndex + entry.txCount ∧ f i = none) :
    Drained slot f buffer (entry :: rest) []
      { buffer with pendingEntries := entry :: rest } [] where
  split := rfl
  carries := .nil
  entryCount := rfl
  txCount := rfl
  holds := hh
  nextEntryIndex := rfl
  expectedTxCount := rfl
  expectedEntryCount := rfl
  stuck := by
    intro e r heq
    obtain ⟨rfl,rfl⟩ := List.cons.inj heq
    exact hstuck

theorem HoldsFrom.clear (hh : buffer.HoldsFrom f)
    (hstart : start = buffer.processedTxCount) (entryCount count : Nat) :
    { buffer with
      processedEntryCount := entryCount
      txs := clearTxs buffer.txs start count
      processedTxCount := buffer.processedTxCount + count }.HoldsFrom f := by
  intro i
  simp only [clearTxs_getElem?,hstart]
  rw [hh i]
  by_cases hdone : i < buffer.processedTxCount
  · have hlt : i < buffer.processedTxCount + count := by omega
    simp [hdone,hlt]
  · have hle : buffer.processedTxCount ≤ i := by omega
    by_cases hlt : i < buffer.processedTxCount + count <;> simp [hdone,hlt,hle]

theorem drainPending_drained (slot : Nat)
    {done pending : List (PendingEntry C)} (buffer : SlotExecutionBuffer C)
    (hc : Contiguous (done ++ pending)) (hp : buffer.processedTxCount = txSum done)
    (hh : buffer.HoldsFrom f) :
    ∃ released, Drained slot f buffer pending (drainPending slot buffer pending).1
      (drainPending slot buffer pending).2 released := by
  induction pending generalizing done buffer with
  | nil => exact ⟨[],⟨rfl,.nil,rfl,rfl,hh,rfl,rfl,rfl,by simp [drainPending]⟩⟩
  | cons entry rest ih =>
    have hstart : entry.startIndex = buffer.processedTxCount := hc.next.trans hp.symm
    have hcrest : Contiguous ((done ++ [entry]) ++ rest) := by simpa using hc
    by_cases hcount : entry.txCount = 0
    · obtain ⟨released,hd⟩ := ih
        { buffer with processedEntryCount := buffer.processedEntryCount + 1 } hcrest
        (by simp [hp,hcount]) hh
      refine ⟨entry :: released,?_⟩
      simp only [drainPending,hcount,if_true]
      refine hd.cons ⟨rfl,rfl,rfl,rfl,rfl,hcount.symm,?_⟩ rfl ?_ rfl rfl rfl
      · simp [hcount,collectRange]
      · simp [hcount]
    · have hlive : ¬ entry.startIndex + entry.txCount ≤ buffer.processedTxCount := by omega
      have hmax : max entry.startIndex buffer.processedTxCount = entry.startIndex := by omega
      have hsub : entry.startIndex + entry.txCount - entry.startIndex = entry.txCount := by omega
      -- Inside the index range of a live entry the buffer agrees with `f`.
      have hsame : takeTxs buffer.txs entry.startIndex entry.txCount =
          collectRange f entry.startIndex entry.txCount := by
        apply collectRange_congr
        intro i hl _
        rw [hh i,if_neg (by omega)]
      simp only [drainPending,hcount,if_false,hlive,hmax,hsub,hsame]
      by_cases hlen : buffer.txs.length < entry.startIndex + entry.txCount
      · simp only [hlen,if_true]
        refine ⟨[],drained_stop hh ⟨entry.startIndex + entry.txCount - 1,by omega,by omega,?_⟩⟩
        have hlast := hh (entry.startIndex + entry.txCount - 1)
        rw [List.getElem?_eq_none (by omega),if_neg (by omega)] at hlast
        exact hlast.symm
      · simp only [hlen,if_false]
        cases htake : collectRange f entry.startIndex entry.txCount with
        | none => exact ⟨[],drained_stop hh (collectRange_none htake)⟩
        | some txs =>
          have hclear := hh.clear hstart (buffer.processedEntryCount + 1) entry.txCount
          obtain ⟨released,hd⟩ := ih _ hcrest (by simp [hp]) hclear
          exact ⟨entry :: released,hd.cons ⟨rfl,rfl,rfl,rfl,rfl,rfl,htake⟩ rfl rfl rfl rfl rfl⟩

theorem growTo_getElem? {len i : Nat} :
    ((growTo txs len)[i]?).join = (txs[i]?).join := by
  unfold growTo
  by_cases hi : i < txs.length
  · rw [List.getElem?_append_left hi]
  · rw [List.getElem?_append_right (Nat.not_lt.mp hi),List.getElem?_replicate,
      List.getElem?_eq_none (Nat.not_lt.mp hi)]
    split <;> rfl

theorem length_growTo {len : Nat} :
    len ≤ (growTo txs len).length := by
  simp only [growTo,List.length_append,List.length_replicate]
  omega

theorem insertTransaction_cases [DecidableEq C.Sig] [DecidableEq C.Status]
    {index : Nat} {tx : VersionedTransaction C} {statusMeta : TransactionStatusMeta C}
    {inserted : Bool} (hh : buffer.HoldsFrom f)
    (h : buffer.insertTransaction index tx statusMeta = .ok (inserted,final)) :
    final = { buffer with txs := final.txs } ∧
      (inserted = false ∧ (buffer.processedTxCount ≤ index → f index ≠ none) ∧
          final.HoldsFrom f ∨
        inserted = true ∧ buffer.processedTxCount ≤ index ∧ f index = none ∧
          final.HoldsFrom (Function.update f index (some ⟨tx,statusMeta.status,statusMeta⟩))) := by
  unfold insertTransaction at h
  split at h
  case isTrue =>
    cases h
    exact ⟨rfl,.inl ⟨rfl,fun hle => by omega,hh⟩⟩
  case isFalse hindex =>
    have hcell : ((growTo buffer.txs (index + 1))[index]?).join = f index := by
      rw [growTo_getElem?,hh index,if_neg hindex]
    simp only [hcell] at h
    cases hf : f index with
    | some existing =>
      simp only [hf] at h
      split at h
      · simp only [Except.ok.injEq,Prod.mk.injEq] at h
        obtain ⟨rfl,rfl⟩ := h
        refine ⟨rfl,.inl ⟨rfl,fun _ => by simp,fun i => ?_⟩⟩
        simp only [growTo_getElem?]
        exact hh i
      · cases h
    | none =>
      simp only [hf] at h
      cases h
      refine ⟨rfl,.inr ⟨rfl,Nat.not_lt.mp hindex,rfl,fun i => ?_⟩⟩
      have hlen : index < (growTo buffer.txs (index + 1)).length := length_growTo
      simp only [List.getElem?_set]
      by_cases hi : index = i
      · subst hi
        simp [hindex,hlen]
      · have hne : i ≠ index := fun heq => hi heq.symm
        simp only [hi,if_false,growTo_getElem?,Function.update_of_ne hne]
        exact hh i

theorem insertTransaction_isOk [DecidableEq C.Sig] [DecidableEq C.Status] {index : Nat}
    {tx : VersionedTransaction C} {statusMeta : TransactionStatusMeta C} (hh : buffer.HoldsFrom f)
    (hsame : ∀ existing, f index = some existing → existing = ⟨tx,statusMeta.status,statusMeta⟩) :
    ∃ inserted final, buffer.insertTransaction index tx statusMeta = .ok (inserted,final) := by
  unfold insertTransaction
  split
  · exact ⟨false,buffer,rfl⟩
  case isFalse hindex =>
    have hcell : ((growTo buffer.txs (index + 1))[index]?).join = f index := by
      rw [growTo_getElem?,hh index,if_neg hindex]
    simp only [hcell]
    cases hf : f index with
    | none => exact ⟨true,_,rfl⟩
    | some existing =>
      obtain rfl := hsame existing hf
      exact ⟨false,_,if_pos ⟨rfl,rfl⟩⟩

theorem pushEntry_isOk (h : entry.entryIndex ≤ buffer.nextEntryIndex) :
    ∃ inserted final, buffer.pushEntry entry = .ok (inserted,final) := by
  unfold pushEntry
  split
  · exact ⟨false,buffer,rfl⟩
  case isFalse hge =>
    rw [if_neg (by omega)]
    exact ⟨true,_,rfl⟩

theorem setExpectedCounts_isOk {expectedTx expectedEntry : Nat}
    (h : buffer.expectedTxCount = none ∧ buffer.expectedEntryCount = none ∨
      buffer.expectedTxCount = some expectedTx ∧ buffer.expectedEntryCount = some expectedEntry) :
    ∃ final, buffer.setExpectedCounts expectedTx expectedEntry = .ok final := by
  unfold setExpectedCounts
  rcases h with ⟨htx,hentry⟩ | ⟨htx,hentry⟩
  · rw [htx,hentry]
    exact ⟨_,rfl⟩
  · rw [htx,hentry]
    exact ⟨buffer,by simp⟩

theorem pushEntry_cases {inserted : Bool} (h : buffer.pushEntry entry = .ok (inserted,final)) :
    inserted = false ∧ entry.entryIndex < buffer.nextEntryIndex ∧ final = buffer ∨
      inserted = true ∧ entry.entryIndex = buffer.nextEntryIndex ∧
        final = { buffer with
          nextEntryIndex := buffer.nextEntryIndex + 1
          pendingEntries := buffer.pendingEntries ++ [entry] } := by
  unfold pushEntry at h
  split at h
  case isTrue hlt =>
    simp only [Except.ok.injEq,Prod.mk.injEq] at h
    exact .inl ⟨h.1.symm,hlt,h.2.symm⟩
  case isFalse =>
    split at h
    · cases h
    case isFalse heq =>
      simp only [Except.ok.injEq,Prod.mk.injEq] at h
      exact .inr ⟨h.1.symm,not_not.mp heq,h.2.symm⟩

theorem setExpectedCounts_cases {expectedTx expectedEntry : Nat}
    (h : buffer.setExpectedCounts expectedTx expectedEntry = .ok final) :
    final = { buffer with
        expectedTxCount := some expectedTx
        expectedEntryCount := some expectedEntry } ∧
      ∀ tx entry, buffer.expectedTxCount = some tx → buffer.expectedEntryCount = some entry →
        tx = expectedTx ∧ entry = expectedEntry := by
  unfold setExpectedCounts at h
  split at h
  case h_1 existingTx existingEntry htx hentry =>
    split at h
    · cases h
    case isFalse hsame =>
      simp only [ne_eq,not_or,not_not] at hsame
      obtain ⟨rfl,rfl⟩ := hsame
      cases h
      refine ⟨by cases buffer; simp_all,?_⟩
      intro tx entry ht he
      simp_all
  case h_2 hnone =>
    simp only [Except.ok.injEq] at h
    refine ⟨h.symm,?_⟩
    intro tx entry ht he
    exact absurd he (hnone tx entry ht)

theorem not_isSome_of_buffered_zero
    (h : buffer.bufferedTransactionCount = 0) (i : Nat) : (buffer.txs[i]?).join = none := by
  unfold bufferedTransactionCount at h
  rw [List.countP_eq_zero] at h
  cases hi : buffer.txs[i]? with
  | none => rfl
  | some tx =>
    have htx := h tx (List.mem_of_getElem? hi)
    simpa using htx

theorem buffered_zero_of_forall
    (h : ∀ i : Nat, (buffer.txs[i]?).join = none) : buffer.bufferedTransactionCount = 0 := by
  unfold bufferedTransactionCount
  rw [List.countP_eq_zero]
  intro tx hmem
  obtain ⟨i,hi,rfl⟩ := List.getElem_of_mem hmem
  have hcell := h i
  rw [List.getElem?_eq_getElem hi] at hcell
  simpa using hcell

theorem hasAnyData_false (h : buffer.hasAnyData = false) :
    buffer.expectedTxCount = none ∧ buffer.expectedEntryCount = none ∧
      buffer.pendingEntries = [] ∧ buffer.bufferedTransactionCount = 0 ∧
      buffer.processedEntryCount = 0 := by
  simp only [hasAnyData,Bool.or_eq_false_iff,Option.isSome_eq_false_iff,Option.isNone_iff_eq_none,
    Bool.not_eq_false',List.isEmpty_iff,List.any_eq_false,decide_eq_false_iff_not,Nat.not_lt,
    Nat.le_zero] at h
  obtain ⟨⟨⟨⟨⟨htx,hentry⟩,hpending⟩,htxs⟩,_⟩,hcount⟩ := h
  exact ⟨htx,hentry,hpending,List.countP_eq_zero.mpr htxs,hcount⟩

theorem shouldFinalize_true {slot : Nat} (h : buffer.shouldFinalize slot = .ok true) :
    buffer.expectedTxCount = some buffer.processedTxCount ∧
      buffer.expectedEntryCount = some buffer.processedEntryCount ∧
      buffer.pendingEntries = [] ∧ buffer.bufferedTransactionCount = 0 := by
  unfold shouldFinalize at h
  split at h
  case h_1 expectedTx expectedEntry htx hentry =>
    split at h
    · cases h
    · split at h
      case isTrue hcounts =>
        obtain ⟨rfl,rfl⟩ := hcounts
        split at h
        · cases h
        case isFalse hempty =>
          simp only [not_or,Nat.not_lt,Nat.le_zero,List.length_eq_zero_iff] at hempty
          exact ⟨htx,hentry,hempty.1,hempty.2⟩
      case isFalse => cases h
  case h_2 => cases h

theorem shouldFinalize_of_empty (slot : Nat)
    (hpending : buffer.pendingEntries = []) (hbuffered : buffer.bufferedTransactionCount = 0) :
    ({ buffer with
      expectedTxCount := some buffer.processedTxCount
      expectedEntryCount := some buffer.processedEntryCount } :
      SlotExecutionBuffer C).shouldFinalize slot = .ok true := by
  unfold bufferedTransactionCount at hbuffered
  simp [shouldFinalize,bufferedTransactionCount,hpending,hbuffered]

theorem inferExpectedCountsIfMissing_cases (buffer : SlotExecutionBuffer C) :
    buffer.inferExpectedCountsIfMissing = (none,buffer) ∨
      buffer.expectedTxCount = none ∧ buffer.expectedEntryCount = none ∧
      buffer.pendingEntries = [] ∧ buffer.bufferedTransactionCount = 0 ∧
      buffer.inferExpectedCountsIfMissing =
        (some (buffer.processedTxCount,buffer.processedEntryCount),
          { buffer with
            expectedTxCount := some buffer.processedTxCount
            expectedEntryCount := some buffer.processedEntryCount }) := by
  unfold inferExpectedCountsIfMissing
  split
  · exact .inl rfl
  case isFalse hexpected =>
    split
    · exact .inl rfl
    · split
      · exact .inl rfl
      case isFalse hempty =>
        simp only [Bool.or_eq_true,Option.isSome_iff_ne_none,not_or,not_not] at hexpected
        simp only [Bool.or_eq_true,Bool.not_eq_true',decide_eq_true_eq,not_or,Nat.not_lt,
          Nat.le_zero,Bool.not_eq_false,List.isEmpty_iff] at hempty
        exact .inr ⟨hexpected.1,hexpected.2,hempty.1,hempty.2,rfl⟩

end SlotExecutionBuffer

end Jetstreamer.Node
