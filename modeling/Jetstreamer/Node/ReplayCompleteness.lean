import Jetstreamer.Node.ReplayOrder
import Jetstreamer.Lib.Reordering
set_option autoImplicit false

namespace Jetstreamer.Node
open SlotExecutionBuffer TransactionScheduler Lib

variable {C : ChainTypes}

/-- The data of one block: numbered, contiguous entries, and one transaction
for each index they cover. -/
structure BlockData (C : ChainTypes) where
  entries : List (PendingEntry C)
  txs : List (VersionedTransaction C × TransactionStatusMeta C)
  indexed : ∀ k (entry : PendingEntry C), entries[k]? = some entry → entry.entryIndex = k
  contiguous : Contiguous entries
  counted : txs.length = txSum entries

namespace BlockData

def schedule (delivered : VersionedTransaction C × TransactionStatusMeta C) :
    ScheduledTransaction C :=
  ⟨delivered.1,delivered.2.status,delivered.2⟩

def scheduled (block : BlockData C) (index : Nat) : Option (ScheduledTransaction C) :=
  (block.txs[index]?).map schedule

def readyEntry (block : BlockData C) (slot : Nat) (entry : PendingEntry C) :
    ReadyEntry (ScheduledTransaction C) C.Hash :=
  ⟨slot,entry.entryIndex,entry.startIndex,
    ((block.txs.drop entry.startIndex).take entry.txCount).map schedule,
    entry.hash,entry.numHashes,entry.txCount⟩

def ready (block : BlockData C) (slot : Nat) :
    List (ReadyEntry (ScheduledTransaction C) C.Hash) :=
  block.entries.map (block.readyEntry slot)

def Delivers (block : BlockData C) : SchedulerCall C → Prop
  | .insertTransaction _ index tx statusMeta => block.txs[index]? = some (tx,statusMeta)
  | .pushEntry _ entry => entry ∈ block.entries
  | .recordBlockMetadata _ expectedTx expectedEntry =>
      expectedTx = block.txs.length ∧ expectedEntry = block.entries.length
  | .forceMarkMissing _ => False

def DataIn (block : BlockData C) (slot : Nat) (calls : List (SchedulerCall C)) : Prop :=
  (∀ index tx statusMeta, block.txs[index]? = some (tx,statusMeta) →
    .insertTransaction slot index tx statusMeta ∈ calls) ∧
  ∀ entry ∈ block.entries, .pushEntry slot entry ∈ calls

def MetadataIn (block : BlockData C) (slot : Nat) (calls : List (SchedulerCall C)) : Prop :=
  .recordBlockMetadata slot block.txs.length block.entries.length ∈ calls

theorem entry_getElem? (block : BlockData C) {entry : PendingEntry C}
    (h : entry ∈ block.entries) : block.entries[entry.entryIndex]? = some entry := by
  obtain ⟨k,hk,rfl⟩ := List.getElem_of_mem h
  have hsome := List.getElem?_eq_getElem hk
  rw [block.indexed k _ hsome]
  exact hsome

theorem collectRange_getElem? {α : Type} (values : List α) {start count : Nat}
    (h : start + count ≤ values.length) :
    collectRange (fun i => values[i]?) start count = some ((values.drop start).take count) := by
  induction count generalizing start with
  | zero => simp [collectRange]
  | succ count ih =>
    have hlt : start < values.length := by omega
    rw [collectRange,ih (by omega),List.getElem?_eq_getElem hlt,List.drop_eq_getElem_cons hlt]
    rfl

theorem range_le (block : BlockData C) {entry : PendingEntry C} (h : entry ∈ block.entries) :
    entry.startIndex + entry.txCount ≤ block.txs.length := by
  obtain ⟨done,rest,hsplit⟩ := List.append_of_mem h
  have hc := block.contiguous
  rw [hsplit] at hc
  rw [block.counted,hsplit,hc.next]
  simp only [txSum_append,txSum_cons]
  omega

theorem collectRange_scheduled (block : BlockData C) {entry : PendingEntry C}
    (h : entry ∈ block.entries) :
    collectRange block.scheduled entry.startIndex entry.txCount =
      some (((block.txs.drop entry.startIndex).take entry.txCount).map schedule) := by
  have hlen := block.range_le h
  rw [List.map_take,List.map_drop,← collectRange_getElem? _ (by simpa using hlen)]
  refine collectRange_congr fun i _ _ => ?_
  simp [scheduled]

theorem eq_readyEntry (block : BlockData C) {slot : Nat} {entry : PendingEntry C}
    {ready : ReadyEntry (ScheduledTransaction C) C.Hash} (hmem : entry ∈ block.entries)
    (hcarry : Carries block.scheduled slot entry ready) : ready = block.readyEntry slot entry := by
  have htxs := hcarry.txs
  rw [block.collectRange_scheduled hmem,Option.some.injEq] at htxs
  cases ready
  simp only [readyEntry,ReadyEntry.mk.injEq]
  exact ⟨hcarry.slot,hcarry.entryIndex,hcarry.startIndex,htxs.symm,hcarry.hash,
    hcarry.numHashes,hcarry.txCount⟩

theorem map_readyEntry_of_carries (block : BlockData C) {slot : Nat}
    {entries : List (PendingEntry C)} {emitted : List (ReadyEntry (ScheduledTransaction C) C.Hash)}
    (hmem : ∀ entry ∈ entries, entry ∈ block.entries)
    (h : List.Forall₂ (Carries block.scheduled slot) entries emitted) :
    emitted = entries.map (block.readyEntry slot) := by
  induction h with
  | nil => rfl
  | cons hcarry _ ih =>
    rw [List.map_cons,block.eq_readyEntry (hmem _ List.mem_cons_self) hcarry,
      ih fun entry hin => hmem entry (List.mem_cons_of_mem _ hin)]

end BlockData

/-- Every call hands over a piece of a present block of the replay range. -/
def Supplied (presence : SlotPresenceMap) (startSlot : Nat) (blocks : Nat → BlockData C)
    (calls : List (SchedulerCall C)) : Prop :=
  ∀ call ∈ calls, presence.state call.slot = some .present ∧ startSlot ≤ call.slot ∧
    (blocks call.slot).Delivers call

section Supply

variable {presence : SlotPresenceMap} {startSlot : Nat} {blocks : Nat → BlockData C}
  {calls : List (SchedulerCall C)} {history : History C}

variable {slot index : Nat}

theorem deliveredTx_some {tx : ScheduledTransaction C}
    (h : deliveredTx calls slot index = some tx) :
    ∃ vtx statusMeta, .insertTransaction slot index vtx statusMeta ∈ calls ∧
      tx = BlockData.schedule (vtx,statusMeta) := by
  obtain ⟨call,hmem,hcall⟩ := List.exists_of_findSome?_eq_some h
  cases call with
  | insertTransaction s i vtx statusMeta =>
    simp only [Option.ite_none_right_eq_some,Option.some.injEq] at hcall
    obtain ⟨⟨rfl,rfl⟩,rfl⟩ := hcall
    exact ⟨vtx,statusMeta,hmem,rfl⟩
  | pushEntry | recordBlockMetadata | forceMarkMissing => cases hcall

theorem deliveredTx_ne_none {vtx : VersionedTransaction C} {statusMeta : TransactionStatusMeta C}
    (h : .insertTransaction slot index vtx statusMeta ∈ calls) :
    deliveredTx calls slot index ≠ none := by
  intro hnone
  have hcall := List.findSome?_eq_none_iff.mp hnone _ h
  simp at hcall

theorem deliveredEntry_some {entry : PendingEntry C}
    (h : deliveredEntry calls slot index = some entry) :
    .pushEntry slot entry ∈ calls ∧ entry.entryIndex = index := by
  obtain ⟨call,hmem,hcall⟩ := List.exists_of_findSome?_eq_some h
  cases call with
  | pushEntry s pushed =>
    simp only [Option.ite_none_right_eq_some,Option.some.injEq] at hcall
    obtain ⟨⟨rfl,rfl⟩,rfl⟩ := hcall
    exact ⟨hmem,rfl⟩
  | insertTransaction | recordBlockMetadata | forceMarkMissing => cases hcall

theorem deliveredEntry_ne_none {entry : PendingEntry C}
    (h : .pushEntry slot entry ∈ calls) : deliveredEntry calls slot entry.entryIndex ≠ none := by
  intro hnone
  have hcall := List.findSome?_eq_none_iff.mp hnone _ h
  simp at hcall

section

variable (hs : Supplied presence startSlot blocks calls)
include hs

section

variable (hr : Recorded calls history)
include hr

theorem Supplied.txs {tx : ScheduledTransaction C}
    (h : history.txs slot index = some tx) : (blocks slot).scheduled index = some tx := by
  rw [hr.txs] at h
  obtain ⟨vtx,statusMeta,hmem,rfl⟩ := deliveredTx_some h
  have hdelivers : (blocks slot).txs[index]? = some (vtx,statusMeta) := (hs _ hmem).2.2
  simp [BlockData.scheduled,hdelivers]

theorem Supplied.entry {k : Nat} {entry : PendingEntry C}
    (h : (history.entries slot)[k]? = some entry) : (blocks slot).entries[k]? = some entry := by
  rw [hr.entries] at h
  obtain ⟨hmem,rfl⟩ := deliveredEntry_some h
  exact (blocks slot).entry_getElem? (hs _ hmem).2.2

theorem Supplied.entries (slot : Nat) :
    ∃ missing, (blocks slot).entries = history.entries slot ++ missing := by
  have hfirst : history.entries slot <+: (blocks slot).entries := by
    rw [List.prefix_iff_getElem?]
    intro k hk
    exact hs.entry hr (List.getElem?_eq_getElem hk)
  obtain ⟨missing,h⟩ := hfirst
  exact ⟨missing,h.symm⟩

theorem Supplied.contiguous (slot : Nat) : Contiguous (history.entries slot) := by
  obtain ⟨missing,h⟩ := hs.entries hr slot
  have hc := (blocks slot).contiguous
  rw [h] at hc
  exact hc.of_append

theorem Supplied.dataIn_entries (hdata : (blocks slot).DataIn slot calls) :
    history.entries slot = (blocks slot).entries := by
  obtain ⟨missing,h⟩ := hs.entries hr slot
  cases missing with
  | nil => rw [h,List.append_nil]
  | cons entry rest =>
    have hmem : entry ∈ (blocks slot).entries := by simp [h]
    have hindex := (blocks slot).entry_getElem? hmem
    have hlen : entry.entryIndex = (history.entries slot).length :=
      (blocks slot).indexed _ _ (by rw [h]; simp)
    have hnone := deliveredEntry_ne_none (hdata.2 entry hmem)
    rw [← hr.entries,hlen] at hnone
    simp at hnone

theorem Supplied.dataIn_txs (hdata : (blocks slot).DataIn slot calls)
    (index : Nat) : history.txs slot index = (blocks slot).scheduled index := by
  cases htx : history.txs slot index with
  | some tx => exact (hs.txs hr htx).symm
  | none =>
    cases hblock : (blocks slot).txs[index]? with
    | none => simp [BlockData.scheduled,hblock]
    | some delivered =>
      have hne := deliveredTx_ne_none (hdata.1 index delivered.1 delivered.2 hblock)
      rw [← hr.txs] at hne
      exact absurd htx hne

end

end

end Supply

/-- The invariant of a run that is supplied from blocks: no buffer outside the
present slots, no counts but the declared ones, and every slot left behind was
complete. -/
structure Fed (scheduler : TransactionScheduler) (startSlot : Nat) (blocks : Nat → BlockData C)
    (calls : List (SchedulerCall C)) (state : SchedulerState C) (history : History C) :
    Prop where
  tracks : Tracks scheduler.presence startSlot state history
  recorded : Recorded calls history
  supplied : Supplied scheduler.presence startSlot blocks calls
  forced : state.forcedMissing = ∅
  buffers : ∀ slot buffer, state.slots.lookup slot = some buffer →
    state.currentSlot ≤ slot ∧ scheduler.presence.state slot = some .present
  expected : ∀ slot, state.currentSlot ≤ slot →
    (bufferAt state slot).expectedTxCount = none ∧
      (bufferAt state slot).expectedEntryCount = none ∨
    (blocks slot).MetadataIn slot calls
  seen : ∀ slot, startSlot ≤ slot → slot < state.highestSeenSlot →
    scheduler.presence.state slot = some .present →
    (blocks slot).MetadataIn slot calls ∨ (blocks slot).DataIn slot calls
  finished : ∀ slot, startSlot ≤ slot → slot < state.currentSlot →
    scheduler.presence.state slot = some .present →
    history.entries slot = (blocks slot).entries ∧
      ((blocks slot).MetadataIn slot calls ∨ state.inferredBlocks slot =
        some ((blocks slot).txs.length,(blocks slot).entries.length))

def Settled (scheduler : TransactionScheduler) (state : SchedulerState C) (history : History C) :
    Prop :=
  scheduler.slotPresence state state.currentSlot = none ∨
  scheduler.slotPresence state state.currentSlot = some .present ∧
    ∀ buffer, state.slots.lookup state.currentSlot = some buffer →
      buffer.shouldFinalize state.currentSlot = .ok false ∧
      ∀ entry rest, buffer.pendingEntries = entry :: rest → ∃ i, entry.startIndex ≤ i ∧
        i < entry.startIndex + entry.txCount ∧ history.txs state.currentSlot i = none

section Feeding

variable {scheduler : TransactionScheduler} {startSlot : Nat} {blocks : Nat → BlockData C}
  {calls : List (SchedulerCall C)} {state : SchedulerState C} {history : History C}

theorem Fed.slotPresence (hf : Fed scheduler startSlot blocks calls state history) (slot : Nat) :
    scheduler.slotPresence state slot = scheduler.presence.state slot := by
  simp [TransactionScheduler.slotPresence,hf.forced]

variable {buffer : SlotExecutionBuffer C}

theorem SlotTracks.shouldFinalize_ok {slot : Nat}
    {done : List (PendingEntry C)} (h : SlotTracks history slot buffer done)
    (hs : Supplied scheduler.presence startSlot blocks calls) (hr : Recorded calls history)
    (hexpected : buffer.expectedTxCount = none ∧ buffer.expectedEntryCount = none ∨
      (blocks slot).MetadataIn slot calls) :
    ∃ complete, buffer.shouldFinalize slot = .ok complete := by
  rcases hexpected with ⟨htx,hentry⟩ | hmeta
  · exact ⟨false,by simp [shouldFinalize,htx]⟩
  · obtain ⟨htx,hentry⟩ := h.metadata _ _ ((hr.metadata _ _ _).mpr hmeta)
    obtain ⟨missing,hblock⟩ := hs.entries hr slot
    rw [h.entries,List.append_assoc] at hblock
    have hlength : (blocks slot).entries.length =
        done.length + (buffer.pendingEntries.length + missing.length) := by
      rw [hblock,List.length_append,List.length_append]
    have hsum : (blocks slot).txs.length =
        txSum done + (txSum buffer.pendingEntries + txSum missing) := by
      rw [(blocks slot).counted,hblock,txSum_append,txSum_append]
    have hempty : buffer.processedTxCount = (blocks slot).txs.length →
        buffer.bufferedTransactionCount = 0 := by
      intro hall
      refine buffered_zero_of_forall fun i => ?_
      rw [h.holds i,hall]
      split
      · rfl
      case isFalse hge =>
        cases hi : history.txs slot i with
        | none => rfl
        | some tx =>
          have hscheduled := hs.txs hr hi
          simp [BlockData.scheduled,List.getElem?_eq_none (Nat.not_lt.mp hge)] at hscheduled
    have hprocessed := h.entryCount
    have hprocessedTx := h.txCount
    unfold shouldFinalize
    rw [htx,hentry]
    simp only
    rw [if_neg (by omega)]
    split
    case isTrue hall =>
      have hpending : buffer.pendingEntries.length = 0 := by omega
      rw [if_neg (by rw [hempty hall.1]; omega)]
      exact ⟨true,rfl⟩
    case isFalse => exact ⟨false,rfl⟩

theorem Recorded.observe (hr : Recorded calls history) (events : List (SchedulerEvent C)) :
    Recorded calls (history.observe events) :=
  ⟨hr.txs,hr.entries,hr.metadata⟩

section

variable (hf : Fed scheduler startSlot blocks calls state history)
include hf

theorem Fed.pass {final : SchedulerState C} {events : List (SchedulerEvent C)}
    (ht : Tracks scheduler.presence startSlot final (history.observe events))
    (hcurrent : final.currentSlot = state.currentSlot + 1)
    (hforced : final.forcedMissing = state.forcedMissing)
    (hhighest : final.highestSeenSlot = state.highestSeenSlot)
    (hgone : final.slots.lookup state.currentSlot = none)
    (hlookup : ∀ slot, slot ≠ state.currentSlot →
      final.slots.lookup slot = state.slots.lookup slot)
    (hinferred : ∀ slot, slot ≠ state.currentSlot →
      final.inferredBlocks slot = state.inferredBlocks slot)
    (hfinish : scheduler.presence.state state.currentSlot = some .present →
      history.entries state.currentSlot = (blocks state.currentSlot).entries ∧
        ((blocks state.currentSlot).MetadataIn state.currentSlot calls ∨
          final.inferredBlocks state.currentSlot = some
            ((blocks state.currentSlot).txs.length,(blocks state.currentSlot).entries.length))) :
    Fed scheduler startSlot blocks calls final (history.observe events) where
  tracks := ht
  recorded := hf.recorded.observe events
  supplied := hf.supplied
  forced := hforced.trans hf.forced
  buffers slot buffer hb := by
    by_cases hcur : slot = state.currentSlot
    · rw [hcur,hgone] at hb
      cases hb
    · rw [hlookup slot hcur] at hb
      obtain ⟨hle,hpresent⟩ := hf.buffers slot buffer hb
      exact ⟨by omega,hpresent⟩
  expected slot hle := by
    rw [hcurrent] at hle
    have hold := hf.expected slot (by omega)
    unfold bufferAt at hold ⊢
    rwa [hlookup slot (by omega)]
  seen := by
    rw [hhighest]
    exact hf.seen
  finished slot hl hu hpresent := by
    by_cases hcur : slot = state.currentSlot
    · subst hcur
      exact hfinish hpresent
    · rw [hinferred slot hcur]
      exact hf.finished slot hl (by omega) hpresent

theorem Fed.skip
    (hp : scheduler.slotPresence state state.currentSlot = some .missing)
    (ht : Tracks scheduler.presence startSlot (passCurrent state)
      (history.observe [.skip state.currentSlot])) :
    Fed scheduler startSlot blocks calls (passCurrent state)
      (history.observe [.skip state.currentSlot]) := by
  have hnext := hf.tracks.satSucc_current (by simp [hp])
  refine hf.pass ht hnext rfl rfl (AList.lookup_erase _ _)
    (fun slot hne => AList.lookup_erase_ne hne) (fun _ _ => rfl) fun hpresent => ?_
  rw [hf.slotPresence,hpresent] at hp
  cases hp

theorem Fed.drained
    (hb : state.slots.lookup state.currentSlot = some buffer) :
    ∃ done released, SlotTracks history state.currentSlot buffer done ∧
      Drained state.currentSlot (history.txs state.currentSlot) buffer buffer.pendingEntries
        (buffer.drainReadyEntries state.currentSlot).1
        (buffer.drainReadyEntries state.currentSlot).2 released := by
  obtain ⟨done,hs⟩ := hf.tracks.opened state.currentSlot (Nat.le_refl _)
  rw [bufferAt_of_lookup hb] at hs
  have hc := hf.supplied.contiguous hf.recorded state.currentSlot
  rw [hs.entries] at hc
  obtain ⟨released,hd⟩ := drainPending_drained state.currentSlot buffer hc hs.txCount hs.holds
  exact ⟨done,released,hs,hd⟩

theorem Fed.complete
    (hb : state.slots.lookup state.currentSlot = some buffer)
    (hpending : (buffer.drainReadyEntries state.currentSlot).2.pendingEntries = [])
    {inferredBlocks : Nat → Option (Nat × Nat)}
    (hcounts : CompletedWith state (buffer.drainReadyEntries state.currentSlot).2 inferredBlocks)
    (hpresent : scheduler.presence.state state.currentSlot = some .present) :
    history.entries state.currentSlot = (blocks state.currentSlot).entries ∧
      ((blocks state.currentSlot).MetadataIn state.currentSlot calls ∨
        inferredBlocks state.currentSlot = some
          ((blocks state.currentSlot).txs.length,(blocks state.currentSlot).entries.length)) := by
  obtain ⟨done,released,hs,hd⟩ := hf.drained hb
  have hall := hs.drained hd
  have hdone : history.entries state.currentSlot = done ++ released := by
    have hentries := hall.entries
    rwa [hpending,List.append_nil] at hentries
  have hmetadata := fun hmeta : (blocks state.currentSlot).MetadataIn state.currentSlot calls =>
    hall.metadata _ _ ((hf.recorded.metadata _ _ _).mpr hmeta)
  rcases hcounts with ⟨_,htx,hentry⟩ | ⟨rfl,hseen,htx,hentry⟩
  · -- Declared counts: a first part of the block with as many entries is the block.
    have hmeta : (blocks state.currentSlot).MetadataIn state.currentSlot calls := by
      have hexpected := hf.expected state.currentSlot (Nat.le_refl _)
      rw [bufferAt_of_lookup hb,← hd.expectedTxCount,htx] at hexpected
      exact hexpected.resolve_left (by simp)
    obtain ⟨missing,hblock⟩ := hf.supplied.entries hf.recorded state.currentSlot
    have hcount := (hmetadata hmeta).2
    rw [hentry,Option.some.injEq,hall.entryCount,← hdone,hblock,List.length_append] at hcount
    have hmissing : missing = [] := List.length_eq_zero_iff.mp (by omega)
    rw [hblock,hmissing,List.append_nil]
    exact ⟨rfl,.inl hmeta⟩
  · -- Inferred counts: a later slot was seen, and there is no metadata yet.
    have hdata : (blocks state.currentSlot).DataIn state.currentSlot calls := by
      refine (hf.seen _ hf.tracks.start_le hseen hpresent).resolve_left fun hmeta => ?_
      rw [(hmetadata hmeta).1] at htx
      cases htx
    have hentries := hf.supplied.dataIn_entries hf.recorded hdata
    refine ⟨hentries,.inr ?_⟩
    rw [Function.update_self,hall.txCount,hall.entryCount,← hdone,hentries,
      (blocks state.currentSlot).counted]

theorem Fed.drainCurrent {again : Bool} {final : SchedulerState C}
    {events : List (SchedulerEvent C)}
    (hp : scheduler.slotPresence state state.currentSlot = some .present)
    (hb : state.slots.lookup state.currentSlot = some buffer)
    (h : TransactionScheduler.drainCurrent state buffer = .ok (again,final,events)) :
    Fed scheduler startSlot blocks calls final (history.observe events) ∧
      (again = true → final.currentSlot = state.currentSlot + 1) ∧
      (again = false → Settled scheduler final (history.observe events)) := by
  have hc := hf.supplied.contiguous hf.recorded
  have ht := hf.tracks.drainCurrent hc hp hb h
  have hpresent := hp
  rw [hf.slotPresence] at hpresent
  rcases drainCurrent_cases h with
    ⟨rfl,rfl,rfl,hopen⟩ | ⟨rfl,rfl,hpending,_,inferredBlocks,counted,rfl,hcounts⟩
  · obtain ⟨done,released,_,hd⟩ := hf.drained hb
    refine ⟨?_,by simp,fun _ => .inr ⟨hp,?_⟩⟩
    · exact
        { hf with
          tracks := ht
          recorded := hf.recorded.observe _
          buffers := by
            intro slot other hother
            by_cases hcur : slot = state.currentSlot
            · rw [hcur]
              exact ⟨Nat.le_refl _,hpresent⟩
            · simp only [setBuffer,AList.lookup_insert_ne hcur] at hother
              exact hf.buffers slot other hother
          expected := by
            intro slot hle
            have hold := hf.expected slot hle
            rw [bufferAt_setBuffer]
            by_cases hcur : slot = state.currentSlot
            · rw [if_pos hcur,hd.expectedTxCount,hd.expectedEntryCount,← bufferAt_of_lookup hb,
                ← hcur]
              exact hold
            · rw [if_neg hcur]
              exact hold }
    · intro last hlast
      simp only [setBuffer,AList.lookup_insert] at hlast
      cases hlast
      exact ⟨hopen,hd.stuck⟩
  · have hnext := hf.tracks.satSucc_current (by simp [hp])
    refine ⟨?_,fun _ => hnext,by simp⟩
    refine hf.pass ht hnext rfl rfl (AList.lookup_erase _ _) ?_ ?_
      (hf.complete hb hpending hcounts)
    · intro slot hne
      simp only [passCurrent,setBuffer]
      rw [AList.lookup_erase_ne hne,AList.lookup_insert_ne hne]
    · intro slot hne
      change inferredBlocks slot = _
      rcases hcounts with ⟨rfl,_⟩ | ⟨rfl,_⟩
      · rfl
      · rw [Function.update_of_ne hne]

theorem Fed.advanceStep
    (hgap : scheduler.emptySlotBufferGapLimit = 0) :
    ∃ again final events, scheduler.advanceStep state = .ok (again,final,events) ∧
      Fed scheduler startSlot blocks calls final (history.observe events) ∧
      (again = true → final.currentSlot = state.currentSlot + 1 ∧
        state.currentSlot ≤ scheduler.presence.endInclusive) ∧
      (again = false → Settled scheduler final (history.observe events)) := by
  have hstall : scheduler.stallCheck state = .ok () := by simp [stallCheck,hgap]
  have hc := hf.supplied.contiguous hf.recorded
  have hend : scheduler.slotPresence state state.currentSlot ≠ none →
      state.currentSlot ≤ scheduler.presence.endInclusive := by
    intro hknown
    by_contra hlt
    rw [hf.slotPresence] at hknown
    exact hknown (by simp [SlotPresenceMap.state]; omega)
  cases hp : scheduler.slotPresence state state.currentSlot with
  | none =>
    have hstep : scheduler.advanceStep state = .ok (false,state,[]) := by
      simp only [TransactionScheduler.advanceStep,hstall,isMissing,hp,Option.map_none]
      rfl
    rw [← observe_nil history] at hf
    exact ⟨false,state,[],hstep,hf,by simp,fun _ => .inl hp⟩
  | some presence =>
    cases presence with
    | missing =>
      have hb : state.slots.lookup state.currentSlot = none := by
        cases hb : state.slots.lookup state.currentSlot with
        | none => rfl
        | some buffer =>
          have hpresent := (hf.buffers _ buffer hb).2
          rw [hf.slotPresence,hpresent] at hp
          cases hp
      have hstep : scheduler.advanceStep state =
          .ok (true,passCurrent state,[.skip state.currentSlot]) := by
        simp only [TransactionScheduler.advanceStep,hstall,isMissing,hp,hb,Option.map_some,
          decide_true]
        rfl
      have hskip := hf.skip hp (hf.tracks.advanceStep hc hstep)
      have hnext := hf.tracks.satSucc_current (by simp [hp])
      exact ⟨true,_,_,hstep,hskip,fun _ => ⟨hnext,hend (by simp [hp])⟩,by simp⟩
    | present =>
      cases hb : state.slots.lookup state.currentSlot with
      | none =>
        have hstep : scheduler.advanceStep state = .ok (false,state,[]) := by
          simp only [TransactionScheduler.advanceStep,hstall,isMissing,hp,hb,Option.map_some,
            reduceCtorEq,decide_false]
          rfl
        rw [← observe_nil history] at hf
        exact ⟨false,state,[],hstep,hf,by simp,fun _ => .inr ⟨hp,by simp [hb]⟩⟩
      | some buffer =>
        obtain ⟨done,released,hs,hd⟩ := hf.drained hb
        have hexpected := hf.expected state.currentSlot (Nat.le_refl _)
        rw [bufferAt_of_lookup hb,← hd.expectedTxCount,← hd.expectedEntryCount] at hexpected
        obtain ⟨complete,hcomplete⟩ := (hs.drained hd).shouldFinalize_ok hf.supplied
          (hf.recorded.observe _) hexpected
        obtain ⟨again,final,events,hdrain⟩ := drainCurrent_isOk hcomplete
        have hstep : scheduler.advanceStep state = .ok (again,final,events) := by
          simp only [TransactionScheduler.advanceStep,hstall,isMissing,hp,hb,Option.map_some,
            reduceCtorEq,decide_false]
          exact hdrain
        obtain ⟨hfinal,hagain,hsettled⟩ := hf.drainCurrent hp hb hdrain
        exact ⟨again,final,events,hstep,hfinal,fun h => ⟨hagain h,hend (by simp [hp])⟩,hsettled⟩

end

end Feeding

variable {calls : List (SchedulerCall C)} {slot : Nat}

theorem Fed.advanceLoop {scheduler : TransactionScheduler} {startSlot : Nat}
    {blocks : Nat → BlockData C} {state : SchedulerState C}
    {history : History C} (hf : Fed scheduler startSlot blocks calls state history)
    (hgap : scheduler.emptySlotBufferGapLimit = 0) {fuel : Nat}
    (hfuel : scheduler.presence.endInclusive + 1 - state.currentSlot < fuel) :
    ∃ final events, scheduler.advanceLoop fuel state = .ok (final,events) ∧
      Fed scheduler startSlot blocks calls final (history.observe events) ∧
      Settled scheduler final (history.observe events) := by
  induction fuel generalizing state history with
  | zero => omega
  | succ fuel ih =>
    obtain ⟨again,next,first,hstep,hnext,hagain,hsettled⟩ := hf.advanceStep hgap
    cases again with
    | false =>
      refine ⟨next,first,?_,hnext,hsettled rfl⟩
      simp [TransactionScheduler.advanceLoop,hstep]
    | true =>
      obtain ⟨hcurrent,hend⟩ := hagain rfl
      obtain ⟨final,following,hloop,hfinal,hdone⟩ := ih hnext (by omega)
      refine ⟨final,first ++ following,?_,?_,?_⟩
      · simp only [TransactionScheduler.advanceLoop,hstep,ok_bind,if_true,hloop]
      · rw [observe_append]
        exact hfinal
      · rw [observe_append]
        exact hdone

/-- What the caller keeps to: pieces of present blocks, entries in order,
earlier slots declared or fully delivered first, and redeliveries only for
slots that are not finalized yet. -/
structure CallAllowed [DecidableEq C.Sig] [DecidableEq C.Status]
    (scheduler : TransactionScheduler) (startSlot : Nat) (blocks : Nat → BlockData C)
    (before : List (SchedulerCall C)) (call : SchedulerCall C) : Prop where
  supplied : scheduler.presence.state call.slot = some .present ∧ startSlot ≤ call.slot ∧
    (blocks call.slot).Delivers call
  ordered : ∀ entry, call = .pushEntry call.slot entry →
    ∀ earlier ∈ (blocks call.slot).entries, earlier.entryIndex < entry.entryIndex →
      .pushEntry call.slot earlier ∈ before
  earlier : ∀ slot, startSlot ≤ slot → slot < call.slot →
    scheduler.presence.state slot = some .present →
    (blocks slot).MetadataIn slot before ∨ (blocks slot).DataIn slot before
  redelivered : call ∈ before → ∀ state history,
    scheduler.run startSlot before = .ok (state,history) → state.lastFinalizedSlot < call.slot

theorem BlockData.MetadataIn.snoc {block : BlockData C} (h : block.MetadataIn slot calls)
    (call : SchedulerCall C) :
    block.MetadataIn slot (calls ++ [call]) :=
  List.mem_append_left _ h

theorem BlockData.DataIn.snoc {block : BlockData C} (h : block.DataIn slot calls)
    (call : SchedulerCall C) :
    block.DataIn slot (calls ++ [call]) :=
  ⟨fun index tx statusMeta hb => List.mem_append_left _ (h.1 index tx statusMeta hb),
    fun entry hmem => List.mem_append_left _ (h.2 entry hmem)⟩

section Calling

variable [DecidableEq C.Sig] [DecidableEq C.Status] {scheduler : TransactionScheduler}
  {startSlot : Nat} {blocks : Nat → BlockData C} {calls : List (SchedulerCall C)}
  {state : SchedulerState C} {history : History C} {call : SchedulerCall C}

theorem Supplied.snoc (hs : Supplied scheduler.presence startSlot blocks calls)
    (ha : CallAllowed scheduler startSlot blocks calls call) :
    Supplied scheduler.presence startSlot blocks (calls ++ [call]) := by
  intro other hmem
  rw [List.mem_append,List.mem_singleton] at hmem
  rcases hmem with hmem | rfl
  · exact hs other hmem
  · exact ha.supplied

theorem Fed.seen_snoc (hf : Fed scheduler startSlot blocks calls state history)
    (ha : CallAllowed scheduler startSlot blocks calls call)
    (hl : startSlot ≤ slot) (hu : slot < max state.highestSeenSlot call.slot)
    (hp : scheduler.presence.state slot = some .present) :
    (blocks slot).MetadataIn slot (calls ++ [call]) ∨
      (blocks slot).DataIn slot (calls ++ [call]) := by
  have hold : (blocks slot).MetadataIn slot calls ∨ (blocks slot).DataIn slot calls := by
    by_cases hlt : slot < call.slot
    · exact ha.earlier slot hl hlt hp
    · exact hf.seen slot hl (by omega) hp
  exact hold.imp (fun h => h.snoc call) (fun h => h.snoc call)

theorem Fed.deliver {next : History C} {buffer : SlotExecutionBuffer C}
    {inferredBlocks : Nat → Option (Nat × Nat)}
    (hf : Fed scheduler startSlot blocks calls state history)
    (ha : CallAllowed scheduler startSlot blocks calls call) (hslot : state.currentSlot ≤ call.slot)
    (ht : Tracks scheduler.presence startSlot
      (setBuffer { TransactionScheduler.seen state call.slot with
        inferredBlocks := inferredBlocks } call.slot buffer)
      next)
    (hr : Recorded (calls ++ [call]) next) (hd : DeliveredAt call.slot history next)
    (hinferred : ∀ slot, slot ≠ call.slot → inferredBlocks slot = state.inferredBlocks slot)
    (hexpected : buffer.expectedTxCount = none ∧ buffer.expectedEntryCount = none ∨
      (blocks call.slot).MetadataIn call.slot (calls ++ [call])) :
    Fed scheduler startSlot blocks (calls ++ [call])
      (setBuffer { TransactionScheduler.seen state call.slot with
        inferredBlocks := inferredBlocks } call.slot buffer)
      next where
  tracks := ht
  recorded := hr
  supplied := hf.supplied.snoc ha
  forced := hf.forced
  buffers slot other hb := by
    by_cases hsame : slot = call.slot
    · rw [hsame]
      exact ⟨hslot,ha.supplied.1⟩
    · simp only [setBuffer,AList.lookup_insert_ne hsame] at hb
      exact hf.buffers slot other hb
  expected slot hle := by
    rw [bufferAt_setBuffer]
    by_cases hsame : slot = call.slot
    · rw [if_pos hsame,hsame]
      exact hexpected
    · rw [if_neg hsame]
      exact (hf.expected slot hle).imp_right fun h => h.snoc call
  seen slot hl hu hp := hf.seen_snoc ha hl hu hp
  finished slot hl hu hp := by
    change slot < state.currentSlot at hu
    have hne : slot ≠ call.slot := by omega
    obtain ⟨hentries,hcounts⟩ := hf.finished slot hl hu hp
    refine ⟨(hd.entries slot hne).trans hentries,hcounts.imp (fun h => h.snoc call) ?_⟩
    intro hold
    exact (hinferred slot hne).trans hold

/-- The call returns `Ok`, keeps the invariant and settles. -/
def Served (scheduler : TransactionScheduler) (startSlot : Nat) (blocks : Nat → BlockData C)
    (calls : List (SchedulerCall C)) (state : SchedulerState C) (history : History C)
    (call : SchedulerCall C) : Prop :=
  ∃ final events inserted, scheduler.call state call = .ok (final,events,inserted) ∧
    Fed scheduler startSlot blocks (calls ++ [call]) final
      ((history.deliver inserted call).observe events) ∧
    Settled scheduler final ((history.deliver inserted call).observe events)

section

variable (hf : Fed scheduler startSlot blocks calls state history)
include hf

theorem Fed.insertTransaction_open {index : Nat} {tx : VersionedTransaction C}
    {statusMeta : TransactionStatusMeta C}
    (hrun : scheduler.run startSlot calls = .ok (state,history))
    (ha : CallAllowed scheduler startSlot blocks calls
      (.insertTransaction slot index tx statusMeta)) : state.lastFinalizedSlot < slot := by
  by_contra hlate
  have hcurrent := hf.tracks.current
  have hclosed := hf.tracks.closed slot (by omega)
  obtain ⟨hpresent,hstart,hblock⟩ := ha.supplied
  change (blocks slot).txs[index]? = some (tx,statusMeta) at hblock
  have hindex : index < txSum (history.entries slot) := by
    rw [(hf.finished slot hstart (by omega) hpresent).1,← (blocks slot).counted]
    exact (List.getElem?_eq_some_iff.mp hblock).1
  obtain ⟨entry,hmem,hl,hu⟩ := (hf.supplied.contiguous hf.recorded slot).covers hindex
  obtain ⟨k,hk,rfl⟩ := List.getElem_of_mem hmem
  have hlen : k < (history.emitted slot).length := by
    rw [← hclosed.carries.length_eq]
    exact hk
  have hsome := collectRange_isSome (hclosed.carries.get hk hlen).txs hl hu
  rw [hf.recorded.txs] at hsome
  obtain ⟨scheduled,hscheduled⟩ := Option.ne_none_iff_exists'.mp hsome
  obtain ⟨vtx,delivered,hcall,_⟩ := deliveredTx_some hscheduled
  have hsame : (blocks slot).txs[index]? = some (vtx,delivered) := (hf.supplied _ hcall).2.2
  rw [hblock,Option.some.injEq,Prod.mk.injEq] at hsame
  obtain ⟨rfl,rfl⟩ := hsame
  exact hlate (ha.redelivered hcall state history hrun)

theorem Fed.insertTransaction {index : Nat} {tx : VersionedTransaction C}
    {statusMeta : TransactionStatusMeta C}
    (hgap : scheduler.emptySlotBufferGapLimit = 0)
    (hrun : scheduler.run startSlot calls = .ok (state,history))
    (ha : CallAllowed scheduler startSlot blocks calls
      (.insertTransaction slot index tx statusMeta)) :
    Served scheduler startSlot blocks calls state history
      (.insertTransaction slot index tx statusMeta) := by
  have hopen := hf.insertTransaction_open hrun ha
  have hslot : state.currentSlot ≤ slot := hf.tracks.current ▸ hopen
  obtain ⟨done,hs⟩ := hf.tracks.opened slot hslot
  have hblock : (blocks slot).txs[index]? = some (tx,statusMeta) := ha.supplied.2.2
  have hsame : ∀ existing, history.txs slot index = some existing →
      existing = ⟨tx,statusMeta.status,statusMeta⟩ := by
    intro existing hexisting
    have hscheduled := hf.supplied.txs hf.recorded hexisting
    simpa [BlockData.scheduled,hblock,BlockData.schedule] using hscheduled.symm
  obtain ⟨inserted,buffer,hinsert⟩ := insertTransaction_isOk hs.holds hsame
  have hexpected := hf.expected slot hslot
  have hbuffer := (insertTransaction_cases hs.holds hinsert).1
  have hmid := hf.deliver ha hslot (hf.tracks.stored hslot hinsert)
    (hf.recorded.insertTransaction hf.tracks hslot (hf.supplied.contiguous hf.recorded slot)
      hinsert)
    (deliver_at history inserted _) (fun _ _ => rfl)
    (by rw [hbuffer]; exact hexpected.imp_right fun h => h.snoc _)
  obtain ⟨final,events,hloop,hfinal,hsettled⟩ := hmid.advanceLoop hgap (Nat.lt_succ_self _)
  exact ⟨final,events,inserted,insertTransaction_of_ok hopen hinsert hloop,hfinal,hsettled⟩

theorem Fed.pushEntry_open {entry : PendingEntry C}
    (hrun : scheduler.run startSlot calls = .ok (state,history))
    (ha : CallAllowed scheduler startSlot blocks calls (.pushEntry slot entry)) :
    state.lastFinalizedSlot < slot := by
  by_contra hlate
  have hcurrent := hf.tracks.current
  obtain ⟨hpresent,hstart,hblock⟩ := ha.supplied
  change entry ∈ (blocks slot).entries at hblock
  have hindex := (blocks slot).entry_getElem? hblock
  rw [← (hf.finished slot hstart (by omega) hpresent).1,hf.recorded.entries] at hindex
  exact hlate (ha.redelivered (deliveredEntry_some hindex).1 state history hrun)

theorem Fed.pushEntry_next {entry : PendingEntry C}
    (ha : CallAllowed scheduler startSlot blocks calls (.pushEntry slot entry)) :
    entry.entryIndex ≤ (history.entries slot).length := by
  by_contra hlt
  rw [Nat.not_le] at hlt
  have hblock : entry ∈ (blocks slot).entries := ha.supplied.2.2
  have hbound := (List.getElem?_eq_some_iff.mp ((blocks slot).entry_getElem? hblock)).1
  have hnext := List.getElem?_eq_getElem (Nat.lt_trans hlt hbound)
  have hindex := (blocks slot).indexed _ _ hnext
  have hbefore := ha.ordered entry rfl _ (List.mem_of_getElem? hnext) (by rw [hindex]; exact hlt)
  have hsome := deliveredEntry_ne_none hbefore
  rw [hindex] at hsome
  change deliveredEntry calls slot (history.entries slot).length ≠ none at hsome
  rw [← hf.recorded.entries] at hsome
  simp at hsome

theorem Fed.pushEntry {entry : PendingEntry C}
    (hgap : scheduler.emptySlotBufferGapLimit = 0)
    (hrun : scheduler.run startSlot calls = .ok (state,history))
    (ha : CallAllowed scheduler startSlot blocks calls (.pushEntry slot entry)) :
    Served scheduler startSlot blocks calls state history (.pushEntry slot entry) := by
  have hopen := hf.pushEntry_open hrun ha
  have hslot : state.currentSlot ≤ slot := hf.tracks.current ▸ hopen
  obtain ⟨done,hs⟩ := hf.tracks.opened slot hslot
  have hnext := hf.pushEntry_next ha
  rw [← hs.nextEntryIndex] at hnext
  obtain ⟨inserted,buffer,hpush⟩ := pushEntry_isOk hnext
  have hexpected : buffer.expectedTxCount = none ∧ buffer.expectedEntryCount = none ∨
      (blocks slot).MetadataIn slot (calls ++ [.pushEntry slot entry]) := by
    have hold := hf.expected slot hslot
    rcases pushEntry_cases hpush with ⟨_,_,rfl⟩ | ⟨_,_,rfl⟩ <;>
      exact hold.imp_right fun h => h.snoc _
  have hmid := hf.deliver ha hslot (hf.tracks.pushed hslot hpush)
    (hf.recorded.pushEntry hf.tracks hslot hpush) (deliver_at history inserted _)
    (fun _ _ => rfl) hexpected
  obtain ⟨final,events,hloop,hfinal,hsettled⟩ := hmid.advanceLoop hgap (Nat.lt_succ_self _)
  exact ⟨final,events,inserted,pushEntry_of_ok hopen hpush hloop,hfinal,hsettled⟩

theorem Fed.lateMetadata
    (hsettled : Settled scheduler state history) (hlate : slot ≤ state.lastFinalizedSlot)
    (ha : CallAllowed scheduler startSlot blocks calls
      (.recordBlockMetadata slot (blocks slot).txs.length (blocks slot).entries.length))
    (hinferred : state.inferredBlocks slot =
      some ((blocks slot).txs.length,(blocks slot).entries.length)) :
    Served scheduler startSlot blocks calls state history
      (.recordBlockMetadata slot (blocks slot).txs.length (blocks slot).entries.length) := by
  have hslot : slot < state.currentSlot := hf.tracks.current ▸ Nat.lt_succ_of_le hlate
  have hlateOk : TransactionScheduler.lateMetadata state slot (blocks slot).txs.length
      (blocks slot).entries.length = .ok ({ state with
        inferredBlocks := Function.update state.inferredBlocks slot none },[]) := by
    simp [TransactionScheduler.lateMetadata,hinferred]
  have ht := hf.tracks.lateMetadata hslot hlateOk
  refine ⟨{ state with inferredBlocks := Function.update state.inferredBlocks slot none },[],true,
    ?_,?_,?_⟩
  · simp only [TransactionScheduler.call,TransactionScheduler.recordBlockMetadata,if_pos hlate,
      hlateOk,ok_bind]
  · exact
      { tracks := ht
        recorded := hf.recorded.declared.observe []
        supplied := hf.supplied.snoc ha
        forced := hf.forced
        buffers := hf.buffers
        expected := fun other hle => (hf.expected other hle).imp_right fun h => h.snoc _
        seen := fun other hl hu hp =>
          hf.seen_snoc ha hl (Nat.lt_of_lt_of_le hu (Nat.le_max_left _ _)) hp
        finished := by
          intro other hl hu hp
          obtain ⟨hentries,hcounts⟩ := hf.finished other hl hu hp
          refine ⟨hentries,?_⟩
          by_cases hsame : other = slot
          · subst hsame
            exact .inl (List.mem_append_right _ (List.mem_singleton.mpr rfl))
          · refine hcounts.imp (fun h => h.snoc _) fun hold => ?_
            simpa [Function.update_of_ne hsame] using hold }
  · exact hsettled

theorem Fed.recordBlockMetadata {expectedTx expectedEntry : Nat}
    (hgap : scheduler.emptySlotBufferGapLimit = 0)
    (hidle : state.currentSlot = startSlot ∨ Settled scheduler state history)
    (hrun : scheduler.run startSlot calls = .ok (state,history))
    (ha : CallAllowed scheduler startSlot blocks calls
      (.recordBlockMetadata slot expectedTx expectedEntry)) :
    Served scheduler startSlot blocks calls state history
      (.recordBlockMetadata slot expectedTx expectedEntry) := by
  obtain ⟨hpresent,hstart,hblock⟩ := ha.supplied
  obtain ⟨rfl,rfl⟩ : expectedTx = (blocks slot).txs.length ∧
    expectedEntry = (blocks slot).entries.length := hblock
  change startSlot ≤ slot at hstart
  have hcurrent := hf.tracks.current
  by_cases hlate : slot ≤ state.lastFinalizedSlot
  · obtain ⟨_,hmeta | hinferred⟩ := hf.finished slot hstart (by omega) hpresent
    · exact absurd (ha.redelivered hmeta state history hrun) (Nat.not_lt.mpr hlate)
    · exact hf.lateMetadata (hidle.resolve_left (by omega)) hlate ha hinferred
  · have hopen : state.lastFinalizedSlot < slot := Nat.not_le.mp hlate
    have hslot : state.currentSlot ≤ slot := hcurrent ▸ hopen
    obtain ⟨done,hs⟩ := hf.tracks.opened slot hslot
    obtain ⟨buffer,hset⟩ := setExpectedCounts_isOk ((hf.expected slot hslot).imp_right fun hmeta =>
      hs.metadata _ _ ((hf.recorded.metadata _ _ _).mpr hmeta))
    have hinferred : state.inferredBlocks slot = none := by
      cases hsome : state.inferredBlocks slot with
      | none => rfl
      | some counts => exact absurd (hf.tracks.inferred slot counts.1 counts.2 hsome).1 (by omega)
    have hmid := hf.deliver ha hslot (hf.tracks.declared hslot hset) hf.recorded.declared
      (deliver_at history true _) (fun other hne => Function.update_of_ne hne _ _)
      (.inr (List.mem_append_right _ (List.mem_singleton.mpr rfl)))
    obtain ⟨final,events,hloop,hfinal,hsettled⟩ := hmid.advanceLoop hgap (Nat.lt_succ_self _)
    refine ⟨final,events,true,?_,hfinal,hsettled⟩
    simp only [TransactionScheduler.call,recordBlockMetadata_of_ok hopen hinferred hset hloop,
      ok_bind]

theorem Fed.served
    (hgap : scheduler.emptySlotBufferGapLimit = 0)
    (hidle : state.currentSlot = startSlot ∨ Settled scheduler state history)
    (hrun : scheduler.run startSlot calls = .ok (state,history))
    (ha : CallAllowed scheduler startSlot blocks calls call) :
    Served scheduler startSlot blocks calls state history call := by
  cases call with
  | insertTransaction slot index tx statusMeta => exact hf.insertTransaction hgap hrun ha
  | pushEntry slot entry => exact hf.pushEntry hgap hrun ha
  | recordBlockMetadata slot expectedTx expectedEntry =>
    exact hf.recordBlockMetadata hgap hidle hrun ha
  | forceMarkMissing slot => exact ha.supplied.2.2.elim

end

omit [DecidableEq C.Sig] [DecidableEq C.Status] in
theorem fed_init (scheduler : TransactionScheduler) (blocks : Nat → BlockData C)
    (hstart : 1 ≤ startSlot) :
    Fed scheduler startSlot blocks [] (init startSlot : SchedulerState C) .empty where
  tracks := tracks_init scheduler.presence hstart
  recorded := recorded_nil
  supplied := by simp [Supplied]
  forced := rfl
  buffers slot buffer hb := by simp [init] at hb
  expected slot _ := .inl (by simp [bufferAt,init,SlotExecutionBuffer.default])
  seen slot hl hu := by simp only [init] at hu; omega
  finished slot hl hu := by simp only [init] at hu; omega

theorem run_fed (hgap : scheduler.emptySlotBufferGapLimit = 0) (hstart : 1 ≤ startSlot)
    (hallowed : Justified (CallAllowed scheduler startSlot blocks) calls) :
    ∃ final history, scheduler.run startSlot calls = .ok (final,history) ∧
      Fed scheduler startSlot blocks calls final history ∧
      (calls = [] ∧ final.currentSlot = startSlot ∨ Settled scheduler final history) := by
  induction calls using List.reverseRecOn with
  | nil => exact ⟨init startSlot,.empty,rfl,fed_init scheduler blocks hstart,.inl ⟨rfl,rfl⟩⟩
  | append_singleton calls call ih =>
    obtain ⟨state,history,hrun,hf,hidle⟩ := ih hallowed.of_append
    obtain ⟨final,events,inserted,hcall,hfinal,hsettled⟩ :=
      hf.served hgap (hidle.imp_left And.right) hrun hallowed.last
    refine ⟨final,_,foldlM_concat hrun ?_,hfinal,.inr hsettled⟩
    simp only [runCall,hcall,ok_bind]

end Calling

def canonicalReplay (presence : SlotPresenceMap) (startSlot : Nat) (blocks : Nat → BlockData C) :
    List (ReadyEntry (ScheduledTransaction C) C.Hash) :=
  (List.range' startSlot (presence.endInclusive + 1 - startSlot)).flatMap fun slot =>
    if presence.state slot = some .present then (blocks slot).ready slot else []

def SuppliesAll (presence : SlotPresenceMap) (startSlot : Nat) (blocks : Nat → BlockData C)
    (calls : List (SchedulerCall C)) : Prop :=
  ∀ slot, startSlot ≤ slot → presence.state slot = some .present →
    (blocks slot).MetadataIn slot calls ∧ (blocks slot).DataIn slot calls

theorem SlotPresenceMap.state_eq_none {presence : SlotPresenceMap}
    (h : presence.state slot = none) (hl : presence.start ≤ slot) :
    presence.endInclusive < slot := by
  by_contra hu
  have hcovers := presence.covers
  have hout : ¬ (slot < presence.start ∨ presence.endInclusive < slot) := by omega
  rw [SlotPresenceMap.state,if_neg hout,List.getElem?_eq_none_iff] at h
  omega

theorem SlotPresenceMap.le_end_of_state {presence : SlotPresenceMap}
    {known : SlotPresenceState} (h : presence.state slot = some known) :
    slot ≤ presence.endInclusive := by
  by_contra hlt
  rw [SlotPresenceMap.state,if_pos (.inr (Nat.not_le.mp hlt))] at h
  cases h

section Finish

variable {scheduler : TransactionScheduler} {startSlot : Nat} {blocks : Nat → BlockData C}
  {calls : List (SchedulerCall C)} {state : SchedulerState C} {history : History C}

section

variable (hf : Fed scheduler startSlot blocks calls state history)
include hf

theorem Fed.exhausted
    (hsettled : Settled scheduler state history)
    (hall : SuppliesAll scheduler.presence startSlot blocks calls) :
    scheduler.presence.state state.currentSlot = none := by
  rcases hsettled with hnone | ⟨hp,hstuck⟩
  · rw [← hf.slotPresence]
    exact hnone
  · exfalso
    rw [hf.slotPresence] at hp
    obtain ⟨hmeta,hdata⟩ := hall state.currentSlot hf.tracks.start_le hp
    obtain ⟨done,hs⟩ := hf.tracks.opened state.currentSlot (Nat.le_refl _)
    obtain ⟨htx,hentry⟩ := hs.metadata _ _ ((hf.recorded.metadata _ _ _).mpr hmeta)
    have hentries := hf.supplied.dataIn_entries hf.recorded hdata
    cases hb : state.slots.lookup state.currentSlot with
    | none => simp [bufferAt,hb,SlotExecutionBuffer.default] at htx
    | some buffer =>
      rw [bufferAt_of_lookup hb] at hs htx hentry
      obtain ⟨hopen,hlacks⟩ := hstuck buffer hb
      cases hpending : buffer.pendingEntries with
      | cons entry rest =>
        obtain ⟨i,_,hu,hnone⟩ := hlacks entry rest hpending
        have hmem : entry ∈ (blocks state.currentSlot).entries := by
          rw [← hentries,hs.entries,hpending]
          simp
        have hbound := (blocks state.currentSlot).range_le hmem
        rw [hf.supplied.dataIn_txs hf.recorded hdata] at hnone
        simp only [BlockData.scheduled,Option.map_eq_none_iff,List.getElem?_eq_none_iff] at hnone
        omega
      | nil =>
        have hdone : (blocks state.currentSlot).entries = done := by
          rw [← hentries,hs.entries,hpending,List.append_nil]
        have hcount : buffer.processedEntryCount = (blocks state.currentSlot).entries.length := by
          rw [hs.entryCount,hdone]
        have hcountTx : buffer.processedTxCount = (blocks state.currentSlot).txs.length := by
          rw [hs.txCount,(blocks state.currentSlot).counted,hdone]
        simp only [shouldFinalize,htx,hentry,hcount,hcountTx,Nat.lt_irrefl,or_self,if_false,
          and_self,if_true] at hopen
        split at hopen <;> cases hopen

theorem Fed.emitted
    (hall : SuppliesAll scheduler.presence startSlot blocks calls)
    (hl : startSlot ≤ slot) (hu : slot < state.currentSlot)
    (hp : scheduler.presence.state slot = some .present) :
    history.emitted slot = (blocks slot).ready slot := by
  have hcarries := (hf.tracks.closed slot hu).carries
  rw [(hf.finished slot hl hu hp).1,
    funext (hf.supplied.dataIn_txs hf.recorded (hall slot hl hp).2)] at hcarries
  exact (blocks slot).map_readyEntry_of_carries (fun _ hmem => hmem) hcarries

theorem Fed.emitted_range
    {ready : ReadyEntry (ScheduledTransaction C) C.Hash}
    (hmem : ready ∈ emittedEntries history.events) :
    startSlot ≤ ready.slot ∧ ready.slot ≤ scheduler.presence.endInclusive := by
  obtain ⟨k,hk,hready⟩ := List.getElem_of_mem (mem_emitted hmem)
  have hsome : (history.emitted ready.slot)[k]? = some ready := by
    rw [List.getElem?_eq_getElem hk,hready]
  obtain ⟨_,entry,hentry,_⟩ := hf.tracks.emitted_entry hsome
  rw [hf.recorded.entries] at hentry
  obtain ⟨hpresent,hstart,_⟩ := hf.supplied _ (deliveredEntry_some hentry).1
  exact ⟨hstart,SlotPresenceMap.le_end_of_state hpresent⟩

theorem Fed.verifyMissing
    (h : ∀ slot, state.currentSlot ≤ slot → scheduler.presence.state slot ≠ some .present)
    (count : Nat) (hslot : state.currentSlot ≤ slot) :
    scheduler.verifyMissing state count slot = .ok () := by
  induction count generalizing slot with
  | zero => rfl
  | succ count ih =>
    unfold TransactionScheduler.verifyMissing
    rw [hf.slotPresence]
    cases hp : scheduler.presence.state slot with
    | none => rfl
    | some presence =>
      cases presence with
      | present => exact absurd hp (h slot hslot)
      | missing =>
        have hend := SlotPresenceMap.le_end_of_state hp
        have hmax := scheduler.presence.bounded
        have hnext : satSucc slot = slot + 1 := by unfold satSucc; omega
        simp only [hnext]
        exact ih (by omega)

theorem Fed.verifyComplete
    (h : ∀ slot, state.currentSlot ≤ slot → scheduler.presence.state slot ≠ some .present)
    (endInclusive : Nat) : scheduler.verifyComplete state endInclusive = .ok () := by
  have hnone : state.slots.entries = [] := by
    rw [List.eq_nil_iff_forall_not_mem]
    intro item hmem
    obtain ⟨hle,hpresent⟩ := hf.buffers item.1 item.2 (AList.mem_lookup_iff.mpr hmem)
    exact h item.1 hle hpresent
  unfold TransactionScheduler.verifyComplete
  rw [hnone]
  exact hf.verifyMissing h _ (Nat.le_refl _)

end

end Finish

/-- Order independence and completeness: however the pieces of the blocks
arrive, every call returns `Ok`, the entries come out in the canonical order,
and the replay verifies as complete. -/
theorem scheduler_canonical_replay [DecidableEq C.Sig] [DecidableEq C.Status]
    (scheduler : TransactionScheduler) (hgap : scheduler.emptySlotBufferGapLimit = 0)
    {startSlot : Nat} (hstart : 1 ≤ startSlot) (hrange : scheduler.presence.start ≤ startSlot)
    (blocks : Nat → BlockData C) (calls : List (SchedulerCall C))
    (hallowed : Justified (CallAllowed scheduler startSlot blocks) calls)
    (hall : SuppliesAll scheduler.presence startSlot blocks calls) :
    ∃ final history, scheduler.run startSlot calls = .ok (final,history) ∧
      emittedEntries history.events = canonicalReplay scheduler.presence startSlot blocks ∧
      ∀ endInclusive, scheduler.verifyComplete final endInclusive = .ok () := by
  obtain ⟨final,history,hrun,hf,hidle⟩ := run_fed hgap hstart hallowed
  -- Every present slot of the range lies behind the current one.
  have hbehind : ∀ slot, startSlot ≤ slot → scheduler.presence.state slot = some .present →
      slot < final.currentSlot := by
    intro slot hl hp
    rcases hidle with ⟨hnil,_⟩ | hsettled
    · have hmeta := (hall slot hl hp).1
      rw [hnil] at hmeta
      exact absurd hmeta List.not_mem_nil
    · have hend := SlotPresenceMap.state_eq_none (hf.exhausted hsettled hall)
        (Nat.le_trans hrange hf.tracks.start_le)
      exact Nat.lt_of_le_of_lt (SlotPresenceMap.le_end_of_state hp) hend
  refine ⟨final,history,hrun,?_,hf.verifyComplete fun slot hle hp =>
    Nat.not_lt.mpr hle (hbehind slot (Nat.le_trans hf.tracks.start_le hle) hp)⟩
  have hgroups : emittedEntries history.events =
      (List.range' startSlot (scheduler.presence.endInclusive + 1 - startSlot)).flatMap
        history.emitted := by
    refine eq_flatMap_filter hf.tracks.sorted fun ready hmem => ?_
    have hin := hf.emitted_range hmem
    omega
  rw [hgroups]
  refine List.flatMap_congr fun slot hmem => ?_
  have hl := (List.mem_range'_1.mp hmem).1
  by_cases hp : scheduler.presence.state slot = some .present
  · rw [if_pos hp]
    exact hf.emitted hall hl (hbehind slot hl hp) hp
  · rw [if_neg hp]
    -- A slot that is not present emits nothing.
    rw [List.eq_nil_iff_forall_not_mem]
    intro ready hready
    obtain ⟨k,hk,rfl⟩ := List.getElem_of_mem hready
    obtain ⟨_,entry,hentry,_⟩ := hf.tracks.emitted_entry (List.getElem?_eq_getElem hk)
    rw [hf.recorded.entries] at hentry
    exact hp (hf.supplied _ (deliveredEntry_some hentry).1).1

def singleBlock (entry : PendingEntry plainChain)
    (txs : List (VersionedTransaction plainChain × TransactionStatusMeta plainChain))
    (hindex : entry.entryIndex = 0) (hstart : entry.startIndex = 0)
    (hcount : txs.length = entry.txCount) : BlockData plainChain where
  entries := [entry]
  txs := txs
  indexed k first hk := by
    cases k with
    | zero =>
      obtain rfl := Option.some.inj hk
      exact hindex
    | succ k => simp at hk
  contiguous := contiguous_singleton hstart
  counted := by simp [hcount]

def gapScheduler : TransactionScheduler :=
  ⟨⟨1,3,[.present,.missing,.present],rfl,by decide⟩,0⟩

def gapBlocks (slot : Nat) : BlockData plainChain :=
  if slot = 1 then singleBlock ⟨0,0,1,20,1⟩ [(⟨[7],70⟩,⟨true,()⟩)] rfl rfl rfl
  else singleBlock ⟨0,0,0,40,1⟩ [] rfl rfl rfl

def gapCalls : List (SchedulerCall plainChain) :=
  [.pushEntry 1 ⟨0,0,1,20,1⟩,.insertTransaction 1 0 ⟨[7],70⟩ ⟨true,()⟩,
   .pushEntry 3 ⟨0,0,0,40,1⟩,.recordBlockMetadata 3 0 1,.recordBlockMetadata 1 1 1]

theorem gapScheduler_present (h : gapScheduler.presence.state slot = some .present) :
    slot = 1 ∨ slot = 3 := by
  have hend : slot ≤ 3 := SlotPresenceMap.le_end_of_state h
  have hcases : slot = 0 ∨ slot = 1 ∨ slot = 2 ∨ slot = 3 := by omega
  rcases hcases with rfl | rfl | rfl | rfl
  · exact absurd h (by decide)
  · exact .inl rfl
  · exact absurd h (by decide)
  · exact .inr rfl

theorem gapBlocks_first_dataIn (rest : List (SchedulerCall plainChain)) :
    (gapBlocks 1).DataIn 1 (gapCalls.take 2 ++ rest) := by
  refine ⟨?_,?_⟩
  · intro index tx statusMeta h
    cases index with
    | zero =>
      obtain ⟨rfl,rfl⟩ := Prod.mk.inj (Option.some.inj h)
      simp [gapCalls]
    | succ index => simp [gapBlocks,singleBlock] at h
  · intro entry hmem
    obtain rfl : entry = ⟨0,0,1,20,1⟩ := by simpa [gapBlocks,singleBlock] using hmem
    simp [gapCalls]

theorem gapBlocks_callAllowed {before : List (SchedulerCall plainChain)}
    {call : SchedulerCall plainChain} (hp : gapScheduler.presence.state call.slot = some .present)
    (hdelivers : (gapBlocks call.slot).Delivers call) (hnew : call ∉ before)
    (hearlier : call.slot = 3 → (gapBlocks 1).DataIn 1 before) :
    CallAllowed gapScheduler 1 gapBlocks before call := by
  have hslot := gapScheduler_present hp
  refine ⟨⟨hp,by omega,hdelivers⟩,?_,?_,fun hmem => absurd hmem hnew⟩
  · intro entry heq earlier hmem hlt
    rw [heq] at hdelivers
    have hzero : entry.entryIndex = 0 := by
      have hentry : entry ∈ (gapBlocks call.slot).entries := hdelivers
      unfold gapBlocks at hentry
      split at hentry <;> (obtain rfl := List.mem_singleton.mp hentry; rfl)
    omega
  · intro slot hl hu hpresent
    rcases gapScheduler_present hpresent with rfl | rfl
    · exact .inr (hearlier (by omega))
    · omega

theorem gapCalls_allowed : Justified (CallAllowed gapScheduler 1 gapBlocks) gapCalls := by
  have h1 : Justified (CallAllowed gapScheduler 1 gapBlocks) (gapCalls.take 1) :=
    Justified.nil.snoc (gapBlocks_callAllowed rfl List.mem_cons_self (by simp)
      (by simp [SchedulerCall.slot]))
  have h2 : Justified (CallAllowed gapScheduler 1 gapBlocks) (gapCalls.take 2) :=
    h1.snoc (gapBlocks_callAllowed rfl rfl (by simp [gapCalls]) (by simp [SchedulerCall.slot]))
  have h3 : Justified (CallAllowed gapScheduler 1 gapBlocks) (gapCalls.take 3) :=
    h2.snoc (gapBlocks_callAllowed rfl List.mem_cons_self (by simp [gapCalls])
      fun _ => gapBlocks_first_dataIn [])
  have h4 : Justified (CallAllowed gapScheduler 1 gapBlocks) (gapCalls.take 4) :=
    h3.snoc (gapBlocks_callAllowed rfl ⟨rfl,rfl⟩ (by simp [gapCalls])
      fun _ => gapBlocks_first_dataIn [.pushEntry 3 ⟨0,0,0,40,1⟩])
  exact h4.snoc (gapBlocks_callAllowed rfl ⟨rfl,rfl⟩ (by simp [gapCalls])
    (by simp [SchedulerCall.slot]))

theorem gapCalls_suppliesAll : SuppliesAll gapScheduler.presence 1 gapBlocks gapCalls := by
  intro slot _ hp
  rcases gapScheduler_present hp with rfl | rfl
  · exact ⟨by simp [BlockData.MetadataIn,gapBlocks,singleBlock,gapCalls],
      gapBlocks_first_dataIn (gapCalls.drop 2)⟩
  · refine ⟨by simp [BlockData.MetadataIn,gapBlocks,singleBlock,gapCalls],?_,?_⟩
    · intro index tx statusMeta h
      simp [gapBlocks,singleBlock] at h
    · intro entry hmem
      obtain rfl : entry = ⟨0,0,0,40,1⟩ := by simpa [gapBlocks,singleBlock] using hmem
      simp [gapCalls]

theorem gapCalls_canonical_replay :
    ∃ final history, gapScheduler.run 1 gapCalls = .ok (final,history) ∧
      emittedEntries history.events = canonicalReplay gapScheduler.presence 1 gapBlocks ∧
      (canonicalReplay gapScheduler.presence 1 gapBlocks).length = 2 ∧
      gapScheduler.verifyComplete final 3 = .ok () := by
  obtain ⟨final,history,hrun,hemitted,hverify⟩ := scheduler_canonical_replay gapScheduler rfl
    (Nat.le_refl 1) (Nat.le_refl 1) gapBlocks gapCalls gapCalls_allowed gapCalls_suppliesAll
  exact ⟨final,history,hrun,hemitted,by decide,hverify 3⟩

end Jetstreamer.Node
