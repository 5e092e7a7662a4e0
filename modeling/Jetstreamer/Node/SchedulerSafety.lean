import Jetstreamer.Node.SchedulerRuns
import Jetstreamer.Lib.Runs
set_option autoImplicit false

namespace Jetstreamer.Node
open SlotExecutionBuffer TransactionScheduler Lib

variable {C : ChainTypes}

variable {final state : SchedulerState C} {scheduler : TransactionScheduler}
  {events : List (SchedulerEvent C)} {again inserted : Bool} {buffer : SlotExecutionBuffer C}
  {startSlot slot index expectedEntry expectedTx : Nat} {history : History C}
  {ready : List (ReadyEntry (ScheduledTransaction C) C.Hash)} {presence : SlotPresenceMap}
  {done : List (PendingEntry C)} {tx : VersionedTransaction C}
  {statusMeta : TransactionStatusMeta C} {entry : PendingEntry C}

theorem advanceStep_cases (h : scheduler.advanceStep state = .ok (again,final,events)) :
    (again = false ∧ final = state ∧ events = [] ∧
      (scheduler.slotPresence state state.currentSlot = none ∨
        scheduler.slotPresence state state.currentSlot = some .present ∧
          state.slots.lookup state.currentSlot = none)) ∨
    (scheduler.slotPresence state state.currentSlot = some .missing ∧
      (∀ buffer, state.slots.lookup state.currentSlot = some buffer → buffer.hasAnyData = false) ∧
      again = true ∧ final = passCurrent state ∧ events = [.skip state.currentSlot]) ∨
    (∃ buffer, scheduler.slotPresence state state.currentSlot = some .present ∧
      state.slots.lookup state.currentSlot = some buffer ∧
      drainCurrent state buffer = .ok (again,final,events)) := by
  unfold advanceStep at h
  obtain ⟨_,_,h⟩ := bind_ok h
  unfold isMissing at h
  cases hp : scheduler.slotPresence state state.currentSlot with
  | none =>
    simp only [hp,Option.map_none,Except.ok.injEq,Prod.mk.injEq] at h
    exact .inl ⟨h.1.symm,h.2.1.symm,h.2.2.symm,.inl rfl⟩
  | some presence =>
    cases presence with
    | missing =>
      simp only [hp,Option.map_some,decide_true] at h
      split at h
      · cases h
      case isFalse hdata =>
        simp only [Except.ok.injEq,Prod.mk.injEq] at h
        refine .inr (.inl ⟨rfl,?_,h.1.symm,h.2.1.symm,h.2.2.symm⟩)
        intro buffer hb
        simpa [hb] using hdata
    | present =>
      simp only [hp,Option.map_some,reduceCtorEq,decide_false] at h
      cases hb : state.slots.lookup state.currentSlot with
      | none =>
        simp only [hb,Except.ok.injEq,Prod.mk.injEq] at h
        exact .inl ⟨h.1.symm,h.2.1.symm,h.2.2.symm,.inr ⟨rfl,rfl⟩⟩
      | some buffer =>
        simp only [hb] at h
        exact .inr (.inr ⟨buffer,rfl,rfl,h⟩)

/-- The counts a slot is completed with are declared, or inferred once a later
slot was seen. -/
def CompletedWith (state : SchedulerState C) (drained : SlotExecutionBuffer C)
    (inferredBlocks : Nat → Option (Nat × Nat)) : Prop :=
  inferredBlocks = state.inferredBlocks ∧
    drained.expectedTxCount = some drained.processedTxCount ∧
    drained.expectedEntryCount = some drained.processedEntryCount ∨
  inferredBlocks = Function.update state.inferredBlocks state.currentSlot
      (some (drained.processedTxCount,drained.processedEntryCount)) ∧
    state.currentSlot < state.highestSeenSlot ∧
    drained.expectedTxCount = none ∧ drained.expectedEntryCount = none

/-- Draining the current slot either leaves it open, or completes it with the
expected counts, declared or inferred. -/
theorem drainCurrent_cases (h : drainCurrent state buffer = .ok (again,final,events)) :
    let ready := (buffer.drainReadyEntries state.currentSlot).1
    let drained := (buffer.drainReadyEntries state.currentSlot).2
    (again = false ∧ final = setBuffer state state.currentSlot drained ∧
      events = ready.map .emit ∧ drained.shouldFinalize state.currentSlot = .ok false) ∨
    (again = true ∧ events = ready.map .emit ++ [.finalize state.currentSlot] ∧
      drained.pendingEntries = [] ∧ drained.bufferedTransactionCount = 0 ∧
      ∃ inferredBlocks counted,
        final = passCurrent
          (setBuffer { state with inferredBlocks := inferredBlocks } state.currentSlot counted) ∧
        CompletedWith state drained inferredBlocks) := by
  intro ready drained
  unfold drainCurrent at h
  simp only at h
  have hinfer := drained.inferExpectedCountsIfMissing_cases
  by_cases hseen : state.currentSlot < state.highestSeenSlot
  · rcases hinfer with hnone | ⟨htx,hentry,hpending,hbuffered,hsome⟩
    · simp only [hseen,if_true,drained] at h hnone
      rw [hnone] at h
      obtain ⟨complete,hcomplete,h⟩ := bind_ok h
      cases complete with
      | false =>
        simp only [Bool.false_eq_true,if_false,Except.ok.injEq,Prod.mk.injEq] at h
        exact .inl ⟨h.1.symm,h.2.1.symm,h.2.2.symm,hcomplete⟩
      | true =>
        simp only [if_true,Except.ok.injEq,Prod.mk.injEq] at h
        obtain ⟨htx,hentry,hpending,hbuffered⟩ := shouldFinalize_true hcomplete
        exact .inr ⟨h.1.symm,h.2.2.symm,hpending,hbuffered,_,_,h.2.1.symm,.inl ⟨rfl,htx,hentry⟩⟩
    · simp only [hseen,if_true,drained] at h hsome
      rw [hsome] at h
      obtain ⟨complete,hcomplete,h⟩ := bind_ok h
      cases complete with
      | false =>
        have htrue := shouldFinalize_of_empty state.currentSlot hpending hbuffered
        rw [htrue] at hcomplete
        cases hcomplete
      | true =>
        simp only [if_true,Except.ok.injEq,Prod.mk.injEq] at h
        exact .inr ⟨h.1.symm,h.2.2.symm,hpending,hbuffered,_,_,h.2.1.symm,
          .inr ⟨rfl,hseen,htx,hentry⟩⟩
  · simp only [hseen,if_false] at h
    obtain ⟨complete,hcomplete,h⟩ := bind_ok h
    cases complete with
    | false =>
      simp only [Bool.false_eq_true,if_false,Except.ok.injEq,Prod.mk.injEq] at h
      exact .inl ⟨h.1.symm,h.2.1.symm,h.2.2.symm,hcomplete⟩
    | true =>
      simp only [if_true,Except.ok.injEq,Prod.mk.injEq] at h
      obtain ⟨htx,hentry,hpending,hbuffered⟩ := shouldFinalize_true hcomplete
      exact .inr ⟨h.1.symm,h.2.2.symm,hpending,hbuffered,_,_,h.2.1.symm,.inl ⟨rfl,htx,hentry⟩⟩

theorem drainCurrent_isOk {complete : Bool}
    (h : (buffer.drainReadyEntries state.currentSlot).2.shouldFinalize state.currentSlot =
      .ok complete) :
    ∃ again final events, drainCurrent state buffer = .ok (again,final,events) := by
  have hfinish : ∀ drained : Option (Nat × Nat) × SlotExecutionBuffer C, ∀ complete,
      drained.2.shouldFinalize state.currentSlot = .ok complete →
      (if state.currentSlot < state.highestSeenSlot
        then (buffer.drainReadyEntries state.currentSlot).2.inferExpectedCountsIfMissing
        else (none,(buffer.drainReadyEntries state.currentSlot).2)) = drained →
      ∃ again final events, drainCurrent state buffer = .ok (again,final,events) := by
    intro drained complete hdone hdrained
    unfold drainCurrent
    simp only [hdrained,hdone]
    cases complete with
    | true => exact ⟨true,_,_,rfl⟩
    | false => exact ⟨false,_,_,rfl⟩
  by_cases hseen : state.currentSlot < state.highestSeenSlot
  · rcases inferExpectedCountsIfMissing_cases (buffer.drainReadyEntries state.currentSlot).2 with
      hnone | ⟨_,_,hpending,hbuffered,hsome⟩
    · exact hfinish _ complete h (by rw [if_pos hseen,hnone])
    · exact hfinish _ true (shouldFinalize_of_empty state.currentSlot hpending hbuffered)
        (by rw [if_pos hseen,hsome])
  · exact hfinish _ complete h (by rw [if_neg hseen])

/-- The buffer of an open slot against its deliveries: `done` are the entries
released so far. -/
structure SlotTracks (history : History C) (slot : Nat) (buffer : SlotExecutionBuffer C)
    (done : List (PendingEntry C)) : Prop where
  entries : history.entries slot = done ++ buffer.pendingEntries
  entryCount : buffer.processedEntryCount = done.length
  txCount : buffer.processedTxCount = txSum done
  carries : List.Forall₂ (Carries (history.txs slot) slot) done (history.emitted slot)
  holds : buffer.HoldsFrom (history.txs slot)
  nextEntryIndex : buffer.nextEntryIndex = (history.entries slot).length
  metadata : ∀ tx entry, (slot,tx,entry) ∈ history.metadata →
    buffer.expectedTxCount = some tx ∧ buffer.expectedEntryCount = some entry

/-- A slot left behind: all it received was released, and agrees with its
metadata. -/
structure SlotClosed (history : History C) (slot : Nat) : Prop where
  carries : List.Forall₂ (Carries (history.txs slot) slot) (history.entries slot)
    (history.emitted slot)
  txs : ∀ i tx, history.txs slot i = some tx → i < txSum (history.entries slot)
  metadata : ∀ tx entry, (slot,tx,entry) ∈ history.metadata →
    tx = txSum (history.entries slot) ∧ entry = (history.entries slot).length

/-- An entry may leave once its slot is known to be present and every earlier
present slot was finalized; forced slots count as missing. -/
def EmitAllowed (presence : SlotPresenceMap) (startSlot : Nat)
    (before : List (SchedulerEvent C)) : SchedulerEvent C → Prop
  | .emit entry => presence.state entry.slot = some .present ∧ .forced entry.slot ∉ before ∧
      ∀ slot, startSlot ≤ slot → slot < entry.slot → presence.state slot = some .present →
        .forced slot ∉ before → .finalize slot ∈ before
  | _ => True

/-- The state of the scheduler against everything delivered and done so far. -/
structure Tracks (presence : SlotPresenceMap) (startSlot : Nat) (state : SchedulerState C)
    (history : History C) : Prop where
  current : state.currentSlot = state.lastFinalizedSlot + 1
  start_le : startSlot ≤ state.currentSlot
  opened : ∀ slot, state.currentSlot ≤ slot →
    ∃ done, SlotTracks history slot (bufferAt state slot) done
  ahead : ∀ slot, state.currentSlot < slot → (bufferAt state slot).processedEntryCount = 0
  closed : ∀ slot, slot < state.currentSlot → SlotClosed history slot
  inferred : ∀ slot tx entry, state.inferredBlocks slot = some (tx,entry) →
    slot < state.currentSlot ∧ tx = txSum (history.entries slot) ∧
      entry = (history.entries slot).length
  indices : ∀ slot k (entry : PendingEntry C), (history.entries slot)[k]? = some entry →
    entry.entryIndex = k
  forced : ∀ slot, slot ∈ state.forcedMissing ↔ .forced slot ∈ history.events
  forced_range : ∀ slot, slot ∈ state.forcedMissing → presence.state slot ≠ none
  passed : ∀ slot, startSlot ≤ slot → slot < state.currentSlot →
    presence.state slot = some .present → slot ∉ state.forcedMissing →
    .finalize slot ∈ history.events
  allowed : Justified (EmitAllowed presence startSlot) history.events
  sorted : (emittedEntries history.events).Pairwise fun left right => left.slot ≤ right.slot

theorem tracks_init (presence : SlotPresenceMap) (hstart : 1 ≤ startSlot) :
    Tracks presence startSlot (init startSlot : SchedulerState C) .empty where
  current := by simp only [init]; omega
  start_le := Nat.le_refl _
  opened slot _ := ⟨[],rfl,rfl,rfl,.nil,
    fun i => by simp [bufferAt,init,SlotExecutionBuffer.default,History.empty],
    rfl,by simp [History.empty]⟩
  ahead slot _ := by simp [bufferAt,init,SlotExecutionBuffer.default]
  closed slot _ := ⟨.nil,by simp [History.empty],by simp [History.empty]⟩
  inferred slot tx entry h := by simp [init] at h
  indices slot k entry h := by simp [History.empty] at h
  forced slot := by simp [init,History.empty]
  forced_range slot h := by simp [init] at h
  passed slot hl hu := absurd hu (Nat.not_lt.mpr hl)
  allowed := .nil
  sorted := .nil

theorem mem_emitted {entry : ReadyEntry (ScheduledTransaction C) C.Hash}
    (h : entry ∈ emittedEntries history.events) : entry ∈ history.emitted entry.slot := by
  simp [History.emitted,h]

@[simp] theorem observe_nil (history : History C) : history.observe [] = history := by
  simp [History.observe]

theorem observe_append (history : History C) (left right : List (SchedulerEvent C)) :
    history.observe (left ++ right) = (history.observe left).observe right := by
  simp [History.observe]

theorem emitted_observe (history : History C) (events : List (SchedulerEvent C)) (slot : Nat) :
    (history.observe events).emitted slot =
      history.emitted slot ++ (emittedEntries events).filter fun entry => entry.slot = slot := by
  simp [History.emitted,History.observe]

theorem Drained.slot_eq {f : Nat → Option (ScheduledTransaction C)}
    {final : SlotExecutionBuffer C} {pending released : List (PendingEntry C)}
    (h : Drained slot f buffer pending ready final released) :
    ∀ entry ∈ ready, entry.slot = slot := by
  intro entry hmem
  obtain ⟨k,hk,rfl⟩ := List.getElem_of_mem hmem
  have hlen : k < released.length := by rw [h.carries.length_eq]; exact hk
  exact (h.carries.get hlen hk).slot

theorem Tracks.reached (ht : Tracks presence startSlot state history) :
    ∀ entry ∈ emittedEntries history.events, entry.slot ≤ state.currentSlot := by
  intro entry hmem
  by_contra hlt
  rw [Nat.not_le] at hlt
  obtain ⟨done,hs⟩ := ht.opened entry.slot (Nat.le_of_lt hlt)
  have hnone : done.length = 0 := hs.entryCount.symm.trans (ht.ahead entry.slot hlt)
  have hempty : (history.emitted entry.slot).length = 0 := by
    rw [← hs.carries.length_eq,hnone]
  have hin := mem_emitted hmem
  rw [List.length_eq_zero_iff.mp hempty] at hin
  exact List.not_mem_nil hin

theorem slotPresence_present (h : scheduler.slotPresence state slot = some .present) :
    slot ∉ state.forcedMissing ∧ scheduler.presence.state slot = some .present := by
  unfold slotPresence at h
  split at h
  · cases h
  case isFalse hforced => exact ⟨hforced,h⟩

theorem Tracks.satSucc_current (ht : Tracks scheduler.presence startSlot state history)
    (hp : scheduler.slotPresence state state.currentSlot ≠ none) :
    satSucc state.currentSlot = state.currentSlot + 1 := by
  have hknown : scheduler.presence.state state.currentSlot ≠ none := by
    by_cases hforced : state.currentSlot ∈ state.forcedMissing
    · exact ht.forced_range _ hforced
    · simpa [slotPresence,hforced] using hp
  have hend : state.currentSlot ≤ scheduler.presence.endInclusive := by
    by_contra hlt
    exact hknown (by simp [SlotPresenceMap.state]; omega)
  have hmax := scheduler.presence.bounded
  unfold satSucc
  omega

theorem emitted_observe_other (hnone : ∀ entry ∈ emittedEntries events, entry.slot ≠ slot) :
    (history.observe events).emitted slot = history.emitted slot := by
  rw [emitted_observe,List.filter_eq_nil_iff.mpr (by simpa using hnone),List.append_nil]

theorem SlotTracks.observe (h : SlotTracks history slot buffer done)
    (hnone : ∀ entry ∈ emittedEntries events, entry.slot ≠ slot) :
    SlotTracks (history.observe events) slot buffer done :=
  { h with carries := by rw [emitted_observe_other hnone]; exact h.carries }

theorem SlotClosed.observe
    (h : SlotClosed history slot) (hnone : ∀ entry ∈ emittedEntries events, entry.slot ≠ slot) :
    SlotClosed (history.observe events) slot :=
  { h with carries := by rw [emitted_observe_other hnone]; exact h.carries }

theorem SlotTracks.drained {final : SlotExecutionBuffer C} {released : List (PendingEntry C)}
    (h : SlotTracks history slot buffer done)
    (hd : Drained slot (history.txs slot) buffer buffer.pendingEntries ready final released) :
    SlotTracks (history.observe (ready.map .emit)) slot final (done ++ released) where
  entries := by
    rw [List.append_assoc,← hd.split]
    exact h.entries
  entryCount := by rw [hd.entryCount,h.entryCount,List.length_append]
  txCount := by rw [hd.txCount,h.txCount,txSum_append]
  carries := by
    have hall : ready.filter (fun entry => entry.slot = slot) = ready :=
      List.filter_eq_self.mpr (by simpa using Drained.slot_eq hd)
    rw [emitted_observe,emittedEntries_emit,hall]
    exact List.rel_append h.carries hd.carries
  holds := hd.holds
  nextEntryIndex := hd.nextEntryIndex.trans h.nextEntryIndex
  metadata tx entry hmem := by
    rw [hd.expectedTxCount,hd.expectedEntryCount]
    exact h.metadata tx entry hmem

theorem SlotTracks.close (h : SlotTracks history slot buffer done)
    (hpending : buffer.pendingEntries = []) (hbuffered : buffer.bufferedTransactionCount = 0)
    (hcounts : ∀ tx entry, buffer.expectedTxCount = some tx →
      buffer.expectedEntryCount = some entry →
      tx = buffer.processedTxCount ∧ entry = buffer.processedEntryCount) :
    history.entries slot = done ∧ SlotClosed history slot := by
  have hdone : history.entries slot = done := by rw [h.entries,hpending,List.append_nil]
  refine ⟨hdone,?_,?_,?_⟩
  · rw [hdone]
    exact h.carries
  · intro i tx htx
    by_contra hge
    have hcell := h.holds i
    rw [not_isSome_of_buffered_zero hbuffered,h.txCount,← hdone,if_neg hge,htx] at hcell
    cases hcell
  · intro tx entry hmem
    obtain ⟨htx,hentry⟩ := h.metadata tx entry hmem
    obtain ⟨rfl,rfl⟩ := hcounts tx entry htx hentry
    rw [h.txCount,h.entryCount,hdone]
    exact ⟨rfl,rfl⟩

section Steps

variable {scheduler : TransactionScheduler} {startSlot : Nat} {state : SchedulerState C}
  {history : History C}

theorem bufferAt_of_lookup
    (h : state.slots.lookup slot = some buffer) : bufferAt state slot = buffer := by
  simp [bufferAt,h]

theorem Tracks.emit_allowed (ht : Tracks scheduler.presence startSlot state history)
    (hp : scheduler.slotPresence state state.currentSlot = some .present)
    (hslot : ∀ entry ∈ ready, entry.slot = state.currentSlot) :
    Justified (EmitAllowed scheduler.presence startSlot)
      (history.events ++ ready.map .emit) := by
  obtain ⟨hforced,hpresent⟩ := slotPresence_present hp
  refine ht.allowed.append fun before event after heq => ?_
  -- No event of the new part forces a slot.
  have hemits : ∀ slot, .forced slot ∉ before := by
    intro slot hmem
    have hall : .forced slot ∈ ready.map (SchedulerEvent.emit (C := C)) := by
      rw [heq]
      exact List.mem_append_left _ hmem
    simp at hall
  have hevent : event ∈ ready.map (SchedulerEvent.emit (C := C)) := by simp [heq]
  obtain ⟨entry,hentry,rfl⟩ := List.mem_map.mp hevent
  simp only [EmitAllowed,hslot entry hentry,List.mem_append,not_or]
  refine ⟨hpresent,⟨fun h => hforced ((ht.forced _).mpr h),hemits _⟩,?_⟩
  intro slot hl hu hstate hnot
  exact .inl (ht.passed slot hl hu hstate fun h => hnot.1 ((ht.forced slot).mp h))

theorem Tracks.drain (ht : Tracks scheduler.presence startSlot state history)
    (hc : ∀ slot, Contiguous (history.entries slot))
    (hp : scheduler.slotPresence state state.currentSlot = some .present)
    (hb : state.slots.lookup state.currentSlot = some buffer) :
    Tracks scheduler.presence startSlot
      (setBuffer state state.currentSlot (buffer.drainReadyEntries state.currentSlot).2)
      (history.observe ((buffer.drainReadyEntries state.currentSlot).1.map .emit)) := by
  obtain ⟨done,hs⟩ := ht.opened state.currentSlot (Nat.le_refl _)
  rw [bufferAt_of_lookup hb] at hs
  have hcontiguous := hc state.currentSlot
  rw [hs.entries] at hcontiguous
  obtain ⟨released,hd⟩ := drainPending_drained state.currentSlot buffer hcontiguous
    hs.txCount hs.holds
  have hslot := Drained.slot_eq hd
  have hother : ∀ slot, slot ≠ state.currentSlot →
      ∀ entry ∈ emittedEntries ((buffer.drainReadyEntries state.currentSlot).1.map .emit),
        entry.slot ≠ slot := by
    intro slot hne entry hmem
    rw [emittedEntries_emit] at hmem
    rw [hslot entry hmem]
    exact hne.symm
  exact
    { ht with
      opened := by
        intro slot hle
        rw [bufferAt_setBuffer]
        by_cases hcur : slot = state.currentSlot
        · rw [if_pos hcur,hcur]
          exact ⟨_,hs.drained hd⟩
        · rw [if_neg hcur]
          obtain ⟨others,ho⟩ := ht.opened slot hle
          exact ⟨others,ho.observe (hother slot hcur)⟩
      ahead := by
        intro slot hlt
        rw [setBuffer_currentSlot] at hlt
        rw [bufferAt_setBuffer,if_neg (Nat.ne_of_gt hlt)]
        exact ht.ahead slot hlt
      closed := by
        intro slot hlt
        exact (ht.closed slot hlt).observe (hother slot (Nat.ne_of_lt hlt))
      forced := by
        intro slot
        simpa [History.observe] using ht.forced slot
      passed := by
        intro slot hl hu hstate hnot
        exact List.mem_append_left _ (ht.passed slot hl hu hstate hnot)
      allowed := ht.emit_allowed hp hslot
      sorted := by
        simp only [History.observe,emittedEntries_append,emittedEntries_emit]
        refine List.pairwise_append.mpr ⟨ht.sorted,?_,?_⟩
        · refine List.pairwise_of_forall_mem_list fun left hl right hr => ?_
          rw [hslot left hl,hslot right hr]
        · intro left hl right hr
          rw [hslot right hr]
          exact ht.reached left hl }

theorem Justified.snoc_other
    (h : Justified (EmitAllowed presence startSlot) events) {event : SchedulerEvent C}
    (hevent : event.entry = none) :
    Justified (EmitAllowed presence startSlot) (events ++ [event]) := by
  refine h.snoc ?_
  cases event with
  | emit entry => cases hevent
  | finalize | skip | forced => trivial

section

variable (ht : Tracks scheduler.presence startSlot state history)
include ht

theorem Tracks.pass {event : SchedulerEvent C}
    (hclosed : SlotClosed history state.currentSlot)
    (hcurrent : final.currentSlot = state.currentSlot + 1)
    (hlast : final.lastFinalizedSlot = state.currentSlot)
    (hforced : final.forcedMissing = state.forcedMissing)
    (hbuffers : ∀ slot, slot ≠ state.currentSlot → bufferAt final slot = bufferAt state slot)
    (hinferred : ∀ slot counts, final.inferredBlocks slot = some counts →
      state.inferredBlocks slot = some counts ∨ slot = state.currentSlot ∧
        counts = (txSum (history.entries slot),(history.entries slot).length))
    (hevent : event = .finalize state.currentSlot ∨ event = .skip state.currentSlot ∧
      scheduler.slotPresence state state.currentSlot = some .missing) :
    Tracks scheduler.presence startSlot final (history.observe [event]) := by
  have hentry : event.entry = none := by
    rcases hevent with rfl | ⟨rfl,_⟩ <;> rfl
  have hnone : emittedEntries [event] = [] := by simp [emittedEntries,hentry]
  have hno : ∀ slot, ∀ entry ∈ emittedEntries [event], entry.slot ≠ slot := by simp [hnone]
  exact
    { current := by rw [hcurrent,hlast]
      start_le := by rw [hcurrent]; exact Nat.le_succ_of_le ht.start_le
      opened := by
        intro slot hle
        rw [hcurrent] at hle
        obtain ⟨done,hs⟩ := ht.opened slot (by omega)
        rw [hbuffers slot (by omega)]
        exact ⟨done,hs.observe (hno slot)⟩
      ahead := by
        intro slot hlt
        rw [hcurrent] at hlt
        rw [hbuffers slot (by omega)]
        exact ht.ahead slot (by omega)
      closed := by
        intro slot hlt
        by_cases hcur : slot = state.currentSlot
        · rw [hcur]
          exact hclosed.observe (hno _)
        · exact (ht.closed slot (by omega)).observe (hno slot)
      inferred := by
        intro slot tx entry hsome
        rw [hcurrent]
        rcases hinferred slot _ hsome with hold | ⟨rfl,hcounts⟩
        · obtain ⟨hlt,hcounts⟩ := ht.inferred slot tx entry hold
          exact ⟨by omega,hcounts⟩
        · exact ⟨by omega,congrArg Prod.fst hcounts,congrArg Prod.snd hcounts⟩
      indices := ht.indices
      forced := by
        intro slot
        rw [hforced,ht.forced slot]
        rcases hevent with rfl | ⟨rfl,_⟩ <;> simp [History.observe]
      forced_range := by
        rw [hforced]
        exact ht.forced_range
      passed := by
        intro slot hl hu hstate hnot
        rw [hforced] at hnot
        by_cases hcur : slot = state.currentSlot
        · subst hcur
          rcases hevent with rfl | ⟨_,hmissing⟩
          · simp [History.observe]
          · simp [slotPresence,hnot,hstate] at hmissing
        · exact List.mem_append_left _ (ht.passed slot hl (by omega) hstate hnot)
      allowed := Justified.snoc_other ht.allowed hentry
      sorted := by
        simp only [History.observe,emittedEntries_append,hnone,List.append_nil]
        exact ht.sorted }

theorem Tracks.skip
    (hp : scheduler.slotPresence state state.currentSlot = some .missing)
    (hdata : ∀ buffer, state.slots.lookup state.currentSlot = some buffer →
      buffer.hasAnyData = false) :
    Tracks scheduler.presence startSlot (passCurrent state)
      (history.observe [.skip state.currentSlot]) := by
  have hempty : (bufferAt state state.currentSlot).hasAnyData = false := by
    cases hb : state.slots.lookup state.currentSlot with
    | none => simp [bufferAt,hb,SlotExecutionBuffer.default,hasAnyData]
    | some buffer => simpa [bufferAt,hb] using hdata buffer hb
  obtain ⟨htx,_,hpending,hbuffered,_⟩ := hasAnyData_false hempty
  obtain ⟨done,hs⟩ := ht.opened state.currentSlot (Nat.le_refl _)
  have hclosed := (hs.close hpending hbuffered (by simp [htx])).2
  exact ht.pass hclosed (ht.satSucc_current (by simp [hp])) rfl rfl
    (fun slot hne => bufferAt_passCurrent state hne) (fun slot counts h => .inl h)
    (.inr ⟨rfl,hp⟩)

theorem Tracks.drainCurrent
    (hc : ∀ slot, Contiguous (history.entries slot))
    (hp : scheduler.slotPresence state state.currentSlot = some .present)
    (hb : state.slots.lookup state.currentSlot = some buffer)
    (h : TransactionScheduler.drainCurrent state buffer = .ok (again,final,events)) :
    Tracks scheduler.presence startSlot final (history.observe events) := by
  have hdrain := ht.drain hc hp hb
  rcases drainCurrent_cases h with
    ⟨_,rfl,rfl,_⟩ | ⟨_,rfl,hpending,hbuffered,inferredBlocks,counted,rfl,hcounts⟩
  · exact hdrain
  · rw [observe_append]
    obtain ⟨done,hs⟩ := hdrain.opened state.currentSlot (Nat.le_refl _)
    rw [bufferAt_setBuffer,if_pos rfl] at hs
    have hcomplete := hs.close hpending hbuffered (by
      rcases hcounts with ⟨_,htx,hentry⟩ | ⟨_,_,htx,_⟩
      · simp only [htx,hentry,Option.some.injEq]
        exact fun _ _ h1 h2 => ⟨h1.symm,h2.symm⟩
      · simp [htx])
    refine hdrain.pass hcomplete.2 (ht.satSucc_current (by simp [hp])) rfl rfl ?_ ?_ (.inl rfl)
    · intro slot hne
      rw [setBuffer_currentSlot] at hne
      rw [bufferAt_passCurrent,bufferAt_setBuffer,bufferAt_setBuffer,if_neg hne,if_neg hne]
      · rfl
      · exact hne
    · intro slot counts hsome
      change inferredBlocks slot = some counts at hsome
      rcases hcounts with ⟨rfl,_⟩ | ⟨rfl,_⟩
      · exact .inl hsome
      · by_cases hcur : slot = state.currentSlot
        · subst hcur
          rw [Function.update_self,Option.some.injEq] at hsome
          rw [hs.txCount,hs.entryCount,← hcomplete.1] at hsome
          exact .inr ⟨rfl,hsome.symm⟩
        · rw [Function.update_of_ne hcur] at hsome
          exact .inl hsome

theorem Tracks.advanceStep
    (hc : ∀ slot, Contiguous (history.entries slot))
    (h : scheduler.advanceStep state = .ok (again,final,events)) :
    Tracks scheduler.presence startSlot final (history.observe events) := by
  rcases advanceStep_cases h with ⟨_,rfl,rfl,_⟩ | ⟨hp,hdata,_,rfl,rfl⟩ | ⟨buffer,hp,hb,hdrain⟩
  · rw [observe_nil]
    exact ht
  · exact ht.skip hp hdata
  · exact ht.drainCurrent hc hp hb hdrain

end

end Steps

theorem Tracks.advanceLoop {fuel : Nat} (ht : Tracks scheduler.presence startSlot state history)
    (hc : ∀ slot, Contiguous (history.entries slot))
    (h : scheduler.advanceLoop fuel state = .ok (final,events)) :
    Tracks scheduler.presence startSlot final (history.observe events) := by
  induction fuel generalizing state history events with
  | zero => cases h
  | succ fuel ih =>
    obtain ⟨⟨again,next,first⟩,hstep,h⟩ := bind_ok h
    have hnext := ht.advanceStep hc hstep
    cases again with
    | false =>
      simp only [Bool.false_eq_true,if_false] at h
      cases h
      exact hnext
    | true =>
      simp only [if_true] at h
      obtain ⟨⟨last,following⟩,hloop,h⟩ := bind_ok h
      cases h
      rw [observe_append]
      exact ih hnext hc hloop

/-- A delivery to one slot: nothing is done yet, and other slots keep their data. -/
structure DeliveredAt (slot : Nat) (history next : History C) : Prop where
  events : next.events = history.events
  entries : ∀ other, other ≠ slot → next.entries other = history.entries other
  txs : ∀ other, other ≠ slot → next.txs other = history.txs other
  metadata : ∀ other tx entry, other ≠ slot → (other,tx,entry) ∈ next.metadata →
    (other,tx,entry) ∈ history.metadata

theorem deliver_at (history : History C) (inserted : Bool) (call : SchedulerCall C) :
    DeliveredAt call.slot history (history.deliver inserted call) := by
  cases call with
  | insertTransaction slot index tx statusMeta =>
    cases inserted with
    | false => exact ⟨rfl,fun _ _ => rfl,fun _ _ => rfl,fun _ _ _ _ h => h⟩
    | true =>
      exact ⟨rfl,fun _ _ => rfl,fun _ hne => Function.update_of_ne hne _ _,fun _ _ _ _ h => h⟩
  | pushEntry slot entry =>
    cases inserted with
    | false => exact ⟨rfl,fun _ _ => rfl,fun _ _ => rfl,fun _ _ _ _ h => h⟩
    | true =>
      exact ⟨rfl,fun _ hne => Function.update_of_ne hne _ _,fun _ _ => rfl,fun _ _ _ _ h => h⟩
  | recordBlockMetadata slot expectedTx expectedEntry =>
    refine ⟨rfl,fun _ _ => rfl,fun _ _ => rfl,?_⟩
    intro other tx entry hne hmem
    simp only [History.deliver,List.mem_append,List.mem_singleton,Prod.mk.injEq] at hmem
    exact hmem.resolve_right fun h => hne h.1
  | forceMarkMissing slot => exact ⟨rfl,fun _ _ => rfl,fun _ _ => rfl,fun _ _ _ _ h => h⟩

section Deliveries

variable {slot : Nat} {history next : History C}

theorem DeliveredAt.emitted (hd : DeliveredAt slot history next) (other : Nat) :
    next.emitted other = history.emitted other := by
  simp only [History.emitted,hd.events]

theorem SlotTracks.elsewhere {other : Nat} (h : SlotTracks history other buffer done)
    (hd : DeliveredAt slot history next) (hne : other ≠ slot) :
    SlotTracks next other buffer done where
  entries := by rw [hd.entries other hne]; exact h.entries
  entryCount := h.entryCount
  txCount := h.txCount
  carries := by rw [hd.txs other hne,hd.emitted]; exact h.carries
  holds := by rw [hd.txs other hne]; exact h.holds
  nextEntryIndex := by rw [hd.entries other hne]; exact h.nextEntryIndex
  metadata tx entry hmem := h.metadata tx entry (hd.metadata other tx entry hne hmem)

theorem SlotClosed.elsewhere {other : Nat} (h : SlotClosed history other)
    (hd : DeliveredAt slot history next) (hne : other ≠ slot) : SlotClosed next other where
  carries := by rw [hd.txs other hne,hd.entries other hne,hd.emitted]; exact h.carries
  txs := by rw [hd.txs other hne,hd.entries other hne]; exact h.txs
  metadata tx entry hmem := by
    rw [hd.entries other hne]
    exact h.metadata tx entry (hd.metadata other tx entry hne hmem)

theorem Tracks.deliver
    (ht : Tracks presence startSlot state history) (hd : DeliveredAt slot history next)
    (hslot : state.currentSlot ≤ slot) {inferredBlocks : Nat → Option (Nat × Nat)}
    (hinferred : ∀ other counts, inferredBlocks other = some counts →
      state.inferredBlocks other = some counts)
    (hbuffer : ∃ done, SlotTracks next slot buffer done)
    (hcount : buffer.processedEntryCount = (bufferAt state slot).processedEntryCount)
    (hindices : ∀ k (entry : PendingEntry C), (next.entries slot)[k]? = some entry →
      entry.entryIndex = k) (highest : Nat) :
    Tracks presence startSlot
      (setBuffer { state with inferredBlocks := inferredBlocks, highestSeenSlot := highest }
        slot buffer) next where
  current := ht.current
  start_le := ht.start_le
  opened := by
    intro other hle
    rw [bufferAt_setBuffer]
    by_cases hsame : other = slot
    · rw [if_pos hsame,hsame]
      exact hbuffer
    · rw [if_neg hsame]
      obtain ⟨done,hs⟩ := ht.opened other hle
      exact ⟨done,hs.elsewhere hd hsame⟩
  ahead := by
    intro other hlt
    rw [bufferAt_setBuffer]
    by_cases hsame : other = slot
    · rw [if_pos hsame,hcount,← hsame]
      exact ht.ahead other hlt
    · rw [if_neg hsame]
      exact ht.ahead other hlt
  closed := by
    intro other hlt
    change other < state.currentSlot at hlt
    exact (ht.closed other hlt).elsewhere hd (by omega)
  inferred := by
    intro other tx entry hsome
    obtain ⟨hlt,hcounts⟩ := ht.inferred other tx entry (hinferred other _ hsome)
    rw [hd.entries other (by omega)]
    exact ⟨hlt,hcounts⟩
  indices := by
    intro other k entry hk
    by_cases hsame : other = slot
    · subst hsame
      exact hindices k entry hk
    · rw [hd.entries other hsame] at hk
      exact ht.indices other k entry hk
  forced := by rw [hd.events]; exact ht.forced
  forced_range := ht.forced_range
  passed := by rw [hd.events]; exact ht.passed
  allowed := by rw [hd.events]; exact ht.allowed
  sorted := by rw [hd.events]; exact ht.sorted

section

variable (h : SlotTracks history slot buffer done)
include h

theorem SlotTracks.insertTransaction [DecidableEq C.Sig] [DecidableEq C.Status]
    {final : SlotExecutionBuffer C} {index : Nat}
    {tx : VersionedTransaction C} {statusMeta : TransactionStatusMeta C} {inserted : Bool}
    (hi : buffer.insertTransaction index tx statusMeta = .ok (inserted,final)) :
    SlotTracks (history.deliver inserted (.insertTransaction slot index tx statusMeta)) slot
      final done := by
  obtain ⟨hfinal,hcases⟩ := insertTransaction_cases h.holds hi
  rcases hcases with ⟨rfl,_,hholds⟩ | ⟨rfl,_,hnone,hholds⟩
  · rw [hfinal]
    exact ⟨h.entries,h.entryCount,h.txCount,h.carries,hfinal ▸ hholds,h.nextEntryIndex,h.metadata⟩
  · have hextends : ∀ i value, history.txs slot i = some value →
        Function.update (history.txs slot) index (some ⟨tx,statusMeta.status,statusMeta⟩) i =
          some value := by
      intro i value hvalue
      have hne : i ≠ index := by
        intro heq
        rw [heq,hnone] at hvalue
        cases hvalue
      rw [Function.update_of_ne hne]
      exact hvalue
    rw [hfinal]
    refine ⟨h.entries,h.entryCount,h.txCount,?_,?_,h.nextEntryIndex,h.metadata⟩
    · simp only [History.deliver,if_true,Function.update_self]
      exact h.carries.imp fun _ _ hcarry => hcarry.mono hextends
    · simp only [History.deliver,if_true,Function.update_self]
      exact hfinal ▸ hholds

theorem SlotTracks.pushEntry {final : SlotExecutionBuffer C} {entry : PendingEntry C}
    {inserted : Bool} (hp : buffer.pushEntry entry = .ok (inserted,final)) :
    SlotTracks (history.deliver inserted (.pushEntry slot entry)) slot final done := by
  rcases pushEntry_cases hp with ⟨rfl,_,rfl⟩ | ⟨rfl,_,rfl⟩
  · exact h
  · refine ⟨?_,h.entryCount,h.txCount,h.carries,h.holds,?_,h.metadata⟩
    · simp only [History.deliver,if_true,Function.update_self]
      rw [h.entries,List.append_assoc]
    · simp only [History.deliver,if_true,Function.update_self,List.length_append,
        List.length_singleton]
      rw [h.nextEntryIndex]

theorem SlotTracks.setExpectedCounts {final : SlotExecutionBuffer C}
    {expectedTx expectedEntry : Nat}
    (hs : buffer.setExpectedCounts expectedTx expectedEntry = .ok final) :
    SlotTracks (history.deliver true (.recordBlockMetadata slot expectedTx expectedEntry)) slot
      final done := by
  obtain ⟨rfl,hsame⟩ := setExpectedCounts_cases hs
  refine ⟨h.entries,h.entryCount,h.txCount,h.carries,h.holds,h.nextEntryIndex,?_⟩
  intro tx entry hmem
  simp only [History.deliver,List.mem_append,List.mem_singleton,Prod.mk.injEq,true_and] at hmem
  rcases hmem with hold | ⟨rfl,rfl⟩
  · obtain ⟨htx,hentry⟩ := h.metadata tx entry hold
    obtain ⟨rfl,rfl⟩ := hsame tx entry htx hentry
    exact ⟨rfl,rfl⟩
  · exact ⟨rfl,rfl⟩

end

end Deliveries

theorem insertTransaction_ok [DecidableEq C.Sig] [DecidableEq C.Status]
    (h : scheduler.insertTransaction .none state slot index tx statusMeta =
      .ok (final,events,inserted)) :
    state.lastFinalizedSlot < slot ∧ ∃ buffer,
      (bufferAt state slot).insertTransaction index tx statusMeta = .ok (inserted,buffer) ∧
      scheduler.advanceReady (setBuffer (seen state slot) slot buffer) = .ok (final,events) := by
  unfold TransactionScheduler.insertTransaction at h
  by_cases hlate : slot ≤ state.lastFinalizedSlot
  · simp [applySignal,hlate] at h
  · simp only [applySignal,hlate,if_false] at h
    obtain ⟨⟨new,buffer⟩,hinsert,h⟩ := bind_ok h
    obtain ⟨⟨last,released⟩,hloop,h⟩ := bind_ok h
    cases h
    exact ⟨Nat.not_le.mp hlate,buffer,hinsert,hloop⟩

section

variable (hopen : state.lastFinalizedSlot < slot)
include hopen

theorem insertTransaction_of_ok [DecidableEq C.Sig] [DecidableEq C.Status]
    (hinsert : (bufferAt state slot).insertTransaction index tx statusMeta =
      .ok (inserted,buffer))
    (hloop : scheduler.advanceReady (setBuffer (seen state slot) slot buffer) =
      .ok (final,events)) :
    scheduler.insertTransaction .none state slot index tx statusMeta =
      .ok (final,events,inserted) := by
  have hseen : bufferAt (seen state slot) slot = bufferAt state slot := rfl
  simp only [TransactionScheduler.insertTransaction,applySignal,Nat.not_le.mpr hopen,if_false,
    hseen,hinsert,ok_bind,hloop]

theorem pushEntry_of_ok
    (hpush : (bufferAt state slot).pushEntry entry = .ok (inserted,buffer))
    (hloop : scheduler.advanceReady (setBuffer (seen state slot) slot buffer) =
      .ok (final,events)) :
    scheduler.pushEntry .none state slot entry = .ok (final,events,inserted) := by
  have hseen : bufferAt (seen state slot) slot = bufferAt state slot := rfl
  simp only [TransactionScheduler.pushEntry,applySignal,Nat.not_le.mpr hopen,if_false,
    hseen,hpush,ok_bind,hloop]

theorem recordBlockMetadata_of_ok (hinferred : state.inferredBlocks slot = none)
    (hset : (bufferAt state slot).setExpectedCounts expectedTx expectedEntry = .ok buffer)
    (hloop : scheduler.advanceReady (setBuffer { seen state slot with
      inferredBlocks := Function.update state.inferredBlocks slot none } slot buffer) =
        .ok (final,events)) :
    scheduler.recordBlockMetadata state slot expectedTx expectedEntry = .ok (final,events) := by
  have hcheck : checkInferred (seen state slot) slot expectedTx expectedEntry = .ok () := by
    simp [checkInferred,seen,hinferred]
  have hbuffer : bufferAt { seen state slot with
      inferredBlocks := Function.update (seen state slot).inferredBlocks slot none } slot =
        bufferAt state slot := rfl
  simp only [TransactionScheduler.recordBlockMetadata,Nat.not_le.mpr hopen,if_false,hcheck,ok_bind,
    hbuffer,hset]
  exact hloop

end

theorem pushEntry_ok
    (h : scheduler.pushEntry .none state slot entry = .ok (final,events,inserted)) :
    state.lastFinalizedSlot < slot ∧ ∃ buffer,
      (bufferAt state slot).pushEntry entry = .ok (inserted,buffer) ∧
      scheduler.advanceReady (setBuffer (seen state slot) slot buffer) = .ok (final,events) := by
  unfold TransactionScheduler.pushEntry at h
  by_cases hlate : slot ≤ state.lastFinalizedSlot
  · simp [applySignal,hlate] at h
  · simp only [applySignal,hlate,if_false] at h
    obtain ⟨⟨new,buffer⟩,hpush,h⟩ := bind_ok h
    obtain ⟨⟨last,released⟩,hloop,h⟩ := bind_ok h
    cases h
    exact ⟨Nat.not_le.mp hlate,buffer,hpush,hloop⟩

section Calls

variable {scheduler : TransactionScheduler} {startSlot : Nat} {state final : SchedulerState C}
  {history : History C} {slot : Nat} {events : List (SchedulerEvent C)} {inserted : Bool}

section

variable (ht : Tracks scheduler.presence startSlot state history)
include ht

theorem Tracks.stored [DecidableEq C.Sig] [DecidableEq C.Status]
    (hslot : state.currentSlot ≤ slot)
    (hinsert : (bufferAt state slot).insertTransaction index tx statusMeta =
      .ok (inserted,buffer)) :
    Tracks scheduler.presence startSlot (setBuffer (seen state slot) slot buffer)
      (history.deliver inserted (.insertTransaction slot index tx statusMeta)) := by
  obtain ⟨done,hs⟩ := ht.opened slot hslot
  have hfinal := (insertTransaction_cases hs.holds hinsert).1
  have hdeliver : DeliveredAt slot history _ :=
    deliver_at history inserted (.insertTransaction slot index tx statusMeta)
  have hentries : (history.deliver inserted (.insertTransaction slot index tx statusMeta)).entries =
      history.entries := by cases inserted <;> rfl
  refine ht.deliver hdeliver hslot (fun _ _ h => h) ⟨done,hs.insertTransaction hinsert⟩
    (by rw [hfinal]) ?_ _
  rw [hentries]
  exact ht.indices slot

theorem Tracks.pushed (hslot : state.currentSlot ≤ slot)
    (hpush : (bufferAt state slot).pushEntry entry = .ok (inserted,buffer)) :
    Tracks scheduler.presence startSlot (setBuffer (seen state slot) slot buffer)
      (history.deliver inserted (.pushEntry slot entry)) := by
  obtain ⟨done,hs⟩ := ht.opened slot hslot
  have hdeliver : DeliveredAt slot history _ := deliver_at history inserted (.pushEntry slot entry)
  refine ht.deliver hdeliver hslot (fun _ _ h => h) ⟨done,hs.pushEntry hpush⟩ ?_ ?_ _
  · rcases pushEntry_cases hpush with ⟨_,_,rfl⟩ | ⟨_,_,rfl⟩ <;> rfl
  · intro k pushed hk
    rcases pushEntry_cases hpush with ⟨rfl,_,_⟩ | ⟨rfl,hindex,_⟩
    · exact ht.indices slot k pushed hk
    · simp only [History.deliver,if_true,Function.update_self] at hk
      by_cases hlt : k < (history.entries slot).length
      · rw [List.getElem?_append_left hlt] at hk
        exact ht.indices slot k pushed hk
      · rw [List.getElem?_append_right (Nat.not_lt.mp hlt),List.getElem?_singleton] at hk
        split at hk
        case isTrue hzero =>
          obtain rfl := Option.some.inj hk
          have hnext := hs.nextEntryIndex
          omega
        case isFalse => cases hk

theorem Tracks.declared (hslot : state.currentSlot ≤ slot)
    (hset : (bufferAt state slot).setExpectedCounts expectedTx expectedEntry = .ok buffer) :
    Tracks scheduler.presence startSlot
      (setBuffer { seen state slot with
        inferredBlocks := Function.update state.inferredBlocks slot none } slot buffer)
      (history.deliver true (.recordBlockMetadata slot expectedTx expectedEntry)) := by
  obtain ⟨done,hs⟩ := ht.opened slot hslot
  have hfinal := (setExpectedCounts_cases hset).1
  have hdeliver : DeliveredAt slot history _ :=
    deliver_at history true (.recordBlockMetadata slot expectedTx expectedEntry)
  refine ht.deliver hdeliver hslot ?_ ⟨done,hs.setExpectedCounts hset⟩ (by rw [hfinal])
    (ht.indices slot) _
  intro other counts hcounts
  by_cases hne : other = slot
  · subst hne
    simp at hcounts
  · simpa [Function.update_of_ne hne] using hcounts

theorem Tracks.insertTransaction [DecidableEq C.Sig] [DecidableEq C.Status]
    (hc : ∀ other, Contiguous ((history.deliver inserted
      (.insertTransaction slot index tx statusMeta)).entries other))
    (h : scheduler.insertTransaction .none state slot index tx statusMeta =
      .ok (final,events,inserted)) :
    Tracks scheduler.presence startSlot final
      ((history.deliver inserted (.insertTransaction slot index tx statusMeta)).observe
        events) := by
  obtain ⟨hopen,buffer,hinsert,hloop⟩ := insertTransaction_ok h
  exact (ht.stored (ht.current ▸ hopen) hinsert).advanceLoop hc hloop

theorem Tracks.pushEntry
    (hc : ∀ other, Contiguous ((history.deliver inserted (.pushEntry slot entry)).entries other))
    (h : scheduler.pushEntry .none state slot entry = .ok (final,events,inserted)) :
    Tracks scheduler.presence startSlot final
      ((history.deliver inserted (.pushEntry slot entry)).observe events) := by
  obtain ⟨hopen,buffer,hpush,hloop⟩ := pushEntry_ok h
  exact (ht.pushed (ht.current ▸ hopen) hpush).advanceLoop hc hloop

theorem Tracks.lateMetadata (hlate : slot < state.currentSlot)
    (h : TransactionScheduler.lateMetadata state slot expectedTx expectedEntry =
      .ok (final,events)) :
    Tracks scheduler.presence startSlot final
      ((history.deliver true (.recordBlockMetadata slot expectedTx expectedEntry)).observe
        events) := by
  unfold TransactionScheduler.lateMetadata at h
  split at h
  case h_2 => cases h
  case h_1 inferredTx inferredEntry hsome =>
    split at h
    case isFalse => cases h
    case isTrue hsame =>
      obtain ⟨rfl,rfl⟩ := hsame
      cases h
      obtain ⟨_,htx,hentry⟩ := ht.inferred slot inferredTx inferredEntry hsome
      have hd := deliver_at history true (.recordBlockMetadata slot inferredTx inferredEntry)
      rw [observe_nil]
      exact
        { ht with
          opened := by
            intro other hle
            obtain ⟨done,hs⟩ := ht.opened other hle
            exact ⟨done,hs.elsewhere hd (Nat.ne_of_gt (Nat.lt_of_lt_of_le hlate hle))⟩
          closed := by
            intro other hlt
            have hold := ht.closed other hlt
            refine ⟨hold.carries,hold.txs,?_⟩
            intro tx entry hmem
            simp only [History.deliver,List.mem_append,List.mem_singleton,Prod.mk.injEq] at hmem
            rcases hmem with hmem | ⟨rfl,rfl,rfl⟩
            · exact hold.metadata tx entry hmem
            · exact ⟨htx,hentry⟩
          inferred := by
            intro other tx entry hcounts
            refine ht.inferred other tx entry ?_
            by_cases hne : other = slot
            · subst hne
              simp at hcounts
            · simpa [Function.update_of_ne hne] using hcounts }

theorem Tracks.recordBlockMetadata
    (hc : ∀ other, Contiguous (history.entries other))
    (h : scheduler.recordBlockMetadata state slot expectedTx expectedEntry = .ok (final,events)) :
    Tracks scheduler.presence startSlot final
      ((history.deliver true (.recordBlockMetadata slot expectedTx expectedEntry)).observe
        events) := by
  unfold TransactionScheduler.recordBlockMetadata at h
  split at h
  case isTrue hlate => exact ht.lateMetadata (by rw [ht.current]; omega) h
  case isFalse hlate =>
    simp only at h
    obtain ⟨_,_,h⟩ := bind_ok h
    obtain ⟨buffer,hset,hloop⟩ := bind_ok h
    exact (ht.declared (ht.current ▸ Nat.not_le.mp hlate) hset).advanceLoop hc hloop

end

theorem forceMarkMissing_ok (h : scheduler.forceMarkMissing state slot = .ok (final,events)) :
    scheduler.presence.state slot ≠ none ∧ ∃ released, events = .forced slot :: released ∧
      scheduler.advanceReady { state with forcedMissing := insert slot state.forcedMissing } =
        .ok (final,released) := by
  unfold TransactionScheduler.forceMarkMissing at h
  split at h
  · cases h
  case isFalse hknown =>
    split at h
    · cases h
    · obtain ⟨⟨last,released⟩,hloop,h⟩ := bind_ok h
      cases h
      exact ⟨hknown,released,rfl,hloop⟩

theorem Tracks.force (ht : Tracks scheduler.presence startSlot state history)
    (hknown : scheduler.presence.state slot ≠ none) :
    Tracks scheduler.presence startSlot
      { state with forcedMissing := insert slot state.forcedMissing }
      (history.observe [.forced slot]) where
  current := ht.current
  start_le := ht.start_le
  opened other hle := by
    obtain ⟨done,hs⟩ := ht.opened other hle
    exact ⟨done,hs.observe (by simp)⟩
  ahead := ht.ahead
  closed other hlt := (ht.closed other hlt).observe (by simp)
  inferred := ht.inferred
  indices := ht.indices
  forced other := by
    simp only [History.observe,Finset.mem_insert,List.mem_append,List.mem_singleton,
      SchedulerEvent.forced.injEq,ht.forced other]
    exact or_comm
  forced_range other hmem := by
    rw [Finset.mem_insert] at hmem
    rcases hmem with rfl | hmem
    · exact hknown
    · exact ht.forced_range other hmem
  passed other hl hu hstate hnot := by
    rw [Finset.mem_insert,not_or] at hnot
    exact List.mem_append_left _ (ht.passed other hl hu hstate hnot.2)
  allowed := Justified.snoc_other ht.allowed rfl
  sorted := by
    simp only [History.observe,emittedEntries_append,emittedEntries_forced,List.append_nil]
    exact ht.sorted

theorem Tracks.call [DecidableEq C.Sig] [DecidableEq C.Status] {call : SchedulerCall C}
    (ht : Tracks scheduler.presence startSlot state history)
    (hc : ∀ other, Contiguous ((history.deliver inserted call).entries other))
    (h : scheduler.call state call = .ok (final,events,inserted)) :
    Tracks scheduler.presence startSlot final
      ((history.deliver inserted call).observe events) := by
  cases call with
  | insertTransaction slot index tx statusMeta => exact ht.insertTransaction hc h
  | pushEntry slot entry => exact ht.pushEntry hc h
  | recordBlockMetadata slot expectedTx expectedEntry =>
    obtain ⟨⟨last,released⟩,hrecord,h⟩ := bind_ok h
    cases h
    exact ht.recordBlockMetadata hc hrecord
  | forceMarkMissing slot =>
    obtain ⟨⟨last,released⟩,hforce,h⟩ := bind_ok h
    cases h
    obtain ⟨hknown,tail,rfl,hloop⟩ := forceMarkMissing_ok hforce
    have hsplit := observe_append history [.forced slot] tail
    rw [List.singleton_append] at hsplit
    change Tracks _ _ _ (history.observe (.forced slot :: tail))
    rw [hsplit]
    exact (ht.force hknown).advanceLoop hc hloop

end Calls

end Jetstreamer.Node
