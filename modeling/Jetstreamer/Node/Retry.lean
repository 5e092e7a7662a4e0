import Jetstreamer.Node.Streaming
set_option autoImplicit false

namespace Jetstreamer.Node
open SlotExecutionBuffer TransactionScheduler Lib

variable {C : ChainTypes}

/-- No slot is forced missing, and the slots left behind hold no data. -/
def Unforced (state : SchedulerState C) : Prop :=
  state.forcedMissing = ∅ ∧ ∀ slot, slot < state.currentSlot → state.slots.lookup slot = none

section Run

variable {scheduler : TransactionScheduler} {state final : SchedulerState C}
  {events : List (SchedulerEvent C)}

theorem Unforced.setBuffer {slot : Nat} (h : Unforced state) (hslot : state.currentSlot ≤ slot)
    (buffer : SlotExecutionBuffer C) : Unforced (setBuffer state slot buffer) := by
  refine ⟨h.1,fun s hs => ?_⟩
  have hlt : s < state.currentSlot := hs
  exact (AList.lookup_insert_ne (by omega)).trans (h.2 s hlt)

theorem Unforced.passCurrent (h : Unforced state) : Unforced (passCurrent state) := by
  refine ⟨h.1,fun s hs => ?_⟩
  have hle : satSucc state.currentSlot ≤ state.currentSlot + 1 := Nat.min_le_left _ _
  by_cases hcur : s = state.currentSlot
  · subst hcur
    exact AList.lookup_erase _ _
  · have hlt : s < satSucc state.currentSlot := hs
    exact (AList.lookup_erase_ne hcur).trans (h.2 s (by omega))

theorem Unforced.advanceStep {again : Bool} (h : Unforced state)
    (hstep : scheduler.advanceStep state = .ok (again,final,events)) : Unforced final := by
  rcases advanceStep_cases hstep with ⟨_,rfl,_⟩ | ⟨_,_,_,rfl,_⟩ | ⟨buffer,_,_,hdrain⟩
  · exact h
  · exact h.passCurrent
  · rcases drainCurrent_cases hdrain with ⟨_,rfl,_⟩ | ⟨_,_,_,_,inferredBlocks,counted,rfl,_⟩
    · exact h.setBuffer (Nat.le_refl _) _
    · have hinferred : Unforced { state with inferredBlocks := inferredBlocks } := h
      exact (hinferred.setBuffer (Nat.le_refl _) counted).passCurrent

theorem Unforced.advanceLoop {fuel : Nat} (h : Unforced state)
    (hloop : scheduler.advanceLoop fuel state = .ok (final,events)) : Unforced final := by
  induction fuel generalizing state events with
  | zero => cases hloop
  | succ fuel ih =>
    obtain ⟨⟨again,next,first⟩,hstep,hloop⟩ := bind_ok hloop
    have hnext := h.advanceStep hstep
    cases again with
    | false =>
      cases hloop
      exact hnext
    | true =>
      obtain ⟨⟨last,following⟩,hrest,heq⟩ := bind_ok hloop
      cases heq
      exact ih hnext hrest

variable [DecidableEq C.Sig] [DecidableEq C.Status] {startSlot : Nat} {blocks : Nat → BlockData C}
  {calls : List (SchedulerCall C)} {history : History C}

theorem Unforced.call {call : SchedulerCall C} {inserted : Bool} (h : Unforced state)
    (hcurrent : state.currentSlot = state.lastFinalizedSlot + 1)
    (hblock : (blocks call.slot).Delivers call)
    (hcall : scheduler.call state call = .ok (final,events,inserted)) : Unforced final := by
  have hseen : ∀ slot, Unforced (seen state slot) := fun _ => h
  cases call with
  | insertTransaction slot index tx statusMeta =>
    obtain ⟨hopen,buffer,_,hloop⟩ := insertTransaction_ok hcall
    exact ((hseen slot).setBuffer (hcurrent ▸ hopen) buffer).advanceLoop hloop
  | pushEntry slot entry =>
    obtain ⟨hopen,buffer,_,hloop⟩ := pushEntry_ok hcall
    exact ((hseen slot).setBuffer (hcurrent ▸ hopen) buffer).advanceLoop hloop
  | recordBlockMetadata slot expectedTx expectedEntry =>
    obtain ⟨⟨last,released⟩,hmeta,heq⟩ := bind_ok hcall
    cases heq
    unfold TransactionScheduler.recordBlockMetadata at hmeta
    split at hmeta
    · unfold TransactionScheduler.lateMetadata at hmeta
      split at hmeta
      · split at hmeta
        · cases hmeta
          exact h
        · cases hmeta
      · cases hmeta
    case isFalse hlate =>
      obtain ⟨_,_,hmeta⟩ := bind_ok hmeta
      obtain ⟨buffer,_,hloop⟩ := bind_ok hmeta
      have hslot : state.currentSlot ≤ slot := by omega
      have hcleared : Unforced { seen state slot with
          inferredBlocks := Function.update (seen state slot).inferredBlocks slot none } := h
      exact (hcleared.setBuffer hslot buffer).advanceLoop hloop
  | forceMarkMissing slot => exact hblock.elim

theorem run_supplied (hstart : 1 ≤ startSlot)
    (hsupplied : Supplied scheduler.presence startSlot blocks calls)
    (hrun : scheduler.run startSlot calls = .ok (state,history)) :
    Tracks scheduler.presence startSlot state history ∧ Recorded calls history ∧
      Unforced state := by
  induction calls using List.reverseRecOn generalizing state history with
  | nil =>
    cases hrun
    exact ⟨tracks_init scheduler.presence hstart,recorded_nil,rfl,fun _ _ => rfl⟩
  | append_singleton calls call ih =>
    obtain ⟨⟨before,past⟩,hbefore,hcall⟩ := foldlM_concat_ok hrun
    obtain ⟨⟨last,events,inserted⟩,hstep,heq⟩ := bind_ok hcall
    cases heq
    have hearlier : Supplied scheduler.presence startSlot blocks calls :=
      fun other hmem => hsupplied other (List.mem_append_left _ hmem)
    obtain ⟨ht,hr,hu⟩ := ih hearlier hbefore
    have hrecorded := hr.call ht (hearlier.contiguous hr) hstep
    have hc := hsupplied.contiguous hrecorded
    exact ⟨ht.call hc hstep,hrecorded.observe _,
      hu.call ht.current (hsupplied call (by simp)).2.2 hstep⟩

end Run

variable {state : SchedulerState C} {scheduler : TransactionScheduler} {presence : SlotPresenceMap}
  {blocks : Nat → BlockData C}

theorem firstBuffered_lookup {endInclusive slot : Nat} {buffer : SlotExecutionBuffer C}
    (h : firstBuffered state endInclusive = some (slot,buffer)) :
    state.slots.lookup slot = some buffer := by
  have hfold : ∀ (items : List (Sigma fun _ : Nat => SlotExecutionBuffer C)) lowest,
      items.foldl (fun lowest item =>
        if item.1 ≤ endInclusive ∧ item.2.hasAnyData = true ∧
            (lowest.all fun existing => decide (item.1 < existing.1)) = true
        then some (item.1,item.2) else lowest) lowest = some (slot,buffer) →
      lowest = some (slot,buffer) ∨ ⟨slot,buffer⟩ ∈ items := by
    intro items
    induction items with
    | nil => exact fun _ hlowest => .inl hlowest
    | cons item rest ih =>
      intro lowest hlowest
      rw [List.foldl_cons] at hlowest
      rcases ih _ hlowest with hnew | hmem
      · split at hnew
        · cases hnew
          exact .inr List.mem_cons_self
        · exact .inl hnew
      · exact .inr (List.mem_cons_of_mem _ hmem)
  rcases hfold _ _ h with hnone | hmem
  · cases hnone
  · exact AList.mem_lookup_iff.mpr hmem

theorem firstIncompleteSlot_current
    {endInclusive : Nat} (hu : Unforced state) (hle : state.currentSlot ≤ endInclusive)
    (hpresent : scheduler.presence.state state.currentSlot = some .present) :
    scheduler.firstIncompleteSlot state endInclusive = some (missingInfo state.currentSlot) := by
  obtain ⟨count,hcount⟩ : ∃ count, endInclusive + 1 - state.currentSlot = count + 1 :=
    ⟨endInclusive - state.currentSlot,by omega⟩
  have hmissing : scheduler.firstMissing state (endInclusive + 1 - state.currentSlot)
      state.currentSlot = some state.currentSlot := by
    simp only [hcount,firstMissing,slotPresence_of_forced hu.1,hpresent]
  unfold firstIncompleteSlot
  cases hb : firstBuffered state endInclusive with
  | none => simp only [hmissing]
  | some found =>
    have hge : state.currentSlot ≤ found.1 := by
      by_contra hlt
      have hlookup := firstBuffered_lookup hb
      rw [hu.2 found.1 (Nat.not_le.mp hlt)] at hlookup
      cases hlookup
    simp only [hmissing,if_pos hge]

theorem verifyComplete_present
    {endInclusive : Nat} (hu : Unforced state) (hle : state.currentSlot ≤ endInclusive)
    (hpresent : scheduler.presence.state state.currentSlot = some .present) :
    scheduler.verifyComplete state endInclusive ≠ .ok () := by
  intro hok
  obtain ⟨_,_,hmissing⟩ := bind_ok hok
  obtain ⟨count,hcount⟩ : ∃ count, endInclusive + 1 - state.currentSlot = count + 1 :=
    ⟨endInclusive - state.currentSlot,by omega⟩
  simp only [hcount,verifyMissing,slotPresence_of_forced hu.1,hpresent] at hmissing
  cases hmissing

/-- The calls so far have brought some but not all of the slot's block. -/
def PartlyDelivered (blocks : Nat → BlockData C) (calls : List (SchedulerCall C)) (slot : Nat) :
    Prop :=
  (∃ call ∈ calls, call.slot = slot) ∧
    ¬ ((blocks slot).MetadataIn slot calls ∧ (blocks slot).DataIn slot calls)

theorem PartlyDelivered.entries_ne_nil {startSlot slot : Nat} {calls : List (SchedulerCall C)}
    (h : PartlyDelivered blocks calls slot) (hs : Supplied presence startSlot blocks calls) :
    (blocks slot).entries ≠ [] := by
  intro hnil
  have htxs : (blocks slot).txs = [] := by
    have hcounted := (blocks slot).counted
    rw [hnil,txSum_nil] at hcounted
    exact List.length_eq_zero_iff.mp hcounted
  obtain ⟨⟨call,hmem,rfl⟩,hpart⟩ := h
  refine hpart ⟨?_,?_,?_⟩
  · have hblock := (hs call hmem).2.2
    cases call with
    | insertTransaction slot index tx statusMeta =>
      change (blocks slot).txs[index]? = some (tx,statusMeta) at hblock
      change (blocks slot).txs = [] at htxs
      simp [htxs] at hblock
    | pushEntry slot entry =>
      change entry ∈ (blocks slot).entries at hblock
      change (blocks slot).entries = [] at hnil
      simp [hnil] at hblock
    | recordBlockMetadata slot expectedTx expectedEntry =>
      obtain ⟨rfl,rfl⟩ : expectedTx = (blocks slot).txs.length ∧
        expectedEntry = (blocks slot).entries.length := hblock
      exact hmem
    | forceMarkMissing slot => exact hblock.elim
  · intro index tx statusMeta hat
    simp [htxs] at hat
  · intro entry hentry
    simp [hnil] at hentry

def emittedFrom (slot : Nat) (events : List (SchedulerEvent C)) :
    List (ReadyEntry (ScheduledTransaction C) C.Hash) :=
  (emittedEntries events).filter fun entry => slot ≤ entry.slot

theorem Tracks.emittedFrom_current {startSlot : Nat} {history : History C}
    (ht : Tracks presence startSlot state history) :
    emittedFrom state.currentSlot history.events = history.emitted state.currentSlot := by
  refine List.filter_congr fun entry hmem => ?_
  have hle := ht.reached entry hmem
  simp only [decide_eq_decide]
  omega

theorem mem_canonicalReplay {slot : Nat} {entry : ReadyEntry (ScheduledTransaction C) C.Hash}
    (h : entry ∈ canonicalReplay presence slot blocks) : slot ≤ entry.slot := by
  obtain ⟨s,hs,hentry⟩ := List.mem_flatMap.mp h
  have hle := (List.mem_range'_1.mp hs).1
  split at hentry
  · obtain ⟨pending,_,rfl⟩ := List.mem_map.mp hentry
    exact hle
  · cases hentry

/-- Streaming a partly delivered slot again from its beginning, and all later
slots after it, emits the whole rest of the range. -/
theorem trackedRun_retry [DecidableEq C.Sig] [DecidableEq C.Status]
    {data : Nat → List (SchedulerCall C)} (hu : Unforced state)
    (hcurrent : state.currentSlot = state.lastFinalizedSlot + 1)
    (hinferred : ∀ slot, state.currentSlot ≤ slot → state.inferredBlocks slot = none)
    (hpresent : scheduler.presence.state state.currentSlot = some .present)
    (hentries : (blocks state.currentSlot).entries ≠ [])
    (hdata : ∀ slot, scheduler.presence.state slot = some .present →
      SlotDelivery (blocks slot) slot (data slot)) (allowStaleSkip : Bool) :
    ∃ tracker final events,
      scheduler.trackedRun ⟨true,state.currentSlot,0,0,allowStaleSkip⟩ state
        (streamFrom scheduler.presence blocks data state.currentSlot) =
          .ok (tracker,final,events) ∧
      emittedEntries events = canonicalReplay scheduler.presence state.currentSlot blocks := by
  have hend := SlotPresenceMap.le_end_of_state hpresent
  have hrange : scheduler.presence.start ≤ state.currentSlot := by
    by_contra hlt
    rw [SlotPresenceMap.state,if_pos (.inl (Nat.not_le.mp hlt))] at hpresent
    cases hpresent
  have hdelivery := hdata _ hpresent
  obtain ⟨call,rest,hcalls⟩ : ∃ call rest, data state.currentSlot = call :: rest := by
    cases hd : data state.currentSlot with
    | nil =>
      have hnone := hdelivery.entries
      rw [hd] at hnone
      exact absurd hnone.symm hentries
    | cons call rest => exact ⟨call,rest,rfl⟩
  have hfirst := hdelivery.pieces call (by simp [hcalls])
  have hstreaming : Streaming scheduler blocks 0 (applyRestart state ⟨state.currentSlot,0,0⟩)
      state.currentSlot [] 0 (fun _ => none) :=
    applyRestart_streaming hcurrent hu.1 (by omega) (fun s hl hlt => by omega) (by omega) hinferred
      hu.2 (Nat.zero_le _) (.inl (Nat.zero_le _)) rfl
  -- The restart is taken by the first call, and the slot is streamed as a whole.
  have hrestart : ∀ more, scheduler.trackedRun ⟨true,state.currentSlot,0,0,allowStaleSkip⟩ state
      (slotCalls blocks data state.currentSlot ++ more) =
        scheduler.trackedRun ⟨false,state.currentSlot,0,0,allowStaleSkip⟩
          (applyRestart state ⟨state.currentSlot,0,0⟩)
          (slotCalls blocks data state.currentSlot ++ more) := by
    intro more
    simp only [slotCalls,hcalls,List.cons_append,trackedRun]
    rw [trackedCall_restart rfl hfirst.2.1 hfirst.1]
  have hidle : RestartTracker.pending ⟨false,state.currentSlot,0,0,allowStaleSkip⟩ = false := rfl
  obtain ⟨next,first,hslot,hclean,hlt,hbetween,hstop,-,hemitted⟩ :=
    hstreaming.run_slot hidle hpresent hdelivery
  have hwaiting : Waiting scheduler next (state.currentSlot + 1) := ⟨hclean,hlt,hbetween,hstop⟩
  obtain ⟨final,events,hrest,_,hevents⟩ := hwaiting.run_slots hidle (by omega) hdata
    (scheduler.presence.endInclusive - state.currentSlot) (by omega)
  have hcount : scheduler.presence.endInclusive + 1 - state.currentSlot =
      scheduler.presence.endInclusive - state.currentSlot + 1 := by omega
  refine ⟨⟨false,state.currentSlot,0,0,allowStaleSkip⟩,final,first ++ events,?_,?_⟩
  · rw [streamFrom,hcount,List.range'_succ,List.flatMap_cons,if_pos hpresent,hrestart]
    exact trackedRun_append hslot hrest
  · rw [emittedEntries_append,hemitted,hevents,BlockData.remainder_zero,canonicalReplay,hcount,
      List.range'_succ,
      List.flatMap_cons,if_pos hpresent]
    rfl

/-- Post-firehose retry: a partly delivered present slot is restarted at its
first entry, so the retry is exactly-once just when none of its entries had been
emitted. -/
theorem retry_exactly_once_iff [DecidableEq C.Sig] [DecidableEq C.Status]
    (scheduler : TransactionScheduler) {startSlot : Nat} (hstart : 1 ≤ startSlot)
    (blocks : Nat → BlockData C) (calls : List (SchedulerCall C)) {state : SchedulerState C}
    {history : History C} (hrun : scheduler.run startSlot calls = .ok (state,history))
    (hsupplied : Supplied scheduler.presence startSlot blocks calls)
    (hpresent : scheduler.presence.state state.currentSlot = some .present)
    (hpart : PartlyDelivered blocks calls state.currentSlot) (data : Nat → List (SchedulerCall C))
    (hdata : ∀ slot, scheduler.presence.state slot = some .present →
      SlotDelivery (blocks slot) slot (data slot)) (tracker : RestartTracker) :
    scheduler.verifyComplete state scheduler.presence.endInclusive ≠ .ok () ∧
      ∃ info last final events,
        scheduler.firstIncompleteSlot state scheduler.presence.endInclusive = some info ∧
        scheduler.trackedRun
          (tracker.markRestart info.slot info.entryIndex info.txStart false) state
          (streamFrom scheduler.presence blocks data info.slot) = .ok (last,final,events) ∧
        ((emittedFrom state.currentSlot (history.events ++ events)).Perm
          (canonicalReplay scheduler.presence state.currentSlot blocks) ↔
            history.emitted state.currentSlot = []) := by
  obtain ⟨ht,_,hu⟩ := run_supplied hstart hsupplied hrun
  have hend := SlotPresenceMap.le_end_of_state hpresent
  have hinferred : ∀ slot, state.currentSlot ≤ slot → state.inferredBlocks slot = none := by
    intro slot hle
    cases hsome : state.inferredBlocks slot with
    | none => rfl
    | some counts => exact absurd (ht.inferred slot counts.1 counts.2 hsome).1 (by omega)
  obtain ⟨last,final,events,hretry,hemitted⟩ := trackedRun_retry hu ht.current hinferred hpresent
    (hpart.entries_ne_nil hsupplied) hdata false
  refine ⟨verifyComplete_present hu hend hpresent,missingInfo state.currentSlot,last,final,events,
    firstIncompleteSlot_current hu hend hpresent,hretry,?_⟩
  have hall : (canonicalReplay scheduler.presence state.currentSlot blocks).filter
      (fun entry => state.currentSlot ≤ entry.slot) =
        canonicalReplay scheduler.presence state.currentSlot blocks :=
    List.filter_eq_self.mpr fun entry hmem => by simpa using mem_canonicalReplay hmem
  have hsplit : emittedFrom state.currentSlot (history.events ++ events) =
      history.emitted state.currentSlot ++
        canonicalReplay scheduler.presence state.currentSlot blocks := by
    rw [← ht.emittedFrom_current,← hall,← hemitted]
    simp [emittedFrom]
  rw [hsplit]
  constructor
  · intro hperm
    have hlength := hperm.length_eq
    rw [List.length_append] at hlength
    exact List.length_eq_zero_iff.mp (by omega)
  · intro hnil
    rw [hnil,List.nil_append]

/-- Only the transaction of slot 1 had arrived, so nothing is emitted twice. -/
theorem tickData_first_exactly_once :
    ∃ state history info last final events,
      tickScheduler.run 1 (tickData.take 1) = .ok (state,history) ∧
      tickScheduler.firstIncompleteSlot state 1 = some info ∧
      tickScheduler.trackedRun
        (RestartTracker.new.markRestart info.slot info.entryIndex info.txStart false) state
        (streamFrom tickScheduler.presence (fun _ => tickBlock) (fun _ => tickData) info.slot) =
          .ok (last,final,events) ∧
      (emittedFrom 1 (history.events ++ events)).Perm
        (canonicalReplay tickScheduler.presence 1 fun _ => tickBlock) := by
  obtain ⟨_,info,last,final,events,hinfo,hretry,hiff⟩ := retry_exactly_once_iff tickScheduler
    (Nat.le_refl 1) (fun _ => tickBlock) (tickData.take 1) rfl
    (by
      intro call hmem
      obtain rfl := List.mem_singleton.mp hmem
      exact ⟨rfl,Nat.le_refl 1,rfl⟩)
    rfl
    ⟨⟨_,List.mem_cons_self,rfl⟩,fun h => by simp [BlockData.MetadataIn,tickData] at h⟩
    (fun _ => tickData) (fun _ hp => tickData_delivery hp) RestartTracker.new
  exact ⟨_,_,info,last,final,events,rfl,hinfo,hretry,hiff.mpr rfl⟩

/-- The first entry of slot 1 had been emitted, and the retry emits it again. -/
theorem tickData_second_emitted_twice :
    ∃ state history info last final events,
      tickScheduler.run 1 (tickData.take 2) = .ok (state,history) ∧
      tickScheduler.firstIncompleteSlot state 1 = some info ∧
      tickScheduler.trackedRun
        (RestartTracker.new.markRestart info.slot info.entryIndex info.txStart false) state
        (streamFrom tickScheduler.presence (fun _ => tickBlock) (fun _ => tickData) info.slot) =
          .ok (last,final,events) ∧
      (emittedEntries history.events).map (fun entry => (entry.slot,entry.entryIndex)) = [(1,0)] ∧
      (emittedEntries events).map (fun entry => (entry.slot,entry.entryIndex)) =
        [(1,0),(1,1)] :=
  ⟨_,_,_,_,_,_,rfl,rfl,rfl,rfl,rfl⟩

end Jetstreamer.Node
