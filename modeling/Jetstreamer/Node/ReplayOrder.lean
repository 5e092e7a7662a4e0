import Jetstreamer.Node.SchedulerSafety
set_option autoImplicit false

namespace Jetstreamer.Node
open SlotExecutionBuffer TransactionScheduler Lib

variable {C : ChainTypes}

def deliveredTx (calls : List (SchedulerCall C)) (slot index : Nat) :
    Option (ScheduledTransaction C) :=
  calls.findSome? fun
    | .insertTransaction s i tx statusMeta =>
        if s = slot ∧ i = index then some ⟨tx,statusMeta.status,statusMeta⟩ else none
    | _ => none

def deliveredEntry (calls : List (SchedulerCall C)) (slot index : Nat) :
    Option (PendingEntry C) :=
  calls.findSome? fun
    | .pushEntry s entry => if s = slot ∧ entry.entryIndex = index then some entry else none
    | _ => none

structure Recorded (calls : List (SchedulerCall C)) (history : History C) : Prop where
  txs : ∀ slot index, history.txs slot index = deliveredTx calls slot index
  entries : ∀ slot index, (history.entries slot)[index]? = deliveredEntry calls slot index
  metadata : ∀ slot tx entry, (slot,tx,entry) ∈ history.metadata ↔
    .recordBlockMetadata slot tx entry ∈ calls

theorem recorded_nil : Recorded ([] : List (SchedulerCall C)) .empty :=
  ⟨fun _ _ => rfl,fun _ _ => rfl,by simp [History.empty]⟩

variable {slot startSlot : Nat} {buffer : SlotExecutionBuffer C} {history : History C}
  {scheduler : TransactionScheduler} {state : SchedulerState C} {presence : SlotPresenceMap}

theorem SlotTracks.processed_delivered {index : Nat} {done : List (PendingEntry C)}
    (h : SlotTracks history slot buffer done) (hc : Contiguous (history.entries slot))
    (hi : index < buffer.processedTxCount) : history.txs slot index ≠ none := by
  rw [h.entries] at hc
  rw [h.txCount] at hi
  obtain ⟨entry,hmem,hl,hu⟩ := hc.of_append.covers hi
  obtain ⟨k,hk,rfl⟩ := List.getElem_of_mem hmem
  have hlen : k < (history.emitted slot).length := by rw [← h.carries.length_eq]; exact hk
  exact collectRange_isSome (h.carries.get hk hlen).txs hl hu

section Step

variable {scheduler : TransactionScheduler} {startSlot : Nat} {state final : SchedulerState C}
  {history : History C} {calls : List (SchedulerCall C)} {events : List (SchedulerEvent C)}
  {inserted : Bool}

section

variable (hr : Recorded calls history)
include hr

theorem Recorded.insertTransaction [DecidableEq C.Sig] [DecidableEq C.Status] {index : Nat}
    {tx : VersionedTransaction C} {statusMeta : TransactionStatusMeta C}
    (ht : Tracks scheduler.presence startSlot state history) (hslot : state.currentSlot ≤ slot)
    (hc : Contiguous (history.entries slot))
    (hinsert : (bufferAt state slot).insertTransaction index tx statusMeta =
      .ok (inserted,buffer)) :
    Recorded (calls ++ [.insertTransaction slot index tx statusMeta])
      (history.deliver inserted (.insertTransaction slot index tx statusMeta)) := by
  obtain ⟨done,hs⟩ := ht.opened slot hslot
  refine ⟨?_,?_,?_⟩
  · intro s i
    simp only [deliveredTx,List.findSome?_append,List.findSome?_cons,List.findSome?_nil]
    rw [← deliveredTx,← hr.txs s i]
    by_cases hhit : slot = s ∧ index = i
    · obtain ⟨rfl,rfl⟩ := hhit
      rcases (insertTransaction_cases hs.holds hinsert).2 with ⟨rfl,hold,_⟩ | ⟨rfl,_,hnone,_⟩
      · have hsome : history.txs slot index ≠ none := by
          by_cases hlt : index < (bufferAt state slot).processedTxCount
          · exact hs.processed_delivered hc hlt
          · exact hold (Nat.not_lt.mp hlt)
        obtain ⟨scheduled,hscheduled⟩ := Option.ne_none_iff_exists'.mp hsome
        simp [History.deliver,hscheduled]
      · simp [History.deliver,hnone]
    · have hkeep : (history.deliver inserted (.insertTransaction slot index tx statusMeta)).txs
          s i =
          history.txs s i := by
        cases inserted with
        | false => rfl
        | true =>
          simp only [History.deliver,if_true]
          by_cases hslot : s = slot
          · subst hslot
            rw [Function.update_self,Function.update_of_ne (fun heq => hhit ⟨rfl,heq.symm⟩)]
          · rw [Function.update_of_ne hslot]
      rw [hkeep]
      simp [hhit]
  · intro s k
    have hentries : (history.deliver inserted
        (.insertTransaction slot index tx statusMeta)).entries = history.entries := by
      cases inserted <;> rfl
    rw [hentries,hr.entries s k]
    simp [deliveredEntry,List.findSome?_append]
  · intro s count entries
    have hmeta : (history.deliver inserted
        (.insertTransaction slot index tx statusMeta)).metadata = history.metadata := by
      cases inserted <;> rfl
    rw [hmeta,hr.metadata]
    simp

theorem Recorded.pushEntry {entry : PendingEntry C}
    (ht : Tracks scheduler.presence startSlot state history)
    (hslot : state.currentSlot ≤ slot)
    (hpush : (bufferAt state slot).pushEntry entry = .ok (inserted,buffer)) :
    Recorded (calls ++ [.pushEntry slot entry])
      (history.deliver inserted (.pushEntry slot entry)) := by
  obtain ⟨done,hs⟩ := ht.opened slot hslot
  have hnext := hs.nextEntryIndex
  refine ⟨?_,?_,?_⟩
  · intro s i
    have htxs : (history.deliver inserted (.pushEntry slot entry)).txs = history.txs := by
      cases inserted <;> rfl
    rw [htxs,hr.txs s i]
    simp [deliveredTx,List.findSome?_append]
  · intro s k
    simp only [deliveredEntry,List.findSome?_append,List.findSome?_cons,List.findSome?_nil]
    rw [← deliveredEntry,← hr.entries s k]
    by_cases hhit : slot = s ∧ entry.entryIndex = k
    · obtain ⟨rfl,rfl⟩ := hhit
      rcases pushEntry_cases hpush with ⟨rfl,hlt,_⟩ | ⟨rfl,heq,_⟩
      · rw [hnext] at hlt
        simp [History.deliver,List.getElem?_eq_getElem hlt]
      · rw [heq,hnext]
        simp [History.deliver]
    · have hkeep : ((history.deliver inserted (.pushEntry slot entry)).entries s)[k]? =
          (history.entries s)[k]? := by
        rcases pushEntry_cases hpush with ⟨rfl,_,_⟩ | ⟨rfl,heq,_⟩
        · rfl
        · simp only [History.deliver,if_true]
          by_cases hslot : s = slot
          · subst hslot
            rw [Function.update_self,List.getElem?_append]
            split
            · rfl
            case isFalse hge =>
              have hk : k ≠ (history.entries s).length := fun hk => hhit ⟨rfl,by omega⟩
              rw [List.getElem?_eq_none (by simp; omega),List.getElem?_eq_none (by omega)]
          · rw [Function.update_of_ne hslot]
      rw [hkeep]
      simp [hhit]
  · intro s count entries
    have hmeta : (history.deliver inserted (.pushEntry slot entry)).metadata =
        history.metadata := by cases inserted <;> rfl
    rw [hmeta,hr.metadata]
    simp

theorem Recorded.declared {expectedTx expectedEntry : Nat} :
    Recorded (calls ++ [.recordBlockMetadata slot expectedTx expectedEntry])
      (history.deliver true (.recordBlockMetadata slot expectedTx expectedEntry)) := by
  refine ⟨?_,?_,?_⟩
  · intro s i
    simpa [History.deliver,deliveredTx,List.findSome?_append] using hr.txs s i
  · intro s k
    simpa [History.deliver,deliveredEntry,List.findSome?_append] using hr.entries s k
  · intro s tx entry
    simp [History.deliver,hr.metadata]

theorem Recorded.call [DecidableEq C.Sig] [DecidableEq C.Status] {call : SchedulerCall C}
    (ht : Tracks scheduler.presence startSlot state history)
    (hc : ∀ slot, Contiguous (history.entries slot))
    (h : scheduler.call state call = .ok (final,events,inserted)) :
    Recorded (calls ++ [call]) (history.deliver inserted call) := by
  cases call with
  | insertTransaction slot index tx statusMeta =>
    obtain ⟨hopen,buffer,hinsert,_⟩ := insertTransaction_ok h
    exact hr.insertTransaction ht (ht.current ▸ hopen) (hc slot) hinsert
  | pushEntry slot entry =>
    obtain ⟨hopen,buffer,hpush,_⟩ := pushEntry_ok h
    exact hr.pushEntry ht (ht.current ▸ hopen) hpush
  | recordBlockMetadata slot expectedTx expectedEntry => exact hr.declared
  | forceMarkMissing slot =>
    refine ⟨?_,?_,?_⟩
    · intro s i
      simpa [History.deliver,deliveredTx,List.findSome?_append] using hr.txs s i
    · intro s k
      simpa [History.deliver,deliveredEntry,List.findSome?_append] using hr.entries s k
    · intro s tx entry
      simp [History.deliver,hr.metadata]

end

end Step

theorem deliver_contiguous {inserted : Bool} {call : SchedulerCall C}
    (h : Contiguous ((history.deliver inserted call).entries slot)) :
    Contiguous (history.entries slot) := by
  cases call with
  | pushEntry s entry =>
    cases inserted with
    | false => exact h
    | true =>
      by_cases hslot : slot = s
      · subst hslot
        simp only [History.deliver,if_true,Function.update_self] at h
        exact h.of_append
      · simpa [History.deliver,Function.update_of_ne hslot] using h
  | insertTransaction => cases inserted <;> exact h
  | recordBlockMetadata | forceMarkMissing => exact h

theorem run_tracks [DecidableEq C.Sig] [DecidableEq C.Status] (hstart : 1 ≤ startSlot)
    {calls : List (SchedulerCall C)}
    {final : SchedulerState C} (hrun : scheduler.run startSlot calls = .ok (final,history))
    (hc : ∀ slot, Contiguous (history.entries slot)) :
    Tracks scheduler.presence startSlot final history ∧ Recorded calls history := by
  induction calls using List.reverseRecOn generalizing final history with
  | nil =>
    simp only [run,List.foldlM_nil] at hrun
    cases hrun
    exact ⟨tracks_init scheduler.presence hstart,recorded_nil⟩
  | append_singleton calls call ih =>
    obtain ⟨⟨state,before⟩,hbefore,hcall⟩ := foldlM_concat_ok hrun
    obtain ⟨⟨last,events,inserted⟩,hstep,heq⟩ := bind_ok hcall
    cases heq
    have hcbefore : ∀ slot, Contiguous (before.entries slot) :=
      fun slot => deliver_contiguous (hc slot)
    obtain ⟨ht,hr⟩ := ih hbefore hcbefore
    have hrecorded := hr.call ht hcbefore hstep
    exact ⟨ht.call hc hstep,⟨hrecorded.txs,hrecorded.entries,hrecorded.metadata⟩⟩

theorem verifyComplete_ok
    {endInclusive : Nat} (h : scheduler.verifyComplete state endInclusive = .ok ())
    (hb : state.slots.lookup slot = some buffer) :
    buffer.hasAnyData = false := by
  obtain ⟨_,hall,_⟩ := bind_ok h
  have hitem := forM_ok hall ⟨slot,buffer⟩ (AList.mem_lookup_iff.mp hb)
  by_contra hdata
  rw [Bool.not_eq_false] at hdata
  simp only [hdata,if_true] at hitem
  split at hitem <;> cases hitem

theorem carries_txs_length {f : Nat → Option (ScheduledTransaction C)}
    {entries : List (PendingEntry C)} {emitted : List (ReadyEntry (ScheduledTransaction C) C.Hash)}
    (h : List.Forall₂ (Carries f slot) entries emitted) :
    (emitted.map fun ready => ready.txs.length).sum = txSum entries := by
  induction h with
  | nil => rfl
  | cons hcarry _ ih =>
    rw [List.map_cons,List.sum_cons,ih,txSum_cons,collectRange_length hcarry.txs]

theorem Tracks.verified {endInclusive : Nat}
    (ht : Tracks scheduler.presence startSlot state history)
    (h : scheduler.verifyComplete state endInclusive = .ok ()) {tx entry : Nat}
    (hmem : (slot,tx,entry) ∈ history.metadata) : SlotClosed history slot := by
  by_cases hslot : slot < state.currentSlot
  · exact ht.closed slot hslot
  · obtain ⟨done,hs⟩ := ht.opened slot (Nat.not_lt.mp hslot)
    have hexpected := (hs.metadata tx entry hmem).1
    cases hb : state.slots.lookup slot with
    | none =>
      simp [bufferAt,hb,SlotExecutionBuffer.default] at hexpected
    | some buffer =>
      rw [bufferAt_of_lookup hb,(hasAnyData_false (verifyComplete_ok h hb)).1] at hexpected
      cases hexpected

/-- What the emitted entries of a run obey, whatever the caller did. -/
structure ReplayOrder (presence : SlotPresenceMap) (startSlot : Nat)
    (calls : List (SchedulerCall C)) (history : History C) : Prop where
  increasing : (emittedEntries history.events).Pairwise fun left right =>
    left.slot < right.slot ∨ left.slot = right.slot ∧ left.entryIndex < right.entryIndex
  carries : ∀ slot k ready, (history.emitted slot)[k]? = some ready → ready.entryIndex = k ∧
    ∃ entry, deliveredEntry calls slot k = some entry ∧
      Carries (deliveredTx calls slot) slot entry ready
  allowed : Justified (EmitAllowed presence startSlot) history.events

section

variable (ht : Tracks presence startSlot state history)
include ht

theorem Tracks.released (slot : Nat) :
    ∃ done rest, history.entries slot = done ++ rest ∧
      List.Forall₂ (Carries (history.txs slot) slot) done (history.emitted slot) := by
  by_cases hslot : slot < state.currentSlot
  · exact ⟨history.entries slot,[],by simp,(ht.closed slot hslot).carries⟩
  · obtain ⟨done,hs⟩ := ht.opened slot (Nat.not_lt.mp hslot)
    exact ⟨done,_,hs.entries,hs.carries⟩

theorem Tracks.emitted_entry {k : Nat}
    {ready : ReadyEntry (ScheduledTransaction C) C.Hash}
    (hk : (history.emitted slot)[k]? = some ready) :
    ready.entryIndex = k ∧ ∃ entry, (history.entries slot)[k]? = some entry ∧
      Carries (history.txs slot) slot entry ready := by
  obtain ⟨done,rest,hsplit,hcarries⟩ := ht.released slot
  obtain ⟨hlen,rfl⟩ := List.getElem?_eq_some_iff.mp hk
  have hdone : k < done.length := by rw [hcarries.length_eq]; exact hlen
  have hcarry := hcarries.get hdone hlen
  have hentry : (history.entries slot)[k]? = some done[k] := by
    rw [hsplit,List.getElem?_append_left hdone,List.getElem?_eq_getElem hdone]
  exact ⟨hcarry.entryIndex.trans (ht.indices slot k _ hentry),_,hentry,hcarry⟩

theorem Tracks.increasing :
    (emittedEntries history.events).Pairwise fun left right =>
      left.slot < right.slot ∨ left.slot = right.slot ∧ left.entryIndex < right.entryIndex := by
  have hslot : ∀ slot, (history.emitted slot).Pairwise fun left right =>
      left.entryIndex < right.entryIndex := by
    intro slot
    rw [List.pairwise_iff_getElem]
    intro i j hi hj hij
    rw [(ht.emitted_entry (List.getElem?_eq_getElem hi)).1,
      (ht.emitted_entry (List.getElem?_eq_getElem hj)).1]
    exact hij
  rw [List.pairwise_iff_forall_sublist]
  intro left right hsub
  have hle := List.pairwise_iff_forall_sublist.mp ht.sorted hsub
  by_cases heq : left.slot = right.slot
  · refine .inr ⟨heq,?_⟩
    have hfilter := hsub.filter fun entry => decide (entry.slot = left.slot)
    simp only [List.filter_cons,heq,decide_true,if_true,List.filter_nil] at hfilter
    exact List.pairwise_iff_forall_sublist.mp (hslot right.slot) hfilter
  · exact .inl (Nat.lt_of_le_of_ne hle heq)

end

/-- Replay order safety: for every sequence of calls that all return `Ok`, the
emitted entries come in replay order, and a verified run has emitted what the
metadata declared. -/
theorem scheduler_replay_order [DecidableEq C.Sig] [DecidableEq C.Status]
    (scheduler : TransactionScheduler) {startSlot : Nat} (hstart : 1 ≤ startSlot)
    (calls : List (SchedulerCall C)) {final : SchedulerState C} {history : History C}
    (hrun : scheduler.run startSlot calls = .ok (final,history))
    (hc : ∀ slot, Contiguous (history.entries slot)) :
    ReplayOrder scheduler.presence startSlot calls history ∧
      ∀ endInclusive, scheduler.verifyComplete final endInclusive = .ok () →
        ∀ slot, slot ≤ endInclusive → ∀ tx entry, .recordBlockMetadata slot tx entry ∈ calls →
          (history.emitted slot).length = entry ∧
          ((history.emitted slot).map fun ready => ready.txs.length).sum = tx := by
  obtain ⟨ht,hr⟩ := run_tracks hstart hrun hc
  refine ⟨⟨ht.increasing,?_,ht.allowed⟩,?_⟩
  · intro slot k ready hk
    obtain ⟨hindex,entry,hentry,hcarry⟩ := ht.emitted_entry hk
    refine ⟨hindex,entry,?_,?_⟩
    · rw [← hr.entries]
      exact hentry
    · rw [← funext (hr.txs slot)]
      exact hcarry
  · intro endInclusive hverify slot _ tx entry hmem
    have hmeta := (hr.metadata slot tx entry).mpr hmem
    have hclosed := ht.verified hverify hmeta
    obtain ⟨rfl,rfl⟩ := hclosed.metadata tx entry hmeta
    exact ⟨hclosed.carries.length_eq.symm,carries_txs_length hclosed.carries⟩

abbrev plainChain : ChainTypes := ⟨Nat,Nat,Bool,Unit,Nat⟩

def mixedScheduler : TransactionScheduler :=
  ⟨⟨1,4,[.missing,.present,.present,.present],rfl,by decide⟩,0⟩

def mixedCalls : List (SchedulerCall plainChain) :=
  [.insertTransaction 2 0 ⟨[7],70⟩ ⟨true,()⟩,
   .pushEntry 4 ⟨0,0,0,40,1⟩,
   .pushEntry 2 ⟨0,0,1,20,1⟩,
   .forceMarkMissing 3,
   .recordBlockMetadata 4 0 1,
   .recordBlockMetadata 2 1 1]

theorem mixedCalls_replay_order :
    ∃ final history, mixedScheduler.run 1 mixedCalls = .ok (final,history) ∧
      (emittedEntries history.events).map (fun ready => (ready.slot,ready.entryIndex)) =
        [(2,0),(4,0)] ∧
      ReplayOrder mixedScheduler.presence 1 mixedCalls history ∧
      (history.emitted 2).length = 1 ∧
      ((history.emitted 2).map fun ready => ready.txs.length).sum = 1 := by
  have hcontiguous : ∀ slot, Contiguous
      (Function.update (Function.update (fun _ => ([] : List (PendingEntry plainChain))) 4
        [⟨0,0,0,40,1⟩]) 2 [⟨0,0,1,20,1⟩] slot) := by
    intro slot
    by_cases h2 : slot = 2
    · subst h2
      exact contiguous_singleton rfl
    · by_cases h4 : slot = 4
      · subst h4
        exact contiguous_singleton rfl
      · rw [Function.update_of_ne h2,Function.update_of_ne h4]
        exact contiguous_nil
  refine ⟨_,_,rfl,by decide,?_⟩
  have hsafe := scheduler_replay_order mixedScheduler (Nat.le_refl 1) mixedCalls rfl hcontiguous
  exact ⟨hsafe.1,hsafe.2 4 rfl 2 (by decide) 1 1 (by simp [mixedCalls])⟩

end Jetstreamer.Node
