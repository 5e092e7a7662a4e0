import Jetstreamer.Node.Retry
set_option autoImplicit false

namespace Jetstreamer.Node
open SlotExecutionBuffer TransactionScheduler Lib

variable {C : ChainTypes}

namespace BlockData

/-- A place to resume from: the entries before `k` and the transactions before `t` are done, and
`t` is at the start of entry `k` or inside it. -/
structure Cut (block : BlockData C) (k t : Nat) : Prop where
  entry : k ≤ block.entries.length
  reached : txSum (block.entries.take k) ≤ t
  inside : t = txSum (block.entries.take k) ∨ t < txSum (block.entries.take (k + 1))

variable {block : BlockData C} {slot k t : Nat}

theorem txSum_take_le (entries : List (PendingEntry C)) {i j : Nat} (h : i ≤ j) :
    txSum (entries.take i) ≤ txSum (entries.take j) := by
  obtain ⟨d,rfl⟩ := Nat.exists_eq_add_of_le h
  rw [List.take_add,txSum_append]
  omega

theorem txSum_take_le_txs (block : BlockData C) (i : Nat) :
    txSum (block.entries.take i) ≤ block.txs.length := by
  have hsum := txSum_append (block.entries.take i) (block.entries.drop i)
  rw [List.take_append_drop] at hsum
  rw [block.counted]
  omega

theorem Cut.le_txs (hcut : block.Cut k t) : t ≤ block.txs.length := by
  rcases hcut.inside with heq | hlt
  · rw [heq]
    exact txSum_take_le_txs block k
  · exact (Nat.le_of_lt hlt).trans (txSum_take_le_txs block (k + 1))

theorem Cut.reaches (hcut : block.Cut k t) : block.Reaches (block.entries.take k) t := by
  refine hcut.inside.imp Nat.le_of_eq fun hlt => ?_
  have hlen : (block.entries.take k).length = k := by simp [hcut.entry]
  rw [hlen]
  cases hentry : block.entries[k]? with
  | none =>
    have hreached := hcut.reached
    rw [List.take_add_one,hentry,txSum_append] at hlt
    simp at hlt
    omega
  | some entry =>
    rw [List.take_add_one,hentry,txSum_append] at hlt
    exact ⟨entry,rfl,by simpa using hlt⟩

theorem remainder_whole (hcut : block.Cut k t) {entry : PendingEntry C}
    (h : entry ∈ block.entries.drop (k + 1)) :
    block.remainder slot t entry = block.readyEntry slot entry := by
  obtain ⟨j,hj⟩ := List.getElem?_of_mem h
  rw [List.getElem?_drop] at hj
  refine block.remainder_of_le ?_
  rw [block.contiguous _ _ hj]
  rcases hcut.inside with heq | hlt
  · rw [heq]
    exact txSum_take_le _ (by omega)
  · exact (Nat.le_of_lt hlt).trans (txSum_take_le _ (by omega))

theorem flatMap_remainder (block : BlockData C) (slot t : Nat)
    {done pending : List (PendingEntry C)}
    (hc : Contiguous (done ++ pending))
    (hcut : ∀ entry ∈ pending.head?, t ≤ txSum done ∨ t < txSum done + entry.txCount) :
    (pending.map (block.remainder slot t)).flatMap (·.txs) =
      ((block.txs.drop (max t (txSum done))).take
        (max t (txSum (done ++ pending)) - max t (txSum done))).map schedule := by
  induction pending generalizing done with
  | nil => simp
  | cons entry rest ih =>
    have hstart : entry.startIndex = txSum done := hc.next
    have hhead := hcut entry (by simp)
    have hcrest : Contiguous ((done ++ [entry]) ++ rest) := by simpa using hc
    have hlater : ∀ e ∈ rest.head?, t ≤ txSum (done ++ [entry]) ∨
        t < txSum (done ++ [entry]) + e.txCount := by
      intro e _
      simp only [txSum_append,txSum_cons,txSum_nil]
      omega
    have hrest := ih hcrest hlater
    simp only [List.map_cons,List.flatMap_cons,remainder,hrest,txSum_append,txSum_cons,txSum_nil]
    have hlen : max t (txSum done + (entry.txCount + txSum rest)) - max t (txSum done) =
        (entry.startIndex + entry.txCount - max entry.startIndex t) +
          (txSum done + (entry.txCount + txSum rest) - (txSum done + entry.txCount)) := by omega
    have hplace : max t (txSum done) + (entry.startIndex + entry.txCount - max entry.startIndex t) =
        max t (txSum done + (entry.txCount + 0)) := by omega
    rw [hlen,List.take_add,List.drop_drop,hplace,hstart,max_comm t (txSum done),List.map_append]
    congr 3
    omega

theorem flatMap_remainder_cut (hcut : block.Cut k t) :
    ((block.entries.drop k).map (block.remainder slot t)).flatMap (·.txs) =
      (block.txs.drop t).map schedule := by
  have hsplit := block.contiguous
  rw [← List.take_append_drop k block.entries] at hsplit
  rw [flatMap_remainder block slot t hsplit,List.take_append_drop,← block.counted,
    Nat.max_eq_left hcut.reached,Nat.max_eq_right hcut.le_txs,List.take_of_length_le (by simp)]
  intro entry hentry
  refine hcut.reaches.imp id ?_
  rintro ⟨other,hother,hlt⟩
  rw [List.length_take,Nat.min_eq_left hcut.entry,← List.head?_drop] at hother
  rw [Option.mem_def,hother,Option.some.injEq] at hentry
  rwa [← hentry]

end BlockData

/-- A slot that is resumed at a cut and handed over again as a whole emits exactly what was left of
it, and is then finalized. -/
theorem restart_emits_remainder [DecidableEq C.Sig] [DecidableEq C.Status]
    (scheduler : TransactionScheduler) {startSlot : Nat} (hstart : 1 ≤ startSlot)
    (blocks : Nat → BlockData C) (calls : List (SchedulerCall C)) {state : SchedulerState C}
    {history : History C} (hrun : scheduler.run startSlot calls = .ok (state,history))
    (hsupplied : Supplied scheduler.presence startSlot blocks calls) {slot k t : Nat}
    (hslot : startSlot ≤ slot) (hreached : slot ≤ state.currentSlot)
    (hpresent : scheduler.presence.state slot = some .present) (hcut : (blocks slot).Cut k t)
    (data : List (SchedulerCall C)) (hdata : SlotDelivery (blocks slot) slot data)
    (allowStaleSkip : Bool) :
    ∃ final events,
      scheduler.trackedRun ⟨false,slot,k,t,allowStaleSkip⟩ (applyRestart state ⟨slot,k,t⟩)
        (data ++ [(blocks slot).metadataCall slot]) =
          .ok (⟨false,slot,k,t,allowStaleSkip⟩,final,events) ∧
      (data ≠ [] → scheduler.trackedRun ⟨true,slot,k,t,allowStaleSkip⟩ state
        (data ++ [(blocks slot).metadataCall slot]) =
          .ok (⟨false,slot,k,t,allowStaleSkip⟩,final,events)) ∧
      emittedEntries events =
        ((blocks slot).entries.drop k).map ((blocks slot).remainder slot t) ∧
      (∀ entry ∈ (blocks slot).entries.drop (k + 1),
        (blocks slot).remainder slot t entry = (blocks slot).readyEntry slot entry) ∧
      (emittedEntries events).flatMap (·.txs) =
        ((blocks slot).txs.drop t).map BlockData.schedule ∧
      .finalize slot ∈ events ∧ slot ≤ final.lastFinalizedSlot ∧
      k + (emittedEntries events).length = (blocks slot).entries.length ∧
      t + ((emittedEntries events).flatMap (·.txs)).length = (blocks slot).txs.length := by
  obtain ⟨ht,-,hu⟩ := run_supplied hstart hsupplied hrun
  have hinferred : ∀ s, state.currentSlot ≤ s → state.inferredBlocks s = none := by
    intro s hle
    cases hsome : state.inferredBlocks s with
    | none => rfl
    | some counts => exact absurd (ht.inferred s counts.1 counts.2 hsome).1 (by omega)
  have hstreaming : Streaming scheduler blocks t (applyRestart state ⟨slot,k,t⟩) slot
      ((blocks slot).entries.take k) k (fun _ => none) :=
    applyRestart_streaming ht.current hu.1 (by omega) (fun s hl hlt => by omega)
      (by omega) hinferred
      (fun s hs => hu.2 s (by omega)) hcut.entry hcut.reaches
      (Nat.max_eq_left hcut.reached).symm
  have hidle : RestartTracker.pending ⟨false,slot,k,t,allowStaleSkip⟩ = false := rfl
  let streamed : Nat → List (SchedulerCall C) := fun _ => data
  have hstreamed : SlotDelivery (blocks slot) slot (streamed slot) := hdata
  obtain ⟨final,events,hslots,hclean,hlt,-,-,hfinal,hemitted⟩ :=
    hstreaming.run_slot hidle hpresent hstreamed
  rw [List.length_take,Nat.min_eq_left hcut.entry] at hemitted
  have htxs : (emittedEntries events).flatMap (·.txs) =
      ((blocks slot).txs.drop t).map BlockData.schedule := by
    rw [hemitted]
    exact BlockData.flatMap_remainder_cut hcut
  have hfinalized := hclean.finalized
  have hentry := hcut.entry
  have htx := hcut.le_txs
  refine ⟨final,events,hslots,fun hne => ?_,hemitted,fun entry => BlockData.remainder_whole hcut,
    htxs,hfinal,by omega,?_,?_⟩
  · -- the restart is taken by the first call
    obtain ⟨call,rest,rfl⟩ := List.exists_cons_of_ne_nil hne
    have hfirst := hdata.pieces call List.mem_cons_self
    rw [← hslots,slotCalls,List.cons_append,trackedRun,trackedRun]
    rw [trackedCall_restart rfl hfirst.2.1 hfirst.1]
  · rw [hemitted,List.length_map,List.length_drop]
    omega
  · rw [htxs,List.length_map,List.length_drop]
    omega

def cutBlock : BlockData plainChain where
  entries := [⟨0,0,2,7,1⟩,⟨1,2,0,8,1⟩,⟨2,2,1,9,1⟩]
  txs := [(⟨[10],0⟩,⟨true,()⟩),(⟨[11],0⟩,⟨true,()⟩),(⟨[12],0⟩,⟨false,()⟩)]
  indexed := by
    intro k entry h
    match k, h with
    | 0, h | 1, h | 2, h => cases h; rfl
  contiguous := by
    intro k entry h
    match k, h with
    | 0, h | 1, h | 2, h => cases h; rfl
  counted := rfl

def cutData : List (SchedulerCall plainChain) :=
  [.insertTransaction 1 2 ⟨[12],0⟩ ⟨false,()⟩,.pushEntry 1 ⟨0,0,2,7,1⟩,.pushEntry 1 ⟨1,2,0,8,1⟩,
    .insertTransaction 1 1 ⟨[11],0⟩ ⟨true,()⟩,.pushEntry 1 ⟨2,2,1,9,1⟩,
    .insertTransaction 1 0 ⟨[10],0⟩ ⟨true,()⟩]

def cutCalls : List (SchedulerCall plainChain) :=
  [.insertTransaction 1 0 ⟨[10],0⟩ ⟨true,()⟩,.insertTransaction 1 1 ⟨[11],0⟩ ⟨true,()⟩,
    .pushEntry 1 ⟨0,0,2,7,1⟩]

theorem cutData_delivery : SlotDelivery cutBlock 1 cutData := by
  refine ⟨?_,rfl,?_⟩
  · simp [cutData,SchedulerCall.slot,SchedulerCall.IsData,BlockData.Delivers,cutBlock]
  · intro index tx statusMeta h
    have hlt : index < 3 := (List.getElem?_eq_some_iff.mp h).1
    interval_cases index <;> cases h <;> simp [cutData]

/-- The first entry had gone out, and one of its two transactions was executed. -/
theorem cutBlock_resumed : ∃ state history final events,
    tickScheduler.run 1 cutCalls = .ok (state,history) ∧
    (emittedEntries history.events).map (·.entryIndex) = [0] ∧
    tickScheduler.trackedRun ⟨true,1,0,1,true⟩ state (cutData ++ [cutBlock.metadataCall 1]) =
      .ok (⟨false,1,0,1,true⟩,final,events) ∧
    (emittedEntries events).map (fun entry => (entry.entryIndex,entry.startIndex,entry.txCount)) =
      [(0,1,1),(1,2,0),(2,2,1)] ∧ 1 ≤ final.lastFinalizedSlot := by
  obtain ⟨final,events,-,hrun,hemitted,-,-,-,hfinal,-⟩ := restart_emits_remainder tickScheduler
    (Nat.le_refl 1) (fun _ => cutBlock) cutCalls rfl
    (by
      simp only [Supplied,cutCalls,List.forall_mem_cons]
      exact ⟨⟨rfl,Nat.le_refl 1,rfl⟩,⟨rfl,Nat.le_refl 1,rfl⟩,
        ⟨rfl,Nat.le_refl 1,List.mem_cons_self⟩,by simp⟩)
    (Nat.le_refl 1) (by decide) rfl (⟨by decide,by decide,.inr (by decide)⟩ : cutBlock.Cut 0 1)
    cutData cutData_delivery true
  refine ⟨_,_,final,events,rfl,rfl,hrun (fun h => by cases h),?_,hfinal⟩
  rw [hemitted]
  rfl

end Jetstreamer.Node
