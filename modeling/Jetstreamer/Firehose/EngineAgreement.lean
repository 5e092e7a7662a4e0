import Jetstreamer.Firehose.Geyser
import Jetstreamer.Firehose.Worker
import Jetstreamer.Firehose.BlockRuns
set_option autoImplicit false

namespace Jetstreamer.Firehose
open Lib

variable {C : CarTypes}

@[simp] theorem notifications_append (log more : List (Record C)) :
    notifications (log ++ more) = notifications log ++ notifications more :=
  List.filterMap_append

@[simp] theorem notifications_nil : notifications ([] : List (Record C)) = [] := rfl

theorem notifications_skipRecords (lastEmitted first n : Nat) :
    notifications (skipRecords lastEmitted first n : List (Record C)) = [] := by
  induction n generalizing first with
  | zero => rfl
  | succ n ih =>
    have hrest := ih (first+1)
    simp only [notifications,skipRecords,List.filterMap_append,List.filterMap_cons] at hrest ⊢
    rw [hrest]
    split <;> rfl

section Clean

variable {s : BlockState C}

theorem decode_clean (h : s.faults = []) : s.decode = .ok s := by
  rw [BlockState.decode,h]

theorem call_clean (h : s.faults = []) (made : Call C) :
    s.call made = .ok { s with log := s.log ++ [.call made true] } := by
  rw [BlockState.call,h]

def BlockState.view (s : BlockState C) : GeyserBlock C :=
  ⟨s.latestEntryBlockhash,s.entryIndex,s.executedTransactionCount,s.entryCount,
    notifications s.log⟩

variable {handlers : Handlers}

theorem processNode_clean (htx : handlers.tx = true) (hentry : handlers.entry = true)
    (h : s.faults = []) (slot : Nat) (node : Node C) :
    ∃ t, processNode handlers slot s node = .ok t ∧ t.faults = [] ∧
      t.view = geyserNode slot s.view node := by
  cases node with
  | transaction index tx =>
    simp only [processNode,htx,decode_clean h,ok_bind,call_clean h]
    refine ⟨_,rfl,h,?_⟩
    simp only [BlockState.view,notifications_append]
    rfl
  | entry numHashes hash transactions =>
    simp only [processNode,hentry]
    rw [call_clean (by exact h)]
    refine ⟨_,rfl,h,?_⟩
    simp only [BlockState.view,geyserNode]
    simp [notifications,Record.notification,Call.notification]
  | rewards data =>
    simp only [processNode]
    split
    · rw [decode_clean h,ok_bind]
      cases data with
      | none =>
        dsimp only
        split
        · rw [call_clean (by exact h)]
          refine ⟨_,rfl,h,?_⟩
          simp only [BlockState.view,geyserNode]
          simp [notifications,Record.notification,Call.notification]
        · exact ⟨_,rfl,h,rfl⟩
      | some rewards =>
        dsimp only
        split
        · rw [call_clean h]
          refine ⟨_,rfl,h,?_⟩
          simp only [BlockState.view,geyserNode]
          simp [notifications,Record.notification,Call.notification]
        · exact ⟨_,rfl,h,rfl⟩
    · exact ⟨s,rfl,h,rfl⟩
  | other => exact ⟨s,rfl,h,rfl⟩

theorem processNodes_clean (htx : handlers.tx = true) (hentry : handlers.entry = true)
    (h : s.faults = []) (slot : Nat) (nodes : List (Node C)) :
    ∃ t, processNodes handlers slot s nodes = .ok t ∧ t.faults = [] ∧
      t.view = nodes.foldl (geyserNode slot) s.view := by
  induction nodes generalizing s with
  | nil => exact ⟨s,rfl,h,rfl⟩
  | cons node rest ih =>
    obtain ⟨t,ht,hfaults,hview⟩ := processNode_clean htx hentry h slot node
    obtain ⟨u,hu,hfaults,hrest⟩ := ih hfaults
    refine ⟨u,?_,hfaults,by rw [hrest,hview]; rfl⟩
    simp only [processNodes,List.foldlM_cons,ht]
    exact hu

theorem skipSlots_clean (h : s.faults = []) (epoch : Nat) (slots : List Nat) :
    ∃ t, skipSlots handlers epoch s slots = .ok t ∧ t.faults = [] := by
  induction slots generalizing s with
  | nil => exact ⟨s,rfl,h⟩
  | cons slot rest ih =>
    simp only [skipSlots]
    split
    · split
      · split
        · rw [call_clean (by exact h)]
          exact ih h
        · exact ih h
      · split
        · rw [call_clean (by exact h)]
          exact ih h
        · exact ih h
    · exact ⟨s,rfl,h⟩

theorem processBlock_clean (h : s.faults = []) (workStealing : Bool) (block : Block) :
    ∃ t, processBlock handlers workStealing block s = .ok t := by
  have hskip : ∃ t, skipSlots handlers (slotToEpoch s.lastCounted) s
      (List.range' (s.lastCounted+1) (block.slot - (s.lastCounted+1))) = .ok t ∧ t.faults = [] :=
    skipSlots_clean h _ _
  obtain ⟨t,ht,hfaults⟩ := hskip
  simp only [processBlock,ht,ok_bind]
  split
  · exact ⟨_,rfl⟩
  · split
    · rw [call_clean (by exact hfaults)]
      exact ⟨_,rfl⟩
    · exact ⟨_,rfl⟩

end Clean

section Nodes

variable {slot : Nat} {nodes : List (Node C)}

theorem geyserNodes_length (slot : Nat) (s : GeyserBlock C) (nodes : List (Node C)) :
    (nodes.foldl (geyserNode slot) s).log.length = s.log.length +
      nodes.countP Node.isAnnounced := by
  induction nodes generalizing s with
  | nil => rfl
  | cons node rest ih =>
    rw [List.foldl_cons,ih,List.countP_cons]
    cases node <;> simp [geyserNode,Node.isAnnounced] <;> omega

theorem geyserNodes_quiet (s : GeyserBlock C) (h : nodes.countP Node.isAnnounced = 0) :
    nodes.foldl (geyserNode slot) s = s := by
  induction nodes with
  | nil => rfl
  | cons node rest ih =>
    rw [List.countP_cons] at h
    have hnode : geyserNode slot s node = s := by
      cases node <;> simp_all [geyserNode,Node.isAnnounced]
    rw [List.foldl_cons,hnode]
    exact ih (by omega)

theorem lastEntryHash_quiet {batch : Batch C} (h : batch.nodes.countP Node.isAnnounced = 0) :
    lastEntryHash batch = none := by
  rw [lastEntryHash,List.findSome?_eq_none_iff]
  intro node hmem
  have hnode := List.countP_eq_zero.mp h node (List.mem_reverse.mp hmem)
  cases node <;> simp_all [Node.isAnnounced,Node.entryHash]

end Nodes

/-- The two engines have announced the same, up to the nodes of dropped blocks. -/
structure Follows (w : Worker C) (g : GeyserThread C) : Prop where
  start : g.start = w.start
  stop : g.stop = w.stop
  length : (notifications w.log).length = g.log.length + announced g.dropped
  same : announced g.dropped = 0 → notifications w.log = g.log

/-- The two engines are at the same place of the same epoch. -/
structure SliceSim (w : Worker C) (pass : Pass) (reader : Reader C) (stream : List (Batch C))
    (g : GeyserThread C) : Prop where
  follows : Follows w g
  phase : ∃ previous latest, g.phase = .reading pass.epochs
      { reader with
        stream := stream
        previousBlockhash := previous
        latestEntryBlockhash := latest } ∧
    (announced g.dropped = 0 → previous = reader.previousBlockhash ∧
      latest = reader.latestEntryBlockhash ∧
      reader.previousBlockhash = reader.latestEntryBlockhash)
  counted : g.lastCounted = w.lastCounted
  startLe : w.start ≤ reader.localStart
  startPos : 1 ≤ w.start
  countedFrom : reader.localStart ≤ w.lastCounted + 1
  countedBelow : w.lastCounted < w.stop - 1
  countedEpoch : w.lastCounted ≤ epochEnd reader.epoch
  endLe : reader.localEnd ≤ epochEnd reader.epoch
  emitted : pass.lastEmitted ≤ w.lastCounted
  pending : ∀ slot ∈ w.pendingSkips, slot ≤ pass.lastEmitted
  epochs : ∃ k, pass.epochs = List.range' (reader.epoch+1) k

structure BetweenSim (w : Worker C) (pass : Pass) (g : GeyserThread C) : Prop where
  follows : Follows w g
  phase : g.phase = .between pass.epochs
  startPos : 1 ≤ w.start
  pending : w.pendingSkips = []
  epochs : ∃ first k, pass.epochs = List.range' first k ∧
    pass.lastEmitted ≤ max w.start (epochStart first) - 1

inductive EngineSim (w : Worker C) (g : GeyserThread C) : Prop where
  | between {pass : Pass} (hphase : w.phase = .between pass) (hsim : BetweenSim w pass g)
  | reading {pass : Pass} {reader : Reader C} (hphase : w.phase = .reading pass reader)
      (hsim : SliceSim w pass reader reader.stream g)
  | heldBatch {pass : Pass} {reader : Reader C} {batch : Batch C}
      (hphase : w.phase = .held pass reader (some batch))
      (hsim : SliceSim w pass reader (batch :: reader.stream) g)
  | heldEnd {pass : Pass} {reader : Reader C} (hphase : w.phase = .held pass reader none)
      (hstream : reader.stream = []) (hsim : SliceSim w pass reader [] g)
  | finished (hphase : w.phase = .completed) (hdone : g.phase = .finished)
      (hfollows : Follows w g)

section Steps

variable {settings : Settings C} {w w' : Worker C} {g : GeyserThread C} {pass : Pass}
  {reader : Reader C} {batch : Batch C}

section

variable (hsingle : settings.Single)
include hsingle

theorem Settings.Single.localStart (w : Worker C) (epoch : Nat) :
    w.localStart settings epoch = max w.start (epochStart epoch) := by
  simp only [Worker.localStart,hsingle.forward,Bool.false_eq_true,if_false]

theorem BetweenSim.open (hsim : BetweenSim w pass g)
    (h : w.openEpoch settings pass .opened = some w') : EngineSim w' (g.step settings.source) := by
  obtain ⟨first,k,hepochs,hlast⟩ := hsim.epochs
  cases k with
  | zero =>
    have hnil : pass.epochs = [] := hepochs
    simp only [Worker.openEpoch,hnil] at h
    cases h
    refine .finished rfl ?_ ?_
    · simp [GeyserThread.step,hsim.phase,hnil]
    · have hfollows := hsim.follows
      simp only [GeyserThread.step,hsim.phase,hnil]
      exact ⟨hfollows.start,hfollows.stop,hfollows.length,hfollows.same⟩
  | succ k =>
    rw [List.range'_succ] at hepochs
    have hstep : g.step settings.source =
        g.enterEpoch settings.source (List.range' (first+1) k) first := by
      simp [GeyserThread.step,hsim.phase,hepochs]
    have hstart : g.localStart first = w.localStart settings first := by
      rw [hsingle.localStart,GeyserThread.localStart,hsim.follows.start]
    have hend : g.localEnd first = w.localEnd first := by
      rw [GeyserThread.localEnd,Worker.localEnd,hsim.follows.stop]
    have hfollows := hsim.follows
    simp only [Worker.openEpoch,hepochs] at h
    rw [hstep,GeyserThread.enterEpoch,hstart,hend]
    split at h
    · rename_i hempty
      cases h
      rw [if_pos hempty]
      refine .between rfl ⟨⟨hfollows.start,hfollows.stop,hfollows.length,hfollows.same⟩,rfl,
        hsim.startPos,hsim.pending,first+1,k,rfl,hlast.trans ?_⟩
      have := epochStart_succ first
      have := epochStart_le_epochEnd first
      simp only
      omega
    · rename_i hslots
      obtain ⟨stream,hopen,rfl⟩ := Option.map_eq_some_iff.mp h
      rw [if_neg hslots,hopen]
      have hlocal := hsingle.localStart w first
      have hlow : w.localEnd first ≤ w.stop - 1 := min_le_left _ _
      have hhigh : w.localEnd first ≤ epochEnd first := min_le_right _ _
      have hpos := hsim.startPos
      refine .reading rfl ⟨⟨hfollows.start,hfollows.stop,hfollows.length,hfollows.same⟩,
        ⟨_,_,rfl,fun _ => ⟨rfl,rfl,rfl⟩⟩,rfl,?_,?_,?_,?_,?_,hhigh,?_,?_,k,rfl⟩
      · exact hlocal ▸ le_max_left _ _
      · exact hpos
      · simp only [Worker.startReading]
        omega
      · simp only [Worker.startReading]
        omega
      · simp only [Worker.startReading]
        omega
      · simp only [Worker.startReading,hsingle.forward,Bool.false_eq_true,if_false]
        omega
      · simp only [Worker.startReading,hsim.pending]
        simp

theorem SliceSim.finishEpoch {stream : List (Batch C)}
    (hsim : SliceSim w pass reader stream g) :
    EngineSim (w.finishEpoch settings pass reader.epoch)
      { g with phase := .between pass.epochs } := by
  obtain ⟨k,hepochs⟩ := hsim.epochs
  have hfollows := hsim.follows
  refine .between rfl ⟨⟨hfollows.start,hfollows.stop,hfollows.length,hfollows.same⟩,rfl,?_,?_,
    reader.epoch+1,k,hepochs,?_⟩
  · exact hsim.startPos
  · simp only [Worker.finishEpoch,hsingle.block,if_true]
  · have := hsim.emitted
    have := hsim.countedEpoch
    have := epochStart_succ reader.epoch
    omega

theorem SliceSim.endStream (hsim : SliceSim w pass reader [] g) :
    EngineSim (w.endStream settings pass reader) (g.step settings.source) ∨
      (w.endStream settings pass reader).phase = .backoff := by
  obtain ⟨previous,latest,hphase,_⟩ := hsim.phase
  simp only [Worker.endStream]
  split
  · exact .inr rfl
  · rename_i hnone
    refine .inl ?_
    have hstep : g.step settings.source = { g with phase := .between pass.epochs } := by
      simp only [GeyserThread.step,hphase,GeyserThread.endStream,hsim.counted,hsim.follows.stop]
      rw [if_neg hnone]
    rw [hstep]
    exact hsim.finishEpoch hsingle

theorem emit_clean (w : Worker C) (pass : Pass) (reader : Reader C)
    (batch : Batch C) :
    ∃ t u, NodesRun batch.slot (w.blockState pass reader []) t ∧
      t.view = batch.nodes.foldl (geyserNode batch.slot)
        ⟨reader.latestEntryBlockhash,0,0,0,notifications w.log⟩ ∧
      processBlock settings.handlers settings.workStealing batch.block t = .ok u ∧
      w.emit settings pass reader batch [] =
        { w.afterBlock u with
          phase := if batch.slot = w.stop - 1 then .completed
            else .reading { pass with lastEmitted := u.lastEmitted, currentSlot := some batch.slot }
              { reader with
                previousBlockhash := u.previousBlockhash
                latestEntryBlockhash := u.latestEntryBlockhash } } := by
  have hstart : (w.blockState pass reader []).faults = [] := rfl
  obtain ⟨t,hnodes,hfaults,hview⟩ :=
    processNodes_clean hsingle.tx hsingle.entry hstart batch.slot batch.nodes
  have hclean : ∃ u, processBlock settings.handlers settings.workStealing batch.block t = .ok u :=
    processBlock_clean hfaults _ _
  obtain ⟨u,hblock⟩ := hclean
  refine ⟨t,u,processNodes_run_ok hnodes,hview,hblock,?_⟩
  simp [Worker.emit,processBatch,hnodes,hblock,hsingle.forward]

end

theorem notifications_counted {new : List (Record C)}
    (h : ∀ record ∈ new, ∃ slot, record = .counted slot) : notifications new = [] := by
  rw [notifications,List.filterMap_eq_nil_iff]
  intro record hmem
  obtain ⟨slot,rfl⟩ := h record hmem
  rfl

theorem step_dropped (src : Source C) (hstart : g.start = w.start) (hstop : g.stop = w.stop)
    (hcounted : g.lastCounted = w.lastCounted) {previous latest : C.Hash}
    (hphase : g.phase = .reading pass.epochs
      { reader with
        stream := batch :: reader.stream
        previousBlockhash := previous
        latestEntryBlockhash := latest })
    (hslice : batch.slot ≤ reader.localEnd) (hbelow : batch.slot < w.stop)
    (hrange : w.start ≤ batch.slot) (hstale : batch.slot ≤ w.lastCounted) :
    ∃ previous' latest',
      g.step src =
        { g with
          dropped := g.dropped ++ [batch]
          phase := .reading pass.epochs
            { reader with previousBlockhash := previous', latestEntryBlockhash := latest' } } ∧
      (batch.nodes.countP Node.isAnnounced = 0 → previous' = previous ∧ latest' = latest) := by
  have hslice' : ¬reader.localEnd < batch.slot := by omega
  have hbelow' : ¬w.stop ≤ batch.slot := by omega
  simp only [GeyserThread.step,hphase,GeyserThread.readBatch,hslice',if_false,hstop,hbelow',hstart,
    hcounted]
  split
  · refine ⟨_,_,rfl,fun hquiet => ?_⟩
    rw [lastEntryHash_quiet hquiet]
    exact ⟨rfl,rfl⟩
  · exact ⟨_,_,rfl,fun _ => ⟨rfl,rfl⟩⟩

theorem SliceSim.emitStale (hsingle : settings.Single)
    (hsim : SliceSim w pass reader (batch :: reader.stream) g)
    (hslice : batch.slot ≤ reader.localEnd) (hstop : batch.slot < w.stop)
    (hstart : w.start ≤ batch.slot) (hstale : batch.slot ≤ w.lastCounted) :
    EngineSim (w.emit settings pass reader batch []) (g.step settings.source) := by
  obtain ⟨previous,latest,hphase,hchain⟩ := hsim.phase
  obtain ⟨t,u,hnodes,hview,hblock,hemit⟩ := emit_clean hsingle w pass reader batch
  have hcounted : t.lastCounted = w.lastCounted := hnodes.lastCounted
  have hemitted : t.lastEmitted = pass.lastEmitted := hnodes.lastEmitted
  have hpending : t.pendingSkips = w.pendingSkips := hnodes.pendingSkips
  have hprevious : t.previousBlockhash = reader.previousBlockhash := hnodes.previousBlockhash
  have hstale' : batch.block.slot ≤ t.lastCounted := hcounted ▸ hstale
  obtain ⟨v,hblock',hrun⟩ := processBlock_stale settings.handlers settings.workStealing hstale'
    (by rw [hpending,hemitted]; exact hsim.pending)
  obtain rfl : u = v := Except.ok.inj (hblock.symm.trans hblock')
  obtain ⟨new,hlog,hnew⟩ := hrun.log
  have hlog : notifications u.log = notifications t.log := by
    rw [hlog,notifications_append,notifications_counted hnew,List.append_nil]
  have hlength : (notifications u.log).length =
      (notifications w.log).length + batch.nodes.countP Node.isAnnounced := by
    rw [hlog]
    have hview' := congrArg (fun s : GeyserBlock C => s.log.length) hview
    rw [geyserNodes_length] at hview'
    exact hview'
  have hnot : batch.slot ≠ w.stop - 1 := by
    have := hsim.countedBelow
    omega
  obtain ⟨previous',latest',hstep,hsame⟩ := step_dropped settings.source hsim.follows.start
    hsim.follows.stop hsim.counted hphase hslice hstop hstart hstale
  have hsum : announced (g.dropped ++ [batch]) =
      announced g.dropped + batch.nodes.countP Node.isAnnounced := by
    simp [announced]
  -- without announced nodes the first engine's variables stay as they were
  have hquiet : announced (g.dropped ++ [batch]) = 0 → announced g.dropped = 0 ∧
      batch.nodes.countP Node.isAnnounced = 0 ∧
      t.view = ⟨reader.latestEntryBlockhash,0,0,0,notifications w.log⟩ := by
    intro h
    have hbatch : batch.nodes.countP Node.isAnnounced = 0 := by omega
    rw [geyserNodes_quiet _ hbatch] at hview
    exact ⟨by omega,hbatch,hview⟩
  rw [hemit,hstep,if_neg hnot]
  refine .reading rfl ⟨⟨hsim.follows.start,hsim.follows.stop,?_,fun h => ?_⟩,
    ⟨previous',latest',rfl,fun h => ?_⟩,?_,hsim.startLe,hsim.startPos,?_,?_,?_,hsim.endLe,?_,?_,
    hsim.epochs⟩
  · have := hsim.follows.length
    simp only [Worker.afterBlock]
    omega
  · obtain ⟨hdropped,_,hview⟩ := hquiet h
    have hnotified : notifications t.log = notifications w.log :=
      congrArg GeyserBlock.log hview
    exact (hlog.trans hnotified).trans (hsim.follows.same hdropped)
  · obtain ⟨hdropped,hbatch,hview⟩ := hquiet h
    have hlatest : t.latestEntryBlockhash = reader.latestEntryBlockhash :=
      congrArg GeyserBlock.latestEntryBlockhash hview
    obtain ⟨rfl,rfl,hequal⟩ := hchain hdropped
    obtain ⟨rfl,rfl⟩ := hsame hbatch
    have hkept : u.previousBlockhash = reader.previousBlockhash := by
      rcases hrun.previousBlockhash with h | h
      · rw [h,hprevious]
      · rw [h,hlatest,hequal]
    refine ⟨hkept.symm,?_,?_⟩
    · exact (hrun.latestEntryBlockhash.trans hlatest).symm
    · rw [hkept,hrun.latestEntryBlockhash,hlatest,hequal]
  · exact hsim.counted.trans (hcounted.symm.trans hrun.lastCounted.symm)
  all_goals simp only [Worker.afterBlock,hrun.lastCounted,hcounted,hrun.lastEmitted,hemitted]
  · exact hsim.countedFrom
  · exact hsim.countedBelow
  · exact hsim.countedEpoch
  · exact hsim.emitted
  · intro slot hmem
    exact hsim.pending slot (hpending ▸ hrun.pendingSkips slot hmem)

theorem step_notifyBlock (src : Source C) (hstop : g.stop = w.stop)
    (hcounted : g.lastCounted = w.lastCounted) {current : Reader C}
    (hphase : g.phase = .reading pass.epochs { current with stream := batch :: current.stream })
    (hslice : batch.slot ≤ current.localEnd) (hbelow : batch.slot < w.stop)
    (hlocal : current.localStart ≤ batch.slot) (hfresh : w.lastCounted < batch.slot) :
    g.step src = g.notifyBlock pass.epochs current batch := by
  have hslice' : ¬current.localEnd < batch.slot := by omega
  have hbelow' : ¬w.stop ≤ batch.slot := by omega
  have hlocal' : ¬batch.slot < current.localStart := by omega
  have hfresh' : ¬batch.slot ≤ w.lastCounted := by omega
  simp only [GeyserThread.step,hphase,GeyserThread.readBatch,hslice',if_false,hstop,hbelow',
    hlocal',hcounted,hfresh']

theorem SliceSim.emitFresh (hsingle : settings.Single)
    (hsim : SliceSim w pass reader (batch :: reader.stream) g)
    (hslice : batch.slot ≤ reader.localEnd) (hstop : batch.slot < w.stop)
    (hfresh : w.lastCounted < batch.slot) :
    EngineSim (w.emit settings pass reader batch []) (g.step settings.source) := by
  obtain ⟨previous,latest,hphase,hchain⟩ := hsim.phase
  obtain ⟨t,u,hnodes,hview,hblock,hemit⟩ := emit_clean hsingle w pass reader batch
  have hcounted : t.lastCounted = w.lastCounted := hnodes.lastCounted
  have hemitted : t.lastEmitted = pass.lastEmitted := hnodes.lastEmitted
  have hpending : t.pendingSkips = w.pendingSkips := hnodes.pendingSkips
  have hprevious : t.previousBlockhash = reader.previousBlockhash := hnodes.previousBlockhash
  have hfresh' : t.lastCounted < batch.block.slot := hcounted ▸ hfresh
  have hdone : ∃ m, BlockDone t u settings.workStealing batch.block m := by
    obtain ⟨m,_,⟨v,hok,hdone,_⟩ | ⟨v,herr,_⟩⟩ :=
      processBlock_run hsingle.block settings.workStealing hfresh'
    · obtain rfl : u = v := Except.ok.inj (hblock.symm.trans hok)
      exact ⟨m,hdone⟩
    · rw [hblock] at herr
      cases herr
  obtain ⟨m,hdone⟩ := hdone
  have hslot : u.lastCounted = batch.slot := hdone.lastCounted
  have habove : t.lastEmitted < batch.block.slot := by
    have := hsim.emitted
    omega
  have hlast : u.lastEmitted = batch.slot := by
    rw [hdone.lastEmitted]
    exact max_eq_right habove.le
  have hlog : notifications u.log = notifications t.log ++
      [.block batch.slot batch.block.parentSlot t.previousBlockhash t.latestEntryBlockhash
        batch.block.blocktime batch.block.blockHeight t.executedTransactionCount t.entryCount] := by
    rw [hdone.log,if_pos habove]
    simp only [notifications_append,notifications_skipRecords,List.append_nil]
    rw [List.append_assoc]
    rfl
  have hcount : (notifications t.log).length =
      (notifications w.log).length + batch.nodes.countP Node.isAnnounced := by
    have hview' := congrArg (fun s : GeyserBlock C => s.log.length) hview
    rw [geyserNodes_length] at hview'
    exact hview'
  have hlocal : reader.localStart ≤ batch.slot := by
    have := hsim.countedFrom
    omega
  have hstep : g.step settings.source = g.notifyBlock pass.epochs
      { reader with previousBlockhash := previous, latestEntryBlockhash := latest } batch :=
    step_notifyBlock settings.source hsim.follows.stop hsim.counted hphase hslice hstop hlocal
      hfresh
  have hsame : announced g.dropped = 0 → g.blockView
      { reader with previousBlockhash := previous, latestEntryBlockhash := latest } batch =
      t.view := by
    intro h
    obtain ⟨_,rfl,_⟩ := hchain h
    rw [hview,hsim.follows.same h]
    rfl
  have hfollows : Follows (w.emit settings pass reader batch []) (g.step settings.source) := by
    rw [hemit,hstep]
    refine ⟨hsim.follows.start,hsim.follows.stop,?_,fun h => ?_⟩
    · simp only [Worker.afterBlock,GeyserThread.notifyBlock,hlog,List.length_append,
      GeyserThread.blockView,geyserNodes_length]
      have := hsim.follows.length
      simp only [List.length_cons]
      omega
    · obtain ⟨rfl,_,_⟩ := hchain h
      simp only [Worker.afterBlock,GeyserThread.notifyBlock,hlog]
      rw [hsame h,hprevious]
      rfl
  have hstops : g.stop = w.stop := hsim.follows.stop
  by_cases hend : batch.slot = w.stop - 1
  · refine .finished ?_ ?_ hfollows
    · rw [hemit,if_pos hend]
    · rw [hstep,GeyserThread.notifyBlock,hstops,if_pos hend]
  · have hreading : (w.emit settings pass reader batch []).phase =
        .reading { pass with lastEmitted := u.lastEmitted, currentSlot := some batch.slot }
          { reader with
            previousBlockhash := u.previousBlockhash
            latestEntryBlockhash := u.latestEntryBlockhash } := by
      rw [hemit]
      exact if_neg hend
    have hreading' : ∃ previous' latest', (g.step settings.source).phase = .reading pass.epochs
        { reader with previousBlockhash := previous', latestEntryBlockhash := latest' } ∧
        (announced g.dropped = 0 → previous' = t.latestEntryBlockhash ∧
          latest' = t.latestEntryBlockhash) := by
      rw [hstep]
      refine ⟨_,_,if_neg (hstops.symm ▸ hend),fun h => ?_⟩
      rw [hsame h]
      exact ⟨rfl,rfl⟩
    obtain ⟨previous',latest',hreading',hhashes⟩ := hreading'
    refine .reading hreading ⟨hfollows,⟨previous',latest',hreading',fun h => ?_⟩,?_,?_,?_,?_,?_,?_,
      hsim.endLe,?_,?_,hsim.epochs⟩
    · have h : announced g.dropped = 0 := by rwa [hstep] at h
      rw [hdone.previousBlockhash,hdone.latestEntryBlockhash]
      exact ⟨(hhashes h).1,(hhashes h).2,rfl⟩
    all_goals simp only [hemit,hstep,Worker.afterBlock,GeyserThread.notifyBlock,hslot,hlast]
    · exact hsim.startLe
    · exact hsim.startPos
    · omega
    · omega
    · exact hslice.trans hsim.endLe
    · exact le_rfl
    · intro slot hmem
      rcases hdone.pendingSkips slot hmem with hold | hnew
      · have := hsim.pending slot (hpending ▸ hold)
        have := hsim.emitted
        omega
      · exact hlast ▸ hnew

theorem SliceSim.proceed (hsingle : settings.Single)
    (hsim : SliceSim w pass reader (batch :: reader.stream) g) :
    EngineSim (w.proceed settings pass reader (some batch) []) (g.step settings.source) := by
  obtain ⟨previous,latest,hphase,hchain⟩ := hsim.phase
  have hfollows := hsim.follows
  simp only [Worker.proceed]
  split
  · rename_i hpast
    have hstep : g.step settings.source = { g with phase := .between pass.epochs } := by
      simp only [GeyserThread.step,hphase,GeyserThread.readBatch,hpast,if_true]
    rw [hstep]
    exact hsim.finishEpoch hsingle
  · rename_i hslice
    split
    · rename_i hpast
      have hstep : g.step settings.source = { g with phase := .finished } := by
        simp only [GeyserThread.step,hphase,GeyserThread.readBatch,hslice,if_false,hfollows.stop,
          hpast,if_true]
      rw [hstep,if_neg (by simp [hsingle.forward])]
      exact .finished rfl rfl ⟨hfollows.start,hfollows.stop,hfollows.length,hfollows.same⟩
    · rename_i hstop
      split
      · rename_i hbelow
        have hlocal : batch.slot < reader.localStart := hbelow.trans_le hsim.startLe
        have hout : ¬w.start ≤ batch.slot := by omega
        have hstep : g.step settings.source =
            { g with
              phase := .reading pass.epochs
                { reader with
                  previousBlockhash := (lastEntryHash batch).getD previous
                  latestEntryBlockhash := (lastEntryHash batch).getD latest } } := by
          simp only [GeyserThread.step,hphase,GeyserThread.readBatch,hslice,if_false,
            hfollows.stop,hstop,hlocal,if_true,hfollows.start,hout]
        rw [hstep]
        refine .reading rfl ⟨⟨hfollows.start,hfollows.stop,hfollows.length,hfollows.same⟩,
          ⟨_,_,rfl,fun h => ?_⟩,hsim.counted,hsim.startLe,hsim.startPos,hsim.countedFrom,
          hsim.countedBelow,hsim.countedEpoch,hsim.endLe,hsim.emitted,hsim.pending,hsim.epochs⟩
        obtain ⟨rfl,rfl,hequal⟩ := hchain h
        exact ⟨rfl,rfl,by simp only [hequal]⟩
      · rcases Nat.lt_or_ge w.lastCounted batch.slot with hfresh | hstale
        · exact hsim.emitFresh hsingle (by omega) (by omega) hfresh
        · exact hsim.emitStale hsingle (by omega) (by omega) (by omega) hstale

theorem EngineSim.step (hsingle : settings.Single) (hsim : EngineSim w g)
    (h : w.cleanStep settings = some w') :
    (∃ k, EngineSim w' (GeyserThread.run settings.source k g)) ∨ w'.phase = .backoff := by
  cases hsim with
  | between hphase hsim =>
    simp only [Worker.cleanStep,hphase,Worker.cleanEvent,Option.bind_some,Worker.step] at h
    exact .inl ⟨1,hsim.open hsingle h⟩
  | @reading pass reader hphase hsim =>
    simp only [Worker.cleanStep,hphase,Worker.cleanEvent,Option.bind_some,Worker.step] at h
    refine .inl ⟨0,?_⟩
    cases hstream : reader.stream with
    | nil =>
      simp only [hstream] at h
      cases h
      rw [hstream] at hsim
      exact .heldEnd rfl hstream
        ⟨⟨hsim.follows.start,hsim.follows.stop,hsim.follows.length,hsim.follows.same⟩,hsim.phase,
          hsim.counted,hsim.startLe,hsim.startPos,hsim.countedFrom,hsim.countedBelow,
          hsim.countedEpoch,hsim.endLe,hsim.emitted,hsim.pending,hsim.epochs⟩
    | cons batch rest =>
      simp only [hstream,Worker.read] at h
      cases h
      rw [hstream] at hsim
      exact .heldBatch rfl
        ⟨⟨hsim.follows.start,hsim.follows.stop,hsim.follows.length,hsim.follows.same⟩,hsim.phase,
          hsim.counted,hsim.startLe,hsim.startPos,hsim.countedFrom,hsim.countedBelow,
          hsim.countedEpoch,hsim.endLe,hsim.emitted,hsim.pending,hsim.epochs⟩
  | heldBatch hphase hsim =>
    simp only [Worker.cleanStep,hphase,Worker.cleanEvent,Option.bind_some,Worker.step] at h
    cases h
    exact .inl ⟨1,hsim.proceed hsingle⟩
  | heldEnd hphase hstream hsim =>
    simp only [Worker.cleanStep,hphase,Worker.cleanEvent,Option.bind_some,Worker.step] at h
    cases h
    exact (hsim.endStream hsingle).imp (fun hnext => ⟨1,hnext⟩) id
  | finished hphase hdone hfollows =>
    simp only [Worker.cleanStep,hphase] at h
    cases h

theorem run_add (src : Source C) (k m : Nat) (g : GeyserThread C) :
    GeyserThread.run src m (GeyserThread.run src k g) = GeyserThread.run src (k+m) g := by
  induction k generalizing g with
  | zero => rw [GeyserThread.run,Nat.zero_add]
  | succ k ih =>
    rw [GeyserThread.run,ih,Nat.add_right_comm]
    rfl

theorem EngineSim.run (hsingle : settings.Single) {n : Nat} (hsim : EngineSim w g)
    (h : w.cleanRun settings n = some w') (hcompleted : w'.phase = .completed) :
    ∃ m, (GeyserThread.run settings.source m g).phase = .finished ∧
      Follows w' (GeyserThread.run settings.source m g) := by
  induction n generalizing w g with
  | zero =>
    cases h
    cases hsim with
    | finished _ hdone hfollows => exact ⟨0,hdone,hfollows⟩
    | between hphase _ | reading hphase _ | heldBatch hphase _ | heldEnd hphase _ _ =>
      rw [hcompleted] at hphase
      cases hphase
  | succ n ih =>
    obtain ⟨next,hstep,hrest⟩ := Option.bind_eq_some_iff.mp h
    rcases hsim.step hsingle hstep with ⟨k,hnext⟩ | hbackoff
    · obtain ⟨m,hdone,hfollows⟩ := ih hnext hrest
      rw [run_add] at hdone hfollows
      exact ⟨k+m,hdone,hfollows⟩
    · cases n with
      | zero =>
        cases hrest
        rw [hcompleted] at hbackoff
        cases hbackoff
      | succ n =>
        simp only [Worker.cleanRun,Worker.cleanStep,hbackoff] at hrest
        cases hrest

end Steps

/-- The run of a thread in which nothing fails comes to an end. -/
def Worker.Halts (settings : Settings C) (w : Worker C) : Prop :=
  ∃ n w', w.cleanRun settings n = some w' ∧ w'.cleanStep settings = none

section Halts

variable {settings : Settings C} {w : Worker C}

theorem Worker.Halts.of_step (h : ∀ w', w.cleanStep settings = some w' → w'.Halts settings) :
    w.Halts settings := by
  cases hstep : w.cleanStep settings with
  | none => exact ⟨0,w,rfl,hstep⟩
  | some next =>
    obtain ⟨n,w',hrun,hend⟩ := h next hstep
    exact ⟨n+1,w',by simp only [Worker.cleanRun,hstep,Option.bind_some,hrun],hend⟩

theorem Worker.Halts.of_ended (h : Worker.cleanEvent w.phase = none) : w.Halts settings :=
  ⟨0,w,rfl,by simp only [Worker.cleanStep,h,Option.bind_none]⟩

theorem proceed_halts {rest : List Nat} {stream : List (Batch C)}
    (hnext : ∀ w : Worker C, ∀ pass, w.phase = .between pass → pass.epochs = rest →
      w.Halts settings)
    (hread : ∀ w : Worker C, ∀ pass reader, w.phase = .reading pass reader → pass.epochs = rest →
      reader.stream = stream → w.Halts settings)
    {pass : Pass} {reader : Reader C} (hepochs : pass.epochs = rest)
    (hstream : reader.stream = stream) (item : Option (Batch C)) :
    (w.proceed settings pass reader item []).Halts settings := by
  cases item with
  | none =>
    simp only [Worker.proceed,Worker.endStream]
    split
    · exact .of_ended rfl
    · exact hnext _ pass rfl hepochs
  | some batch =>
    simp only [Worker.proceed]
    split
    · exact hnext _ pass rfl hepochs
    · split
      · split
        · exact hnext _ pass rfl hepochs
        · exact .of_ended rfl
      · split
        · exact hread _ _ _ rfl hepochs hstream
        · simp only [Worker.emit]
          split
          · exact .of_ended rfl
          · by_cases hend : (!settings.reverse && batch.slot == w.stop - 1) = true
            · refine .of_ended ?_
              simp only [if_pos hend,Worker.cleanEvent]
            · exact hread _ _ _ (if_neg hend) hepochs hstream

theorem reading_halts {rest : List Nat}
    (hnext : ∀ w : Worker C, ∀ pass, w.phase = .between pass → pass.epochs = rest →
      w.Halts settings)
    (stream : List (Batch C)) (w : Worker C) (pass : Pass) (reader : Reader C)
    (hphase : w.phase = .reading pass reader) (hepochs : pass.epochs = rest)
    (hstream : reader.stream = stream) : w.Halts settings := by
  induction stream generalizing w pass reader with
  | nil =>
    refine .of_step fun held hheld => .of_step fun w' hw' => ?_
    simp only [Worker.cleanStep,hphase,Worker.cleanEvent,Option.bind_some,Worker.step,
      hstream] at hheld
    cases hheld
    simp only [Worker.cleanStep,Worker.cleanEvent,Option.bind_some,Worker.step,Worker.proceed,
      Worker.endStream] at hw'
    cases hw'
    split
    · exact .of_ended rfl
    · exact hnext _ pass rfl hepochs
  | cons batch stream ih =>
    refine .of_step fun held hheld => .of_step fun w' hw' => ?_
    simp only [Worker.cleanStep,hphase,Worker.cleanEvent,Option.bind_some,Worker.step,hstream,
      Worker.read] at hheld
    cases hheld
    cases hw'
    exact proceed_halts hnext ih hepochs rfl _

theorem between_halts (epochs : List Nat) (w : Worker C) (pass : Pass)
    (hphase : w.phase = .between pass) (hepochs : pass.epochs = epochs) : w.Halts settings := by
  induction epochs generalizing w pass with
  | nil =>
    refine .of_step fun w' hw' => ?_
    simp only [Worker.cleanStep,hphase,Worker.cleanEvent,Option.bind_some,Worker.step,
      Worker.openEpoch,hepochs] at hw'
    cases hw'
    exact .of_ended rfl
  | cons epoch rest ih =>
    refine .of_step fun w' hw' => ?_
    simp only [Worker.cleanStep,hphase,Worker.cleanEvent,Option.bind_some,Worker.step,
      Worker.openEpoch,hepochs] at hw'
    split at hw'
    · cases hw'
      exact ih _ _ rfl rfl
    · obtain ⟨stream,hopen,rfl⟩ := Option.map_eq_some_iff.mp hw'
      exact reading_halts ih stream _ _ _ rfl rfl rfl

end Halts

def Worker.started (settings : Settings C) (start stop : Nat) : Worker C :=
  { Worker.spawn settings start stop with phase := .restart }

theorem EngineSim.started {settings : Settings C} (hsingle : settings.Single) {start stop : Nat}
    (hstart : 1 ≤ start) :
    EngineSim ((Worker.started settings start stop).beginPass settings)
      (GeyserThread.spawn start stop) := by
  simp only [Worker.beginPass,Worker.passEpochs,hsingle.forward]
  refine .between rfl ⟨⟨rfl,rfl,rfl,fun _ => rfl⟩,rfl,hstart,rfl,_,_,rfl,?_⟩
  exact Nat.sub_le_sub_right (le_max_left _ _) 1

/-- A run of the first engine without errors ends; if it ends with its range completed, the
second engine ends too, and the two have made the same announcements exactly if no block
that the second one dropped holds a transaction or an entry. -/
theorem engines_agree_iff {settings : Settings C} (hsingle : settings.Single) {start stop : Nat}
    (hstart : 1 ≤ start) :
    ∃ n w, (Worker.started settings start stop).cleanRun settings n = some w ∧
      w.cleanStep settings = none ∧
      (w.phase = .completed → ∃ m g, GeyserThread.run settings.source m
          (GeyserThread.spawn start stop) = g ∧ g.phase = .finished ∧
        (notifications w.log = g.log ↔
          ∀ batch ∈ g.dropped, ∀ node ∈ batch.nodes, node.isAnnounced = false)) := by
  have hhalts : (Worker.started settings start stop).Halts settings := by
    refine .of_step fun w' hw' => ?_
    cases hw'
    simp only [Worker.beginPass,Worker.passEpochs,hsingle.forward]
    exact between_halts _ _ _ rfl rfl
  obtain ⟨n,w,hrun,hend⟩ := hhalts
  refine ⟨n,w,hrun,hend,fun hcompleted => ?_⟩
  cases n with
  | zero =>
    cases hrun
    cases hcompleted
  | succ n =>
    obtain ⟨m,hdone,hfollows⟩ := (EngineSim.started hsingle hstart).run hsingle hrun hcompleted
    refine ⟨m,_,rfl,hdone,?_⟩
    rw [← announced_eq_zero_iff]
    refine ⟨fun hsame => ?_,hfollows.same⟩
    have := hfollows.length
    rw [hsame] at this
    omega

def sampleTypes : CarTypes :=
  { Tx := Nat, Rewards := Unit, Hash := Nat, noRewards := (), zeroHash := 0 }

/-- An epoch whose first slot's block, with one entry, stands in the CAR `copies` times. -/
def repeatedBlock (copies : Nat) : Source sampleTypes :=
  { car := fun epoch =>
      if epoch = 1 then List.replicate copies ⟨[.entry 1 (7 : Nat) 0],⟨432000,431999,0,none⟩⟩
        else []
    slotToRange := fun slot => if slot = 432000 then .found else .notFound
    scannable := fun _ => true
    streamFrom := fun _ _ => []
    streamAfter := fun _ _ => [] }

def singleSettings (source : Source sampleTypes) : Settings sampleTypes :=
  ⟨source,⟨true,true,true,false⟩,false,false⟩

theorem singleSettings_single (source : Source sampleTypes) : (singleSettings source).Single :=
  ⟨rfl,rfl,rfl,rfl,rfl⟩

/-- A block that stands twice in the CAR: the first engine announces its entry again. -/
theorem engines_differ_repeated :
    ∃ n w m g,
      (Worker.started (singleSettings (repeatedBlock 2)) 432000 432003).cleanRun
        (singleSettings (repeatedBlock 2)) n = some w ∧ w.phase = .completed ∧
      GeyserThread.run (repeatedBlock 2) m (GeyserThread.spawn 432000 432003) = g ∧
      g.phase = .finished ∧ (notifications w.log).length = 3 ∧ g.log.length = 2 ∧
      notifications w.log ≠ g.log := by
  refine ⟨9,_,5,_,rfl,rfl,rfl,rfl,rfl,rfl,fun h => ?_⟩
  have hlength := congrArg List.length h
  cases hlength

theorem cleanRun_unique {settings : Settings C} {w a b : Worker C} {n m : Nat}
    (ha : w.cleanRun settings n = some a) (hend : a.cleanStep settings = none)
    (hb : w.cleanRun settings m = some b) (hend' : b.cleanStep settings = none) : a = b := by
  induction n generalizing w m with
  | zero =>
    cases ha
    cases m with
    | zero => exact Option.some.inj hb
    | succ m => simp [Worker.cleanRun,hend] at hb
  | succ n ih =>
    cases m with
    | zero =>
      cases hb
      simp [Worker.cleanRun,hend'] at ha
    | succ m =>
      obtain ⟨next,hstep,hrun⟩ := Option.bind_eq_some_iff.mp ha
      simp only [Worker.cleanRun,hstep] at hb
      exact ih hrun hb

theorem run_of_finished {source : Source C} {g : GeyserThread C} (h : g.phase = .finished)
    (n : Nat) : GeyserThread.run source n g = g := by
  induction n with
  | zero => rfl
  | succ n ih => simpa only [GeyserThread.run,GeyserThread.step,h] using ih

theorem geyserRun_unique {source : Source C} {g : GeyserThread C} {n m : Nat}
    (h : (GeyserThread.run source n g).phase = .finished)
    (h' : (GeyserThread.run source m g).phase = .finished) :
    GeyserThread.run source n g = GeyserThread.run source m g := by
  induction n generalizing g m with
  | zero => exact (run_of_finished h m).symm
  | succ n ih =>
    cases m with
    | zero => exact run_of_finished h' (n + 1)
    | succ m => exact ih h h'

/-- A block that stands once: both engines announce its entry and the block. -/
theorem engines_agree_once :
    ∃ n w m g,
      (Worker.started (singleSettings (repeatedBlock 1)) 432000 432003).cleanRun
        (singleSettings (repeatedBlock 1)) n = some w ∧ w.phase = .completed ∧
      GeyserThread.run (repeatedBlock 1) m (GeyserThread.spawn 432000 432003) = g ∧
      g.phase = .finished ∧ notifications w.log = g.log ∧ g.log.length = 2 := by
  obtain ⟨n,w,hrun,hend,hagree⟩ := @engines_agree_iff _ _
    (singleSettings_single (repeatedBlock 1)) 432000 432003 (by decide)
  obtain rfl := cleanRun_unique (n := 7) rfl rfl hrun hend
  obtain ⟨m,g,rfl,hdone,hsame⟩ := hagree rfl
  have hgeyser : GeyserThread.run (repeatedBlock 1) 4 (GeyserThread.spawn 432000 432003) =
      GeyserThread.run (repeatedBlock 1) m (GeyserThread.spawn 432000 432003) :=
    geyserRun_unique rfl hdone
  simp only [singleSettings,← hgeyser] at hsame
  refine ⟨n,_,m,_,hrun,rfl,hgeyser.symm,rfl,hsame.mpr ?_,rfl⟩
  exact fun _ hmem => absurd hmem List.not_mem_nil

end Jetstreamer.Firehose
