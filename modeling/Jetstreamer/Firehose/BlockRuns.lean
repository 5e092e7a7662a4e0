import Jetstreamer.Firehose.Block
set_option autoImplicit false

namespace Jetstreamer.Firehose
open Lib

variable {C : CarTypes}

def Attempt.state : Attempt C → BlockState C
  | .ok s => s
  | .error s => s

def Call.Inner (slot : Nat) : Call C → Prop
  | .transaction s _ _ => s = slot
  | .entry s _ _ _ _ _ => s = slot
  | .rewards s _ => s = slot
  | .block _ => False
  | .possibleLeaderSkipped _ => False

def Record.Inner (slot : Nat) : Record C → Prop
  | .call made _ => made.Inner slot
  | .counted _ => False
  | .restarted => False

structure NodesRun (slot : Nat) (s t : BlockState C) : Prop where
  lastCounted : t.lastCounted = s.lastCounted
  lastEmitted : t.lastEmitted = s.lastEmitted
  pendingSkips : t.pendingSkips = s.pendingSkips
  previousBlockhash : t.previousBlockhash = s.previousBlockhash
  next : t.next = s.next
  log : ∃ new, t.log = s.log ++ new ∧ ∀ record ∈ new, record.Inner slot

namespace NodesRun

variable {slot : Nat} {s t u : BlockState C}

theorem refl (s : BlockState C) : NodesRun slot s s :=
  ⟨rfl,rfl,rfl,rfl,rfl,[],by simp,by simp⟩

theorem trans (h : NodesRun slot s t) (h' : NodesRun slot t u) : NodesRun slot s u := by
  obtain ⟨new,hnew,hinner⟩ := h.log
  obtain ⟨new',hnew',hinner'⟩ := h'.log
  refine ⟨h'.lastCounted.trans h.lastCounted,h'.lastEmitted.trans h.lastEmitted,
    h'.pendingSkips.trans h.pendingSkips,h'.previousBlockhash.trans h.previousBlockhash,
    h'.next.trans h.next,new ++ new',by rw [hnew',hnew,List.append_assoc],?_⟩
  intro record hmem
  rcases List.mem_append.mp hmem with hmem | hmem
  · exact hinner record hmem
  · exact hinner' record hmem

theorem decode (s : BlockState C) : NodesRun slot s s.decode.state := by
  unfold BlockState.decode
  split <;> exact ⟨rfl,rfl,rfl,rfl,rfl,[],by simp [Attempt.state],by simp⟩

theorem call (s : BlockState C) {made : Call C} (h : made.Inner slot) :
    NodesRun slot s (s.call made).state := by
  unfold BlockState.call
  split <;> exact ⟨rfl,rfl,rfl,rfl,rfl,_,rfl,by simpa [Record.Inner] using h⟩

theorem bind {x : Attempt C} {f : BlockState C → Attempt C} (hx : NodesRun slot s x.state)
    (hf : ∀ t, x = .ok t → NodesRun slot t (f t).state) :
    NodesRun slot s (Attempt.state (x >>= f)) := by
  cases x with
  | error t => exact hx
  | ok t => exact hx.trans (hf t rfl)

end NodesRun

theorem processNode_run (handlers : Handlers) (slot : Nat) (s : BlockState C) (node : Node C) :
    NodesRun slot s (processNode handlers slot s node).state := by
  cases node with
  | transaction index tx =>
    simp only [processNode]
    split
    · exact (NodesRun.decode s).bind fun t _ => NodesRun.call t rfl
    · exact NodesRun.refl s
  | entry numHashes hash transactions =>
    have hset : NodesRun slot s { s with
        latestEntryBlockhash := hash
        executedTransactionCount := s.executedTransactionCount + transactions
        entryCount := s.entryCount + 1 } := ⟨rfl,rfl,rfl,rfl,rfl,[],by simp,by simp⟩
    simp only [processNode]
    split
    · refine (hset.trans (NodesRun.call _ ?_)).bind
        fun t _ => ⟨rfl,rfl,rfl,rfl,rfl,[],by simp [Attempt.state],by simp⟩
      exact rfl
    · exact ⟨rfl,rfl,rfl,rfl,rfl,[],by simp [Attempt.state],by simp⟩
  | rewards data =>
    simp only [processNode]
    split
    · refine (NodesRun.decode s).bind fun t _ => ?_
      cases data with
      | none =>
        have hset : NodesRun slot t { t with rewards := C.noRewards } :=
          ⟨rfl,rfl,rfl,rfl,rfl,[],by simp,by simp⟩
        dsimp only
        split
        · exact hset.trans (NodesRun.call _ rfl)
        · exact ⟨rfl,rfl,rfl,rfl,rfl,[],by simp [Attempt.state],by simp⟩
      | some rewards =>
        dsimp only
        split
        · exact NodesRun.bind (NodesRun.call t rfl)
            fun u _ => ⟨rfl,rfl,rfl,rfl,rfl,[],by simp [Attempt.state],by simp⟩
        · exact ⟨rfl,rfl,rfl,rfl,rfl,[],by simp [Attempt.state],by simp⟩
    · exact NodesRun.refl s
  | other => exact NodesRun.refl s

theorem processNodes_run (handlers : Handlers) (slot : Nat) (s : BlockState C)
    (nodes : List (Node C)) : NodesRun slot s (processNodes handlers slot s nodes).state := by
  induction nodes generalizing s with
  | nil => exact NodesRun.refl s
  | cons node rest ih =>
    simp only [processNodes,List.foldlM_cons]
    exact (processNode_run handlers slot s node).bind fun t _ => ih t

variable {handlers : Handlers} {s : BlockState C}

theorem processNodes_run_ok {slot : Nat} {t : BlockState C}
    {nodes : List (Node C)} (h : processNodes handlers slot s nodes = .ok t) :
    NodesRun slot s t := by
  have hrun := processNodes_run handlers slot s nodes
  rwa [h] at hrun

/-- The records of leader-skipped slots `first..first+n`, emitted above `lastEmitted`. -/
def skipRecords (lastEmitted first : Nat) : Nat → List (Record C)
  | 0 => []
  | n+1 =>
      (if lastEmitted < first then [.call (.possibleLeaderSkipped first) true] else []) ++
        .counted first :: skipRecords lastEmitted (first+1) n

structure SkipRun (s t : BlockState C) (n : Nat) : Prop where
  lastCounted : t.lastCounted = s.lastCounted + n
  lastEmitted : t.lastEmitted = if n = 0 then s.lastEmitted
    else max s.lastEmitted (s.lastCounted + n)
  pendingSkips : ∀ slot ∈ t.pendingSkips, slot ∈ s.pendingSkips ∨
    s.lastCounted < slot ∧ slot ≤ t.lastEmitted
  previousBlockhash : t.previousBlockhash = s.previousBlockhash
  latestEntryBlockhash : t.latestEntryBlockhash = s.latestEntryBlockhash
  rewards : t.rewards = s.rewards
  executedTransactionCount : t.executedTransactionCount = s.executedTransactionCount
  entryCount : t.entryCount = s.entryCount
  next : t.next = s.next
  log : t.log = s.log ++ skipRecords s.lastEmitted (s.lastCounted + 1) n

theorem skipRecords_congr {first second : Nat} (n : Nat) {from_ : Nat}
    (h : ∀ slot, from_ ≤ slot → (first < slot ↔ second < slot)) :
    (skipRecords first from_ n : List (Record C)) = skipRecords second from_ n := by
  induction n generalizing from_ with
  | zero => rfl
  | succ n ih =>
    simp only [skipRecords]
    rw [ih fun slot hle => h slot (by omega),if_congr (h from_ le_rfl) rfl rfl]

namespace SkipRun

variable {s t u : BlockState C} {n : Nat}

theorem zero (s : BlockState C) : SkipRun s s 0 :=
  ⟨rfl,rfl,fun _ => .inl,rfl,rfl,rfl,rfl,rfl,rfl,by simp [skipRecords]⟩

theorem cons (h : SkipRun s t 1) (h' : SkipRun t u n) : SkipRun s u (n+1) := by
  have hemitted : t.lastEmitted = max s.lastEmitted (s.lastCounted+1) := h.lastEmitted
  have hfinal : u.lastEmitted = max s.lastEmitted (s.lastCounted+(n+1)) := by
    rw [h'.lastEmitted,hemitted,h.lastCounted]
    split <;> omega
  refine ⟨by rw [h'.lastCounted,h.lastCounted]; omega,by simpa using hfinal,?_,
    h'.previousBlockhash.trans h.previousBlockhash,
    h'.latestEntryBlockhash.trans h.latestEntryBlockhash,h'.rewards.trans h.rewards,
    h'.executedTransactionCount.trans h.executedTransactionCount,
    h'.entryCount.trans h.entryCount,h'.next.trans h.next,?_⟩
  · intro slot hmem
    rcases h'.pendingSkips slot hmem with hmem | ⟨hlow,hhigh⟩
    · rcases h.pendingSkips slot hmem with hmem | ⟨hlow,hhigh⟩
      · exact .inl hmem
      · exact .inr ⟨hlow,by omega⟩
    · exact .inr ⟨by rw [h.lastCounted] at hlow; omega,hhigh⟩
  · rw [h'.log,h.log,h.lastCounted,List.append_assoc]
    congr 1
    simp only [skipRecords,List.append_assoc,List.cons_append,List.nil_append]
    rw [skipRecords_congr n fun slot hle => (by omega :
      t.lastEmitted < slot ↔ s.lastEmitted < slot)]

end SkipRun

theorem call_cases (s : BlockState C) (made : Call C) :
    (∃ faults, s.call made = .ok { s with faults := faults, log := s.log ++ [.call made true] }) ∨
    ∃ faults, s.call made = .error
      { s with faults := faults, log := s.log ++ [.call made false] } := by
  unfold BlockState.call
  split
  · exact .inl ⟨s.faults,rfl⟩
  · exact .inr ⟨_,rfl⟩
  · exact .inl ⟨_,rfl⟩

theorem skipSlots_cons (hblock : handlers.block = true) {epoch : Nat} {rest : List Nat}
    (hepoch : slotToEpoch (s.lastCounted+1) = epoch) :
    (∃ t, skipSlots handlers epoch s ((s.lastCounted+1) :: rest) = skipSlots handlers epoch t rest ∧
      SkipRun s t 1) ∨
    ∃ t, skipSlots handlers epoch s ((s.lastCounted+1) :: rest) = .error t ∧
      t.lastCounted = s.lastCounted ∧ t.next = s.next ∧
      t.log = s.log ++ [.call (.possibleLeaderSkipped (s.lastCounted+1)) false] := by
  simp only [skipSlots,hepoch,hblock,if_true,Bool.true_and,decide_eq_true_eq]
  split
  · rename_i hemit
    rcases call_cases _ (.possibleLeaderSkipped (s.lastCounted+1)) with
      ⟨faults,hcall⟩ | ⟨faults,hcall⟩
    · rw [hcall]
      refine .inl ⟨_,rfl,?_,?_,?_,rfl,rfl,rfl,rfl,rfl,rfl,?_⟩
      · simp [BlockState.count]
      · simp only [BlockState.count]
        split <;> omega
      · intro slot hmem
        rcases List.mem_cons.mp hmem with rfl | hmem
        · exact .inr ⟨by omega,le_rfl⟩
        · exact .inl hmem
      · simp [BlockState.count,skipRecords,hemit]
    · rw [hcall]
      exact .inr ⟨_,rfl,rfl,rfl,rfl⟩
  · rename_i hsuppressed
    refine .inl ⟨_,rfl,?_,?_,?_,rfl,rfl,rfl,rfl,rfl,rfl,?_⟩
    · simp [BlockState.count]
    · simp only [BlockState.count]
      split <;> omega
    · intro slot hmem
      rcases List.mem_cons.mp hmem with rfl | hmem
      · exact .inr ⟨by omega,by simpa [BlockState.count] using hsuppressed⟩
      · exact .inl hmem
    · simp [BlockState.count,skipRecords,hsuppressed]

/-- The skip loop counts the slots up to the block, or up to the first slot of another
epoch, or up to a callback that fails. -/
theorem skipSlots_run (hblock : handlers.block = true) (n : Nat)
    (s : BlockState C) (epoch : Nat) :
    (∃ m t, skipSlots handlers epoch s (List.range' (s.lastCounted+1) n) = .ok t ∧
      SkipRun s t m ∧ m ≤ n ∧ (∀ k, k < m → slotToEpoch (s.lastCounted+1+k) = epoch) ∧
      (m < n → slotToEpoch (s.lastCounted+1+m) ≠ epoch)) ∨
    ∃ m t u, skipSlots handlers epoch s (List.range' (s.lastCounted+1) n) = .error u ∧
      SkipRun s t m ∧ m < n ∧ (∀ k, k < m → slotToEpoch (s.lastCounted+1+k) = epoch) ∧
      u.lastCounted = t.lastCounted ∧ u.next = s.next ∧
      u.log = t.log ++ [.call (.possibleLeaderSkipped (s.lastCounted+1+m)) false] := by
  induction n generalizing s with
  | zero => exact .inl ⟨0,s,rfl,SkipRun.zero s,le_rfl,by omega,by omega⟩
  | succ n ih =>
    rw [List.range'_succ]
    by_cases hepoch : slotToEpoch (s.lastCounted+1) = epoch
    · rcases skipSlots_cons hblock hepoch with ⟨t,heq,hrun⟩ | ⟨t,heq,hcounted,hnext,hlog⟩
      · have hcount : s.lastCounted+1 = t.lastCounted := hrun.lastCounted.symm
        have hshift : ∀ k, t.lastCounted+(k+1) = t.lastCounted+1+k := fun k => by omega
        have hall : ∀ m, (∀ k, k < m → slotToEpoch (t.lastCounted+1+k) = epoch) →
            ∀ k, k < m+1 → slotToEpoch (t.lastCounted+k) = epoch := by
          intro m hm k hk
          cases k with
          | zero => rwa [Nat.add_zero,← hcount]
          | succ k =>
            rw [hshift]
            exact hm k (by omega)
        rw [heq,hcount]
        rcases ih t with ⟨m,u,hok,hrest,hle,hm,hend⟩ | ⟨m,u,v,herr,hrest,hlt,hm,hc,hn,hlog⟩
        · refine .inl ⟨m+1,u,hok,hrun.cons hrest,by omega,hall m hm,fun hlt => ?_⟩
          rw [hshift]
          exact hend (by omega)
        · refine .inr ⟨m+1,u,v,herr,hrun.cons hrest,by omega,hall m hm,hc,hn.trans hrun.next,?_⟩
          rw [hlog,← hshift m]
      · exact .inr ⟨0,s,t,heq,SkipRun.zero s,by omega,by omega,hcounted,hnext,hlog⟩
    · refine .inl ⟨0,s,?_,SkipRun.zero s,by omega,by omega,fun _ => hepoch⟩
      simp only [skipSlots,hepoch,if_false]

/-- A block above the last counted slot was counted, after `m` leader-skipped slots. -/
structure BlockDone (s t : BlockState C) (workStealing : Bool) (block : Block) (m : Nat) :
    Prop where
  lastCounted : t.lastCounted = block.slot
  lastEmitted : t.lastEmitted = max s.lastEmitted block.slot
  pendingSkips : ∀ slot ∈ t.pendingSkips, slot ∈ s.pendingSkips ∨ slot ≤ t.lastEmitted
  previousBlockhash : t.previousBlockhash = s.latestEntryBlockhash
  latestEntryBlockhash : t.latestEntryBlockhash = s.latestEntryBlockhash
  next : t.next = if workStealing then block.slot + 1 else s.next
  log : t.log = s.log ++ skipRecords s.lastEmitted (s.lastCounted+1) m ++
    (if s.lastEmitted < block.slot then [.call (.block (emittedBlock block s)) true] else []) ++
    [.counted block.slot]

/-- A callback at the block node failed, after `m` leader-skipped slots were counted. -/
structure BlockFailed (s t : BlockState C) (block : Block) (m : Nat) : Prop where
  lastCounted : t.lastCounted = s.lastCounted + m
  next : t.next = s.next
  log : ∃ made, t.log = s.log ++ skipRecords s.lastEmitted (s.lastCounted+1) m ++
    [.call made false] ∧
    (made = .possibleLeaderSkipped (s.lastCounted+1+m) ∧ s.lastCounted+1+m < block.slot ∨
      made = .block (emittedBlock block s))

structure Skippable (lastCounted slot m : Nat) : Prop where
  before : lastCounted + m < slot
  inEpoch : ∀ k, k < m → slotToEpoch (lastCounted+1+k) = slotToEpoch lastCounted

theorem emittedBlock_skipRun {t : BlockState C} {m : Nat} (h : SkipRun s t m) (block : Block) :
    emittedBlock block t = emittedBlock block s := by
  simp only [emittedBlock,h.previousBlockhash,h.latestEntryBlockhash,h.rewards,
    h.executedTransactionCount,h.entryCount]

theorem BlockDone.of_finish {t u : BlockState C} {workStealing : Bool} {block : Block} {m : Nat}
    (hrun : SkipRun s t m) (hbefore : s.lastCounted + m < block.slot)
    (hcounted : u.lastCounted = t.lastCounted)
    (hemitted : u.lastEmitted = max s.lastEmitted block.slot)
    (hpending : ∀ slot ∈ u.pendingSkips, slot ∈ t.pendingSkips)
    (hlatest : u.latestEntryBlockhash = t.latestEntryBlockhash) (hnext : u.next = t.next)
    (hlog : u.log = t.log ++
      if s.lastEmitted < block.slot then [.call (.block (emittedBlock block s)) true] else []) :
    BlockDone s (u.finish workStealing block.slot) workStealing block m := by
  have hcount : max u.lastCounted block.slot = block.slot := by
    rw [hcounted,hrun.lastCounted]
    omega
  have hlast := hrun.lastEmitted
  refine ⟨hcount,hemitted,fun slot hmem => ?_,hlatest.trans hrun.latestEntryBlockhash,
    hlatest.trans hrun.latestEntryBlockhash,?_,?_⟩
  · rcases hrun.pendingSkips slot (hpending slot hmem) with hold | ⟨_,hhigh⟩
    · exact .inl hold
    · refine .inr (show slot ≤ u.lastEmitted from ?_)
      rw [hemitted]
      split at hlast <;> omega
  · simp only [BlockState.finish,hcount,hnext,hrun.next]
  · simp only [BlockState.finish,hlog,hrun.log,List.append_assoc]

theorem processBlock_run (hblock : handlers.block = true)
    (workStealing : Bool) {block : Block} (hfresh : s.lastCounted < block.slot) :
    ∃ m, Skippable s.lastCounted block.slot m ∧
      ((∃ t, processBlock handlers workStealing block s = .ok t ∧
        BlockDone s t workStealing block m ∧
        (s.lastCounted+1+m < block.slot →
          slotToEpoch (s.lastCounted+1+m) ≠ slotToEpoch s.lastCounted)) ∨
      ∃ t, processBlock handlers workStealing block s = .error t ∧ BlockFailed s t block m) := by
  have hskips := skipSlots_run hblock (block.slot - (s.lastCounted+1)) s
  specialize hskips (slotToEpoch s.lastCounted)
  rcases hskips with ⟨m,t,hok,hrun,hle,hall,hend⟩ | ⟨m,t,u,herr,hrun,hlt,hall,hcounted,hnext,hlog⟩
  · refine ⟨m,⟨by omega,hall⟩,?_⟩
    have hcount := hrun.lastCounted
    have hlast := hrun.lastEmitted
    have hnot : ¬block.slot ≤ t.lastCounted := by omega
    have hiff : t.lastEmitted < block.slot ↔ s.lastEmitted < block.slot := by
      rw [hlast]
      split <;> omega
    have hpending : ∀ slot ∈ t.pendingSkips.filter (fun pending => pending != block.slot),
        slot ∈ t.pendingSkips := fun slot hmem => (List.mem_filter.mp hmem).1
    have hsame : emittedBlock block { t with
        pendingSkips := t.pendingSkips.filter (fun pending => pending != block.slot) } =
        emittedBlock block s := emittedBlock_skipRun hrun block
    simp only [processBlock,hok,ok_bind,hblock,Bool.true_and,hnot,decide_false,Bool.false_and,
      Bool.false_eq_true,if_false,decide_eq_true_eq,hsame]
    split
    · rename_i hlow
      rcases call_cases _ (.block (emittedBlock block s)) with ⟨faults,hcall⟩ | ⟨faults,hcall⟩
      · rw [hcall]
        refine .inl ⟨_,rfl,?_,fun h => hend (by omega)⟩
        refine BlockDone.of_finish hrun (by omega) rfl ?_ hpending rfl rfl ?_
        · simp only
          omega
        · simp only [hiff.mp hlow,if_true]
      · rw [hcall]
        exact .inr ⟨_,rfl,hcount,hrun.next,_,by simp only [hrun.log],.inr rfl⟩
    · rename_i hhigh
      have hsuppressed : ¬s.lastEmitted < block.slot := fun h => hhigh (hiff.mpr h)
      refine .inl ⟨_,rfl,?_,fun h => hend (by omega)⟩
      refine BlockDone.of_finish hrun (by omega) rfl ?_ hpending rfl rfl ?_
      · simp only [hlast]
        split <;> omega
      · simp only [hsuppressed,if_false,List.append_nil]
  · refine ⟨m,⟨by omega,hall⟩,.inr ⟨u,?_,?_,hnext,?_⟩⟩
    · simp only [processBlock,herr]
      rfl
    · rw [hcounted,hrun.lastCounted]
    · exact ⟨_,by rw [hlog,hrun.log],.inl ⟨rfl,by omega⟩⟩

/-- A block at or below the last counted slot, with its pending skip long emitted, changes
neither the counters nor what was announced. -/
structure BlockStale (s t : BlockState C) : Prop where
  lastCounted : t.lastCounted = s.lastCounted
  lastEmitted : t.lastEmitted = s.lastEmitted
  pendingSkips : ∀ slot ∈ t.pendingSkips, slot ∈ s.pendingSkips
  latestEntryBlockhash : t.latestEntryBlockhash = s.latestEntryBlockhash
  previousBlockhash : t.previousBlockhash = s.previousBlockhash ∨
    t.previousBlockhash = s.latestEntryBlockhash
  log : ∃ new, t.log = s.log ++ new ∧ ∀ record ∈ new, ∃ slot, record = .counted slot

theorem processBlock_stale (handlers : Handlers) (workStealing : Bool) {block : Block}
    (hstale : block.slot ≤ s.lastCounted)
    (hpending : ∀ slot ∈ s.pendingSkips, slot ≤ s.lastEmitted) :
    ∃ t, processBlock handlers workStealing block s = .ok t ∧ BlockStale s t := by
  have hgap : block.slot - (s.lastCounted+1) = 0 := by omega
  have hfilter : ∀ slot ∈ s.pendingSkips.filter (fun pending => pending != block.slot),
      slot ∈ s.pendingSkips := fun slot hmem => (List.mem_filter.mp hmem).1
  simp only [processBlock,hgap,List.range'_zero,skipSlots,ok_bind,hstale,decide_true,Bool.true_and]
  split
  · exact ⟨_,rfl,rfl,rfl,hfilter,rfl,.inl rfl,[],by simp,by simp⟩
  · rename_i hcleared
    have hlow : ¬s.lastEmitted < block.slot := by
      simp only [Bool.not_eq_true',Bool.not_eq_false,Bool.and_eq_true,List.contains_eq_mem,
        decide_eq_true_eq] at hcleared
      have := hpending _ hcleared.2
      omega
    simp only [hlow,decide_false,Bool.and_false,Bool.false_eq_true,if_false]
    refine ⟨_,rfl,?_,rfl,hfilter,rfl,.inr rfl,_,rfl,by simp⟩
    simp only [BlockState.finish]
    omega

end Jetstreamer.Firehose
