import Jetstreamer.Node.Resume
import Jetstreamer.Node.Restart
set_option autoImplicit false

namespace Jetstreamer.Node
open SlotExecutionBuffer TransactionScheduler Lib

variable {C : ChainTypes}

/-- A buffer that is being filled from a block: the first `pushed` entries have
arrived, `done` of them were released, the transactions before `t` were done before it all, and `f`
holds the others. -/
structure Filling (block : BlockData C) (t : Nat) (buffer : SlotExecutionBuffer C)
    (done : List (PendingEntry C)) (pushed : Nat) (f : Nat → Option (ScheduledTransaction C)) :
    Prop where
  entries : block.entries.take pushed = done ++ buffer.pendingEntries
  pushed_le : pushed ≤ block.entries.length
  entryCount : buffer.processedEntryCount = done.length
  txCount : buffer.processedTxCount = max t (txSum done)
  reaches : block.Reaches done t
  nextEntryIndex : buffer.nextEntryIndex = pushed
  holds : buffer.HoldsFrom f
  own : ∀ i tx, f i = some tx → block.scheduled i = some tx

namespace Filling

variable {block : BlockData C} {t : Nat} {buffer : SlotExecutionBuffer C}
  {done : List (PendingEntry C)} {pushed : Nat} {f : Nat → Option (ScheduledTransaction C)}

theorem contiguous (h : Filling block t buffer done pushed f) :
    Contiguous (done ++ buffer.pendingEntries) := by
  have hc := block.contiguous
  rw [← List.take_append_drop pushed block.entries] at hc
  rw [← h.entries]
  exact hc.of_append

theorem mem_block (h : Filling block t buffer done pushed f) {entry : PendingEntry C}
    (hmem : entry ∈ done ++ buffer.pendingEntries) : entry ∈ block.entries := by
  rw [← h.entries] at hmem
  exact List.mem_of_mem_take hmem

theorem default (block : BlockData C) :
    Filling block 0 .default [] 0 (fun _ => none) :=
  ⟨rfl,Nat.zero_le _,rfl,rfl,.inl (Nat.zero_le _),rfl,
    fun i => by simp [SlotExecutionBuffer.default],by simp⟩

theorem resumed {entryIndex : Nat} (hle : entryIndex ≤ block.entries.length)
    (hreaches : block.Reaches (block.entries.take entryIndex) t) :
    Filling block t
      ((resetForRestart buffer).applyResumeCounts entryIndex
        (max t (txSum (block.entries.take entryIndex))))
      (block.entries.take entryIndex) entryIndex (fun _ => none) where
  entries := (List.append_nil _).symm
  pushed_le := hle
  entryCount := by simp [applyResumeCounts,hle]
  txCount := rfl
  reaches := hreaches
  nextEntryIndex := rfl
  holds i := by
    exact (ite_self _).symm
  own := by simp

section

variable (h : Filling block t buffer done pushed f)
include h

theorem next_of_pending {entry : PendingEntry C} {rest : List (PendingEntry C)}
    (hpending : buffer.pendingEntries = entry :: rest) :
    block.entries[done.length]? = some entry := by
  have hat := congrArg (fun entries => entries[done.length]?) h.entries
  simp only [hpending,List.getElem?_append_right (Nat.le_refl _),Nat.sub_self,
    List.getElem?_cons_zero] at hat
  rw [List.getElem?_take] at hat
  split at hat
  · exact hat
  · cases hat

theorem drain (slot : Nat) :
    ∃ released, Filling block t (buffer.drainReadyEntries slot).2 (done ++ released) pushed f ∧
      (buffer.drainReadyEntries slot).1 = released.map (block.remainder slot t) ∧
      (buffer.drainReadyEntries slot).2.expectedTxCount = buffer.expectedTxCount ∧
      (buffer.drainReadyEntries slot).2.expectedEntryCount = buffer.expectedEntryCount ∧
      ∀ entry rest, (buffer.drainReadyEntries slot).2.pendingEntries = entry :: rest →
        ∃ i, entry.startIndex ≤ i ∧ t ≤ i ∧ i < entry.startIndex + entry.txCount ∧
          f i = none := by
  have hhead : ∀ entry ∈ buffer.pendingEntries.head?,
      t ≤ txSum done ∨ t < txSum done + entry.txCount := by
    intro entry hentry
    obtain ⟨rest,hpending⟩ := List.head?_eq_some_iff.mp hentry
    refine h.reaches.imp id ?_
    rintro ⟨other,hother,hlt⟩
    rw [h.next_of_pending hpending,Option.some.injEq] at hother
    rwa [hother]
  obtain ⟨released,hd⟩ := drainPending_resumed slot h.own buffer h.contiguous h.txCount hhead
    h.holds
  change Resumed block slot t f buffer done buffer.pendingEntries
    (buffer.drainReadyEntries slot).1 (buffer.drainReadyEntries slot).2 released at hd
  refine ⟨released,⟨?_,h.pushed_le,?_,hd.txCount,?_,?_,hd.holds,h.own⟩,hd.ready,
    hd.expectedTxCount,hd.expectedEntryCount,hd.stuck⟩
  · rw [h.entries,List.append_assoc,← hd.split]
  · rw [hd.entryCount,h.entryCount,List.length_append]
  · -- the entry the cut is in goes out first
    cases released with
    | nil => simpa using h.reaches
    | cons entry rest =>
      have hcut := hhead entry (by rw [hd.split]; rfl)
      refine .inl ?_
      simp only [txSum_append,txSum_cons]
      omega
  · rw [hd.nextEntryIndex,h.nextEntryIndex]

theorem insertTransaction [DecidableEq C.Sig] [DecidableEq C.Status] {index : Nat}
    {tx : VersionedTransaction C} {statusMeta : TransactionStatusMeta C}
    (hblock : block.txs[index]? = some (tx,statusMeta)) :
    ∃ inserted next g, buffer.insertTransaction index tx statusMeta = .ok (inserted,next) ∧
      Filling block t next done pushed g ∧ next.expectedTxCount = buffer.expectedTxCount ∧
      next.expectedEntryCount = buffer.expectedEntryCount ∧
      (∀ i, f i ≠ none → g i ≠ none) ∧ (index < max t (txSum done) ∨ g index ≠ none) := by
  have hown : block.scheduled index = some ⟨tx,statusMeta.status,statusMeta⟩ := by
    simp [BlockData.scheduled,hblock,BlockData.schedule]
  have hsame : ∀ existing, f index = some existing →
      existing = ⟨tx,statusMeta.status,statusMeta⟩ := by
    intro existing hexisting
    have hscheduled := h.own index existing hexisting
    rw [hown,Option.some.injEq] at hscheduled
    exact hscheduled.symm
  obtain ⟨inserted,next,hinsert⟩ := insertTransaction_isOk h.holds hsame
  obtain ⟨hnext,hcases⟩ := insertTransaction_cases h.holds hinsert
  obtain ⟨txs,rfl⟩ : ∃ txs, next = { buffer with txs := txs } := ⟨next.txs,hnext⟩
  rcases hcases with ⟨_,hold,hholds⟩ | ⟨_,hle,_,hholds⟩
  · refine ⟨inserted,_,f,hinsert,{ h with holds := hholds },rfl,rfl,fun _ hi => hi,?_⟩
    rw [← h.txCount]
    by_cases hlt : index < buffer.processedTxCount
    · exact .inl hlt
    · exact .inr (hold (Nat.not_lt.mp hlt))
  · refine ⟨inserted,_,_,hinsert,{ h with holds := hholds, own := ?_ },rfl,rfl,?_,
      .inr (by simp)⟩
    · intro i stored hstored
      by_cases hi : i = index
      · subst hi
        rw [Function.update_self] at hstored
        rw [hown]
        exact hstored
      · rw [Function.update_of_ne hi] at hstored
        exact h.own i stored hstored
    · intro i hi
      by_cases heq : i = index
      · subst heq
        simp
      · rw [Function.update_of_ne heq]
        exact hi

theorem pushEntry {entry : PendingEntry C}
    (hblock : entry ∈ block.entries) (hnext : entry.entryIndex ≤ pushed) :
    ∃ inserted next, buffer.pushEntry entry = .ok (inserted,next) ∧
      Filling block t next done (max pushed (entry.entryIndex + 1)) f ∧
      next.expectedTxCount = buffer.expectedTxCount ∧
      next.expectedEntryCount = buffer.expectedEntryCount := by
  rw [← h.nextEntryIndex] at hnext
  obtain ⟨inserted,next,hpush⟩ := pushEntry_isOk hnext
  refine ⟨inserted,next,hpush,?_⟩
  have hat := block.entry_getElem? hblock
  rcases pushEntry_cases hpush with ⟨_,hlt,rfl⟩ | ⟨_,heq,rfl⟩
  · rw [h.nextEntryIndex] at hlt
    rw [Nat.max_eq_left hlt]
    exact ⟨h,rfl,rfl⟩
  · rw [h.nextEntryIndex] at heq
    rw [heq,Nat.max_eq_right (Nat.le_succ pushed)]
    rw [heq] at hat
    have hlen : pushed < block.entries.length := (List.getElem?_eq_some_iff.mp hat).1
    refine ⟨{ h with entries := ?_, pushed_le := hlen, nextEntryIndex := ?_ },rfl,rfl⟩
    · rw [List.take_add_one,hat,h.entries]
      simp
    · simp [h.nextEntryIndex]

end

theorem drain_all (h : Filling block t buffer done block.entries.length f)
    (htxs : ∀ i, i < block.txs.length → i < max t (txSum done) ∨ f i ≠ none) (slot : Nat) :
    Filling block t (buffer.drainReadyEntries slot).2 block.entries block.entries.length f ∧
      (buffer.drainReadyEntries slot).1 =
        (block.entries.drop done.length).map (block.remainder slot t) ∧
      (buffer.drainReadyEntries slot).2.expectedTxCount = buffer.expectedTxCount ∧
      (buffer.drainReadyEntries slot).2.expectedEntryCount = buffer.expectedEntryCount ∧
      (buffer.drainReadyEntries slot).2.pendingEntries = [] := by
  obtain ⟨released,hdrained,hready,hexptx,hexpentry,hstuck⟩ := h.drain slot
  have hpending : (buffer.drainReadyEntries slot).2.pendingEntries = [] := by
    cases hp : (buffer.drainReadyEntries slot).2.pendingEntries with
    | nil => rfl
    | cons entry rest =>
      exfalso
      obtain ⟨i,hl,ht,hu,hnone⟩ := hstuck entry rest hp
      have hc := hdrained.contiguous
      rw [hp] at hc
      have hstart := hc.next
      rw [txSum_append] at hstart
      have hmem : entry ∈ block.entries := hdrained.mem_block (by rw [hp]; simp)
      have hbound := block.range_le hmem
      rcases htxs i (by omega) with hlt | hsome
      · omega
      · exact hsome hnone
  have hall : block.entries = done ++ released := by
    have hentries := hdrained.entries
    rwa [hpending,List.append_nil,List.take_length] at hentries
  rw [← hall] at hdrained
  refine ⟨hdrained,?_,hexptx,hexpentry,hpending⟩
  rw [hready,hall,List.drop_left]

theorem processed_all (h : Filling block t buffer block.entries pushed f) :
    buffer.processedTxCount = block.txs.length := by
  rw [h.txCount,block.counted]
  refine Nat.max_eq_right (h.reaches.resolve_right ?_)
  rintro ⟨entry,hentry,-⟩
  simp at hentry

theorem buffered_zero (h : Filling block t buffer block.entries pushed f) :
    buffer.bufferedTransactionCount = 0 := by
  refine buffered_zero_of_forall fun i => ?_
  rw [h.holds i,h.processed_all]
  split
  · rfl
  case isFalse hge =>
    cases hi : f i with
    | none => rfl
    | some tx =>
      have hscheduled := h.own i tx hi
      simp [BlockData.scheduled,List.getElem?_eq_none (Nat.not_lt.mp hge)] at hscheduled

end Filling

/-- Everything below the slot is behind the scheduler or missing, and no other
slot holds data. -/
structure Lone (scheduler : TransactionScheduler) (state : SchedulerState C) (slot : Nat) :
    Prop where
  finalized : state.currentSlot = state.lastFinalizedSlot + 1
  current_le : state.currentSlot ≤ slot
  missing : ∀ s, state.currentSlot ≤ s → s < slot →
    scheduler.presence.state s = some .missing
  gap : scheduler.emptySlotBufferGapLimit = 0 ∨
    slot - state.currentSlot < scheduler.emptySlotBufferGapLimit
  highest : state.highestSeenSlot ≤ slot
  forced : state.forcedMissing = ∅
  inferred : ∀ s, state.currentSlot ≤ s → state.inferredBlocks s = none
  others : ∀ s, s ≠ slot → state.slots.lookup s = none

/-- The scheduler waits for data of the current slot or a later one, and holds
none. -/
structure Clean (state : SchedulerState C) : Prop where
  finalized : state.currentSlot = state.lastFinalizedSlot + 1
  highest : state.highestSeenSlot ≤ state.currentSlot
  forced : state.forcedMissing = ∅
  inferred : ∀ s, state.currentSlot ≤ s → state.inferredBlocks s = none
  empty : ∀ s, state.slots.lookup s = none

section Loops

variable {scheduler : TransactionScheduler} {state : SchedulerState C} {slot : Nat}

theorem slotPresence_of_forced (hforced : state.forcedMissing = ∅) (s : Nat) :
    scheduler.slotPresence state s = scheduler.presence.state s := by
  simp [TransactionScheduler.slotPresence,hforced]

theorem satSucc_of_state {known : SlotPresenceState}
    (h : scheduler.presence.state slot = some known) : satSucc slot = slot + 1 := by
  have hend := SlotPresenceMap.le_end_of_state h
  have hmax := scheduler.presence.bounded
  unfold satSucc
  omega

theorem Lone.stallCheck (h : Lone scheduler state slot) : scheduler.stallCheck state = .ok () := by
  have hgap := h.gap
  have hhighest := h.highest
  unfold TransactionScheduler.stallCheck
  rw [if_neg]
  rintro ⟨_,_,hpos,hle⟩
  omega

theorem advanceStep_skip (hstall : scheduler.stallCheck state = .ok ())
    (hforced : state.forcedMissing = ∅)
    (hmissing : scheduler.presence.state state.currentSlot = some .missing)
    (hnone : state.slots.lookup state.currentSlot = none) :
    scheduler.advanceStep state = .ok (true,passCurrent state,[.skip state.currentSlot]) := by
  simp only [advanceStep,hstall,isMissing,slotPresence_of_forced hforced,hmissing,hnone,
    Option.map_some,decide_true]
  rfl

theorem Lone.pass (h : Lone scheduler state slot) (hlt : state.currentSlot < slot) :
    Lone scheduler (passCurrent state) slot := by
  have hnext := satSucc_of_state (h.missing _ (Nat.le_refl _) hlt)
  have hgap := h.gap
  refine ⟨hnext,?_,?_,?_,h.highest,h.forced,?_,?_⟩
  · simp only [passCurrent,hnext]
    exact hlt
  · intro s hl hu
    simp only [passCurrent,hnext] at hl
    exact h.missing s (by omega) hu
  · simp only [passCurrent,hnext]
    omega
  · intro s hl
    simp only [passCurrent,hnext] at hl
    exact h.inferred s (by omega)
  · intro s hne
    by_cases hcur : s = state.currentSlot
    · subst hcur
      exact AList.lookup_erase _ _
    · exact (AList.lookup_erase_ne hcur).trans (h.others s hne)

theorem Lone.approach (h : Lone scheduler state slot) :
    ∃ start skips, Lone scheduler start slot ∧ start.currentSlot = slot ∧
      start.slots.lookup slot = state.slots.lookup slot ∧ emittedEntries skips = [] ∧
      ∀ fuel, scheduler.advanceLoop (slot - state.currentSlot + fuel) state =
        (scheduler.advanceLoop fuel start) >>= fun result => .ok (result.1,skips ++ result.2) := by
  induction hn : slot - state.currentSlot generalizing state with
  | zero =>
    have hcur : state.currentSlot = slot := by have := h.current_le; omega
    refine ⟨state,[],h,hcur,rfl,rfl,fun fuel => ?_⟩
    rw [Nat.zero_add]
    cases scheduler.advanceLoop fuel state <;> rfl
  | succ n ih =>
    have hlt : state.currentSlot < slot := by omega
    have hmissing := h.missing _ (Nat.le_refl _) hlt
    have hnext := satSucc_of_state hmissing
    have hstep := advanceStep_skip h.stallCheck h.forced hmissing
      (h.others _ (Nat.ne_of_lt hlt))
    obtain ⟨start,skips,hstart,hcur,hlookup,hemitted,hloop⟩ := ih (h.pass hlt)
      (by simp only [passCurrent,hnext]; omega)
    refine ⟨start,.skip state.currentSlot :: skips,hstart,hcur,?_,?_,fun fuel => ?_⟩
    · rw [hlookup]
      exact AList.lookup_erase_ne (Nat.ne_of_gt hlt)
    · exact hemitted
    · rw [show n + 1 + fuel = n + fuel + 1 by omega,advanceLoop,hstep]
      simp only [ok_bind,if_true,hloop fuel]
      cases scheduler.advanceLoop fuel start <;> rfl

variable (scheduler) in
theorem Clean.stallCheck (h : Clean state) : scheduler.stallCheck state = .ok () := by
  have hhighest := h.highest
  unfold TransactionScheduler.stallCheck
  rw [if_neg]
  rintro ⟨hlt,_⟩
  omega

theorem Clean.pass (h : Clean state)
    (hmissing : scheduler.presence.state state.currentSlot = some .missing) :
    Clean (passCurrent state) := by
  have hnext := satSucc_of_state hmissing
  have hhighest := h.highest
  refine ⟨hnext,?_,h.forced,?_,?_⟩
  · simp only [passCurrent,hnext]
    omega
  · intro s hl
    simp only [passCurrent,hnext] at hl
    exact h.inferred s (by omega)
  · intro s
    by_cases hcur : s = state.currentSlot
    · subst hcur
      exact AList.lookup_erase _ _
    · exact (AList.lookup_erase_ne hcur).trans (h.empty s)

variable (scheduler) in
theorem Clean.advance {fuel : Nat} (h : Clean state)
    (hfuel : scheduler.presence.endInclusive + 1 - state.currentSlot < fuel) :
    ∃ final events, scheduler.advanceLoop fuel state = .ok (final,events) ∧
      emittedEntries events = [] ∧ Clean final ∧ state.currentSlot ≤ final.currentSlot ∧
      (∀ s, state.currentSlot ≤ s → s < final.currentSlot →
        scheduler.presence.state s = some .missing) ∧
      scheduler.presence.state final.currentSlot ≠ some .missing := by
  induction fuel generalizing state with
  | zero => omega
  | succ fuel ih =>
    cases hp : scheduler.presence.state state.currentSlot with
    | none =>
      refine ⟨state,[],?_,rfl,h,Nat.le_refl _,fun s hl hu => by omega,by simp [hp]⟩
      simp [advanceLoop,advanceStep,h.stallCheck scheduler,isMissing,
        slotPresence_of_forced h.forced,hp]
    | some known =>
      cases known with
      | present =>
        refine ⟨state,[],?_,rfl,h,Nat.le_refl _,fun s hl hu => by omega,by simp [hp]⟩
        simp [advanceLoop,advanceStep,h.stallCheck scheduler,isMissing,
          slotPresence_of_forced h.forced,hp,
          h.empty]
      | missing =>
        have hnext := satSucc_of_state hp
        have hend := SlotPresenceMap.le_end_of_state hp
        have hstep := advanceStep_skip (h.stallCheck scheduler) h.forced hp
          (h.empty _)
        have hcur : (passCurrent state).currentSlot = state.currentSlot + 1 := hnext
        obtain ⟨final,events,hloop,hemitted,hfinal,hle,hbetween,hstop⟩ :=
          ih (h.pass hp) (by omega)
        refine ⟨final,.skip state.currentSlot :: events,?_,hemitted,hfinal,by omega,?_,hstop⟩
        · simp only [advanceLoop,hstep,ok_bind,if_true,hloop]
          rfl
        · intro s hl hu
          by_cases heq : s = state.currentSlot
          · rw [heq,hp]
          · exact hbetween s (by omega) hu

theorem drainCurrent_unseen {buffer : SlotExecutionBuffer C}
    (h : state.highestSeenSlot ≤ state.currentSlot) :
    drainCurrent state buffer =
      ((buffer.drainReadyEntries state.currentSlot).2.shouldFinalize state.currentSlot) >>=
        fun complete =>
          let drained := setBuffer state state.currentSlot
            (buffer.drainReadyEntries state.currentSlot).2
          if complete then
            .ok (true,passCurrent drained,
              (buffer.drainReadyEntries state.currentSlot).1.map .emit ++
                [.finalize state.currentSlot])
          else .ok (false,drained,(buffer.drainReadyEntries state.currentSlot).1.map .emit) := by
  have hseen : ¬ state.currentSlot < state.highestSeenSlot := Nat.not_lt.mpr h
  simp only [drainCurrent,hseen,if_false]

theorem advanceStep_present {buffer : SlotExecutionBuffer C}
    (hstall : scheduler.stallCheck state = .ok ()) (hforced : state.forcedMissing = ∅)
    (hpresent : scheduler.presence.state state.currentSlot = some .present)
    (hb : state.slots.lookup state.currentSlot = some buffer) :
    scheduler.advanceStep state = drainCurrent state buffer := by
  simp only [advanceStep,hstall,isMissing,slotPresence_of_forced hforced,hpresent,hb,
    Option.map_some,reduceCtorEq,decide_false]
  rfl

end Loops

structure Streaming (scheduler : TransactionScheduler) (blocks : Nat → BlockData C) (t : Nat)
    (state : SchedulerState C) (slot : Nat) (done : List (PendingEntry C)) (pushed : Nat)
    (f : Nat → Option (ScheduledTransaction C)) : Prop where
  lone : Lone scheduler state slot
  filling : Filling (blocks slot) t (bufferAt state slot) done pushed f
  expected : (bufferAt state slot).expectedTxCount = none ∧
    (bufferAt state slot).expectedEntryCount = none

section Slots

variable {scheduler : TransactionScheduler} {blocks : Nat → BlockData C}
  {state : SchedulerState C} {t slot : Nat} {done : List (PendingEntry C)} {pushed : Nat}
  {f : Nat → Option (ScheduledTransaction C)}

theorem clean_init {startSlot : Nat} (hstart : 1 ≤ startSlot) :
    Clean (init startSlot : SchedulerState C) :=
  ⟨by simp only [init]; omega,by simp only [init]; omega,rfl,fun _ _ => rfl,fun _ => rfl⟩

theorem Clean.streaming (h : Clean state) (hle : state.currentSlot ≤ slot)
    (hmissing : ∀ s, state.currentSlot ≤ s → s < slot →
      scheduler.presence.state s = some .missing)
    (hgap : scheduler.emptySlotBufferGapLimit = 0 ∨
      slot - state.currentSlot < scheduler.emptySlotBufferGapLimit) :
    Streaming scheduler blocks 0 state slot [] 0 (fun _ => none) := by
  have hbuffer : bufferAt state slot = .default := by simp [bufferAt,h.empty]
  refine ⟨⟨h.finalized,hle,hmissing,hgap,Nat.le_trans h.highest hle,h.forced,h.inferred,
    fun s _ => h.empty s⟩,?_,?_⟩
  · rw [hbuffer]
    exact .default _
  · rw [hbuffer]
    exact ⟨rfl,rfl⟩

section

variable (h : Lone scheduler state slot)
include h

theorem Lone.stored (buffer : SlotExecutionBuffer C) :
    Lone scheduler (setBuffer state slot buffer) slot :=
  ⟨h.finalized,h.current_le,h.missing,h.gap,h.highest,h.forced,h.inferred,
    fun s hne => (AList.lookup_insert_ne hne).trans (h.others s hne)⟩

theorem Lone.noted : Lone scheduler (seen state slot) slot :=
  ⟨h.finalized,h.current_le,h.missing,h.gap,Nat.max_le.mpr ⟨h.highest,Nat.le_refl _⟩,h.forced,
    h.inferred,h.others⟩

theorem Lone.advance_open {buffer : SlotExecutionBuffer C}
    (hpresent : scheduler.presence.state slot = some .present)
    (hb : state.slots.lookup slot = some buffer)
    (hfill : Filling (blocks slot) t buffer done pushed f)
    (hexpected : buffer.expectedTxCount = none ∧ buffer.expectedEntryCount = none) :
    ∃ final events released, scheduler.advanceReady state = .ok (final,events) ∧
      Streaming scheduler blocks t final slot (done ++ released) pushed f ∧
      final.currentSlot = slot ∧
      emittedEntries events = released.map ((blocks slot).remainder slot t) := by
  obtain ⟨start,skips,hstart,hcur,hlookup,hskips,hloop⟩ := h.approach
  obtain ⟨released,hdrained,hready,hexptx,hexpentry,_⟩ := hfill.drain slot
  rw [hb] at hlookup
  have hopen : (buffer.drainReadyEntries slot).2.shouldFinalize slot = .ok false := by
    simp [shouldFinalize,hexptx,hexpected.1]
  have hstep : scheduler.advanceStep start =
      .ok (false,setBuffer start slot (buffer.drainReadyEntries slot).2,
        (buffer.drainReadyEntries slot).1.map .emit) := by
    rw [advanceStep_present hstart.stallCheck hstart.forced (by rw [hcur]; exact hpresent)
      (by rw [hcur]; exact hlookup),drainCurrent_unseen (by rw [hcur]; exact hstart.highest),hcur,
      hopen]
    rfl
  have hend := SlotPresenceMap.le_end_of_state hpresent
  have hle := h.current_le
  obtain ⟨fuel,hfuel⟩ : ∃ fuel, scheduler.presence.endInclusive + 1 - state.currentSlot + 1 =
      slot - state.currentSlot + (fuel + 1) :=
    ⟨scheduler.presence.endInclusive + 1 - slot,by omega⟩
  refine ⟨setBuffer start slot (buffer.drainReadyEntries slot).2,
    skips ++ (buffer.drainReadyEntries slot).1.map .emit,released,?_,⟨?_,?_,?_⟩,hcur,?_⟩
  · rw [advanceReady,hfuel,hloop,advanceLoop,hstep]
    rfl
  · exact hstart.stored _
  · rw [bufferAt_setBuffer,if_pos rfl]
    exact hdrained
  · rw [bufferAt_setBuffer,if_pos rfl,hexptx,hexpentry]
    exact hexpected
  · rw [emittedEntries_append,hskips,emittedEntries_emit,List.nil_append]
    exact hready

theorem Lone.advance_complete {buffer : SlotExecutionBuffer C}
    (hpresent : scheduler.presence.state slot = some .present)
    (hb : state.slots.lookup slot = some buffer)
    (hfill : Filling (blocks slot) t buffer done (blocks slot).entries.length f)
    (htxs : ∀ i, i < (blocks slot).txs.length → i < max t (txSum done) ∨ f i ≠ none)
    (hexpected : buffer.expectedTxCount = some (blocks slot).txs.length ∧
      buffer.expectedEntryCount = some (blocks slot).entries.length) :
    ∃ final events, scheduler.advanceReady state = .ok (final,events) ∧ Clean final ∧
      slot < final.currentSlot ∧
      (∀ s, slot < s → s < final.currentSlot → scheduler.presence.state s = some .missing) ∧
      scheduler.presence.state final.currentSlot ≠ some .missing ∧ .finalize slot ∈ events ∧
      emittedEntries events =
        ((blocks slot).entries.drop done.length).map ((blocks slot).remainder slot t) := by
  obtain ⟨start,skips,hstart,hcur,hlookup,hskips,hloop⟩ := h.approach
  obtain ⟨hdrained,hready,hexptx,hexpentry,hpending⟩ := hfill.drain_all htxs slot
  rw [hb] at hlookup
  have hcomplete : (buffer.drainReadyEntries slot).2.shouldFinalize slot = .ok true := by
    have hempty := hdrained.buffered_zero
    have htx := hdrained.processed_all
    have hentry := hdrained.entryCount
    simp [shouldFinalize,hexptx,hexpentry,hexpected.1,hexpected.2,htx,hentry,hpending,hempty]
  have hstep : scheduler.advanceStep start =
      .ok (true,passCurrent (setBuffer start slot (buffer.drainReadyEntries slot).2),
        (buffer.drainReadyEntries slot).1.map .emit ++ [.finalize slot]) := by
    rw [advanceStep_present hstart.stallCheck hstart.forced (by rw [hcur]; exact hpresent)
      (by rw [hcur]; exact hlookup),drainCurrent_unseen (by rw [hcur]; exact hstart.highest),hcur,
      hcomplete]
    rfl
  have hend := SlotPresenceMap.le_end_of_state hpresent
  have hle := h.current_le
  have hnext := satSucc_of_state hpresent
  have hpassed : Clean (passCurrent (setBuffer start slot (buffer.drainReadyEntries slot).2)) := by
    refine ⟨?_,?_,hstart.forced,?_,?_⟩
    · simp only [passCurrent,setBuffer_currentSlot,hcur,hnext]
    · have hhighest := hstart.highest
      simp only [passCurrent,setBuffer_currentSlot,hcur,hnext]
      exact Nat.le_succ_of_le hhighest
    · intro s hl
      simp only [passCurrent,setBuffer_currentSlot,hcur,hnext] at hl
      exact hstart.inferred s (by omega)
    · intro s
      simp only [passCurrent,hcur,setBuffer]
      by_cases heq : s = slot
      · subst heq
        exact AList.lookup_erase _ _
      · rw [AList.lookup_erase_ne heq,AList.lookup_insert_ne heq]
        exact hstart.others s heq
  have hat : (passCurrent (setBuffer start slot
      (buffer.drainReadyEntries slot).2)).currentSlot = slot + 1 := by
    simp only [passCurrent,setBuffer_currentSlot,hcur,hnext]
  obtain ⟨final,events,hrest,hemitted,hfinal,hle',hbetween,hstop⟩ :=
    hpassed.advance scheduler
      (show _ < scheduler.presence.endInclusive + 1 - slot by rw [hat]; omega)
  rw [hat] at hle' hbetween
  obtain hfuel : scheduler.presence.endInclusive + 1 - state.currentSlot + 1 =
      slot - state.currentSlot + (scheduler.presence.endInclusive + 1 - slot + 1) := by omega
  refine ⟨final,skips ++ ((buffer.drainReadyEntries slot).1.map .emit ++ [.finalize slot] ++
    events),
    ?_,hfinal,hle',fun s hl hu => hbetween s hl hu,hstop,by simp,?_⟩
  · rw [advanceReady,hfuel,hloop,advanceLoop,hstep]
    simp only [ok_bind,if_true,hrest]
  · simp only [emittedEntries_append,hskips,emittedEntries_emit,emittedEntries_finalize,hemitted,
      List.nil_append,List.append_nil]
    exact hready

end

end Slots

def SchedulerCall.pushed : SchedulerCall C → Option (PendingEntry C)
  | .pushEntry _ entry => some entry
  | _ => none

def BlockData.metadataCall (block : BlockData C) (slot : Nat) : SchedulerCall C :=
  .recordBlockMetadata slot block.txs.length block.entries.length

/-- The data of one slot as the firehose streams it: every transaction and every
entry of the block, the entries in order. -/
structure SlotDelivery (block : BlockData C) (slot : Nat) (data : List (SchedulerCall C)) :
    Prop where
  pieces : ∀ call ∈ data, call.slot = slot ∧ call.IsData ∧ block.Delivers call
  entries : data.filterMap SchedulerCall.pushed = block.entries
  txs : ∀ index tx statusMeta, block.txs[index]? = some (tx,statusMeta) →
    .insertTransaction slot index tx statusMeta ∈ data

structure Sent (t : Nat) (sent : List (SchedulerCall C)) (slot : Nat)
    (done : List (PendingEntry C)) (pushed : Nat) (f : Nat → Option (ScheduledTransaction C)) :
    Prop where
  entries : (sent.filterMap SchedulerCall.pushed).length ≤ pushed
  txs : ∀ index tx statusMeta, .insertTransaction slot index tx statusMeta ∈ sent →
    index < max t (txSum done) ∨ f index ≠ none

theorem sent_nil (t slot : Nat) (done : List (PendingEntry C)) (pushed : Nat)
    (f : Nat → Option (ScheduledTransaction C)) : Sent t [] slot done pushed f :=
  ⟨Nat.zero_le _,fun _ _ _ h => absurd h List.not_mem_nil⟩

theorem Sent.grow {t : Nat} {sent : List (SchedulerCall C)} {slot : Nat}
    {done released : List (PendingEntry C)} {pushed more : Nat}
    {f g : Nat → Option (ScheduledTransaction C)} (h : Sent t sent slot done pushed f)
    (hmore : pushed ≤ more) (hfg : ∀ i, f i ≠ none → g i ≠ none) :
    Sent t sent slot (done ++ released) more g := by
  refine ⟨Nat.le_trans h.entries hmore,fun index tx statusMeta hmem => ?_⟩
  rw [txSum_append]
  rcases h.txs index tx statusMeta hmem with hlt | hsome
  · exact .inl (by omega)
  · exact .inr (hfg index hsome)

section Calls

variable [DecidableEq C.Sig] [DecidableEq C.Status] {scheduler : TransactionScheduler}
  {blocks : Nat → BlockData C} {tracker : RestartTracker} {state : SchedulerState C} {t slot : Nat}
  {done : List (PendingEntry C)} {pushed : Nat} {f : Nat → Option (ScheduledTransaction C)}
  {sent rest data : List (SchedulerCall C)} {call : SchedulerCall C}

omit [DecidableEq C.Sig] [DecidableEq C.Status] in
theorem Streaming.not_late (h : Streaming scheduler blocks t state slot done pushed f) :
    state.lastFinalizedSlot < slot := by
  have hfinalized := h.lone.finalized
  have hle := h.lone.current_le
  omega

theorem Streaming.deliver (h : Streaming scheduler blocks t state slot done pushed f)
    (hidle : tracker.pending = false) (hpresent : scheduler.presence.state slot = some .present)
    (hdelivery : SlotDelivery (blocks slot) slot (sent ++ call :: rest))
    (hsent : Sent t sent slot done pushed f) :
    ∃ final events released more g,
      scheduler.trackedCall tracker state call = .ok (tracker,final,events) ∧
      Streaming scheduler blocks t final slot (done ++ released) more g ∧
      final.currentSlot = slot ∧ Sent t (sent ++ [call]) slot (done ++ released) more g ∧
      emittedEntries events = released.map ((blocks slot).remainder slot t) := by
  obtain ⟨hslot,hdata,hblock⟩ := hdelivery.pieces call (by simp)
  have hlate := h.not_late
  cases call with
  | insertTransaction s index tx statusMeta =>
    obtain rfl : s = slot := hslot
    obtain ⟨inserted,next,g,hinsert,hfill,hexptx,hexpentry,hgrow,hin⟩ :=
      h.filling.insertTransaction hblock
    obtain ⟨final,events,released,hloop,hfinal,hcur,hemitted⟩ :=
      (h.lone.noted.stored next).advance_open hpresent (AList.lookup_insert _) hfill
        (by rw [hexptx,hexpentry]; exact h.expected)
    refine ⟨final,events,released,pushed,g,?_,hfinal,hcur,?_,hemitted⟩
    · simp only [trackedCall,RestartTracker.takeIfApplicable,hidle,if_true,restartSignal,
        insertTransaction_of_ok hlate hinsert hloop,ok_bind]
    · have hold : Sent t sent s (done ++ released) pushed g := hsent.grow (Nat.le_refl _) hgrow
      refine ⟨by simpa [List.filterMap_cons,SchedulerCall.pushed] using hold.entries,
        fun i vtx status hmem => ?_⟩
      rw [List.mem_append,List.mem_singleton] at hmem
      rcases hmem with hmem | heq
      · exact hold.txs i vtx status hmem
      · cases heq
        rw [txSum_append]
        exact hin.imp_left fun hlt => by omega
  | pushEntry s entry =>
    obtain rfl : s = slot := hslot
    have hindex : entry.entryIndex = (sent.filterMap SchedulerCall.pushed).length := by
      refine (blocks s).indexed _ entry ?_
      rw [← hdelivery.entries]
      simp [SchedulerCall.pushed]
    obtain ⟨inserted,next,hpush,hfill,hexptx,hexpentry⟩ :=
      h.filling.pushEntry hblock (by rw [hindex]; exact hsent.entries)
    obtain ⟨final,events,released,hloop,hfinal,hcur,hemitted⟩ :=
      (h.lone.noted.stored next).advance_open hpresent (AList.lookup_insert _) hfill
        (by rw [hexptx,hexpentry]; exact h.expected)
    refine ⟨final,events,released,_,f,?_,hfinal,hcur,?_,hemitted⟩
    · simp only [trackedCall,RestartTracker.takeIfApplicable,hidle,if_true,restartSignal,
        pushEntry_of_ok hlate hpush hloop,ok_bind]
    · have hold : Sent t sent s (done ++ released) (max pushed (entry.entryIndex + 1)) f :=
        hsent.grow (Nat.le_max_left _ _) fun _ hi => hi
      refine ⟨?_,fun i vtx status hmem => hold.txs i vtx status (by simpa using hmem)⟩
      have hlast : (sent.filterMap SchedulerCall.pushed).length + 1 ≤
          max pushed (entry.entryIndex + 1) := by
        rw [← hindex]
        exact Nat.le_max_right _ _
      simpa [List.filterMap_cons,SchedulerCall.pushed] using hlast
  | recordBlockMetadata | forceMarkMissing => exact hdata.elim

variable (tracker) in
theorem Streaming.finish (h : Streaming scheduler blocks t state slot done pushed f)
    (hpresent : scheduler.presence.state slot = some .present)
    (hdelivery : SlotDelivery (blocks slot) slot data) (hsent : Sent t data slot done pushed f) :
    ∃ final events,
      scheduler.trackedCall tracker state ((blocks slot).metadataCall slot) =
        .ok (tracker,final,events) ∧
      Clean final ∧ slot < final.currentSlot ∧
      (∀ s, slot < s → s < final.currentSlot → scheduler.presence.state s = some .missing) ∧
      scheduler.presence.state final.currentSlot ≠ some .missing ∧ .finalize slot ∈ events ∧
      emittedEntries events =
        ((blocks slot).entries.drop done.length).map ((blocks slot).remainder slot t) := by
  have hpushed : pushed = (blocks slot).entries.length := by
    have hle := hsent.entries
    rw [hdelivery.entries] at hle
    exact Nat.le_antisymm h.filling.pushed_le hle
  subst hpushed
  have htxs : ∀ i, i < (blocks slot).txs.length → i < max t (txSum done) ∨ f i ≠ none := by
    intro i hi
    exact hsent.txs i _ _ (hdelivery.txs i _ _ (List.getElem?_eq_getElem hi))
  have hinferred := h.lone.inferred slot h.lone.current_le
  have hset : (bufferAt state slot).setExpectedCounts (blocks slot).txs.length
      (blocks slot).entries.length = .ok { bufferAt state slot with
        expectedTxCount := some (blocks slot).txs.length
        expectedEntryCount := some (blocks slot).entries.length } := by
    simp [setExpectedCounts,h.expected]
  have hlone : Lone scheduler { seen state slot with
      inferredBlocks := Function.update state.inferredBlocks slot none } slot := by
    refine { h.lone.noted with inferred := fun s hl => ?_ }
    by_cases heq : s = slot
    · rw [heq]
      exact Function.update_self _ _ _
    · exact (Function.update_of_ne heq _ _).trans (h.lone.inferred s hl)
  obtain ⟨final,events,hloop,hclean,hlt,hbetween,hstop,hfinal,hemitted⟩ :=
    (hlone.stored { bufferAt state slot with
      expectedTxCount := some (blocks slot).txs.length
      expectedEntryCount := some (blocks slot).entries.length }).advance_complete hpresent
        (AList.lookup_insert _) { h.filling with } htxs ⟨rfl,rfl⟩
  refine ⟨final,events,?_,hclean,hlt,hbetween,hstop,hfinal,hemitted⟩
  simp only [trackedCall,BlockData.metadataCall,
    recordBlockMetadata_of_ok h.not_late hinferred hset hloop,ok_bind]

end Calls

def TransactionScheduler.trackedRun [DecidableEq C.Sig] [DecidableEq C.Status]
    (scheduler : TransactionScheduler) (tracker : RestartTracker) (state : SchedulerState C) :
    List (SchedulerCall C) →
      Except (SchedulerError C) (RestartTracker × SchedulerState C × List (SchedulerEvent C))
  | [] => .ok (tracker,state,[])
  | call :: rest => do
      let (tracker,state,events) ← scheduler.trackedCall tracker state call
      let (tracker,state,following) ← scheduler.trackedRun tracker state rest
      .ok (tracker,state,events ++ following)

def slotCalls (blocks : Nat → BlockData C) (data : Nat → List (SchedulerCall C)) (slot : Nat) :
    List (SchedulerCall C) :=
  data slot ++ [(blocks slot).metadataCall slot]

/-- What the firehose streams from a slot on: the present slots in order, each
from its beginning. -/
def streamFrom (presence : SlotPresenceMap) (blocks : Nat → BlockData C)
    (data : Nat → List (SchedulerCall C)) (slot : Nat) : List (SchedulerCall C) :=
  (List.range' slot (presence.endInclusive + 1 - slot)).flatMap fun s =>
    if presence.state s = some .present then slotCalls blocks data s else []

section Streams

variable [DecidableEq C.Sig] [DecidableEq C.Status] {scheduler : TransactionScheduler}
  {blocks : Nat → BlockData C} {tracker : RestartTracker} {state : SchedulerState C} {t slot : Nat}
  {done : List (PendingEntry C)} {pushed : Nat} {f : Nat → Option (ScheduledTransaction C)}
  {data : Nat → List (SchedulerCall C)}

theorem trackedRun_append {calls more : List (SchedulerCall C)} {middle last : RestartTracker}
    {next final : SchedulerState C} {events following : List (SchedulerEvent C)}
    (hcalls : scheduler.trackedRun tracker state calls = .ok (middle,next,events))
    (hmore : scheduler.trackedRun middle next more = .ok (last,final,following)) :
    scheduler.trackedRun tracker state (calls ++ more) = .ok (last,final,events ++ following) := by
  induction calls generalizing tracker state events with
  | nil =>
    cases hcalls
    exact hmore
  | cons call rest ih =>
    obtain ⟨⟨t,s,first⟩,hcall,h⟩ := bind_ok hcalls
    obtain ⟨⟨t',s',others⟩,hrest,h⟩ := bind_ok h
    cases h
    rw [List.cons_append,trackedRun,hcall]
    simp only [ok_bind,ih hrest,List.append_assoc]

theorem trackedRun_single {call : SchedulerCall C} {last : RestartTracker}
    {final : SchedulerState C} {events : List (SchedulerEvent C)}
    (h : scheduler.trackedCall tracker state call = .ok (last,final,events)) :
    scheduler.trackedRun tracker state [call] = .ok (last,final,events) := by
  simp only [trackedRun,h,ok_bind,List.append_nil]

theorem Streaming.run_data {sent rest : List (SchedulerCall C)}
    (h : Streaming scheduler blocks t state slot done pushed f) (hidle : tracker.pending = false)
    (hpresent : scheduler.presence.state slot = some .present)
    (hdelivery : SlotDelivery (blocks slot) slot (sent ++ rest))
    (hsent : Sent t sent slot done pushed f) :
    ∃ final events released more g,
      scheduler.trackedRun tracker state rest = .ok (tracker,final,events) ∧
      Streaming scheduler blocks t final slot (done ++ released) more g ∧
      Sent t (sent ++ rest) slot (done ++ released) more g ∧
      emittedEntries events = released.map ((blocks slot).remainder slot t) := by
  induction rest generalizing state sent done pushed f with
  | nil =>
    refine ⟨state,[],[],pushed,f,rfl,?_,?_,rfl⟩
    · rw [List.append_nil]
      exact h
    · rw [List.append_nil,List.append_nil]
      exact hsent
  | cons call rest ih =>
    obtain ⟨next,first,released,more,g,hcall,hnext,_,hsent',hfirst⟩ :=
      h.deliver hidle hpresent hdelivery hsent
    rw [List.append_cons] at hdelivery
    obtain ⟨final,events,others,last,k,hrest,hfinal,hall,hevents⟩ := ih hnext hdelivery hsent'
    refine ⟨final,first ++ events,released ++ others,last,k,?_,?_,?_,?_⟩
    · simp only [trackedRun,hcall,ok_bind,hrest]
    · rw [← List.append_assoc]
      exact hfinal
    · rw [← List.append_assoc]
      simpa using hall
    · rw [emittedEntries_append,hfirst,hevents,List.map_append]

theorem Streaming.run_slot (h : Streaming scheduler blocks t state slot done pushed f)
    (hidle : tracker.pending = false) (hpresent : scheduler.presence.state slot = some .present)
    (hdelivery : SlotDelivery (blocks slot) slot (data slot)) :
    ∃ final events,
      scheduler.trackedRun tracker state (slotCalls blocks data slot) =
        .ok (tracker,final,events) ∧
      Clean final ∧ slot < final.currentSlot ∧
      (∀ s, slot < s → s < final.currentSlot → scheduler.presence.state s = some .missing) ∧
      scheduler.presence.state final.currentSlot ≠ some .missing ∧ .finalize slot ∈ events ∧
      emittedEntries events =
        ((blocks slot).entries.drop done.length).map ((blocks slot).remainder slot t) := by
  obtain ⟨next,first,released,more,g,hrun,hnext,hsent,hfirst⟩ :=
    h.run_data hidle hpresent hdelivery (sent_nil t slot done pushed f)
  obtain ⟨final,events,hcall,hclean,hlt,hbetween,hstop,hfinal,hevents⟩ :=
    hnext.finish tracker hpresent hdelivery hsent
  refine ⟨final,first ++ events,trackedRun_append hrun (trackedRun_single hcall),hclean,hlt,
    hbetween,hstop,List.mem_append_right _ hfinal,?_⟩
  -- The released entries follow the ones that were done before.
  obtain ⟨rest,hrest⟩ : ∃ rest, (blocks slot).entries = done ++ released ++ rest := by
    have hentries := hnext.filling.entries
    refine ⟨(bufferAt next slot).pendingEntries ++ (blocks slot).entries.drop more,?_⟩
    rw [← List.append_assoc,← hentries,List.take_append_drop]
  rw [emittedEntries_append,hfirst,hevents,← List.map_append,hrest,List.drop_left]
  rw [List.append_assoc,List.drop_left]

/-- The scheduler waits for the first slot from `slot` on that is not missing. -/
structure Waiting (scheduler : TransactionScheduler) (state : SchedulerState C) (slot : Nat) :
    Prop where
  clean : Clean state
  le_current : slot ≤ state.currentSlot
  missing : ∀ s, slot ≤ s → s < state.currentSlot → scheduler.presence.state s = some .missing
  stop : scheduler.presence.state state.currentSlot ≠ some .missing

omit [DecidableEq C.Sig] [DecidableEq C.Status] in
theorem Waiting.current_eq (h : Waiting scheduler state slot)
    (hpresent : scheduler.presence.state slot ≠ some .missing) : state.currentSlot = slot := by
  by_contra hne
  have hle := h.le_current
  exact hpresent (h.missing slot (Nat.le_refl _) (by omega))

omit [DecidableEq C.Sig] [DecidableEq C.Status] in
variable (blocks) in
theorem Waiting.streaming (h : Waiting scheduler state slot)
    (hpresent : scheduler.presence.state slot ≠ some .missing) :
    Streaming scheduler blocks 0 state slot [] 0 (fun _ => none) := by
  have hcur := h.current_eq hpresent
  exact h.clean.streaming (Nat.le_of_eq hcur) (fun s hl hu => by omega) (by omega)

theorem Waiting.run_slots (h : Waiting scheduler state slot) (hidle : tracker.pending = false)
    (hrange : scheduler.presence.start ≤ slot)
    (hdata : ∀ s, scheduler.presence.state s = some .present →
      SlotDelivery (blocks s) s (data s))
    (count : Nat) (hend : slot + count ≤ scheduler.presence.endInclusive + 1) :
    ∃ final events,
      scheduler.trackedRun tracker state ((List.range' slot count).flatMap fun s =>
        if scheduler.presence.state s = some .present then slotCalls blocks data s else []) =
          .ok (tracker,final,events) ∧
      Waiting scheduler final (slot + count) ∧
      emittedEntries events = (List.range' slot count).flatMap fun s =>
        if scheduler.presence.state s = some .present then (blocks s).ready s else [] := by
  induction count generalizing slot state with
  | zero => exact ⟨state,[],rfl,h,rfl⟩
  | succ count ih =>
    rw [List.range'_succ,List.flatMap_cons,List.flatMap_cons]
    by_cases hp : scheduler.presence.state slot = some .present
    · rw [if_pos hp,if_pos hp]
      obtain ⟨next,first,hrun,hclean,hlt,hbetween,hstop,-,hfirst⟩ :=
        (h.streaming blocks (by simp [hp])).run_slot hidle hp (hdata slot hp)
      have hwaiting : Waiting scheduler next (slot + 1) := ⟨hclean,hlt,hbetween,hstop⟩
      obtain ⟨final,events,hrest,hfinal,hevents⟩ := ih hwaiting (by omega) (by omega)
      refine ⟨final,first ++ events,trackedRun_append hrun hrest,?_,?_⟩
      · rw [Nat.add_assoc,Nat.add_comm 1 count] at hfinal
        exact hfinal
      · rw [emittedEntries_append,hfirst,hevents,BlockData.remainder_zero]
        rfl
    · rw [if_neg hp,if_neg hp,List.nil_append,List.nil_append]
      have hmissing : scheduler.presence.state slot = some .missing := by
        cases hs : scheduler.presence.state slot with
        | none => exact absurd (SlotPresenceMap.state_eq_none hs hrange) (by omega)
        | some known =>
          cases known with
          | present => exact absurd hs hp
          | missing => rfl
      have hne : slot ≠ state.currentSlot := fun heq => h.stop (heq ▸ hmissing)
      have hle := h.le_current
      have hwaiting : Waiting scheduler state (slot + 1) :=
        ⟨h.clean,by omega,fun s hl hu => h.missing s (by omega) hu,h.stop⟩
      obtain ⟨final,events,hrest,hfinal,hevents⟩ := ih hwaiting (by omega) (by omega)
      refine ⟨final,events,hrest,?_,hevents⟩
      rw [Nat.add_assoc,Nat.add_comm 1 count] at hfinal
      exact hfinal

omit [DecidableEq C.Sig] [DecidableEq C.Status] in
/-- A restart at a slot the scheduler has reached leaves it in the middle of that
slot, after the resume position. -/
theorem applyRestart_streaming {entryIndex : Nat}
    (hfinalized : state.currentSlot = state.lastFinalizedSlot + 1)
    (hforced : state.forcedMissing = ∅) (hslot : 1 ≤ slot)
    (hahead : ∀ s, state.currentSlot ≤ s → s < slot →
      scheduler.presence.state s = some .missing)
    (hgap : scheduler.emptySlotBufferGapLimit = 0 ∨
      slot - state.currentSlot < scheduler.emptySlotBufferGapLimit)
    (hinferred : ∀ s, state.currentSlot ≤ s → state.inferredBlocks s = none)
    (hbelow : ∀ s, s < slot → state.slots.lookup s = none)
    (hentry : entryIndex ≤ (blocks slot).entries.length)
    (hreaches : (blocks slot).Reaches ((blocks slot).entries.take entryIndex) t) {txStart : Nat}
    (htx : txStart = max t (txSum ((blocks slot).entries.take entryIndex))) :
    Streaming scheduler blocks t (applyRestart state ⟨slot,entryIndex,txStart⟩) slot
      ((blocks slot).entries.take entryIndex) entryIndex (fun _ => none) := by
  have hnone : retainBelow state.slots slot = ∅ := by
    refine AList.ext ?_
    refine List.filter_eq_nil_iff.mpr fun item hmem hlt => ?_
    have hlookup := hbelow item.1 (by simpa using hlt)
    rw [AList.mem_lookup_iff.mpr hmem] at hlookup
    cases hlookup
  have hcur : (applyRestart state ⟨slot,entryIndex,txStart⟩).currentSlot =
      min slot state.currentSlot := by
    simp only [applyRestart,setBuffer_currentSlot]
    split <;> omega
  have hlast : (applyRestart state ⟨slot,entryIndex,txStart⟩).lastFinalizedSlot =
        min slot state.currentSlot - 1 := by
    change (if slot ≤ state.lastFinalizedSlot then slot - 1 else state.lastFinalizedSlot) = _
    split <;> omega
  have hhighest : (applyRestart state ⟨slot,entryIndex,txStart⟩).highestSeenSlot =
        min slot state.currentSlot - 1 := by
    rw [← hlast]
    simp only [applyRestart,setBuffer,hnone]
    rfl
  refine ⟨⟨?_,?_,?_,?_,?_,hforced,?_,?_⟩,?_,?_⟩
  · rw [hcur,hlast]
    omega
  · rw [hcur]
    omega
  · intro s hl hu
    rw [hcur] at hl
    exact hahead s (by omega) hu
  · rw [hcur]
    omega
  · rw [hhighest]
    omega
  · intro s hl
    rw [hcur] at hl
    change (if s < slot then state.inferredBlocks s else none) = none
    split
    · exact hinferred s (by omega)
    · rfl
  · intro s hne
    simp only [applyRestart,setBuffer,hnone]
    exact AList.lookup_insert_ne hne
  · simp only [applyRestart,bufferAt_setBuffer,if_true,htx]
    exact .resumed hentry hreaches
  · simp only [applyRestart,bufferAt_setBuffer,if_true]
    exact ⟨rfl,rfl⟩

theorem trackedCall_restart {call : SchedulerCall C} (hpending : tracker.pending = true)
    (hdata : call.IsData) (hslot : call.slot = tracker.slot) :
    scheduler.trackedCall tracker state call =
      scheduler.trackedCall { tracker with pending := false }
        (applyRestart state ⟨tracker.slot,tracker.entryIndex,tracker.txStart⟩) call := by
  cases call with
  | insertTransaction s index tx statusMeta =>
    obtain rfl : s = tracker.slot := hslot
    simp only [trackedCall,RestartTracker.takeIfApplicable,hpending,Bool.true_eq_false,if_false,
      Nat.lt_irrefl,false_and,and_false,if_true]
    rfl
  | pushEntry s entry =>
    obtain rfl : s = tracker.slot := hslot
    simp only [trackedCall,RestartTracker.takeIfApplicable,hpending,Bool.true_eq_false,if_false,
      Nat.lt_irrefl,false_and,and_false,if_true]
    rfl
  | recordBlockMetadata | forceMarkMissing => exact hdata.elim

theorem trackedCall_stale {call : SchedulerCall C} (hpending : tracker.pending = true)
    (hstale : tracker.allowStaleSkip = true) (hdata : call.IsData)
    (hslot : tracker.slot < call.slot) (hentry : tracker.entryIndex = 0)
    (htx : tracker.txStart = 0) :
    scheduler.trackedCall tracker state call =
      scheduler.trackedCall { tracker with pending := false } state call := by
  cases call with
  | insertTransaction s index tx statusMeta =>
    have hlt : tracker.slot < s := hslot
    simp only [trackedCall,RestartTracker.takeIfApplicable,hpending,Bool.true_eq_false,if_false,
      hstale,hlt,hentry,htx,and_self,if_true]
  | pushEntry s entry =>
    have hlt : tracker.slot < s := hslot
    simp only [trackedCall,RestartTracker.takeIfApplicable,hpending,Bool.true_eq_false,if_false,
      hstale,hlt,hentry,htx,and_self,if_true]
  | recordBlockMetadata | forceMarkMissing => exact hdata.elim

end Streams

def tickScheduler : TransactionScheduler := ⟨⟨1,1,[.present],rfl,by decide⟩,0⟩

def tickBlock : BlockData plainChain where
  entries := [⟨0,0,1,20,1⟩,⟨1,1,0,30,1⟩]
  txs := [(⟨[7],70⟩,⟨true,()⟩)]
  indexed k entry hk := by
    rcases k with _ | _ | k
    · obtain rfl := Option.some.inj hk
      rfl
    · obtain rfl := Option.some.inj hk
      rfl
    · simp at hk
  contiguous k entry hk := by
    rcases k with _ | _ | k
    · obtain rfl := Option.some.inj hk
      rfl
    · obtain rfl := Option.some.inj hk
      rfl
    · simp at hk
  counted := by decide

def tickData : List (SchedulerCall plainChain) :=
  [.insertTransaction 1 0 ⟨[7],70⟩ ⟨true,()⟩,.pushEntry 1 ⟨0,0,1,20,1⟩,.pushEntry 1 ⟨1,1,0,30,1⟩]

theorem tickData_delivery {slot : Nat} (h : tickScheduler.presence.state slot = some .present) :
    SlotDelivery tickBlock slot tickData := by
  obtain rfl : slot = 1 := by
    have hend : slot ≤ 1 := SlotPresenceMap.le_end_of_state h
    have hcases : slot = 0 ∨ slot = 1 := by omega
    rcases hcases with rfl | rfl
    · exact absurd h (by decide)
    · rfl
  refine ⟨?_,rfl,?_⟩
  · intro call hmem
    simp only [tickData,List.mem_cons,List.not_mem_nil,or_false] at hmem
    rcases hmem with rfl | rfl | rfl
    · exact ⟨rfl,trivial,rfl⟩
    · exact ⟨rfl,trivial,List.mem_cons_self⟩
    · exact ⟨rfl,trivial,List.mem_cons_of_mem _ List.mem_cons_self⟩
  · intro index tx statusMeta hat
    cases index with
    | zero =>
      obtain ⟨rfl,rfl⟩ := Prod.mk.inj (Option.some.inj hat)
      exact List.mem_cons_self
    | succ index => simp [tickBlock] at hat

end Jetstreamer.Node
