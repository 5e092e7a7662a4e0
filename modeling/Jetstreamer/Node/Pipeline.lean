import Jetstreamer.Node.Streaming
set_option autoImplicit false

namespace Jetstreamer.Node
open SlotExecutionBuffer TransactionScheduler Lib

variable {C : ChainTypes}

/-- The node while it replays: the firehose still has `remaining` to deliver,
the scheduler's ready entries wait in the queue, and the executor works through
its batch. `handed` is what the executor was given so far. -/
structure Pipeline (C : ChainTypes) where
  tracker : RestartTracker
  state : SchedulerState C
  remaining : List (SchedulerCall C)
  queue : List (List (ReadyEntry (ScheduledTransaction C) C.Hash))
  batch : List (ReadyEntry (ScheduledTransaction C) C.Hash)
  cursor : ReplayCursor
  handed : List (ReadyEntry (ScheduledTransaction C) C.Hash)

inductive PipelineStep where
  | deliver
  | receive
  | start
  | finish
  | restart (slot : Nat)

structure PipelineSetup (C : ChainTypes) where
  scheduler : TransactionScheduler
  startSlot : Nat
  blocks : Nat → BlockData C
  data : Nat → List (SchedulerCall C)
  coalesceCap : Nat

namespace PipelineSetup

def stream (setup : PipelineSetup C) (slot : Nat) : List (SchedulerCall C) :=
  streamFrom setup.scheduler.presence setup.blocks setup.data slot

def init (setup : PipelineSetup C) : Pipeline C :=
  ⟨.new,TransactionScheduler.init setup.startSlot,setup.stream setup.startSlot,[],[],.new,[]⟩

/-- One step of one of the threads. A step that is not possible waits. -/
def step [DecidableEq C.Sig] [DecidableEq C.Status] (setup : PipelineSetup C) (p : Pipeline C) :
    PipelineStep → Except (SchedulerError C) (Pipeline C)
  | .deliver =>
      match p.remaining with
      | [] => .ok p
      | call :: rest => do
          let (tracker,state,events) ← setup.scheduler.trackedCall p.tracker p.state call
          .ok { p with
            tracker := tracker
            state := state
            remaining := rest
            queue := sendEntries p.queue (emittedEntries events) }
  | .receive =>
      match p.cursor.inflight, p.batch with
      | none, [] =>
          match receiveReadyBatch setup.coalesceCap p.queue with
          | none => .ok p
          | some (batch,queue) => .ok { p with batch := batch, queue := queue }
      | _, _ => .ok p
  | .start =>
      match p.cursor.inflight, p.batch with
      | none, entry :: rest =>
          .ok { p with
            batch := rest
            handed := p.handed ++ [entry]
            cursor := p.cursor.startInflight entry.slot entry.entryIndex entry.startIndex
              entry.txCount }
      | _, _ => .ok p
  | .finish =>
      match p.cursor.inflight with
      | none => .ok p
      | some (slot,entryIndex,txStart,txCount) =>
          .ok { p with
            cursor := (p.cursor.update slot entryIndex txStart txCount).finishInflight }
  | .restart slot =>
      .ok { p with
        tracker := p.tracker.logRestart p.cursor slot
        remaining := setup.stream slot }

def run [DecidableEq C.Sig] [DecidableEq C.Status] (setup : PipelineSetup C)
    (steps : List PipelineStep) : Except (SchedulerError C) (Pipeline C) :=
  steps.foldlM setup.step setup.init

end PipelineSetup

namespace Pipeline

/-- Emitted by the scheduler, and not yet with the executor. -/
def waiting (p : Pipeline C) : List (ReadyEntry (ScheduledTransaction C) C.Hash) :=
  p.batch ++ p.queue.flatten

/-- Everything emitted from the slot on is of that slot and has been executed. -/
structure Quiet (p : Pipeline C) (slot : Nat) : Prop where
  waiting : ∀ entry ∈ p.waiting, entry.slot < slot
  handed : ∀ entry ∈ p.handed, entry.slot ≤ slot
  inflight : ∀ s entryIndex txStart txCount,
    p.cursor.inflight = some (s,entryIndex,txStart,txCount) → s < slot

end Pipeline

def transactionsOf (entries : List (ReadyEntry (ScheduledTransaction C) C.Hash)) :
    List (Nat × Nat) :=
  entries.flatMap fun entry =>
    (List.range' entry.startIndex entry.txCount).map fun index => (entry.slot,index)

def canonicalTransactions (presence : SlotPresenceMap) (startSlot : Nat)
    (blocks : Nat → BlockData C) : List (Nat × Nat) :=
  (List.range' startSlot (presence.endInclusive + 1 - startSlot)).flatMap fun slot =>
    if presence.state slot = some .present
    then (List.range (blocks slot).txs.length).map fun index => (slot,index) else []

theorem flatten_sendEntries {α : Type} (queue : List (List α)) (ready : List α) :
    (sendEntries queue ready).flatten = queue.flatten ++ ready := by
  cases ready with
  | nil => simp [sendEntries]
  | cons entry rest => simp [sendEntries]

theorem coalesce_flatten {α : Type} (cap : Nat) (entries : List α) (queue : List (List α)) :
    (coalesce cap entries queue).1 ++ (coalesce cap entries queue).2.flatten =
      entries ++ queue.flatten := by
  induction queue generalizing entries with
  | nil => rfl
  | cons more rest ih =>
    unfold coalesce
    split
    · rw [ih]
      simp
    · rfl

theorem receiveReadyBatch_flatten {α : Type} {cap : Nat} {queue rest : List (List α)}
    {batch : List α} (h : receiveReadyBatch cap queue = some (batch,rest)) :
    batch ++ rest.flatten = queue.flatten := by
  cases queue with
  | nil => cases h
  | cons entries queue =>
    simp only [receiveReadyBatch,Option.some.injEq] at h
    have hflat := coalesce_flatten cap entries queue
    rw [h] at hflat
    simpa using hflat

section Streams

variable {presence : SlotPresenceMap} {blocks : Nat → BlockData C}
  {data : Nat → List (SchedulerCall C)} {slot : Nat}

theorem streamFrom_past (h : presence.endInclusive < slot) :
    streamFrom presence blocks data slot = [] := by
  simp [streamFrom,show presence.endInclusive + 1 - slot = 0 by omega]

theorem streamFrom_present (h : presence.state slot = some .present) :
    streamFrom presence blocks data slot =
      slotCalls blocks data slot ++ streamFrom presence blocks data (slot + 1) := by
  have hend := SlotPresenceMap.le_end_of_state h
  have hcount : presence.endInclusive + 1 - slot = presence.endInclusive + 1 - (slot + 1) + 1 := by
    omega
  rw [streamFrom,hcount,List.range'_succ,List.flatMap_cons,if_pos h]
  rfl

theorem streamFrom_absent (h : presence.state slot ≠ some .present) :
    streamFrom presence blocks data slot = streamFrom presence blocks data (slot + 1) := by
  by_cases hend : slot ≤ presence.endInclusive
  · have hcount : presence.endInclusive + 1 - slot =
        presence.endInclusive + 1 - (slot + 1) + 1 := by omega
    rw [streamFrom,hcount,List.range'_succ,List.flatMap_cons,if_neg h]
    rfl
  · rw [streamFrom_past (by omega),streamFrom_past (by omega)]

theorem streamFrom_skip {next : Nat} (hle : slot ≤ next)
    (h : ∀ s, slot ≤ s → s < next → presence.state s ≠ some .present) :
    streamFrom presence blocks data slot = streamFrom presence blocks data next := by
  induction next, hle using Nat.le_induction with
  | base => rfl
  | succ next hle ih =>
    rw [ih fun s hl hu => h s hl (by omega),streamFrom_absent (h next hle (by omega))]

theorem le_of_mem_streamFrom
    (hdata : ∀ s, presence.state s = some .present → SlotDelivery (blocks s) s (data s))
    {call : SchedulerCall C} (h : call ∈ streamFrom presence blocks data slot) :
    slot ≤ call.slot := by
  obtain ⟨s,hs,hcall⟩ := List.mem_flatMap.mp h
  have hle := (List.mem_range'_1.mp hs).1
  split at hcall
  case isTrue hp =>
    rw [slotCalls,List.mem_append,List.mem_singleton] at hcall
    rcases hcall with hcall | rfl
    · rw [((hdata s hp).pieces call hcall).1]
      exact hle
    · exact hle
  case isFalse => cases hcall

theorem metadataCall_mem_streamFrom {start : Nat} (hle : start ≤ slot)
    (h : presence.state slot = some .present) :
    (blocks slot).metadataCall slot ∈ streamFrom presence blocks data start := by
  have hend := SlotPresenceMap.le_end_of_state h
  refine List.mem_flatMap.mpr ⟨slot,List.mem_range'_1.mpr ⟨hle,by omega⟩,?_⟩
  rw [if_pos h]
  exact List.mem_append_right _ (List.mem_singleton.mpr rfl)

end Streams

def replayBelow (presence : SlotPresenceMap) (startSlot : Nat) (blocks : Nat → BlockData C)
    (slot : Nat) : List (ReadyEntry (ScheduledTransaction C) C.Hash) :=
  (List.range' startSlot (slot - startSlot)).flatMap fun s =>
    if presence.state s = some .present then (blocks s).ready s else []

section Replay

variable {presence : SlotPresenceMap} {startSlot : Nat} {blocks : Nat → BlockData C} {slot : Nat}

theorem replayBelow_succ (h : startSlot ≤ slot) :
    replayBelow presence startSlot blocks (slot + 1) = replayBelow presence startSlot blocks slot ++
      if presence.state slot = some .present then (blocks slot).ready slot else [] := by
  have hcount : slot + 1 - startSlot = slot - startSlot + 1 := by omega
  rw [replayBelow,hcount,List.range'_concat,List.flatMap_append,List.flatMap_singleton]
  rw [show startSlot + 1 * (slot - startSlot) = slot by omega]
  rfl

theorem replayBelow_skip {next : Nat} (hstart : startSlot ≤ slot) (hle : slot ≤ next)
    (h : ∀ s, slot ≤ s → s < next → presence.state s ≠ some .present) :
    replayBelow presence startSlot blocks next = replayBelow presence startSlot blocks slot := by
  induction next, hle using Nat.le_induction with
  | base => rfl
  | succ next hle ih =>
    rw [replayBelow_succ (Nat.le_trans hstart hle),if_neg (h next hle (by omega)),
      ih fun s hl hu => h s hl (by omega),List.append_nil]

theorem mem_replayBelow {entry : ReadyEntry (ScheduledTransaction C) C.Hash}
    (h : entry ∈ replayBelow presence startSlot blocks slot) : entry.slot < slot := by
  obtain ⟨s,hs,hentry⟩ := List.mem_flatMap.mp h
  have hlt := List.mem_range'_1.mp hs
  split at hentry
  · obtain ⟨pending,_,rfl⟩ := List.mem_map.mp hentry
    change s < slot
    omega
  · cases hentry

theorem ready_mem_replayBelow {s : Nat} {entry : PendingEntry C} (hl : startSlot ≤ s)
    (hu : s < slot) (hp : presence.state s = some .present) (hmem : entry ∈ (blocks s).entries) :
    (blocks s).readyEntry s entry ∈ replayBelow presence startSlot blocks slot := by
  refine List.mem_flatMap.mpr ⟨s,List.mem_range'_1.mpr ⟨hl,by omega⟩,?_⟩
  rw [if_pos hp]
  exact List.mem_map_of_mem hmem

theorem replayBelow_mono {next : Nat} (hstart : startSlot ≤ slot) (hle : slot ≤ next) :
    replayBelow presence startSlot blocks slot <+: replayBelow presence startSlot blocks next := by
  induction next, hle using Nat.le_induction with
  | base => exact List.prefix_refl _
  | succ next hle ih =>
    rw [replayBelow_succ (Nat.le_trans hstart hle)]
    exact ih.trans (List.prefix_append _ _)

theorem replayBelow_past (h : presence.endInclusive < slot) :
    replayBelow presence startSlot blocks slot = canonicalReplay presence startSlot blocks := by
  have habsent : ∀ s, presence.endInclusive < s → presence.state s ≠ some .present :=
    fun s hs hp => absurd (SlotPresenceMap.le_end_of_state hp) (Nat.not_le.mpr hs)
  by_cases hstart : startSlot ≤ presence.endInclusive + 1
  · exact replayBelow_skip hstart h fun s hl _ => habsent s hl
  · have hnone : canonicalReplay presence startSlot blocks = [] := by
      simp [canonicalReplay,show presence.endInclusive + 1 - startSlot = 0 by omega]
    rw [hnone]
    refine List.flatMap_eq_nil_iff.mpr fun s hs => ?_
    have hl := (List.mem_range'_1.mp hs).1
    rw [if_neg (habsent s (by omega))]

theorem replayBelow_prefix {done : List (PendingEntry C)} (hstart : startSlot ≤ slot)
    (hdone : presence.state slot = some .present ∧ done <+: (blocks slot).entries ∨
      presence.endInclusive < slot ∧ done = []) :
    replayBelow presence startSlot blocks slot ++ done.map ((blocks slot).readyEntry slot) <+:
      canonicalReplay presence startSlot blocks := by
  rcases hdone with ⟨hp,hdone⟩ | ⟨hend,rfl⟩
  · have hend := SlotPresenceMap.le_end_of_state hp
    have hnext : replayBelow presence startSlot blocks (slot + 1) <+:
        canonicalReplay presence startSlot blocks :=
      replayBelow_mono (by omega) (show slot + 1 ≤ presence.endInclusive + 1 by omega)
    rw [replayBelow_succ hstart,if_pos hp] at hnext
    exact ((List.prefix_append_right_inj _).mpr (hdone.map _)).trans hnext
  · rw [List.map_nil,List.append_nil,replayBelow_past hend]

theorem transactionsOf_take (block : BlockData C) (slot count : Nat) :
    transactionsOf ((block.entries.take count).map (block.readyEntry slot)) =
      (List.range (txSum (block.entries.take count))).map fun index => (slot,index) := by
  induction count with
  | zero => rfl
  | succ count ih =>
    rw [List.take_add_one,List.map_append,transactionsOf,List.flatMap_append]
    cases hentry : block.entries[count]? with
    | none =>
      simp only [Option.toList_none,List.map_nil,List.flatMap_nil,List.append_nil]
      exact ih
    | some entry =>
      have hstart := block.contiguous count entry hentry
      simp only [Option.toList_some,List.map_singleton,List.flatMap_singleton,txSum_append,
        txSum_cons,txSum_nil,Nat.add_zero]
      rw [List.range_eq_range',← List.range'_append_1,List.map_append]
      rw [← List.range_eq_range',Nat.zero_add]
      exact congrArg₂ _ ih (by rw [← hstart]; rfl)

theorem transactionsOf_canonicalReplay :
    transactionsOf (canonicalReplay presence startSlot blocks) =
      canonicalTransactions presence startSlot blocks := by
  rw [canonicalReplay,transactionsOf,List.flatMap_assoc]
  refine List.flatMap_congr fun slot _ => ?_
  by_cases hp : presence.state slot = some .present
  · rw [if_pos hp,if_pos hp]
    have hall := transactionsOf_take (blocks slot) slot (blocks slot).entries.length
    rw [List.take_length,← (blocks slot).counted] at hall
    exact hall
  · rw [if_neg hp,if_neg hp]
    rfl

theorem transactionsOf_prefix {entries whole : List (ReadyEntry (ScheduledTransaction C) C.Hash)}
    (h : entries <+: whole) : transactionsOf entries <+: transactionsOf whole := by
  obtain ⟨rest,rfl⟩ := h
  rw [transactionsOf,transactionsOf,List.flatMap_append]
  exact List.prefix_append _ _

end Replay

/-- The cursor stands at the last entry of `entries`, or at its initial place. -/
def ReplayCursor.Describes (cursor : ReplayCursor)
    (entries : List (ReadyEntry (ScheduledTransaction C) C.Hash)) : Prop :=
  entries = [] ∧ cursor.slot = 0 ∨
    ∃ before entry, entries = before ++ [entry] ∧ cursor.slot = entry.slot ∧
      cursor.entryIndex = entry.entryIndex ∧ cursor.txStart = entry.startIndex ∧
      cursor.txCount = entry.txCount

/-- The cursor follows the executor: the last entry it was handed is in flight,
or finished. -/
def ReplayCursor.Follows (cursor : ReplayCursor)
    (handed : List (ReadyEntry (ScheduledTransaction C) C.Hash)) : Prop :=
  match cursor.inflight with
  | none => cursor.Describes handed
  | some running => ∃ before entry, handed = before ++ [entry] ∧
      running = (entry.slot,entry.entryIndex,entry.startIndex,entry.txCount) ∧
      cursor.Describes before

section Cursor

variable {cursor : ReplayCursor} {handed : List (ReadyEntry (ScheduledTransaction C) C.Hash)}
  {slot : Nat}

theorem ReplayCursor.Describes.slot_ne (h : cursor.Describes handed) (hslot : 1 ≤ slot)
    (hnone : ∀ entry ∈ handed, entry.slot ≠ slot) : cursor.slot ≠ slot := by
  rcases h with ⟨_,hzero⟩ | ⟨before,entry,rfl,hentry,_⟩
  · omega
  · rw [hentry]
    exact hnone entry (by simp)

theorem ReplayCursor.Follows.resumePosition_none (h : cursor.Follows handed) (hslot : 1 ≤ slot)
    (hnone : ∀ entry ∈ handed, entry.slot ≠ slot) : cursor.resumePosition slot = (0,0) := by
  unfold Follows at h
  unfold resumePosition
  cases hflight : cursor.inflight with
  | none =>
    simp only [hflight] at h ⊢
    rw [if_neg (h.slot_ne hslot hnone)]
  | some running =>
    simp only [hflight] at h
    obtain ⟨before,entry,rfl,rfl,_⟩ := h
    simp only
    rw [if_neg (hnone entry (by simp))]

theorem ReplayCursor.Follows.resumePosition_last
    {entry : ReadyEntry (ScheduledTransaction C) C.Hash} (h : cursor.Follows (handed ++ [entry]))
    (hidle : ∀ s entryIndex txStart txCount,
      cursor.inflight = some (s,entryIndex,txStart,txCount) → s < entry.slot) :
    cursor.resumePosition entry.slot = (entry.entryIndex + 1,entry.startIndex + entry.txCount) := by
  unfold Follows at h
  unfold resumePosition
  cases hflight : cursor.inflight with
  | none =>
    simp only [hflight] at h ⊢
    rcases h with ⟨hnil,_⟩ | ⟨before,last,heq,hslot,hindex,hstart,hcount⟩
    · simp at hnil
    · obtain ⟨_,hlast⟩ := List.append_inj' heq rfl
      obtain rfl : entry = last := by simpa using hlast
      rw [if_pos hslot,hindex,hstart,hcount]
  | some running =>
    simp only [hflight] at h
    obtain ⟨before,last,heq,rfl,_⟩ := h
    obtain ⟨_,hlast⟩ := List.append_inj' heq rfl
    obtain rfl : entry = last := by simpa using hlast
    exact absurd (hidle _ _ _ _ hflight) (Nat.lt_irrefl _)

end Cursor

/-- What a pipeline run expects of its input: each present slot
has an entry and is streamed in order, and the gap guard tolerates the missing
slots the range starts with. -/
structure PipelineSetup.Valid (setup : PipelineSetup C) : Prop where
  start : 1 ≤ setup.startSlot
  range : setup.scheduler.presence.start ≤ setup.startSlot
  data : ∀ slot, setup.scheduler.presence.state slot = some .present →
    SlotDelivery (setup.blocks slot) slot (setup.data slot)
  entries : ∀ slot, setup.scheduler.presence.state slot = some .present →
    (setup.blocks slot).entries ≠ []
  lead : setup.scheduler.emptySlotBufferGapLimit = 0 ∨ ∀ slot, setup.startSlot ≤ slot →
    (∀ s, setup.startSlot ≤ s → s < slot →
      setup.scheduler.presence.state s = some .missing) →
    slot - setup.startSlot < setup.scheduler.emptySlotBufferGapLimit

/-- What has been emitted when `done` entries of the slot are out. -/
def PipelineSetup.emittedAt (setup : PipelineSetup C) (slot : Nat)
    (done : List (PendingEntry C)) : List (ReadyEntry (ScheduledTransaction C) C.Hash) :=
  replayBelow setup.scheduler.presence setup.startSlot setup.blocks slot ++
    done.map ((setup.blocks slot).readyEntry slot)

/-- No restart is pending: the stream is inside the scheduler's slot, or over. -/
def StreamIdle (setup : PipelineSetup C) (p : Pipeline C) (slot : Nat)
    (done : List (PendingEntry C)) (pushed : Nat) (f : Nat → Option (ScheduledTransaction C)) :
    Prop :=
  p.tracker.pending = false ∧
    (setup.scheduler.presence.state slot = some .present ∧
      (∃ sent rest, setup.data slot = sent ++ rest ∧ Sent 0 sent slot done pushed f ∧
        p.remaining = rest ++ (setup.blocks slot).metadataCall slot :: setup.stream (slot + 1)) ∨
    setup.scheduler.presence.state slot = none ∧ p.remaining = [])

def Resumable (setup : PipelineSetup C) (tracker : RestartTracker) (slot : Nat)
    (done : List (PendingEntry C)) : Prop :=
  tracker.slot ≤ slot ∧
    (setup.scheduler.presence.state tracker.slot = some .present ∧
      tracker.entryIndex ≤ (setup.blocks tracker.slot).entries.length ∧
      tracker.txStart =
        txSum ((setup.blocks tracker.slot).entries.take tracker.entryIndex) ∧
      setup.emittedAt slot done = setup.emittedAt tracker.slot
        ((setup.blocks tracker.slot).entries.take tracker.entryIndex) ∨
    tracker.entryIndex = 0 ∧ tracker.txStart = 0 ∧ done = [] ∧ tracker.slot < slot ∧
      ∀ s, tracker.slot ≤ s → s < slot → setup.scheduler.presence.state s ≠ some .present)

/-- A restart is pending: the stream starts again at the marked slot. -/
def StreamPending (setup : PipelineSetup C) (p : Pipeline C) (slot : Nat)
    (done : List (PendingEntry C)) : Prop :=
  p.tracker.pending = true ∧ p.tracker.allowStaleSkip = true ∧
    setup.startSlot ≤ p.tracker.slot ∧ p.remaining = setup.stream p.tracker.slot ∧
    (p.remaining = [] ∧ setup.scheduler.presence.state slot = none ∨
      Resumable setup p.tracker slot done)

/-- The invariant of the pipeline: scheduler, queue, executor and stream agree on
one point of the canonical replay. -/
structure PipelineInv (setup : PipelineSetup C) (p : Pipeline C) (slot : Nat)
    (done : List (PendingEntry C)) (pushed : Nat) (f : Nat → Option (ScheduledTransaction C)) :
    Prop where
  streaming : Streaming setup.scheduler setup.blocks 0 p.state slot done pushed f
  start_le : setup.startSlot ≤ slot
  opened : setup.scheduler.presence.state slot = some .present ∨
    setup.scheduler.presence.state slot = none ∧ done = []
  emitted : p.handed ++ p.waiting = setup.emittedAt slot done
  cursor : p.cursor.Follows p.handed
  stream : StreamIdle setup p slot done pushed f ∨ StreamPending setup p slot done

section Steps

variable {setup : PipelineSetup C} {p : Pipeline C} {slot : Nat} {done : List (PendingEntry C)}
  {pushed : Nat} {f : Nat → Option (ScheduledTransaction C)}

theorem state_none_of_open {presence : SlotPresenceMap} (hne : presence.state slot ≠ some .missing)
    (hp : presence.state slot ≠ some .present) : presence.state slot = none := by
  cases hs : presence.state slot with
  | none => rfl
  | some known =>
    cases known with
    | present => exact absurd hs hp
    | missing => exact absurd hs hne

theorem streamIdle_start (hvalid : setup.Valid) (hstart : setup.startSlot ≤ slot)
    (hidle : p.tracker.pending = false) (hremaining : p.remaining = setup.stream slot)
    (hopen : setup.scheduler.presence.state slot ≠ some .missing) :
    StreamIdle setup p slot done pushed f := by
  refine ⟨hidle,?_⟩
  by_cases hp : setup.scheduler.presence.state slot = some .present
  · refine .inl ⟨hp,[],setup.data slot,rfl,sent_nil _ _ _ _ _,?_⟩
    rw [hremaining,PipelineSetup.stream,streamFrom_present hp,slotCalls]
    simp [PipelineSetup.stream]
  · have hnone := state_none_of_open hopen hp
    refine .inr ⟨hnone,?_⟩
    rw [hremaining]
    exact streamFrom_past (SlotPresenceMap.state_eq_none hnone (Nat.le_trans hvalid.range hstart))

theorem exists_open (presence : SlotPresenceMap) (start : Nat) :
    ∃ slot, start ≤ slot ∧ presence.state slot ≠ some .missing ∧
      ∀ s, start ≤ s → s < slot → presence.state s = some .missing := by
  have hex : ∃ slot, start ≤ slot ∧ presence.state slot ≠ some .missing := by
    refine ⟨max start (presence.endInclusive + 1),Nat.le_max_left _ _,fun hmissing => ?_⟩
    have hend := SlotPresenceMap.le_end_of_state hmissing
    omega
  refine ⟨Nat.find hex,(Nat.find_spec hex).1,(Nat.find_spec hex).2,fun s hl hu => ?_⟩
  by_contra hne
  exact Nat.find_min hex hu ⟨hl,hne⟩

theorem pipelineInv_init (hvalid : setup.Valid) :
    ∃ slot, PipelineInv setup setup.init slot [] 0 (fun _ => none) := by
  obtain ⟨slot,hle,hopen,hmissing⟩ := exists_open setup.scheduler.presence setup.startSlot
  have habsent : ∀ s, setup.startSlot ≤ s → s < slot →
      setup.scheduler.presence.state s ≠ some .present := by
    intro s hl hu hp
    rw [hmissing s hl hu] at hp
    cases hp
  refine ⟨slot,?_,hle,?_,?_,.inl ⟨rfl,rfl⟩,.inl ?_⟩
  · exact (clean_init hvalid.start).streaming hle hmissing
      (hvalid.lead.imp_right fun hlead => hlead slot hle hmissing)
  · by_cases hp : setup.scheduler.presence.state slot = some .present
    · exact .inl hp
    · exact .inr ⟨state_none_of_open hopen hp,rfl⟩
  · rw [PipelineSetup.emittedAt,replayBelow_skip (Nat.le_refl _) hle habsent]
    simp [PipelineSetup.init,Pipeline.waiting,replayBelow]
  · exact streamIdle_start hvalid hle rfl (streamFrom_skip hle habsent) hopen

theorem Filling.done_eq_take {block : BlockData C} {buffer : SlotExecutionBuffer C}
    {t : Nat} (h : Filling block t buffer done pushed f) :
    block.entries.take done.length = done := by
  have htake := congrArg (List.take done.length) h.entries
  rw [List.take_take,List.take_left] at htake
  have hlen : done.length ≤ pushed := by
    have hlength := congrArg List.length h.entries
    rw [List.length_append,List.length_take] at hlength
    omega
  rwa [Nat.min_eq_left hlen] at htake

variable [DecidableEq C.Sig] [DecidableEq C.Status]

section

variable (hvalid : setup.Valid)
include hvalid

section

variable (h : PipelineInv setup p slot done pushed f)
include h

theorem PipelineInv.deliver_idle
    (hidle : StreamIdle setup p slot done pushed f) :
    ∃ q next out more g, setup.step p .deliver = .ok q ∧ PipelineInv setup q next out more g := by
  obtain ⟨htracker,⟨hp,sent,rest,hdata,hsent,hremaining⟩ | ⟨_,hremaining⟩⟩ := hidle
  · have hdelivery := hvalid.data slot hp
    cases rest with
    | cons call rest =>
      rw [hdata] at hdelivery
      obtain ⟨final,events,released,more,g,hcall,hfinal,_,hsent',hemitted⟩ :=
        h.streaming.deliver htracker hp hdelivery hsent
      refine ⟨{ p with
          state := final
          remaining := rest ++ (setup.blocks slot).metadataCall slot :: setup.stream (slot + 1)
          queue := sendEntries p.queue (emittedEntries events) },
        slot,done ++ released,more,g,?_,hfinal,h.start_le,.inl hp,?_,h.cursor,
        .inl ⟨htracker,.inl ⟨hp,sent ++ [call],rest,?_,hsent',rfl⟩⟩⟩
      · simp only [PipelineSetup.step,hremaining,List.cons_append,hcall,ok_bind]
      · have hold := h.emitted
        simp only [Pipeline.waiting,PipelineSetup.emittedAt] at hold ⊢
        rw [flatten_sendEntries,hemitted,BlockData.remainder_zero,List.map_append,
          ← List.append_assoc,← List.append_assoc,
          ← List.append_assoc,← hold,List.append_assoc]
        simp
      · rw [hdata,List.append_cons]
    | nil =>
      rw [List.append_nil] at hdata
      rw [hdata] at hdelivery
      obtain ⟨final,events,hcall,hclean,hlt,hbetween,hstop,-,hemitted⟩ :=
        h.streaming.finish p.tracker hp hdelivery hsent
      have habsent : ∀ s, slot + 1 ≤ s → s < final.currentSlot →
          setup.scheduler.presence.state s ≠ some .present := by
        intro s hl hu hpresent
        rw [hbetween s hl hu] at hpresent
        cases hpresent
      have hstart : setup.startSlot ≤ final.currentSlot :=
        Nat.le_trans h.start_le (Nat.le_of_lt hlt)
      refine ⟨{ p with
          state := final
          remaining := setup.stream (slot + 1)
          queue := sendEntries p.queue (emittedEntries events) },
        final.currentSlot,[],0,fun _ => none,?_,?_,hstart,?_,?_,h.cursor,.inl ?_⟩
      · simp only [PipelineSetup.step,hremaining,List.nil_append,hcall,ok_bind]
      · exact hclean.streaming (Nat.le_refl _) (fun s hl hu => by omega) (by omega)
      · by_cases hpresent : setup.scheduler.presence.state final.currentSlot = some .present
        · exact .inl hpresent
        · exact .inr ⟨state_none_of_open hstop hpresent,rfl⟩
      · have hold := h.emitted
        simp only [Pipeline.waiting,PipelineSetup.emittedAt] at hold ⊢
        rw [flatten_sendEntries,hemitted,BlockData.remainder_zero,← List.append_assoc,
          ← List.append_assoc,List.append_assoc
          p.handed,hold,replayBelow_skip (Nat.le_succ_of_le h.start_le) hlt habsent,
          replayBelow_succ h.start_le,if_pos hp,List.map_nil,List.append_nil,List.append_assoc,
          ← List.map_append,BlockData.ready]
        nth_rewrite 1 [← h.streaming.filling.done_eq_take]
        rw [List.take_append_drop]
      · exact streamIdle_start hvalid hstart htracker (streamFrom_skip hlt habsent) hstop
  · refine ⟨p,slot,done,pushed,f,?_,h⟩
    simp only [PipelineSetup.step,hremaining]

/-- The first delivery after a restart line finds the scheduler where the marked
position says, and goes on as if no restart had been pending. -/
theorem PipelineInv.deliver_resumed (hpending : StreamPending setup p slot done)
    (hne : p.remaining ≠ []) :
    ∃ q next out more g, PipelineInv setup q next out more g ∧
      StreamIdle setup q next out more g ∧ setup.step p .deliver = setup.step q .deliver := by
  obtain ⟨htracker,hstale,hstart,hremaining,hresume⟩ := hpending
  obtain ⟨hle,hcases⟩ := hresume.resolve_left fun hnil => hne hnil.1
  have hlone := h.streaming.lone
  -- The stream starts with data of a present slot.
  have hfirst : ∀ s, setup.scheduler.presence.state s = some .present →
      ∃ call rest, setup.stream s = call :: rest ∧ call.slot = s ∧ call.IsData := by
    intro s hp
    have hdelivery := hvalid.data s hp
    cases hd : setup.data s with
    | nil =>
      have hentries := hdelivery.entries
      rw [hd] at hentries
      exact absurd hentries.symm (hvalid.entries s hp)
    | cons call rest =>
      have hpiece := hdelivery.pieces call (by simp [hd])
      refine ⟨call,rest ++ [(setup.blocks s).metadataCall s] ++ setup.stream (s + 1),?_,hpiece.1,
        hpiece.2.1⟩
      rw [PipelineSetup.stream,streamFrom_present hp,slotCalls,hd]
      rfl
  rcases hcases with ⟨hp,hentry,htx,hemitted⟩ | ⟨hentry,htx,rfl,hlt,habsent⟩
  · obtain ⟨call,rest,hcalls,hslot,hdata⟩ := hfirst _ hp
    have hstreaming : Streaming setup.scheduler setup.blocks 0
        (applyRestart p.state ⟨p.tracker.slot,p.tracker.entryIndex,p.tracker.txStart⟩)
        p.tracker.slot ((setup.blocks p.tracker.slot).entries.take p.tracker.entryIndex)
        p.tracker.entryIndex (fun _ => none) := by
      have hgap := hlone.gap
      exact applyRestart_streaming hlone.finalized hlone.forced
        (Nat.le_trans hvalid.start hstart) (fun s hl hu => hlone.missing s hl (by omega)) (by omega)
        hlone.inferred (fun s hs => hlone.others s (by omega)) hentry (.inl (Nat.zero_le _))
        (by rw [htx,Nat.zero_max])
    refine ⟨{ p with
        tracker := { p.tracker with pending := false }
        state := applyRestart p.state
          ⟨p.tracker.slot,p.tracker.entryIndex,p.tracker.txStart⟩ },
      p.tracker.slot,(setup.blocks p.tracker.slot).entries.take p.tracker.entryIndex,
      p.tracker.entryIndex,fun _ => none,
      ⟨hstreaming,hstart,.inl hp,h.emitted.trans hemitted,h.cursor,.inl ?_⟩,?_,?_⟩
    · exact streamIdle_start hvalid hstart rfl hremaining (by simp [hp])
    · exact streamIdle_start hvalid hstart rfl hremaining (by simp [hp])
    · simp only [PipelineSetup.step,hremaining,hcalls,trackedCall_restart htracker hdata hslot]
  · have hskip : setup.stream p.tracker.slot = setup.stream slot := streamFrom_skip hle habsent
    have hp : setup.scheduler.presence.state slot = some .present := by
      refine h.opened.resolve_right fun hnone => hne ?_
      rw [hremaining,hskip]
      exact streamFrom_past (SlotPresenceMap.state_eq_none hnone.1
        (Nat.le_trans hvalid.range h.start_le))
    obtain ⟨call,rest,hcalls,hslot,hdata⟩ := hfirst _ hp
    refine ⟨{ p with tracker := { p.tracker with pending := false } },slot,[],pushed,f,
      ⟨h.streaming,h.start_le,h.opened,h.emitted,h.cursor,.inl ?_⟩,?_,?_⟩
    · exact streamIdle_start hvalid h.start_le rfl (hremaining.trans hskip) (by simp [hp])
    · exact streamIdle_start hvalid h.start_le rfl (hremaining.trans hskip) (by simp [hp])
    · simp only [PipelineSetup.step,hremaining,hskip,hcalls,
        trackedCall_stale htracker hstale hdata (by rw [hslot]; exact hlt) hentry htx]

theorem PipelineInv.deliver :
    ∃ q next out more g, setup.step p .deliver = .ok q ∧ PipelineInv setup q next out more g := by
  rcases h.stream with hidle | hpending
  · exact h.deliver_idle hvalid hidle
  · by_cases hne : p.remaining = []
    · refine ⟨p,slot,done,pushed,f,?_,h⟩
      simp only [PipelineSetup.step,hne]
    · obtain ⟨q,next,out,more,g,hq,hidle,hstep⟩ := h.deliver_resumed hvalid hpending hne
      rw [hstep]
      exact hq.deliver_idle hvalid hidle

omit [DecidableEq C.Sig] [DecidableEq C.Status] in
theorem PipelineInv.reach :
    p.remaining = [] ∧ setup.scheduler.presence.state slot = none ∨
      ∃ call ∈ p.remaining, call.slot ≤ slot := by
  rcases h.stream with ⟨_,⟨_,_,rest,_,_,hremaining⟩ | ⟨hnone,hremaining⟩⟩ |
    ⟨_,_,_,hremaining,hnil | ⟨hle,⟨hp,_⟩ | ⟨_,_,_,_,habsent⟩⟩⟩
  · exact .inr ⟨_,by rw [hremaining]; exact List.mem_append_right _ List.mem_cons_self,
      Nat.le_refl _⟩
  · exact .inl ⟨hremaining,hnone⟩
  · exact .inl hnil
  · exact .inr ⟨(setup.blocks p.tracker.slot).metadataCall p.tracker.slot,
      by rw [hremaining]; exact metadataCall_mem_streamFrom (Nat.le_refl _) hp,hle⟩
  · rcases h.opened with hp | ⟨hnone,_⟩
    · exact .inr ⟨_,by rw [hremaining]; exact metadataCall_mem_streamFrom hle hp,Nat.le_refl _⟩
    · refine .inl ⟨?_,hnone⟩
      rw [hremaining,PipelineSetup.stream,streamFrom_skip hle habsent]
      exact streamFrom_past (SlotPresenceMap.state_eq_none hnone
        (Nat.le_trans hvalid.range h.start_le))

omit [DecidableEq C.Sig] [DecidableEq C.Status] in
theorem PipelineInv.quiet_after {restart : Nat} (hquiet : p.Quiet restart)
    (hstart : setup.startSlot ≤ restart) :
    (∀ s, restart < s → s < slot → setup.scheduler.presence.state s ≠ some .present) ∧
      (restart < slot → done = []) := by
  have hnone : ∀ entry ∈ setup.emittedAt slot done, entry.slot ≤ restart := by
    intro entry hmem
    rw [← h.emitted,List.mem_append] at hmem
    rcases hmem with hmem | hmem
    · exact hquiet.handed entry hmem
    · exact Nat.le_of_lt (hquiet.waiting entry hmem)
  refine ⟨fun s hl hu hp => ?_,fun hlt => ?_⟩
  · obtain ⟨entry,hentry⟩ := List.exists_mem_of_ne_nil _ (hvalid.entries s hp)
    have hle := hnone _ (List.mem_append_left _ (ready_mem_replayBelow (by omega) hu hp hentry))
    change s ≤ restart at hle
    omega
  · refine List.eq_nil_iff_forall_not_mem.mpr fun entry hentry => ?_
    have hle := hnone _ (List.mem_append_right _ (List.mem_map_of_mem hentry))
    change slot ≤ restart at hle
    omega

omit [DecidableEq C.Sig] [DecidableEq C.Status] in
theorem PipelineInv.quiet_position {restart count : Nat} (hquiet : p.Quiet restart)
    (hstart : setup.startSlot ≤ restart) (hcount : count ≤ (setup.blocks restart).entries.length)
    (hemitted : setup.emittedAt slot done = setup.emittedAt restart
      ((setup.blocks restart).entries.take count)) :
    p.cursor.resumePosition restart =
      (count,txSum ((setup.blocks restart).entries.take count)) := by
  have hall := h.emitted.trans hemitted
  cases count with
  | zero =>
    refine h.cursor.resumePosition_none (Nat.le_trans hvalid.start hstart) fun entry hmem => ?_
    have hin : entry ∈ setup.emittedAt restart [] := by
      rw [List.take_zero] at hall
      rw [← hall]
      exact List.mem_append_left _ hmem
    rw [PipelineSetup.emittedAt,List.map_nil,List.append_nil] at hin
    exact Nat.ne_of_lt (mem_replayBelow hin)
  | succ k =>
    have hk : k < (setup.blocks restart).entries.length := hcount
    have hat := List.getElem?_eq_getElem hk
    have hindex := (setup.blocks restart).indexed k _ hat
    have hbegin := (setup.blocks restart).contiguous k _ hat
    rw [List.take_add_one,hat,Option.toList_some] at hall ⊢
    rw [PipelineSetup.emittedAt,List.map_append,List.map_singleton,← List.append_assoc] at hall
    have hwaiting : p.waiting = [] := by
      by_contra hne
      obtain ⟨front,last,hlast⟩ := List.eq_nil_or_concat' p.waiting |>.resolve_left hne
      rw [hlast,← List.append_assoc] at hall
      obtain ⟨_,heq⟩ := List.append_inj' hall rfl
      have hslot := hquiet.waiting last (by rw [hlast]; simp)
      rw [List.singleton_inj.mp heq] at hslot
      exact Nat.lt_irrefl _ hslot
    rw [hwaiting,List.append_nil] at hall
    have hcursor := h.cursor
    rw [hall] at hcursor
    have hposition := hcursor.resumePosition_last hquiet.inflight
    rw [txSum_append,txSum_cons,txSum_nil,Nat.add_zero,← hbegin]
    simpa [BlockData.readyEntry,hindex] using hposition

omit [DecidableEq C.Sig] [DecidableEq C.Status] in
theorem PipelineInv.resumable {restart : Nat} (hquiet : p.Quiet restart)
    (hstart : setup.startSlot ≤ restart) (hle : restart ≤ slot)
    (hend : restart ≤ setup.scheduler.presence.endInclusive) :
    Resumable setup (p.tracker.logRestart p.cursor restart) slot done := by
  obtain ⟨habsent,hdone⟩ := h.quiet_after hvalid hquiet hstart
  refine ⟨hle,?_⟩
  by_cases hp : setup.scheduler.presence.state restart = some .present
  · obtain ⟨count,hcount,hemitted⟩ : ∃ count,
        count ≤ (setup.blocks restart).entries.length ∧
        setup.emittedAt slot done = setup.emittedAt restart
          ((setup.blocks restart).entries.take count) := by
      rcases Nat.eq_or_lt_of_le hle with rfl | hlt
      · have htake := h.streaming.filling.done_eq_take
        refine ⟨done.length,?_,by rw [htake]⟩
        have hlength := congrArg List.length htake
        rw [List.length_take] at hlength
        omega
      · refine ⟨(setup.blocks restart).entries.length,Nat.le_refl _,?_⟩
        rw [hdone hlt,PipelineSetup.emittedAt,PipelineSetup.emittedAt,List.map_nil,List.append_nil,
          replayBelow_skip (Nat.le_succ_of_le hstart) hlt habsent,replayBelow_succ hstart,if_pos hp,
          List.take_length,BlockData.ready]
    have hposition := h.quiet_position hvalid hquiet hstart hcount hemitted
    refine .inl ⟨hp,?_⟩
    simp only [RestartTracker.logRestart,RestartTracker.markRestart,hposition]
    exact ⟨hcount,trivial,hemitted⟩
  · have hlt : restart < slot := by
      refine Nat.lt_of_le_of_ne hle fun heq => ?_
      subst heq
      rcases h.opened with hopen | ⟨hnone,_⟩
      · exact hp hopen
      · have hpast := SlotPresenceMap.state_eq_none hnone (Nat.le_trans hvalid.range hstart)
        omega
    have hskip : ∀ s, restart ≤ s → s < slot →
        setup.scheduler.presence.state s ≠ some .present := by
      intro s hl hu
      by_cases heq : s = restart
      · rw [heq]
        exact hp
      · exact habsent s (by omega) hu
    have hemitted : setup.emittedAt slot done = setup.emittedAt restart
        ((setup.blocks restart).entries.take 0) := by
      rw [hdone hlt,PipelineSetup.emittedAt,PipelineSetup.emittedAt,List.take_zero,List.map_nil,
        List.map_nil,replayBelow_skip hstart hle hskip]
    have hposition := h.quiet_position hvalid hquiet hstart (Nat.zero_le _) hemitted
    refine .inr ?_
    simp only [RestartTracker.logRestart,RestartTracker.markRestart,hposition]
    exact ⟨trivial,rfl,hdone hlt,hlt,hskip⟩

end

end

/-- A restart goes back in the stream, not ahead, and meets a quiet pipeline. -/
structure RestartAllowed (setup : PipelineSetup C) (p : Pipeline C) (slot : Nat) : Prop where
  start_le : setup.startSlot ≤ slot
  back : p.remaining <:+ setup.stream slot
  quiet : p.Quiet slot

theorem PipelineInv.restart {restart : Nat} (hvalid : setup.Valid)
    (h : PipelineInv setup p slot done pushed f) (hallowed : RestartAllowed setup p restart) :
    ∃ q next out more g, setup.step p (.restart restart) = .ok q ∧
      PipelineInv setup q next out more g := by
  refine ⟨_,slot,done,pushed,f,rfl,h.streaming,h.start_le,h.opened,h.emitted,h.cursor,
    .inr ⟨rfl,rfl,hallowed.start_le,rfl,?_⟩⟩
  have hreach := h.reach hvalid
  by_cases hnil : setup.stream restart = []
  · have hremaining : p.remaining = [] := by
      have hback := hallowed.back
      rw [hnil] at hback
      exact List.suffix_nil.mp hback
    refine .inl ⟨hnil,?_⟩
    rcases hreach with ⟨_,hnone⟩ | ⟨call,hmem,_⟩
    · exact hnone
    · rw [hremaining] at hmem
      cases hmem
  · have hend : restart ≤ setup.scheduler.presence.endInclusive := by
      by_contra hlt
      exact hnil (streamFrom_past (Nat.not_le.mp hlt))
    refine .inr (h.resumable hvalid hallowed.quiet hallowed.start_le ?_ hend)
    rcases hreach with ⟨_,hnone⟩ | ⟨call,hmem,hle⟩
    · have hpast := SlotPresenceMap.state_eq_none hnone (Nat.le_trans hvalid.range h.start_le)
      omega
    · exact Nat.le_trans (le_of_mem_streamFrom hvalid.data (hallowed.back.subset hmem)) hle

section

variable (h : PipelineInv setup p slot done pushed f)
include h

theorem PipelineInv.receive :
    ∃ q next out more g, setup.step p .receive = .ok q ∧ PipelineInv setup q next out more g := by
  simp only [PipelineSetup.step]
  split
  case h_1 hflight hbatch =>
    cases hreceive : receiveReadyBatch setup.coalesceCap p.queue with
    | none => exact ⟨p,slot,done,pushed,f,rfl,h⟩
    | some received =>
      obtain ⟨batch,queue⟩ := received
      refine ⟨_,slot,done,pushed,f,rfl,h.streaming,h.start_le,h.opened,?_,h.cursor,h.stream⟩
      have hold := h.emitted
      simp only [Pipeline.waiting,hbatch,List.nil_append] at hold ⊢
      rw [receiveReadyBatch_flatten hreceive,hold]
  case h_2 => exact ⟨p,slot,done,pushed,f,rfl,h⟩

theorem PipelineInv.start :
    ∃ q next out more g, setup.step p .start = .ok q ∧ PipelineInv setup q next out more g := by
  simp only [PipelineSetup.step]
  split
  case h_1 entry rest hflight hbatch =>
    refine ⟨_,slot,done,pushed,f,rfl,h.streaming,h.start_le,h.opened,?_,?_,h.stream⟩
    · have hold := h.emitted
      simp only [Pipeline.waiting,hbatch] at hold ⊢
      rw [← hold]
      simp
    · have hcursor := h.cursor
      unfold ReplayCursor.Follows at hcursor
      simp only [hflight] at hcursor
      exact ⟨p.handed,entry,rfl,rfl,hcursor⟩
  case h_2 => exact ⟨p,slot,done,pushed,f,rfl,h⟩

theorem PipelineInv.finish :
    ∃ q next out more g, setup.step p .finish = .ok q ∧ PipelineInv setup q next out more g := by
  simp only [PipelineSetup.step]
  split
  case h_1 => exact ⟨p,slot,done,pushed,f,rfl,h⟩
  case h_2 s entryIndex txStart txCount hflight =>
    refine ⟨_,slot,done,pushed,f,rfl,h.streaming,h.start_le,h.opened,h.emitted,?_,h.stream⟩
    have hcursor := h.cursor
    unfold ReplayCursor.Follows at hcursor
    simp only [hflight] at hcursor
    obtain ⟨before,entry,hhanded,hrunning,_⟩ := hcursor
    simp only [Prod.mk.injEq] at hrunning
    obtain ⟨rfl,rfl,rfl,rfl⟩ := hrunning
    exact .inr ⟨before,entry,hhanded,rfl,rfl,rfl,rfl⟩

end

def RestartsAllowed (setup : PipelineSetup C) (steps : List PipelineStep) : Prop :=
  ∀ n slot, steps[n]? = some (.restart slot) →
    ∀ p, setup.run (steps.take n) = .ok p → RestartAllowed setup p slot

theorem run_pipelineInv (hvalid : setup.Valid) {steps : List PipelineStep}
    (hallowed : RestartsAllowed setup steps) :
    ∃ p slot done pushed f, setup.run steps = .ok p ∧ PipelineInv setup p slot done pushed f := by
  induction steps using List.reverseRecOn with
  | nil =>
    obtain ⟨slot,h⟩ := pipelineInv_init hvalid
    exact ⟨setup.init,slot,[],0,_,rfl,h⟩
  | append_singleton steps step ih =>
    have hearlier : RestartsAllowed setup steps := by
      intro n restart hn p hp
      have hlt : n < steps.length := (List.getElem?_eq_some_iff.mp hn).1
      refine hallowed n restart (by rw [List.getElem?_append_left hlt]; exact hn) p ?_
      rw [List.take_append_of_le_length (Nat.le_of_lt hlt)]
      exact hp
    obtain ⟨p,slot,done,pushed,f,hrun,h⟩ := ih hearlier
    have hstep : ∃ q next out more g, setup.step p step = .ok q ∧
        PipelineInv setup q next out more g := by
      cases step with
      | deliver => exact h.deliver hvalid
      | receive => exact h.receive
      | start => exact h.start
      | finish => exact h.finish
      | restart restart =>
        exact h.restart hvalid (hallowed steps.length restart (by simp) p (by simpa using hrun))
    obtain ⟨q,next,out,more,g,hq,hinv⟩ := hstep
    exact ⟨q,next,out,more,g,foldlM_concat hrun hq,hinv⟩

end Steps

/-- In-run restarts: as long as every restart meets a quiet pipeline, the
executor is handed a first part of the canonical transactions at every point of
the run, and all of them once the stream and the queue are empty. -/
theorem pipeline_exactly_once [DecidableEq C.Sig] [DecidableEq C.Status]
    (setup : PipelineSetup C) (hvalid : setup.Valid) (steps : List PipelineStep)
    (hallowed : RestartsAllowed setup steps) :
    ∃ p, setup.run steps = .ok p ∧
      transactionsOf p.handed <+:
        canonicalTransactions setup.scheduler.presence setup.startSlot setup.blocks ∧
      (p.remaining = [] → p.waiting = [] → transactionsOf p.handed =
        canonicalTransactions setup.scheduler.presence setup.startSlot setup.blocks) := by
  obtain ⟨p,slot,done,pushed,f,hrun,h⟩ := run_pipelineInv hvalid hallowed
  refine ⟨p,hrun,?_,fun hremaining hwaiting => ?_⟩
  · rw [← transactionsOf_canonicalReplay]
    refine transactionsOf_prefix ((List.prefix_append p.handed p.waiting).trans ?_)
    rw [h.emitted]
    refine replayBelow_prefix h.start_le
      (h.opened.imp (fun hp => ⟨hp,?_⟩) fun hnone => ⟨?_,hnone.2⟩)
    · rw [← h.streaming.filling.done_eq_take]
      exact List.take_prefix _ _
    · exact SlotPresenceMap.state_eq_none hnone.1 (Nat.le_trans hvalid.range h.start_le)
  · rcases h.reach hvalid with ⟨_,hnone⟩ | ⟨call,hmem,_⟩
    · have hend := SlotPresenceMap.state_eq_none hnone (Nat.le_trans hvalid.range h.start_le)
      have hdone : done = [] := by
        rcases h.opened with hp | ⟨_,hdone⟩
        · rw [hnone] at hp
          cases hp
        · exact hdone
      have hemitted := h.emitted
      rw [hwaiting,List.append_nil,hdone,PipelineSetup.emittedAt,List.map_nil,List.append_nil,
        replayBelow_past hend] at hemitted
      rw [hemitted,transactionsOf_canonicalReplay]
    · rw [hremaining] at hmem
      cases hmem

def tickSetup : PipelineSetup plainChain :=
  ⟨tickScheduler,1,fun _ => tickBlock,fun _ => tickData,4096⟩

theorem tickSetup_valid : tickSetup.Valid where
  start := Nat.le_refl 1
  range := Nat.le_refl 1
  data _ hp := tickData_delivery hp
  entries _ _ := by simp [tickSetup,tickBlock]
  lead := .inl rfl

def quietSteps : List PipelineStep :=
  [.deliver,.deliver,.receive,.start,.finish,.restart 1,.deliver,.deliver,.deliver,.deliver,
   .receive,.start,.finish]

theorem quietSteps_allowed : RestartsAllowed tickSetup quietSteps := by
  intro n slot hn p hp
  obtain ⟨hlt,hstep⟩ := List.getElem?_eq_some_iff.mp hn
  change n < 13 at hlt
  obtain rfl : n = 5 := by
    interval_cases n <;> first | rfl | cases hstep
  cases hstep
  cases hp
  refine ⟨Nat.le_refl 1,⟨tickData.take 2,rfl⟩,?_,?_,?_⟩
  · intro entry hmem
    cases hmem
  · intro entry hmem
    obtain rfl := List.mem_singleton.mp hmem
    exact Nat.le_refl 1
  · intro s entryIndex txStart txCount hflight
    cases hflight

theorem quietSteps_exactly_once :
    ∃ p, tickSetup.run quietSteps = .ok p ∧ p.remaining = [] ∧ p.waiting = [] ∧
      transactionsOf p.handed = canonicalTransactions tickScheduler.presence 1 fun _ =>
        tickBlock := by
  obtain ⟨p,hrun,_,hall⟩ := pipeline_exactly_once tickSetup tickSetup_valid quietSteps
    quietSteps_allowed
  cases hrun
  exact ⟨_,rfl,rfl,rfl,hall rfl rfl⟩

def busySteps : List PipelineStep :=
  [.deliver,.deliver,.restart 1,.deliver,.deliver,.deliver,.deliver,
   .receive,.start,.finish,.start,.finish,.start,.finish]

/-- The restart resumes at the beginning of the slot, and the transaction that was
waiting is handed to the executor twice. -/
theorem busySteps_handed_twice :
    ∃ p, tickSetup.run busySteps = .ok p ∧ p.remaining = [] ∧ p.waiting = [] ∧
      transactionsOf p.handed = [(1,0),(1,0)] ∧
      canonicalTransactions tickScheduler.presence 1 (fun _ => tickBlock) = [(1,0)] :=
  ⟨_,rfl,rfl,rfl,rfl,rfl⟩

end Jetstreamer.Node
