import Jetstreamer.Node.SlotBuffer
import Mathlib
set_option autoImplicit false

namespace Jetstreamer.Node

def slotMax : Nat := 2 ^ 64 - 1

/-- `slot.saturating_add(1)`. -/
def satSucc (slot : Nat) : Nat := min (slot + 1) slotMax

inductive SlotPresenceState where
  | present
  | missing
  deriving DecidableEq, Repr

/-- The old-faithful index of a replay range: one state a slot, for a range
whose exclusive end is still a slot number. -/
structure SlotPresenceMap where
  start : Nat
  endInclusive : Nat
  states : List SlotPresenceState
  covers : states.length = endInclusive + 1 - start
  bounded : endInclusive < slotMax

def SlotPresenceMap.state (presence : SlotPresenceMap) (slot : Nat) : Option SlotPresenceState :=
  if slot < presence.start ∨ presence.endInclusive < slot then none
  else presence.states[slot - presence.start]?

structure SchedulerState (C : ChainTypes) where
  lastFinalizedSlot : Nat
  currentSlot : Nat
  slots : AList fun _ : Nat => SlotExecutionBuffer C
  inferredBlocks : Nat → Option (Nat × Nat)
  forcedMissing : Finset Nat
  highestSeenSlot : Nat

structure ResumeTarget where
  slot : Nat
  entryIndex : Nat
  txStart : Nat

/-- What the restart tracker and the resume target hand to a delivery. -/
inductive RestartSignal where
  | none
  | restart (target : ResumeTarget)
  | resume (target : ResumeTarget)

inductive SchedulerEvent (C : ChainTypes) where
  | emit (entry : ReadyEntry (ScheduledTransaction C) C.Hash)
  | finalize (slot : Nat)
  | skip (slot : Nat)
  | forced (slot : Nat)

structure TransactionScheduler where
  presence : SlotPresenceMap
  emptySlotBufferGapLimit : Nat

namespace TransactionScheduler

variable {C : ChainTypes}

def init (startSlot : Nat) : SchedulerState C :=
  ⟨startSlot - 1,startSlot,∅,fun _ => none,∅,startSlot - 1⟩

def slotPresence (scheduler : TransactionScheduler) (state : SchedulerState C) (slot : Nat) :
    Option SlotPresenceState :=
  if slot ∈ state.forcedMissing then some .missing else scheduler.presence.state slot

def isMissing (scheduler : TransactionScheduler) (state : SchedulerState C) (slot : Nat) :
    Option Bool :=
  (scheduler.slotPresence state slot).map fun presence => decide (presence = .missing)

def bufferAt (state : SchedulerState C) (slot : Nat) : SlotExecutionBuffer C :=
  (state.slots.lookup slot).getD .default

def setBuffer (state : SchedulerState C) (slot : Nat) (buffer : SlotExecutionBuffer C) :
    SchedulerState C :=
  { state with slots := state.slots.insert slot buffer }

def seen (state : SchedulerState C) (slot : Nat) : SchedulerState C :=
  { state with highestSeenSlot := max state.highestSeenSlot slot }

def passCurrent (state : SchedulerState C) : SchedulerState C :=
  { state with
    slots := state.slots.erase state.currentSlot
    lastFinalizedSlot := state.currentSlot
    currentSlot := satSucc state.currentSlot }

def stallCheck (scheduler : TransactionScheduler) (state : SchedulerState C) :
    Except (SchedulerError C) Unit :=
  let gap := state.highestSeenSlot - state.currentSlot
  if state.currentSlot < state.highestSeenSlot ∧
      ((state.slots.lookup state.currentSlot).any fun buffer => buffer.hasAnyData) = false ∧
      0 < scheduler.emptySlotBufferGapLimit ∧ scheduler.emptySlotBufferGapLimit ≤ gap then
    .error (.stalled state.currentSlot state.highestSeenSlot gap scheduler.emptySlotBufferGapLimit)
  else .ok ()

/-- Release what the current buffer holds, infer its counts when a later slot
was seen, and say whether it is complete. -/
def drainCurrent (state : SchedulerState C) (buffer : SlotExecutionBuffer C) :
    Except (SchedulerError C) (Bool × SchedulerState C × List (SchedulerEvent C)) := do
  let slot := state.currentSlot
  let (ready,buffer) := buffer.drainReadyEntries slot
  let (inferred,buffer) := if slot < state.highestSeenSlot
    then buffer.inferExpectedCountsIfMissing else (none,buffer)
  let state := setBuffer
    { state with inferredBlocks := match inferred with
        | some counts => Function.update state.inferredBlocks slot (some counts)
        | none => state.inferredBlocks } slot buffer
  let complete ← buffer.shouldFinalize slot
  if complete then .ok (true,passCurrent state,ready.map .emit ++ [.finalize slot])
  else .ok (false,state,ready.map .emit)

def advanceStep (scheduler : TransactionScheduler) (state : SchedulerState C) :
    Except (SchedulerError C) (Bool × SchedulerState C × List (SchedulerEvent C)) := do
  scheduler.stallCheck state
  match scheduler.isMissing state state.currentSlot with
  | none => .ok (false,state,[])
  | some true =>
      if (state.slots.lookup state.currentSlot).any fun buffer => buffer.hasAnyData then
        .error (.skippedSlotHasData state.currentSlot)
      else .ok (true,passCurrent state,[.skip state.currentSlot])
  | some false =>
      match state.slots.lookup state.currentSlot with
      | none => .ok (false,state,[])
      | some buffer => drainCurrent state buffer

def advanceLoop (scheduler : TransactionScheduler) :
    Nat → SchedulerState C →
      Except (SchedulerError C) (SchedulerState C × List (SchedulerEvent C))
  | 0, _ => .error .outOfFuel
  | fuel + 1, state => do
      let (again,state,events) ← scheduler.advanceStep state
      if again then
        let (state,following) ← scheduler.advanceLoop fuel state
        .ok (state,events ++ following)
      else .ok (state,events)

def advanceReady (scheduler : TransactionScheduler) (state : SchedulerState C) :
    Except (SchedulerError C) (SchedulerState C × List (SchedulerEvent C)) :=
  scheduler.advanceLoop (scheduler.presence.endInclusive + 1 - state.currentSlot + 1) state

def retainBelow (slots : AList fun _ : Nat => SlotExecutionBuffer C) (slot : Nat) :
    AList fun _ : Nat => SlotExecutionBuffer C :=
  ⟨slots.entries.filter fun item => item.1 < slot,slots.nodupKeys.sublist List.filter_sublist⟩

def applyRestart (state : SchedulerState C) (target : ResumeTarget) : SchedulerState C :=
  let slots := retainBelow state.slots target.slot
  let lastFinalized := if target.slot ≤ state.lastFinalizedSlot then target.slot - 1
    else state.lastFinalizedSlot
  let state : SchedulerState C :=
    { state with
      slots := slots
      inferredBlocks := fun slot => if slot < target.slot then state.inferredBlocks slot else none
      currentSlot := if target.slot ≤ state.currentSlot then target.slot else state.currentSlot
      lastFinalizedSlot := lastFinalized
      highestSeenSlot := (slots.keys.max?).getD lastFinalized }
  setBuffer state target.slot
    ((bufferAt state target.slot).resetForRestart.applyResumeCounts target.entryIndex
      target.txStart)

/-- The head of both deliveries: a restart rolls the scheduler back, a resume
resets one slot, and otherwise nothing happens. -/
def applySignal (signal : RestartSignal) (state : SchedulerState C) (slot : Nat) :
    SchedulerState C :=
  match signal with
  | .none => state
  | .restart target => applyRestart state target
  | .resume target =>
      setBuffer { state with inferredBlocks := Function.update state.inferredBlocks slot none } slot
        ((bufferAt state slot).resetForRestart.applyResumeCounts target.entryIndex target.txStart)

def insertTransaction [DecidableEq C.Sig] [DecidableEq C.Status]
    (scheduler : TransactionScheduler) (signal : RestartSignal) (state : SchedulerState C)
    (slot index : Nat) (tx : VersionedTransaction C) (statusMeta : TransactionStatusMeta C) :
    Except (SchedulerError C) (SchedulerState C × List (SchedulerEvent C) × Bool) := do
  let state := applySignal signal state slot
  if slot ≤ state.lastFinalizedSlot then .error (.lateTransaction slot state.lastFinalizedSlot)
  else
    let state := seen state slot
    let (inserted,buffer) ← (bufferAt state slot).insertTransaction index tx statusMeta
    let (state,events) ← scheduler.advanceReady (setBuffer state slot buffer)
    .ok (state,events,inserted)

def pushEntry (scheduler : TransactionScheduler) (signal : RestartSignal)
    (state : SchedulerState C) (slot : Nat) (entry : PendingEntry C) :
    Except (SchedulerError C) (SchedulerState C × List (SchedulerEvent C) × Bool) := do
  let state := applySignal signal state slot
  if slot ≤ state.lastFinalizedSlot then .error (.lateEntry slot state.lastFinalizedSlot)
  else
    let state := seen state slot
    let (inserted,buffer) ← (bufferAt state slot).pushEntry entry
    let (state,events) ← scheduler.advanceReady (setBuffer state slot buffer)
    .ok (state,events,inserted)

/-- Metadata for a finalized slot is accepted only against inferred counts. -/
def lateMetadata (state : SchedulerState C) (slot expectedTx expectedEntry : Nat) :
    Except (SchedulerError C) (SchedulerState C × List (SchedulerEvent C)) :=
  match state.inferredBlocks slot with
  | some (inferredTx,inferredEntry) =>
      if inferredTx = expectedTx ∧ inferredEntry = expectedEntry then
        .ok ({ state with
          inferredBlocks := Function.update state.inferredBlocks slot none },[])
      else
        .error (.lateBlockMetadataMismatch slot inferredTx inferredEntry expectedTx expectedEntry)
  | none => .error (.lateBlockMetadata slot state.lastFinalizedSlot)

def checkInferred (state : SchedulerState C) (slot expectedTx expectedEntry : Nat) :
    Except (SchedulerError C) Unit :=
  match state.inferredBlocks slot with
  | some (inferredTx,inferredEntry) =>
      if inferredTx ≠ expectedTx ∨ inferredEntry ≠ expectedEntry then
        .error (.inferredMetadataMismatch slot inferredTx inferredEntry expectedTx expectedEntry)
      else .ok ()
  | none => .ok ()

def recordBlockMetadata (scheduler : TransactionScheduler) (state : SchedulerState C)
    (slot expectedTx expectedEntry : Nat) :
    Except (SchedulerError C) (SchedulerState C × List (SchedulerEvent C)) :=
  if slot ≤ state.lastFinalizedSlot then lateMetadata state slot expectedTx expectedEntry
  else do
    let state := seen state slot
    checkInferred state slot expectedTx expectedEntry
    let state := { state with inferredBlocks := Function.update state.inferredBlocks slot none }
    let buffer ← (bufferAt state slot).setExpectedCounts expectedTx expectedEntry
    scheduler.advanceReady (setBuffer state slot buffer)

def forceMarkMissing (scheduler : TransactionScheduler) (state : SchedulerState C) (slot : Nat) :
    Except (SchedulerError C) (SchedulerState C × List (SchedulerEvent C)) := do
  if scheduler.presence.state slot = none then .error (.forceMissingOutsideRange slot)
  else if (state.slots.lookup slot).any fun buffer => buffer.hasAnyData then
    .error (.forceMissingBuffered slot)
  else
    let (state,events) ← scheduler.advanceReady
      { state with forcedMissing := insert slot state.forcedMissing }
    .ok (state,.forced slot :: events)

def verifyMissing (scheduler : TransactionScheduler) (state : SchedulerState C) :
    Nat → Nat → Except (SchedulerError C) Unit
  | 0, _ => .ok ()
  | count + 1, slot =>
      match scheduler.slotPresence state slot with
      | some .missing => scheduler.verifyMissing state count (satSucc slot)
      | some .present => .error (.incompleteMissing slot)
      | none => .ok ()

def verifyComplete (scheduler : TransactionScheduler) (state : SchedulerState C)
    (endInclusive : Nat) : Except (SchedulerError C) Unit := do
  state.slots.entries.forM fun item =>
    if item.2.hasAnyData then
      if item.1 ≤ endInclusive then .error (.incompleteBuffered item.1)
      else .error (.beyondEnd item.1 endInclusive)
    else .ok ()
  scheduler.verifyMissing state (endInclusive + 1 - state.currentSlot) state.currentSlot

end TransactionScheduler

end Jetstreamer.Node
