import Jetstreamer.Node.SchedulerRuns
set_option autoImplicit false

namespace Jetstreamer.Node
open SlotExecutionBuffer TransactionScheduler

variable {C : ChainTypes}

/-- Where the next delivery has to roll the scheduler back to, if anywhere. -/
structure RestartTracker where
  pending : Bool
  slot : Nat
  entryIndex : Nat
  txStart : Nat
  allowStaleSkip : Bool

namespace RestartTracker

def new : RestartTracker := ⟨false,0,0,0,false⟩

def markRestart (_tracker : RestartTracker) (slot entryIndex txStart : Nat)
    (allowStaleSkip : Bool) : RestartTracker :=
  ⟨true,slot,entryIndex,txStart,allowStaleSkip⟩

/-- A pending restart is taken by the first delivery that asks. Without a resume
position it is dropped when the delivery is already past the restart slot. -/
def takeIfApplicable (tracker : RestartTracker) (slot : Nat) :
    Option ResumeTarget × RestartTracker :=
  if tracker.pending = false then (none,tracker)
  else
    let taken := { tracker with pending := false }
    if tracker.allowStaleSkip = true ∧ tracker.slot < slot ∧ tracker.entryIndex = 0 ∧
        tracker.txStart = 0 then (none,taken)
    else
      let resumeSlot := if slot < tracker.slot then slot else tracker.slot
      let (entryIndex,txStart) := if resumeSlot = tracker.slot
        then (tracker.entryIndex,tracker.txStart) else (0,0)
      (some ⟨resumeSlot,entryIndex,txStart⟩,taken)

end RestartTracker

def restartSignal : Option ResumeTarget → RestartSignal
  | none => .none
  | some target => .restart target

/-- A call as the notifiers make it: data deliveries ask the tracker first,
block metadata and forced slots do not. -/
def TransactionScheduler.trackedCall [DecidableEq C.Sig] [DecidableEq C.Status]
    (scheduler : TransactionScheduler) (tracker : RestartTracker) (state : SchedulerState C) :
    SchedulerCall C →
      Except (SchedulerError C) (RestartTracker × SchedulerState C × List (SchedulerEvent C))
  | .insertTransaction slot index tx statusMeta => do
      let (target,tracker) := tracker.takeIfApplicable slot
      let (state,events,_) ←
        scheduler.insertTransaction (restartSignal target) state slot index tx statusMeta
      .ok (tracker,state,events)
  | .pushEntry slot entry => do
      let (target,tracker) := tracker.takeIfApplicable slot
      let (state,events,_) ← scheduler.pushEntry (restartSignal target) state slot entry
      .ok (tracker,state,events)
  | .recordBlockMetadata slot expectedTx expectedEntry => do
      let (state,events) ← scheduler.recordBlockMetadata state slot expectedTx expectedEntry
      .ok (tracker,state,events)
  | .forceMarkMissing slot => do
      let (state,events) ← scheduler.forceMarkMissing state slot
      .ok (tracker,state,events)

def SchedulerCall.IsData : SchedulerCall C → Prop
  | .insertTransaction _ _ _ _ => True
  | .pushEntry _ _ => True
  | _ => False

inductive IncompleteReason where
  | bufferedData
  | missingBlockData
  deriving DecidableEq, Repr

structure SlotBufferSnapshot where
  expectedTxCount : Option Nat
  expectedEntryCount : Option Nat
  processedTxCount : Nat
  processedEntryCount : Nat
  pendingEntries : Nat
  bufferedTxs : Nat
  nextEntryIndex : Nat
  deriving DecidableEq, Repr

structure IncompleteSlotInfo where
  slot : Nat
  entryIndex : Nat
  txStart : Nat
  reason : IncompleteReason
  snapshot : Option SlotBufferSnapshot
  presence : Option SlotPresenceState
  deriving DecidableEq, Repr

def SlotExecutionBuffer.snapshot (buffer : SlotExecutionBuffer C) : SlotBufferSnapshot :=
  ⟨buffer.expectedTxCount,buffer.expectedEntryCount,buffer.processedTxCount,
    buffer.processedEntryCount,buffer.pendingEntries.length,buffer.bufferedTransactionCount,
    buffer.nextEntryIndex⟩

namespace TransactionScheduler

def firstBuffered (state : SchedulerState C) (endInclusive : Nat) :
    Option (Nat × SlotExecutionBuffer C) :=
  state.slots.entries.foldl (fun lowest item =>
    if item.1 ≤ endInclusive ∧ item.2.hasAnyData = true ∧
        (lowest.all fun existing => decide (item.1 < existing.1)) = true
    then some (item.1,item.2) else lowest) none

/-- The first present slot from the current one on; the scan stops outside the
presence map. -/
def firstMissing (scheduler : TransactionScheduler) (state : SchedulerState C) :
    Nat → Nat → Option Nat
  | 0, _ => none
  | count + 1, slot =>
      match scheduler.slotPresence state slot with
      | some .missing => scheduler.firstMissing state count (satSucc slot)
      | some .present => some slot
      | none => none

def missingInfo (slot : Nat) : IncompleteSlotInfo :=
  ⟨slot,0,0,.missingBlockData,none,some .present⟩

def bufferedInfo (scheduler : TransactionScheduler) (state : SchedulerState C) (slot : Nat)
    (buffer : SlotExecutionBuffer C) : IncompleteSlotInfo :=
  ⟨slot,buffer.processedEntryCount,buffer.processedTxCount,.bufferedData,some buffer.snapshot,
    scheduler.slotPresence state slot⟩

def firstIncompleteSlot (scheduler : TransactionScheduler) (state : SchedulerState C)
    (endInclusive : Nat) : Option IncompleteSlotInfo :=
  let missing := scheduler.firstMissing state (endInclusive + 1 - state.currentSlot)
    state.currentSlot
  match firstBuffered state endInclusive, missing with
  | some (slot,buffer), some missing =>
      if missing ≤ slot then some (missingInfo missing)
      else some (scheduler.bufferedInfo state slot buffer)
  | some (slot,buffer), none => some (scheduler.bufferedInfo state slot buffer)
  | none, some missing => some (missingInfo missing)
  | none, none => none

end TransactionScheduler

/-- What the restart detection of the logger can see of the executor: the entry
it last finished, and the one it has in flight. -/
structure ReplayCursor where
  slot : Nat
  entryIndex : Nat
  txStart : Nat
  txCount : Nat
  inflight : Option (Nat × Nat × Nat × Nat)

namespace ReplayCursor

def new : ReplayCursor := ⟨0,0,0,0,none⟩

def update (cursor : ReplayCursor) (slot entryIndex txStart txCount : Nat) : ReplayCursor :=
  { cursor with slot := slot, entryIndex := entryIndex, txStart := txStart, txCount := txCount }

def startInflight (cursor : ReplayCursor) (slot entryIndex txStart txCount : Nat) :
    ReplayCursor :=
  { cursor with inflight := some (slot,entryIndex,txStart,txCount) }

def finishInflight (cursor : ReplayCursor) : ReplayCursor :=
  { cursor with inflight := none }

/-- The resume position for a restart line that names `restartSlot`. -/
def resumePosition (cursor : ReplayCursor) (restartSlot : Nat) : Nat × Nat :=
  match cursor.inflight with
  | some (slot,entryIndex,txStart,_) =>
      if slot = restartSlot then (entryIndex,txStart) else (0,0)
  | none =>
      if cursor.slot = restartSlot then (cursor.entryIndex + 1,cursor.txStart + cursor.txCount)
      else (0,0)

end ReplayCursor

def RestartTracker.logRestart (tracker : RestartTracker) (cursor : ReplayCursor)
    (restartSlot : Nat) : RestartTracker :=
  let (entryIndex,txStart) := cursor.resumePosition restartSlot
  tracker.markRestart restartSlot entryIndex txStart true

/-- One coalesced unit of replay work: the first message and whatever is queued
behind it, up to the cap. -/
def coalesce {α : Type} (cap : Nat) (entries : List α) : List (List α) → List α × List (List α)
  | [] => (entries,[])
  | more :: rest =>
      if entries.length < cap then coalesce cap (entries ++ more) rest
      else (entries,more :: rest)

def receiveReadyBatch {α : Type} (cap : Nat) : List (List α) → Option (List α × List (List α))
  | [] => none
  | entries :: rest => some (coalesce cap entries rest)

/-- Empty lists are not sent. -/
def sendEntries {α : Type} (queue : List (List α)) (ready : List α) : List (List α) :=
  if ready.isEmpty then queue else queue ++ [ready]

end Jetstreamer.Node
