import Jetstreamer.Node.Scheduler
set_option autoImplicit false

namespace Jetstreamer.Node
open SlotExecutionBuffer TransactionScheduler

/-- The calls a replay client makes, while no restart is pending. -/
inductive SchedulerCall (C : ChainTypes) where
  | insertTransaction (slot index : Nat) (tx : VersionedTransaction C)
      (statusMeta : TransactionStatusMeta C)
  | pushEntry (slot : Nat) (entry : PendingEntry C)
  | recordBlockMetadata (slot expectedTx expectedEntry : Nat)
  | forceMarkMissing (slot : Nat)

variable {C : ChainTypes}

def SchedulerCall.slot : SchedulerCall C → Nat
  | .insertTransaction slot _ _ _ => slot
  | .pushEntry slot _ => slot
  | .recordBlockMetadata slot _ _ => slot
  | .forceMarkMissing slot => slot

def TransactionScheduler.call [DecidableEq C.Sig] [DecidableEq C.Status]
    (scheduler : TransactionScheduler) (state : SchedulerState C) :
    SchedulerCall C →
      Except (SchedulerError C) (SchedulerState C × List (SchedulerEvent C) × Bool)
  | .insertTransaction slot index tx statusMeta =>
      scheduler.insertTransaction .none state slot index tx statusMeta
  | .pushEntry slot entry => scheduler.pushEntry .none state slot entry
  | .recordBlockMetadata slot expectedTx expectedEntry => do
      let (state,events) ← scheduler.recordBlockMetadata state slot expectedTx expectedEntry
      .ok (state,events,true)
  | .forceMarkMissing slot => do
      let (state,events) ← scheduler.forceMarkMissing state slot
      .ok (state,events,true)

def SchedulerEvent.entry :
    SchedulerEvent C → Option (ReadyEntry (ScheduledTransaction C) C.Hash)
  | .emit entry => some entry
  | _ => none

def emittedEntries (events : List (SchedulerEvent C)) :
    List (ReadyEntry (ScheduledTransaction C) C.Hash) :=
  events.filterMap SchedulerEvent.entry

/-- What the calls so far delivered, slot by slot, and what the scheduler did. -/
structure History (C : ChainTypes) where
  entries : Nat → List (PendingEntry C)
  txs : Nat → Nat → Option (ScheduledTransaction C)
  metadata : List (Nat × Nat × Nat)
  events : List (SchedulerEvent C)

namespace History

def empty : History C := ⟨fun _ => [],fun _ _ => none,[],[]⟩

def emitted (history : History C) (slot : Nat) :
    List (ReadyEntry (ScheduledTransaction C) C.Hash) :=
  (emittedEntries history.events).filter fun entry => entry.slot = slot

def observe (history : History C) (events : List (SchedulerEvent C)) : History C :=
  { history with events := history.events ++ events }

/-- Only deliveries the scheduler took as new are recorded. -/
def deliver (history : History C) (inserted : Bool) : SchedulerCall C → History C
  | .insertTransaction slot index tx statusMeta =>
      let scheduled : ScheduledTransaction C := ⟨tx,statusMeta.status,statusMeta⟩
      if inserted then
        { history with
          txs := Function.update history.txs slot
            (Function.update (history.txs slot) index (some scheduled)) }
      else history
  | .pushEntry slot entry =>
      if inserted then
        { history with
          entries := Function.update history.entries slot (history.entries slot ++ [entry]) }
      else history
  | .recordBlockMetadata slot expectedTx expectedEntry =>
      { history with metadata := history.metadata ++ [(slot,expectedTx,expectedEntry)] }
  | .forceMarkMissing _ => history

end History

def TransactionScheduler.runCall [DecidableEq C.Sig] [DecidableEq C.Status]
    (scheduler : TransactionScheduler) (run : SchedulerState C × History C)
    (call : SchedulerCall C) : Except (SchedulerError C) (SchedulerState C × History C) := do
  let (state,events,inserted) ← scheduler.call run.1 call
  .ok (state,(run.2.deliver inserted call).observe events)

/-- A run in which every call returns `Ok`. -/
def TransactionScheduler.run [DecidableEq C.Sig] [DecidableEq C.Status]
    (scheduler : TransactionScheduler) (startSlot : Nat) (calls : List (SchedulerCall C)) :
    Except (SchedulerError C) (SchedulerState C × History C) :=
  calls.foldlM scheduler.runCall (TransactionScheduler.init startSlot,.empty)

@[simp] theorem emittedEntries_append (left right : List (SchedulerEvent C)) :
    emittedEntries (left ++ right) = emittedEntries left ++ emittedEntries right := by
  simp [emittedEntries]

@[simp] theorem emittedEntries_emit (ready : List (ReadyEntry (ScheduledTransaction C) C.Hash)) :
    emittedEntries (ready.map SchedulerEvent.emit) = ready := by
  induction ready with
  | nil => rfl
  | cons entry rest ih => simpa [emittedEntries,SchedulerEvent.entry] using ih

@[simp] theorem emittedEntries_finalize (slot : Nat) :
    emittedEntries ([.finalize slot] : List (SchedulerEvent C)) = [] := rfl

@[simp] theorem emittedEntries_skip (slot : Nat) :
    emittedEntries ([.skip slot] : List (SchedulerEvent C)) = [] := rfl

@[simp] theorem emittedEntries_forced (slot : Nat) :
    emittedEntries ([.forced slot] : List (SchedulerEvent C)) = [] := rfl

@[simp] theorem setBuffer_currentSlot (state : SchedulerState C) (slot : Nat)
    (buffer : SlotExecutionBuffer C) :
    (setBuffer state slot buffer).currentSlot = state.currentSlot := rfl

@[simp] theorem setBuffer_forcedMissing (state : SchedulerState C) (slot : Nat)
    (buffer : SlotExecutionBuffer C) :
    (setBuffer state slot buffer).forcedMissing = state.forcedMissing := rfl

theorem bufferAt_setBuffer (state : SchedulerState C) (slot other : Nat)
    (buffer : SlotExecutionBuffer C) :
    bufferAt (setBuffer state slot buffer) other =
      if other = slot then buffer else bufferAt state other := by
  by_cases h : other = slot
  · subst h
    simp [bufferAt,setBuffer]
  · simp [bufferAt,setBuffer,AList.lookup_insert_ne h,h]

theorem bufferAt_passCurrent (state : SchedulerState C) {slot : Nat}
    (h : slot ≠ state.currentSlot) :
    bufferAt (passCurrent state) slot = bufferAt state slot := by
  simp [bufferAt,passCurrent,AList.lookup_erase_ne h]

end Jetstreamer.Node
