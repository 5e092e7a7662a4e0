import Jetstreamer.Firehose.Worker
import Jetstreamer.Firehose.BlockRuns
set_option autoImplicit false

namespace Jetstreamer.Firehose
open Lib

variable {C : CarTypes}

inductive Notification (C : CarTypes) where
  | transaction (slot index : Nat) (tx : C.Tx)
  | entry (slot entryIndex firstTransaction transactions numHashes : Nat) (hash : C.Hash)
  | block (slot parentSlot : Nat) (parentBlockhash blockhash : C.Hash) (blockTime : Nat)
      (blockHeight : Option Nat) (executedTransactionCount entryCount : Nat)

def Call.notification : Call C → Option (Notification C)
  | .transaction slot index tx => some (.transaction slot index tx)
  | .entry slot entryIndex first last numHashes hash =>
      some (.entry slot entryIndex first (last - first) numHashes hash)
  | .block data => some (.block data.slot data.parentSlot data.parentBlockhash data.blockhash
      data.blockTime data.blockHeight data.executedTransactionCount data.entryCount)
  | .possibleLeaderSkipped _ => none
  | .rewards _ _ => none

def Record.notification : Record C → Option (Notification C)
  | .call made true => made.notification
  | _ => none

def notifications (log : List (Record C)) : List (Notification C) :=
  log.filterMap Record.notification

/-- The variables of the second engine that the nodes of a block change. -/
structure GeyserBlock (C : CarTypes) where
  latestEntryBlockhash : C.Hash
  entryIndex : Nat
  executedTransactionCount : Nat
  entryCount : Nat
  log : List (Notification C)

def geyserNode (slot : Nat) (s : GeyserBlock C) : Node C → GeyserBlock C
  | .transaction index tx => { s with log := s.log ++ [.transaction slot index tx] }
  | .entry numHashes hash transactions =>
      { latestEntryBlockhash := hash
        entryIndex := s.entryIndex + 1
        executedTransactionCount := s.executedTransactionCount + transactions
        entryCount := s.entryCount + 1
        log := s.log ++
          [.entry slot s.entryIndex s.executedTransactionCount transactions numHashes hash] }
  | .rewards _ => s
  | .other => s

inductive GeyserPhase (C : CarTypes) where
  | between (epochs : List Nat)
  | reading (epochs : List Nat) (reader : Reader C)
  | finished
  | failed

/-- `firehose_geyser_thread` in a run without errors. `dropped` are the blocks of its range
that it passed over. -/
structure GeyserThread (C : CarTypes) where
  start : Nat
  stop : Nat
  lastCounted : Nat
  phase : GeyserPhase C
  log : List (Notification C)
  dropped : List (Batch C)

namespace GeyserThread

def spawn (start stop : Nat) : GeyserThread C :=
  { start := start
    stop := stop
    lastCounted := start - 1
    phase := .between (List.range' (slotToEpoch start)
      (slotToEpoch (stop - 1) + 1 - slotToEpoch start))
    log := []
    dropped := [] }

def localStart (g : GeyserThread C) (epoch : Nat) : Nat := max g.start (epochStart epoch)

def localEnd (g : GeyserThread C) (epoch : Nat) : Nat := min (g.stop - 1) (epochEnd epoch)

def enterEpoch (src : Source C) (g : GeyserThread C) (epochs : List Nat) (epoch : Nat) :
    GeyserThread C :=
  if g.localEnd epoch < g.localStart epoch then { g with phase := .between epochs }
  else (src.openAt epoch (g.localStart epoch)).elim { g with phase := .failed } fun stream =>
    { g with
      lastCounted := g.localStart epoch - 1
      phase := .reading epochs
        { epoch := epoch
          localStart := g.localStart epoch
          localEnd := g.localEnd epoch
          stream := stream
          previousBlockhash := C.zeroHash
          latestEntryBlockhash := C.zeroHash } }

def endStream (src : Source C) (g : GeyserThread C) (epochs : List Nat) (reader : Reader C) :
    GeyserThread C :=
  if (src.nextPresentSlot g.lastCounted (min reader.localEnd (g.stop - 1))).isSome then
    { g with phase := .failed }
  else { g with phase := .between epochs }

def blockView (g : GeyserThread C) (reader : Reader C) (batch : Batch C) : GeyserBlock C :=
  batch.nodes.foldl (geyserNode batch.slot) ⟨reader.latestEntryBlockhash,0,0,0,g.log⟩

def notifyBlock (g : GeyserThread C) (epochs : List Nat) (reader : Reader C) (batch : Batch C) :
    GeyserThread C :=
  let s := g.blockView reader batch
  { g with
    lastCounted := batch.slot
    log := s.log ++ [.block batch.slot batch.block.parentSlot reader.previousBlockhash
      s.latestEntryBlockhash batch.block.blocktime batch.block.blockHeight
      s.executedTransactionCount s.entryCount]
    phase := if batch.slot = g.stop - 1 then .finished
      else .reading epochs
        { reader with
          previousBlockhash := s.latestEntryBlockhash
          latestEntryBlockhash := s.latestEntryBlockhash } }

def readBatch (g : GeyserThread C) (epochs : List Nat) (reader : Reader C) (batch : Batch C) :
    GeyserThread C :=
  if reader.localEnd < batch.slot then { g with phase := .between epochs }
  else if g.stop ≤ batch.slot then { g with phase := .finished }
  else if batch.slot < reader.localStart then
    { g with
      dropped := if g.start ≤ batch.slot then g.dropped ++ [batch] else g.dropped
      phase := .reading epochs
        { reader with
          previousBlockhash := (lastEntryHash batch).getD reader.previousBlockhash
          latestEntryBlockhash := (lastEntryHash batch).getD reader.latestEntryBlockhash } }
  else if batch.slot ≤ g.lastCounted then
    { g with dropped := g.dropped ++ [batch], phase := .reading epochs reader }
  else g.notifyBlock epochs reader batch

def step (src : Source C) (g : GeyserThread C) : GeyserThread C :=
  match g.phase with
  | .between [] => { g with phase := .finished }
  | .between (epoch :: rest) => g.enterEpoch src rest epoch
  | .reading epochs reader =>
      match reader.stream with
      | [] => g.endStream src epochs reader
      | batch :: rest => g.readBatch epochs { reader with stream := rest } batch
  | .finished => g
  | .failed => g

def run (src : Source C) : Nat → GeyserThread C → GeyserThread C
  | 0, g => g
  | n+1, g => run src n (g.step src)

end GeyserThread

namespace Worker

/-- What a thread does next when nothing fails. -/
def cleanEvent : Phase C → Option Event
  | .restart => some .beginPass
  | .between _ => some (.openEpoch .opened)
  | .reading _ reader => some (.read (if reader.stream.isEmpty then .endOfStream else .batch))
  | .held _ _ _ => some (.proceed [])
  | _ => none

def cleanStep (settings : Settings C) (w : Worker C) : Option (Worker C) :=
  (cleanEvent w.phase).bind (w.step settings)

def cleanRun (settings : Settings C) : Nat → Worker C → Option (Worker C)
  | 0, w => some w
  | n+1, w => (w.cleanStep settings).bind (cleanRun settings n)

end Worker

structure Settings.Single (settings : Settings C) : Prop where
  block : settings.handlers.block = true
  tx : settings.handlers.tx = true
  entry : settings.handlers.entry = true
  forward : settings.reverse = false
  alone : settings.workStealing = false

def Node.isAnnounced : Node C → Bool
  | .transaction _ _ => true
  | .entry _ _ _ => true
  | .rewards _ => false
  | .other => false

def announced (batches : List (Batch C)) : Nat :=
  (batches.map fun batch => batch.nodes.countP Node.isAnnounced).sum

theorem announced_eq_zero_iff (batches : List (Batch C)) :
    announced batches = 0 ↔ ∀ batch ∈ batches, ∀ node ∈ batch.nodes, node.isAnnounced = false := by
  simp [announced,List.sum_eq_zero_iff,List.countP_eq_zero]

end Jetstreamer.Firehose
