import Jetstreamer.Firehose.Source
import Jetstreamer.Lib.Runs
set_option autoImplicit false

namespace Jetstreamer.Firehose
open Lib

variable {C : CarTypes}

structure Handlers where
  block : Bool
  tx : Bool
  entry : Bool
  reward : Bool

structure EmittedBlock (C : CarTypes) where
  parentSlot : Nat
  parentBlockhash : C.Hash
  slot : Nat
  blockhash : C.Hash
  rewards : C.Rewards
  blockTime : Nat
  blockHeight : Option Nat
  executedTransactionCount : Nat
  entryCount : Nat

inductive Call (C : CarTypes) where
  | transaction (slot index : Nat) (tx : C.Tx)
  | entry (slot entryIndex firstTransaction endTransaction numHashes : Nat) (hash : C.Hash)
  | block (data : EmittedBlock C)
  | possibleLeaderSkipped (slot : Nat)
  | rewards (slot : Nat) (rewards : Option C.Rewards)

def Call.slot : Call C → Nat
  | .transaction slot _ _ => slot
  | .entry slot _ _ _ _ _ => slot
  | .block data => data.slot
  | .possibleLeaderSkipped slot => slot
  | .rewards slot _ => slot

/-- What a worker has done: the callbacks with whether they returned `Ok`, the slots it
counted as processed, and its restarts. -/
inductive Record (C : CarTypes) where
  | call (call : Call C) (ok : Bool)
  | counted (slot : Nat)
  | restarted

/-- The variables of a worker that the nodes of a block change. `faults` says for the
coming decodes and callbacks which of them fail; `next` is the slice's published
position. -/
structure BlockState (C : CarTypes) where
  lastCounted : Nat
  lastEmitted : Nat
  pendingSkips : List Nat
  previousBlockhash : C.Hash
  latestEntryBlockhash : C.Hash
  entryIndex : Nat
  executedTransactionCount : Nat
  entryCount : Nat
  rewards : C.Rewards
  next : Nat
  faults : List Bool
  log : List (Record C)

/-- A step over a block's nodes. A failed step keeps what the worker had changed. -/
abbrev Attempt (C : CarTypes) := Except (BlockState C) (BlockState C)

namespace BlockState

def decode (s : BlockState C) : Attempt C :=
  match s.faults with
  | [] => .ok s
  | true :: rest => .error { s with faults := rest }
  | false :: rest => .ok { s with faults := rest }

def call (s : BlockState C) (call : Call C) : Attempt C :=
  match s.faults with
  | [] => .ok { s with log := s.log ++ [.call call true] }
  | true :: rest => .error { s with faults := rest, log := s.log ++ [.call call false] }
  | false :: rest => .ok { s with faults := rest, log := s.log ++ [.call call true] }

def count (s : BlockState C) (slot : Nat) : BlockState C :=
  { s with lastCounted := max s.lastCounted slot, log := s.log ++ [.counted slot] }

/-- The end of a block: the chain moves on, the slot is counted and, in a run that steals
work, the position is published. -/
def finish (s : BlockState C) (workStealing : Bool) (slot : Nat) : BlockState C :=
  { s with
    previousBlockhash := s.latestEntryBlockhash
    lastCounted := max s.lastCounted slot
    next := if workStealing then max s.lastCounted slot + 1 else s.next
    log := s.log ++ [.counted slot] }

end BlockState

def processNode (handlers : Handlers) (slot : Nat) (s : BlockState C) : Node C → Attempt C
  | .transaction index tx =>
      if handlers.tx then do
        let s ← s.decode
        s.call (.transaction slot index tx)
      else .ok s
  | .entry numHashes hash transactions => do
      let first := s.executedTransactionCount
      let s := { s with
        latestEntryBlockhash := hash
        executedTransactionCount := first + transactions
        entryCount := s.entryCount + 1 }
      let s ← if handlers.entry then
          s.call (.entry slot s.entryIndex first (first + transactions) numHashes hash)
        else .ok s
      .ok { s with entryIndex := s.entryIndex + 1 }
  | .rewards data =>
      if handlers.reward || handlers.block then do
        let s ← s.decode
        match data with
        | none =>
            let s := { s with rewards := C.noRewards }
            if handlers.reward then s.call (.rewards slot none) else .ok s
        | some rewards => do
            let s ← if handlers.reward then s.call (.rewards slot (some rewards)) else .ok s
            .ok { s with rewards := rewards }
      else .ok s
  | .other => .ok s

def processNodes (handlers : Handlers) (slot : Nat) (s : BlockState C) (nodes : List (Node C)) :
    Attempt C :=
  nodes.foldlM (processNode handlers slot) s

/-- The leader-skipped slots before a block. The loop stops at the first slot outside the
epoch of the last counted slot. -/
def skipSlots (handlers : Handlers) (epoch : Nat) : BlockState C → List Nat → Attempt C
  | s, [] => .ok s
  | s, skipped :: rest =>
      if slotToEpoch skipped = epoch then do
        let s := if handlers.block then { s with pendingSkips := skipped :: s.pendingSkips } else s
        let s ← if handlers.block && s.lastEmitted < skipped then
            ({ s with lastEmitted := skipped } : BlockState C).call (.possibleLeaderSkipped skipped)
          else .ok s
        skipSlots handlers epoch (s.count skipped) rest
      else .ok s

def emittedBlock (block : Block) (s : BlockState C) : EmittedBlock C :=
  { parentSlot := block.parentSlot
    parentBlockhash := s.previousBlockhash
    slot := block.slot
    blockhash := s.latestEntryBlockhash
    rewards := s.rewards
    blockTime := block.blocktime
    blockHeight := block.blockHeight
    executedTransactionCount := s.executedTransactionCount
    entryCount := s.entryCount }

def processBlock (handlers : Handlers) (workStealing : Bool) (block : Block) (s : BlockState C) :
    Attempt C := do
  let slot := block.slot
  let s ← skipSlots handlers (slotToEpoch s.lastCounted) s
    (List.range' (s.lastCounted+1) (slot - (s.lastCounted+1)))
  let cleared := handlers.block && s.pendingSkips.contains slot
  let s := { s with pendingSkips := s.pendingSkips.filter (fun pending => pending != slot) }
  if slot ≤ s.lastCounted && !cleared then .ok { s with rewards := C.noRewards }
  else do
    let s ← if handlers.block && s.lastEmitted < slot then
        ({ s with lastEmitted := slot, rewards := C.noRewards } : BlockState C).call
          (.block (emittedBlock block s))
      else .ok { s with rewards := C.noRewards }
    .ok (s.finish workStealing slot)

def processBatch (handlers : Handlers) (workStealing : Bool) (s : BlockState C)
    (batch : Batch C) : Attempt C := do
  let s ← processNodes handlers batch.slot s batch.nodes
  processBlock handlers workStealing batch.block s

end Jetstreamer.Firehose
