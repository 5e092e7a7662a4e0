import Jetstreamer.Node.Bank
import Jetstreamer.Node.Entries
set_option autoImplicit false

namespace Jetstreamer.Node
open Jetstreamer.Lib

section Replay

variable {Address Account Tx Status Hash : Type}

inductive Effect (Address Account Tx Status Hash : Type) where
  | registerTickEntry (entry : ReadyEntry Tx Hash)
  | recordCapturedUpdates (captured : List (Address × Account))
  | postProcessEntry (entry : ReadyEntry Tx Hash) (results : List Status)

structure ReplayState (Address Account Tx Status Hash : Type) where
  accounts : Address → Account
  writes : Address → List Account
  effects : List (Effect Address Account Tx Status Hash)

/-- What `post_process_entry` and the loops around it panic over. -/
inductive Mismatch (Status : Type) where
  | notExecuted
  | resultLength (expected got : Nat)
  | execution (txIndex : Nat) (expected actual : Status)

/-- A replay that panicked at an entry, with the side effects it had performed. -/
structure ReplayPanic (Address Account Tx Status Hash : Type) where
  entry : ReadyEntry Tx Hash
  mismatch : Mismatch Status
  effects : List (Effect Address Account Tx Status Hash)

abbrev Replay (Address Account Tx Status Hash : Type) : Type → Type :=
  Except (ReplayPanic Address Account Tx Status Hash)

def mergeEffects (recording : Bool) (captured : List (Address × Account)) :
    List (Effect Address Account Tx Status Hash) :=
  if recording then [.recordCapturedUpdates captured] else []

variable [DecidableEq Address]

def Bank.sanitizeEntry (bank : Bank Address Account Tx Status) (entry : ReadyEntry Tx Hash) :
    List (SanitizedTransaction Address Tx) :=
  entry.txs.map bank.sanitize

/-- The batch of an entry prepared while no other batch holds a lock. -/
def Bank.entryBatch (bank : Bank Address Account Tx Status) (entry : ReadyEntry Tx Hash) :
    TransactionBatch Address Tx :=
  bank.prepareSanitizedBatch noLocks (bank.sanitizeEntry entry)

/-- The reference: one entry after the other, whatever their results are. -/
def Bank.replayEntry (bank : Bank Address Account Tx Status) (recording : Bool)
    (state : ReplayState Address Account Tx Status Hash) (entry : ReadyEntry Tx Hash) :
    ReplayState Address Account Tx Status Hash :=
  if entry.txCount = 0 then
    { state with effects := state.effects ++ [.registerTickEntry entry] }
  else
    let output := bank.executeEntryBatch (bank.entryBatch entry) state.accounts
    { accounts := output.accounts
      writes := appendWrites state.writes output.captured
      effects := state.effects ++ mergeEffects recording output.captured ++
        [.postProcessEntry entry output.statuses] }

def Bank.replaySequential (bank : Bank Address Account Tx Status) (recording : Bool)
    (state : ReplayState Address Account Tx Status Hash) (entries : List (ReadyEntry Tx Hash)) :
    ReplayState Address Account Tx Status Hash :=
  entries.foldl (bank.replayEntry recording) state

abbrev PoolOrder (Address Tx : Type) :=
  Nat → List (Nat × TransactionBatch Address Tx) → List (Nat × TransactionBatch Address Tx)

def Bank.prepareRound (bank : Bank Address Account Tx Status)
    (sanitized : Nat → List (SanitizedTransaction Address Tx)) (held : EntryAccounts Address) :
    List Nat → List (Nat × TransactionBatch Address Tx)
  | [] => []
  | pos :: rest =>
      let batch := bank.prepareSanitizedBatch held (sanitized pos)
      (pos,batch) :: bank.prepareRound sanitized (held.union batch.locks) rest

def Bank.executeRounds (bank : Bank Address Account Tx Status) (order : PoolOrder Address Tx)
    (sanitized : Nat → List (SanitizedTransaction Address Tx)) (round : Nat)
    (store : Store Address Account Status) : List (List Nat) → Store Address Account Status
  | [] => store
  | positions :: rest =>
      let batches := bank.prepareRound sanitized noLocks positions
      bank.executeRounds order sanitized (round + 1)
        ((order round batches).foldl bank.commitBatch store) rest

def txPositions (group : List (ReadyEntry Tx Hash)) : List Nat :=
  (List.range group.length).filter fun i => (group[i]?).any fun entry => 0 < entry.txCount

def Bank.sanitizedAt (bank : Bank Address Account Tx Status) (group : List (ReadyEntry Tx Hash))
    (pos : Nat) : List (SanitizedTransaction Address Tx) :=
  ((group.map bank.sanitizeEntry)[pos]?).getD []

def Bank.footprints (bank : Bank Address Account Tx Status) (group : List (ReadyEntry Tx Hash)) :
    List (EntryAccounts Address) :=
  (txPositions group).map fun i => entryAccounts (bank.sanitizedAt group i)

def positionOf (group : List (ReadyEntry Tx Hash)) (k : Nat) : Nat :=
  ((txPositions group)[k]?).getD 0

structure PendingEntryBatch (Address Tx Hash : Type) where
  entry : ReadyEntry Tx Hash
  batch : TransactionBatch Address Tx

def maxWaveBatches : Nat := 64

def maxWaveTxs : Nat := 256

def heldLocks (pending : List (PendingEntryBatch Address Tx Hash)) : EntryAccounts Address :=
  pending.foldr (fun pb held => pb.batch.locks.union held) noLocks

/-- An entry of a wave drops its own batch before it is verified; the entries
behind it hold theirs. -/
def besideLocks : List (PendingEntryBatch Address Tx Hash) →
    List (ReadyEntry Tx Hash × EntryAccounts Address)
  | [] => []
  | pb :: rest => (pb.entry,heldLocks rest) :: besideLocks rest

/-- The loop variables of the wave walk, with the number of waves run so far. -/
structure WaveState (Address Account Tx Status Hash : Type) where
  state : ReplayState Address Account Tx Status Hash
  pending : List (PendingEntryBatch Address Tx Hash)
  pendingTxCount : Nat
  wave : Nat

def WaveState.push (ws : WaveState Address Account Tx Status Hash)
    (entry : ReadyEntry Tx Hash) (batch : TransactionBatch Address Tx) :
    WaveState Address Account Tx Status Hash :=
  { ws with
    pending := ws.pending ++ [⟨entry,batch⟩]
    pendingTxCount := ws.pendingTxCount + entry.txCount }

def WaveState.registerTick (ws : WaveState Address Account Tx Status Hash)
    (entry : ReadyEntry Tx Hash) : WaveState Address Account Tx Status Hash :=
  { ws with state :=
    { ws.state with effects := ws.state.effects ++ [.registerTickEntry entry] } }

def mismatchRetryAttempts : Nat := 10

/-- Run the transaction alone on the live bank, beside the locks still held. -/
def Bank.retryMismatchTransaction (bank : Bank Address Account Tx Status)
    (held : EntryAccounts Address) (accounts : Address → Account) (attempt : Nat) (tx : Tx) :
    Option Status :=
  bank.loadAndExecute attempt (bank.prepareSanitizedBatch held [bank.sanitize tx]) accounts

variable [DecidableEq Status]

/-- The attempts that are left, from `attempt` on; one without a result ends the loop. -/
def Bank.retryResolves (bank : Bank Address Account Tx Status) (held : EntryAccounts Address)
    (accounts : Address → Account) (tx : Tx) (expected : Status) (attempt : Nat) : Nat → Bool
  | 0 => false
  | left + 1 =>
      match bank.retryMismatchTransaction held accounts attempt tx with
      | none => false
      | some result => decide (result = expected) ||
          bank.retryResolves held accounts tx expected (attempt + 1) left

def Bank.verifyResults (bank : Bank Address Account Tx Status) (expectedStatus : Tx → Status)
    (held : EntryAccounts Address) (accounts : Address → Account)
    (txIndex : Nat) : List Tx → List Status → Except (Mismatch Status) Unit
  | tx :: txs, actual :: results =>
      if actual = expectedStatus tx ∨
          bank.retryResolves held accounts tx (expectedStatus tx) 1 mismatchRetryAttempts then
        bank.verifyResults expectedStatus held accounts (txIndex + 1) txs results
      else .error (.execution txIndex (expectedStatus tx) actual)
  | _,_ => .ok ()

def Bank.postProcessEntry (bank : Bank Address Account Tx Status) (expectedStatus : Tx → Status)
    (held : EntryAccounts Address) (accounts : Address → Account) (entry : ReadyEntry Tx Hash)
    (results : List Status) : Except (Mismatch Status) Unit :=
  if results.length ≠ entry.txs.length then
    .error (.resultLength entry.txs.length results.length)
  else bank.verifyResults expectedStatus held accounts entry.startIndex entry.txs results

/-- The in-order loop over executed entries, each with the locks that are held
when it is verified. A failed entry has merged its updates already. -/
def Bank.finishEntries (bank : Bank Address Account Tx Status) (expectedStatus : Tx → Status)
    (recording : Bool) (accounts : Address → Account)
    (outputs : Nat → Option (List Status × List (Address × Account))) (pos : Nat) :
    List (ReadyEntry Tx Hash × EntryAccounts Address) →
      List (Effect Address Account Tx Status Hash) →
      Replay Address Account Tx Status Hash (List (Effect Address Account Tx Status Hash))
  | [], effects => .ok effects
  | (entry,held) :: rest, effects =>
      if entry.txCount = 0 then
        bank.finishEntries expectedStatus recording accounts outputs (pos + 1) rest
          (effects ++ [.registerTickEntry entry])
      else
        match outputs pos with
        | none => .error ⟨entry,.notExecuted,effects⟩
        | some (results,captured) =>
            let merged := effects ++ mergeEffects recording captured
            match bank.postProcessEntry expectedStatus held accounts entry results with
            | .error mismatch => .error ⟨entry,mismatch,merged⟩
            | .ok () => bank.finishEntries expectedStatus recording accounts outputs (pos + 1) rest
                (merged ++ [.postProcessEntry entry results])

/-- Every batch of the group is dropped when its entries are verified. -/
def Bank.replaySlotRounds (bank : Bank Address Account Tx Status)
    (expectedStatus : Tx → Status) (recording : Bool) (order : PoolOrder Address Tx)
    (state : ReplayState Address Account Tx Status Hash) (group : List (ReadyEntry Tx Hash)) :
    Replay Address Account Tx Status Hash (ReplayState Address Account Tx Status Hash) := do
  let rounds := assignRounds (bank.footprints group)
  let store := bank.executeRounds order (bank.sanitizedAt group) 0
    ⟨state.accounts,state.writes,fun _ => none⟩
    (rounds.map fun round => round.map (positionOf group))
  let effects ← bank.finishEntries expectedStatus recording store.accounts store.outputs 0
    (group.map fun entry => (entry,noLocks)) state.effects
  .ok ⟨store.accounts,store.writes,effects⟩

def Bank.flushPending (bank : Bank Address Account Tx Status) (expectedStatus : Tx → Status)
    (recording : Bool) (order : PoolOrder Address Tx)
    (ws : WaveState Address Account Tx Status Hash) :
    Replay Address Account Tx Status Hash (WaveState Address Account Tx Status Hash) :=
  if ws.pending.isEmpty then .ok ws
  else do
    let items := ws.pending.mapIdx fun i pb => (i,pb.batch)
    let store := (order ws.wave items).foldl bank.commitBatch
      ⟨ws.state.accounts,ws.state.writes,fun _ => none⟩
    let effects ← bank.finishEntries expectedStatus recording store.accounts store.outputs 0
      (besideLocks ws.pending) ws.state.effects
    .ok ⟨⟨store.accounts,store.writes,effects⟩,[],0,ws.wave + 1⟩

/-- Lock the entry beside the pending wave; a lock failure flushes the wave and
locks again. -/
def Bank.lockEntry (bank : Bank Address Account Tx Status) (expectedStatus : Tx → Status)
    (recording : Bool) (order : PoolOrder Address Tx)
    (ws : WaveState Address Account Tx Status Hash) (entry : ReadyEntry Tx Hash) :
    Replay Address Account Tx Status Hash (WaveState Address Account Tx Status Hash) :=
  let txs := bank.sanitizeEntry entry
  let batch := bank.prepareSanitizedBatch (heldLocks ws.pending) txs
  if batch.lockResults.any (fun result => !result) then do
    let ws ← bank.flushPending expectedStatus recording order ws
    .ok (ws.push entry (bank.prepareSanitizedBatch (heldLocks ws.pending) txs))
  else .ok (ws.push entry batch)

def Bank.waveEntry (bank : Bank Address Account Tx Status) (expectedStatus : Tx → Status)
    (recording : Bool) (order : PoolOrder Address Tx)
    (ws : WaveState Address Account Tx Status Hash) (entry : ReadyEntry Tx Hash) :
    Replay Address Account Tx Status Hash (WaveState Address Account Tx Status Hash) :=
  if entry.txCount = 0 then do
    let ws ← bank.flushPending expectedStatus recording order ws
    .ok (ws.registerTick entry)
  else do
    let ws ← bank.lockEntry expectedStatus recording order ws entry
    if maxWaveBatches ≤ ws.pending.length ∨ maxWaveTxs ≤ ws.pendingTxCount then
      bank.flushPending expectedStatus recording order ws
    else .ok ws

def Bank.replaySlotWaves (bank : Bank Address Account Tx Status) (expectedStatus : Tx → Status)
    (recording : Bool) (order : PoolOrder Address Tx)
    (state : ReplayState Address Account Tx Status Hash) (group : List (ReadyEntry Tx Hash)) :
    Replay Address Account Tx Status Hash (ReplayState Address Account Tx Status Hash) := do
  let ws ← group.foldlM (bank.waveEntry expectedStatus recording order) ⟨state,[],0,0⟩
  let ws ← bank.flushPending expectedStatus recording order ws
  .ok ws.state

end Replay

end Jetstreamer.Node
