import Jetstreamer.Archive.Capacity
import Jetstreamer.Ggjet.Writer
import Jetstreamer.Horizon.Convert
import Jetstreamer.Lib.OrderedMap
import Jetstreamer.Node.Scheduler
set_option autoImplicit false

namespace Jetstreamer.Node
open Lib Horizon Archive Ggjet

/-- A committed transaction paired with its original chain metadata. -/
structure CommittedTx where
  tx : Solana.VersionedTransaction
  info : Solana.TransactionStatusMeta

structure SlotAssembly where
  preOrphans : List AccountUpdate
  postOrphans : List AccountUpdate
  txUpdates : AList fun _ : Signature => List AccountUpdate
  txs : List CommittedTx
  entries : List EntryRecord

def SlotAssembly.default : SlotAssembly := ⟨[],[],∅,[],[]⟩

structure RewardInfo where
  rewardType : RewardType
  lamports : Int64
  postBalance : UInt64
  commissionBps : Option UInt16

/-- The original chain's metadata of a block, buffered from the input side. -/
structure BufferedBlockMeta where
  parentSlot : UInt64
  parentBlockhash : Hash
  blockhash : Hash
  rewards : List (Address × RewardInfo)
  numPartitions : Option UInt64
  blockTime : Option Int64
  blockHeight : Option UInt64
  executedTransactionCount : UInt64
  entryCount : UInt64

/-- Why a call panics or `finish` returns an error, with the values the texts print. -/
inductive RecorderError where
  | entryDiscontinuity (slot : UInt64) (got expected : Nat)
  | presentGap (slot : UInt64)
  | noBlockMeta (slot : UInt64)
  | conversion (slot : UInt64) (e : ConvertError)
  | noSignature (slot : UInt64)
  | updateOverflow (slot : UInt64) (e : PushAccountUpdateError)
  | strayUpdates (slot : UInt64) (count : Nat)
  | rewardsOverflow (slot : UInt64) (count : Nat)
  | writer (e : Failure)
  | ggjet (e : GgjetFailure)
  | alreadyFinished
  | metasNeverEmitted (slots : List UInt64)

structure RecorderContext where
  env : GgjetEnv
  parsers : Solana.Parsers
  presence : SlotPresenceMap

/-- The state behind the recorder's lock. `emitted` are the frames given to the archive writer and
`selected` the slots given to the account writer, in the order of the calls. -/
structure RecorderState where
  writer : ArchiveWriter
  ggjetWriter : Option GgjetWriter
  epoch : UInt64
  slotStart : UInt64
  slotEndInclusive : UInt64
  assemblies : OrderedMap UInt64 SlotAssembly
  blockMetas : OrderedMap UInt64 BufferedBlockMeta
  lastEmitted : Option UInt64
  epochMetaWritten : Bool
  forceSkipped : List UInt64
  finished : Bool
  emitted : List RecordedSlot
  selected : List (UInt64 × List AccountUpdate)

def slotsBetween (next slot : UInt64) : List UInt64 :=
  (List.range' next.toNat (slot.toNat - next.toNat)).map UInt64.ofNat

def slotsThrough (next last : UInt64) : List UInt64 :=
  (List.range' next.toNat (last.toNat + 1 - next.toNat)).map UInt64.ofNat

def SlotAssembly.route (a : SlotAssembly) (signature : Option Signature) (update : AccountUpdate) :
    SlotAssembly :=
  match signature with
  | some sig => { a with
      txUpdates := a.txUpdates.insert sig ((a.txUpdates.lookup sig).getD [] ++ [update]) }
  | none =>
    if a.txs.isEmpty then { a with preOrphans := a.preOrphans ++ [update] }
    else { a with postOrphans := a.postOrphans ++ [update] }

def SlotAssembly.commit (a : SlotAssembly) (numHashes : UInt64) (txs : List CommittedTx) :
    SlotAssembly :=
  { a with
    entries := a.entries ++ [⟨numHashes,UInt32.ofNat txs.length⟩]
    txs := a.txs ++ txs }

def SlotAssembly.updatesOf (a : SlotAssembly) (c : CommittedTx) : List AccountUpdate :=
  (c.tx.signatures.head?.bind a.txUpdates.lookup).getD []

def SlotAssembly.selected (a : SlotAssembly) (manifest : AccountManifest) : List AccountUpdate :=
  let chosen := fun updates : List AccountUpdate =>
    updates.filter fun update => manifest.contains update.pubkey
  chosen a.preOrphans ++ a.txs.flatMap (fun c => chosen (a.updatesOf c)) ++ chosen a.postOrphans

def pushAccountUpdate (slot : UInt64) (tx : Transaction) (update : AccountUpdate) :
    Except RecorderError Transaction :=
  match tx.accountUpdates.push update with
  | .ok accountUpdates => .ok { tx with accountUpdates }
  | .error e => .error (.updateOverflow slot e)

def mapFailure {α : Type} (result : Except Failure α) : Except RecorderError α :=
  match result with
  | .ok a => .ok a
  | .error e => .error (.writer e)

def mapGgjetFailure {α : Type} (result : Except GgjetFailure α) : Except RecorderError α :=
  match result with
  | .ok a => .ok a
  | .error e => .error (.ggjet e)

/-- What the scratch held before does not matter, it is cleared first. -/
def convertTransaction (parsers : Solana.Parsers) (slot : UInt64) (c : CommittedTx) :
    Except RecorderError Transaction :=
  match populateTransaction parsers blankTransaction c.tx c.info with
  | .ok tx => .ok tx
  | .error e => .error (.conversion slot e)

def fillTransaction (parsers : Solana.Parsers) (slot : UInt64) (c : CommittedTx)
    (updates : List AccountUpdate) : Except RecorderError Transaction := do
  let tx ← convertTransaction parsers slot c
  updates.foldlM (pushAccountUpdate slot) tx

def pushReward (slot : UInt64) (count : Nat) (rewards : ZeroVec maxBlockRewards Reward)
    (entry : Address × RewardInfo) : Except RecorderError (ZeroVec maxBlockRewards Reward) :=
  if hroom : rewards.items.length < maxBlockRewards then
    .ok ⟨rewards.items ++ [rewardFromInfo entry.1 entry.2.rewardType entry.2.lamports
      entry.2.postBalance entry.2.commissionBps],by simp; omega⟩
  else .error (.rewardsOverflow slot count)

def BufferedBlockMeta.toBlockMeta (slot : UInt64) (info : BufferedBlockMeta) :
    Except RecorderError BlockMeta := do
  let rewards ← info.rewards.foldlM (pushReward slot info.rewards.length) .empty
  return {
    slot, rewards
    parentSlot := info.parentSlot
    parentBlockhash := info.parentBlockhash
    blockhash := info.blockhash
    blockTime := info.blockTime
    blockHeight := info.blockHeight
    executedTransactionCount := info.executedTransactionCount
    entryCount := info.entryCount
    numPartitions := info.numPartitions
    preUpdates := .empty
    postUpdates := .empty }

namespace RecorderState

variable (ctx : RecorderContext)

def next (st : RecorderState) : UInt64 :=
  match st.lastEmitted with
  | some last => last + 1
  | none => st.slotStart

def checkGapSlotSkipped (st : RecorderState) (slot : UInt64) : Except RecorderError Unit :=
  if ctx.presence.state slot.toNat ≠ some .present then .ok ()
  else if slot ∈ st.forceSkipped then .ok ()
  else .error (.presentGap slot)

def writeSelected (st : RecorderState) (slot : UInt64)
    (updates : AccountManifest → List AccountUpdate) :
    Except RecorderError RecorderState :=
  match st.ggjetWriter with
  | none => .ok st
  | some g => do
    let g' ← mapGgjetFailure (g.writeSlotUpdates ctx.env slot (updates g.manifest))
    return { st with
      ggjetWriter := some g'
      selected := st.selected ++ [(slot,updates g.manifest)] }

def writeSkipped (st : RecorderState) (slot : UInt64) : Except RecorderError RecorderState := do
  st.checkGapSlotSkipped ctx slot
  let writer ← mapFailure (st.writer.writeSkippedSlot ctx.env.toEnv slot)
  let st : RecorderState := { st with writer, emitted := st.emitted ++ [.skipped slot] }
  st.writeSelected ctx slot fun _ => []

def writeTransactions (slot : UInt64) : List CommittedTx → ArchiveWriter →
    (AList fun _ : Signature => List AccountUpdate) →
    Except RecorderError (ArchiveWriter × (AList fun _ : Signature => List AccountUpdate) ×
      List Transaction)
  | [], w, updates => .ok (w,updates,[])
  | c :: rest, w, updates => do
    let tx ← convertTransaction ctx.parsers slot c
    match c.tx.signatures.head? with
    | none => throw (.noSignature slot)
    | some sig =>
      let tx ← ((updates.lookup sig).getD []).foldlM (pushAccountUpdate slot) tx
      let w ← mapFailure (w.writeTransaction ctx.env.toEnv tx)
      let (w,updates,txs) ← writeTransactions slot rest w (updates.erase sig)
      return (w,updates,tx :: txs)

def epochMeta (st : RecorderState) (slot : UInt64) (info : BufferedBlockMeta) : Option EpochMeta :=
  if st.epochMetaWritten then none
  else some {
    epoch := st.epoch
    startSlot := st.slotStart
    slotCount := st.slotEndInclusive - st.slotStart + 1
    firstBlockSlot := slot
    numRewardPartitions := info.numPartitions
    updates := .empty }

def writeBlock (st : RecorderState) (slot : UInt64) (a : SlotAssembly) (info : BufferedBlockMeta) :
    Except RecorderError RecorderState := do
  let epoch := st.epochMeta slot info
  let w ← mapFailure (st.writer.beginSlot ctx.env.toEnv slot)
  let w ← mapFailure (w.writeEpoch ctx.env.toEnv epoch)
  let w ← mapFailure ((a.preOrphans.map Archive.Call.orphan).foldlM
    (ArchiveWriter.call ctx.env.toEnv) w)
  let (w,stray,txs) ← writeTransactions ctx slot a.txs w a.txUpdates
  if stray.keys ≠ [] then throw (.strayUpdates slot stray.keys.length)
  let w ← mapFailure ((a.postOrphans.map Archive.Call.orphan).foldlM
    (ArchiveWriter.call ctx.env.toEnv) w)
  let blockMeta ← info.toBlockMeta slot
  let w ← mapFailure (w.endSlot blockMeta a.entries)
  return { st with
    writer := w
    epochMetaWritten := true
    lastEmitted := some slot
    emitted := st.emitted ++
      [.block slot epoch a.preOrphans txs a.postOrphans blockMeta a.entries] }

def emitSlot (st : RecorderState) (slot : UInt64) (a : SlotAssembly) :
    Except RecorderError RecorderState := do
  let st ← (slotsBetween st.next slot).foldlM (writeSkipped ctx) st
  match st.blockMetas.find slot with
  | none => throw (.noBlockMeta slot)
  | some info =>
    let st := { st with blockMetas := st.blockMetas.erase slot }
    let st ← st.writeSelected ctx slot a.selected
    st.writeBlock ctx slot a info

/-- The loop of `emit_complete_below`, over the entries in their order. -/
def emitBelow (boundary : UInt64) : List (UInt64 × SlotAssembly) → RecorderState →
    Except RecorderError RecorderState
  | [], st => .ok st
  | (slot,a) :: rest, st =>
    if boundary ≤ slot then .ok st
    else do
      let st ← { st with assemblies := st.assemblies.erase slot }.emitSlot ctx slot a
      emitBelow boundary rest st

def emitCompleteBelow (st : RecorderState) (boundary : UInt64) :
    Except RecorderError RecorderState :=
  emitBelow ctx boundary st.assemblies.entries st

def routeUpdate (st : RecorderState) (slot : UInt64) (signature : Option Signature)
    (update : AccountUpdate) : Except RecorderError RecorderState := do
  let st ← st.emitCompleteBelow ctx slot
  return { st with assemblies :=
    st.assemblies.upsert slot fun a => (a.getD .default).route signature update }

end RecorderState

/-- What the recorder is told, one call after another under its lock. -/
inductive RecorderCall where
  | blockMeta (slot : UInt64) (info : BufferedBlockMeta)
  | update (slot : UInt64) (signature : Option Signature) (update : AccountUpdate)
  | committedEntry (slot : UInt64) (entryIndex : Nat) (numHashes : UInt64) (txs : List CommittedTx)
  | forceSkipped (slot : UInt64)

namespace RecorderState

variable (ctx : RecorderContext)

def recordBlockMeta (st : RecorderState) (slot : UInt64) (info : BufferedBlockMeta) :
    RecorderState :=
  if st.finished then st
  else if st.lastEmitted.any fun last => slot ≤ last then st
  else { st with blockMetas := st.blockMetas.upsert slot fun _ => info }

def recordOwnedUpdate (st : RecorderState) (slot : UInt64) (signature : Option Signature)
    (update : AccountUpdate) : Except RecorderError RecorderState :=
  if st.finished then .ok st else st.routeUpdate ctx slot signature update

def recordCommittedEntry (st : RecorderState) (slot : UInt64) (entryIndex : Nat)
    (numHashes : UInt64) (txs : List CommittedTx) : Except RecorderError RecorderState :=
  if st.finished then .ok st
  else do
    let st ← st.emitCompleteBelow ctx slot
    let a := (st.assemblies.find slot).getD .default
    if a.entries.length ≠ entryIndex then
      throw (.entryDiscontinuity slot entryIndex a.entries.length)
    return { st with assemblies :=
      st.assemblies.upsert slot fun a => (a.getD .default).commit numHashes txs }

def noteForceSkipped (st : RecorderState) (slot : UInt64) : RecorderState :=
  { st with forceSkipped := slot :: st.forceSkipped }

def record (st : RecorderState) : RecorderCall → Except RecorderError RecorderState
  | .blockMeta slot info => .ok (st.recordBlockMeta slot info)
  | .update slot signature update => st.recordOwnedUpdate ctx slot signature update
  | .committedEntry slot entryIndex numHashes txs =>
    st.recordCommittedEntry ctx slot entryIndex numHashes txs
  | .forceSkipped slot => .ok (st.noteForceSkipped slot)

/-- What `finish` leaves to the writers: all slots of the range are with them. -/
def emitAll (st : RecorderState) : Except RecorderError RecorderState :=
  if st.finished then .error .alreadyFinished
  else do
    let st ← st.emitCompleteBelow ctx (2^64 - 1)
    let st ← (slotsThrough st.next st.slotEndInclusive).foldlM (writeSkipped ctx) st
    if st.blockMetas.entries ≠ [] then
      throw (.metasNeverEmitted (st.blockMetas.entries.map Prod.fst))
    return { st with finished := true }

def finish (st : RecorderState) : Except RecorderError
    ((Bytes × ArchiveStats) × Option (Bytes × GgjetStats)) := do
  let st ← st.emitAll ctx
  let archive ← mapFailure (st.writer.finish ctx.env.toEnv)
  match st.ggjetWriter with
  | none => return (archive,none)
  | some g =>
    let ggjet ← mapGgjetFailure (g.finish ctx.env)
    return (archive,some ggjet)

def createGgjet (nowMs slotStart slotCount : UInt64) :
    Option (AccountManifest × GgjetWriterConfig) → Except RecorderError (Option GgjetWriter)
  | none => .ok none
  | some (manifest,config) => do
    let checkpointSlot := if slotStart = 0 then 0 else slotStart - 1
    let g ← mapGgjetFailure (GgjetWriter.new ctx.env nowMs manifest checkpointSlot slotStart
      slotCount config)
    return some g

/-- A recorder for a range, with or without an account writer beside the archive. -/
def create (nowMs epoch slotStart slotCount : UInt64) (config : ArchiveWriterConfig)
    (ggjet : Option (AccountManifest × GgjetWriterConfig)) :
    Except RecorderError RecorderState := do
  let writer ← mapFailure (ArchiveWriter.new ctx.env.toEnv nowMs epoch slotStart slotCount config)
  let ggjetWriter ← createGgjet ctx nowMs slotStart slotCount ggjet
  return {
    writer, ggjetWriter, epoch, slotStart
    slotEndInclusive := slotStart + slotCount - 1
    assemblies := .empty
    blockMetas := .empty
    lastEmitted := none
    epochMetaWritten := false
    forceSkipped := []
    finished := false
    emitted := []
    selected := [] }

end RecorderState

end Jetstreamer.Node
