import Jetstreamer.Firehose.Block
set_option autoImplicit false

namespace Jetstreamer.Firehose

variable {C : CarTypes}

/-- How a run was started. Reverse runs are sequential, and only threaded forward runs
steal work. -/
structure Settings (C : CarTypes) where
  source : Source C
  handlers : Handlers
  reverse : Bool
  workStealing : Bool

structure Reader (C : CarTypes) where
  epoch : Nat
  localStart : Nat
  localEnd : Nat
  stream : List (Batch C)
  previousBlockhash : C.Hash
  latestEntryBlockhash : C.Hash

/-- The variables of one pass of the retry loop: `epochs` are still to be entered. -/
structure Pass where
  lastEmitted : Nat
  epochs : List Nat
  currentSlot : Option Nat

/-- What a hunting thread is doing: it scans the ledger under the lock, entry by entry,
then asks its candidates one after the other. -/
inductive Hunt where
  | locking
  | checking (candidates : List Nat) (unseen : List Nat)
  | loaded (candidates : List Nat) (thread next : Nat) (unseen : List Nat)
  | asking (candidates : List Nat)
  | awaiting (victim : Nat) (candidates : List Nat)

/-- Where a thread is. `held` is the point after a read at which steal proposals are
answered; `none` there is the end of the stream. -/
inductive Phase (C : CarTypes) where
  | unspawned
  | restart
  | between (pass : Pass)
  | reading (pass : Pass) (reader : Reader C)
  | held (pass : Pass) (reader : Reader C) (batch : Option (Batch C))
  | backoff
  | completed
  | draining
  | hunting (hunt : Hunt)
  | adopting (nextStored : Bool) (start stop : Nat)
  | retired

structure WorkSlice where
  start : Nat
  next : Nat
  stop : Nat

/-- One worker thread. `assigned` is where its current assignment began, and `log` is what
it has done in that assignment. -/
structure Worker (C : CarTypes) where
  initialStart : Nat
  assigned : Nat
  start : Nat
  stop : Nat
  lastCounted : Nat
  lastEmittedGlobal : Nat
  pendingSkips : List Nat
  reversePartialResume : Option Nat
  reverseHighestRemaining : Option Nat
  slice : WorkSlice
  phase : Phase C
  log : List (Record C)

def Worker.spawn (settings : Settings C) (start stop : Nat) : Worker C :=
  { initialStart := start
    assigned := start
    start := start
    stop := stop
    lastCounted := start - 1
    lastEmittedGlobal := start - 1
    pendingSkips := []
    reversePartialResume := none
    reverseHighestRemaining := if settings.reverse then some (slotToEpoch (stop - 1)) else none
    slice := ⟨start,start,stop⟩
    phase := .unspawned
    log := [] }

def epochBelow : Nat → Option Nat
  | 0 => none
  | epoch+1 => some epoch

def reverseResumeAfterError (slot lastCounted : Nat) (highestRemaining : Option Nat) :
    Option Nat × Option Nat :=
  let resume := if slot ≤ lastCounted then lastCounted + 1 else slot
  let lastEpoch := slotToEpoch lastCounted
  if lastEpoch ≤ slotToEpoch slot ∧ lastEpoch < slotToEpoch resume then
    (none,if highestRemaining = some lastEpoch then epochBelow lastEpoch else highestRemaining)
  else (some resume,highestRemaining)

namespace Worker

/-- The retry handler after an error attributed to `slot`. The emission cursor is put back
to the one the thread began with. -/
def retry (settings : Settings C) (w : Worker C) (slot : Nat) (recycled : Bool) : Worker C :=
  let resume := reverseResumeAfterError slot w.lastCounted w.reverseHighestRemaining
  { w with
    reversePartialResume := if settings.reverse then resume.1 else w.reversePartialResume
    reverseHighestRemaining := if settings.reverse then resume.2 else w.reverseHighestRemaining
    start := if settings.reverse then w.start
      else if slot ≤ w.lastCounted then w.lastCounted + 1 else slot
    pendingSkips := if settings.handlers.block then [] else w.pendingSkips
    lastEmittedGlobal := w.initialStart - 1
    phase := if recycled then .restart else .backoff
    log := w.log ++ [.restarted] }

def passEpochs (settings : Settings C) (w : Worker C) : Option (List Nat) :=
  let lowest := slotToEpoch w.start
  if settings.reverse then
    match w.reverseHighestRemaining with
    | none => none
    | some highest =>
        if highest < lowest then none
        else some (List.range' lowest (highest + 1 - lowest)).reverse
  else some (List.range' lowest (slotToEpoch (w.stop - 1) + 1 - lowest))

def localStart (settings : Settings C) (w : Worker C) (epoch : Nat) : Nat :=
  if settings.reverse then
    match w.reversePartialResume with
    | some resume =>
        if slotToEpoch resume = epoch then max (epochStart epoch) resume
        else max w.start (epochStart epoch)
    | none => max w.start (epochStart epoch)
  else max w.start (epochStart epoch)

def localEnd (w : Worker C) (epoch : Nat) : Nat :=
  min (w.stop - 1) (epochEnd epoch)

def finishEpoch (settings : Settings C) (w : Worker C) (pass : Pass) (epoch : Nat) : Worker C :=
  { w with
    reverseHighestRemaining :=
      if settings.reverse ∧ w.reverseHighestRemaining = some epoch then epochBelow epoch
      else w.reverseHighestRemaining
    reversePartialResume :=
      if settings.reverse ∧ w.reversePartialResume.map slotToEpoch = some epoch then none
      else w.reversePartialResume
    pendingSkips := if settings.handlers.block then [] else w.pendingSkips
    phase := .between pass }

inductive Opening where
  | opened
  | fetchFailed
  | seekFailed

inductive Reading where
  | batch
  | endOfStream
  | failed
  | recycled

inductive Event where
  | beginPass
  | openEpoch (result : Opening)
  | read (result : Reading)
  | proceed (faults : List Bool)
  | wake

def beginPass (settings : Settings C) (w : Worker C) : Worker C :=
  match w.passEpochs settings with
  | none => { w with phase := .retired }
  | some epochs => { w with phase := .between ⟨w.lastEmittedGlobal,epochs,none⟩ }

/-- The pass as it begins to read `epoch`: the counters are aligned to the epoch's slice. -/
def startReading (settings : Settings C) (w : Worker C) (pass : Pass) (epoch : Nat)
    (stream : List (Batch C)) : Worker C :=
  let first := w.localStart settings epoch
  { w with
    lastCounted := first - 1
    phase := .reading
      { lastEmitted := if settings.reverse then first - 1 else pass.lastEmitted
        epochs := pass.epochs
        currentSlot := none }
      { epoch := epoch
        localStart := first
        localEnd := w.localEnd epoch
        stream := stream
        previousBlockhash := C.zeroHash
        latestEntryBlockhash := C.zeroHash } }

/-- Enters `epoch`, an epoch with slots of the range. Only a seek can find the index unable
to answer; fetching and reading the header fail on their own. -/
def enterEpoch (settings : Settings C) (w : Worker C) (pass : Pass) (epoch : Nat) :
    Opening → Option (Worker C)
  | .fetchFailed => some (w.retry settings (pass.currentSlot.getD w.start) false)
  | .seekFailed =>
      let first := w.localStart settings epoch
      if epochStart epoch < first then
        some (({ w with lastCounted := first - 1 } : Worker C).retry settings first false)
      else none
  | .opened =>
      (settings.source.openAt epoch (w.localStart settings epoch)).map
        (w.startReading settings pass epoch)

def openEpoch (settings : Settings C) (w : Worker C) (pass : Pass) (result : Opening) :
    Option (Worker C) :=
  match pass.epochs with
  | [] => some { w with phase := .completed }
  | epoch :: rest =>
      if w.localEnd epoch < w.localStart settings epoch then
        some { w with phase := .between { pass with epochs := rest } }
      else w.enterEpoch settings { pass with epochs := rest } epoch result

def readPosition (w : Worker C) (pass : Pass) : Nat :=
  (pass.currentSlot.map (· + 1)).getD w.start

def read (settings : Settings C) (w : Worker C) (pass : Pass) (reader : Reader C) :
    Reading → Option (Worker C)
  | .batch =>
      match reader.stream with
      | [] => none
      | batch :: rest =>
          some { w with phase := .held pass { reader with stream := rest } (some batch) }
  | .endOfStream => some { w with phase := .held pass reader none }
  | .failed => some (w.retry settings (w.readPosition pass) false)
  | .recycled =>
      if settings.reverse then none
      else some (w.retry settings (w.readPosition pass) true)

def endStream (settings : Settings C) (w : Worker C) (pass : Pass) (reader : Reader C) :
    Worker C :=
  if (settings.source.nextPresentSlot w.lastCounted (min reader.localEnd (w.stop - 1))).isSome then
    w.retry settings (w.lastCounted + 1) false
  else w.finishEpoch settings pass reader.epoch

def blockState (w : Worker C) (pass : Pass) (reader : Reader C) (faults : List Bool) :
    BlockState C :=
  { lastCounted := w.lastCounted
    lastEmitted := pass.lastEmitted
    pendingSkips := w.pendingSkips
    previousBlockhash := reader.previousBlockhash
    latestEntryBlockhash := reader.latestEntryBlockhash
    entryIndex := 0
    executedTransactionCount := 0
    entryCount := 0
    rewards := C.noRewards
    next := w.slice.next
    faults := faults
    log := w.log }

def afterBlock (w : Worker C) (s : BlockState C) : Worker C :=
  { w with
    lastCounted := s.lastCounted
    pendingSkips := s.pendingSkips
    slice := { w.slice with next := s.next }
    log := s.log }

/-- A block below the range only primes the hash chain. -/
def prime (w : Worker C) (pass : Pass) (reader : Reader C) (batch : Batch C) : Worker C :=
  { w with
    phase := .reading pass
      { reader with
        previousBlockhash := (lastEntryHash batch).getD reader.previousBlockhash
        latestEntryBlockhash := (lastEntryHash batch).getD reader.latestEntryBlockhash } }

def emit (settings : Settings C) (w : Worker C) (pass : Pass) (reader : Reader C)
    (batch : Batch C) (faults : List Bool) : Worker C :=
  match processBatch settings.handlers settings.workStealing (w.blockState pass reader faults)
      batch with
  | .error s => (w.afterBlock s).retry settings batch.slot false
  | .ok s =>
      { w.afterBlock s with
        phase :=
          if !settings.reverse && batch.slot == w.stop - 1 then .completed
          else .reading
            { pass with lastEmitted := s.lastEmitted, currentSlot := some batch.slot }
            { reader with
              previousBlockhash := s.previousBlockhash
              latestEntryBlockhash := s.latestEntryBlockhash } }

def proceed (settings : Settings C) (w : Worker C) (pass : Pass) (reader : Reader C)
    (batch : Option (Batch C)) (faults : List Bool) : Worker C :=
  match batch with
  | none => w.endStream settings pass reader
  | some batch =>
      if reader.localEnd < batch.slot then w.finishEpoch settings pass reader.epoch
      else if w.stop ≤ batch.slot then
        if settings.reverse then w.finishEpoch settings pass reader.epoch
        else
          { w with
            pendingSkips := if settings.handlers.block then [] else w.pendingSkips
            phase := .completed }
      else if batch.slot < w.start then w.prime pass reader batch
      else w.emit settings pass reader batch faults

def step (settings : Settings C) (w : Worker C) (event : Event) : Option (Worker C) :=
  match w.phase, event with
  | .restart, .beginPass => some (w.beginPass settings)
  | .between pass, .openEpoch result => w.openEpoch settings pass result
  | .reading pass reader, .read result => w.read settings pass reader result
  | .held pass reader batch, .proceed faults => some (w.proceed settings pass reader batch faults)
  | .backoff, .wake => some { w with phase := .restart }
  | _, _ => none

end Worker

end Jetstreamer.Firehose
