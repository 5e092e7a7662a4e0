import Jetstreamer.Lib.Codec
import Jetstreamer.Lib.Semaphore
set_option autoImplicit false

namespace Jetstreamer.Firehose.Prefetch
open Lib

/-- How many requests a reader has under way, how large they are, and how many bytes all readers
may have requested or hold. -/
structure Config where
  concurrency : Nat
  chunkBytes : Nat
  budgetBytes : Nat
  concurrencyPos : 0 < concurrency
  chunkPos : 0 < chunkBytes
  chunkFits : chunkBytes ≤ budgetBytes

inductive ConfigError where
  | concurrency
  | chunk
  | buffer
  deriving DecidableEq

def maxPermits : Nat := (2^64 - 1) / 2^3

def Config.new (concurrency chunkBytes budgetBytes : Nat) : Except ConfigError Config :=
  if hconcurrency : concurrency = 0 ∨ 1024 < concurrency then .error .concurrency
  else if hchunk : 0 < chunkBytes ∧ chunkBytes < 2^32 then
    if hbudget : chunkBytes ≤ budgetBytes ∧ budgetBytes ≤ maxPermits then
      .ok ⟨concurrency,chunkBytes,budgetBytes,by omega,hchunk.1,hbudget.1⟩
    else .error .buffer
  else .error .chunk

inductive IoError where
  | transport
  | timedOut
  | status (code : Nat)
  | contentRange
  | differentRange
  | exceeded
  | truncated
  | prefetchEnded
  | invalidSeek
  deriving DecidableEq

/-- What becomes of a request: no response in time, or one whose body comes in pieces and may be
cut off after them. -/
inductive Reply where
  | lost
  | timedOut
  | response (status : Nat) (contentRange : Option (List Char)) (body : List Bytes) (cut : Bool)

def splitOnce (separator : Char) : List Char → Option (List Char × List Char)
  | [] => none
  | c :: rest =>
    if c = separator then some ([],rest)
    else (splitOnce separator rest).map fun (before,after) => (c :: before,after)

def parseDigits (digits : List Char) : Option Nat :=
  if digits ≠ [] ∧ digits.all Char.isDigit then
    let value := digits.foldl (fun value c => value*10 + (c.toNat - '0'.toNat)) 0
    if value < 2^64 then some value else none
  else none

def parseU64 : List Char → Option Nat
  | '+' :: digits => parseDigits digits
  | digits => parseDigits digits

def parseContentRange (value : List Char) : Option (Nat × Nat × Nat) := do
  let value ← if "bytes ".toList.isPrefixOf value then some (value.drop 6) else none
  let (range,total) ← splitOnce '/' value
  let (start,last) ← splitOnce '-' range
  return (← parseU64 start,← parseU64 last,← parseU64 total)

def contentRange (status : Nat) (header : Option (List Char)) :
    Except IoError (Nat × Nat × Nat) :=
  if status ≠ 206 then .error (.status status)
  else
    match header.bind parseContentRange with
    | some (start,last,total) =>
      if start ≤ last ∧ last < total then .ok (start,last,total) else .error .contentRange
    | none => .error .contentRange

def collect (expected : Nat) : Bytes → List Bytes → Except IoError Bytes
  | bytes, [] => .ok bytes
  | bytes, piece :: rest =>
    if expected - bytes.length < piece.length then .error .exceeded
    else collect expected (bytes ++ piece) rest

/-- A request for the bytes from `start` to `last`: what it returns has just that length. -/
def request (start last : Nat) (total : Option Nat) :
    Reply → Except IoError (Nat × { bytes : Bytes // bytes.length = last - start + 1 })
  | .lost => .error .transport
  | .timedOut => .error .timedOut
  | .response status header body cut => do
    let (actualStart,actualLast,actualTotal) ← contentRange status header
    if actualStart ≠ start ∨ actualLast ≠ last ∨ total.any (fun total => total != actualTotal) then
      throw .differentRange
    let bytes ← collect (last - start + 1) [] body
    if cut then throw .transport
    if hlength : bytes.length = last - start + 1 then return (actualTotal,⟨bytes,hlength⟩)
    else throw .truncated

/-- The contract of a server: a response that names a range of an object of some length means this
object, and a body of the range's length is what the object has there. -/
def Reply.Honest (object : Bytes) : Reply → Prop
  | .lost | .timedOut => True
  | .response status header body _ =>
    ∀ start last total, contentRange status header = .ok (start,last,total) →
      total = object.length ∧
        (body.flatten.length = last - start + 1 →
          body.flatten = (object.drop start).take (last - start + 1))

inductive FetchState (size : Nat) where
  | running (attempt : Fin 3)
  | done (bytes : { bytes : Bytes // bytes.length = size })
  | failed (err : IoError)

structure Fetch where
  start : Nat
  last : Nat
  state : FetchState (last - start + 1)

namespace Fetch

def size (f : Fetch) : Nat := f.last - f.start + 1

def result (f : Fetch) : Option (Except IoError Bytes) :=
  match f.state with
  | .running _ => none
  | .done bytes => some (.ok bytes.1)
  | .failed err => some (.error err)

/-- One attempt of `fetch`; the third failure is final, and gives the permit back. -/
def reply (total : Nat) (f : Fetch) (r : Reply) : Option Fetch :=
  match f.state with
  | .running attempt =>
    some { f with state :=
      match request f.start f.last (some total) r with
      | .ok (_,bytes) => .done bytes
      | .error err => if attempt = 2 then .failed err else .running (attempt+1) }
  | .done _ | .failed _ => none

def held (f : Fetch) : Nat :=
  match f.state with
  | .failed _ => 0
  | .running _ | .done _ => f.size

end Fetch

def resultHeld : Except IoError Bytes → Nat
  | .ok bytes => bytes.length
  | .error _ => 0

/-- Where `produce` is: in its inner loop, at one of its three awaits, or returned. -/
inductive Phase where
  | launching
  | waiting (ticket : Nat)
  | awaiting
  | sending (result : Except IoError Bytes)
  | ended

/-- A producer task with the channel to its reader; `receiving` until the reader drops its end. What
`pending` has left after the end are aborted requests the runtime has not dropped yet. -/
structure Pipeline where
  total : Nat
  next : Nat
  pending : List Fetch
  phase : Phase
  channel : List (Except IoError Bytes)
  receiving : Bool

namespace Pipeline

def spawn (position total : Nat) : Pipeline where
  total := total
  next := position
  pending := []
  phase := .launching
  channel := []
  receiving := true

def nextSize (config : Config) (p : Pipeline) : Nat := min (p.total - p.next) config.chunkBytes

def launch (config : Config) (p : Pipeline) : Pipeline :=
  let last := p.next + p.nextSize config - 1
  { p with
    pending := p.pending ++ [⟨p.next,last,.running 0⟩]
    next := last + 1
    phase := .launching }

/-- One step of `produce`, or none while what it awaits has not come. -/
def advance (config : Config) (budget : Semaphore) (p : Pipeline) :
    Option (Semaphore × Pipeline) :=
  match p.phase with
  | .launching =>
    if p.next < p.total ∧ p.pending.length < config.concurrency then
      match budget.tryAcquire (p.nextSize config) with
      | some budget => some (budget,p.launch config)
      | none =>
        if p.pending.isEmpty then
          some (budget.enqueue,{ p with phase := .waiting budget.issued })
        else some (budget,{ p with phase := .awaiting })
    else some (budget,{ p with phase := .awaiting })
  | .waiting ticket =>
    (budget.grant ticket (p.nextSize config)).map fun budget => (budget,p.launch config)
  | .awaiting =>
    match p.pending with
    | [] => some (budget,{ p with phase := .ended })
    | f :: rest =>
      f.result.map fun result => (budget,{ p with pending := rest, phase := .sending result })
  | .sending result =>
    if !p.receiving then some (budget.release (resultHeld result),{ p with phase := .ended })
    else if p.channel.length < config.concurrency then
      some (budget,{ p with
        channel := p.channel ++ [result]
        phase := match result with
          | .ok _ => .launching
          | .error _ => .ended })
    else none
  | .ended => none

def reply (budget : Semaphore) (p : Pipeline) (k : Nat) (r : Reply) :
    Option (Semaphore × Pipeline) :=
  match p.phase with
  | .ended => none
  | _ => do
    let f ← p.pending[k]?
    let next ← f.reply p.total r
    return (budget.release (f.held - next.held),{ p with pending := p.pending.set k next })

def reclaim (budget : Semaphore) (p : Pipeline) : Option (Semaphore × Pipeline) :=
  if p.receiving then none
  else
    match p.phase with
    | .launching | .awaiting => some (budget,{ p with phase := .ended })
    | .waiting ticket => some (budget.leave ticket,{ p with phase := .ended })
    | .sending result => some (budget.release (resultHeld result),{ p with phase := .ended })
    | .ended => none

def reclaimFetch (budget : Semaphore) (p : Pipeline) (k : Nat) : Option (Semaphore × Pipeline) :=
  match p.phase with
  | .ended => do
    let f ← p.pending[k]?
    return (budget.release f.held,{ p with pending := p.pending.eraseIdx k })
  | _ => none

def channelHeld (p : Pipeline) : Nat := (p.channel.map resultHeld).sum

def close (p : Pipeline) : Pipeline := { p with channel := [], receiving := false }

end Pipeline

structure Reader where
  len : Nat
  position : Nat
  pipeline : Option Pipeline
  current : Option Bytes
  offset : Nat

inductive Poll where
  | pending
  | ready (result : Except IoError Bytes)

inductive SeekFrom where
  | start (position : Nat)
  | current (delta : Int)
  | fromEnd (delta : Int)

structure Left where
  budget : Semaphore
  reader : Reader
  aborted : List Pipeline

namespace Reader

def open_ (r : Reply) : Except IoError Reader := do
  let (len,_) ← request 0 0 none r
  return ⟨len,0,none,none,0⟩

def received (r : Reader) : Nat :=
  (r.pipeline.elim 0 Pipeline.channelHeld) + r.current.elim 0 List.length

def cancel (budget : Semaphore) (r : Reader) : Left where
  budget := budget.release r.received
  reader := { r with pipeline := none, current := none, offset := 0 }
  aborted := r.pipeline.toList.map Pipeline.close

def copy (remaining : Nat) (budget : Semaphore) (r : Reader) (chunk : Bytes) : Poll × Left :=
  let count := min remaining (chunk.length - r.offset)
  let bytes := (chunk.drop r.offset).take count
  let r := { r with offset := r.offset + count, position := r.position + count }
  if r.offset = chunk.length then
    (.ready (.ok bytes),⟨budget.release chunk.length,{ r with current := none, offset := 0 },[]⟩)
  else (.ready (.ok bytes),⟨budget,{ r with current := some chunk },[]⟩)

def started (r : Reader) : Pipeline := r.pipeline.getD (.spawn r.position r.len)

def pollRead (remaining : Nat) (budget : Semaphore) (r : Reader) : Poll × Left :=
  if remaining = 0 ∨ r.len ≤ r.position then (.ready (.ok []),⟨budget,r,[]⟩)
  else
    let p := r.started
    match r.current with
    | some chunk => { r with pipeline := some p }.copy remaining budget chunk
    | none =>
      match p.channel with
      | .ok chunk :: rest =>
        { r with pipeline := some { p with channel := rest }, offset := 0 }.copy
          remaining budget chunk
      | .error err :: rest =>
        (.ready (.error err),{ r with pipeline := some { p with channel := rest } }.cancel budget)
      | [] =>
        match p.phase with
        | .ended => (.ready (.error .prefetchEnded),{ r with pipeline := some p }.cancel budget)
        | _ => (.pending,⟨budget,{ r with pipeline := some p },[]⟩)

def seekTarget (r : Reader) : SeekFrom → Int
  | .start position => position
  | .current delta => r.position + delta
  | .fromEnd delta => r.len + delta

def startSeek (budget : Semaphore) (r : Reader) (origin : SeekFrom) :
    Except IoError Unit × Left :=
  let position := r.seekTarget origin
  if 0 ≤ position ∧ position < 2^64 then
    let position := position.toNat
    if position ≠ r.position then
      let left := r.cancel budget
      (.ok (),{ left with reader := { left.reader with position := position } })
    else (.ok (),⟨budget,r,[]⟩)
  else (.error .invalidSeek,⟨budget,r,[]⟩)

end Reader

inductive Work where
  | advance
  | reply (k : Nat) (r : Reply)
  | reclaim
  | reclaimFetch (k : Nat)

def Pipeline.work (config : Config) (budget : Semaphore) (p : Pipeline) :
    Work → Option (Semaphore × Pipeline)
  | .advance => p.advance config budget
  | .reply k r => p.reply budget k r
  | .reclaim => p.reclaim budget
  | .reclaimFetch k => p.reclaimFetch budget k

inductive Action (ι : Type) where
  | open_ (i : ι) (r : Reply)
  | read (i : ι) (remaining : Nat)
  | seek (i : ι) (origin : SeekFrom)
  | drop (i : ι)
  | live (i : ι) (work : Work)
  | aborted (k : Nat) (work : Work)

structure System (ι : Type) where
  budget : Semaphore
  readers : ι → Option Reader
  aborted : List Pipeline

namespace System

variable {ι : Type} [DecidableEq ι]

def new (ι : Type) (config : Config) : System ι where
  budget := .new config.budgetBytes
  readers := fun _ => none
  aborted := []

def leave (s : System ι) (i : ι) (left : Left) : System ι where
  budget := left.budget
  readers := Function.update s.readers i (some left.reader)
  aborted := s.aborted ++ left.aborted

def step (config : Config) (s : System ι) : Action ι → Option (System ι)
  | .open_ i r =>
    match s.readers i,Reader.open_ r with
    | none,.ok reader => some { s with readers := Function.update s.readers i (some reader) }
    | _,_ => none
  | .read i remaining => do
    let reader ← s.readers i
    return s.leave i (reader.pollRead remaining s.budget).2
  | .seek i origin => do
    let reader ← s.readers i
    return s.leave i (reader.startSeek s.budget origin).2
  | .drop i => do
    let reader ← s.readers i
    let left := reader.cancel s.budget
    return { s.leave i left with readers := Function.update s.readers i none }
  | .live i work => do
    let reader ← s.readers i
    let p ← reader.pipeline
    let (budget,p) ← p.work config s.budget work
    return { s with
      budget := budget
      readers := Function.update s.readers i (some { reader with pipeline := some p }) }
  | .aborted k work => do
    let p ← s.aborted[k]?
    let (budget,p) ← p.work config s.budget work
    return { s with budget := budget, aborted := s.aborted.set k p }

variable {config : Config} {s next : System ι}

theorem step_cases {action : Action ι} (h : s.step config action = some next) :
    (∃ i r reader, action = .open_ i r ∧ s.readers i = none ∧ Reader.open_ r = .ok reader ∧
      next = { s with readers := Function.update s.readers i (some reader) }) ∨
    (∃ i remaining r, action = .read i remaining ∧ s.readers i = some r ∧
      next = s.leave i (r.pollRead remaining s.budget).2) ∨
    (∃ i origin r, action = .seek i origin ∧ s.readers i = some r ∧
      next = s.leave i (r.startSeek s.budget origin).2) ∨
    (∃ i r, action = .drop i ∧ s.readers i = some r ∧
      next = ⟨(r.cancel s.budget).budget,Function.update s.readers i none,
        s.aborted ++ (r.cancel s.budget).aborted⟩) ∨
    (∃ i w r p budget after, action = .live i w ∧ s.readers i = some r ∧ r.pipeline = some p ∧
      p.work config s.budget w = some (budget,after) ∧
      next = { s with
        budget := budget
        readers := Function.update s.readers i (some { r with pipeline := some after }) }) ∨
    ∃ k w p budget after, action = .aborted k w ∧ s.aborted[k]? = some p ∧
      p.work config s.budget w = some (budget,after) ∧
      next = { s with budget := budget, aborted := s.aborted.set k after } := by
  cases action with
  | open_ i r =>
    simp only [step] at h
    split at h
    · rename_i reader hnone hopen
      cases h
      exact .inl ⟨i,r,reader,rfl,hnone,hopen,rfl⟩
    · cases h
  | read i remaining =>
    obtain ⟨r,hr,heq⟩ := Option.bind_eq_some_iff.mp h
    cases heq
    exact .inr (.inl ⟨i,remaining,r,rfl,hr,rfl⟩)
  | seek i origin =>
    obtain ⟨r,hr,heq⟩ := Option.bind_eq_some_iff.mp h
    cases heq
    exact .inr (.inr (.inl ⟨i,origin,r,rfl,hr,rfl⟩))
  | drop i =>
    obtain ⟨r,hr,heq⟩ := Option.bind_eq_some_iff.mp h
    cases heq
    exact .inr (.inr (.inr (.inl ⟨i,r,rfl,hr,rfl⟩)))
  | live i w =>
    obtain ⟨r,hr,hrest⟩ := Option.bind_eq_some_iff.mp h
    obtain ⟨p,hp,hwork⟩ := Option.bind_eq_some_iff.mp hrest
    obtain ⟨⟨budget,after⟩,hworked,heq⟩ := Option.bind_eq_some_iff.mp hwork
    cases heq
    exact .inr (.inr (.inr (.inr (.inl ⟨i,w,r,p,budget,after,rfl,hr,hp,hworked,rfl⟩))))
  | aborted k w =>
    obtain ⟨p,hp,hwork⟩ := Option.bind_eq_some_iff.mp h
    obtain ⟨⟨budget,after⟩,hworked,heq⟩ := Option.bind_eq_some_iff.mp hwork
    cases heq
    exact .inr (.inr (.inr (.inr (.inr ⟨k,w,p,budget,after,rfl,hp,hworked,rfl⟩))))

end System

def Action.Honest {ι : Type} (objects : ι → Bytes) : Action ι → Prop
  | .open_ i r => r.Honest (objects i)
  | .live i (.reply _ r) => r.Honest (objects i)
  | _ => True

/-- The states of a system of readers, each of its own object, under any order of its actions. -/
inductive Reachable {ι : Type} [DecidableEq ι] (config : Config) (objects : ι → Bytes) :
    System ι → Prop where
  | new : Reachable config objects (System.new ι config)
  | step {s next : System ι} (action : Action ι) (h : Reachable config objects s)
      (hhonest : action.Honest objects) (hstep : s.step config action = some next) :
      Reachable config objects next

end Jetstreamer.Firehose.Prefetch
