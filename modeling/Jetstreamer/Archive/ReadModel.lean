import Jetstreamer.Archive.Positions
set_option autoImplicit false

namespace Jetstreamer.Archive
open Lib Lencode Horizon

/-- One call of `read_slots`, with the setting of the reader it is made under. -/
structure ReadCall where
  startSlot : UInt64
  maxSlots : Nat
  accountUpdateData : Bool
  verifyChain : Bool

/-- How far a call has come: what it told the visitor, and where in the archive it stands. -/
structure Progress where
  visited : Nat
  events : List Event
  bytes : PayloadByteStats
  bucket : Nat
  position : Position

def Progress.tell (startSlot : UInt64) (s : Progress) (frame : DecodedFrame) (next : Position) :
    Progress :=
  { s with
    visited := if startSlot ≤ frame.slot then s.visited + 1 else s.visited
    events := s.events ++ frame.told startSlot
    bytes := s.bytes.plus frame.bytes
    position := next }

/-- A call that fails, and what its visitor was told up to then. -/
structure Halt where
  failure : Failure
  events : List Event
  bytes : PayloadByteStats

def Progress.halt (s : Progress) (failure : Failure) : Halt := ⟨failure,s.events,s.bytes⟩

def Progress.halted (startSlot : UInt64) (s : Progress) (refused : Failure × DecodedFrame) : Halt :=
  ⟨refused.1,s.events ++ refused.2.told startSlot,s.bytes.plus refused.2.bytes⟩

/-- The bytes a reader works on, as its framing divides them. -/
structure Framing where
  source : Bytes
  header : FileHeader
  index : List BucketIndexEntry

def ArchiveReader.framing (r : ArchiveReader) : Framing := ⟨r.source,r.header,r.index⟩

section Runs

variable (env : Env) (file : Framing)

def Framing.load (materialize : Bool) (idx : Nat) : Except Failure Position :=
  match file.index[idx]? with
  | none => .error .panics
  | some entry => do
    let raw ← readAt file.source entry.offset.toNat entry.len.toNat
    match BucketDecoder.loadBucketBytes env raw { materializeAccountData := materialize } with
    | .error e _ => .error e
    | .ok _ d => .ok d.position

variable (call : ReadCall)

def runFrames : Nat → Progress → Except Halt Progress
  | 0, s => .ok s
  | n+1, s =>
    if s.visited < call.maxSlots then do
      let decoded ← (s.position.next env call.verifyChain).mapError (s.halted call.startSlot)
      runFrames n (s.tell call.startSlot decoded.1 decoded.2)
    else .ok s

def runBuckets : List Nat → Progress → Except Halt Progress
  | [], s => .ok s
  | idx :: rest, s =>
    if s.visited < call.maxSlots then do
      let p ← (file.load env call.accountUpdateData idx).mapError s.halt
      let s ← runFrames env call (max p.slotsRemaining.toNat 1)
          { s with bucket := idx, position := p }
      runBuckets rest s
    else .ok s

/-- Up to `n` frames more of the bucket, then the buckets behind it. -/
def runOn (n : Nat) (s : Progress) : Except Halt Progress := do
  let s' ← runFrames env call n s
  runBuckets env file call (List.range' (s.bucket + 1) (file.index.length - (s.bucket + 1))) s'

def Progress.start (bucket : Nat) (p : Position) : Progress := ⟨0,[],{},bucket,p⟩

def runFrom (bucket : Nat) (p : Position) : Except Halt Progress :=
  runOn env file call p.slotsRemaining.toNat (.start bucket p)

end Runs

/-- A reader in the middle of a call, and what its visitor has been told. `base` and `log` are
what it was called with. -/
structure Shows (base : ArchiveReader) (log : List Event) (s : Progress) (r : ArchiveReader)
    (events : List Event) : Prop where
  framing : r.framing = base.framing
  readerVerify : r.verifyChain = base.verifyChain
  verify : r.decoder.verifyChain = base.decoder.verifyChain
  materialize : r.decoder.materializeAccountData = base.decoder.materializeAccountData
  position : r.decoder.position = s.position
  bucket : r.currentBucket = some s.bucket
  told : events = log ++ s.events
  bytes : r.decoder.byteStats = base.decoder.byteStats.plus s.bytes

/-- The outcome of a stretch of a call is the one the model computes. -/
def Computes (base : ArchiveReader) (log : List Event) (model : Except Halt Progress)
    (result : EStateM.Result Failure (ArchiveReader × List Event) Nat) : Prop :=
  match model with
  | .ok s => ∃ r events, result = .ok s.visited (r,events) ∧ Shows base log s r events
  | .error h => ∃ r, result = .error h.failure (r,log ++ h.events) ∧ r.framing = base.framing ∧
      r.decoder.byteStats = base.decoder.byteStats.plus h.bytes

section Refinement

variable {env : Env} {call : ReadCall} {base : ArchiveReader} {log : List Event}

theorem PayloadByteStats.plus_assoc (a b c : PayloadByteStats) :
    (a.plus b).plus c = a.plus (b.plus c) := by
  simp only [plus,Nat.add_assoc]

variable {events : List Event} {r : ArchiveReader} {s : Progress}

theorem Shows.decodeSlotFrame
    {frame : DecodedFrame} {q : Position} (h : Shows base log s r events) (startSlot : UInt64)
    (hnext : s.position.next env base.decoder.verifyChain = .ok (frame,q)) :
    ∃ r' events', ArchiveReader.decodeSlotFrame env startSlot (r,events) =
        .ok (decide (startSlot ≤ frame.slot)) (r',events') ∧
      Shows base log (s.tell startSlot frame q) r' events' := by
  rw [← h.position,← h.verify] at hnext
  obtain ⟨d,hrun,hposition,hverify,hmaterialize,hbytes⟩ :=
    decodeSlotFrame_next startSlot events hnext
  refine ⟨{ r with decoder := d },events ++ frame.told startSlot,
    by simp only [ArchiveReader.decodeSlotFrame,hrun],?_⟩
  refine ⟨h.framing,h.readerVerify,hverify.trans h.verify,hmaterialize.trans h.materialize,
    hposition,h.bucket,?_,?_⟩
  · simp only [Progress.tell,h.told,List.append_assoc]
  · simp only [Progress.tell,hbytes,h.bytes,PayloadByteStats.plus_assoc]

theorem Shows.decodeSlotFrame_error
    {refused : Failure × DecodedFrame} (h : Shows base log s r events) (startSlot : UInt64)
    (hnext : s.position.next env base.decoder.verifyChain = .error refused) :
    ∃ r', ArchiveReader.decodeSlotFrame env startSlot (r,events) =
        .error refused.1 (r',log ++ (s.halted startSlot refused).events) ∧
      r'.framing = base.framing ∧
      r'.decoder.byteStats = base.decoder.byteStats.plus (s.halted startSlot refused).bytes := by
  rw [← h.position,← h.verify] at hnext
  obtain ⟨d,hrun,hbytes⟩ := Archive.decodeSlotFrame_error startSlot events hnext
  refine ⟨{ r with decoder := d },?_,h.framing,?_⟩
  · simp only [ArchiveReader.decodeSlotFrame,hrun,Progress.halted]
    rw [h.told,List.append_assoc]
  · simp only [Progress.halted,hbytes,h.bytes,PayloadByteStats.plus_assoc]

theorem Shows.readFrames (env : Env)
    (hverify : base.decoder.verifyChain = call.verifyChain) (n : Nat)
    (h : Shows base log s r events) :
    Computes base log (runFrames env call n s)
      (ArchiveReader.readFrames env call.startSlot call.maxSlots n s.visited (r,events)) := by
  induction n generalizing s r events with
  | zero => exact ⟨r,events,rfl,h⟩
  | succ n ih =>
    rw [runFrames,ArchiveReader.readFrames]
    by_cases hmore : s.visited < call.maxSlots
    · rw [if_pos hmore,if_pos hmore]
      cases hnext : s.position.next env call.verifyChain with
      | error refused =>
        obtain ⟨r',hrun,hend⟩ := h.decodeSlotFrame_error call.startSlot (hverify ▸ hnext)
        exact ⟨r',by simp only [bind,EStateM.bind,hrun]; rfl,hend⟩
      | ok decoded =>
        obtain ⟨frame,q⟩ := decoded
        obtain ⟨r',events',hrun,hshows⟩ := h.decodeSlotFrame call.startSlot (hverify ▸ hnext)
        have hrest := ih hshows
        simp only [Progress.tell] at hrest ⊢
        simp only [bind,EStateM.bind,hrun,decide_eq_true_eq]
        exact hrest
    · rw [if_neg hmore,if_neg hmore]
      exact ⟨r,events,rfl,h⟩

theorem loadBucketBytes_ok_iff {raw : Bytes} {d d' : BucketDecoder} :
    BucketDecoder.loadBucketBytes env raw d = .ok () d' ↔ ∃ header after payload,
      (decodeBucketHeader : Get Failure Unit BucketHeader) ⟨(),raw⟩ = .ok header after ∧
      ¬(lenU64 after.bytes ≠ header.storedLen ∨ env.xxh64 after.bytes ≠ header.xxh64) ∧
      unpackPayload env header after.bytes = .ok payload ∧ { d with
        payload, pos := 0, slotsRemaining := header.slotCount, lastDecodedSlot := none
        lastBlockhash := header.pohStartHash, decoders := newDecoderContext
        bucketMaterialize := d.materializeAccountData } = d' := by
  unfold BucketDecoder.loadBucketBytes
  constructor
  · intro h
    split at h
    · cases h
    rename_i header after hheader
    dsimp only at h
    split at h
    · cases h
    rename_i hsum
    split at h
    · cases h
    rename_i payload hunpack
    cases h
    exact ⟨header,after,payload,hheader,hsum,hunpack,rfl⟩
  · rintro ⟨header,after,payload,hheader,hsum,hunpack,rfl⟩
    simp only [hheader,if_neg hsum,hunpack]

theorem Framing.load_parts {file : Framing} {materialize : Bool} {idx : Nat} {front : Position}
    (h : file.load env materialize idx = .ok front) :
    ∃ entry raw d, file.index[idx]? = some entry ∧
      readAt file.source entry.offset.toNat entry.len.toNat = .ok raw ∧
      BucketDecoder.loadBucketBytes env raw { materializeAccountData := materialize } = .ok () d ∧
      d.position = front := by
  unfold Framing.load at h
  cases hentry : file.index[idx]? with
  | none =>
    rw [hentry] at h
    cases h
  | some entry =>
    rw [hentry] at h
    obtain ⟨raw,hraw,h⟩ := bind_ok h
    split at h
    · cases h
    · rename_i d hload
      cases h
      exact ⟨entry,raw,d,rfl,hraw,hload,rfl⟩

theorem Framing.load_elided {file : Framing} {idx : Nat} {p : Position}
    (h : file.load env true idx = .ok p) : file.load env false idx = .ok p.elided := by
  obtain ⟨entry,raw,d,hentry,hraw,hload,rfl⟩ := Framing.load_parts h
  obtain ⟨header,after,payload,hheader,hsum,hunpack,rfl⟩ := loadBucketBytes_ok_iff.mp hload
  have hagain := (loadBucketBytes_ok_iff (d := { materializeAccountData := false })).mpr
    ⟨header,after,payload,hheader,hsum,hunpack,rfl⟩
  simp only [Framing.load,hentry,hraw,ok_bind,hagain]
  rfl

theorem loadBucketBytes_position (env : Env) (raw : Bytes) (d : BucketDecoder) :
    match BucketDecoder.loadBucketBytes env raw
      { materializeAccountData := d.materializeAccountData } with
    | .ok _ fresh => ∃ d', BucketDecoder.loadBucketBytes env raw d = .ok () d' ∧
        d'.position = fresh.position ∧ d'.verifyChain = d.verifyChain ∧
        d'.materializeAccountData = d.materializeAccountData ∧ d'.byteStats = d.byteStats
    | .error e _ => ∃ d', BucketDecoder.loadBucketBytes env raw d = .error e d' ∧
        d'.byteStats = d.byteStats := by
  unfold BucketDecoder.loadBucketBytes
  cases hheader : (decodeBucketHeader : Get Failure Unit BucketHeader) ⟨(),raw⟩ with
  | error e after => exact ⟨d,rfl,rfl⟩
  | ok header after =>
    dsimp only
    by_cases hsum : lenU64 after.bytes ≠ header.storedLen ∨ env.xxh64 after.bytes ≠ header.xxh64
    · rw [if_pos hsum,if_pos hsum]
      exact ⟨d,rfl,rfl⟩
    · rw [if_neg hsum,if_neg hsum]
      cases hunpack : unpackPayload env header after.bytes with
      | error e => exact ⟨_,rfl,rfl⟩
      | ok payload => exact ⟨_,rfl,rfl,rfl,rfl,rfl⟩

theorem loadBucket_ok (events : List Event) {idx : Nat} {p : Position}
    (h : r.framing.load env r.decoder.materializeAccountData idx = .ok p) :
    ∃ d, ArchiveReader.loadBucket env idx (r,events) = .ok () ({ r with
        decoder := d, currentBucket := some idx, bucketLoads := r.bucketLoads + 1 },events) ∧
      d.position = p ∧ d.verifyChain = r.decoder.verifyChain ∧
      d.materializeAccountData = r.decoder.materializeAccountData ∧
      d.byteStats = r.decoder.byteStats := by
  obtain ⟨entry,raw,fresh,hentry,hraw,hfresh,rfl⟩ := Framing.load_parts h
  have hload := loadBucketBytes_position env raw r.decoder
  rw [hfresh] at hload
  obtain ⟨d,hrun,hposition,hverify,hmaterialize,hbytes⟩ := hload
  simp only [ArchiveReader.framing] at hentry hraw
  exact ⟨d,by simp only [ArchiveReader.loadBucket,hentry,hraw,hrun],hposition,hverify,
    hmaterialize,hbytes⟩

theorem loadBucket_error (events : List Event) {idx : Nat} {e : Failure}
    (h : r.framing.load env r.decoder.materializeAccountData idx = .error e) :
    ∃ r', ArchiveReader.loadBucket env idx (r,events) = .error e (r',events) ∧
      r'.framing = r.framing ∧ r'.decoder.byteStats = r.decoder.byteStats := by
  unfold Framing.load ArchiveReader.framing at h
  dsimp only at h
  cases hentry : r.index[idx]? with
  | none =>
    rw [hentry] at h
    cases h
    exact ⟨r,by simp only [ArchiveReader.loadBucket,hentry],rfl,rfl⟩
  | some entry =>
    rw [hentry] at h
    rcases bind_error h with hraw | ⟨raw,hraw,h⟩
    · exact ⟨r,by simp only [ArchiveReader.loadBucket,hentry,hraw],rfl,rfl⟩
    · have hload := loadBucketBytes_position env raw r.decoder
      split at h
      · rename_i fresh heq
        cases h
        rw [heq] at hload
        obtain ⟨d,hrun,hbytes⟩ := hload
        exact ⟨{ r with decoder := d },by simp only [ArchiveReader.loadBucket,hentry,hraw,hrun],rfl,
          hbytes⟩
      · cases h

theorem Shows.load {idx : Nat} {p : Position} (h : Shows base log s r events)
    (hload : base.framing.load env base.decoder.materializeAccountData idx = .ok p) :
    ∃ r', ArchiveReader.loadBucket env idx (r,events) = .ok () (r',events) ∧
      Shows base log { s with bucket := idx, position := p } r' events := by
  rw [← h.framing,← h.materialize] at hload
  obtain ⟨d,hrun,hposition,hverify,hmaterialize,hbytes⟩ := loadBucket_ok events hload
  exact ⟨_,hrun,h.framing,h.readerVerify,hverify.trans h.verify,hmaterialize.trans h.materialize,
    hposition,rfl,h.told,hbytes.trans h.bytes⟩

theorem Shows.readBuckets (hverify : base.decoder.verifyChain = call.verifyChain)
    (hdata : base.decoder.materializeAccountData = call.accountUpdateData) (buckets : List Nat)
    (h : Shows base log s r events) :
    Computes base log (runBuckets env base.framing call buckets s)
      (ArchiveReader.readBuckets env call.startSlot call.maxSlots buckets s.visited
        (r,events)) := by
  induction buckets generalizing s r events with
  | nil => exact ⟨r,events,rfl,h⟩
  | cons idx rest ih =>
    rw [runBuckets,ArchiveReader.readBuckets]
    by_cases hmore : s.visited < call.maxSlots
    · rw [if_pos hmore,if_pos hmore]
      cases hload : base.framing.load env call.accountUpdateData idx with
      | error e =>
        have hload' : r.framing.load env r.decoder.materializeAccountData idx = .error e := by
          rw [h.framing,h.materialize,hdata]
          exact hload
        obtain ⟨r',hrun,hframing,hbytes⟩ := loadBucket_error events hload'
        refine ⟨r',?_,hframing.trans h.framing,hbytes.trans h.bytes⟩
        simp only [bind,EStateM.bind,hrun,Progress.halt]
        rw [h.told]
      | ok p =>
        obtain ⟨r1,hrun,hshows⟩ := h.load (hdata ▸ hload)
        have hposition := congrArg Position.slotsRemaining hshows.position
        have hcount : r1.decoder.slotsRemaining = p.slotsRemaining := hposition
        have hframes := hshows.readFrames env hverify (max p.slotsRemaining.toNat 1)
        simp only [bind,EStateM.bind,hrun,get,getThe,MonadStateOf.get,EStateM.get,hcount,
          Except.bind,Except.mapError]
        cases hmodel : runFrames env call (max p.slotsRemaining.toNat 1)
            { s with bucket := idx, position := p } with
        | error halt =>
          rw [hmodel] at hframes
          obtain ⟨r2,hrun2,hend⟩ := hframes
          exact ⟨r2,by simp only [hrun2],hend⟩
        | ok s2 =>
          rw [hmodel] at hframes
          obtain ⟨r2,events2,hrun2,hshows2⟩ := hframes
          simp only [hrun2]
          exact ih hshows2
    · rw [if_neg hmore,if_neg hmore]
      exact ⟨r,events,rfl,h⟩

theorem Shows.runFrom (hverify : base.decoder.verifyChain = call.verifyChain)
    (hdata : base.decoder.materializeAccountData = call.accountUpdateData) {bucket : Nat}
    {p : Position} (h : Shows base log (.start bucket p) r events) :
    Computes base log (Archive.runFrom env base.framing call bucket p)
      ((do
        let (r,_) ← get
        let visited ← ArchiveReader.readFrames env call.startSlot call.maxSlots
          r.decoder.slotsRemaining.toNat 0
        ArchiveReader.readBuckets env call.startSlot call.maxSlots
          (List.range' (bucket + 1) (r.index.length - (bucket + 1))) visited :
        ArchiveReader.Visit Nat) (r,events)) := by
  have hposition := congrArg Position.slotsRemaining h.position
  have hcount : r.decoder.slotsRemaining = p.slotsRemaining := hposition
  have hindex : r.index = base.framing.index := congrArg Framing.index h.framing
  have hframes := h.readFrames env hverify p.slotsRemaining.toNat
  simp only [bind,EStateM.bind,get,getThe,MonadStateOf.get,EStateM.get,hcount,hindex]
  unfold Archive.runFrom runOn
  have hvisited : (Progress.start bucket p).visited = 0 := rfl
  rw [hvisited] at hframes
  cases hmodel : runFrames env call p.slotsRemaining.toNat (.start bucket p) with
  | error halt =>
    rw [hmodel] at hframes
    obtain ⟨r2,hrun2,hend⟩ := hframes
    exact ⟨r2,by simp only [hrun2],hend⟩
  | ok s2 =>
    rw [hmodel] at hframes
    obtain ⟨r2,events2,hrun2,hshows2⟩ := hframes
    simp only [hrun2]
    exact hshows2.readBuckets hverify hdata _

def ArchiveReader.asked (r : ArchiveReader) (call : ReadCall) : ArchiveReader :=
  { r with
    verifyChain := call.verifyChain
    decoder := { r.decoder with
      verifyChain := call.verifyChain, materializeAccountData := call.accountUpdateData } }

def ArchiveReader.run (env : Env) (r : ArchiveReader) (call : ReadCall) :
    Except Halt Progress := do
  let target ← (bucketContaining r.header r.index call.startSlot).mapError fun e => ⟨e,[],{}⟩
  if (r.asked call).continues target call.startSlot then
    Archive.runFrom env r.framing call target r.decoder.position
  else do
    let p ← (r.framing.load env call.accountUpdateData target).mapError fun e => ⟨e,[],{}⟩
    Archive.runFrom env r.framing call target p

def ArchiveReader.idle (r : ArchiveReader) (call : ReadCall) : Prop :=
  r.index.isEmpty ∨ call.maxSlots = 0

instance (r : ArchiveReader) (call : ReadCall) : Decidable (r.idle call) :=
  inferInstanceAs (Decidable (_ ∨ _))

theorem readSlots_idle (h : r.idle call) (events : List Event) :
    ArchiveReader.readSlots env call.startSlot call.maxSlots call.accountUpdateData (r,events) =
      .ok 0 (r,events) := by
  have h' : r.index.isEmpty = true ∨ call.maxSlots = 0 := h
  simp only [ArchiveReader.readSlots,bind,EStateM.bind,get,getThe,MonadStateOf.get,EStateM.get,h',
    if_true]
  rfl

theorem readSlots_run (h : ¬r.idle call) (events : List Event) :
    Computes (r.asked call) events (r.run env call)
      (ArchiveReader.readSlots env call.startSlot call.maxSlots call.accountUpdateData
        ({ r with verifyChain := call.verifyChain },events)) := by
  have h' : ¬(r.index.isEmpty = true ∨ call.maxSlots = 0) := h
  simp only [ArchiveReader.readSlots,bind,EStateM.bind,get,getThe,MonadStateOf.get,EStateM.get,h',
    if_false,modify,modifyGet,MonadStateOf.modifyGet,EStateM.modifyGet]
  unfold ArchiveReader.run
  cases htarget : bucketContaining r.header r.index call.startSlot with
  | error e => exact ⟨_,by rw [List.append_nil]; rfl,rfl,rfl⟩
  | ok target =>
    simp only [Except.mapError,ok_bind]
    simp only [ArchiveReader.seek,bind,EStateM.bind,get,getThe,MonadStateOf.get,EStateM.get]
    have hasked : ({ r with
        verifyChain := call.verifyChain
        decoder := { r.decoder with
          verifyChain := call.verifyChain
          materializeAccountData := call.accountUpdateData } } : ArchiveReader) =
            r.asked call := rfl
    simp only [hasked]
    by_cases hcontinues : (r.asked call).continues target call.startSlot = true
    · rw [if_pos hcontinues,if_pos hcontinues]
      have hbucket : r.currentBucket = some target := by
        simp only [ArchiveReader.continues,Bool.and_eq_true,decide_eq_true_eq] at hcontinues
        exact hcontinues.1.1
      have hshows : Shows (r.asked call) events (.start target r.decoder.position) (r.asked call)
          events := ⟨rfl,rfl,rfl,rfl,rfl,hbucket,(List.append_nil _).symm,rfl⟩
      exact hshows.runFrom rfl rfl
    · rw [if_neg hcontinues,if_neg hcontinues]
      cases hload : r.framing.load env call.accountUpdateData target with
      | error e =>
        have hload' : (r.asked call).framing.load env
            (r.asked call).decoder.materializeAccountData target = .error e := hload
        obtain ⟨r',hrun,hframing,hbytes⟩ := loadBucket_error events hload'
        exact ⟨r',by simp only [hrun,List.append_nil],hframing,hbytes⟩
      | ok p =>
        have hload' : (r.asked call).framing.load env
            (r.asked call).decoder.materializeAccountData target = .ok p := hload
        obtain ⟨d,hrun,hposition,hverify,hmaterialize,hbytes⟩ := loadBucket_ok events hload'
        have hshows : Shows (r.asked call) events (.start target p) { r.asked call with
            decoder := d, currentBucket := some target, bucketLoads := r.bucketLoads + 1 } events :=
          ⟨rfl,rfl,hverify,hmaterialize,hposition,rfl,(List.append_nil _).symm,hbytes⟩
        simp only [hrun]
        exact hshows.runFrom rfl rfl

end Refinement

/-- One call: what it returns and what its visitor is told, and the reader it leaves behind. -/
def ArchiveReader.call (env : Env) (r : ArchiveReader) (call : ReadCall) :
    (Except Failure Nat × List Event) × ArchiveReader :=
  match ArchiveReader.readSlots env call.startSlot call.maxSlots call.accountUpdateData
      ({ r with verifyChain := call.verifyChain },[]) with
  | .ok n (r,events) => ((.ok n,events),r)
  | .error e (r,events) => ((.error e,events),r)

def outcome : Except Halt Progress → Except Failure Nat × List Event
  | .ok s => (.ok s.visited,s.events)
  | .error h => (.error h.failure,h.events)

def booked : Except Halt Progress → PayloadByteStats
  | .ok s => s.bytes
  | .error h => h.bytes

section Calls

variable {env : Env} {call : ReadCall} {r : ArchiveReader}

theorem call_idle (h : r.idle call) :
    r.call env call = ((.ok 0,[]),{ r with verifyChain := call.verifyChain }) := by
  have hidle : ArchiveReader.idle { r with verifyChain := call.verifyChain } call := h
  rw [ArchiveReader.call,readSlots_idle hidle]

theorem call_run (env : Env) (h : ¬r.idle call) :
    (r.call env call).1 = outcome (r.run env call) ∧
      (r.call env call).2.framing = r.framing ∧
      (r.call env call).2.decoder.byteStats =
        r.decoder.byteStats.plus (booked (r.run env call)) ∧
      ∀ s, r.run env call = .ok s → Shows (r.asked call) [] s (r.call env call).2 s.events := by
  have hcomputes : Computes _ [] (r.run env call) _ := readSlots_run h []
  cases hrun : r.run env call with
  | error halt =>
    rw [hrun] at hcomputes
    obtain ⟨r',hread,hframing,hbytes⟩ := hcomputes
    simp only [ArchiveReader.call,hread]
    exact ⟨rfl,hframing,hbytes,fun s hs => nomatch hs⟩
  | ok s =>
    rw [hrun] at hcomputes
    obtain ⟨r',events,hread,hshows⟩ := hcomputes
    have hevents : events = s.events := hshows.told.trans (List.nil_append _)
    subst hevents
    simp only [ArchiveReader.call,hread]
    refine ⟨rfl,hshows.framing,hshows.bytes,fun s' hs => ?_⟩
    cases hs
    exact hshows

theorem call_framing : (r.call env call).2.framing = r.framing := by
  by_cases h : r.idle call
  · rw [call_idle h]
    rfl
  · exact (call_run env h).2.1

end Calls

end Jetstreamer.Archive
