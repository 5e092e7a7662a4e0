import Jetstreamer.Archive.FrameShadows
import Jetstreamer.Archive.Reader
set_option autoImplicit false

namespace Jetstreamer.Archive
open Lib Lencode Horizon

section Told

variable {env : Env} {materialize verify : Bool}

def frameAfter (env : Env) (materialize verify emit : Bool) (slot : UInt64) :
    Get Failure FrameContext (UInt64 × Bool) := do
  let kind ← decodeU8
  if kind = 0 then
    deliver emit (.block (.skipped slot) [])
    return (slot,emit)
  else if kind = 1 then
    readBlock env materialize verify emit slot
    return (slot,emit)
  else throw (.error (.badSlotKind kind))

theorem readFrame_eq (startSlot : UInt64) :
    readFrame env materialize verify startSlot =
      decodeU64 >>= fun slot => frameAfter env materialize verify
        (decide (startSlot ≤ slot)) slot :=
  rfl

theorem FrameMap.frameAfter {kept : Failure → Prop} {materialize' verify' emit emit' : Bool}
    {f : FrameContext → FrameContext} {f0 : DecoderContext → DecoderContext} {g : UpdateMap}
    (hm : FrameMap env kept materialize materialize' emit emit' f f0 g) (slot : UInt64)
    (hverify : verify' = verify ∨ verify' = false ∧ ∀ slot, ¬kept (.error (.pohMismatch slot))) :
    Shadows kept f (fun result => (result.1,emit'))
      (Archive.frameAfter env materialize verify emit slot)
      (Archive.frameAfter env materialize' verify' emit' slot) := by
  refine shadows_u8.bind fun kind => ?_
  simp only [id]
  split
  · exact (hm.deliver (.block (.skipped slot) [])).bind fun _ => Shadows.pure _
  · split
    · exact (hm.readBlock slot hverify).bind fun _ => Shadows.pure _
    · exact Shadows.throw _

theorem frameAfter_value {emit : Bool} {slot : UInt64} {input next : Input FrameContext}
    {result : UInt64 × Bool}
    (h : frameAfter env materialize verify emit slot input = .ok result next) :
    result = (slot,emit) := by
  unfold frameAfter at h
  cases hkind : (decodeU8 : Get Failure FrameContext UInt8) input with
  | error e after =>
    rw [Get.bind_of_error hkind] at h
    cases h
  | ok kind after =>
    rw [Get.bind_of_ok hkind] at h
    split at h
    · cases h
      rfl
    · split at h
      · cases hblock : readBlock env materialize verify emit slot after with
        | error e after' =>
          rw [Get.bind_of_error hblock] at h
          cases h
        | ok u after' =>
          rw [Get.bind_of_ok hblock] at h
          cases h
          rfl
      · cases h

/-- The slot a frame starts with. -/
def frontSlot (input : Input FrameContext) : UInt64 :=
  match (decodeU64 : Get Failure FrameContext UInt64) input with
  | .ok slot _ => slot
  | .error _ _ => 0

theorem readFrame_told (env : Env) (materialize verify : Bool) (startSlot : UInt64)
    (log : List Event) (ctx : FrameContext) (bytes : Bytes) (hctx : ctx.events = []) :
    readFrame env materialize verify startSlot ⟨{ ctx with events := log },bytes⟩ =
      match readFrame env materialize verify 0 ⟨ctx,bytes⟩ with
      | .ok (slot,_) next => .ok (slot,decide (startSlot ≤ slot))
          ⟨next.ctx.toldAfter log (decide (startSlot ≤ slot)),next.bytes⟩
      | .error e next => .error e
          ⟨next.ctx.toldAfter log (decide (startSlot ≤ frontSlot ⟨ctx,bytes⟩)),next.bytes⟩ := by
  have hstart (emit : Bool) : ctx.toldAfter log emit = { ctx with events := log } := by
    simp [FrameContext.toldAfter,hctx]
  have hread (emit : Bool) : Shadows (fun _ => True) (FrameContext.toldAfter log emit) id
      (decodeU64 : Get Failure FrameContext UInt64) decodeU64 := shadows_u64
  have hslot (emit : Bool) := hread emit ctx bytes
  simp only [hstart,readFrame_eq] at hslot ⊢
  cases hfirst : (decodeU64 : Get Failure FrameContext UInt64) ⟨ctx,bytes⟩ with
  | error e next =>
    simp only [hfirst] at hslot
    simp only [Get.bind_of_error hfirst]
    exact Get.bind_of_error (hslot _ trivial)
  | ok slot after =>
    simp only [hfirst] at hslot
    have hall : (0 : UInt64) ≤ slot := UInt64.zero_le
    have hfront : frontSlot ⟨ctx,bytes⟩ = slot := by simp only [frontSlot,hfirst]
    simp only [Get.bind_of_ok hfirst,Get.bind_of_ok (hslot (decide (startSlot ≤ slot))),id,hall,
      decide_true,hfront]
    have hframe : Shadows (fun _ => True) (FrameContext.toldAfter log (decide (startSlot ≤ slot)))
        (fun result => (result.1,decide (startSlot ≤ slot)))
        (frameAfter env materialize verify true slot)
        (frameAfter env materialize verify (decide (startSlot ≤ slot)) slot) :=
      (frameMap_toldAfter env materialize _ log).frameAfter slot (.inl rfl)
    cases hrun : frameAfter env materialize verify true slot after with
    | error e next => exact hframe.of_error hrun trivial
    | ok result next =>
      obtain rfl := frameAfter_value hrun
      exact hframe.of_ok hrun

end Told

/-- Where a decoder stands in its bucket, its statistics and the wishes of its visitor apart. -/
structure Position where
  payload : Bytes
  pos : Nat
  slotsRemaining : UInt32
  lastDecodedSlot : Option UInt64
  decoders : DecoderContext
  lastBlockhash : Hash
  materialize : Bool

def BucketDecoder.position (d : BucketDecoder) : Position :=
  ⟨d.payload,d.pos,d.slotsRemaining,d.lastDecodedSlot,d.decoders,d.lastBlockhash,
    d.bucketMaterialize⟩

/-- A frame as it is decoded: its slot, its callbacks and the bytes it is booked with. Of a frame
that fails, as much as came before. -/
structure DecodedFrame where
  slot : UInt64
  events : List Event
  bytes : PayloadByteStats

def PayloadByteStats.plus (s t : PayloadByteStats) : PayloadByteStats :=
  ⟨s.transactionBytes + t.transactionBytes,s.accountUpdateBytes + t.accountUpdateBytes,
    s.otherBytes + t.otherBytes⟩

namespace Position

def input (p : Position) : Input FrameContext :=
  ⟨⟨p.decoders,p.lastBlockhash,[],0,0,0⟩,p.payload.drop p.pos⟩

def frame (p : Position) (slot : UInt64) (after : Input FrameContext) : DecodedFrame :=
  ⟨slot,after.ctx.events,
    BucketDecoder.PayloadByteStats.add {} after.ctx (p.input.bytes.length - after.bytes.length)⟩

def behind (p : Position) (slot : UInt64) (after : Input FrameContext) : Position :=
  { p with
    pos := p.pos + (p.input.bytes.length - after.bytes.length)
    slotsRemaining := p.slotsRemaining - 1
    lastDecodedSlot := some slot
    decoders := after.ctx.decoders
    lastBlockhash := after.ctx.lastBlockhash }

def next (env : Env) (verify : Bool) (p : Position) :
    Except (Failure × DecodedFrame) (DecodedFrame × Position) :=
  if p.payload.length < p.pos then .error (.panics,⟨0,[],{}⟩)
  else
    match readFrame env p.materialize verify 0 p.input with
    | .error e after => .error (e,⟨frontSlot p.input,after.ctx.events,{}⟩)
    | .ok (slot,_) after =>
      if p.slotsRemaining = 0 then .error (.panics,p.frame slot after)
      else .ok (p.frame slot after,p.behind slot after)

end Position

/-- What `start` makes of a decoded frame for the visitor. -/
def DecodedFrame.told (startSlot : UInt64) (frame : DecodedFrame) : List Event :=
  if startSlot ≤ frame.slot then frame.events else []

variable {env : Env} {frame : DecodedFrame} {p : Position}

theorem Position.next_ok {verify : Bool} {q : Position} (h : p.next env verify = .ok (frame,q)) :
    ¬p.payload.length < p.pos ∧ p.slotsRemaining ≠ 0 ∧ ∃ slot emit after,
      readFrame env p.materialize verify 0 p.input = .ok (slot,emit) after ∧
      frame = p.frame slot after ∧ q = p.behind slot after := by
  unfold next at h
  split at h
  · cases h
  · rename_i hpos
    split at h
    · cases h
    · rename_i slot emit after hrun
      split at h
      · cases h
      · rename_i hremaining
        cases h
        exact ⟨hpos,hremaining,slot,emit,after,hrun,rfl,rfl⟩

theorem Position.next_of_ok {verify emit : Bool} {slot : UInt64} {after : Input FrameContext}
    (hpos : ¬p.payload.length < p.pos) (hremaining : p.slotsRemaining ≠ 0)
    (hrun : readFrame env p.materialize verify 0 p.input = .ok (slot,emit) after) :
    p.next env verify = .ok (p.frame slot after,p.behind slot after) := by
  simp only [next,if_neg hpos,hrun,if_neg hremaining]

theorem decodeSlotFrame_next {d : BucketDecoder}
    (startSlot : UInt64) (events : List Event)
    (h : d.position.next env d.verifyChain = .ok (frame,p)) :
    ∃ d', BucketDecoder.decodeSlotFrame env startSlot (d,events) =
        .ok (decide (startSlot ≤ frame.slot)) (d',events ++ frame.told startSlot) ∧
      d'.position = p ∧ d'.verifyChain = d.verifyChain ∧
      d'.materializeAccountData = d.materializeAccountData ∧
      d'.byteStats = d.byteStats.plus frame.bytes := by
  obtain ⟨hpos,hremaining,slot,emit,after,hrun,rfl,rfl⟩ := Position.next_ok h
  have htold := readFrame_told env d.bucketMaterialize d.verifyChain startSlot events
    d.position.input.ctx d.position.input.bytes rfl
  have hrun' : readFrame env d.bucketMaterialize d.verifyChain 0
      ⟨d.position.input.ctx,d.position.input.bytes⟩ = .ok (slot,emit) after := hrun
  rw [hrun'] at htold
  simp only [Position.input,BucketDecoder.position] at hpos hremaining htold
  simp only [BucketDecoder.decodeSlotFrame,if_neg hpos,BucketDecoder.frameContext,htold,
    if_neg hremaining,FrameContext.toldAfter,decide_eq_true_eq,DecodedFrame.told]
  refine ⟨_,rfl,rfl,rfl,rfl,?_⟩
  simp only [BucketDecoder.PayloadByteStats.add,PayloadByteStats.plus,Nat.zero_add,Position.frame,
    Position.input,BucketDecoder.position]

theorem decodeSlotFrame_error {d : BucketDecoder} {e : Failure} (startSlot : UInt64)
    (events : List Event) (h : d.position.next env d.verifyChain = .error (e,frame)) :
    ∃ d', BucketDecoder.decodeSlotFrame env startSlot (d,events) =
        .error e (d',events ++ frame.told startSlot) ∧
      d'.byteStats = d.byteStats.plus frame.bytes := by
  have htold := readFrame_told env d.bucketMaterialize d.verifyChain startSlot events
    d.position.input.ctx d.position.input.bytes rfl
  unfold Position.next at h
  split at h
  · rename_i hpos
    cases h
    refine ⟨d,?_,rfl⟩
    have hpos' : d.payload.length < d.pos := hpos
    simp [BucketDecoder.decodeSlotFrame,if_pos hpos',DecodedFrame.told]
  · rename_i hpos
    have hpos' : ¬d.payload.length < d.pos := hpos
    split at h
    · rename_i e' after hrun
      cases h
      have hrun' : readFrame env d.bucketMaterialize d.verifyChain 0
          ⟨d.position.input.ctx,d.position.input.bytes⟩ = .error e after := hrun
      rw [hrun'] at htold
      have htold' : readFrame env d.bucketMaterialize d.verifyChain startSlot
        ⟨d.frameContext events,d.payload.drop d.pos⟩ = _ := htold
      simp only [BucketDecoder.decodeSlotFrame,if_neg hpos',htold',FrameContext.toldAfter,
        decide_eq_true_eq,DecodedFrame.told]
      exact ⟨_,rfl,rfl⟩
    · rename_i slot emit after hrun
      split at h
      · rename_i hremaining
        cases h
        have hrun' : readFrame env d.bucketMaterialize d.verifyChain 0
            ⟨d.position.input.ctx,d.position.input.bytes⟩ = .ok (slot,emit) after := hrun
        have hremaining' : d.slotsRemaining = 0 := hremaining
        rw [hrun'] at htold
        simp only [Position.input,BucketDecoder.position] at htold
        simp only [BucketDecoder.decodeSlotFrame,if_neg hpos',BucketDecoder.frameContext,htold,
          if_pos hremaining',FrameContext.toldAfter,decide_eq_true_eq,DecodedFrame.told]
        refine ⟨_,rfl,?_⟩
        simp only [BucketDecoder.PayloadByteStats.add,PayloadByteStats.plus,Nat.zero_add,
          Position.frame,Position.input,BucketDecoder.position]
      · cases h

structure Position.Advanced (p q : Position) (frame : DecodedFrame) : Prop where
  payload : q.payload = p.payload
  materialize : q.materialize = p.materialize
  last : q.lastDecodedSlot = some frame.slot
  remaining : p.slotsRemaining.toNat = q.slotsRemaining.toNat + 1

theorem Position.next_advanced {verify : Bool} {q : Position}
    (h : p.next env verify = .ok (frame,q)) : p.Advanced q frame := by
  obtain ⟨-,hremaining,slot,emit,after,-,rfl,rfl⟩ := next_ok h
  refine ⟨rfl,rfl,rfl,?_⟩
  have hpositive : p.slotsRemaining.toNat ≠ 0 := fun hzero =>
    hremaining (UInt32.toNat_inj.mp hzero)
  have hone : (1 : UInt32) ≤ p.slotsRemaining := by
    rw [UInt32.le_iff_toNat_le]
    exact Nat.pos_of_ne_zero hpositive
  simp only [behind]
  rw [UInt32.toNat_sub_of_le _ _ hone,UInt32.toNat_one]
  omega

def Position.mapped (materialize : Bool) (f0 : DecoderContext → DecoderContext) (p : Position) :
    Position :=
  { p with decoders := f0 p.decoders, materialize }

def DecodedFrame.mapped (g : UpdateMap) (frame : DecodedFrame) : DecodedFrame :=
  { frame with events := frame.events.map (mapEvent g) }

theorem FrameMap.next {kept : Failure → Prop} {materialize materialize' : Bool}
    {f0 : DecoderContext → DecoderContext} {g : UpdateMap} {verify verify' : Bool}
    {q : Position}
    (hm : FrameMap env kept materialize materialize' true true (FrameContext.mapped f0 g) f0 g)
    (hverify : verify' = verify ∨ verify' = false ∧ ∀ slot, ¬kept (.error (.pohMismatch slot)))
    (hp : p.materialize = materialize) (h : p.next env verify = .ok (frame,q)) :
    (p.mapped materialize' f0).next env verify' =
      .ok (frame.mapped g,q.mapped materialize' f0) := by
  have hframe : Shadows kept (FrameContext.mapped f0 g) id (readFrame env materialize verify 0)
      (readFrame env materialize' verify' 0) := by
    simp only [readFrame_eq]
    refine shadows_u64.bind fun slot => ?_
    have hall : decide ((0 : UInt64) ≤ slot) = true := decide_eq_true UInt64.zero_le
    have hafter := hm.frameAfter slot hverify
    simp only [hall,id] at hafter ⊢
    intro ctx bytes
    have hrun := hafter ctx bytes
    revert hrun
    cases hfirst : Archive.frameAfter env materialize verify true slot ⟨ctx,bytes⟩ with
    | error e next => exact id
    | ok result next =>
      obtain rfl := frameAfter_value hfirst
      exact id
  obtain ⟨hpos,hremaining,slot,emit,after,hrun,rfl,rfl⟩ := Position.next_ok h
  rw [hp] at hrun
  exact Position.next_of_ok (p := p.mapped materialize' f0) hpos hremaining (hframe.of_ok hrun)

theorem Position.next_unchecked {verify : Bool} {q : Position}
    (h : p.next env verify = .ok (frame,q)) :
    p.next env false = .ok (frame,q) := by
  have hmap := (frameMap_same env (fun _ => False) p.materialize true).next
    (.inr ⟨rfl,fun _ => id⟩) rfl h
  have hevents : frame.mapped (fun _ _ arena => arena) = frame := by
    have hid : mapEvent (fun _ _ arena => arena) = id := funext mapEvent_id
    simp [DecodedFrame.mapped,hid]
  have hq : q.mapped p.materialize id = q := by
    simp only [Position.mapped,id,← (Position.next_advanced h).materialize]
  rw [hevents,hq] at hmap
  exact hmap

/-- The position of a reader whose visitor does without the data of updates. -/
def Position.elided (p : Position) : Position := p.mapped false elideDecoders

def DecodedFrame.elided (frame : DecodedFrame) : DecodedFrame := frame.mapped elide

def elideEvents (events : List Event) : List Event := events.map (mapEvent elide)

theorem Position.next_elided {verify : Bool} {q : Position} (hp : p.materialize = true)
    (h : p.next env verify = .ok (frame,q)) :
    p.elided.next env verify = .ok (frame.elided,q.elided) :=
  (frameMap_elide env true).next (.inl rfl) hp h

inductive Decodes (env : Env) (verify : Bool) : Position → List DecodedFrame → Position → Prop where
  | nil (p : Position) : Decodes env verify p [] p
  | cons {p q r : Position} {frame : DecodedFrame} {frames : List DecodedFrame}
      (hnext : p.next env verify = .ok (frame,q)) (hrest : Decodes env verify q frames r) :
      Decodes env verify p (frame :: frames) r

namespace Decodes

variable {env : Env} {verify : Bool} {p q r : Position} {frames more : List DecodedFrame}

section

variable (h : Decodes env verify p frames q)
include h

theorem append (h' : Decodes env verify q more r) :
    Decodes env verify p (frames ++ more) r := by
  induction h with
  | nil p => exact h'
  | cons hnext _ ih => exact .cons hnext (ih h')

theorem remaining :
    p.slotsRemaining.toNat = frames.length + q.slotsRemaining.toNat := by
  induction h with
  | nil p => simp
  | cons hnext _ ih =>
    have := (Position.next_advanced hnext).remaining
    simp only [List.length_cons]
    omega

theorem unchecked : Decodes env false p frames q := by
  induction h with
  | nil p => exact .nil p
  | cons hnext _ ih => exact .cons (Position.next_unchecked hnext) ih

theorem weaken {verify' : Bool}
    (hle : verify' = true → verify = true) : Decodes env verify' p frames q := by
  cases verify' with
  | false => exact h.unchecked
  | true =>
    rw [hle rfl] at h
    exact h

theorem materialize : q.materialize = p.materialize := by
  induction h with
  | nil p => rfl
  | cons hnext _ ih => exact ih.trans (Position.next_advanced hnext).materialize

theorem last :
    q.lastDecodedSlot = (frames.getLast?.map DecodedFrame.slot).or p.lastDecodedSlot := by
  induction h with
  | nil p => rfl
  | @cons p q r frame frames hnext _ ih =>
    rw [ih,(Position.next_advanced hnext).last]
    cases frames with
    | nil => rfl
    | cons first rest =>
      rw [List.getLast?_cons_cons]
      obtain ⟨final,hfinal⟩ : ∃ final, (first :: rest).getLast? = some final :=
        ⟨_,List.getLast?_eq_some_getLast (List.cons_ne_nil first rest)⟩
      rw [hfinal]
      rfl

end

end Decodes

end Jetstreamer.Archive
