import Jetstreamer.Archive.FrameChain
import Jetstreamer.Archive.Readable
import Jetstreamer.Archive.ReadModel
set_option autoImplicit false

namespace Jetstreamer.Archive
open Lib Lencode Horizon

/-- The bytes ahead of a position are those written for the frames. -/
structure Position.Holds (env : Env) (frames : List SlotCalls) (p : Position) : Prop where
  position : p.pos ≤ p.payload.length
  counted : frames.length < 2 ^ 32
  remaining : p.slotsRemaining = UInt32.ofNat frames.length
  materialize : p.materialize = true
  written : ∃ enc enc', Linked env enc p.decoders ∧
    Put.each (encodeCalls env) frames enc = .ok (p.payload.drop p.pos,enc')

def Position.shown (data : Bool) (p : Position) : Position := if data then p else p.elided

/-- What a visitor is told of a slot, with or without the data of updates. -/
def SlotCalls.told (data : Bool) (f : SlotCalls) : List Event :=
  if data then f.events else elideEvents f.events

section Frames

variable {env : Env} {p : Position} {f : SlotCalls} {rest : List SlotCalls}

theorem Position.Holds.count (h : p.Holds env rest) : p.slotsRemaining.toNat = rest.length := by
  rw [h.remaining]
  exact UInt32.toNat_ofNat_of_lt' h.counted

theorem Position.Holds.next (h : p.Holds env (f :: rest)) (hread : Readable env f) :
    ∃ frame q, p.next env false = .ok (frame,q) ∧ frame.slot = f.slot ∧ frame.events = f.events ∧
      q.Holds env rest ∧ q.lastBlockhash = f.chained p.lastBlockhash := by
  obtain ⟨enc,enc',hlinked,hwritten⟩ := h.written
  obtain ⟨first,middle,others,hfirst,hothers,hbytes⟩ := Put.all_cons_ok.mp hwritten
  have hstart : InStep env [] p.lastBlockhash enc p.input.ctx := ⟨hlinked,rfl,rfl⟩
  obtain ⟨ctx,hframe,hstep⟩ := hread p.lastBlockhash enc _ first middle others hstart hfirst
  have hrun : readFrame env p.materialize false 0 p.input = .ok (f.slot,true) ⟨ctx,others⟩ := by
    rw [h.materialize,Position.input,hbytes]
    exact hframe
  have hlen : p.input.bytes.length - others.length = first.length := by
    rw [Position.input,hbytes,List.length_append,Nat.add_sub_cancel]
  have hpos := h.position
  have htotal : first.length + others.length = p.payload.length - p.pos := by
    rw [← List.length_append,← hbytes,List.length_drop]
  have hcount := h.counted
  rw [List.length_cons] at hcount
  have hremaining : p.slotsRemaining = UInt32.ofNat rest.length + 1 := by
    rw [h.remaining,List.length_cons,UInt32.ofNat_add]
    rfl
  have hne : p.slotsRemaining ≠ 0 := by
    rw [h.remaining,List.length_cons]
    exact UInt32.ofNat_ne_zero (by omega) hcount
  refine ⟨_,_,Position.next_of_ok (Nat.not_lt.mpr hpos) hne hrun,rfl,hstep.events,?_,hstep.hash⟩
  exact {
    position := by simp only [Position.behind]; omega
    counted := by omega
    remaining := by simp [Position.behind,hremaining]
    materialize := h.materialize
    written := ⟨middle,enc',hstep.linked,by
      simp only [Position.behind,hlen,← List.drop_drop,hbytes,List.drop_left]
      exact hothers⟩ }

theorem Position.Holds.next_shown (h : p.Holds env (f :: rest)) (hread : Readable env f)
    (data : Bool) : ∃ (frame : DecodedFrame) (q : Position),
      (p.shown data).next env false = .ok (frame,q.shown data) ∧
      frame.slot = f.slot ∧ frame.events = f.told data ∧ q.Holds env rest := by
  obtain ⟨frame,q,hnext,hslot,hevents,hholds,-⟩ := h.next hread
  cases data with
  | true => exact ⟨frame,q,hnext,hslot,hevents,hholds⟩
  | false =>
    exact ⟨frame.elided,q,Position.next_elided h.materialize hnext,hslot,
      congrArg elideEvents hevents,hholds⟩

theorem Position.Holds.refused (h : p.Holds env (f :: rest)) (hbad : Unreadable env f)
    (verify : Bool) : ∃ frame, p.next env verify = .error (Raises.encode .invalidData,frame) := by
  obtain ⟨enc,enc',hlinked,hwritten⟩ := h.written
  obtain ⟨first,middle,others,hfirst,-,hbytes⟩ := Put.all_cons_ok.mp hwritten
  have hstart : InStep env [] p.lastBlockhash enc p.input.ctx := ⟨hlinked,rfl,rfl⟩
  obtain ⟨next,hframe⟩ := hbad p.lastBlockhash verify enc _ first middle others hstart hfirst
  have hrun : readFrame env p.materialize verify 0 p.input =
      .error (Raises.encode .invalidData) next := by
    rw [h.materialize,Position.input,hbytes]
    exact hframe
  refine ⟨⟨frontSlot p.input,next.ctx.events,{}⟩,?_⟩
  simp [Position.next,if_neg (Nat.not_lt.mpr h.position),hrun]

end Frames

def SlotCalls.blockhash? : SlotCalls → Option Hash
  | .skipped _ => none
  | .block _ _ _ info _ => some info.blockhash

def blockhashBefore (slots : List SlotCalls) (slot : UInt64) : Option Hash :=
  ((slots.filter (·.slot < slot)).filterMap SlotCalls.blockhash?).getLast?

/-- The block names another parent than the nearest stored block before it, whose blockhash is not
all zeros. -/
def SlotCalls.breaks (slots : List SlotCalls) : SlotCalls → Bool
  | .skipped _ => false
  | .block slot _ _ info _ => (blockhashBefore slots slot).any fun earlier =>
      earlier ≠ Hash.default && info.parentBlockhash ≠ earlier

section Chain

variable {f : SlotCalls} {before after : List SlotCalls}

theorem chain_default (frames : List SlotCalls) :
    chain Hash.default frames =
      ((frames.filterMap SlotCalls.blockhash?).getLast?).getD Hash.default := by
  induction frames using List.reverseRecOn with
  | nil => rfl
  | append_singleton frames f ih =>
    cases f with
    | skipped slot => simpa [chain,SlotCalls.chained,SlotCalls.blockhash?] using ih
    | block slot epoch calls info entries => simp [chain,SlotCalls.chained,SlotCalls.blockhash?]

theorem filter_before
    (hincreasing : ((before ++ f :: after).map SlotCalls.slot).Pairwise (· < ·)) :
    (before ++ f :: after).filter (·.slot < f.slot) = before := by
  rw [List.pairwise_map,List.pairwise_append,List.pairwise_cons] at hincreasing
  obtain ⟨-,⟨hlater,-⟩,hcross⟩ := hincreasing
  have hlow : ∀ g ∈ before, decide (g.slot < f.slot) = true := fun g hg =>
    decide_eq_true (hcross g hg f List.mem_cons_self)
  have hhigh : ∀ g ∈ f :: after, ¬decide (g.slot < f.slot) = true := by
    intro g hg
    rw [decide_eq_true_eq,UInt64.not_lt]
    rcases List.mem_cons.mp hg with rfl | hg
    · exact UInt64.le_refl _
    · exact UInt64.le_of_lt (hlater g hg)
  rw [List.filter_append,List.filter_eq_self.mpr hlow,List.filter_eq_nil_iff.mpr hhigh,
    List.append_nil]

theorem follows_told (data : Bool)
    (hincreasing : ((before ++ f :: after).map SlotCalls.slot).Pairwise (· < ·)) :
    follows (chain Hash.default before) (f.told data) = !f.breaks (before ++ f :: after) := by
  rw [chain_default]
  cases f with
  | skipped slot => cases data <;> rfl
  | block slot epoch calls info entries =>
    have hsame : blockhashBefore (before ++ .block slot epoch calls info entries :: after) slot =
        (before.filterMap SlotCalls.blockhash?).getLast? :=
      congrArg (fun frames => (List.filterMap SlotCalls.blockhash? frames).getLast?)
        (filter_before hincreasing)
    have hlast : follows (((before.filterMap SlotCalls.blockhash?).getLast?).getD Hash.default)
        (SlotCalls.told data (.block slot epoch calls info entries)) =
          (((before.filterMap SlotCalls.blockhash?).getLast?).getD Hash.default = Hash.default ||
            info.parentBlockhash =
              ((before.filterMap SlotCalls.blockhash?).getLast?).getD Hash.default) := by
      cases data <;> simp [follows,SlotCalls.told,SlotCalls.events,elideEvents,mapEvent]
    rw [hlast,SlotCalls.breaks,hsame]
    cases (before.filterMap SlotCalls.blockhash?).getLast? with
    | none => simp
    | some earlier => by_cases hzero : earlier = Hash.default <;> simp [hzero]

end Chain

section Loading

variable {env : Env}

theorem unpackPayload_storedPayload (hz : env.zstd.Inverts) {config : ArchiveWriterConfig}
    {payload stored : Bytes} (header : BucketHeader)
    (hstored : storedPayload env config payload = .ok stored)
    (hcompression : header.compression = config.compression)
    (hlen : header.uncompressedLen = lenU64 payload) (hsmall : payload.length < 2 ^ 63) :
    unpackPayload env header stored = .ok payload := by
  unfold storedPayload at hstored
  unfold unpackPayload
  rw [hcompression]
  cases hc : config.compression with
  | none =>
    simp only [hc] at hstored
    cases hstored
    rfl
  | zstd =>
    simp only [hc] at hstored
    split at hstored
    · rename_i out hout
      cases hstored
      have hnat : (lenU64 payload).toNat = payload.length :=
        UInt64.toNat_ofNat_of_lt' (lt_trans hsmall (by decide))
      have hfits : ¬tooLarge payload.length := Nat.not_le.mpr hsmall
      simp only [hlen,if_neg hfits,hz _ _ _ hout,hnat,lt_irrefl,ne_eq,not_true_eq_false,if_false]
    · cases hstored

theorem loadBucketBytes_holds (hz : env.zstd.Inverts) {config : ArchiveWriterConfig} {b : Bucket}
    (hb : b.Holds env config) : ∃ d,
      BucketDecoder.loadBucketBytes env b.raw { materializeAccountData := true } = .ok () d ∧
      d.position.Holds env b.frames ∧ d.position.lastBlockhash = b.anchor := by
  obtain ⟨payload,enc,hsmall,hpayload,hraw⟩ := hb.written
  obtain ⟨stored,hstored,hraw⟩ := bind_ok hraw
  obtain ⟨headerBytes,hheader,hraw⟩ := bind_ok hraw
  have hraw' : b.raw = headerBytes ++ stored := (Except.ok.inj hraw).symm
  have hread := reads_toBytes (reads_bucketHeader _) hheader stored
  have hunpack := unpackPayload_storedPayload hz ⟨b.firstSlot,UInt32.ofNat b.frames.length,
    config.compression,lenU64 payload,lenU64 stored,env.xxh64 stored,b.anchor⟩ hstored rfl
      rfl hsmall
  refine ⟨_,loadBucketBytes_ok_iff.mpr ⟨_,_,_,hraw' ▸ hread,by simp,hunpack,rfl⟩,?_,rfl⟩
  exact ⟨Nat.zero_le _,hb.counted,rfl,rfl,_,enc,linked_start env,hpayload⟩

theorem readAt_append {bytes front tail : Bytes} (h : bytes.length < 2 ^ 63) :
    readAt (front ++ bytes ++ tail) front.length bytes.length = .ok bytes := by
  have hfits : ¬tooLarge bytes.length := Nat.not_le.mpr h
  simp [readAt,hfits]

/-- The source of a reader has these buckets where its index says. -/
structure ArchiveReader.Serves (env : Env) (config : ArchiveWriterConfig) (buckets : List Bucket)
    (r : ArchiveReader) : Prop where
  held : ∀ b ∈ buckets, b.Holds env config
  small : r.source.length < 2 ^ 63
  source : ∃ front tail, r.source = front ++ storedBytes buckets ++ tail ∧
    r.index = bucketIndex front.length buckets

namespace ArchiveReader.Serves

variable {config : ArchiveWriterConfig} {buckets done rest : List Bucket} {b : Bucket}
  {r : ArchiveReader}

theorem raw (h : r.Serves env config (done ++ b :: rest)) : ∃ entry,
    r.index[done.length]? = some entry ∧ entry.firstSlot = b.firstSlot ∧
      readAt r.source entry.offset.toNat entry.len.toNat = .ok b.raw := by
  obtain ⟨front,tail,hsource,hindex⟩ := h.source
  have hsplit : r.source = (front ++ storedBytes done) ++ b.raw ++ (storedBytes rest ++ tail) := by
    rw [hsource]
    simp [storedBytes]
  have hlen : r.source.length = (front ++ storedBytes done).length + b.raw.length +
      (storedBytes rest ++ tail).length := by
    rw [hsplit,List.length_append,List.length_append]
  have hsmall := h.small
  have hentry : r.index[done.length]? = some ⟨b.firstSlot,
      UInt64.ofNat (front ++ storedBytes done).length,lenU64 b.raw⟩ := by
    rw [hindex,bucketIndex_append_cons]
    simp [bucketIndex_length]
  refine ⟨_,hentry,rfl,?_⟩
  rw [UInt64.toNat_ofNat_of_lt' (by simp only [UInt64.size]; omega),lenU64,
    UInt64.toNat_ofNat_of_lt' (by simp only [UInt64.size]; omega),hsplit]
  exact readAt_append (by omega)

theorem length_index (h : r.Serves env config buckets) : r.index.length = buckets.length := by
  obtain ⟨front,tail,-,hindex⟩ := h.source
  rw [hindex,bucketIndex_length]

theorem load (hz : env.zstd.Inverts) (h : r.Serves env config buckets) {idx : Nat}
    (hidx : idx < buckets.length) :
    (∃ entry, r.index[idx]? = some entry ∧ entry.firstSlot = buckets[idx].firstSlot) ∧
      ∃ p : Position, (∀ data, r.framing.load env data idx = .ok (p.shown data)) ∧
        p.Holds env buckets[idx].frames ∧ p.lastBlockhash = buckets[idx].anchor := by
  have hsplit : buckets = buckets.take idx ++ buckets[idx] :: buckets.drop (idx + 1) := by
    rw [List.cons_getElem_drop_succ,List.take_append_drop]
  have hdone : (buckets.take idx).length = idx := List.length_take_of_le (Nat.le_of_lt hidx)
  rw [hsplit] at h
  obtain ⟨entry,hentry,hfirst,hraw⟩ := h.raw
  rw [hdone] at hentry
  obtain ⟨d,hload,hholds,hanchor⟩ := loadBucketBytes_holds hz (h.held buckets[idx] (by simp))
  have hentry' : r.framing.index[idx]? = some entry := hentry
  have hraw' : readAt r.framing.source entry.offset.toNat entry.len.toNat =
      .ok buckets[idx].raw := hraw
  have hfull : r.framing.load env true idx = .ok d.position := by
    simp [Framing.load,hentry',hraw',hload]
  refine ⟨⟨entry,hentry,hfirst⟩,d.position,fun data => ?_,hholds,hanchor⟩
  cases data with
  | true => exact hfull
  | false => exact Framing.load_elided hfull

end ArchiveReader.Serves

end Loading

/-- The frames a call decodes: it stops once `left` of them do not lie before the start. -/
def scanned (startSlot : UInt64) : Nat → List SlotCalls → List SlotCalls
  | 0, _ => []
  | _+1, [] => []
  | left+1, f :: rest =>
    f :: scanned startSlot (if startSlot ≤ f.slot then left else left + 1) rest

@[simp] theorem scanned_zero (startSlot : UInt64) (frames : List SlotCalls) :
    scanned startSlot 0 frames = [] := by
  cases frames <;> rfl

@[simp] theorem scanned_nil (startSlot : UInt64) (left : Nat) : scanned startSlot left [] = [] := by
  cases left <;> rfl

def window (startSlot : UInt64) (maxSlots : Nat) (frames : List SlotCalls) : List SlotCalls :=
  (frames.filter fun f => startSlot ≤ f.slot).take maxSlots

theorem filter_scanned (startSlot : UInt64) (left : Nat) (frames : List SlotCalls) :
    (scanned startSlot left frames).filter (fun f => startSlot ≤ f.slot) =
      window startSlot left frames := by
  induction frames generalizing left with
  | nil => simp [window]
  | cons f rest ih =>
    cases left with
    | zero => simp [window]
    | succ left =>
      have hrest := ih (if startSlot ≤ f.slot then left else left + 1)
      by_cases hslot : startSlot ≤ f.slot
      · simp only [hslot,if_true] at hrest
        simp [scanned,window,hslot,hrest]
      · simp only [hslot,if_false] at hrest
        simp [scanned,window,hslot,hrest]

section Steps

variable {env : Env} {file : Framing} {call : ReadCall} {s : Progress} {n : Nat}

theorem runOn_full (h : call.maxSlots ≤ s.visited) : runOn env file call n s = .ok s := by
  have hnot := Nat.not_lt.mpr h
  have hframes : runFrames env call n s = .ok s := by
    cases n with
    | zero => rfl
    | succ n => rw [runFrames,if_neg hnot]
  rw [runOn,hframes,ok_bind]
  cases List.range' (s.bucket + 1) (file.index.length - (s.bucket + 1)) with
  | nil => rfl
  | cons idx rest => rw [runBuckets,if_neg hnot]

theorem runOn_end (h : file.index.length ≤ s.bucket + 1) : runOn env file call 0 s = .ok s := by
  rw [runOn,Nat.sub_eq_zero_of_le h]
  rfl

variable (call s) (hmore : s.visited < call.maxSlots)
include hmore

theorem runOn_next {frame : DecodedFrame} {q : Position}
    (hnext : s.position.next env call.verifyChain = .ok (frame,q)) :
    runOn env file call (n + 1) s = runOn env file call n (s.tell call.startSlot frame q) := by
  simp only [runOn,runFrames,if_pos hmore,hnext]
  rfl

theorem runOn_refused {refused : Failure × DecodedFrame}
    (hnext : s.position.next env call.verifyChain = .error refused) :
    runOn env file call (n + 1) s = .error (s.halted call.startSlot refused) := by
  simp only [runOn,runFrames,if_pos hmore,hnext]
  rfl

theorem runOn_load {p : Position} (hidx : s.bucket + 1 < file.index.length)
    (hload : file.load env call.accountUpdateData (s.bucket + 1) = .ok p)
    (hcount : 0 < p.slotsRemaining.toNat) :
    runOn env file call 0 s = runOn env file call p.slotsRemaining.toNat
      { s with bucket := s.bucket + 1, position := p } := by
  obtain ⟨left,hleft⟩ : ∃ left, file.index.length - (s.bucket + 1) = left + 1 :=
    ⟨file.index.length - (s.bucket + 1) - 1,by omega⟩
  have hrest : file.index.length - (s.bucket + 1 + 1) = left := by omega
  simp only [runOn,runFrames,ok_bind,hleft,List.range'_succ,runBuckets,if_pos hmore,hload,
    Except.mapError,Nat.max_eq_left hcount,hrest]

end Steps

/-- The position of a call, its visitor wanting the data of updates or not. -/
def Progress.shown (data : Bool) (s : Progress) : Progress :=
  { s with
    events := if data then s.events else elideEvents s.events
    position := s.position.shown data }

def ReadCall.wanting (data : Bool) (call : ReadCall) : ReadCall :=
  { call with accountUpdateData := data }

/-- A reader of what a writer has finished, freshly opened. -/
structure Opened (env : Env) (config : ArchiveWriterConfig) (buckets : List Bucket)
    (r : ArchiveReader) : Prop where
  served : r.Serves env config buckets
  bucketSlots : r.header.bucketSlots ≠ 0
  fresh : r.currentBucket = none
  anchored : Anchored Hash.default buckets
  increasing : ((storedFrames buckets).map SlotCalls.slot).Pairwise (· < ·)
  spaced : Spaced r.header.slotStart r.header.bucketSlots buckets
  ended : ∀ f ∈ storedFrames buckets, f.slot.toNat + 1 < 2 ^ 64

/-- A call in the middle of its bucket: `now` is what is left of it. -/
structure Ahead (env : Env) (buckets : List Bucket) (s : Progress) (now : List SlotCalls) :
    Prop where
  holds : s.position.Holds env now
  stored : ∃ before,
    storedFrames buckets = before ++ (now ++ storedFrames (buckets.drop (s.bucket + 1))) ∧
    s.position.lastBlockhash = chain Hash.default before

section Buckets

theorem storedFrames_drop {buckets : List Bucket} {idx : Nat} (hidx : idx < buckets.length) :
    storedFrames (buckets.drop idx) =
      buckets[idx].frames ++ storedFrames (buckets.drop (idx + 1)) := by
  rw [List.drop_eq_getElem_cons hidx]
  rfl

theorem storedFrames_take_drop (buckets : List Bucket) (idx : Nat) :
    storedFrames buckets = storedFrames (buckets.take idx) ++ storedFrames (buckets.drop idx) := by
  rw [storedFrames,storedFrames,storedFrames,← List.flatMap_append,List.take_append_drop]

theorem Anchored.anchor {hash : Hash} {buckets : List Bucket} (h : Anchored hash buckets)
    {idx : Nat}
    (hidx : idx < buckets.length) :
    buckets[idx].anchor = chain hash (storedFrames (buckets.take idx)) := by
  induction buckets generalizing hash idx with
  | nil => cases hidx
  | cons b rest ih =>
    cases idx with
    | zero => exact h.1
    | succ idx =>
      have hrest := ih h.2 (Nat.lt_of_succ_lt_succ hidx)
      rw [← chain_append] at hrest
      exact hrest

variable {env : Env} {config : ArchiveWriterConfig} {buckets : List Bucket} {r : ArchiveReader}

/-- Every bucket can be loaded and gives the start of a run over its frames. -/
theorem Opened.load (hz : env.zstd.Inverts) (h : Opened env config buckets r) {idx : Nat}
    (hidx : idx < buckets.length) :
    ∃ p : Position, (∀ data, r.framing.load env data idx = .ok (p.shown data)) ∧
      p.slotsRemaining.toNat = buckets[idx].frames.length ∧ 0 < buckets[idx].frames.length ∧
      ∀ visited events bytes, Ahead env buckets ⟨visited,events,bytes,idx,p⟩
        buckets[idx].frames := by
  obtain ⟨-,p,hload,hholds,hanchor⟩ := h.served.load hz hidx
  refine ⟨p,hload,hholds.count,
    List.length_pos_iff.mpr (h.served.held _ (List.getElem_mem hidx)).nonempty,fun _ _ _ => ?_⟩
  refine ⟨hholds,storedFrames (buckets.take idx),?_,hanchor.trans (h.anchored.anchor hidx)⟩
  rw [← storedFrames_drop hidx]
  exact storedFrames_take_drop buckets idx

variable {call : ReadCall} {s : Progress} {now : List SlotCalls}

theorem shown_count (data : Bool) (p : Position) :
    (p.shown data).slotsRemaining = p.slotsRemaining := by
  cases data <;> rfl

/-- Where frames are left, a call stands in front of the first of them, in this bucket or the next
one. -/
theorem Ahead.ready (hz : env.zstd.Inverts) (h : Opened env config buckets r)
    (hahead : Ahead env buckets s now) (hmore : s.visited < call.maxSlots) {f : SlotCalls}
    {rest : List SlotCalls} (hframes : now ++ storedFrames (buckets.drop (s.bucket + 1)) = f ::
      rest) :
    ∃ s' left, Ahead env buckets s' (f :: left) ∧
      left ++ storedFrames (buckets.drop (s'.bucket + 1)) = rest ∧
      s'.visited = s.visited ∧ s'.events = s.events ∧ s'.bytes = s.bytes ∧
      ∀ data, runOn env r.framing (call.wanting data) now.length (s.shown data) =
        runOn env r.framing (call.wanting data) (left.length + 1) (s'.shown data) := by
  cases now with
  | cons g left =>
    obtain ⟨rfl,hrest⟩ := List.cons.inj hframes
    exact ⟨s,left,hahead,hrest,rfl,rfl,rfl,fun _ => rfl⟩
  | nil =>
    have hidx : s.bucket + 1 < buckets.length := by
      by_contra hnot
      rw [List.drop_of_length_le (Nat.le_of_not_lt hnot)] at hframes
      cases hframes
    obtain ⟨p,hload,hcount,hpos,hnext⟩ := h.load hz hidx
    have hstep := hnext s.visited s.events s.bytes
    rw [storedFrames_drop hidx] at hframes
    cases hfirst : buckets[s.bucket + 1].frames with
    | nil =>
      rw [hfirst] at hpos
      cases hpos
    | cons g left =>
      rw [hfirst] at hstep hframes hcount
      obtain ⟨rfl,hrest⟩ := List.cons.inj hframes
      refine ⟨_,left,hstep,hrest,rfl,rfl,rfl,fun data => ?_⟩
      have hindex : s.bucket + 1 < r.framing.index.length := by
        have hlength : r.framing.index.length = buckets.length := h.served.length_index
        omega
      have hrun := runOn_load (call.wanting data) (s.shown data) hmore hindex (hload data)
          (by rw [shown_count,hcount]; exact Nat.succ_pos _)
      rw [shown_count,hcount] at hrun
      exact hrun

theorem tell_shown (data : Bool) (startSlot : UInt64) (s : Progress) (frame : DecodedFrame)
    (q : Position) : (s.tell startSlot frame q).shown data =
      (s.shown data).tell startSlot (if data then frame else frame.elided) (q.shown data) := by
  by_cases hslot : startSlot ≤ frame.slot <;> cases data <;>
    simp [Progress.tell,Progress.shown,DecodedFrame.told,DecodedFrame.elided,DecodedFrame.mapped,
      elideEvents,hslot]

/-- What becomes of the next frame when the visitor wants its data and when not, with the chain
checked or not. -/
theorem Ahead.next (h : Opened env config buckets r) {f : SlotCalls} {left : List SlotCalls}
    (hahead : Ahead env buckets s (f :: left)) (hread : Readable env f) (startSlot : UInt64) :
    ∃ frame q, Ahead env buckets (s.tell startSlot frame q) left ∧ frame.slot = f.slot ∧
      frame.events = f.events ∧ ∀ data verify, (s.shown data).position.next env verify =
        if verify && f.breaks (storedFrames buckets) then
          .error (.error (.pohMismatch f.slot),⟨f.slot,(f.told data).dropLast,{}⟩)
        else .ok (if data then frame else frame.elided,q.shown data) := by
  obtain ⟨before,hstored,hhash⟩ := hahead.stored
  obtain ⟨frame,q,hnext,hslot,hevents,hholds,hchained⟩ := hahead.holds.next hread
  refine ⟨frame,q,⟨hholds,before ++ [f],?_,?_⟩,hslot,hevents,fun data verify => ?_⟩
  · rw [hstored]
    simp [Progress.tell]
  · rw [chain_append,← hhash]
    exact hchained
  · have hnext' : (s.position.shown data).next env false =
        .ok (if data then frame else frame.elided,q.shown data) := by
      cases data with
      | true => exact hnext
      | false => exact Position.next_elided hahead.holds.materialize hnext
    have htold : (if data = true then frame else frame.elided).events = f.told data ∧
        (if data = true then frame else frame.elided).slot = f.slot := by
      cases data with
      | true => exact ⟨hevents,hslot⟩
      | false => exact ⟨congrArg elideEvents hevents,hslot⟩
    have hsame : (s.position.shown data).lastBlockhash = s.position.lastBlockhash := by
      cases data <;> rfl
    cases verify with
    | false => exact hnext'
    | true =>
      have hincreasing := h.increasing
      have hfollows : follows (chain Hash.default before) (f.told data) =
          !f.breaks (storedFrames buckets) := by
        rw [hstored] at hincreasing ⊢
        exact follows_told data hincreasing
      have hchecked := Position.next_checked hnext'
      rw [hsame,hhash,htold.1,htold.2,hfollows] at hchecked
      refine hchecked.trans ?_
      cases f.breaks (storedFrames buckets) <;> rfl

theorem scanned_cons {startSlot : UInt64} {left : Nat} {frames more : List SlotCalls}
    {f : SlotCalls}
    (h : scanned startSlot left frames = f :: more) : ∃ fewer rest, left = fewer + 1 ∧
      frames = f :: rest ∧
      scanned startSlot (if startSlot ≤ f.slot then fewer else fewer + 1) rest = more := by
  cases left with
  | zero =>
    rw [scanned_zero] at h
    cases h
  | succ fewer =>
    cases frames with
    | nil => cases h
    | cons g rest =>
      obtain ⟨rfl,hmore⟩ := List.cons.inj h
      exact ⟨fewer,rest,rfl,rfl,hmore⟩

/-- A call gets through the frames that can be read and, if it checks the chain, do not break it. -/
theorem Ahead.run (hz : env.zstd.Inverts) (h : Opened env config buckets r)
    {good tail : List SlotCalls} (hahead : Ahead env buckets s now)
    (hscan : scanned call.startSlot (call.maxSlots - s.visited)
      (now ++ storedFrames (buckets.drop (s.bucket + 1))) = good ++ tail)
    (hread : ∀ f ∈ good, Readable env f)
    (hchain : ∀ f ∈ good, (call.verifyChain && f.breaks (storedFrames buckets)) = false) :
    ∃ s' now', Ahead env buckets s' now' ∧
      (∀ data, runOn env r.framing (call.wanting data) now.length (s.shown data) =
        runOn env r.framing (call.wanting data) now'.length (s'.shown data)) ∧
      s'.visited = s.visited + (good.filter fun f => call.startSlot ≤ f.slot).length ∧
      s'.events = s.events ++
        (good.filter fun f => call.startSlot ≤ f.slot).flatMap SlotCalls.events ∧
      scanned call.startSlot (call.maxSlots - s'.visited)
        (now' ++ storedFrames (buckets.drop (s'.bucket + 1))) = tail := by
  induction good generalizing s now with
  | nil => exact ⟨s,now,hahead,fun _ => rfl,by simp,by simp,hscan⟩
  | cons f good ih =>
    obtain ⟨fewer,rest,hleft,hframes,hrest⟩ := scanned_cons hscan
    have hmore : s.visited < call.maxSlots := by omega
    obtain ⟨s1,left,hahead1,hleft1,hvisited1,hevents1,-,hrun1⟩ := hahead.ready hz h hmore hframes
    obtain ⟨frame,q,hahead2,hslot,hevents,hnext⟩ :=
      hahead1.next h (hread f List.mem_cons_self) call.startSlot
    have hfewer : call.maxSlots - (s1.tell call.startSlot frame q).visited =
        if call.startSlot ≤ f.slot then fewer else fewer + 1 := by
      simp only [Progress.tell,hslot]
      split <;> omega
    obtain ⟨s',now',hahead',hrun,hvisited,htold,hscan'⟩ :=
      ih hahead2 (by rw [hfewer]; exact hleft1 ▸ hrest)
      (fun g hg => hread g (List.mem_cons_of_mem _ hg))
      (fun g hg => hchain g (List.mem_cons_of_mem _ hg))
    refine ⟨s',now',hahead',fun data => ?_,?_,?_,hscan'⟩
    · have hstep := hnext data call.verifyChain
      rw [if_neg (by rw [hchain f List.mem_cons_self]; exact Bool.false_ne_true)] at hstep
      rw [hrun1 data,runOn_next (call.wanting data) (s1.shown data)
        (hvisited1 ▸ hmore : s1.visited < call.maxSlots) hstep]
      rw [← hrun data,tell_shown]
      rfl
    · rw [hvisited,List.filter_cons]
      simp only [Progress.tell,hslot,hvisited1,decide_eq_true_eq]
      split
      · rw [List.length_cons]
        omega
      · rfl
    · rw [htold,List.filter_cons]
      simp only [Progress.tell,DecodedFrame.told,hslot,hevents,hevents1,decide_eq_true_eq]
      split
      · rw [List.flatMap_cons,List.append_assoc]
      · rw [List.append_nil]

theorem Ahead.done (h : Opened env config buckets r) (hahead : Ahead env buckets s now)
    (hscan : scanned call.startSlot (call.maxSlots - s.visited)
      (now ++ storedFrames (buckets.drop (s.bucket + 1))) = []) (data : Bool) :
    runOn env r.framing (call.wanting data) now.length (s.shown data) = .ok (s.shown data) := by
  by_cases hmore : s.visited < call.maxSlots
  · obtain ⟨fewer,hfewer⟩ : ∃ fewer, call.maxSlots - s.visited = fewer + 1 :=
      ⟨call.maxSlots - s.visited - 1,by omega⟩
    cases hframes : now ++ storedFrames (buckets.drop (s.bucket + 1)) with
    | cons f rest =>
      rw [hframes,hfewer] at hscan
      cases hscan
    | nil =>
      obtain ⟨rfl,hnone⟩ := List.append_eq_nil_iff.mp hframes
      have hidx : buckets.length ≤ s.bucket + 1 := by
        by_contra hlt
        rw [Nat.not_le] at hlt
        rw [storedFrames_drop hlt,List.append_eq_nil_iff] at hnone
        exact (h.served.held _ (List.getElem_mem hlt)).nonempty hnone.1
      refine runOn_end ?_
      rw [← h.served.length_index] at hidx
      exact hidx
  · exact runOn_full (Nat.le_of_not_lt hmore)

variable {f : SlotCalls} {more : List SlotCalls}

theorem Ahead.breaks (hz : env.zstd.Inverts) (h : Opened env config buckets r)
    (hahead : Ahead env buckets s now)
    (hscan : scanned call.startSlot (call.maxSlots - s.visited)
      (now ++ storedFrames (buckets.drop (s.bucket + 1))) = f :: more)
    (hread : Readable env f)
    (hbreaks : (call.verifyChain && f.breaks (storedFrames buckets)) = true) (data : Bool) :
    runOn env r.framing (call.wanting data) now.length (s.shown data) =
      .error ⟨.error (.pohMismatch f.slot),(s.shown data).events ++
        (if call.startSlot ≤ f.slot then (f.told data).dropLast else []),s.bytes⟩ := by
  obtain ⟨fewer,rest,hleft,hframes,-⟩ := scanned_cons hscan
  have hmore : s.visited < call.maxSlots := by omega
  obtain ⟨s1,left,hahead1,-,hvisited1,hevents1,hbytes1,hrun1⟩ := hahead.ready hz h hmore hframes
  obtain ⟨frame,q,-,-,-,hnext⟩ := hahead1.next h hread call.startSlot
  have hstep := hnext data call.verifyChain
  rw [if_pos hbreaks] at hstep
  rw [hrun1 data,runOn_refused (call.wanting data) (s1.shown data)
    (hvisited1 ▸ hmore : s1.visited < call.maxSlots) hstep]
  simp only [Progress.shown,hevents1,hbytes1]
  rfl

theorem Ahead.refused (hz : env.zstd.Inverts) (h : Opened env config buckets r)
    (hahead : Ahead env buckets s now)
    (hscan : scanned call.startSlot (call.maxSlots - s.visited)
      (now ++ storedFrames (buckets.drop (s.bucket + 1))) = f :: more) (hbad : Unreadable env f) :
    ∃ halt, runOn env r.framing (call.wanting true) now.length (s.shown true) = .error halt ∧
      halt.failure = Raises.encode .invalidData := by
  obtain ⟨fewer,rest,hleft,hframes,-⟩ := scanned_cons hscan
  have hmore : s.visited < call.maxSlots := by omega
  obtain ⟨s1,left,hahead1,-,hvisited1,-,-,hrun1⟩ := hahead.ready hz h hmore hframes
  obtain ⟨frame,hnext⟩ := hahead1.holds.refused hbad call.verifyChain
  have hstep : (s1.shown true).position.next env call.verifyChain =
    .error (Raises.encode .invalidData,frame) := hnext
  exact ⟨_,(hrun1 true).trans (runOn_refused (call.wanting true) (s1.shown true)
    (hvisited1 ▸ hmore : s1.visited < call.maxSlots) hstep),rfl⟩

end Buckets

end Jetstreamer.Archive
