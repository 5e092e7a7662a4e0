import Jetstreamer.Archive.StoredWindows
import Jetstreamer.Firehose.HorizonStream
set_option autoImplicit false

namespace Jetstreamer.Firehose
open Lib Lencode Horizon Archive

/-- A worker stops behind the first frame it decodes that has no slot of the range behind it. -/
def reaches (stop : UInt64) (f : SlotCalls) : Bool := stop ≤ f.slot + 1

def bounded (start stop : UInt64) (data : Bool) (f : SlotCalls) : List Event :=
  if start ≤ f.slot then (f.told data).filter (passes stop) else []

section Through

variable {α : Type} {p : α → Bool} {xs ys : List α}

theorem through_of_none (h : ∀ x ∈ xs, p x = false) :
    through p (xs ++ ys) = xs ++ through p ys := by
  induction xs with
  | nil => rfl
  | cons x rest ih =>
    rw [List.cons_append,through,h x List.mem_cons_self,
      ih fun y hy => h y (List.mem_cons_of_mem _ hy)]
    rfl

theorem through_of_some (h : xs.any p = true) : through p (xs ++ ys) = through p xs := by
  induction xs with
  | nil => cases h
  | cons x rest ih =>
    rw [List.cons_append,through,through]
    cases hfirst : p x with
    | true => rfl
    | false =>
      rw [List.any_cons,hfirst] at h
      rw [ih h]

end Through

section Worker

variable {env : Env} (start stop : UInt64) {data : Bool}

theorem decodeBounded_next {d : BucketDecoder} {frame : DecodedFrame} {p : Position}
    (log : List Event) (h : d.position.next env d.verifyChain = .ok (frame,p)) :
    ∃ d', decodeBounded env start stop (d,log) =
        .ok () (d',log ++ (frame.told start).filter (passes stop)) ∧
      d'.position = p ∧ d'.verifyChain = d.verifyChain ∧
      d'.materializeAccountData = d.materializeAccountData := by
  obtain ⟨d',hrun,hposition,hverify,hmode,-⟩ := decodeSlotFrame_next start [] h
  refine ⟨d',?_,hposition,hverify,hmode⟩
  simp [decodeBounded,hrun]

theorem decodeFrames_holds {frames : List SlotCalls} {p : Position} (h : p.Holds env frames)
    (hread : ∀ f ∈ through (reaches stop) frames, Readable env f)
    (hslots : ∀ f ∈ frames, f.slot.toNat + 1 < 2 ^ 64) {d : BucketDecoder}
    (hposition : d.position = p.shown data) (hverify : d.verifyChain = false) (log : List Event) :
    ∃ d', decodeFrames env start stop frames.length (d,log) = .ok (frames.any (reaches stop))
        (d',log ++ (through (reaches stop) frames).flatMap (bounded start stop data)) ∧
      d'.verifyChain = false ∧ d'.materializeAccountData = d.materializeAccountData := by
  induction frames generalizing p d log with
  | nil => exact ⟨d,by simp [decodeFrames,through,pure,EStateM.pure],hverify,rfl⟩
  | cons f rest ih =>
    have hfirst : Readable env f := hread f (by rw [through]; split <;> simp)
    obtain ⟨frame,q,hnext,hslot,hevents,hholds⟩ := h.next_shown hfirst data
    have hnext' : d.position.next env d.verifyChain = .ok (frame,q.shown data) := by
      rw [hposition,hverify]
      exact hnext
    obtain ⟨d1,hrun,hposition1,hverify1,hmode1⟩ := decodeBounded_next start stop log hnext'
    have hlast : d1.lastDecodedSlot = some f.slot := by
      rw [← hslot]
      exact (congrArg Position.lastDecodedSlot hposition1).trans (Position.next_advanced hnext).last
    have htold : (frame.told start).filter (passes stop) = bounded start stop data f := by
      rw [DecodedFrame.told,bounded,hslot,hevents]
      split <;> rfl
    have hsmall : ¬f.slot.toNat + 1 = 2 ^ 64 := by
      have := hslots f List.mem_cons_self
      omega
    rw [htold] at hrun
    rw [List.length_cons,decodeFrames]
    simp only [bind,EStateM.bind,hrun,get,getThe,MonadStateOf.get,EStateM.get,hlast,if_neg hsmall]
    by_cases hreach : stop ≤ f.slot + 1
    · have hreaches : reaches stop f = true := decide_eq_true hreach
      refine ⟨d1,?_,hverify1.trans hverify,hmode1⟩
      simp only [if_pos hreach,List.any_cons,hreaches,through,if_true,List.flatMap_cons,
        List.flatMap_nil,List.append_nil]
      rfl
    · have hreaches : reaches stop f = false := decide_eq_false hreach
      have hread' : ∀ g ∈ through (reaches stop) rest, Readable env g := fun g hg => by
        refine hread g ?_
        rw [through,hreaches]
        exact List.mem_cons_of_mem _ hg
      obtain ⟨d2,hrest,hverify2,hmode2⟩ := ih hholds hread'
        (fun g hg => hslots g (List.mem_cons_of_mem _ hg)) hposition1 (hverify1.trans hverify)
        (log ++ bounded start stop data f)
      refine ⟨d2,?_,hverify2,hmode2.trans hmode1⟩
      simp only [if_neg hreach,hrest,List.any_cons,hreaches,Bool.false_or,through,
        Bool.false_eq_true,if_false,List.flatMap_cons,List.append_assoc]

theorem fetchBucket_readAt {src : JetSource} {entry : BucketIndexEntry} {raw : Bytes}
    (hsmall : src.bytes.length < 2 ^ 63)
    (h : readAt src.bytes entry.offset.toNat entry.len.toNat = .ok raw) :
    fetchBucket src entry = .ok raw := by
  cases src with
  | stream bytes =>
    have h' : readAt bytes entry.offset.toNat entry.len.toNat = .ok raw := h
    simp [fetchBucket,h']
  | memory bytes =>
    have hsmall' : bytes.length < 2 ^ 63 := hsmall
    have h' : readAt bytes entry.offset.toNat entry.len.toNat = .ok raw := h
    unfold readAt at h'
    split at h'
    · cases h'
    · split at h'
      · cases h'
        rw [fetchBucket,if_neg (by omega),if_neg (by omega)]
      · cases h'

def framesAt (buckets : List Archive.Bucket) (idx : Nat) : List SlotCalls :=
  (buckets[idx]?.map Archive.Bucket.frames).getD []

theorem decodeBuckets_run (hz : env.zstd.Inverts) {config : ArchiveWriterConfig}
    {buckets : List Archive.Bucket} {r : ArchiveReader} (h : Opened env config buckets r)
    {src : JetSource}
    (hsource : src.bytes = r.source) {chunk : List Nat}
    (hbounds : ∀ idx ∈ chunk, idx < buckets.length)
    (hread : ∀ f ∈ through (reaches stop) (chunk.flatMap (framesAt buckets)), Readable env f)
    {d : BucketDecoder} (hverify : d.verifyChain = false)
    (hmode : d.materializeAccountData = data) (log : List Event) :
    decodeBuckets env start stop src r.index chunk (d,log) =
      .ok (log ++ (through (reaches stop) (chunk.flatMap (framesAt buckets))).flatMap
        (bounded start stop data)) := by
  induction chunk generalizing d log with
  | nil => simp [decodeBuckets,through]
  | cons idx rest ih =>
    have hidx := hbounds idx List.mem_cons_self
    have hframes : framesAt buckets idx = buckets[idx].frames := by
      simp [framesAt,List.getElem?_eq_getElem hidx]
    obtain ⟨-,p,hload,hholds,-⟩ := h.served.load hz hidx
    obtain ⟨entry,raw,d0,hentry,hraw,hload0,hposition0⟩ := Framing.load_parts (hload data)
    have hentry' : r.index[idx]? = some entry := hentry
    have hfetch : fetchBucket src entry = .ok raw :=
      fetchBucket_readAt (by rw [hsource]; exact h.served.small) (by rw [hsource]; exact hraw)
    have hagain := loadBucketBytes_position env raw d
    rw [hmode,hload0] at hagain
    obtain ⟨d1,hload1,hposition1,hverify1,hmode1,-⟩ := hagain
    have hremaining : d1.slotsRemaining.toNat = buckets[idx].frames.length := by
      have hsame : d1.slotsRemaining = (p.shown data).slotsRemaining :=
        congrArg Position.slotsRemaining (hposition1.trans hposition0)
      rw [hsame,shown_count,hholds.count]
    have hmem : ∀ f ∈ buckets[idx].frames, f ∈ storedFrames buckets := fun f hf =>
      List.mem_flatMap.mpr ⟨_,List.getElem_mem hidx,hf⟩
    rw [List.flatMap_cons,hframes] at hread ⊢
    have hfirst : ∀ f ∈ through (reaches stop) buckets[idx].frames, Readable env f := by
      intro f hf
      refine hread f ?_
      cases hreach : buckets[idx].frames.any (reaches stop) with
      | true => rwa [through_of_some hreach]
      | false =>
        rw [through_of_none fun g hg => Bool.eq_false_iff.mpr (List.any_eq_false.mp hreach g hg)]
        exact List.mem_append_left _ (mem_through hf)
    obtain ⟨d2,hrun,hverify2,hmode2⟩ := decodeFrames_holds start stop hholds hfirst
      (fun f hf => h.ended f (hmem f hf)) (hposition1.trans hposition0) (hverify1.trans hverify) log
    rw [decodeBuckets]
    simp only [hentry',hfetch,ok_bind,hload1,hremaining,hrun]
    cases hreach : buckets[idx].frames.any (reaches stop) with
    | true => rw [through_of_some hreach]
    | false =>
      have hnone : ∀ f ∈ buckets[idx].frames, reaches stop f = false := fun f hf =>
        Bool.eq_false_iff.mpr (List.any_eq_false.mp hreach f hf)
      rw [through_of_none hnone] at hread ⊢
      simp only
      rw [ih (fun i hi => hbounds i (List.mem_cons_of_mem _ hi))
        (fun f hf => hread f (List.mem_append_right _ hf)) hverify2 (hmode2.trans hmode1),
        through_none hnone,List.flatMap_append,List.append_assoc]

end Worker

section Chunks

theorem chunksFrom_length (per rem i s left : Nat) :
    (chunksFrom per rem i s left).length = left := by
  induction left generalizing i s with
  | zero => rfl
  | succ left ih => rw [chunksFrom,List.length_cons,ih]

theorem chunksFrom_flatten (per rem i s left : Nat) :
    (chunksFrom per rem i s left).flatten =
      List.range' s (per * left + (min rem (i + left) - min rem i)) := by
  induction left generalizing i s with
  | zero => simp [chunksFrom]
  | succ left ih =>
    rw [chunksFrom,List.flatten_cons,ih,List.range'_append_1]
    congr 1
    rw [Nat.mul_succ]
    split <;> omega

theorem partitionBuckets_flatten {first last threads : Nat} {chunks : List (List Nat)}
    (hthreads : 0 < threads) (h : partitionBuckets first last threads = .ok chunks) :
    chunks.length = threads ∧ first ≤ last + 1 ∧
      chunks.flatten = List.range' first (last + 1 - first) := by
  unfold partitionBuckets at h
  split at h
  · cases h
  · cases h
    have hrem := Nat.mod_lt (last + 1 - first) hthreads
    have hdiv := Nat.div_add_mod (last + 1 - first) threads
    refine ⟨chunksFrom_length _ _ _ _ _,by omega,?_⟩
    rw [chunksFrom_flatten]
    congr 1
    rw [Nat.mul_comm] at hdiv
    omega

theorem flatten_workers {α β : Type} {p : α → Bool} {frames : Nat → List α} {tell : α → List β}
    {chunks : List (List Nat)}
    (hquiet : ∀ idx ∈ chunks.flatten.dropLast, ∀ x ∈ frames idx, p x = false) :
    (chunks.map fun chunk => (through p (chunk.flatMap frames)).flatMap tell).flatten =
      (through p (chunks.flatten.flatMap frames)).flatMap tell := by
  induction chunks with
  | nil => rfl
  | cons chunk rest ih =>
    rw [List.map_cons,List.flatten_cons,List.flatten_cons,List.flatMap_append]
    by_cases hrest : rest.flatten = []
    · have hempty : ∀ c ∈ rest, c = [] := List.flatten_eq_nil_iff.mp hrest
      have hnone : (rest.map fun c => (through p (c.flatMap frames)).flatMap tell).flatten =
          [] := by
        refine List.flatten_eq_nil_iff.mpr fun events hevents => ?_
        obtain ⟨c,hc,rfl⟩ := List.mem_map.mp hevents
        rw [hempty c hc]
        rfl
      rw [hnone,hrest,List.flatMap_nil,List.append_nil,List.append_nil]
    · rw [List.flatten_cons,List.dropLast_append_of_ne_nil hrest] at hquiet
      have hfirst : ∀ x ∈ chunk.flatMap frames, p x = false := by
        intro x hx
        obtain ⟨idx,hidx,hx⟩ := List.mem_flatMap.mp hx
        exact hquiet idx (List.mem_append_left _ hidx) x hx
      rw [ih fun idx hidx => hquiet idx (List.mem_append_right _ hidx),through_of_none hfirst,
        through_none hfirst,List.flatMap_append]

end Chunks

def inRange (start stop : UInt64) (slots : List SlotCalls) : List SlotCalls :=
  slots.filter fun f => start ≤ f.slot && f.slot < stop

def isEpoch : Event → Bool
  | .epoch _ => true
  | _ => false

def epochOf : SlotCalls → Option EpochMeta
  | .skipped _ => none
  | .block _ epoch _ _ _ => epoch

/-- What a worker tells of a frame that lies behind the range. -/
def leaked (stop : UInt64) (data : Bool) (f : SlotCalls) : List Event :=
  if f.slot < stop then [] else (f.told data).filter isEpoch

section Telling

variable {start stop : UInt64} {data : Bool} {frames : List SlotCalls}

theorem toNat_add_one {slot : UInt64} (h : slot.toNat + 1 < 2 ^ 64) :
    (slot + 1).toNat = slot.toNat + 1 := by
  rw [UInt64.toNat_add,UInt64.toNat_one,Nat.mod_eq_of_lt h]

theorem reaches_iff (stop : UInt64) {f : SlotCalls} (h : f.slot.toNat + 1 < 2 ^ 64) :
    reaches stop f = true ↔ stop.toNat ≤ f.slot.toNat + 1 := by
  rw [reaches,decide_eq_true_eq,UInt64.le_iff_toNat_le,toNat_add_one h]

theorem told_passes (f : SlotCalls) (data : Bool) (stop : UInt64) :
    (f.told data).filter (passes stop) =
      if f.slot < stop then f.told data else (f.told data).filter isEpoch := by
  have helide (e : Event) : passes stop (mapEvent elide e) = passes stop e := by
    cases e with
    | epoch info => rfl
    | transaction slot txIndex tx => rfl
    | block notification entries => cases notification <;> rfl
  have hkind (e : Event) : isEpoch (mapEvent elide e) = isEpoch e := by
    cases e with
    | epoch info => rfl
    | transaction slot txIndex tx => rfl
    | block notification entries => cases notification <;> rfl
  have hslot : ∀ e ∈ f.events, passes stop e = (isEpoch e || decide (f.slot < stop)) := by
    intro e he
    cases f with
    | skipped slot =>
      rw [List.mem_singleton.mp he]
      rfl
    | block slot epoch calls info entries =>
      simp only [SlotCalls.events,List.mem_append,List.mem_singleton] at he
      rcases he with (he | he) | rfl
      · obtain ⟨_,-,rfl⟩ := List.mem_map.mp he
        rfl
      · obtain ⟨i,hi,rfl⟩ := List.mem_mapIdx.mp he
        rfl
      · rfl
  have hall : ∀ e ∈ f.told data, passes stop e = (isEpoch e || decide (f.slot < stop)) := by
    intro e he
    cases data with
    | true => exact hslot e he
    | false =>
      obtain ⟨original,hmem,rfl⟩ := List.mem_map.mp (show e ∈ f.events.map (mapEvent elide) from he)
      rw [helide,hkind]
      exact hslot original hmem
  by_cases hin : f.slot < stop
  · rw [if_pos hin]
    refine List.filter_eq_self.mpr fun e he => ?_
    rw [hall e he,decide_eq_true hin,Bool.or_true]
  · rw [if_neg hin]
    refine List.filter_congr fun e he => ?_
    rw [hall e he,decide_eq_false hin,Bool.or_false]

theorem bounded_inside {f : SlotCalls} (h : f.slot < stop) :
    bounded start stop data f = if start ≤ f.slot then f.told data else [] := by
  rw [bounded,told_passes,if_pos h]

variable (hincreasing : (frames.map SlotCalls.slot).Pairwise (· < ·))
  (hsmall : ∀ f ∈ frames, f.slot.toNat + 1 < 2 ^ 64)
include hincreasing hsmall

theorem mem_through_of_lt {f : SlotCalls} (hf : f ∈ frames) (hlt : f.slot < stop) :
    f ∈ through (reaches stop) frames := by
  induction frames with
  | nil => cases hf
  | cons g rest ih =>
    rw [List.map_cons,List.pairwise_cons] at hincreasing
    rw [through]
    rcases List.mem_cons.mp hf with rfl | hf
    · split <;> exact List.mem_cons_self
    · cases hreach : reaches stop g with
      | true =>
        have hle := (reaches_iff stop (hsmall g List.mem_cons_self)).mp hreach
        have hnext := UInt64.lt_iff_toNat_lt.mp (hincreasing.1 f.slot (List.mem_map_of_mem hf))
        have hlt' := UInt64.lt_iff_toNat_lt.mp hlt
        omega
      | false =>
        exact List.mem_cons_of_mem _ (ih hincreasing.2
          (fun g hg => hsmall g (List.mem_cons_of_mem _ hg)) hf)

theorem told_through (hrange : start < stop) :
    (through (reaches stop) frames).flatMap (bounded start stop data) =
      (inRange start stop frames).flatMap (SlotCalls.told data) ++
        (through (reaches stop) frames).flatMap (leaked stop data) := by
  induction frames with
  | nil => rfl
  | cons f rest ih =>
    have hfirst := hsmall f List.mem_cons_self
    rw [List.map_cons,List.pairwise_cons] at hincreasing
    have hrange' := UInt64.lt_iff_toNat_lt.mp hrange
    cases hreach : reaches stop f with
    | true =>
      -- nothing behind the frame lies in the range
      have hle := (reaches_iff stop hfirst).mp hreach
      have hnone : inRange start stop rest = [] := by
        refine List.filter_eq_nil_iff.mpr fun g hg => ?_
        have hlt := UInt64.lt_iff_toNat_lt.mp (hincreasing.1 g.slot (List.mem_map_of_mem hg))
        have hout : ¬g.slot < stop := by
          rw [UInt64.lt_iff_toNat_lt]
          omega
        simp [hout]
      rw [through,hreach,if_pos rfl,List.flatMap_singleton,List.flatMap_singleton,inRange,
        List.filter_cons,← inRange,hnone,leaked]
      by_cases hin : f.slot < stop
      · rw [bounded_inside hin]
        by_cases hstart : start ≤ f.slot <;> simp [hstart,hin]
      · have hstart : start ≤ f.slot := by
          rw [UInt64.le_iff_toNat_le]
          omega
        rw [bounded,if_pos hstart,told_passes]
        simp [hin]
    | false =>
      have hin : f.slot < stop := by
        have hnot := (not_congr (reaches_iff stop hfirst)).mp (by rw [hreach]; decide)
        rw [UInt64.lt_iff_toNat_lt]
        omega
      have hrest := ih hincreasing.2 fun g hg => hsmall g (List.mem_cons_of_mem _ hg)
      rw [through,hreach]
      simp only [Bool.false_eq_true,if_false,List.flatMap_cons,hrest,bounded_inside hin,leaked]
      unfold inRange
      by_cases hstart : start ≤ f.slot <;> simp [hstart,hin]

end Telling

theorem filter_isEpoch (f : SlotCalls) (data : Bool) :
    (f.told data).filter isEpoch = [] ↔ epochOf f = none := by
  have hkind (e : Event) : isEpoch (mapEvent elide e) = isEpoch e := by
    cases e with
    | epoch info => rfl
    | transaction slot txIndex tx => rfl
    | block notification entries => cases notification <;> rfl
  have hfull : f.events.filter isEpoch = [] ↔ epochOf f = none := by
    cases f with
    | skipped slot => simp [SlotCalls.events,isEpoch,epochOf]
    | block slot epoch calls info entries =>
      have htxs : (transactionEvents slot (transactionsOf calls)).filter isEpoch = [] := by
        refine List.filter_eq_nil_iff.mpr fun e he => ?_
        obtain ⟨i,hi,rfl⟩ := List.mem_mapIdx.mp he
        exact Bool.false_ne_true
      rw [SlotCalls.events,List.filter_append,List.filter_append,htxs]
      cases epoch <;> simp [isEpoch,epochOf]
  cases data with
  | true => exact hfull
  | false =>
    rw [← hfull,show f.told false = f.events.map (mapEvent elide) from rfl,List.filter_map]
    simp [hkind]

theorem leaked_eq_nil (stop : UInt64) (data : Bool) (f : SlotCalls) :
    leaked stop data f = [] ↔ (stop ≤ f.slot → epochOf f = none) := by
  rw [leaked]
  split
  · rename_i hin
    exact iff_of_true rfl fun hle => absurd hin (UInt64.not_lt.mpr hle)
  · rename_i hout
    rw [filter_isEpoch]
    exact ⟨fun h _ => h,fun h => h (UInt64.not_lt.mp hout)⟩

section Range

variable {env : Env} {config : ArchiveWriterConfig} {buckets : List Archive.Bucket}
    {r : ArchiveReader}
  {start stop : UInt64} {first last : Nat}

/-- The buckets a range is looked for in, and what lies around them. -/
structure Covers (buckets : List Archive.Bucket) (start stop : UInt64) (first last : Nat) :
    Prop where
  ordered : first ≤ last
  inside : last < buckets.length
  before : ∀ f ∈ storedFrames (buckets.take first), f.slot < start
  quiet : ∀ f ∈ storedFrames (buckets.take last), f.slot.toNat + 1 < stop.toNat
  behind : ∀ f ∈ storedFrames (buckets.drop (last + 1)), stop ≤ f.slot

theorem pos_of_mem_take {k : Nat} {f : SlotCalls} (h : f ∈ storedFrames (buckets.take k)) :
    0 < k := by
  refine Nat.pos_of_ne_zero fun hzero => ?_
  rw [hzero] at h
  cases h

theorem covers_of_opened (hz : env.zstd.Inverts) (h : Opened env config buckets r)
    (hindex : r.index ≠ []) (hrange : start < stop)
    (hstart : bucketContaining r.header r.index start = .ok first)
    (hend : bucketContaining r.header r.index (stop - 1) = .ok last) :
    Covers buckets start stop first last := by
  have hlength := List.length_pos_iff.mpr hindex
  have hindexed := h.served.length_index
  have hbs := UInt16.toNat_pos_of_ne h.bucketSlots
  have hrange' := UInt64.lt_iff_toNat_lt.mp hrange
  have hlast : (stop - 1).toNat = stop.toNat - 1 := by
    rw [UInt64.toNat_sub_of_le _ _ (by rw [UInt64.le_iff_toNat_le,UInt64.toNat_one]; omega)]
    rfl
  rw [bucketContaining,if_neg h.bucketSlots] at hstart hend
  have hstart' := Except.ok.inj hstart
  have hend' := Except.ok.inj hend
  rw [hlast] at hend'
  have hmono : (start.toNat - r.header.slotStart.toNat) / r.header.bucketSlots.toNat ≤
      (stop.toNat - 1 - r.header.slotStart.toNat) / r.header.bucketSlots.toNat :=
    Nat.div_le_div_right (by omega)
  obtain ⟨hle0,hfirst0⟩ := walkBack_spec r.index start
    (min ((start.toNat - r.header.slotStart.toNat) / r.header.bucketSlots.toNat)
      (r.index.length - 1))
  obtain ⟨hle1,hfirst1⟩ := walkBack_spec r.index (stop - 1)
    (min ((stop.toNat - 1 - r.header.slotStart.toNat) / r.header.bucketSlots.toNat)
      (r.index.length - 1))
  have hpassed (t : Nat) (entry : BucketIndexEntry) (hlt : last < t)
      (hle : t ≤ min ((stop.toNat - 1 - r.header.slotStart.toNat) / r.header.bucketSlots.toNat)
        (r.index.length - 1)) (hentry : r.index[t]? = some entry) :
      stop.toNat ≤ entry.firstSlot.toNat := by
    have hlt' := UInt64.lt_iff_toNat_lt.mp
      (walkBack_passed (stop - 1) (by rw [hend']; exact hlt) hle hentry)
    omega
  rw [hstart'] at hle0 hfirst0
  rw [hend'] at hle1 hfirst1
  have hinside : last < buckets.length := by omega
  have hinside0 : first < buckets.length := by omega
  obtain ⟨⟨entry0,hentry0,hslot0⟩,-⟩ := h.served.load hz hinside0
  obtain ⟨⟨entry1,hentry1,hslot1⟩,-⟩ := h.served.load hz hinside
  refine ⟨?_,hinside,fun f hf => ?_,fun f hf => ?_,fun f hf => ?_⟩
  · by_contra hnot
    have hpast := hpassed first _ (by omega) (by omega) hentry0
    have hbelow := UInt64.le_iff_toNat_le.mp (hfirst0 _ (by omega) hentry0)
    omega
  · have hbelow := hfirst0 _ (pos_of_mem_take hf) hentry0
    rw [hslot0] at hbelow
    exact UInt64.lt_of_lt_of_le (h.slot_before hinside0 hf) hbelow
  · have hbelow := UInt64.le_iff_toNat_le.mp (hfirst1 _ (pos_of_mem_take hf) hentry1)
    have hframe := UInt64.lt_iff_toNat_lt.mp (h.slot_before hinside hf)
    rw [hslot1] at hbelow
    omega
  · rw [UInt64.le_iff_toNat_le]
    obtain ⟨b,hb,hfb⟩ := List.mem_flatMap.mp hf
    obtain ⟨i,hi,rfl⟩ := List.getElem_of_mem hb
    rw [List.length_drop] at hi
    rw [List.getElem_drop] at hfb
    by_cases hnear : last + 1 ≤
        (stop.toNat - 1 - r.header.slotStart.toNat) / r.header.bucketSlots.toNat
    · have hnext : last + 1 < buckets.length := by omega
      obtain ⟨⟨entry,hentry,hslot⟩,-⟩ := h.served.load hz hnext
      have hpast := hpassed (last + 1) entry (by omega) (by omega) hentry
      have hfirst := UInt64.le_iff_toNat_le.mp (h.slot_from hnext hf)
      rw [hslot] at hpast
      omega
    · have hplace := h.spaced (last + 1 + i) _ (List.getElem?_eq_getElem (by omega)) f hfb
      have hfar := (Nat.div_lt_iff_lt_mul hbs).mp (Nat.lt_of_not_le hnear)
      have hmul : (last + 1) * r.header.bucketSlots.toNat ≤
          (last + 1 + i) * r.header.bucketSlots.toNat := Nat.mul_le_mul_right _ (by omega)
      omega

/-- The frames a stream of the range decodes: those of the buckets the range is looked for in, up
to the first with no slot of the range behind it. -/
def touched (r : ArchiveReader) (start stop : UInt64) (slots : List SlotCalls) : List SlotCalls :=
  if stop ≤ start then []
  else
    match bucketContaining r.header r.index start,
      bucketContaining r.header r.index (stop - 1) with
    | .ok first, .ok last => through (reaches stop) (slots.filter fun f =>
        r.index[first]?.any (·.firstSlot ≤ f.slot) &&
          r.index[last + 1]?.all (f.slot < ·.firstSlot))
    | _, _ => []

theorem mem_touched {slots : List SlotCalls} {f : SlotCalls}
    (h : f ∈ touched r start stop slots) : f ∈ slots := by
  unfold touched at h
  split at h
  · cases h
  · split at h
    · exact (List.mem_filter.mp (mem_through h)).1
    · cases h

def coveredFrames (buckets : List Archive.Bucket) (first last : Nat) : List SlotCalls :=
  storedFrames ((buckets.drop first).take (last + 1 - first))

theorem range_frames {n : Nat} (h : first + n ≤ buckets.length) :
    (List.range' first n).flatMap (framesAt buckets) =
      storedFrames ((buckets.drop first).take n) := by
  induction n generalizing first with
  | zero => simp [storedFrames]
  | succ n ih =>
    have hlt : first < buckets.length := by omega
    have hframes : framesAt buckets first = buckets[first].frames := by
      simp [framesAt,List.getElem?_eq_getElem hlt]
    rw [List.range'_succ,List.flatMap_cons,ih (by omega),hframes,List.drop_eq_getElem_cons hlt]
    rfl

section Covered

variable (hcovers : Covers buckets start stop first last)
include hcovers

theorem Covers.split : storedFrames buckets = storedFrames (buckets.take first) ++
    (coveredFrames buckets first last ++ storedFrames (buckets.drop (last + 1))) := by
  have hlength : first + (last + 1 - first) = last + 1 := by
    have := hcovers.ordered
    omega
  have htake : buckets.take (last + 1) =
      buckets.take first ++ (buckets.drop first).take (last + 1 - first) := by
    rw [← List.take_add,hlength]
  rw [storedFrames_take_drop buckets (last + 1),htake,storedFrames,List.flatMap_append,
    List.append_assoc]
  rfl

theorem Covers.inRange :
    Firehose.inRange start stop (storedFrames buckets) =
      Firehose.inRange start stop (coveredFrames buckets first last) := by
  have hbefore : Firehose.inRange start stop (storedFrames (buckets.take first)) = [] :=
    List.filter_eq_nil_iff.mpr fun f hf => by
      simp [UInt64.not_le.mpr (hcovers.before f hf)]
  have hbehind : Firehose.inRange start stop (storedFrames (buckets.drop (last + 1))) = [] :=
    List.filter_eq_nil_iff.mpr fun f hf => by
      simp [UInt64.not_lt.mpr (hcovers.behind f hf)]
  unfold Firehose.inRange at hbefore hbehind ⊢
  rw [hcovers.split,List.filter_append,List.filter_append,hbefore,hbehind,List.nil_append,
    List.append_nil]

theorem Covers.touched (hz : env.zstd.Inverts) (h : Opened env config buckets r)
    (hrange : start < stop) (hstart : bucketContaining r.header r.index start = .ok first)
    (hend : bucketContaining r.header r.index (stop - 1) = .ok last) :
    Firehose.touched r start stop (storedFrames buckets) =
      through (reaches stop) (coveredFrames buckets first last) := by
  have hordered := hcovers.ordered
  have hinside := hcovers.inside
  have hfirst : first < buckets.length := by omega
  obtain ⟨⟨entry,hentry,hslot⟩,-⟩ := h.served.load hz hfirst
  simp only [Firehose.touched,if_neg (UInt64.not_le.mpr hrange),hstart,hend,hentry,Option.any_some,
    hslot]
  have hbehind (f : SlotCalls) : f ∈ storedFrames (buckets.drop (last + 1)) →
      r.index[last + 1]?.all (f.slot < ·.firstSlot) = false := by
    intro hf
    have hnext : last + 1 < buckets.length := by
      by_contra hnot
      rw [List.drop_of_length_le (Nat.le_of_not_lt hnot)] at hf
      cases hf
    obtain ⟨⟨entry',hentry',hslot'⟩,-⟩ := h.served.load hz hnext
    rw [hentry',Option.all_some,hslot',decide_eq_false (UInt64.not_lt.mpr (h.slot_from hnext hf))]
  have hinner (f : SlotCalls) (hf : f ∈ coveredFrames buckets first last) :
      buckets[first].firstSlot ≤ f.slot ∧
        r.index[last + 1]?.all (f.slot < ·.firstSlot) = true := by
    have hdrop : f ∈ storedFrames (buckets.drop first) := by
      obtain ⟨b,hb,hfb⟩ := List.mem_flatMap.mp hf
      exact List.mem_flatMap.mpr ⟨b,List.mem_of_mem_take hb,hfb⟩
    refine ⟨h.slot_from hfirst hdrop,?_⟩
    cases hnext : r.index[last + 1]? with
    | none => rfl
    | some entry' =>
      have hlt : last + 1 < buckets.length := by
        rw [← h.served.length_index]
        exact (List.getElem?_eq_some_iff.mp hnext).1
      obtain ⟨⟨entry2,hentry2,hslot2⟩,-⟩ := h.served.load hz hlt
      have htake : f ∈ storedFrames (buckets.take (last + 1)) := by
        have hall := hcovers.split
        rw [storedFrames_take_drop buckets (last + 1),← List.append_assoc] at hall
        rw [List.append_cancel_right hall]
        exact List.mem_append_right _ hf
      rw [Option.some.inj (hnext.symm.trans hentry2),Option.all_some,hslot2]
      exact decide_eq_true (h.slot_before hlt htake)
  rw [hcovers.split,List.filter_append,List.filter_append]
  have hone : (storedFrames (buckets.take first)).filter (fun f =>
      decide (buckets[first].firstSlot ≤ f.slot) &&
        r.index[last + 1]?.all (f.slot < ·.firstSlot)) = [] :=
    List.filter_eq_nil_iff.mpr fun f hf => by
      simp [UInt64.not_le.mpr (h.slot_before hfirst hf)]
  have htwo : (coveredFrames buckets first last).filter (fun f =>
      decide (buckets[first].firstSlot ≤ f.slot) &&
        r.index[last + 1]?.all (f.slot < ·.firstSlot)) = coveredFrames buckets first last :=
    List.filter_eq_self.mpr fun f hf => by
      rw [decide_eq_true (hinner f hf).1,(hinner f hf).2,Bool.and_self]
  have hthree : (storedFrames (buckets.drop (last + 1))).filter (fun f =>
      decide (buckets[first].firstSlot ≤ f.slot) &&
        r.index[last + 1]?.all (f.slot < ·.firstSlot)) = [] :=
    List.filter_eq_nil_iff.mpr fun f hf => by
      rw [hbehind f hf,Bool.and_false]
      exact Bool.false_ne_true
  rw [hone,htwo,hthree,List.nil_append,List.append_nil]

theorem Covers.increasing (h : Opened env config buckets r) :
    ((coveredFrames buckets first last).map SlotCalls.slot).Pairwise (· < ·) ∧
      ∀ f ∈ coveredFrames buckets first last, f.slot.toNat + 1 < 2 ^ 64 := by
  have hincreasing := h.increasing
  have hsplit := hcovers.split
  rw [hsplit,List.map_append,List.map_append] at hincreasing
  refine ⟨(List.pairwise_append.mp (List.pairwise_append.mp hincreasing).2.1).1,fun f hf => ?_⟩
  refine h.ended f ?_
  rw [hsplit]
  exact List.mem_append_right _ (List.mem_append_left _ hf)

theorem Covers.workers (h : Opened env config buckets r) {β : Type} (tell : SlotCalls → List β)
    {chunks : List (List Nat)} (hchunks : chunks.flatten = List.range' first (last + 1 - first)) :
    (chunks.map fun chunk =>
        (through (reaches stop) (chunk.flatMap (framesAt buckets))).flatMap tell).flatten =
      (through (reaches stop) (coveredFrames buckets first last)).flatMap tell := by
  have hordered := hcovers.ordered
  have hinside := hcovers.inside
  -- the last bucket is the only one a worker can stop in
  have hsplit : List.range' first (last + 1 - first) =
      List.range' first (last - first) ++ [last] := by
    have happend := @List.range'_append_1 first (last - first) 1
    have hmiddle : first + (last - first) = last := by omega
    have hlength : last - first + 1 = last + 1 - first := by omega
    rw [hmiddle,hlength] at happend
    exact happend.symm
  have hquiet : ∀ idx ∈ chunks.flatten.dropLast, ∀ f ∈ framesAt buckets idx,
      reaches stop f = false := by
    intro idx hidx f hf
    rw [hchunks,hsplit,List.dropLast_concat] at hidx
    have hbounds := List.mem_range'_1.mp hidx
    have hlt : idx < buckets.length := by omega
    have hf' : f ∈ buckets[idx].frames := by simpa [framesAt,List.getElem?_eq_getElem hlt] using hf
    have htake : f ∈ storedFrames (buckets.take last) :=
      List.mem_flatMap.mpr ⟨_,List.mem_take_iff_getElem.mpr ⟨idx,by omega,rfl⟩,hf'⟩
    have hsmall := h.ended f (List.mem_flatMap.mpr ⟨_,List.getElem_mem hlt,hf'⟩)
    refine Bool.eq_false_iff.mpr fun hreach => ?_
    have hle := (reaches_iff stop hsmall).mp hreach
    have := hcovers.quiet f htake
    omega
  rw [flatten_workers hquiet,hchunks,range_frames (by omega)]
  rfl

end Covered

theorem mem_scanned_lt {frames : List SlotCalls} {n : Nat} {f : SlotCalls}
    (hincreasing : (frames.map SlotCalls.slot).Pairwise (· < ·))
    (hn : n ≤ (inRange start stop frames).length) (hf : f ∈ scanned start n frames) :
    f.slot < stop := by
  induction frames generalizing n with
  | nil =>
    rw [scanned_nil] at hf
    cases hf
  | cons g rest ih =>
    cases n with
    | zero =>
      cases hf
    | succ n =>
      rw [List.map_cons,List.pairwise_cons] at hincreasing
      -- some frame of the range is still ahead
      have hg : g.slot < stop := by
        obtain ⟨last,hlast⟩ := List.exists_mem_of_length_pos (Nat.lt_of_lt_of_le n.succ_pos hn)
        obtain ⟨hmem,hin⟩ := List.mem_filter.mp hlast
        have hlt : last.slot < stop := of_decide_eq_true (Bool.and_eq_true _ _ ▸ hin).2
        rcases List.mem_cons.mp hmem with rfl | hmem
        · exact hlt
        · exact UInt64.lt_trans (hincreasing.1 last.slot (List.mem_map_of_mem hmem)) hlt
      rcases List.mem_cons.mp hf with rfl | hf
      · exact hg
      · refine ih hincreasing.2 ?_ hf
        unfold inRange at hn ⊢
        by_cases hstart : start ≤ g.slot
        · simp only [List.filter_cons,hstart,hg,decide_true,Bool.and_self,if_true,
            List.length_cons] at hn ⊢
          omega
        · simpa [hstart] using hn

theorem Covers.decoded (hz : env.zstd.Inverts) (h : Opened env config buckets r)
    (hcovers : Covers buckets start stop first last)
    (hstart : bucketContaining r.header r.index start = .ok first) {data : Bool} {f : SlotCalls}
    (hf : f ∈ r.decoded ⟨start,(Firehose.inRange start stop (storedFrames buckets)).length,
      data,false⟩
      (storedFrames buckets)) : f ∈ through (reaches stop) (coveredFrames buckets first last) := by
  have hordered := hcovers.ordered
  have hinside := hcovers.inside
  have hdrop : storedFrames (buckets.drop first) = coveredFrames buckets first last ++
      storedFrames (buckets.drop (last + 1)) := by
    have hall := hcovers.split
    rw [storedFrames_take_drop buckets first] at hall
    exact List.append_cancel_left hall
  have hfrom : Firehose.inRange start stop (storedFrames buckets) =
      Firehose.inRange start stop (storedFrames (buckets.drop first)) := by
    have hbehind : Firehose.inRange start stop (storedFrames (buckets.drop (last + 1))) = [] :=
      List.filter_eq_nil_iff.mpr fun f hf => by simp [UInt64.not_lt.mpr (hcovers.behind f hf)]
    rw [hcovers.inRange,hdrop]
    unfold Firehose.inRange at hbehind ⊢
    rw [List.filter_append,hbehind,List.append_nil]
  have hincreasing := h.increasing
  rw [storedFrames_take_drop buckets first,List.map_append,List.pairwise_append] at hincreasing
  rw [h.decoded hz (by omega) hstart,hfrom] at hf
  have hlt := mem_scanned_lt hincreasing.2.1 (Nat.le_refl _) hf
  have hmem := mem_scanned hf
  rw [hdrop] at hmem
  rcases List.mem_append.mp hmem with hmem | hmem
  · obtain ⟨hpairwise,hsmall⟩ := hcovers.increasing h
    exact mem_through_of_lt hpairwise hsmall hmem hlt
  · exact absurd hlt (UInt64.not_lt.mpr (hcovers.behind f hmem))

end Range

section Framing

variable {env : Env}

theorem extends_readFileHeader : Extends (readFileHeader env) := by
  refine (Extends.take _ 8).bind fun front => ?_
  split
  · exact Extends.throw _
  · refine Extends.bind ?_ fun headerLen => ?_
    · refine (Extends.take _ 1).bind fun first => ?_
      unfold readIoVarintAfter
      split
      · exact Extends.pure _
      · split
        · exact Extends.throw _
        · exact (Extends.take _ _).bind fun rest => Extends.pure _
    · split
      · exact Extends.throw _
      · refine (Extends.take _ _).bind fun headerBytes => ?_
        split
        · exact Extends.throw _
        · split
          · exact Extends.throw _
          · split
            · exact Extends.throw _
            · exact Extends.pure _

theorem readRange_ok {bytes range : Bytes} {offset len : Nat}
    (h : readRange bytes offset len = .ok range) :
    readAt bytes offset len = .ok range := by
  unfold readRange at h
  cases hread : readAt bytes offset len with
  | ok found =>
    rw [hread] at h
    exact congrArg Except.ok (Except.ok.inj h)
  | error e =>
    rw [hread] at h
    cases e <;> cases h

theorem readAt_eq {bytes range : Bytes} {offset len : Nat}
    (h : readAt bytes offset len = .ok range) :
    range = (bytes.drop offset).take len := by
  unfold readAt at h
  split at h
  · cases h
  · split at h
    · exact (Except.ok.inj h).symm
    · cases h

theorem readFraming_open {bytes : Bytes} {r : ArchiveReader} {header : FileHeader}
    {index : List BucketIndexEntry} (h : readFraming env bytes = .ok (header,index))
    (hopen : ArchiveReader.open env bytes = .ok r) :
    header = r.header ∧ index = r.index ∧ r.framing.source = bytes := by
  unfold readFraming at h
  split at h
  · cases h
  · rename_i hlen
    obtain ⟨front,hfront,h⟩ := bind_ok h
    obtain ⟨header',hheader,h⟩ := bind_ok h
    obtain ⟨footerBytes,hfooterBytes,h⟩ := bind_ok h
    obtain ⟨footer,hfooter,h⟩ := bind_ok h
    obtain ⟨indexBytes,hindexBytes,h⟩ := bind_ok h
    obtain ⟨index',hindex,h⟩ := bind_ok h
    cases h
    obtain ⟨header0,hheader0,hopen⟩ := bind_ok hopen
    obtain ⟨footer0,hfooter0,hopen⟩ := bind_ok hopen
    obtain ⟨indexBytes0,hindexBytes0,hopen⟩ := bind_ok hopen
    obtain ⟨index0,hindex0,hopen⟩ := bind_ok hopen
    cases hopen
    -- the header lies within the first bytes
    have hheader' : header = header0 := by
      have hparse := mapError_ok hheader
      unfold Get.parse at hparse hheader0
      cases hread : readFileHeader env ⟨(),front⟩ with
      | error e next =>
        rw [hread] at hparse
        cases hparse
      | ok found next =>
        have hmore := extends_readFileHeader () front found next hread
            (bytes.drop (min headerPrefix bytes.length))
        have hwhole : front ++ bytes.drop (min headerPrefix bytes.length) = bytes := by
          rw [readAt_eq (readRange_ok hfront),List.drop_zero,List.take_append_drop]
        rw [hwhole] at hmore
        rw [hread] at hparse
        rw [hmore] at hheader0
        exact (Except.ok.inj hparse).symm.trans (Except.ok.inj hheader0)
    have hfooter' : footer = footer0 := by
      have hbytes : footerBytes = bytes.drop (bytes.length - footerLen) := by
        rw [readAt_eq (readRange_ok hfooterBytes)]
        refine List.take_of_length_le ?_
        rw [List.length_drop]
        omega
      rw [readFooter,if_neg hlen,← hbytes,mapError_ok hfooter] at hfooter0
      exact Except.ok.inj hfooter0
    subst hfooter'
    have hindexBytes' : indexBytes = indexBytes0 :=
      Except.ok.inj ((readRange_ok hindexBytes).symm.trans hindexBytes0)
    subst hindexBytes'
    exact ⟨hheader',Except.ok.inj ((mapError_ok hindex).symm.trans hindex0),rfl⟩

end Framing

section Visits

def blockSlots (events : List Event) : List UInt64 :=
  events.filterMap fun
    | .block notification _ => some notification.slot
    | _ => none

theorem blockSlots_told (f : SlotCalls) (data : Bool) : blockSlots (f.told data) = [f.slot] := by
  have hfull : blockSlots f.events = [f.slot] := by
    cases f with
    | skipped slot => rfl
    | block slot epoch calls info entries =>
      have hepoch : blockSlots (epoch.toList.map .epoch) = [] := by
        cases epoch <;> rfl
      have htxs : blockSlots (transactionEvents slot (transactionsOf calls)) = [] := by
        refine List.filterMap_eq_nil_iff.mpr fun e he => ?_
        obtain ⟨i,hi,rfl⟩ := List.mem_mapIdx.mp he
        rfl
      unfold blockSlots at hepoch htxs ⊢
      rw [SlotCalls.events,List.filterMap_append,List.filterMap_append,hepoch,htxs]
      rfl
  cases data with
  | true => exact hfull
  | false =>
    have helide : blockSlots (elideEvents f.events) = blockSlots f.events := by
      unfold blockSlots elideEvents
      rw [List.filterMap_map]
      refine List.filterMap_congr fun e _ => ?_
      cases e with
      | epoch info => rfl
      | transaction slot txIndex tx => rfl
      | block notification entries => cases notification <;> rfl
    exact helide.trans hfull

theorem blockSlots_flatMap (slots : List SlotCalls) (data : Bool) :
    blockSlots (slots.flatMap (SlotCalls.told data)) = slots.map SlotCalls.slot := by
  induction slots with
  | nil => rfl
  | cons f rest ih =>
    have happend : blockSlots (f.told data ++ rest.flatMap (SlotCalls.told data)) =
        blockSlots (f.told data) ++ blockSlots (rest.flatMap (SlotCalls.told data)) :=
      List.filterMap_append
    rw [List.flatMap_cons,happend,ih,blockSlots_told]
    rfl

theorem visited_once {workers : List (List Event)} {slot : UInt64}
    (hnodup : (blockSlots workers.flatten).Nodup) (hmem : slot ∈ blockSlots workers.flatten) :
    ∃! t : Fin workers.length, slot ∈ blockSlots (workers.get t) := by
  have hflat : blockSlots workers.flatten = (workers.map blockSlots).flatten := by
    unfold blockSlots
    rw [List.filterMap_flatten]
  rw [hflat] at hnodup hmem
  obtain ⟨announced,hannounced,hslot⟩ := List.mem_flatten.mp hmem
  obtain ⟨events,hevents,rfl⟩ := List.mem_map.mp hannounced
  obtain ⟨t,ht,rfl⟩ := List.getElem_of_mem hevents
  refine ⟨⟨t,ht⟩,hslot,fun other hother => ?_⟩
  have hdisjoint := (List.nodup_flatten.mp hnodup).2
  rw [List.pairwise_map,List.pairwise_iff_getElem] at hdisjoint
  by_contra hne
  rcases Nat.lt_or_gt_of_ne (fun heq => hne (Fin.ext heq)) with hlt | hlt
  · exact hdisjoint other.1 t other.2 ht hlt hother hslot
  · exact hdisjoint t other.1 ht other.2 hlt hslot hother

end Visits

/-- The workers' visitors are together told what `read_slots` tells of the slots stored in the
range, and each of these slots by one worker. -/
def StreamsRange (env : Env) (r : ArchiveReader) (slots : List SlotCalls) (data : Bool)
    (start stop : UInt64) (workers : List (List Event)) : Prop :=
  (r.call env ⟨start,(inRange start stop slots).length,data,false⟩).1 =
      (.ok (inRange start stop slots).length,workers.flatten) ∧
    ∀ f ∈ inRange start stop slots, ∃! t : Fin workers.length, f.slot ∈ blockSlots (workers.get t)

section Agreement

variable {env : Env} {r : ArchiveReader} {slots : List SlotCalls} {start stop : UInt64}

theorem window_inRange (hincreasing : (slots.map SlotCalls.slot).Pairwise (· < ·)) :
    window start (inRange start stop slots).length slots = inRange start stop slots := by
  have hsplit : slots.filter (fun f => start ≤ f.slot) =
      inRange start stop slots ++
        slots.filter fun f => start ≤ f.slot && !decide (f.slot < stop) := by
    induction slots with
    | nil => rfl
    | cons f rest ih =>
      rw [List.map_cons,List.pairwise_cons] at hincreasing
      have hrest := ih hincreasing.2
      unfold inRange at hrest ⊢
      by_cases hstart : start ≤ f.slot
      · by_cases hin : f.slot < stop
        · simp [hstart,hin,hrest]
        · have hnone : rest.filter (fun g => decide (start ≤ g.slot) && decide (g.slot < stop)) =
              [] := by
            refine List.filter_eq_nil_iff.mpr fun g hg => ?_
            have hlt := hincreasing.1 g.slot (List.mem_map_of_mem hg)
            have hout : ¬g.slot < stop := fun hlt' => hin (UInt64.lt_trans hlt hlt')
            simp [hout]
          simp [hstart,hin,hnone,hrest]
      · simp [hstart,hrest]
  rw [window,hsplit,List.take_left]

theorem streamsRange_iff {config : ArchiveWriterConfig} {buckets : List Archive.Bucket}
    (hz : env.zstd.Inverts) (h : Opened env config buckets r) {data : Bool}
    {workers : List (List Event)}
    (hread : ∀ f ∈ r.decoded
      ⟨start,(inRange start stop (storedFrames buckets)).length,data,false⟩ (storedFrames buckets),
      Readable env f) :
    StreamsRange env r (storedFrames buckets) data start stop workers ↔ workers.flatten =
      (inRange start stop (storedFrames buckets)).flatMap (SlotCalls.told data) := by
  rw [StreamsRange,h.call_window hz _ rfl hread]
  simp only [window_inRange h.increasing]
  constructor
  · rintro ⟨heq,-⟩
    exact (congrArg Prod.snd heq).symm
  · intro heq
    refine ⟨by rw [heq],fun f hf => visited_once ?_ ?_⟩
    · rw [heq,blockSlots_flatMap]
      have hsub : List.Sublist (inRange start stop (storedFrames buckets)) (storedFrames buckets) :=
        List.filter_sublist
      exact (h.increasing.sublist (hsub.map _)).imp UInt64.ne_of_lt
    · rw [heq,blockSlots_flatMap]
      exact List.mem_map_of_mem hf

theorem mapM_ok_of_forall {ε α β : Type} {f : α → Except ε β} {g : α → β} {items : List α}
    (h : ∀ item ∈ items, f item = .ok (g item)) : items.mapM f = .ok (items.map g) := by
  induction items with
  | nil => rfl
  | cons item rest ih =>
    rw [List.mapM_cons,h item List.mem_cons_self,
      ih fun other hother => h other (List.mem_cons_of_mem _ hother)]
    rfl

end Agreement

def epochSlots : List SlotCalls :=
  [.skipped 0,.block 2 (some ⟨1,0,0,0,none,.empty⟩) [] blankBlockMeta []]

end Jetstreamer.Firehose
