import Jetstreamer.Archive.WriterFrames
set_option autoImplicit false

namespace Jetstreamer.Archive
open Lib Lencode Horizon

structure Bucket where
  firstSlot : UInt64
  anchor : Hash
  frames : List SlotCalls
  raw : Bytes

/-- The bytes of the bucket are those written for its frames, from fresh encoders. -/
structure Bucket.Holds (env : Env) (config : ArchiveWriterConfig) (b : Bucket) : Prop where
  counted : b.frames.length < 2 ^ 32
  nonempty : b.frames ≠ []
  first : b.frames.head?.map SlotCalls.slot = some b.firstSlot
  written : ∃ payload enc, payload.length < 2 ^ 63 ∧
    Put.each (encodeCalls env) b.frames env.newEncoderContext = .ok (payload,enc) ∧
    bucketBytes env config b.firstSlot (UInt32.ofNat b.frames.length) b.anchor payload = .ok b.raw

/-- The index of buckets that lie one behind the other from `offset` on. -/
def bucketIndex (offset : Nat) : List Bucket → List BucketIndexEntry
  | [] => []
  | b :: rest =>
    ⟨b.firstSlot,UInt64.ofNat offset,lenU64 b.raw⟩ :: bucketIndex (offset + b.raw.length) rest

def storedBytes (buckets : List Bucket) : Bytes := buckets.flatMap (·.raw)

def storedFrames (buckets : List Bucket) : List SlotCalls := buckets.flatMap (·.frames)

def chain (hash : Hash) (frames : List SlotCalls) : Hash :=
  frames.foldl (fun h f => f.chained h) hash

def Anchored (hash : Hash) : List Bucket → Prop
  | [] => True
  | b :: rest => b.anchor = hash ∧ Anchored (chain hash b.frames) rest

@[simp] theorem storedBytes_concat (buckets : List Bucket) (b : Bucket) :
    storedBytes (buckets ++ [b]) = storedBytes buckets ++ b.raw := by simp [storedBytes]

@[simp] theorem storedFrames_concat (buckets : List Bucket) (b : Bucket) :
    storedFrames (buckets ++ [b]) = storedFrames buckets ++ b.frames := by simp [storedFrames]

theorem bucketIndex_append_cons (offset : Nat) (done rest : List Bucket) (b : Bucket) :
    bucketIndex offset (done ++ b :: rest) = bucketIndex offset done ++
      ⟨b.firstSlot,UInt64.ofNat (offset + (storedBytes done).length),lenU64 b.raw⟩ ::
        bucketIndex (offset + (storedBytes done).length + b.raw.length) rest := by
  induction done generalizing offset with
  | nil => simp [bucketIndex,storedBytes]
  | cons first done ih =>
    simp only [List.cons_append,bucketIndex,ih,storedBytes,List.flatMap_cons,List.length_append,
      Nat.add_assoc]

theorem bucketIndex_length (offset : Nat) (buckets : List Bucket) :
    (bucketIndex offset buckets).length = buckets.length := by
  induction buckets generalizing offset with
  | nil => rfl
  | cons b rest ih => simp [bucketIndex,ih]

theorem chain_append (hash : Hash) (xs ys : List SlotCalls) :
    chain hash (xs ++ ys) = chain (chain hash xs) ys := by simp [chain]

theorem Anchored.concat {hash : Hash} {buckets : List Bucket} {b : Bucket}
    (h : Anchored hash buckets) (hb : b.anchor = chain hash (storedFrames buckets)) :
    Anchored hash (buckets ++ [b]) := by
  induction buckets generalizing hash with
  | nil => exact ⟨hb,trivial⟩
  | cons first rest ih =>
    refine ⟨h.1,ih h.2 ?_⟩
    rw [hb,← chain_append]
    rfl

/-- No bucket lies before the place it has in a file without gaps. -/
def Spaced (slotStart : UInt64) (bucketSlots : UInt16) (buckets : List Bucket) : Prop :=
  ∀ idx b, buckets[idx]? = some b → ∀ f ∈ b.frames,
    slotStart.toNat + idx * bucketSlots.toNat ≤ f.slot.toNat

theorem Spaced.concat {slotStart : UInt64} {bucketSlots : UInt16} {buckets : List Bucket}
    {b : Bucket}
    (h : Spaced slotStart bucketSlots buckets)
    (hb : ∀ f ∈ b.frames, slotStart.toNat + buckets.length * bucketSlots.toNat ≤ f.slot.toNat) :
    Spaced slotStart bucketSlots (buckets ++ [b]) := by
  intro idx b' hget
  rcases Nat.lt_or_ge idx buckets.length with hlt | hge
  · rw [List.getElem?_append_left hlt] at hget
    exact h idx b' hget
  · rw [List.getElem?_append_right hge] at hget
    have hidx : idx - buckets.length = 0 := by
      have := (List.getElem?_eq_some_iff.mp hget).1
      simp only [List.length_singleton] at this
      omega
    rw [hidx,List.getElem?_cons_zero] at hget
    cases hget
    have heq : idx = buckets.length := by omega
    rw [heq]
    exact hb

/-- A writer between two frames: the buckets it has flushed, the frames of the open one, and
what it remembers of both. -/
structure Layout (env : Env) (fileHeader : Bytes) (buckets : List Bucket) (current : List SlotCalls)
    (w : ArchiveWriter) : Prop where
  bucketSlots : w.config.bucketSlots ≠ 0
  idle : w.staging.slot = none
  sink : w.sink = fileHeader ++ storedBytes buckets
  small : w.sink.length < 2 ^ 63
  offset : w.fileOffset = lenU64 w.sink
  index : w.index = bucketIndex fileHeader.length buckets
  held : ∀ b ∈ buckets, b.Holds env w.config
  payload : Put.each (encodeCalls env) current env.newEncoderContext = .ok (w.bucketBuf,w.enc)
  fits : w.bucketBuf.length < 2 ^ 63
  count : w.bucketSlotCount = UInt32.ofNat current.length
  first : w.bucketFirstSlot = current.head?.map SlotCalls.slot
  below : ∀ f ∈ storedFrames buckets ++ current, ∃ last, w.lastSlot = some last ∧ f.slot ≤ last
  ended : ∀ last, w.lastSlot = some last → last < w.slotEnd
  increasing : ((storedFrames buckets ++ current).map SlotCalls.slot).Pairwise (· < ·)
  inRange : ∀ f ∈ current, w.slotStart ≤ f.slot
  inBucket : ∀ f ∈ current, ∀ first, w.bucketFirstSlot = some first →
    w.bucketId f.slot = w.bucketId first
  hash : w.lastBlockhash = chain Hash.default (storedFrames buckets ++ current)
  anchor : current ≠ [] → w.bucketPohAnchor = chain Hash.default (storedFrames buckets)
  anchored : Anchored Hash.default buckets
  spaced : Spaced w.slotStart w.config.bucketSlots buckets
  ahead : ∀ f ∈ current,
    w.slotStart.toNat + buckets.length * w.config.bucketSlots.toNat ≤ f.slot.toNat

section Steps

variable {env : Env} {fileHeader : Bytes} {buckets : List Bucket} {current : List SlotCalls}
  {w : ArchiveWriter}

theorem bucketId_toNat {slot : UInt64} (hstart : w.slotStart ≤ slot) :
    (w.bucketId slot).toNat = (slot.toNat - w.slotStart.toNat) / w.config.bucketSlots.toNat := by
  simp [ArchiveWriter.bucketId,UInt64.toNat_div,UInt64.toNat_sub_of_le _ _ hstart]

theorem UInt16.toNat_pos_of_ne {n : UInt16} (h : n ≠ 0) : 0 < n.toNat := by
  rcases Nat.eq_zero_or_pos n.toNat with hzero | hpos
  · exact absurd (UInt16.toNat_inj.mp hzero) h
  · exact hpos

theorem bucketId_window {slot : UInt64} (hstart : w.slotStart ≤ slot)
    (hpos : w.config.bucketSlots ≠ 0) :
    let low := w.slotStart.toNat + (w.bucketId slot).toNat * w.config.bucketSlots.toNat
    low ≤ slot.toNat ∧ slot.toNat < low + w.config.bucketSlots.toNat := by
  have hid := bucketId_toNat hstart
  have hle : w.slotStart.toNat ≤ slot.toNat := UInt64.le_iff_toNat_le.mp hstart
  have hbs := UInt16.toNat_pos_of_ne hpos
  have hdiv := Nat.div_add_mod (slot.toNat - w.slotStart.toNat) w.config.bucketSlots.toNat
  have hmod := Nat.mod_lt (slot.toNat - w.slotStart.toNat) hbs
  rw [hid,Nat.mul_comm]
  constructor <;> omega

theorem Layout.none_iff (h : Layout env fileHeader buckets current w) :
    w.bucketFirstSlot = none ↔ current = [] := by
  rw [h.first,Option.map_eq_none_iff,List.head?_eq_none_iff]

theorem nodup_slots {frames : List SlotCalls} (h : (frames.map SlotCalls.slot).Pairwise (· < ·)) :
    (frames.map fun f => f.slot.toNat).Nodup := by
  rw [List.pairwise_map] at h
  rw [List.Nodup,List.pairwise_map]
  exact h.imp fun hlt heq => absurd (UInt64.lt_iff_toNat_lt.mp hlt) (by omega)

theorem Layout.current_length (h : Layout env fileHeader buckets current w) :
    current.length < 2 ^ 32 := by
  cases hfirst : w.bucketFirstSlot with
  | none =>
    rw [h.none_iff.mp hfirst]
    decide
  | some first =>
    have hslots : (current.map fun f => f.slot.toNat).Nodup :=
      nodup_slots (List.pairwise_append.mp (by simpa using h.increasing)).2.1
    have hsub : (current.map fun f => f.slot.toNat) ⊆
        List.range' (w.slotStart.toNat + (w.bucketId first).toNat * w.config.bucketSlots.toNat)
          w.config.bucketSlots.toNat := by
      intro n hn
      obtain ⟨f,hf,rfl⟩ := List.mem_map.mp hn
      have hwin := bucketId_window (h.inRange f hf) h.bucketSlots
      rw [h.inBucket f hf first hfirst] at hwin
      rw [List.mem_range'_1]
      exact hwin
    have hle := (List.subperm_of_subset hslots hsub).length_le
    simp only [List.length_map,List.length_range'] at hle
    have := w.config.bucketSlots.toNat_lt
    omega

theorem ArchiveWriter.enterBucket_eq (w : ArchiveWriter) (slot : UInt64) :
    w.enterBucket slot = { w with
      bucketFirstSlot := some (w.bucketFirstSlot.getD slot)
      bucketPohAnchor := w.bucketFirstSlot.elim w.lastBlockhash fun _ => w.bucketPohAnchor
      lastSlot := some slot } := by
  unfold enterBucket
  cases hfirst : w.bucketFirstSlot <;> rfl

theorem Layout.append {f : SlotCalls} {bytes : Bytes} {enc : EncoderContext} {staging : Staging}
    {stats : ArchiveStats} (h : Layout env fileHeader buckets current w)
    (hstart : w.slotStart ≤ f.slot) (hstop : f.slot < w.slotEnd)
    (hlast : ∀ last, w.lastSlot = some last → last < f.slot)
    (hbucket : ∀ first, w.bucketFirstSlot = some first → w.bucketId first = w.bucketId f.slot)
    (hahead : w.slotStart.toNat + buckets.length * w.config.bucketSlots.toNat ≤ f.slot.toNat)
    (henc : encodeCalls env f w.enc = .ok (bytes,enc))
    (hfits : (w.bucketBuf ++ bytes).length < 2 ^ 63) :
    Layout env fileHeader buckets (current ++ [f])
      ((w.enterBucket f.slot).appended bytes enc (f.chained w.lastBlockhash) staging stats) := by
  have hfirst : w.bucketFirstSlot.getD f.slot = ((current ++ [f]).head (by simp)).slot := by
    rw [h.first]
    cases current <;> rfl
  rw [ArchiveWriter.enterBucket_eq]
  refine {
    bucketSlots := h.bucketSlots, idle := rfl, sink := h.sink, small := h.small
    offset := h.offset, index := h.index, held := h.held, anchored := h.anchored
    spaced := h.spaced, ahead := ?ahead
    fits := hfits, payload := ?payload, count := ?count, first := ?first, below := ?below
    ended := ?ended, increasing := ?increasing, inRange := ?inRange, inBucket := ?inBucket,
      hash := ?hash
    anchor := ?anchor }
  case ahead =>
    intro g hg
    rcases List.mem_append.mp hg with hg | hg
    · exact h.ahead g hg
    · rw [List.mem_singleton.mp hg]
      exact hahead
  case payload =>
    rw [Put.each,List.map_append]
    refine Put.all_append_ok.mpr ⟨w.bucketBuf,w.enc,bytes,h.payload,?_,rfl⟩
    exact Put.all_cons_ok.mpr ⟨bytes,enc,[],henc,rfl,by simp⟩
  case count =>
    simp only [ArchiveWriter.appended,h.count,List.length_append,List.length_singleton,
      UInt32.ofNat_add]
    rfl
  case first =>
    simp only [ArchiveWriter.appended,hfirst]
    rw [List.head?_eq_some_head (by simp),Option.map_some]
  case below =>
    intro g hg
    refine ⟨f.slot,rfl,?_⟩
    rw [← List.append_assoc,List.mem_append,List.mem_singleton] at hg
    rcases hg with hg | rfl
    · obtain ⟨last,hsome,hle⟩ := h.below g hg
      exact UInt64.le_of_lt (UInt64.lt_of_le_of_lt hle (hlast last hsome))
    · exact UInt64.le_refl _
  case ended =>
    intro last hsome
    cases hsome
    exact hstop
  case increasing =>
    rw [← List.append_assoc,List.map_append,List.pairwise_append]
    refine ⟨h.increasing,by simp,?_⟩
    intro slot hslot slot' hslot'
    obtain ⟨g,hg,rfl⟩ := List.mem_map.mp hslot
    obtain ⟨last,hsome,hle⟩ := h.below g hg
    simp only [List.map_cons,List.map_nil,List.mem_singleton] at hslot'
    rw [hslot']
    exact UInt64.lt_of_le_of_lt hle (hlast last hsome)
  case inRange =>
    intro g hg
    rcases List.mem_append.mp hg with hg | hg
    · exact h.inRange g hg
    · rw [List.mem_singleton.mp hg]
      exact hstart
  case inBucket =>
    intro g hg first hsome
    have hsome' : w.bucketFirstSlot.getD f.slot = first := Option.some.inj hsome
    change w.bucketId g.slot = w.bucketId first
    cases hw : w.bucketFirstSlot with
    | none =>
      rw [hw] at hsome'
      rw [h.none_iff.mp hw,List.nil_append,List.mem_singleton] at hg
      rw [hg,← hsome',Option.getD_none]
    | some first0 =>
      rw [hw,Option.getD_some] at hsome'
      rw [← hsome']
      rcases List.mem_append.mp hg with hg | hg
      · exact h.inBucket g hg first0 hw
      · rw [List.mem_singleton.mp hg]
        exact (hbucket first0 hw).symm
  case hash =>
    simp only [ArchiveWriter.appended,h.hash,← List.append_assoc,chain_append _ _ [f]]
    rfl
  case anchor =>
    intro _
    cases hw : w.bucketFirstSlot with
    | none =>
      simp only [ArchiveWriter.appended,Option.elim_none,h.hash,h.none_iff.mp hw,List.append_nil]
    | some first0 =>
      refine h.anchor fun hnil => ?_
      rw [h.none_iff.mpr hnil] at hw
      cases hw

theorem lenU64_append (xs ys : Bytes) : lenU64 (xs ++ ys) = lenU64 xs + lenU64 ys := by
  simp [lenU64,UInt64.ofNat_add]

section

variable (h : Layout env fileHeader buckets current w)
include h

theorem Layout.flush {w0 : ArchiveWriter} {firstSlot : UInt64}
    (hfirst : w.bucketFirstSlot = some firstSlot)
    (hflush : w.flushBucket env = .ok w0) :
    ∃ b : Bucket, b.frames = current ∧ Layout env fileHeader (buckets ++ [b]) [] w0 := by
  obtain ⟨raw,stats,hraw,hlen,rfl⟩ := ArchiveWriter.flushBucket_ok hfirst hflush
  have hne : current ≠ [] := by
    intro hnil
    rw [h.none_iff.mpr hnil] at hfirst
    cases hfirst
  rw [h.count] at hraw
  have hholds : Bucket.Holds env w.config ⟨firstSlot,w.bucketPohAnchor,current,raw⟩ :=
    ⟨h.current_length,hne,h.first.symm.trans hfirst,w.bucketBuf,w.enc,h.fits,h.payload,hraw⟩
  have hoffset : fileHeader.length + (storedBytes buckets).length = w.sink.length := by
    rw [h.sink,List.length_append]
  refine ⟨⟨firstSlot,w.bucketPohAnchor,current,raw⟩,rfl,{
    bucketSlots := h.bucketSlots, idle := h.idle, small := hlen, payload := rfl
    fits := Nat.two_pow_pos 63
    count := rfl, first := rfl, inRange := by simp, inBucket := by simp
    anchor := fun hnil => absurd rfl hnil, anchored := h.anchored.concat (h.anchor hne)
    spaced := h.spaced.concat h.ahead, ahead := by simp
    ended := h.ended
    sink := ?sink, offset := ?offset, index := ?index, held := ?held, below := ?below
    increasing := ?increasing, hash := ?hash }⟩
  case sink => simp only [ArchiveWriter.flushed,h.sink,storedBytes_concat,List.append_assoc]
  case offset => simp only [ArchiveWriter.flushed,h.offset,lenU64_append]
  case index =>
    simp only [ArchiveWriter.flushed,h.index,h.offset,bucketIndex_append_cons,hoffset]
    rfl
  case held =>
    intro b hb
    rcases List.mem_append.mp hb with hb | hb
    · exact h.held b hb
    · rw [List.mem_singleton.mp hb]
      exact hholds
  case below =>
    rw [storedFrames_concat,List.append_nil]
    exact h.below
  case increasing =>
    rw [storedFrames_concat,List.append_nil]
    exact h.increasing
  case hash =>
    rw [storedFrames_concat,List.append_nil]
    exact h.hash

theorem Layout.ahead_of_ne {first slot : UInt64}
    (hfirst : w.bucketFirstSlot = some first) (hlt : first < slot)
    (hne : w.bucketId first ≠ w.bucketId slot) :
    w.slotStart.toNat + (buckets.length + 1) * w.config.bucketSlots.toNat ≤ slot.toNat := by
  rw [h.first] at hfirst
  obtain ⟨g,hg,rfl⟩ := Option.map_eq_some_iff.mp hfirst
  have hmem : g ∈ current := List.mem_of_mem_head? (by rw [hg]; exact rfl)
  have hstart := h.inRange g hmem
  have hbs := UInt16.toNat_pos_of_ne h.bucketSlots
  have hlt' := UInt64.lt_iff_toNat_lt.mp hlt
  have hstart' := UInt64.le_iff_toNat_le.mp hstart
  have hid : (g.slot.toNat - w.slotStart.toNat) / w.config.bucketSlots.toNat ≠
      (slot.toNat - w.slotStart.toNat) / w.config.bucketSlots.toNat := by
    rw [← bucketId_toNat hstart,← bucketId_toNat
      (UInt64.le_of_lt (UInt64.lt_of_le_of_lt hstart hlt))]
    exact fun heq => hne (UInt64.toNat_inj.mp heq)
  have hplace : buckets.length ≤ (g.slot.toNat - w.slotStart.toNat) /
      w.config.bucketSlots.toNat := by
    rw [Nat.le_div_iff_mul_le hbs]
    have := h.ahead g hmem
    omega
  have hmono : (g.slot.toNat - w.slotStart.toNat) / w.config.bucketSlots.toNat ≤
      (slot.toNat - w.slotStart.toNat) / w.config.bucketSlots.toNat :=
    Nat.div_le_div_right (by omega)
  have hnext : buckets.length + 1 ≤
      (slot.toNat - w.slotStart.toNat) / w.config.bucketSlots.toNat := by omega
  rw [Nat.le_div_iff_mul_le hbs] at hnext
  omega

theorem Layout.step {w' : ArchiveWriter} {f : SlotCalls}
    (hbegun : current = [] → buckets = []) (hwrite : w.writeCalls env f = .ok w') :
    ∃ buckets' current', Layout env fileHeader buckets' current' w' ∧ current' ≠ [] ∧
      (w'.slotStart = w.slotStart ∧ w'.config = w.config) ∧
      storedFrames buckets' ++ current' = storedFrames buckets ++ current ++ [f] := by
  obtain ⟨w1,bytes,enc,staging,stats,hcheck,henc,hfits,rfl⟩ :=
    ArchiveWriter.writeCalls_ok hwrite
  have hkeep (v : ArchiveWriter) : (v.enterBucket f.slot).enc = v.enc ∧
      (v.enterBucket f.slot).lastBlockhash = v.lastBlockhash ∧
      (v.enterBucket f.slot).bucketBuf = v.bucketBuf := by
    rw [ArchiveWriter.enterBucket_eq]
    exact ⟨rfl,rfl,rfl⟩
  obtain ⟨⟨hstart,hstop,hlast⟩,hways⟩ := ArchiveWriter.checkSlot_ok hcheck
  have hbehind (first : UInt64) (hfirst : w.bucketFirstSlot = some first) :
      ∃ g ∈ current, g.slot = first ∧ first < f.slot := by
    rw [h.first] at hfirst
    obtain ⟨g,hg,hslot⟩ := Option.map_eq_some_iff.mp hfirst
    have hmem : g ∈ current := List.mem_of_mem_head? (by rw [hg]; exact rfl)
    obtain ⟨last,hsome,hle⟩ := h.below g (List.mem_append_right _ hmem)
    exact ⟨g,hmem,hslot,hslot ▸ UInt64.lt_of_le_of_lt hle (hlast last hsome)⟩
  rcases hways with ⟨hnone,rfl⟩ | ⟨first,hfirst,⟨hid,rfl⟩ | ⟨w0,hid,hflush,rfl⟩⟩
  · rw [(hkeep w).1] at henc
    rw [(hkeep w).2.2] at hfits
    rw [(hkeep w).2.1]
    refine ⟨buckets,current ++ [f],h.append hstart hstop hlast ?_ ?_ henc hfits,by simp,
      by rw [ArchiveWriter.enterBucket_eq]; exact ⟨rfl,rfl⟩,by simp⟩
    · intro first hsome
      rw [hnone] at hsome
      cases hsome
    · rw [hbegun (h.none_iff.mp hnone),List.length_nil,Nat.zero_mul]
      exact UInt64.le_iff_toNat_le.mp hstart
  · rw [(hkeep w).1] at henc
    rw [(hkeep w).2.2] at hfits
    rw [(hkeep w).2.1]
    refine ⟨buckets,current ++ [f],h.append hstart hstop hlast ?_ ?_ henc hfits,by simp,
      by rw [ArchiveWriter.enterBucket_eq]; exact ⟨rfl,rfl⟩,by simp⟩
    · intro first' hsome
      rw [hfirst] at hsome
      cases hsome
      exact hid
    · obtain ⟨g,hmem,rfl,hlt⟩ := hbehind first hfirst
      exact Nat.le_trans (h.ahead g hmem) (Nat.le_of_lt (UInt64.lt_iff_toNat_lt.mp hlt))
  · obtain ⟨b,hb,h0⟩ := h.flush hfirst hflush
    obtain ⟨raw,stats0,-,-,rfl⟩ := ArchiveWriter.flushBucket_ok hfirst hflush
    rw [(hkeep _).1] at henc
    rw [(hkeep _).2.2] at hfits
    rw [(hkeep _).2.1]
    refine ⟨buckets ++ [b],[f],h0.append hstart hstop hlast ?_ ?_ henc hfits,by simp,
      by rw [ArchiveWriter.enterBucket_eq]; exact ⟨rfl,rfl⟩,by simp [hb]⟩
    · intro first' hsome
      cases hsome
    · obtain ⟨-,-,-,hlt⟩ := hbehind first hfirst
      rw [List.length_append,List.length_singleton]
      exact h.ahead_of_ne hfirst hlt hid

theorem Layout.run {w' : ArchiveWriter} {frames : List SlotCalls}
    (hbegun : current = [] → buckets = [])
    (hrun : frames.foldlM (ArchiveWriter.writeCalls env) w = .ok w') :
    ∃ buckets' current', Layout env fileHeader buckets' current' w' ∧
      (w'.slotStart = w.slotStart ∧ w'.config = w.config) ∧
      storedFrames buckets' ++ current' = storedFrames buckets ++ current ++ frames := by
  induction frames generalizing w buckets current with
  | nil =>
    cases hrun
    exact ⟨buckets,current,h,⟨rfl,rfl⟩,by simp⟩
  | cons f rest ih =>
    rw [List.foldlM_cons] at hrun
    obtain ⟨middle,hstep,hrest⟩ := bind_ok hrun
    obtain ⟨buckets1,current1,h1,hopen,⟨hstart1,hconfig1⟩,heq1⟩ := h.step hbegun hstep
    obtain ⟨buckets2,current2,h2,⟨hstart2,hconfig2⟩,heq2⟩ :=
      ih h1 (fun hnil => absurd hnil hopen) hrest
    exact ⟨buckets2,current2,h2,⟨hstart2.trans hstart1,hconfig2.trans hconfig1⟩,
      by rw [heq2,heq1]; simp⟩

end

end Steps

def newHeader (env : Env) (nowMs epoch slotStart slotCount : UInt64)
    (config : ArchiveWriterConfig) : FileHeader :=
  ⟨formatVersion,config.bucketSlots,epoch,slotStart,slotCount,primeTableId env,0,
    ⟨nowMs,writerVersion,[]⟩⟩

def fileHeaderBytes (header : FileHeader) : Except Failure Bytes := do
  let headerBytes ← toBytes (encodeFileHeader header)
  let lenPrefix ← toBytes (encodeLen headerBytes.length)
  return magic ++ lenPrefix ++ headerBytes

def indexBytes (index : List BucketIndexEntry) : Except Failure Bytes :=
  toBytes (Put.all [encodeLen index.length,Put.each encodeBucketIndexEntry index])

theorem ArchiveWriter.finish_of_ok {env : Env} {w : ArchiveWriter} {firstSlot : UInt64}
    {raw index : Bytes} (hidle : w.staging.slot = none)
    (hfirst : w.bucketFirstSlot = some firstSlot)
    (hraw : bucketBytes env w.config firstSlot w.bucketSlotCount w.bucketPohAnchor w.bucketBuf =
      .ok raw)
    (hindex : indexBytes (w.index ++ [⟨firstSlot,w.fileOffset,lenU64 raw⟩]) = .ok index)
    (hsmall : (w.sink ++ raw ++ index).length + footerLen < 2 ^ 63) :
    ∃ file stats, w.finish env = .ok (file,stats) := by
  have hlen : (w.sink ++ raw ++ index).length = (w.sink ++ raw).length + index.length :=
    List.length_append
  have hflush : writeAll w.sink raw = .ok (w.sink ++ raw) := if_pos (by omega)
  have hwrite : writeAll (w.sink ++ raw) index = .ok (w.sink ++ raw ++ index) := if_pos (by omega)
  have hfooter (f : Footer) : writeAll (w.sink ++ raw ++ index) f.toBytes =
      .ok (w.sink ++ raw ++ index ++ f.toBytes) := by
    refine if_pos ?_
    rw [List.length_append,f.toBytes_length]
    exact hsmall
  simp only [indexBytes] at hindex
  simp only [finish,hidle,flushBucket,hfirst,hraw,hflush,ok_bind,pure,Except.pure,
    Option.isSome_none,Bool.false_eq_true,if_false,hindex,hwrite,hfooter]
  exact ⟨_,_,rfl⟩

structure ArchiveFile (env : Env) (header : FileHeader) (config : ArchiveWriterConfig)
    (buckets : List Bucket) (file : Bytes) : Prop where
  bucketSlots : header.bucketSlots ≠ 0
  held : ∀ b ∈ buckets, b.Holds env config
  increasing : ((storedFrames buckets).map SlotCalls.slot).Pairwise (· < ·)
  ended : ∃ stop, ∀ f ∈ storedFrames buckets, f.slot < stop
  anchored : Anchored Hash.default buckets
  spaced : Spaced header.slotStart header.bucketSlots buckets
  small : file.length < 2 ^ 63
  parts : ∃ front index, fileHeaderBytes header = .ok front ∧
    indexBytes (bucketIndex front.length buckets) = .ok index ∧
    file = front ++ storedBytes buckets ++ index ++ Footer.toBytes
      ⟨lenU64 (front ++ storedBytes buckets),lenU64 index,UInt64.ofNat buckets.length,
        env.xxh64 index⟩

section Files

variable {env : Env} {fileHeader : Bytes} {buckets : List Bucket} {current : List SlotCalls}
  {w : ArchiveWriter}

theorem layout_new {nowMs epoch slotStart slotCount : UInt64} {config : ArchiveWriterConfig}
    (h : ArchiveWriter.new env nowMs epoch slotStart slotCount config = .ok w) :
    ∃ front, fileHeaderBytes (newHeader env nowMs epoch slotStart slotCount config) = .ok front ∧
      w.slotStart = slotStart ∧ w.config = config ∧ Layout env front [] [] w := by
  unfold ArchiveWriter.new at h
  split at h
  · cases h
  · rename_i hslots
    obtain ⟨headerBytes,hheader,h⟩ := bind_ok h
    obtain ⟨lenPrefix,hlen,h⟩ := bind_ok h
    obtain ⟨sink,hsink,h⟩ := bind_ok h
    obtain ⟨rfl,hsmall⟩ := writeAll_ok hsink
    cases h
    refine ⟨magic ++ lenPrefix ++ headerBytes,?_,rfl,rfl,{
      bucketSlots := ?slots, idle := rfl, sink := by simp [storedBytes], small := hsmall
      offset := rfl, index := rfl, held := by simp, payload := rfl, fits := Nat.two_pow_pos 63
      count := rfl, first := rfl, below := by simp [storedFrames]
      ended := by simp, increasing := by simp [storedFrames], inRange := by simp
      inBucket := by simp, hash := rfl, anchor := fun hnil => absurd rfl hnil
      anchored := trivial, spaced := by simp [Spaced], ahead := by simp }⟩
    · simp only [fileHeaderBytes,newHeader,hheader,hlen,ok_bind]
      rfl
    case slots =>
      intro hzero
      change config.bucketSlots = 0 at hzero
      exact hslots (by rw [hzero]; decide)

theorem Layout.close {header : FileHeader} {file index sink : Bytes}
    (h : Layout env fileHeader buckets [] w) (hstart : header.slotStart = w.slotStart)
    (hconfig : header.bucketSlots = w.config.bucketSlots)
    (hheader : fileHeaderBytes header = .ok fileHeader)
    (hindex : indexBytes w.index = .ok index) (hsink : writeAll w.sink index = .ok sink)
    (hfile : writeAll sink (Footer.toBytes ⟨w.fileOffset,lenU64 index,
      UInt64.ofNat w.index.length,env.xxh64 index⟩) = .ok file) :
    ArchiveFile env header w.config buckets file := by
  obtain ⟨rfl,-⟩ := writeAll_ok hsink
  obtain ⟨rfl,hsmall⟩ := writeAll_ok hfile
  have hinc := h.increasing
  rw [List.append_nil] at hinc
  have hended : ∀ f ∈ storedFrames buckets, f.slot < w.slotEnd := by
    intro f hf
    obtain ⟨last,hlast,hle⟩ := h.below f (List.mem_append_left _ hf)
    exact UInt64.lt_of_le_of_lt hle (h.ended last hlast)
  refine ⟨hconfig ▸ h.bucketSlots,h.held,hinc,⟨_,hended⟩,h.anchored,?_,hsmall,fileHeader,index,
    hheader,
    by rw [← h.index,hindex],?_⟩
  · rw [hstart,hconfig]
    exact h.spaced
  rw [h.index,bucketIndex_length,h.offset,h.sink]

theorem Layout.finish {header : FileHeader} {file : Bytes} {stats : ArchiveStats}
    (h : Layout env fileHeader buckets current w) (hstart : header.slotStart = w.slotStart)
    (hconfig : header.bucketSlots = w.config.bucketSlots)
    (hheader : fileHeaderBytes header = .ok fileHeader)
    (hfinish : w.finish env = .ok (file,stats)) :
    ∃ buckets', ArchiveFile env header w.config buckets' file ∧
      storedFrames buckets' = storedFrames buckets ++ current := by
  unfold ArchiveWriter.finish at hfinish
  split at hfinish
  · cases hfinish
  · obtain ⟨w0,hflush,hfinish⟩ := bind_ok hfinish
    obtain ⟨index,hindex,hfinish⟩ := bind_ok hfinish
    obtain ⟨sink,hsink,hfinish⟩ := bind_ok hfinish
    obtain ⟨out,hout,hfinish⟩ := bind_ok hfinish
    cases hfinish
    cases hfirst : w.bucketFirstSlot with
    | none =>
      simp only [ArchiveWriter.flushBucket,hfirst] at hflush
      cases hflush
      have hnil := h.none_iff.mp hfirst
      subst hnil
      exact ⟨buckets,h.close hstart hconfig hheader hindex hsink hout,by simp⟩
    | some first =>
      obtain ⟨b,hb,h0⟩ := h.flush hfirst hflush
      obtain ⟨hstart0,hconfig0⟩ : w0.slotStart = w.slotStart ∧ w0.config = w.config := by
        obtain ⟨raw,stats0,-,-,rfl⟩ := ArchiveWriter.flushBucket_ok hfirst hflush
        exact ⟨rfl,rfl⟩
      rw [← hconfig0]
      refine ⟨buckets ++ [b],h0.close ?_ ?_ hheader hindex hsink hout,by simp [hb]⟩
      · rw [hstart,hstart0]
      · rw [hconfig,hconfig0]

def writeSlots (env : Env) (nowMs epoch slotStart slotCount : UInt64)
    (config : ArchiveWriterConfig) (slots : List SlotCalls) :
    Except Failure (Bytes × ArchiveStats) := do
  let w ← ArchiveWriter.new env nowMs epoch slotStart slotCount config
  let w ← slots.foldlM (ArchiveWriter.writeCalls env) w
  w.finish env

def writeArchive (env : Env) (nowMs epoch slotStart slotCount : UInt64)
    (config : ArchiveWriterConfig) (frames : List Frame) :
    Except Failure (Bytes × ArchiveStats) := do
  let w ← ArchiveWriter.new env nowMs epoch slotStart slotCount config
  let w ← frames.foldlM (ArchiveWriter.writeFrame env) w
  w.finish env

theorem writeArchive_eq (env : Env) (nowMs epoch slotStart slotCount : UInt64)
    (config : ArchiveWriterConfig) (frames : List Frame) :
    writeArchive env nowMs epoch slotStart slotCount config frames =
      writeSlots env nowMs epoch slotStart slotCount config (frames.map Frame.toCalls) := by
  have hstep : ArchiveWriter.writeFrame env =
      fun w f => ArchiveWriter.writeCalls env w (Frame.toCalls f) := by
    funext w f
    exact ArchiveWriter.writeFrame_eq env w f
  simp only [writeArchive,writeSlots,List.foldlM_map,hstep]

theorem writeSlots_file {nowMs epoch slotStart slotCount : UInt64}
    {config : ArchiveWriterConfig} {slots : List SlotCalls} {file : Bytes} {stats : ArchiveStats}
    (h : writeSlots env nowMs epoch slotStart slotCount config slots = .ok (file,stats)) :
    ∃ buckets config', ArchiveFile env
      (newHeader env nowMs epoch slotStart slotCount config) config'
      buckets file ∧ storedFrames buckets = slots := by
  obtain ⟨w,hnew,h⟩ := bind_ok h
  obtain ⟨w',hrun,h⟩ := bind_ok h
  obtain ⟨front,hheader,hstart,hconfig,hnew⟩ := layout_new hnew
  obtain ⟨buckets,current,hlayout,⟨hstart',hconfig'⟩,heq⟩ := hnew.run (fun _ => rfl) hrun
  obtain ⟨buckets',hfile,hframes⟩ := hlayout.finish (hstart'.trans hstart).symm
    (congrArg ArchiveWriterConfig.bucketSlots (hconfig'.trans hconfig)).symm hheader h
  exact ⟨buckets',w'.config,hfile,by rw [hframes,heq]; rfl⟩

end Files

end Jetstreamer.Archive
