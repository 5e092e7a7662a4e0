import Jetstreamer.Ggjet.Soundness
import Jetstreamer.Lib.Chained
import Jetstreamer.Archive.Layout
set_option autoImplicit false

namespace Jetstreamer.Ggjet
open Lib Lencode Horizon Archive

structure CheckpointBucket where
  accounts : List (Option CheckpointAccount)
  raw : Bytes

/-- The section holds the records of its accounts, of which `first` came before it. -/
structure CheckpointBucket.Holds (env : GgjetEnv) (config : GgjetWriterConfig) (first : Nat)
    (b : CheckpointBucket) : Prop where
  nonempty : b.accounts ≠ []
  counted : b.accounts.length ≤ config.checkpointBucketAccounts.toNat
  written : ∃ payload, payload.length < 2 ^ 63 ∧
    Put.each encodeCheckpointAccount b.accounts () = .ok (payload,()) ∧
    writeBlob env (UInt64.ofNat first) (UInt32.ofNat b.accounts.length) payload config.compression
      config.zstdLevel = .ok b.raw

def encodeFrame (env : GgjetEnv) (manifest : AccountManifest) (f : SlotFrame) :
    Put GgjetFailure EncoderContext :=
  encodeSlot env manifest f.slot f.updates

structure UpdateBucket where
  frames : List SlotFrame
  raw : Bytes

/-- The bucket holds its frames, whose slots go on from `first`. -/
structure UpdateBucket.Holds (env : GgjetEnv) (config : GgjetWriterConfig)
    (manifest : AccountManifest) (first : Nat) (b : UpdateBucket) : Prop where
  nonempty : b.frames ≠ []
  counted : b.frames.length < 2 ^ 32
  slots : b.frames.map (·.slot.toNat) = List.range' first b.frames.length
  increasing : ∀ f ∈ b.frames, (f.updates.map (·.writeVersion)).Pairwise (· < ·)
  written : ∃ payload enc, payload.length < 2 ^ 63 ∧
    Put.each (encodeFrame env manifest) b.frames env.toEnv.newEncoderContext = .ok (payload,enc) ∧
    writeBlob env (UInt64.ofNat first) (UInt32.ofNat b.frames.length) payload config.compression
      config.zstdLevel = .ok b.raw

def storedAccounts (sections : List CheckpointBucket) : List (Option CheckpointAccount) :=
  sections.flatMap (·.accounts)

def storedSections (sections : List CheckpointBucket) : Bytes := sections.flatMap (·.raw)

def storedFrames (buckets : List UpdateBucket) : List SlotFrame := buckets.flatMap (·.frames)

def storedBuckets (buckets : List UpdateBucket) : Bytes := buckets.flatMap (·.raw)

def updateIndex (offset first : Nat) : List UpdateBucket → List GgjetBucketIndexEntry
  | [] => []
  | b :: rest => ⟨UInt64.ofNat first,UInt32.ofNat b.frames.length,
    UInt64.ofNat (updateTotal b.frames),
      UInt64.ofNat offset,lenU64 b.raw⟩ ::
        updateIndex (offset + b.raw.length) (first + b.frames.length) rest

@[simp] theorem storedAccounts_concat (sections : List CheckpointBucket) (b : CheckpointBucket) :
    storedAccounts (sections ++ [b]) = storedAccounts sections ++ b.accounts := by
  simp [storedAccounts]

@[simp] theorem storedSections_concat (sections : List CheckpointBucket) (b : CheckpointBucket) :
    storedSections (sections ++ [b]) = storedSections sections ++ b.raw := by simp [storedSections]

@[simp] theorem storedFrames_concat (buckets : List UpdateBucket) (b : UpdateBucket) :
    storedFrames (buckets ++ [b]) = storedFrames buckets ++ b.frames := by simp [storedFrames]

@[simp] theorem storedBuckets_concat (buckets : List UpdateBucket) (b : UpdateBucket) :
    storedBuckets (buckets ++ [b]) = storedBuckets buckets ++ b.raw := by simp [storedBuckets]

theorem length_storedAccounts (sections : List CheckpointBucket) :
    (storedAccounts sections).length = (sections.map (·.accounts.length)).sum := by
  rw [storedAccounts,List.length_flatMap]

theorem length_storedFrames (buckets : List UpdateBucket) :
    (storedFrames buckets).length = (buckets.map (·.frames.length)).sum := by
  rw [storedFrames,List.length_flatMap]

theorem updateIndex_concat (offset first : Nat) (buckets : List UpdateBucket) (b : UpdateBucket) :
    updateIndex offset first (buckets ++ [b]) = updateIndex offset first buckets ++
      [⟨UInt64.ofNat (first + (storedFrames buckets).length),UInt32.ofNat b.frames.length,
        UInt64.ofNat (updateTotal b.frames),UInt64.ofNat (offset + (storedBuckets buckets).length),
        lenU64 b.raw⟩] := by
  induction buckets generalizing offset first with
  | nil => simp [updateIndex,storedFrames,storedBuckets]
  | cons c rest ih =>
    simp only [List.cons_append,updateIndex,ih,storedFrames,storedBuckets,List.flatMap_cons,
      List.length_append,Nat.add_assoc]

theorem updateIndex_length (offset first : Nat) (buckets : List UpdateBucket) :
    (updateIndex offset first buckets).length = buckets.length := by
  induction buckets generalizing offset first with
  | nil => rfl
  | cons b rest ih => rw [updateIndex,List.length_cons,ih,List.length_cons]

structure CheckpointBuffer (env : GgjetEnv) (config : GgjetWriterConfig) (buf : Bytes)
    (bucketFirst : UInt64) (bucketCount : UInt32) (total : UInt64)
    (sections : List CheckpointBucket) (pending : List (Option CheckpointAccount)) : Prop where
  held : Chained (fun n b => CheckpointBucket.Holds env config n b) (·.accounts.length) 0 sections
  payload : Put.each encodeCheckpointAccount pending () = .ok (buf,())
  fits : buf.length < 2 ^ 63
  first : bucketFirst = UInt64.ofNat (storedAccounts sections).length
  count : bucketCount.toNat = pending.length
  counted : pending.length ≤ config.checkpointBucketAccounts.toNat
  total : total.toNat = (storedAccounts sections ++ pending).length

structure UpdateBuffer (env : GgjetEnv) (config : GgjetWriterConfig) (manifest : AccountManifest)
    (start offset : Nat) (buf : Bytes) (enc : EncoderContext) (firstSlot : Option UInt64)
    (slotCount : UInt32) (updateCount : UInt64) (index : List GgjetBucketIndexEntry)
    (slots : UInt64)
    (buckets : List UpdateBucket) (current : List SlotFrame) : Prop where
  held : Chained (fun n b => UpdateBucket.Holds env config manifest n b)
    (·.frames.length) start buckets
  index : index = updateIndex offset start buckets
  indexFits : 40 * buckets.length < 2 ^ 63
  payload : Put.each (encodeFrame env manifest) current env.toEnv.newEncoderContext = .ok (buf,enc)
  fits : buf.length < 2 ^ 63
  firstSlot : firstSlot = current.head?.map (·.slot)
  slotCount : slotCount = UInt32.ofNat current.length
  updateCount : updateCount = UInt64.ofNat (updateTotal current)
  slots : slots.toNat = (storedFrames buckets ++ current).length
  numbers : current.map (·.slot.toNat) =
    List.range' (start + (storedFrames buckets).length) current.length
  increasing : ∀ f ∈ current, (f.updates.map (·.writeVersion)).Pairwise (· < ·)

def GgjetWriter.CheckpointState (env : GgjetEnv) (w : GgjetWriter) :
    List CheckpointBucket → List (Option CheckpointAccount) → Prop :=
  CheckpointBuffer env w.config w.checkpointBuf w.checkpointBucketFirst w.checkpointBucketCount
    w.stats.checkpointAccounts

def GgjetWriter.UpdateState (env : GgjetEnv) (w : GgjetWriter) (offset : Nat) :
    List UpdateBucket → List SlotFrame → Prop :=
  UpdateBuffer env w.config w.manifest w.header.updateStartSlot.toNat offset w.bucketBuf w.enc
    w.bucketFirstSlot w.bucketSlotCount w.bucketUpdateCount w.index w.stats.slots

/-- What has been written of the checkpoint: it is still open and nothing follows, or its end has
been written too. -/
def GgjetWriter.Phase (env : GgjetEnv) (w : GgjetWriter) (sections : List CheckpointBucket)
    (pending : List (Option CheckpointAccount)) (terminator : Bytes) (buckets : List UpdateBucket)
    (current : List SlotFrame) : Prop :=
  (w.checkpointFinished = false ∧ terminator = [] ∧ buckets = [] ∧ current = []) ∨
    (w.checkpointFinished = true ∧ pending = [] ∧
      (storedAccounts sections).length = w.manifest.accounts.length ∧
      writeBlob env w.header.accountCount 0 [] .none w.config.zstdLevel = .ok terminator)

structure Layout (env : GgjetEnv) (header : GgjetHeader) (manifest : AccountManifest)
    (config : GgjetWriterConfig) (front : Bytes) (sections : List CheckpointBucket)
    (pending : List (Option CheckpointAccount)) (terminator : Bytes) (buckets : List UpdateBucket)
    (current : List SlotFrame) (w : GgjetWriter) : Prop where
  same : w.header = header ∧ w.manifest = manifest ∧ w.config = config
  sink : w.sink = front ++ storedSections sections ++ terminator ++ storedBuckets buckets
  small : w.sink.length < 2 ^ 63
  offset : w.fileOffset = lenU64 w.sink
  checkpoint : w.CheckpointState env sections pending
  updates : w.UpdateState env (front ++ storedSections sections ++ terminator).length buckets
    current
  phase : w.Phase env sections pending terminator buckets current

structure Paced (header : GgjetHeader) (manifest : AccountManifest) (config : GgjetWriterConfig)
    (pending : List (Option CheckpointAccount)) (buckets : List UpdateBucket)
    (current : List SlotFrame) : Prop where
  bounded : header.updateStartSlot.toNat + header.updateSlotCount.toNat < 2 ^ 64
  accountCount : header.accountCount.toNat = manifest.accounts.length
  bucketSlots : config.bucketSlots ≠ 0
  ready : pending.length < config.checkpointBucketAccounts.toNat
  aligned : (storedFrames buckets).length = buckets.length * config.bucketSlots.toNat
  room : current.length ≤ config.bucketSlots.toNat

variable {bytes : Bytes} {config : GgjetWriterConfig} {manifest : AccountManifest}

theorem writeAll_ok {sink next : Bytes} (h : writeAll sink bytes = .ok next) :
    next = sink ++ bytes ∧ (sink ++ bytes).length < 2 ^ 63 := by
  unfold writeAll at h
  split at h
  · rename_i hlen
    cases h
    exact ⟨rfl,hlen⟩
  · cases h

theorem extendBuf_ok {buf next : Bytes} (h : extendBuf buf bytes = .ok next) :
    next = buf ++ bytes ∧ (buf ++ bytes).length < 2 ^ 63 := by
  unfold extendBuf at h
  split at h
  · rename_i hlen
    cases h
    exact ⟨rfl,hlen⟩
  · cases h

theorem toBytes_ok {p : Put GgjetFailure Unit} (h : toBytes p = .ok bytes) :
    p () = .ok (bytes,()) := by
  obtain ⟨written,hp,heq⟩ := bind_ok h
  cases heq
  exact hp

section CheckpointSteps

variable {env : GgjetEnv} {config : GgjetWriterConfig} {buf raw : Bytes}
    {bucketFirst total : UInt64}
  {bucketCount : UInt32} {sections : List CheckpointBucket}
  {pending : List (Option CheckpointAccount)}

theorem CheckpointBuffer.append {account : Option CheckpointAccount}
    (h : CheckpointBuffer env config buf bucketFirst bucketCount total sections pending)
    (hready : pending.length < config.checkpointBucketAccounts.toNat)
    (htotal : total.toNat + 1 < 2 ^ 64)
    (hbytes : encodeCheckpointAccount account () = .ok (bytes,()))
    (hfits : (buf ++ bytes).length < 2 ^ 63) :
    CheckpointBuffer env config (buf ++ bytes) bucketFirst (bucketCount + 1) (total + 1) sections
      (pending ++ [account]) where
  held := h.held
  payload := Put.each_concat_ok h.payload hbytes
  fits := hfits
  first := h.first
  count := by
    have := config.checkpointBucketAccounts.toNat_lt
    have hcount := h.count
    rw [UInt32.toNat_add,UInt32.toNat_one,List.length_append,List.length_singleton,hcount]
    exact Nat.mod_eq_of_lt (by omega)
  counted := by
    rw [List.length_append,List.length_singleton]
    omega
  total := by
    rw [UInt64.toNat_add,UInt64.toNat_one,Nat.mod_eq_of_lt htotal,h.total,← List.append_assoc]
    simp only [List.length_append,List.length_singleton]

theorem CheckpointBuffer.flush
    (h : CheckpointBuffer env config buf bucketFirst bucketCount total sections pending)
    (hne : pending ≠ [])
    (hraw : writeBlob env bucketFirst bucketCount buf config.compression config.zstdLevel =
      .ok raw) :
    CheckpointBuffer env config [] (bucketFirst + bucketCount.toUInt64) 0 total
      (sections ++ [⟨pending,raw⟩]) [] where
  held := by
    refine h.held.concat ?_
    have hcount : bucketCount = UInt32.ofNat pending.length := by
      rw [← h.count,UInt32.ofNat_toNat]
    rw [h.first,length_storedAccounts,hcount] at hraw
    exact ⟨hne,h.counted,buf,h.fits,h.payload,by rw [Nat.zero_add]; exact hraw⟩
  payload := rfl
  fits := Nat.two_pow_pos 63
  first := by
    have hcount : bucketCount.toUInt64 = UInt64.ofNat pending.length := by
      rw [← h.count]
      exact UInt64.toNat_inj.mp (by simp)
    rw [h.first,hcount,storedAccounts_concat,List.length_append,UInt64.ofNat_add]
  count := rfl
  counted := Nat.zero_le _
  total := by
    rw [h.total,storedAccounts_concat,List.append_nil]

end CheckpointSteps

section UpdateSteps

variable {env : GgjetEnv} {config : GgjetWriterConfig} {manifest : AccountManifest}
  {start offset : Nat} {buf raw : Bytes} {enc : EncoderContext} {firstSlot : Option UInt64}
  {slotCount : UInt32} {updateCount slots : UInt64} {index : List GgjetBucketIndexEntry}
  {buckets : List UpdateBucket} {current : List SlotFrame}

theorem UpdateBuffer.moved (h : UpdateBuffer env config manifest start offset buf enc firstSlot
      slotCount updateCount index slots [] current) (offset' : Nat) :
    UpdateBuffer env config manifest start offset' buf enc firstSlot slotCount updateCount index
      slots [] current :=
  { h with index := h.index }

section

variable (h : UpdateBuffer env config manifest start offset buf enc firstSlot slotCount updateCount
    index slots buckets current)
include h

theorem UpdateBuffer.append {f : SlotFrame} {enc' : EncoderContext}
    (hslot : f.slot.toNat = start + slots.toNat) (hslots : slots.toNat + 1 < 2 ^ 64)
    (hincreasing : (f.updates.map (·.writeVersion)).Pairwise (· < ·))
    (hbytes : encodeFrame env manifest f enc = .ok (bytes,enc'))
    (hfits : (buf ++ bytes).length < 2 ^ 63) :
    UpdateBuffer env config manifest start offset (buf ++ bytes) enc'
      (some (firstSlot.getD f.slot)) (slotCount + 1)
      (updateCount + UInt64.ofNat f.updates.length) index (slots + 1) buckets (current ++ [f]) where
  held := h.held
  index := h.index
  indexFits := h.indexFits
  payload := Put.each_concat_ok h.payload hbytes
  fits := hfits
  firstSlot := by
    rw [h.firstSlot]
    cases current <;> rfl
  slotCount := by
    rw [h.slotCount,List.length_append,List.length_singleton,UInt32.ofNat_add]
    rfl
  updateCount := by
    rw [h.updateCount,updateTotal_append,UInt64.ofNat_add]
    simp [updateTotal]
  slots := by
    rw [UInt64.toNat_add,UInt64.toNat_one,Nat.mod_eq_of_lt hslots,h.slots,← List.append_assoc]
    simp only [List.length_append,List.length_singleton]
  numbers := by
    rw [h.slots,List.length_append,← Nat.add_assoc] at hslot
    rw [List.map_append,h.numbers,List.length_append,List.length_singleton,List.range'_concat]
    simp [hslot]
  increasing := by
    intro g hg
    rcases List.mem_append.mp hg with hg | hg
    · exact h.increasing g hg
    · rw [List.mem_singleton.mp hg]
      exact hincreasing

theorem UpdateBuffer.first_eq {first : UInt64} (hfirst : firstSlot = some first) :
    current ≠ [] ∧ first = UInt64.ofNat (start + (storedFrames buckets).length) := by
  have hnumbers := h.numbers
  have hhead := h.firstSlot
  rw [hfirst] at hhead
  cases current with
  | nil => cases hhead
  | cons f rest =>
    refine ⟨by simp,?_⟩
    rw [List.map_cons,List.length_cons,List.range'_succ] at hnumbers
    rw [← (List.cons.inj hnumbers).1,UInt64.ofNat_toNat]
    exact Option.some.inj hhead

theorem UpdateBuffer.flush {first fileOffset : UInt64} (hfirst : firstSlot = some first)
    (hcounted : current.length < 2 ^ 32)
    (hoffset : fileOffset = UInt64.ofNat (offset + (storedBuckets buckets).length))
    (hindex : 40 * (index.length + 1) < 2 ^ 63)
    (hraw : writeBlob env first slotCount buf config.compression config.zstdLevel = .ok raw) :
    UpdateBuffer env config manifest start offset [] env.toEnv.newEncoderContext none 0 0
      (index ++ [⟨first,slotCount,updateCount,fileOffset,lenU64 raw⟩]) slots
      (buckets ++ [⟨current,raw⟩]) [] := by
  obtain ⟨hne,hfirstEq⟩ := h.first_eq hfirst
  refine {
    payload := rfl, fits := Nat.two_pow_pos 63, firstSlot := rfl, slotCount := rfl
    updateCount := rfl, numbers := rfl, increasing := fun f hf => nomatch hf
    held := ?held, index := ?index, indexFits := ?indexFits, slots := ?slots }
  case indexFits =>
    rw [h.index,updateIndex_length] at hindex
    simpa using hindex
  case held =>
    refine h.held.concat ⟨hne,hcounted,?_,h.increasing,buf,enc,h.fits,h.payload,?_⟩
    · rw [← length_storedFrames]
      exact h.numbers
    · rw [hfirstEq,h.slotCount,length_storedFrames] at hraw
      exact hraw
  case index =>
    rw [updateIndex_concat,← h.index,hfirstEq,h.slotCount,h.updateCount,hoffset]
  case slots => rw [h.slots,storedFrames_concat,List.append_nil]

end

end UpdateSteps

section Inversions

variable {env : GgjetEnv} {w w' : GgjetWriter}

theorem GgjetWriter.flushCheckpointBucket_ok (h : w.flushCheckpointBucket env = .ok w') :
    (w.checkpointBucketCount = 0 ∧ w' = w) ∨
      ∃ raw, w.checkpointBucketCount ≠ 0 ∧
        writeBlob env w.checkpointBucketFirst w.checkpointBucketCount w.checkpointBuf
          w.config.compression w.config.zstdLevel = .ok raw ∧
        (w.sink ++ raw).length < 2 ^ 63 ∧
        w' = { w.wrote (w.sink ++ raw) raw with
          checkpointBucketFirst := w.checkpointBucketFirst + w.checkpointBucketCount.toUInt64
          checkpointBucketCount := 0
          checkpointBuf := [] } := by
  unfold flushCheckpointBucket at h
  by_cases hzero : w.checkpointBucketCount = 0
  · rw [if_pos hzero] at h
    cases h
    exact .inl ⟨hzero,rfl⟩
  · rw [if_neg hzero] at h
    obtain ⟨raw,hraw,h⟩ := bind_ok h
    obtain ⟨sink,hsink,h⟩ := bind_ok h
    obtain ⟨rfl,hlen⟩ := writeAll_ok hsink
    cases h
    exact .inr ⟨raw,hzero,hraw,hlen,rfl⟩

theorem GgjetWriter.flushUpdateBucket_ok {first : UInt64} (hfirst : w.bucketFirstSlot = some first)
    (h : w.flushUpdateBucket env = .ok w') :
    ∃ raw stats, writeBlob env first w.bucketSlotCount w.bucketBuf w.config.compression
        w.config.zstdLevel = .ok raw ∧ (w.sink ++ raw).length < 2 ^ 63 ∧
      40 * (w.index.length + 1) < 2 ^ 63 ∧ stats.slots = w.stats.slots ∧
        stats.checkpointAccounts = w.stats.checkpointAccounts ∧
      w' = { w with
        sink := w.sink ++ raw
        fileOffset := w.fileOffset + lenU64 raw
        stats
        bucketFirstSlot := none
        index := w.index ++
          [⟨first,w.bucketSlotCount,w.bucketUpdateCount,w.fileOffset,lenU64 raw⟩]
        bucketBuf := []
        bucketSlotCount := 0
        bucketUpdateCount := 0
        enc := env.toEnv.newEncoderContext } := by
  unfold flushUpdateBucket at h
  rw [hfirst] at h
  obtain ⟨raw,hraw,h⟩ := bind_ok h
  obtain ⟨sink,hsink,h⟩ := bind_ok h
  obtain ⟨index,hindex,h⟩ := bind_ok h
  obtain ⟨rfl,hlen⟩ := writeAll_ok hsink
  cases h
  unfold pushEntry at hindex
  split at hindex
  · cases hindex
  · rename_i hfits
    cases hindex
    exact ⟨raw,{ w.stats with
      bytesWritten := w.stats.bytesWritten + lenU64 raw, buckets := w.stats.buckets + 1 },
      hraw,hlen,not_le.mp hfits,rfl,rfl,rfl⟩

theorem GgjetWriter.enterBucket_ok {slot : UInt64} (h : w.enterBucket env slot = .ok w') :
    ∃ w0 : GgjetWriter, w' = { w0 with bucketFirstSlot := some (w0.bucketFirstSlot.getD slot) } ∧
      ((w0 = w ∧ ∀ first, w.bucketFirstSlot = some first → w.bucketId slot = w.bucketId first) ∨
        ∃ first, w.bucketFirstSlot = some first ∧ w.bucketId slot ≠ w.bucketId first ∧
          w.flushUpdateBucket env = .ok w0) := by
  obtain ⟨w0,hw0,h⟩ := bind_ok h
  cases h
  refine ⟨w0,rfl,?_⟩
  unfold leaveBucket at hw0
  cases hfirst : w.bucketFirstSlot with
  | none =>
    rw [hfirst] at hw0
    cases hw0
    exact .inl ⟨rfl,fun first hsome => nomatch hsome⟩
  | some first =>
    rw [hfirst] at hw0
    dsimp only at hw0
    by_cases hid : w.bucketId slot ≠ w.bucketId first
    · rw [if_pos hid] at hw0
      exact .inr ⟨first,rfl,hid,hw0⟩
    · rw [if_neg hid] at hw0
      cases hw0
      refine .inl ⟨rfl,fun other hsome => ?_⟩
      cases hsome
      exact not_not.mp hid

end Inversions

theorem firstDisorder_none {updates : List AccountUpdate} (h : firstDisorder updates = none) :
    (updates.map (·.writeVersion)).Pairwise (· < ·) := by
  induction updates with
  | nil => exact List.Pairwise.nil
  | cons a rest ih =>
    cases rest with
    | nil => exact List.pairwise_singleton _ _
    | cons b rest =>
      rw [firstDisorder] at h
      split at h
      · cases h
      · rename_i hlt
        have hrest := ih h
        rw [List.map_cons,List.pairwise_cons] at hrest ⊢
        have hab : a.writeVersion < b.writeVersion := UInt64.not_le.mp hlt
        refine ⟨?_,by rw [List.map_cons,List.pairwise_cons]; exact hrest⟩
        intro version hversion
        rcases List.mem_cons.mp hversion with rfl | hversion
        · exact hab
        · exact UInt64.lt_trans hab (hrest.1 version hversion)

section Steps

variable {env : GgjetEnv} {header : GgjetHeader} {manifest : AccountManifest}
  {config : GgjetWriterConfig} {front terminator : Bytes} {sections : List CheckpointBucket}
  {pending : List (Option CheckpointAccount)} {buckets : List UpdateBucket}
  {current : List SlotFrame} {w w' : GgjetWriter}

theorem Layout.flushCheckpoint
    (h : Layout env header manifest config front sections pending [] [] [] w)
    (hopen : w.checkpointFinished = false) (hrun : w.flushCheckpointBucket env = .ok w') :
    ∃ sections', Layout env header manifest config front sections' [] [] [] [] w' ∧
      storedAccounts sections' = storedAccounts sections ++ pending ∧
      w'.checkpointFinished = false ∧
      w'.stats.checkpointAccounts = w.stats.checkpointAccounts := by
  obtain ⟨hzero,rfl⟩ | ⟨raw,hcount,hraw,hlen,rfl⟩ := GgjetWriter.flushCheckpointBucket_ok hrun
  · have hnil : pending = [] := by
      have hlen := h.checkpoint.count
      rw [hzero] at hlen
      exact List.eq_nil_of_length_eq_zero hlen.symm
    subst hnil
    exact ⟨sections,h,by simp,hopen,rfl⟩
  · have hne : pending ≠ [] := by
      intro hnil
      have hlen := h.checkpoint.count
      rw [hnil] at hlen
      exact hcount (UInt32.toNat_inj.mp hlen)
    refine ⟨sections ++ [(⟨pending,raw⟩ : CheckpointBucket)],{
      same := h.same, small := hlen, checkpoint := h.checkpoint.flush hne hraw
      updates := h.updates.moved _, phase := .inl ⟨hopen,rfl,rfl,rfl⟩
      sink := ?sink, offset := ?offset },by simp,hopen,rfl⟩
    case sink =>
      simp only [GgjetWriter.wrote,h.sink,storedSections_concat,storedBuckets,List.flatMap_nil,
        List.append_nil,List.append_assoc]
    case offset => simp only [GgjetWriter.wrote,h.offset,lenU64_append]

section

variable (h : Layout env header manifest config front sections pending terminator buckets current w)
include h

theorem Layout.finishCheckpoint
    (hcount : header.accountCount.toNat = manifest.accounts.length)
    (hrun : w.finishCheckpoint env = .ok w') :
    ∃ sections' terminator',
      Layout env header manifest config front sections' [] terminator' buckets current w' ∧
      storedAccounts sections' = storedAccounts sections ++ pending ∧
        w'.checkpointFinished = true := by
  unfold GgjetWriter.finishCheckpoint at hrun
  rcases h.phase with ⟨hopen,rfl,rfl,rfl⟩ | ⟨hdone,rfl,-,-⟩
  · have hnot : ¬w.checkpointFinished = true := by simp [hopen]
    rw [if_neg hnot] at hrun
    split at hrun
    · cases hrun
    · rename_i hall
      obtain ⟨w1,hflush,hrun⟩ := bind_ok hrun
      obtain ⟨raw,hraw,hrun⟩ := bind_ok hrun
      obtain ⟨sink,hsink,hrun⟩ := bind_ok hrun
      obtain ⟨rfl,hlen⟩ := writeAll_ok hsink
      cases hrun
      obtain ⟨sections',h1,haccounts,hopen1,htotal⟩ := h.flushCheckpoint hopen hflush
      have htotal1 := h1.checkpoint.total
      rw [htotal,not_not.mp hall,h.same.1,hcount,List.append_nil] at htotal1
      refine ⟨sections',raw,{
        same := h1.same, small := hlen, checkpoint := h1.checkpoint
        updates := h1.updates.moved _, phase := .inr ⟨rfl,rfl,?all,hraw⟩
        sink := ?sink, offset := ?offset },haccounts,rfl⟩
      case all =>
        rw [← htotal1]
        exact congrArg _ (congrArg _ h1.same.2.1.symm)
      case sink =>
        simp only [GgjetWriter.wrote,h1.sink,storedBuckets,List.flatMap_nil,List.append_nil]
      case offset => simp only [GgjetWriter.wrote,h1.offset,lenU64_append]
  · rw [if_pos hdone] at hrun
    cases hrun
    exact ⟨sections,terminator,h,by simp,hdone⟩

theorem Layout.writeCheckpoint {account : Option CheckpointAccount}
    (hp : Paced header manifest config pending buckets current)
    (hrun : w.writeCheckpointAccount env account = .ok w') :
    ∃ sections' pending', Layout env header manifest config front sections' pending' [] [] [] w' ∧
      Paced header manifest config pending' [] [] ∧ buckets = [] ∧ current = [] ∧
      storedAccounts sections' ++ pending' = storedAccounts sections ++ pending ++ [account] := by
  unfold GgjetWriter.writeCheckpointAccount at hrun
  split at hrun
  · cases hrun
  · rename_i hroom
    rw [not_or,UInt64.not_le] at hroom
    obtain ⟨bytes,hbytes,hrun⟩ := bind_ok hrun
    obtain ⟨buf,hbuf,hrun⟩ := bind_ok hrun
    obtain ⟨rfl,hfits⟩ := extendBuf_ok hbuf
    rcases h.phase with ⟨hopen,rfl,rfl,rfl⟩ | ⟨hdone,-⟩
    · have hcount := UInt64.lt_iff_toNat_lt.mp hroom.2
      rw [h.same.1] at hcount
      have hlast := header.accountCount.toNat_lt
      have hready : pending.length < w.config.checkpointBucketAccounts.toNat := by
        rw [h.same.2.2]
        exact hp.ready
      have hstats : (GgjetWriter.countCheckpoint w.stats account).checkpointAccounts =
            w.stats.checkpointAccounts + 1 ∧
          (GgjetWriter.countCheckpoint w.stats account).slots = w.stats.slots := by
        cases account <;> exact ⟨rfl,rfl⟩
      let w1 : GgjetWriter := { w with
        checkpointBuf := w.checkpointBuf ++ bytes
        checkpointBucketCount := w.checkpointBucketCount + 1
        stats := GgjetWriter.countCheckpoint w.stats account }
      have happend := CheckpointBuffer.append h.checkpoint hready (by omega)
          (toBytes_ok hbytes) hfits
      have h1 : Layout env header manifest config front sections (pending ++ [account]) [] []
          [] w1 := {
        same := h.same, sink := h.sink, small := h.small, offset := h.offset
        checkpoint := by
          change CheckpointBuffer _ _ _ _ _
            (GgjetWriter.countCheckpoint w.stats account).checkpointAccounts
            _ _
          rw [hstats.1]
          exact happend
        updates := by
          change UpdateBuffer _ _ _ _ _ _ _ _ _ _ _
            (GgjetWriter.countCheckpoint w.stats account).slots _ _
          rw [hstats.2]
          exact h.updates
        phase := .inl ⟨hopen,rfl,rfl,rfl⟩ }
      change (if w1.checkpointBucketCount = w1.config.checkpointBucketAccounts ∨
          w1.config.checkpointBucketBytes.toNat ≤ w1.checkpointBuf.length then
        w1.flushCheckpointBucket env else .ok w1) = .ok w' at hrun
      split at hrun
      · obtain ⟨sections',h2,haccounts,-,-⟩ := h1.flushCheckpoint hopen hrun
        refine ⟨sections',[],h2,{ hp with ready := ?_ },rfl,rfl,?_⟩
        · exact Nat.lt_of_le_of_lt (Nat.zero_le _) hp.ready
        · rw [haccounts,List.append_nil,List.append_assoc]
      · rename_i hkeep
        rw [← Except.ok.inj hrun]
        refine ⟨sections,pending ++ [account],h1,{ hp with ready := ?_ },rfl,rfl,by simp⟩
        -- a full section would have been flushed
        have hle := h1.checkpoint.counted
        rw [h1.same.2.2] at hle
        refine Nat.lt_of_le_of_ne hle fun hfull => hkeep (.inl (UInt32.toNat_inj.mp ?_))
        rw [h1.checkpoint.count,h1.same.2.2]
        exact hfull
    · rw [hdone] at hroom
      exact absurd rfl hroom.1

theorem Layout.flushUpdates {first : UInt64}
    (hdone : w.checkpointFinished = true) (hroom : current.length ≤ config.bucketSlots.toNat)
    (hfirst : w.bucketFirstSlot = some first) (hrun : w.flushUpdateBucket env = .ok w') :
    ∃ raw, Layout env header manifest config front sections pending terminator
        (buckets ++ [⟨current,raw⟩]) [] w' ∧ w'.checkpointFinished = true ∧
      w'.bucketFirstSlot = none ∧ w'.stats.slots = w.stats.slots := by
  obtain ⟨raw,stats,hraw,hlen,hindex,hslots,htotal,rfl⟩ :=
    GgjetWriter.flushUpdateBucket_ok hfirst hrun
  have hcounted : current.length < 2 ^ 32 := by
    have := config.bucketSlots.toNat_lt
    omega
  have hoffset : w.fileOffset = UInt64.ofNat
      ((front ++ storedSections sections ++ terminator).length +
        (storedBuckets buckets).length) := by
    rw [h.offset,h.sink,lenU64,List.length_append]
  have hphase := h.phase
  simp only [GgjetWriter.Phase,hdone,Bool.true_eq_false,false_and,false_or] at hphase
  refine ⟨raw,{
    same := h.same, small := hlen
    checkpoint := by
      change CheckpointBuffer _ _ _ _ _ stats.checkpointAccounts _ _
      rw [htotal]
      exact h.checkpoint
    updates := by
      change UpdateBuffer _ _ _ _ _ _ _ _ _ _ _ stats.slots _ _
      rw [hslots]
      exact UpdateBuffer.flush h.updates hfirst hcounted hoffset hindex hraw
    phase := .inr ⟨hdone,hphase.2⟩
    sink := ?sink, offset := ?offset },hdone,rfl,hslots⟩
  case sink => simp only [h.sink,storedBuckets_concat,List.append_assoc]
  case offset => simp only [h.offset,lenU64_append]

theorem Layout.flushLast
    (hdone : w.checkpointFinished = true) (hroom : current.length ≤ config.bucketSlots.toNat)
    (hrun : w.flushUpdateBucket env = .ok w') :
    ∃ buckets', Layout env header manifest config front sections pending terminator buckets' [] w' ∧
      storedFrames buckets' = storedFrames buckets ++ current ∧ w'.checkpointFinished = true := by
  cases hfirst : w.bucketFirstSlot with
  | none =>
    have hnil : current = [] := by
      have hhead := h.updates.firstSlot
      rw [hfirst] at hhead
      simpa using hhead.symm
    unfold GgjetWriter.flushUpdateBucket at hrun
    rw [hfirst] at hrun
    cases hrun
    subst hnil
    exact ⟨buckets,h,by simp,hdone⟩
  | some first =>
    obtain ⟨raw,h2,hdone2,-,-⟩ := h.flushUpdates hdone hroom hfirst hrun
    exact ⟨_,h2,by simp,hdone2⟩

end

theorem bucketId_place {k c : Nat} {slot : UInt64} (hbs : w.config.bucketSlots ≠ 0)
    (hslot : slot.toNat = w.header.updateStartSlot.toNat + (k * w.config.bucketSlots.toNat + c)) :
    (w.bucketId slot).toNat = k + c / w.config.bucketSlots.toNat := by
  have hle : w.header.updateStartSlot ≤ slot := UInt64.le_iff_toNat_le.mpr (by omega)
  have hpos := UInt16.toNat_pos_of_ne hbs
  rw [GgjetWriter.bucketId,UInt64.toNat_div,UInt64.toNat_sub_of_le _ _ hle,hslot,
    UInt16.toNat_toUInt64,Nat.add_sub_cancel_left,Nat.add_comm,Nat.add_mul_div_right _ _ hpos,
    Nat.add_comm]

theorem Layout.append {f : SlotFrame}
    (h : Layout env header manifest config front sections pending terminator buckets current w)
    (hdone : w.checkpointFinished = true)
    (hslot : f.slot.toNat = header.updateStartSlot.toNat + w.stats.slots.toNat)
    (hslots : w.stats.slots.toNat + 1 < 2 ^ 64)
    (hincreasing : (f.updates.map (·.writeVersion)).Pairwise (· < ·))
    (hrun : GgjetWriter.appendSlot env
      { w with bucketFirstSlot := some (w.bucketFirstSlot.getD f.slot) } f.slot f.updates =
        .ok w') :
    Layout env header manifest config front sections pending terminator buckets
      (current ++ [f]) w' := by
  obtain ⟨⟨bytes,enc⟩,hbytes,hrun⟩ := bind_ok hrun
  obtain ⟨buf,hbuf,hrun⟩ := bind_ok hrun
  obtain ⟨rfl,hfits⟩ := extendBuf_ok hbuf
  cases hrun
  have hphase := h.phase
  simp only [GgjetWriter.Phase,hdone,Bool.true_eq_false,false_and,false_or] at hphase
  rw [← h.same.1] at hslot
  exact {
    same := h.same, sink := h.sink, small := h.small, offset := h.offset
    checkpoint := h.checkpoint
    updates := UpdateBuffer.append h.updates hslot hslots hincreasing hbytes hfits
    phase := .inr ⟨hdone,hphase.2⟩ }

theorem Layout.writeSlot {slot : UInt64} {updates : List AccountUpdate}
    (h : Layout env header manifest config front sections pending terminator buckets current w)
    (hp : Paced header manifest config pending buckets current)
    (hrun : w.writeSlotUpdates env slot updates = .ok w') :
    ∃ sections' terminator' buckets' current',
      Layout env header manifest config front sections' [] terminator' buckets' current' w' ∧
      Paced header manifest config [] buckets' current' ∧
      storedAccounts sections' = storedAccounts sections ++ pending ∧
      storedFrames buckets' ++ current' =
        storedFrames buckets ++ current ++ [⟨slot,sortUpdates updates⟩] := by
  obtain ⟨w1,hfinish,hrun⟩ := bind_ok hrun
  obtain ⟨expected,hexpected,hrun⟩ := bind_ok hrun
  obtain ⟨sections',terminator',h1,haccounts,hdone⟩ := h.finishCheckpoint hp.accountCount hfinish
  have hpaced : Paced header manifest config [] buckets current :=
    { hp with ready := Nat.lt_of_le_of_lt (Nat.zero_le _) hp.ready }
  dsimp only at hrun
  split at hrun
  · cases hrun
  · rename_i hslot
    rw [not_or,not_not,UInt64.not_le] at hslot
    obtain ⟨rfl,hroom⟩ := hslot
    have hplace := checkedAdd_ok hexpected
    have hbelow := UInt64.lt_iff_toNat_lt.mp hroom
    rw [h1.same.1] at hbelow hplace
    obtain ⟨w2,henter,hwrite⟩ := bind_ok hrun
    split at hwrite
    · cases hwrite
    · rename_i hordered
      have hincreasing := firstDisorder_none hordered
      have hpos := UInt16.toNat_pos_of_ne hp.bucketSlots
      have hbounded := hp.bounded
      have hslots := h1.updates.slots
      rw [List.length_append,hp.aligned] at hslots
      have hid : (w1.bucketId slot).toNat =
          buckets.length + current.length / config.bucketSlots.toNat := by
        have hcfg := h1.same.2.2
        subst hcfg
        exact bucketId_place hp.bucketSlots (by rw [hplace,h1.same.1,hslots])
      have hidFirst (first : UInt64) (hfirst : w1.bucketFirstSlot = some first) :
          (w1.bucketId first).toNat = buckets.length := by
        obtain ⟨-,hfirstEq⟩ := UpdateBuffer.first_eq h1.updates hfirst
        have hcfg := h1.same.2.2
        subst hcfg
        have hplaceFirst : first.toNat = w1.header.updateStartSlot.toNat +
            (buckets.length * w1.config.bucketSlots.toNat + 0) := by
          rw [hfirstEq,hp.aligned,h1.same.1,Nat.add_zero]
          refine UInt64.toNat_ofNat_of_lt' ?_
          simp only [UInt64.size]
          omega
        simpa using bucketId_place hp.bucketSlots hplaceFirst
      obtain ⟨w0,rfl,⟨rfl,hsame⟩ | ⟨first,hfirst,hdiffer,hflush⟩⟩ :=
        GgjetWriter.enterBucket_ok henter
      · have h2 := h1.append (f := ⟨slot,sortUpdates updates⟩) hdone hplace
            (by omega) hincreasing hwrite
        refine ⟨sections',terminator',buckets,current ++ [⟨slot,sortUpdates updates⟩],h2,
          { hpaced with room := ?_ },haccounts,by simp⟩
        rw [List.length_append,List.length_singleton]
        cases hfirst : w0.bucketFirstSlot with
        | none =>
          have hnil : current = [] := by
            have hhead := h1.updates.firstSlot
            rw [hfirst] at hhead
            simpa using hhead.symm
          rw [hnil,List.length_nil]
          omega
        | some first =>
          -- the bucket has room: its slots still have the identifier of the first
          have heq := congrArg UInt64.toNat (hsame first hfirst)
          rw [hid,hidFirst first hfirst] at heq
          have hzero : current.length / config.bucketSlots.toNat = 0 := by omega
          rw [Nat.div_eq_zero_iff] at hzero
          omega
      · have hfull : current.length = config.bucketSlots.toNat := by
          have hne : (w1.bucketId slot).toNat ≠ (w1.bucketId first).toNat := fun heq =>
            hdiffer (UInt64.toNat_inj.mp heq)
          rw [hid,hidFirst first hfirst] at hne
          have hge : ¬current.length < config.bucketSlots.toNat := fun hlt =>
            hne (by rw [Nat.div_eq_of_lt hlt,Nat.add_zero])
          have := hp.room
          omega
        obtain ⟨raw,h2,hdone2,hnone,hkeep⟩ := h1.flushUpdates hdone hp.room hfirst hflush
        rw [← hkeep] at hplace hbelow
        have h3 := h2.append (f := ⟨slot,sortUpdates updates⟩) hdone2 hplace
            (by omega) hincreasing hwrite
        refine ⟨sections',terminator',_,_,h3,
          { hpaced with aligned := ?_, room := hpos },haccounts,by simp⟩
        rw [storedFrames_concat,List.length_append,List.length_append,List.length_singleton,
          hp.aligned,hfull,Nat.add_mul,Nat.one_mul]

end Steps

def GgjetWriter.Call.frame (c : GgjetWriter.Call) : Option SlotFrame :=
  c.updates.map fun s => ⟨s.1,sortUpdates s.2⟩

def Written (env : GgjetEnv) (header : GgjetHeader) (manifest : AccountManifest)
    (config : GgjetWriterConfig) (front : Bytes) (accounts : List (Option CheckpointAccount))
    (frames : List SlotFrame) (w : GgjetWriter) : Prop :=
  ∃ sections pending terminator buckets current,
    Layout env header manifest config front sections pending terminator buckets current w ∧
    Paced header manifest config pending buckets current ∧
    storedAccounts sections ++ pending = accounts ∧ storedFrames buckets ++ current = frames

section Runs

variable {env : GgjetEnv} {header : GgjetHeader} {manifest : AccountManifest}
  {config : GgjetWriterConfig} {front : Bytes} {accounts : List (Option CheckpointAccount)}
  {frames : List SlotFrame} {w w' : GgjetWriter}

theorem Written.step {c : GgjetWriter.Call}
    (h : Written env header manifest config front accounts frames w)
    (hcall : w.call env c = .ok w') :
    Written env header manifest config front (accounts ++ c.account.toList)
      (frames ++ c.frame.toList) w' := by
  obtain ⟨sections,pending,terminator,buckets,current,hl,hp,rfl,rfl⟩ := h
  cases c with
  | checkpoint account =>
    obtain ⟨sections',pending',hl',hp',rfl,rfl,haccounts⟩ := hl.writeCheckpoint hp hcall
    exact ⟨sections',pending',[],[],[],hl',hp',haccounts,by
      simp [GgjetWriter.Call.frame,GgjetWriter.Call.updates]⟩
  | finishCheckpoint =>
    obtain ⟨sections',terminator',hl',haccounts,-⟩ := hl.finishCheckpoint hp.accountCount hcall
    refine ⟨sections',[],terminator',buckets,current,hl',{ hp with ready := ?_ },?_,?_⟩
    · exact Nat.lt_of_le_of_lt (Nat.zero_le _) hp.ready
    · simp [GgjetWriter.Call.account,haccounts]
    · simp [GgjetWriter.Call.frame,GgjetWriter.Call.updates]
  | slot slot updates =>
    obtain ⟨sections',terminator',buckets',current',hl',hp',haccounts,hframes⟩ :=
      hl.writeSlot hp hcall
    refine ⟨sections',[],terminator',buckets',current',hl',hp',?_,hframes⟩
    simp [GgjetWriter.Call.account,haccounts]

theorem Written.run {calls : List GgjetWriter.Call}
    (h : Written env header manifest config front accounts frames w)
    (hrun : calls.foldlM (GgjetWriter.call env) w = .ok w') :
    Written env header manifest config front (accounts ++ calls.filterMap (·.account))
      (frames ++ calls.filterMap (·.frame)) w' := by
  induction calls generalizing w accounts frames with
  | nil =>
    cases hrun
    simpa using h
  | cons c rest ih =>
    rw [List.foldlM_cons] at hrun
    obtain ⟨w1,hcall,hrest⟩ := bind_ok hrun
    have h2 := ih (h.step hcall) hrest
    rw [List.append_assoc,List.append_assoc] at h2
    have hjoin {α : Type} (f : GgjetWriter.Call → Option α) :
        (f c).toList ++ rest.filterMap f = (c :: rest).filterMap f := by
      cases hf : f c <;> simp [hf]
    rwa [hjoin,hjoin] at h2

end Runs

structure GgjetFile (env : GgjetEnv) (header : GgjetHeader) (manifest : AccountManifest)
    (config : GgjetWriterConfig) (front : Bytes) (sections : List CheckpointBucket)
    (terminator : Bytes) (buckets : List UpdateBucket) (index file : Bytes) : Prop where
  opening : GgjetWriter.frontBytes env header manifest config = .ok front
  sectionsHeld : Chained (fun n b => CheckpointBucket.Holds env config n b)
    (·.accounts.length) 0 sections
  closing : writeBlob env header.accountCount 0 [] .none config.zstdLevel = .ok terminator
  bucketsHeld : Chained (fun n b => UpdateBucket.Holds env config manifest n b) (·.frames.length)
    header.updateStartSlot.toNat buckets
  indexed : GgjetWriter.indexBytes
    (updateIndex (front ++ storedSections sections ++ terminator).length
    header.updateStartSlot.toNat buckets) = .ok index
  bytes : file = front ++ storedSections sections ++ terminator ++ storedBuckets buckets ++ index ++
    Footer.toBytes ⟨lenU64 (front ++ storedSections sections ++ terminator ++
      storedBuckets buckets),
      lenU64 index,UInt64.ofNat buckets.length,env.xxh64 index⟩
  small : file.length < 2 ^ 63
  bounded : header.updateStartSlot.toNat + header.updateSlotCount.toNat < 2 ^ 64
  complete : (storedAccounts sections).length = manifest.accounts.length
  indexFits : 40 * buckets.length < 2 ^ 63
  covered : (storedFrames buckets).length = header.updateSlotCount.toNat

theorem Written.finish {env : GgjetEnv} {header : GgjetHeader} {front file : Bytes}
    {accounts : List (Option CheckpointAccount)}
    {frames : List SlotFrame} {w : GgjetWriter} {stats : GgjetStats}
    (h : Written env header manifest config front accounts frames w)
    (hfront : GgjetWriter.frontBytes env header manifest config = .ok front)
    (hrun : w.finish env = .ok (file,stats)) :
    ∃ sections terminator buckets index,
      GgjetFile env header manifest config front sections terminator buckets index file ∧
      storedAccounts sections = accounts ∧ storedFrames buckets = frames := by
  obtain ⟨sections,pending,terminator,buckets,current,hl,hp,rfl,rfl⟩ := h
  obtain ⟨w1,hfinish,hrun⟩ := bind_ok hrun
  obtain ⟨sections',terminator',h1,haccounts,hdone⟩ := hl.finishCheckpoint hp.accountCount hfinish
  dsimp only at hrun
  split at hrun
  · obtain ⟨got,-,hrun⟩ := bind_ok hrun
    obtain ⟨expected,-,hrun⟩ := bind_ok hrun
    cases hrun
  · rename_i hall
    obtain ⟨w2,hflush,hrest⟩ := bind_ok hrun
    obtain ⟨index,hindex,hrest⟩ := bind_ok hrest
    obtain ⟨sink,hsink,hrest⟩ := bind_ok hrest
    obtain ⟨sink',hsink',hrest⟩ := bind_ok hrest
    obtain ⟨rfl,-⟩ := writeAll_ok hsink
    obtain ⟨rfl,hlen⟩ := writeAll_ok hsink'
    cases hrest
    obtain ⟨buckets',h2,hframes,hdone2⟩ := h1.flushLast hdone hp.room hflush
    have hphase := h2.phase
    simp only [GgjetWriter.Phase,hdone2,Bool.true_eq_false,false_and,false_or,h2.same.1,h2.same.2.1,
      h2.same.2.2] at hphase
    have hcovered : (storedFrames buckets').length = header.updateSlotCount.toNat := by
      rw [hframes,← h1.updates.slots,not_not.mp hall,h1.same.1]
    have hidx := h2.updates.index
    have hindexFits := h2.updates.indexFits
    rw [h2.same.1] at hidx
    rw [hidx] at hindex
    have hheld := h2.updates.held
    rw [h2.same.1,h2.same.2.1,h2.same.2.2] at hheld
    have hsections := h2.checkpoint.held
    rw [h2.same.2.2] at hsections
    rw [h2.offset,h2.sink,hidx,updateIndex_length] at hlen
    refine ⟨sections',terminator',buckets',index,{
      opening := hfront, sectionsHeld := hsections, closing := hphase.2.2.2, bucketsHeld := hheld
      indexed := hindex, bytes := ?bytes, small := ?small, bounded := hp.bounded
      complete := hphase.2.2.1, indexFits := hindexFits, covered := hcovered },haccounts,hframes⟩
    case bytes => rw [h2.offset,h2.sink,hidx,updateIndex_length]
    case small =>
      rw [h2.offset,h2.sink,hidx,updateIndex_length]
      exact hlen

theorem GgjetWriter.new_written {env : GgjetEnv} {nowMs checkpointSlot start count : UInt64}
    {w : GgjetWriter}
    (h : GgjetWriter.new env nowMs manifest checkpointSlot start count config = .ok w) :
    ∃ header front, header.formatVersion = formatVersion ∧ header.updateStartSlot = start ∧
      header.updateSlotCount = count ∧
      header.checkpointBucketAccounts = config.checkpointBucketAccounts ∧
      header.accountCount = UInt64.ofNat manifest.accounts.length ∧
      header.accountSetSha256 = manifest.digest env ∧
      GgjetWriter.frontBytes env header manifest config = .ok front ∧
      Written env header manifest config front [] [] w := by
  unfold GgjetWriter.new at h
  split at h
  · cases h
  · rename_i hsizes
    rw [not_or,not_or] at hsizes
    obtain ⟨stop,hstop,hnext⟩ := bind_ok h
    obtain ⟨front,hfront,hwrite⟩ := bind_ok hnext
    obtain ⟨sink,hsink,hw⟩ := bind_ok hwrite
    obtain ⟨rfl,hlen⟩ := writeAll_ok hsink
    cases hw
    have hmanifest := manifest.count
    refine ⟨_,sink,rfl,rfl,rfl,rfl,rfl,rfl,hfront,[],[],[],[],[],{
      same := ⟨rfl,rfl,rfl⟩, small := hlen, offset := rfl, phase := .inl ⟨rfl,rfl,rfl,rfl⟩
      sink := by simp [storedSections,storedBuckets]
      checkpoint := ⟨trivial,rfl,Nat.two_pow_pos 63,rfl,rfl,Nat.zero_le _,rfl⟩
      updates := ⟨trivial,rfl,Nat.two_pow_pos 63,rfl,Nat.two_pow_pos 63,rfl,rfl,rfl,rfl,rfl,
        fun f hf => nomatch hf⟩ },{
      bounded := ?bounded, accountCount := ?accountCount, bucketSlots := hsizes.1
      ready := ?ready, aligned := by simp [storedFrames], room := Nat.zero_le _ },rfl,rfl⟩
    case bounded =>
      dsimp only
      rw [← checkedAdd_ok hstop]
      exact stop.toNat_lt
    case accountCount =>
      refine UInt64.toNat_ofNat_of_lt' ?_
      simp only [UInt64.size]
      omega
    case ready =>
      exact Nat.pos_of_ne_zero fun hzero => hsizes.2.1 (UInt32.toNat_inj.mp hzero)

theorem writeFile_file {env : GgjetEnv} {nowMs checkpointSlot start count : UInt64}
    {calls : List GgjetWriter.Call}
    {file : Bytes} {stats : GgjetStats}
    (h : GgjetWriter.writeFile env nowMs manifest checkpointSlot start count config calls =
      .ok (file,stats)) :
    ∃ header front sections terminator buckets index,
      header.formatVersion = formatVersion ∧ header.updateStartSlot = start ∧
      header.updateSlotCount = count ∧
      header.checkpointBucketAccounts = config.checkpointBucketAccounts ∧
      header.accountCount = UInt64.ofNat manifest.accounts.length ∧
      header.accountSetSha256 = manifest.digest env ∧
      GgjetFile env header manifest config front sections terminator buckets index file ∧
      storedAccounts sections = calls.filterMap (·.account) ∧
      storedFrames buckets = calls.filterMap (·.frame) := by
  obtain ⟨w,hnew,h⟩ := bind_ok h
  obtain ⟨w',hcalls,hfinish⟩ := bind_ok h
  obtain ⟨header,front,hversion,hstart,hcount,hsize,haccounts,hdigest,hfront,hw⟩ :=
    GgjetWriter.new_written hnew
  obtain ⟨sections,terminator,buckets,index,hfile,hsections,hbuckets⟩ :=
    (hw.run hcalls).finish hfront hfinish
  exact ⟨header,front,sections,terminator,buckets,index,hversion,hstart,hcount,hsize,haccounts,
    hdigest,hfile,by simpa using hsections,by simpa using hbuckets⟩

end Jetstreamer.Ggjet
