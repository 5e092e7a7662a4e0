import Jetstreamer.Firehose.CompactIndex
set_option autoImplicit false

namespace Jetstreamer.Firehose
open Lib

def slotRangesRecordSize : Nat := 12

/-- One record for each slot of the epoch; a record of length zero marks a skipped slot. -/
structure SlotRangesIndex where
  file : IndexFile
  slotStart : Nat
  slotEnd : Nat

namespace SlotRangesIndex

def fromFile (file : IndexFile) (slotStart slotEnd : Nat) :
    Except SlotOffsetIndexError SlotRangesIndex :=
  let expectedLen := min ((slotEnd-slotStart+1)*slotRangesRecordSize) (2 ^ 64 - 1)
  if file.data.length ≠ expectedLen then
    .error (.indexFormat (.rangesLength file.data.length expectedLen))
  else .ok ⟨file,slotStart,slotEnd⟩

def lookupRange (self : SlotRangesIndex) (slot : Nat) :
    Except SlotOffsetIndexError (Nat × Nat) :=
  if ¬(self.slotStart ≤ slot ∧ slot ≤ self.slotEnd) then
    .error (.indexFormat (.slotNotInEpoch slot))
  else do
    let record ←
      self.file.slice ((slot-self.slotStart)*slotRangesRecordSize) slotRangesRecordSize
    let offset := leValue (record.take 8)
    let length := leValue ((record.drop 8).take 4)
    if length = 0 then throw (.slotNotFound slot)
    return (offset,length)

end SlotRangesIndex

def offsetAndSizeValueSize : Nat := 9

def decodeOffsetAndSize (value : Bytes) : Except SlotOffsetIndexError (Nat × Nat) :=
  if value.length ≠ offsetAndSizeValueSize then
    .error (.indexFormat (.offsetAndSizeLength value.length))
  else .ok (leValue (value.take 6),leValue ((value.drop 6).take 3))

structure LegacyEpochIndexes where
  slotIndex : SlotCidIndex
  cidIndex : CidOffsetIndex
  slotStart : Nat
  slotEnd : Nat
  dataStart : Nat

namespace LegacyEpochIndexes

def slotCid (xxh64 : Bytes → UInt64) (self : LegacyEpochIndexes) (slot : Nat) :
    Except SlotOffsetIndexError Bytes :=
  self.slotIndex.lookup xxh64 slot

def blockSection (xxh64 : Bytes → UInt64) (self : LegacyEpochIndexes) (cid : Bytes)
    (slot : Nat) : Except SlotOffsetIndexError (Nat × Nat) := do
  match ← self.cidIndex.lookup xxh64 cid with
  | some bytes => decodeOffsetAndSize bytes
  | none => throw (.slotNotFound slot)

def resolve (xxh64 : Bytes → UInt64) (self : LegacyEpochIndexes) (slot : Nat) :
    Except SlotOffsetIndexError (Nat × Nat) := do
  let cid ← self.slotCid xxh64 slot
  self.blockSection xxh64 cid slot

/-- The scan for the end of the data before the slot that ends at `stop`. It goes on past slots
that are not found and past sections that end behind the slot. -/
def scanStart (xxh64 : Bytes → UInt64) (self : LegacyEpochIndexes) (stop : Nat) :
    Nat → Except SlotOffsetIndexError Nat
  | 0 => if 0 = self.slotStart then .ok self.dataStart else .error .panics
  | candidate+1 =>
    if candidate+1 = self.slotStart then .ok self.dataStart
    else
      match self.slotCid xxh64 candidate with
      | .ok prevCid =>
        match self.blockSection xxh64 prevCid candidate with
        | .ok (prevOffset,prevSize) =>
          if prevOffset+prevSize > stop then self.scanStart xxh64 stop candidate
          else .ok (prevOffset+prevSize)
        | .error (.slotNotFound _) => self.scanStart xxh64 stop candidate
        | .error err => .error err
      | .error (.slotNotFound _) => self.scanStart xxh64 stop candidate
      | .error err => .error err

def lookupRange (xxh64 : Bytes → UInt64) (self : LegacyEpochIndexes) (slot : Nat) :
    Except SlotOffsetIndexError (Nat × Nat) :=
  if ¬(self.slotStart ≤ slot ∧ slot ≤ self.slotEnd) then
    .error (.indexFormat (.slotNotInEpoch slot))
  else do
    let cid ← self.slotCid xxh64 slot
    let (blockOffset,blockSize) ← self.blockSection xxh64 cid slot
    let stop := blockOffset+blockSize
    let start ← self.scanStart xxh64 stop slot
    if stop < start then throw (.indexFormat (.rangeInverted slot stop start))
    return (start,stop-start)

variable {xxh64 : Bytes → UInt64} {self : LegacyEpochIndexes} {stop candidate : Nat}

theorem scanStart_at_start : self.scanStart xxh64 stop self.slotStart = .ok self.dataStart := by
  unfold scanStart
  split
  · rename_i hzero
    rw [if_pos hzero.symm]
  · rename_i hsucc
    rw [if_pos hsucc.symm]

theorem scanStart_pass (hfloor : self.slotStart ≤ candidate)
    (h : (∃ missing, self.resolve xxh64 candidate = .error (.slotNotFound missing)) ∨
      ∃ offset size, self.resolve xxh64 candidate = .ok (offset,size) ∧ stop < offset+size) :
    self.scanStart xxh64 stop (candidate+1) = self.scanStart xxh64 stop candidate := by
  rw [scanStart,if_neg (by omega)]
  unfold resolve at h
  cases hcid : self.slotCid xxh64 candidate with
  | error err =>
    rw [hcid] at h
    rcases h with ⟨missing,h⟩ | ⟨offset,size,h,-⟩
    · cases h
      rfl
    · cases h
  | ok cid =>
    rw [hcid,ok_bind] at h
    rcases h with ⟨missing,h⟩ | ⟨offset,size,h,hbehind⟩
    · simp only [h]
    · simp only [h]
      rw [if_pos hbehind]

theorem scanStart_take {offset size : Nat} (hfloor : self.slotStart ≤ candidate)
    (h : self.resolve xxh64 candidate = .ok (offset,size)) (hle : offset+size ≤ stop) :
    self.scanStart xxh64 stop (candidate+1) = .ok (offset+size) := by
  obtain ⟨cid,hcid,hsection⟩ := bind_ok h
  rw [scanStart,if_neg (by omega)]
  simp only [hcid,hsection]
  rw [if_neg (by omega)]

theorem lookupRange_of_resolve {slot offset size start : Nat} (hlow : self.slotStart ≤ slot)
    (hhigh : slot ≤ self.slotEnd) (h : self.resolve xxh64 slot = .ok (offset,size))
    (hscan : self.scanStart xxh64 (offset+size) slot = .ok start) (hle : start ≤ offset+size) :
    self.lookupRange xxh64 slot = .ok (start,offset+size-start) := by
  obtain ⟨cid,hcid,hsection⟩ := bind_ok h
  rw [lookupRange,if_neg (by simp [hlow,hhigh])]
  simp only [hcid,ok_bind,hsection,hscan]
  rw [if_neg (by omega)]
  rfl

end LegacyEpochIndexes

/-- The data of one slot: its bytes in all, and how many of the last of them are the block. -/
structure SlotData where
  length : Nat
  blockSize : Nat
  blockInside : blockSize ≤ length
  blockNonempty : 0 < blockSize

/-- An epoch's CAR: the header, then the data of the slots that have any, in slot order. -/
structure EpochCar where
  slotStart : Nat
  slotEnd : Nat
  headerSize : Nat
  slots : Nat → Option SlotData

namespace EpochCar

variable {car : EpochCar}

def length (car : EpochCar) (slot : Nat) : Nat := (car.slots slot).elim 0 SlotData.length

def blockSize (car : EpochCar) (slot : Nat) : Nat := (car.slots slot).elim 0 SlotData.blockSize

def offset (car : EpochCar) (slot : Nat) : Nat :=
  car.headerSize + ∑ earlier ∈ Finset.Ico car.slotStart slot, car.length earlier

def stop (car : EpochCar) (slot : Nat) : Nat := car.offset slot + car.length slot

def blockOffset (car : EpochCar) (slot : Nat) : Nat := car.stop slot - car.blockSize slot

def Present (car : EpochCar) (slot : Nat) : Prop :=
  car.slotStart ≤ slot ∧ slot ≤ car.slotEnd ∧ (car.slots slot).isSome

def Absent (car : EpochCar) (slot : Nat) : Prop :=
  car.slotStart ≤ slot ∧ slot ≤ car.slotEnd ∧ car.slots slot = none

instance (slot : Nat) : Decidable (car.Present slot) := inferInstanceAs (Decidable (_ ∧ _ ∧ _))

variable {slot second : Nat}

theorem absent_of_not_present (hlow : car.slotStart ≤ slot)
    (hhigh : slot ≤ car.slotEnd) (h : ¬car.Present slot) : car.Absent slot := by
  refine ⟨hlow,hhigh,?_⟩
  rw [← Option.not_isSome_iff_eq_none]
  exact fun hsome => h ⟨hlow,hhigh,hsome⟩

theorem offset_slotStart : car.offset car.slotStart = car.headerSize := by simp [offset]

theorem offset_succ (h : car.slotStart ≤ slot) :
    car.offset (slot+1) = car.stop slot := by
  rw [offset,Finset.sum_Ico_succ_top h,← Nat.add_assoc]
  rfl

theorem offset_mono {first : Nat} (h : first ≤ second) :
    car.offset first ≤ car.offset second :=
  Nat.add_le_add_left
    (Finset.sum_le_sum_of_subset (Finset.Ico_subset_Ico le_rfl h)) car.headerSize

theorem headerSize_le_offset (slot : Nat) : car.headerSize ≤ car.offset slot := Nat.le_add_right _ _

theorem Present.blockSize_le (h : car.Present slot) :
    car.blockSize slot ≤ car.length slot := by
  obtain ⟨data,hdata⟩ := Option.isSome_iff_exists.mp h.2.2
  simpa [blockSize,length,hdata] using data.blockInside

theorem Present.length_pos (h : car.Present slot) : 0 < car.length slot := by
  obtain ⟨data,hdata⟩ := Option.isSome_iff_exists.mp h.2.2
  simpa [length,hdata] using data.blockNonempty.trans_le data.blockInside

theorem Absent.length_eq (h : car.Absent slot) : car.length slot = 0 := by
  simp [length,h.2.2]

theorem Present.block_stop (h : car.Present slot) :
    car.blockOffset slot + car.blockSize slot = car.stop slot := by
  have hle := h.blockSize_le
  rw [blockOffset,stop]
  omega

theorem Present.stop_le_offset {first : Nat} (h : car.Present first)
    (hlt : first < second) : car.stop first ≤ car.offset second := by
  rw [← offset_succ h.1]
  exact offset_mono hlt

theorem Present.offset_lt_stop (h : car.Present slot) :
    car.offset slot < car.stop slot :=
  Nat.lt_add_of_pos_right h.length_pos

theorem Present.stop_lt_stop {first : Nat} (hfirst : car.Present first)
    (hsecond : car.Present second) (hlt : first < second) : car.stop first < car.stop second :=
  (hfirst.stop_le_offset hlt).trans_lt hsecond.offset_lt_stop

theorem offset_eq_of_absent {first : Nat} (hle : first ≤ second)
    (h : ∀ slot, first ≤ slot → slot < second → car.Absent slot) :
    car.offset second = car.offset first := by
  induction second, hle using Nat.le_induction with
  | base => rfl
  | succ second hle ih =>
    have habsent := h second hle (Nat.lt_succ_self second)
    rw [offset_succ habsent.1,stop,habsent.length_eq,Nat.add_zero]
    exact ih fun slot hlow hhigh => h slot hlow (by omega)

end EpochCar

namespace LegacyEpochIndexes

variable {xxh64 : Bytes → UInt64} {self : LegacyEpochIndexes} {car : EpochCar}
  {answers : Nat → Option Nat}

/-- The indexes are those of the CAR: a slot with data is answered with its own block, and one
without is not found or answered with the block of some other slot. -/
structure Answers (xxh64 : Bytes → UInt64) (indexes : LegacyEpochIndexes) (car : EpochCar)
    (answers : Nat → Option Nat) : Prop where
  slotStart : indexes.slotStart = car.slotStart
  slotEnd : indexes.slotEnd = car.slotEnd
  dataStart : indexes.dataStart = car.headerSize
  own : ∀ slot, car.Present slot → answers slot = some slot
  present : ∀ slot hit, answers slot = some hit → car.Present hit
  found : ∀ slot hit, car.slotStart ≤ slot → slot ≤ car.slotEnd → answers slot = some hit →
    indexes.resolve xxh64 slot = .ok (car.blockOffset hit,car.blockSize hit)
  missing : ∀ slot, car.slotStart ≤ slot → slot ≤ car.slotEnd → answers slot = none →
    ∃ missing, indexes.resolve xxh64 slot = .error (.slotNotFound missing)

/-- The scan for a slot goes past another that is not answered with a block up to the slot's. -/
def Passed (answers : Nat → Option Nat) (slot other : Nat) : Prop :=
  ∀ hit, answers other = some hit → slot < hit

theorem Answers.scanStart_spec (h : self.Answers xxh64 car answers) {slot candidate : Nat}
    (hslot : car.Present slot) (hlow : car.slotStart ≤ candidate) (hhigh : candidate ≤ slot) :
    (self.scanStart xxh64 (car.stop slot) candidate = .ok car.headerSize ∧
      ∀ other, car.slotStart ≤ other → other < candidate → Passed answers slot other) ∨
    ∃ nearest hit, car.slotStart ≤ nearest ∧ nearest < candidate ∧
      answers nearest = some hit ∧ hit ≤ slot ∧
      (∀ other, nearest < other → other < candidate → Passed answers slot other) ∧
      self.scanStart xxh64 (car.stop slot) candidate = .ok (car.stop hit) := by
  induction candidate, hlow using Nat.le_induction with
  | base =>
    rw [← h.slotStart,scanStart_at_start,h.dataStart]
    exact .inl ⟨rfl,fun other hle hlt => by omega⟩
  | succ candidate hlow ih =>
    have hfloor : self.slotStart ≤ candidate := h.slotStart.symm ▸ hlow
    have hend : candidate ≤ car.slotEnd := by
      have := hslot.2.1
      omega
    by_cases hpassed : Passed answers slot candidate
    · -- the scan goes on below, and the slots above what it finds include this one
      have hnext : self.scanStart xxh64 (car.stop slot) (candidate+1) =
          self.scanStart xxh64 (car.stop slot) candidate := by
        apply scanStart_pass hfloor
        cases hanswer : answers candidate with
        | none => exact .inl (h.missing candidate hlow hend hanswer)
        | some hit =>
          have hhit := h.present candidate hit hanswer
          refine .inr ⟨_,_,h.found candidate hit hlow hend hanswer,?_⟩
          rw [hhit.block_stop]
          exact hslot.stop_lt_stop hhit (hpassed hit hanswer)
      rw [hnext]
      have hbelow (other : Nat) (hlt : other < candidate+1) (hother : other < candidate →
          Passed answers slot other) : Passed answers slot other := by
        rcases Nat.lt_or_ge other candidate with hlt' | hge
        · exact hother hlt'
        · obtain rfl : other = candidate := by omega
          exact hpassed
      rcases ih (by omega) with ⟨hscan,hall⟩ | ⟨nearest,hit,hlow',hlt,hanswer,hle,hall,hscan⟩
      · exact .inl ⟨hscan,fun other hfirst hlt => hbelow other hlt (hall other hfirst)⟩
      · exact .inr ⟨nearest,hit,hlow',by omega,hanswer,hle,
          fun other hfirst hlt => hbelow other hlt (hall other hfirst),hscan⟩
    · simp only [Passed,not_forall,Nat.not_lt] at hpassed
      obtain ⟨hit,hanswer,hle⟩ := hpassed
      have hhit := h.present candidate hit hanswer
      have hstop : car.stop hit ≤ car.stop slot := by
        rcases Nat.lt_or_eq_of_le hle with hlt | rfl
        · exact (hhit.stop_lt_stop hslot hlt).le
        · exact le_rfl
      have htake : self.scanStart xxh64 (car.stop slot) (candidate+1) =
          .ok (car.blockOffset hit + car.blockSize hit) :=
        scanStart_take hfloor (h.found candidate hit hlow hend hanswer)
          (by rwa [hhit.block_stop])
      rw [hhit.block_stop] at htake
      exact .inr ⟨candidate,hit,hlow,by omega,hanswer,hle,fun other hlow hlt => by omega,htake⟩

theorem Answers.lookupRange_eq (h : self.Answers xxh64 car answers) {slot start : Nat}
    (hslot : car.Present slot) (hscan : self.scanStart xxh64 (car.stop slot) slot = .ok start)
    (hle : start ≤ car.stop slot) :
    self.lookupRange xxh64 slot = .ok (start,car.stop slot - start) := by
  have hfound := h.found slot slot hslot.1 hslot.2.1 (h.own slot hslot)
  rw [← hslot.block_stop] at hscan hle ⊢
  exact lookupRange_of_resolve (h.slotStart.symm ▸ hslot.1) (h.slotEnd.symm ▸ hslot.2.1) hfound
    hscan hle

end LegacyEpochIndexes

namespace EpochCar

variable {car : EpochCar}

def Encodable (car : EpochCar) : Prop :=
  ∀ slot, car.Present slot → car.offset slot < 2 ^ 48 ∧ car.blockOffset slot < 2 ^ 48 ∧
    car.blockSize slot < 2 ^ 24 ∧ car.length slot < 2 ^ 32

def record (car : EpochCar) (skipped : Nat → Nat) (slot : Nat) : Bytes :=
  leBytes 8 (if car.Present slot then car.offset slot else skipped slot) ++
    leBytes 4 (car.length slot)

def rangesFile (car : EpochCar) (skipped : Nat → Nat) : Bytes :=
  (List.range (car.slotEnd-car.slotStart+1)).flatMap fun index =>
    car.record skipped (car.slotStart+index)

theorem length_record (skipped : Nat → Nat) (slot : Nat) :
    (car.record skipped slot).length = slotRangesRecordSize := by
  rw [record,List.length_append,leBytes_length,leBytes_length]
  rfl

theorem length_rangesFile (skipped : Nat → Nat) :
    (car.rangesFile skipped).length =
      (car.slotEnd-car.slotStart+1)*slotRangesRecordSize := by
  rw [rangesFile,length_flatMap_of_width fun index _ => length_record skipped _,
    List.length_range]

theorem record_at (skipped : Nat → Nat) {slot : Nat} (hlow : car.slotStart ≤ slot)
    (hhigh : slot ≤ car.slotEnd) :
    At (car.rangesFile skipped) ((slot-car.slotStart)*slotRangesRecordSize)
      (car.record skipped slot) := by
  have hget : (List.range (car.slotEnd-car.slotStart+1))[slot-car.slotStart]? =
      some (slot-car.slotStart) := List.getElem?_range (by omega)
  have hat := (At.self (car.rangesFile skipped)).record
    (fun index _ => length_record skipped (car.slotStart+index)) hget
  rwa [Nat.zero_add,Nat.add_sub_cancel' hlow] at hat

end EpochCar

namespace SlotRangesIndex

variable {car : EpochCar} {skipped : Nat → Nat} {file : IndexFile}

theorem fromFile_rangesFile (hfile : file.data = car.rangesFile skipped) :
    fromFile file car.slotStart car.slotEnd = .ok ⟨file,car.slotStart,car.slotEnd⟩ := by
  have hfits := file.fits
  have hlen := congrArg List.length hfile
  rw [EpochCar.length_rangesFile] at hlen
  rw [fromFile,if_neg (by simp only [hlen,ne_eq,not_not]; omega)]

theorem lookupRange_rangesFile (hfile : file.data = car.rangesFile skipped) {slot : Nat}
    (hlow : car.slotStart ≤ slot) (hhigh : slot ≤ car.slotEnd)
    (hoffset : car.Present slot → car.offset slot < 2 ^ 48) (hlength : car.length slot < 2 ^ 32) :
    lookupRange ⟨file,car.slotStart,car.slotEnd⟩ slot =
      if car.Present slot then .ok (car.offset slot,car.length slot)
      else .error (.slotNotFound slot) := by
  have hslice := IndexFile.slice_at (hfile ▸ EpochCar.record_at skipped hlow hhigh)
  rw [EpochCar.length_record] at hslice
  have hlen : leValue (((car.record skipped slot).drop 8).take 4) = car.length slot := by
    rw [EpochCar.record,List.drop_left' (leBytes_length _ _),
      List.take_of_length_le (leBytes_length _ _).le,leValue_leBytes hlength]
  rw [lookupRange,if_neg (by simp [hlow,hhigh])]
  simp only [hslice,ok_bind,hlen]
  by_cases hpresent : car.Present slot
  · have hoff : leValue ((car.record skipped slot).take 8) = car.offset slot := by
      rw [EpochCar.record,List.take_left' (leBytes_length _ _),if_pos hpresent,
        leValue_leBytes ((hoffset hpresent).trans (by norm_num))]
    rw [if_neg hpresent.length_pos.ne',if_pos hpresent,hoff]
    rfl
  · rw [if_pos (EpochCar.absent_of_not_present hlow hhigh hpresent).length_eq,if_neg hpresent]
    rfl

end SlotRangesIndex

namespace LegacyEpochIndexes

variable {xxh64 : Bytes → UInt64} {self : LegacyEpochIndexes} {car : EpochCar}

/-- The indexes were built for the CAR, and a slot without data is not found. -/
structure BuiltFor (xxh64 : Bytes → UInt64) (indexes : LegacyEpochIndexes) (car : EpochCar) :
    Prop where
  slotStart : indexes.slotStart = car.slotStart
  slotEnd : indexes.slotEnd = car.slotEnd
  dataStart : indexes.dataStart = car.headerSize
  present : ∀ slot, car.Present slot → ∃ cid, indexes.slotIndex.lookup xxh64 slot = .ok cid ∧
    indexes.cidIndex.lookup xxh64 cid =
      .ok (some (leBytes 6 (car.blockOffset slot) ++ leBytes 3 (car.blockSize slot)))
  absent : ∀ slot, car.Absent slot →
    indexes.slotIndex.lookup xxh64 slot = .error (.slotNotFound slot)

theorem decodeOffsetAndSize_leBytes {offset size : Nat} (hoffset : offset < 2 ^ 48)
    (hsize : size < 2 ^ 24) :
    decodeOffsetAndSize (leBytes 6 offset ++ leBytes 3 size) = .ok (offset,size) := by
  have hfirst : leValue (leBytes 6 offset) = offset := leValue_leBytes (by simpa using hoffset)
  have hsecond : leValue (leBytes 3 size) = size := leValue_leBytes (by simpa using hsize)
  simp [decodeOffsetAndSize,offsetAndSizeValueSize,hfirst,hsecond,List.take_of_length_le]

theorem BuiltFor.answers (h : self.BuiltFor xxh64 car) (hencodable : car.Encodable) :
    self.Answers xxh64 car fun slot => if car.Present slot then some slot else none where
  slotStart := h.slotStart
  slotEnd := h.slotEnd
  dataStart := h.dataStart
  own := fun slot hslot => if_pos hslot
  present := by
    intro slot hit hanswer
    split at hanswer
    · rename_i hslot
      cases hanswer
      exact hslot
    · cases hanswer
  found := by
    intro slot hit hlow hhigh hanswer
    split at hanswer
    · rename_i hslot
      cases hanswer
      obtain ⟨cid,hcid,hsection⟩ := h.present slot hslot
      obtain ⟨-,hoffset,hsize,-⟩ := hencodable slot hslot
      simp only [resolve,slotCid,hcid,ok_bind,blockSection,hsection]
      exact decodeOffsetAndSize_leBytes hoffset hsize
    · cases hanswer
  missing := by
    intro slot hlow hhigh hanswer
    split at hanswer
    · cases hanswer
    · rename_i habsent
      have hcid := h.absent slot (EpochCar.absent_of_not_present hlow hhigh habsent)
      exact ⟨slot,by simp only [resolve,slotCid,hcid]; rfl⟩

variable {slot : Nat}

theorem BuiltFor.lookupRange_present (h : self.BuiltFor xxh64 car)
    (hencodable : car.Encodable) (hslot : car.Present slot) :
    self.lookupRange xxh64 slot = .ok (car.offset slot,car.length slot) := by
  have hanswers := h.answers hencodable
  have hend := hslot.2.1
  have habsent {other : Nat} (hlow : car.slotStart ≤ other) (hlt : other < slot)
      (hpassed : Passed (fun slot => if car.Present slot then some slot else none) slot other) :
      car.Absent other := by
    apply EpochCar.absent_of_not_present hlow (by omega)
    intro hpresent
    have := hpassed other (if_pos hpresent)
    omega
  have hscan : self.scanStart xxh64 (car.stop slot) slot = .ok (car.offset slot) := by
    rcases hanswers.scanStart_spec hslot hslot.1 le_rfl with
      ⟨hscan,hall⟩ | ⟨nearest,hit,hlow,hlt,hanswer,-,hall,hscan⟩
    · rw [hscan,← car.offset_slotStart,car.offset_eq_of_absent hslot.1
        fun other hlow hlt => habsent hlow hlt (hall other hlow hlt)]
    · split at hanswer
      · cases hanswer
        rw [hscan,← car.offset_succ hlow,car.offset_eq_of_absent (Nat.succ_le_of_lt hlt)
          fun other hbelow hlt => habsent (by omega) hlt (hall other (by omega) hlt)]
      · cases hanswer
  rw [hanswers.lookupRange_eq hslot hscan hslot.offset_lt_stop.le,EpochCar.stop,
    Nat.add_sub_cancel_left]

theorem BuiltFor.lookupRange_absent (h : self.BuiltFor xxh64 car)
    (hslot : car.Absent slot) :
    self.lookupRange xxh64 slot = .error (.slotNotFound slot) := by
  have hcid := h.absent slot hslot
  rw [lookupRange,if_neg (by simp [h.slotStart,h.slotEnd,hslot.1,hslot.2.1])]
  simp only [slotCid,hcid]
  rfl

/-- The two kinds of index give one range for every slot with data, and both miss the others. -/
theorem lookupRange_agree (xxh64 : Bytes → UInt64) (car : EpochCar)
    (hencodable : car.Encodable) (skipped : Nat → Nat) (file : IndexFile)
    (hfile : file.data = car.rangesFile skipped) (legacy : LegacyEpochIndexes)
    (hbuilt : legacy.BuiltFor xxh64 car) :
    ∃ ranges, SlotRangesIndex.fromFile file car.slotStart car.slotEnd = .ok ranges ∧
      (∀ slot, car.Present slot →
        legacy.lookupRange xxh64 slot = .ok (car.offset slot,car.length slot) ∧
        ranges.lookupRange slot = .ok (car.offset slot,car.length slot)) ∧
      (∀ slot, car.Absent slot →
        legacy.lookupRange xxh64 slot = .error (.slotNotFound slot) ∧
        ranges.lookupRange slot = .error (.slotNotFound slot)) := by
  refine ⟨_,SlotRangesIndex.fromFile_rangesFile hfile,fun slot hslot => ?_,fun slot hslot => ?_⟩
  · obtain ⟨hoffset,-,-,hlength⟩ := hencodable slot hslot
    refine ⟨hbuilt.lookupRange_present hencodable hslot,?_⟩
    rw [SlotRangesIndex.lookupRange_rangesFile hfile hslot.1 hslot.2.1 (fun _ => hoffset) hlength,
      if_pos hslot]
  · have hnot : ¬car.Present slot := fun hpresent => by
      have hsome := hpresent.2.2
      simp [hslot.2.2] at hsome
    refine ⟨hbuilt.lookupRange_absent hslot,?_⟩
    rw [SlotRangesIndex.lookupRange_rangesFile hfile hslot.1 hslot.2.1
      (fun hpresent => absurd hpresent hnot) (by rw [hslot.length_eq]; decide),if_neg hnot]

def oneBucketFile (valueSize numEntries hashLen : Nat) (data : Bytes) : Bytes :=
  compactIndexMagic ++ leBytes 4 13 ++ leBytes 8 valueSize ++ leBytes 4 1 ++ [1] ++
    (leBytes 4 0 ++ leBytes 4 numEntries ++ [UInt8.ofNat hashLen,0] ++ leBytes 6 41) ++ data

def oneBucketIndexes (numEntries hashLen cidSize : Nat) (cids sections : Bytes)
    (hfits : (oneBucketFile cidSize numEntries hashLen cids).length < 2 ^ 64)
    (slotEnd dataStart : Nat) : LegacyEpochIndexes where
  slotIndex := ⟨⟨oneBucketFile cidSize numEntries hashLen cids,hfits⟩,⟨cidSize,1,25⟩⟩
  cidIndex := ⟨⟨9,1,25⟩,fun first last =>
    .ok (((oneBucketFile 9 numEntries hashLen sections).drop first).take (last+1-first))⟩
  slotStart := 0
  slotEnd := slotEnd
  dataStart := dataStart

def smallCar : EpochCar where
  slotStart := 0
  slotEnd := 2
  headerSize := 59
  slots := fun slot =>
    if slot = 0 then some ⟨100,40,by decide,by decide⟩
    else if slot = 2 then some ⟨50,50,by decide,by decide⟩ else none

def smallLegacy : LegacyEpochIndexes :=
  oneBucketIndexes 2 1 8 ([2] ++ leBytes 8 12 ++ [0] ++ leBytes 8 10)
    ([12] ++ leBytes 6 159 ++ leBytes 3 50 ++ [10] ++ leBytes 6 119 ++ leBytes 3 40)
    (by decide) 2 59

theorem smallCar_present (h : smallCar.Present slot) : slot = 0 ∨ slot = 2 := by
  obtain ⟨-,hle,hsome⟩ := h
  have hle : slot ≤ 2 := hle
  interval_cases slot <;> simp_all [smallCar]

theorem smallCar_absent (h : smallCar.Absent slot) : slot = 1 := by
  obtain ⟨-,hle,hnone⟩ := h
  have hle : slot ≤ 2 := hle
  interval_cases slot <;> simp_all [smallCar]

theorem smallLegacy_builtFor : smallLegacy.BuiltFor lastWord smallCar where
  slotStart := rfl
  slotEnd := rfl
  dataStart := rfl
  present := by
    intro slot h
    rcases smallCar_present h with rfl | rfl
    · exact ⟨leBytes 8 10,by decide +kernel,by decide +kernel⟩
    · exact ⟨leBytes 8 12,by decide +kernel,by decide +kernel⟩
  absent := by
    intro slot h
    obtain rfl := smallCar_absent h
    decide +kernel

theorem smallCar_encodable : smallCar.Encodable := by
  intro slot h
  rcases smallCar_present h with rfl | rfl <;> decide

theorem lookupRange_agree_smallCar : smallLegacy.lookupRange lastWord 2 = .ok (159,50) := by
  obtain ⟨ranges,-,hpresent,-⟩ :=
    lookupRange_agree lastWord smallCar smallCar_encodable (fun _ => 0)
    ⟨smallCar.rangesFile fun _ => 0,by decide⟩ rfl smallLegacy smallLegacy_builtFor
  exact (hpresent 2 (by decide)).1

/-- The range found for a slot is not empty, ends with its block and leaves out none of its
data. -/
def Covers (xxh64 : Bytes → UInt64) (self : LegacyEpochIndexes) (car : EpochCar) (slot : Nat) :
    Prop :=
  ∃ start length, self.lookupRange xxh64 slot = .ok (start,length) ∧ 0 < length ∧
    start+length = car.stop slot ∧ start ≤ car.offset slot

/-- The nearest slot below that the scan does not go past is answered with the slot's own block. -/
def OwnHit (answers : Nat → Option Nat) (floor slot : Nat) : Prop :=
  ∃ other, floor ≤ other ∧ other < slot ∧ answers other = some slot ∧
    ∀ between, other < between → between < slot → Passed answers slot between

theorem covers_of_start {start : Nat} (hslot : car.Present slot)
    (hlookup : self.lookupRange xxh64 slot = .ok (start,car.stop slot - start))
    (hle : start ≤ car.offset slot) : self.Covers xxh64 car slot := by
  have hlt := hslot.offset_lt_stop
  exact ⟨start,_,hlookup,by omega,by omega,hle⟩

/-- Whatever absent slots are answered with, the range covers the slot's data unless the scan is
stopped by the slot's own block. -/
theorem lookupRange_covers_iff (xxh64 : Bytes → UInt64) (self : LegacyEpochIndexes)
    (car : EpochCar) (answers : Nat → Option Nat) (h : self.Answers xxh64 car answers)
    (slot : Nat) (hslot : car.Present slot) :
    self.Covers xxh64 car slot ↔ ¬OwnHit answers car.slotStart slot := by
  have hheader := (car.headerSize_le_offset slot).trans hslot.offset_lt_stop.le
  constructor
  · rintro ⟨start,length,hlookup,hpos,hend,-⟩ ⟨other,hlow,hlt,hanswer,hbetween⟩
    rcases h.scanStart_spec hslot hslot.1 le_rfl with
      ⟨-,hall⟩ | ⟨nearest,hit,hnlow,hnlt,hnanswer,hle,hall,hscan⟩
    · exact Nat.lt_irrefl slot (hall other hlow hlt slot hanswer)
    · -- both are the nearest, so the scan stopped at the slot's own block
      obtain rfl : nearest = other := by
        rcases Nat.lt_trichotomy nearest other with hless | heq | hmore
        · exact absurd (hall other hless hlt slot hanswer) (Nat.lt_irrefl slot)
        · exact heq
        · exact absurd (hbetween nearest hmore hnlt hit hnanswer) (by omega)
      cases hanswer.symm.trans hnanswer
      rw [h.lookupRange_eq hslot hscan le_rfl] at hlookup
      cases hlookup
      omega
  · intro hown
    rcases h.scanStart_spec hslot hslot.1 le_rfl with
      ⟨hscan,-⟩ | ⟨nearest,hit,hnlow,hnlt,hnanswer,hle,hall,hscan⟩
    · exact covers_of_start hslot (h.lookupRange_eq hslot hscan hheader)
        (car.headerSize_le_offset slot)
    · have hne : hit ≠ slot := by
        rintro rfl
        exact hown ⟨nearest,hnlow,hnlt,hnanswer,hall⟩
      have hstop := (h.present nearest hit hnanswer).stop_le_offset (Nat.lt_of_le_of_ne hle hne)
      exact covers_of_start hslot
        (h.lookupRange_eq hslot hscan (hstop.trans hslot.offset_lt_stop.le)) hstop

theorem lookupRange_covers_smallCar : smallLegacy.Covers lastWord smallCar 2 := by
  rw [lookupRange_covers_iff lastWord smallLegacy smallCar _
    (smallLegacy_builtFor.answers smallCar_encodable) 2 (by decide)]
  rintro ⟨other,-,hlt,hanswer,-⟩
  simp only at hanswer
  split at hanswer
  · cases hanswer
    omega
  · cases hanswer

def loneCar : EpochCar where
  slotStart := 0
  slotEnd := 431999
  headerSize := 59
  slots := fun slot => if slot = 1 then some ⟨100,40,by decide,by decide⟩ else none

/-- Hashes are truncated to nothing, so that every slot is answered with slot 1. -/
def loneLegacy : LegacyEpochIndexes :=
  oneBucketIndexes 1 0 1 [7] (leBytes 6 119 ++ leBytes 3 40) (by decide) 431999 59

theorem loneCar_present : loneCar.Present slot ↔ slot = 1 := by
  constructor
  · rintro ⟨-,-,hsome⟩
    by_contra hne
    simp [loneCar,hne] at hsome
  · rintro rfl
    decide

/-- The only entry of a bucket whose hashes are truncated to nothing. -/
def loneBucket (value : Bytes) : Bucket where
  hashLen := 0
  valueWidth := value.length
  entries := [(0,value)]
  truncated := by simp
  widths := by simp
  ordered := by simp [EytzingerOrder,inorder]

theorem loneBucket_find (value : Bytes) : (loneBucket value).find 0 = some value :=
  (loneBucket value).find_eq_some_iff.mpr (List.mem_singleton_self _)

theorem bucketHash_one (xxh64 : Bytes → UInt64) (key : Bytes) :
    bucketHash xxh64 1 key = .ok 0 := by
  have hmod (u : UInt64) : u % 1 = 0 := by
    apply UInt64.toNat_inj.mp
    rw [UInt64.toNat_mod]
    exact Nat.mod_one _
  simp [bucketHash,hmod]

theorem truncatedEntryHash_zero (xxh64 : Bytes → UInt64) (key : Bytes) :
    truncatedEntryHash xxh64 0 key 0 = 0 := by
  simp [truncatedEntryHash]

def loneHeader : BucketHeader := ⟨0,1,0,41⟩

theorem loneLegacy_slotCid (xxh64 : Bytes → UInt64) (slot : Nat) :
    loneLegacy.slotCid xxh64 slot = .ok [7] := by
  have hlookup := SlotCidIndex.lookup_eq_find (bucketHash_one xxh64 (leBytes 8 slot))
    (show readBucketHeader loneLegacy.slotIndex.file loneLegacy.slotIndex.header 0 =
      .ok loneHeader by decide)
    (show (loneBucket [7]).DescribedBy loneHeader from ⟨rfl,rfl⟩)
    ⟨(oneBucketFile 1 1 0 []),[],by decide,by decide⟩ rfl
  rw [show truncatedEntryHash xxh64 loneHeader.hashDomain (leBytes 8 slot) loneHeader.hashLen = 0
    from truncatedEntryHash_zero xxh64 _,loneBucket_find] at hlookup
  exact hlookup

theorem loneLegacy_blockSection (xxh64 : Bytes → UInt64) (cid : Bytes) (slot : Nat) :
    loneLegacy.blockSection xxh64 cid slot = .ok (119,40) := by
  have hfetches : loneLegacy.cidIndex.Fetches
      ⟨oneBucketFile 9 1 0 (leBytes 6 119 ++ leBytes 3 40),by decide⟩ := by
    intro offset part hat hne
    have hpos := List.length_pos_iff.mpr hne
    have hslice := hat.slice
    rw [show part.length = offset+part.length-1+1-offset by omega] at hslice
    exact congrArg Except.ok hslice
  have hraw : At (oneBucketFile 9 1 0 (leBytes 6 119 ++ leBytes 3 40)) 25
      (leBytes 4 0 ++ leBytes 4 1 ++ [0,0] ++ leBytes 6 41) :=
    ⟨compactIndexMagic ++ leBytes 4 13 ++ leBytes 8 9 ++ leBytes 4 1 ++ [1],
      leBytes 6 119 ++ leBytes 3 40,by decide,by decide⟩
  have hlookup := CidOffsetIndex.lookup_eq_find hfetches (bucketHash_one xxh64 cid) hraw rfl
    (show BucketHeader.fromBytes (leBytes 4 0 ++ leBytes 4 1 ++ [0,0] ++ leBytes 6 41) =
      loneHeader by decide)
    (show (loneBucket (leBytes 6 119 ++ leBytes 3 40)).DescribedBy loneHeader from ⟨rfl,rfl⟩)
    ⟨oneBucketFile 9 1 0 [],[],by decide,by decide⟩ rfl (by decide)
  rw [show truncatedEntryHash xxh64 loneHeader.hashDomain cid loneHeader.hashLen = 0
    from truncatedEntryHash_zero xxh64 _,loneBucket_find] at hlookup
  rw [blockSection,hlookup,ok_bind]
  exact decodeOffsetAndSize_leBytes (by decide) (by decide)

theorem loneLegacy_answers (xxh64 : Bytes → UInt64) :
    loneLegacy.Answers xxh64 loneCar fun _ => some 1 where
  slotStart := rfl
  slotEnd := rfl
  dataStart := rfl
  own := by
    intro slot h
    rw [loneCar_present.mp h]
  present := by
    intro slot hit h
    cases h
    exact loneCar_present.mpr rfl
  found := by
    intro slot hit _ _ h
    cases h
    rw [resolve,loneLegacy_slotCid,ok_bind,loneLegacy_blockSection]
    rfl
  missing := by
    intro slot _ _ h
    cases h

theorem loneLegacy_uncovered (xxh64 : Bytes → UInt64) :
    loneLegacy.Answers xxh64 loneCar (fun _ => some 1) ∧ loneCar.Present 1 ∧
      loneLegacy.lookupRange xxh64 1 = .ok (159,0) ∧ ¬loneLegacy.Covers xxh64 loneCar 1 := by
  have hanswers := loneLegacy_answers xxh64
  have hpresent := loneCar_present.mpr rfl
  have hfound : loneLegacy.resolve xxh64 0 = .ok (119,40) :=
    hanswers.found 0 1 (by decide) (by decide) rfl
  have hscan : loneLegacy.scanStart xxh64 (loneCar.stop 1) 1 = .ok (119+40) :=
    scanStart_take (by decide) hfound (by decide)
  have hlookup : loneLegacy.lookupRange xxh64 1 = .ok (159,0) :=
    hanswers.lookupRange_eq hpresent hscan (by decide)
  refine ⟨hanswers,hpresent,hlookup,?_⟩
  rintro ⟨start,length,hrange,hpos,-⟩
  rw [hlookup] at hrange
  cases hrange
  exact Nat.lt_irrefl 0 hpos

theorem not_covers_loneCar :
    loneLegacy.Answers (fun _ => 0) loneCar (fun _ => some 1) ∧ loneCar.Present 1 ∧
      loneLegacy.lookupRange (fun _ => 0) 1 = .ok (159,0) ∧
      ¬loneLegacy.Covers (fun _ => 0) loneCar 1 :=
  loneLegacy_uncovered fun _ => 0

end LegacyEpochIndexes

end Jetstreamer.Firehose
