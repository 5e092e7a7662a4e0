import Jetstreamer.Firehose.CompactIndex
set_option autoImplicit false

namespace Jetstreamer.Firehose
open Lib

variable {α β : Type} {xxh64 : Bytes → UInt64} {file : IndexFile}

def Panics (x : Except SlotOffsetIndexError α) : Prop := x = .error .panics

namespace Panics

@[simp] theorem ok {a : α} : ¬Panics (.ok a) := nofun

@[simp] theorem pure {a : α} : ¬Panics (Pure.pure a) := nofun

@[simp] theorem error {e : SlotOffsetIndexError} :
    Panics (.error e : Except _ α) ↔ e = .panics := by
  simp [Panics]

@[simp] theorem throw {e : SlotOffsetIndexError} :
    Panics (MonadExcept.throw e : Except _ α) ↔ e = .panics := error

variable {x : Except SlotOffsetIndexError α}

@[simp] theorem bind {f : α → Except SlotOffsetIndexError β} :
    Panics (x >>= f) ↔ Panics x ∨ ∃ a, x = .ok a ∧ Panics (f a) := by
  cases x with
  | error e => exact ⟨fun h => .inl (congrArg Except.error (Except.error.inj h)),
      fun h => h.elim (fun h => congrArg Except.error (Except.error.inj h)) nofun⟩
  | ok a => simp

@[simp] theorem map {f : α → β} :
    Panics (f <$> x) ↔ Panics x := by
  cases x with
  | error e => exact ⟨fun h => congrArg Except.error (Except.error.inj h),
      fun h => congrArg Except.error (Except.error.inj h)⟩
  | ok a => exact iff_of_false nofun nofun

@[simp] theorem ite {c : Prop} [Decidable c] {y : Except SlotOffsetIndexError α} :
    Panics (if c then x else y) ↔ c ∧ Panics x ∨ ¬c ∧ Panics y := by
  split <;> simp_all

theorem of_mapM {f : β → Except SlotOffsetIndexError α} {items : List β}
    (h : Panics (items.mapM f)) : ∃ item ∈ items, Panics (f item) := by
  induction items with
  | nil => simp at h
  | cons item rest ih =>
    simp only [List.mapM_cons,bind,pure,and_false,exists_const,or_false] at h
    rcases h with hitem | ⟨a,-,hrest⟩
    · exact ⟨item,List.mem_cons_self,hitem⟩
    · obtain ⟨other,hmem,hother⟩ := ih hrest
      exact ⟨other,List.mem_cons_of_mem _ hmem,hother⟩

end Panics

@[simp] theorem IndexFile.slice_not_panics {offset len : Nat} :
    ¬Panics (file.slice offset len) := by
  simp [slice]

theorem IndexFile.slice_ok_iff {offset len : Nat} {bytes : Bytes} :
    file.slice offset len = .ok bytes ↔
      offset+len ≤ file.data.length ∧ (file.data.drop offset).take len = bytes := by
  have hfits := file.fits
  unfold slice
  split
  · exact iff_of_false nofun (by omega)
  · split
    · exact iff_of_false nofun (by omega)
    · simp only [Except.ok.injEq,iff_and_self]
      omega

variable {data : Bytes}

@[simp] theorem indexRange_panics {start stop : Nat} :
    Panics (indexRange data start stop) ↔ ¬(start ≤ stop ∧ stop ≤ data.length) := by
  simp [indexRange]

theorem indexRange_ok_iff {part : Bytes} {start stop : Nat} :
    indexRange data start stop = .ok part ↔
      (start ≤ stop ∧ stop ≤ data.length) ∧ (data.drop start).take (stop-start) = part := by
  unfold indexRange
  split <;> simp_all

def usizeAdd (a b : Nat) : Except SlotOffsetIndexError Nat :=
  if a+b < 2 ^ 64 then .ok (a+b) else .error .panics

def usizeMul (a b : Nat) : Except SlotOffsetIndexError Nat :=
  if a*b < 2 ^ 64 then .ok (a*b) else .error .panics

@[simp] theorem usizeAdd_panics {a b : Nat} : Panics (usizeAdd a b) ↔ 2 ^ 64 ≤ a+b := by
  simp [usizeAdd]

@[simp] theorem usizeMul_panics {a b : Nat} : Panics (usizeMul a b) ↔ 2 ^ 64 ≤ a*b := by
  simp [usizeMul]

@[simp] theorem usizeAdd_ok_iff {a b c : Nat} : usizeAdd a b = .ok c ↔ a+b < 2 ^ 64 ∧ a+b = c := by
  unfold usizeAdd
  split <;> simp_all

@[simp] theorem usizeMul_ok_iff {a b c : Nat} : usizeMul a b = .ok c ↔ a*b < 2 ^ 64 ∧ a*b = c := by
  unfold usizeMul
  split <;> simp_all

/-- Where overflow is checked, the shift to the ninth byte's place stops the program. -/
def readHashChecked (bytes : Bytes) : Except SlotOffsetIndexError UInt64 :=
  if 8 < bytes.length then .error .panics else .ok (readHash bytes)

@[simp] theorem readHashChecked_panics {bytes : Bytes} :
    Panics (readHashChecked bytes) ↔ 8 < bytes.length := by
  simp [readHashChecked]

inductive Visits {ε : Type} (hashAt : Nat → Except ε UInt64) (targetHash : UInt64) :
    Nat → Prop where
  | root : Visits hashAt targetHash 0
  | child {index : Nat} {hash : UInt64} : Visits hashAt targetHash index →
      hashAt index = .ok hash → hash ≠ targetHash →
      Visits hashAt targetHash
        (if hash < targetHash then (index <<< 1 ||| 1)+1 else index <<< 1 ||| 1)

section Search

variable {max : Nat} {hashAt : Nat → Except SlotOffsetIndexError UInt64}
  {found : Nat → Except SlotOffsetIndexError α} {absent : α} {targetHash : UInt64}

theorem Visits.searchBucket_eq {index : Nat} (h : Visits hashAt targetHash index)
    (hlt : index < max) : searchBucket max hashAt found absent targetHash 0 =
      searchBucket max hashAt found absent targetHash index := by
  induction h with
  | root => rfl
  | @child index hash _ hhash hne ih =>
    have hparent : index < max := by
      rw [left_child] at hlt
      split at hlt <;> omega
    rw [ih hparent]
    conv_lhs => rw [searchBucket,if_pos hparent,hhash,ok_bind,if_neg hne]

theorem searchBucket_panics_iff
    (hfound : ∀ index < max, ∀ hash, hashAt index = .ok hash → ¬Panics (found index)) :
    Panics (searchBucket max hashAt found absent targetHash 0) ↔
      ∃ index < max, Visits hashAt targetHash index ∧ Panics (hashAt index) := by
  constructor
  · suffices hfrom : ∀ index, Visits hashAt targetHash index →
        Panics (searchBucket max hashAt found absent targetHash index) →
          ∃ index < max, Visits hashAt targetHash index ∧ Panics (hashAt index) from
      hfrom 0 .root
    intro index
    induction index using searchBucket.induct max targetHash with
    | case1 index hlt ih =>
      intro hvisits h
      rw [searchBucket,if_pos hlt] at h
      rcases Panics.bind.mp h with hhere | ⟨hash,hhash,h⟩
      · exact ⟨index,hlt,hvisits,hhere⟩
      · split at h
        · exact absurd h (hfound index hlt hash hhash)
        · rename_i hne
          exact ih hash (hvisits.child hhash hne) h
    | case2 index hge =>
      intro _ h
      rw [searchBucket,if_neg hge] at h
      cases h
  · rintro ⟨index,hlt,hvisits,hhere⟩
    rw [hvisits.searchBucket_eq hlt,searchBucket,if_pos hlt]
    exact Panics.bind.mpr (.inl hhere)

end Search

section Opening

def totalHeaderSize (data : Bytes) : Nat := 12 + leValue ((data.drop 8).take 4)

/-- A header that states fewer bytes than its own fields take, in a file that has them all. -/
def HeaderCut (data : Bytes) : Prop :=
  12 ≤ data.length ∧ data.take 8 = compactIndexMagic ∧ totalHeaderSize data ≤ data.length ∧
    (data.length < 25 ∨ data.getD 24 0 = 1 ∧ totalHeaderSize data < 25)

theorem parsePairs_not_panics (pairs : Nat) (bytes : Bytes) : ¬Panics (parsePairs pairs bytes) := by
  induction pairs generalizing bytes with
  | zero => simp [parsePairs]
  | succ pairs ih =>
    cases bytes with
    | nil => simp [parsePairs]
    | cons keyLen rest =>
      rw [parsePairs]
      cases hrest : rest.drop keyLen.toNat with
      | nil => simp
      | cons valueLen values => simp [ih]

@[simp] theorem parseMetadata_not_panics (bytes : Bytes) : ¬Panics (parseMetadata bytes) := by
  cases bytes with
  | nil => simp [parseMetadata]
  | cons pairs rest => exact parsePairs_not_panics _ _

theorem parseCompactIndexHeader_panics_iff {expectedKind : Bytes}
    {expectedValueSize : Option Nat} :
    Panics (parseCompactIndexHeader data expectedKind expectedValueSize) ↔ HeaderCut data := by
  unfold parseCompactIndexHeader HeaderCut totalHeaderSize
  simp only [Panics.ite,Panics.error,Panics.bind,parseMetadata_not_panics,reduceCtorEq,and_false,
    false_or,and_true,not_lt,ne_eq,not_not]
  constructor
  · rintro ⟨hlen,hmagic,htotal,hcut | ⟨-,hversion,hcut | ⟨-,metadata,-,hrest⟩⟩⟩
    · exact ⟨hlen,hmagic,htotal,.inl hcut⟩
    · exact ⟨hlen,hmagic,htotal,.inr ⟨hversion,hcut⟩⟩
    · -- the fields are compared and the metadata looked up without indexing
      exfalso
      revert hrest
      cases expectedValueSize <;> cases metadataGet metadata metadataKeyKind <;> simp
  · rintro ⟨hlen,hmagic,htotal,hcut⟩
    rcases lt_or_ge data.length 25 with hshort | hfields
    · exact ⟨hlen,hmagic,htotal,.inl hshort⟩
    · obtain ⟨hversion,hcut⟩ := hcut.resolve_left (by omega)
      exact ⟨hlen,hmagic,htotal,.inr ⟨hfields,hversion,.inl hcut⟩⟩

variable {header : CompactIndexHeader}

@[simp] theorem readBucketHeader_not_panics {index : Nat} :
    ¬Panics (readBucketHeader file header index) := by
  simp [readBucketHeader]

theorem LocalSlotIndex.fromBytes_panics_iff : Panics (fromBytes file) ↔ HeaderCut file.data := by
  have hbuckets (header : CompactIndexHeader) :
      ¬Panics ((List.range header.numBuckets.toNat).mapM (readBucketHeader file header)) := by
    intro h
    obtain ⟨index,-,h⟩ := Panics.of_mapM h
    exact readBucketHeader_not_panics h
  simp only [fromBytes,Panics.bind,hbuckets,parseCompactIndexHeader_panics_iff,Panics.pure,
    and_false,exists_false,or_false]

def IndexFile.fetchRange (file : IndexFile) (start stop : Nat) :
    Except SlotOffsetIndexError Bytes :=
  .ok ((file.data.drop start).take (stop+1-start))

theorem parseCompactIndexHeader_ok {expectedKind : Bytes} {expectedValueSize : Option Nat}
    (h : parseCompactIndexHeader data expectedKind expectedValueSize = .ok header) :
    header.headerSize = totalHeaderSize data ∧
      ∀ expected, expectedValueSize = some expected → header.valueSize = expected := by
  unfold parseCompactIndexHeader at h
  dsimp only at h
  iterate 6
    split at h
    · cases h
  obtain ⟨metadata,-,h⟩ := bind_ok h
  -- what is left of the branches are those where neither comparison fails
  cases expectedValueSize <;> cases hkind : metadataGet metadata metadataKeyKind <;>
    simp only [hkind] at h <;> try split_ifs at h
  all_goals cases h
  all_goals simp_all [totalHeaderSize]

theorem bucketHeader_offset_lt {kind : Bytes} {size : Option Nat}
    (h : parseCompactIndexHeader data kind size = .ok header) {index : Nat}
    (hlt : index < header.numBuckets.toNat) :
    header.headerSize + (index+1)*bucketHeaderSize < 2 ^ 64 := by
  have hbuckets := header.numBuckets.toNat_lt
  have hlen := leValue_lt ((data.drop 8).take 4)
  have hpow : 256 ^ ((data.drop 8).take 4).length ≤ 256 ^ 4 :=
    Nat.pow_le_pow_right (by decide) (List.length_take_le _ _)
  rw [(parseCompactIndexHeader_ok h).1,totalHeaderSize,bucketHeaderSize]
  omega

end Opening

section Lookups

def IndexFile.hashAt (file : IndexFile) (base stride hashLen index : Nat) :
    Except SlotOffsetIndexError UInt64 := do
  let shift ← usizeMul index stride
  let offset ← usizeAdd base shift
  let hashSlice ← file.slice offset hashLen
  readHashChecked hashSlice

variable {index : Nat}

theorem IndexFile.hashAt_panics_iff {base stride hashLen : Nat} :
    Panics (file.hashAt base stride hashLen index) ↔ 2 ^ 64 ≤ base + index*stride ∨
      8 < hashLen ∧ base + index*stride + hashLen ≤ file.data.length := by
  have hfits := file.fits
  simp only [hashAt,Panics.bind,usizeMul_panics,usizeAdd_panics,usizeMul_ok_iff,usizeAdd_ok_iff,
    slice_ok_iff,slice_not_panics,readHashChecked_panics]
  constructor
  · rintro (hmul | ⟨_,⟨hmul,rfl⟩,hadd | ⟨_,⟨hadd,rfl⟩,hslice | ⟨_,⟨hinside,rfl⟩,hlong⟩⟩⟩)
    · exact .inl (by omega)
    · exact .inl hadd
    · exact hslice.elim
    · rw [List.length_take,List.length_drop] at hlong
      exact .inr ⟨by omega,hinside⟩
  · intro h
    by_cases hmul : 2 ^ 64 ≤ index*stride
    · exact .inl hmul
    refine .inr ⟨_,⟨by omega,rfl⟩,?_⟩
    by_cases hadd : 2 ^ 64 ≤ base + index*stride
    · exact .inl hadd
    obtain ⟨hlong,hinside⟩ := h.resolve_left hadd
    refine .inr ⟨_,⟨by omega,rfl⟩,.inr ⟨_,⟨hinside,rfl⟩,?_⟩⟩
    rw [List.length_take,List.length_drop]
    omega

def LocalSlotIndex.containsSlotChecked (xxh64 : Bytes → UInt64) (self : LocalSlotIndex)
    (slot : Nat) : Except SlotOffsetIndexError Bool := do
  let key := leBytes 8 slot
  let bucketIndex ← bucketHash xxh64 self.header.numBuckets key
  match self.buckets[bucketIndex]? with
  | none => .error (.indexFormat (.bucketOutOfBounds bucketIndex))
  | some header =>
    if header.numEntries = 0 then return false
    else
      let targetHash := truncatedEntryHash xxh64 header.hashDomain key header.hashLen
      let stride ← usizeAdd header.hashLen.toNat self.header.valueSize
      searchBucket header.numEntries.toNat
        (self.file.hashAt header.fileOffset.toNat stride header.hashLen.toNat)
        (fun _ => .ok true) false targetHash 0

def SlotBucketData.lookupChecked (xxh64 : Bytes → UInt64) (self : SlotBucketData) (key : Bytes) :
    Except SlotOffsetIndexError (Option Bytes) :=
  let targetHash := truncatedEntryHash xxh64 self.header.hashDomain key self.header.hashLen
  let hashLen := self.header.hashLen.toNat
  searchBucket self.header.numEntries.toNat (self.file.hashAt self.dataOffset self.stride hashLen)
    (fun index => do
      let shift ← usizeMul index self.stride
      let offset ← usizeAdd self.dataOffset shift
      let valueStart ← usizeAdd offset hashLen
      let valueSlice ← self.file.slice valueStart self.valueWidth
      return some valueSlice)
    none targetHash 0

def SlotCidIndex.loadBucketChecked (self : SlotCidIndex) (index : Nat) :
    Except SlotOffsetIndexError SlotBucketData := do
  let header ← readBucketHeader self.file self.header index
  let stride ← usizeAdd header.hashLen.toNat self.header.valueSize
  let dataLen ← usizeMul stride header.numEntries.toNat
  let dataStart := header.fileOffset.toNat
  let _ ← self.file.slice dataStart dataLen
  return ⟨header,self.file,dataStart,stride,self.header.valueSize⟩

def SlotCidIndex.lookupChecked (xxh64 : Bytes → UInt64) (self : SlotCidIndex) (slot : Nat) :
    Except SlotOffsetIndexError Bytes := do
  let bucketIndex ← bucketHash xxh64 self.header.numBuckets (leBytes 8 slot)
  let bucket ← self.loadBucketChecked bucketIndex
  match ← bucket.lookupChecked xxh64 (leBytes 8 slot) with
  | some bytes => return bytes
  | none => throw (.slotNotFound slot)

def RemoteBucketData.lookupChecked (xxh64 : Bytes → UInt64) (self : RemoteBucketData)
    (key : Bytes) : Except SlotOffsetIndexError (Option Bytes) :=
  let targetHash := truncatedEntryHash xxh64 self.header.hashDomain key self.header.hashLen
  let hashLen := self.header.hashLen.toNat
  searchBucket self.header.numEntries.toNat
    (fun index => do
      let offset ← usizeMul index self.stride
      let stop ← usizeAdd offset hashLen
      let hashSlice ← indexRange self.data offset stop
      readHashChecked hashSlice)
    (fun index => do
      let offset ← usizeMul index self.stride
      let valueStart ← usizeAdd offset hashLen
      let valueEnd ← usizeAdd valueStart self.valueWidth
      let value ← indexRange self.data valueStart valueEnd
      return some value)
    none targetHash 0

/-- The values of this index are nine bytes wide, so that no bucket's size overflows. -/
def CidOffsetIndex.lookupChecked (xxh64 : Bytes → UInt64) (self : CidOffsetIndex) (key : Bytes) :
    Except SlotOffsetIndexError (Option Bytes) := do
  let bucketIndex ← bucketHash xxh64 self.header.numBuckets key
  let bucket ← self.loadBucket bucketIndex
  bucket.lookupChecked xxh64 key

@[simp] theorem bucketHash_panics {numBuckets : UInt32} {key : Bytes} :
    Panics (bucketHash xxh64 numBuckets key) ↔ numBuckets = 0 := by
  simp [bucketHash]

def LocalSlotIndex.Tripped (xxh64 : Bytes → UInt64) (self : LocalSlotIndex) (slot : Nat) : Prop :=
  self.header.numBuckets = 0 ∨
    ∃ bucketIndex header, bucketHash xxh64 self.header.numBuckets (leBytes 8 slot) =
      .ok bucketIndex ∧
      self.buckets[bucketIndex]? = some header ∧ header.numEntries ≠ 0 ∧
      let base := header.fileOffset.toNat
      let hashLen := header.hashLen.toNat
      let stride := hashLen + self.header.valueSize
      (2 ^ 64 ≤ stride ∨ ∃ index < header.numEntries.toNat,
        Visits (self.file.hashAt base stride hashLen)
          (truncatedEntryHash xxh64 header.hashDomain (leBytes 8 slot) header.hashLen) index ∧
        (2 ^ 64 ≤ base + index*stride ∨
          8 < hashLen ∧ base + index*stride + hashLen ≤ self.file.data.length))

theorem LocalSlotIndex.containsSlotChecked_panics_iff {self : LocalSlotIndex} {slot : Nat} :
    Panics (self.containsSlotChecked xxh64 slot) ↔ self.Tripped xxh64 slot := by
  simp only [containsSlotChecked,Tripped,Panics.bind,bucketHash_panics]
  refine or_congr_right ?_
  constructor
  · rintro ⟨bucketIndex,hindex,h⟩
    cases hheader : self.buckets[bucketIndex]? with
    | none => simp [hheader] at h
    | some header =>
      simp only [hheader,Panics.ite,Panics.pure,and_false,false_or,Panics.bind,usizeAdd_panics,
        usizeAdd_ok_iff] at h
      obtain ⟨hentries,h⟩ := h
      refine ⟨bucketIndex,header,hindex,hheader,hentries,h.imp id ?_⟩
      rintro ⟨_,⟨-,rfl⟩,h⟩
      simpa only [searchBucket_panics_iff fun _ _ _ _ => Panics.ok,
        IndexFile.hashAt_panics_iff] using h
  · rintro ⟨bucketIndex,header,hindex,hheader,hentries,h⟩
    refine ⟨bucketIndex,hindex,?_⟩
    simp only [hheader,Panics.ite,Panics.pure,and_false,false_or,Panics.bind,usizeAdd_panics,
      usizeAdd_ok_iff]
    refine ⟨hentries,?_⟩
    by_cases hstride : 2 ^ 64 ≤ header.hashLen.toNat + self.header.valueSize
    · exact .inl hstride
    · refine .inr ⟨_,⟨by omega,rfl⟩,?_⟩
      simpa only [searchBucket_panics_iff fun _ _ _ _ => Panics.ok,
        IndexFile.hashAt_panics_iff] using h.resolve_left hstride

theorem searchBucket_panics_iff_first {max : Nat}
    {hashAt : Nat → Except SlotOffsetIndexError UInt64}
    {found : Nat → Except SlotOffsetIndexError α} {absent : α} {targetHash : UInt64} {long : Prop}
    (hhash : ∀ index < max, Panics (hashAt index) ↔ long)
    (hfound : ∀ index < max, ¬Panics (found index)) :
    Panics (searchBucket max hashAt found absent targetHash 0) ↔ 0 < max ∧ long := by
  rw [searchBucket_panics_iff fun index hlt _ _ => hfound index hlt]
  constructor
  · rintro ⟨index,hlt,-,hindex⟩
    exact ⟨by omega,(hhash index hlt).mp hindex⟩
  · rintro ⟨hpos,hlong⟩
    exact ⟨0,hpos,.root,(hhash 0 hpos).mpr hlong⟩

theorem entry_le (stride : Nat) {entries : Nat} (h : index < entries) :
    index*stride + stride ≤ stride*entries := by
  rw [← Nat.succ_mul,Nat.mul_comm stride]
  exact Nat.mul_le_mul_right _ h

theorem SlotBucketData.lookupChecked_panics_iff {bucket : SlotBucketData} {key : Bytes}
    (hstride : bucket.stride = bucket.header.hashLen.toNat + bucket.valueWidth)
    (hinside : bucket.dataOffset + bucket.stride*bucket.header.numEntries.toNat ≤
      bucket.file.data.length) :
    Panics (bucket.lookupChecked xxh64 key) ↔
      0 < bucket.header.numEntries.toNat ∧ 8 < bucket.header.hashLen.toNat := by
  have hfits := bucket.file.fits
  refine searchBucket_panics_iff_first (fun index hlt => ?_) fun index hlt => ?_
  · have hentry := entry_le bucket.stride hlt
    rw [IndexFile.hashAt_panics_iff]
    omega
  · have hentry := entry_le bucket.stride hlt
    simp only [Panics.bind,usizeMul_panics,usizeAdd_panics,usizeMul_ok_iff,usizeAdd_ok_iff,
      IndexFile.slice_not_panics,Panics.pure,and_false,exists_false,or_false]
    rintro (h | ⟨_,⟨-,rfl⟩,h | ⟨_,⟨-,rfl⟩,h⟩⟩) <;> omega

/-- What the slot's bucket has to be for the firehose's lookup to stop the program. -/
def SlotCidIndex.Tripped (xxh64 : Bytes → UInt64) (self : SlotCidIndex) (slot : Nat) : Prop :=
  self.header.numBuckets = 0 ∨
    ∃ bucketIndex header, bucketHash xxh64 self.header.numBuckets (leBytes 8 slot) =
      .ok bucketIndex ∧
      readBucketHeader self.file self.header bucketIndex = .ok header ∧
      let stride := header.hashLen.toNat + self.header.valueSize
      let dataLen := stride*header.numEntries.toNat
      (2 ^ 64 ≤ stride ∨ 2 ^ 64 ≤ dataLen ∨
        header.fileOffset.toNat + dataLen ≤ self.file.data.length ∧
          0 < header.numEntries.toNat ∧ 8 < header.hashLen.toNat)

theorem SlotCidIndex.lookupChecked_panics_iff {self : SlotCidIndex} {slot : Nat} :
    Panics (self.lookupChecked xxh64 slot) ↔ self.Tripped xxh64 slot := by
  have hanswer (answer : Option Bytes) : ¬Panics (match answer with
      | some bytes => pure bytes
      | none => throw (.slotNotFound slot)) := by
    cases answer <;> simp
  simp only [lookupChecked,loadBucketChecked,Tripped,Panics.bind,bucketHash_panics,hanswer,
    readBucketHeader_not_panics,usizeAdd_panics,usizeAdd_ok_iff,usizeMul_panics,usizeMul_ok_iff,
    IndexFile.slice_not_panics,Panics.pure,and_false,exists_false,or_false,false_or]
  refine or_congr_right (exists_congr fun bucketIndex => ?_)
  constructor
  · rintro ⟨hindex,⟨header,hheader,hstride | ⟨_,⟨-,rfl⟩,hlen⟩⟩ | ⟨bucket,hload,hlookup⟩⟩
    · exact ⟨header,hindex,hheader,.inl hstride⟩
    · exact ⟨header,hindex,hheader,.inr (.inl hlen)⟩
    · obtain ⟨header,hheader,hload⟩ := bind_ok hload
      obtain ⟨stride,hstride,hload⟩ := bind_ok hload
      obtain ⟨dataLen,hlen,hload⟩ := bind_ok hload
      obtain ⟨bytes,hslice,hload⟩ := bind_ok hload
      cases hload
      obtain ⟨-,rfl⟩ := usizeAdd_ok_iff.mp hstride
      obtain ⟨-,rfl⟩ := usizeMul_ok_iff.mp hlen
      have hinside := (IndexFile.slice_ok_iff.mp hslice).1
      exact ⟨header,hindex,hheader,.inr (.inr ⟨hinside,
        (SlotBucketData.lookupChecked_panics_iff rfl hinside).mp hlookup⟩)⟩
  · rintro ⟨header,hindex,hheader,h⟩
    refine ⟨hindex,?_⟩
    by_cases hstride : 2 ^ 64 ≤ header.hashLen.toNat + self.header.valueSize
    · exact .inl ⟨header,hheader,.inl hstride⟩
    by_cases hlen : 2 ^ 64 ≤ (header.hashLen.toNat + self.header.valueSize)*header.numEntries.toNat
    · exact .inl ⟨header,hheader,.inr ⟨_,⟨by omega,rfl⟩,hlen⟩⟩
    obtain ⟨hinside,hlong⟩ := (h.resolve_left hstride).resolve_left hlen
    refine .inr ⟨⟨header,self.file,_,_,self.header.valueSize⟩,?_,
      (SlotBucketData.lookupChecked_panics_iff rfl hinside).mpr hlong⟩
    rw [hheader,ok_bind,usizeAdd_ok_iff.mpr ⟨by omega,rfl⟩,ok_bind,
      usizeMul_ok_iff.mpr ⟨by omega,rfl⟩,ok_bind,IndexFile.slice_ok_iff.mpr ⟨hinside,rfl⟩]
    rfl

theorem CidOffsetIndex.loadBucket_ok {self : CidOffsetIndex}
    {bucket : RemoteBucketData} (h : self.loadBucket index = .ok bucket) :
    bucket.valueWidth = self.header.valueSize ∧
      bucket.stride = bucket.header.hashLen.toNat + bucket.valueWidth ∧
      bucket.data.length = bucket.stride*bucket.header.numEntries.toNat := by
  obtain ⟨headerBytes,-,h⟩ := bind_ok h
  split at h
  · cases h
  dsimp only [pure_bind] at h
  split at h
  · rename_i hstride
    split at h
    · cases h
      exact ⟨rfl,rfl,by simp [hstride]⟩
    · cases h
  · split at h
    · rename_i hlen
      cases h
      exact ⟨rfl,rfl,hlen.symm⟩
    · split at h
      · cases h
      · obtain ⟨data,-,h⟩ := bind_ok h
        split at h
        · cases h
        · rename_i hlen
          cases h
          exact ⟨rfl,rfl,not_not.mp hlen⟩

theorem RemoteBucketData.lookupChecked_panics_iff {bucket : RemoteBucketData} {key : Bytes}
    (hstride : bucket.stride = bucket.header.hashLen.toNat + bucket.valueWidth)
    (hlen : bucket.data.length = bucket.stride*bucket.header.numEntries.toNat)
    (hfits : bucket.data.length < 2 ^ 64) :
    Panics (bucket.lookupChecked xxh64 key) ↔
      0 < bucket.header.numEntries.toNat ∧ 8 < bucket.header.hashLen.toNat := by
  refine searchBucket_panics_iff_first (fun index hlt => ?_) fun index hlt => ?_
  · have hentry := entry_le bucket.stride hlt
    simp only [Panics.bind,usizeMul_panics,usizeAdd_panics,usizeMul_ok_iff,usizeAdd_ok_iff,
      indexRange_panics,indexRange_ok_iff,readHashChecked_panics]
    constructor
    · rintro (h | ⟨_,⟨-,rfl⟩,h | ⟨_,⟨-,rfl⟩,h | ⟨_,⟨hrange,rfl⟩,h⟩⟩⟩)
      · omega
      · omega
      · omega
      · rw [List.length_take,List.length_drop] at h
        omega
    · intro hlong
      refine .inr ⟨_,⟨by omega,rfl⟩,.inr ⟨_,⟨by omega,rfl⟩,.inr ⟨_,⟨⟨by omega,by omega⟩,rfl⟩,?_⟩⟩⟩
      rw [List.length_take,List.length_drop]
      omega
  · have hentry := entry_le bucket.stride hlt
    simp only [Panics.bind,usizeMul_panics,usizeAdd_panics,usizeMul_ok_iff,usizeAdd_ok_iff,
      indexRange_panics,Panics.pure,and_false,exists_false,or_false]
    rintro (h | ⟨_,⟨-,rfl⟩,h | ⟨_,⟨-,rfl⟩,h | ⟨_,⟨-,rfl⟩,h⟩⟩⟩) <;> omega

/-- A fetched bucket of the cids' index with hashes that are too long. -/
def CidOffsetIndex.Tripped (xxh64 : Bytes → UInt64) (self : CidOffsetIndex) (key : Bytes) : Prop :=
  self.header.numBuckets = 0 ∨
    ∃ bucketIndex bucket, bucketHash xxh64 self.header.numBuckets key = .ok bucketIndex ∧
      self.loadBucket bucketIndex = .ok bucket ∧ 0 < bucket.header.numEntries.toNat ∧
      8 < bucket.header.hashLen.toNat

theorem CidOffsetIndex.lookupChecked_panics_iff {self : CidOffsetIndex} {key : Bytes}
    (hvalue : self.header.valueSize = 9)
    (hfetch : ∀ start stop, ¬Panics (self.fetchRange start stop)) :
    Panics (self.lookupChecked xxh64 key) ↔ self.Tripped xxh64 key := by
  have hload (index : Nat) : ¬Panics (self.loadBucket index) := by
    simp [loadBucket,hfetch]
  have hbucket {index : Nat} {bucket : RemoteBucketData} (h : self.loadBucket index = .ok bucket) :
      Panics (bucket.lookupChecked xxh64 key) ↔
        0 < bucket.header.numEntries.toNat ∧ 8 < bucket.header.hashLen.toNat := by
    obtain ⟨hwidth,hstride,hlen⟩ := loadBucket_ok h
    refine RemoteBucketData.lookupChecked_panics_iff hstride hlen ?_
    have hhash := bucket.header.hashLen.toNat_lt
    have hentries := bucket.header.numEntries.toNat_lt
    rw [hlen,hstride,hwidth,hvalue]
    nlinarith
  simp only [lookupChecked,Tripped,Panics.bind,bucketHash_panics,hload,false_or]
  refine or_congr_right (exists_congr fun bucketIndex => ?_)
  constructor
  · rintro ⟨hindex,bucket,hok,h⟩
    exact ⟨bucket,hindex,hok,(hbucket hok).mp h⟩
  · rintro ⟨bucket,hindex,hok,h⟩
    exact ⟨hindex,bucket,hok,(hbucket hok).mpr h⟩

end Lookups

def cidToOffsetKind : Bytes :=
  [99,105,100,45,116,111,45,111,102,102,115,101,116,45,97,110,100,45,115,105,122,101]

/-- A file that no reader of compact indexes is stopped by, neither when it is opened nor by a
lookup in what was opened. -/
structure ParsedSafely (xxh64 : Bytes → UInt64) (file : IndexFile) : Prop where
  node : ¬Panics (LocalSlotIndex.fromBytes file)
  header : ∀ kind size, ¬Panics (parseCompactIndexHeader file.data kind size)
  offsets : ∀ kind size header, parseCompactIndexHeader file.data kind size = .ok header →
    ∀ index < header.numBuckets.toNat, header.headerSize + (index+1)*bucketHeaderSize < 2 ^ 64
  containsSlot : ∀ index, LocalSlotIndex.fromBytes file = .ok index →
    ∀ slot, ¬Panics (index.containsSlotChecked xxh64 slot)
  slotLookup : ∀ header, parseCompactIndexHeader file.data slotToCidKind none = .ok header →
    ∀ slot, ¬Panics (SlotCidIndex.lookupChecked xxh64 ⟨file,header⟩ slot)
  cidLookup : ∀ header, parseCompactIndexHeader file.data cidToOffsetKind (some 9) = .ok header →
    ∀ key, ¬Panics (CidOffsetIndex.lookupChecked xxh64 ⟨header,file.fetchRange⟩ key)

/-- Exactly the files with a whole header, with buckets, and with no bucket that makes a search
overflow are read safely. -/
theorem parsedSafely_iff (xxh64 : Bytes → UInt64) (file : IndexFile) :
    ParsedSafely xxh64 file ↔ ¬HeaderCut file.data ∧
      (∀ index, LocalSlotIndex.fromBytes file = .ok index →
        ∀ slot, ¬index.Tripped xxh64 slot) ∧
      (∀ header, parseCompactIndexHeader file.data slotToCidKind none = .ok header →
        ∀ slot, ¬SlotCidIndex.Tripped xxh64 ⟨file,header⟩ slot) ∧
      ∀ header, parseCompactIndexHeader file.data cidToOffsetKind (some 9) = .ok header →
        ∀ key, ¬CidOffsetIndex.Tripped xxh64 ⟨header,file.fetchRange⟩ key := by
  have hcids {header : CompactIndexHeader} {key : Bytes}
      (h : parseCompactIndexHeader file.data cidToOffsetKind (some 9) = .ok header) :
      Panics (CidOffsetIndex.lookupChecked xxh64 ⟨header,file.fetchRange⟩ key) ↔
        CidOffsetIndex.Tripped xxh64 ⟨header,file.fetchRange⟩ key :=
    CidOffsetIndex.lookupChecked_panics_iff ((parseCompactIndexHeader_ok h).2 _ rfl)
      fun _ _ => Panics.ok
  constructor
  · intro h
    exact ⟨fun hcut => h.header [] none (parseCompactIndexHeader_panics_iff.mpr hcut),
      fun index hopen slot htrip => h.containsSlot index hopen slot
        (LocalSlotIndex.containsSlotChecked_panics_iff.mpr htrip),
      fun header hopen slot htrip => h.slotLookup header hopen slot
        (SlotCidIndex.lookupChecked_panics_iff.mpr htrip),
      fun header hopen key htrip => h.cidLookup header hopen key ((hcids hopen).mpr htrip)⟩
  · rintro ⟨hheader,hnode,hslots,hkeys⟩
    exact {
      node := fun h => hheader (LocalSlotIndex.fromBytes_panics_iff.mp h)
      header := fun kind size h => hheader (parseCompactIndexHeader_panics_iff.mp h)
      offsets := fun kind size header h index hlt => bucketHeader_offset_lt h hlt
      containsSlot := fun index hopen slot h =>
        hnode index hopen slot (LocalSlotIndex.containsSlotChecked_panics_iff.mp h)
      slotLookup := fun header hopen slot h =>
        hslots header hopen slot (SlotCidIndex.lookupChecked_panics_iff.mp h)
      cidLookup := fun header hopen key h => hkeys header hopen key ((hcids hopen).mp h) }

/-- Twelve bytes, the last four of which state an empty header. -/
def emptyHeaderFile : IndexFile := ⟨compactIndexMagic ++ [0,0,0,0],by decide⟩

theorem not_parsedSafely_emptyHeaderFile : ¬ParsedSafely lastWord emptyHeaderFile := by
  intro h
  exact h.node rfl

end Jetstreamer.Firehose
