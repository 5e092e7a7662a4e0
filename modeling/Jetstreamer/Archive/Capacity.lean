import Jetstreamer.Archive.RoundTrip
set_option autoImplicit false

namespace Jetstreamer.Archive
open Lib Lencode Horizon

/-- The writer accepts what no reader can hold: a finished archive of the recorder's calls reads
back exactly when the updates of each of its slots fit the arenas of a decoder. -/
theorem readSlots_ok_iff_fits (env : Env) (hz : env.zstd.Inverts)
    (nowMs epoch slotStart slotCount : UInt64) (config : ArchiveWriterConfig)
    (slots : List RecordedSlot) (file : Bytes) (stats : ArchiveStats)
    (hcounted : ∀ s ∈ slots, s.Counted)
    (h : writeSlots env nowMs epoch slotStart slotCount config (slots.map RecordedSlot.toCalls) =
      .ok (file,stats)) :
    (∃ reader n final, ArchiveReader.open env file = .ok reader ∧
      ArchiveReader.readSlots env 0 (2 ^ 64 - 1) true (reader,[]) = .ok n final) ↔
      ∀ s ∈ slots, s.Fits := by
  constructor
  · rintro ⟨reader,n,final,hopen,hread⟩
    by_contra hfull
    obtain ⟨good,s,others,rfl,hgood,hbad⟩ := exists_first hfull
    rw [List.map_append,List.map_cons] at h
    obtain ⟨reader',e,final',hopen',hfail⟩ := readSlots_unreadable hz h
      (by
        intro g hg
        obtain ⟨s',hs',rfl⟩ := List.mem_map.mp hg
        exact RecordedSlot.readable hz (hcounted s' (List.mem_append_left _ hs')) (hgood s' hs'))
      (RecordedSlot.unreadable hz (hcounted s (by simp)) hbad)
    rw [hopen] at hopen'
    cases hopen'
    rw [hread] at hfail
    cases hfail
  · intro hfits
    obtain ⟨reader,final,hopen,hread⟩ := readSlots_readable hz h fun f hf => by
      obtain ⟨s,hs,rfl⟩ := List.mem_map.mp hf
      exact RecordedSlot.readable hz (hcounted s hs) (hfits s hs)
    exact ⟨reader,_,_,hopen,hread⟩

def smallSlots : List RecordedSlot :=
  [.skipped 5,.block 6 none [blankUpdate [1,2,3]] [blankTransaction] [blankUpdate [1,2,5]]
    blankBlockMeta [⟨1,1⟩]]

theorem smallSlots_readSlots_ok : ∃ file stats,
    writeSlots plainEnv 0 0 5 10 ⟨4,.zstd,3⟩ (smallSlots.map RecordedSlot.toCalls) =
      .ok (file,stats) ∧
    ∃ reader n final, ArchiveReader.open plainEnv file = .ok reader ∧
      ArchiveReader.readSlots plainEnv 0 (2 ^ 64 - 1) true (reader,[]) = .ok n final := by
  have hok : (writeSlots plainEnv 0 0 5 10 ⟨4,.zstd,3⟩
      (smallSlots.map RecordedSlot.toCalls)).isOk = true := by decide +kernel
  cases h : writeSlots plainEnv 0 0 5 10 ⟨4,.zstd,3⟩ (smallSlots.map RecordedSlot.toCalls) with
  | error e =>
    rw [h] at hok
    cases hok
  | ok result =>
    obtain ⟨file,stats⟩ := result
    refine ⟨file,stats,rfl,?_⟩
    exact (readSlots_ok_iff_fits plainEnv plainEnv_inverts 0 0 5 10 ⟨4,.zstd,3⟩ smallSlots file
      stats (by decide) h).mpr (by decide)

section Oversized

variable {data : Bytes}

theorem encodeVarint_length {n : Nat} (h : n < 2 ^ 64) : (encodeVarint 8 n).length ≤ 9 := by
  rcases encodeVarint_cases (w := 8) (by decide) (by simpa using h) with ⟨-,heq⟩ | ⟨k,hk,-,heq⟩
  · simp [heq]
  · simp only [heq,List.length_cons,leBytes_length]
    omega

theorem encodeData_new (env : Env) (enc : EncoderContext) (pubkey : Address)
    (hlen : data.length < 2 ^ 63) (hnew : enc.diff.store (accountDiffKey env pubkey) = none) :
    ∃ diff, (encodeData env pubkey data : Put Failure _) enc =
      .ok (0 :: (encodeVarint 8 data.length ++ data),{ enc with diff }) := by
  let key := accountDiffKey env pubkey
  let next := (enc.diff.setKey key).insert key data
  have hall := Put.all_cons_of_ok (encodeLen_of_lt (show 0 < 2 ^ 64 by decide) next)
    (Put.all_cons_of_ok (encodeLen_of_lt (lt_trans hlen (by decide)) next)
      (Put.all_cons_of_ok (Put.raw_apply data next) (Put.all_nil next)))
  have hblob : (encodeBlob env.zstd data : Put Failure _) (enc.diff.setKey key) =
      .ok (0 :: (encodeVarint 8 data.length ++ data),next) := by
    have hkey : (enc.diff.setKey key).currentKey = some key := rfl
    have hnew' : (enc.diff.setKey key).store key = none := hnew
    have hfits : ¬tooLarge data.length := Nat.not_le.mpr hlen
    simp only [encodeBlob,hkey,hnew',if_neg hfits]
    refine hall.trans ?_
    simp [encodeVarint]
  refine ⟨next,?_⟩
  simp only [encodeData,Put.onPart,key,hblob,ok_bind]
  rfl

theorem encodeUpdateRecord_blank (h : data.length < 2 ^ 63) :
    ∃ bytes enc, (encodeUpdateRecord plainEnv (blankUpdate data) : Put Failure _)
      plainEnv.newEncoderContext = .ok (bytes,enc) ∧ bytes.length ≤ data.length + 100 := by
  have hfields : ∃ front enc, (Put.all [encodeAddress plainEnv Hash.default,encodeU64 0,
      encodeAddress plainEnv Hash.default,encodeBool false,encodeU64 0,encodeU64 0] :
        Put Failure _) plainEnv.newEncoderContext = .ok (front,enc) ∧ front.length ≤ 80 ∧
        enc.diff = .empty :=
    ⟨_,_,rfl,by decide,rfl⟩
  obtain ⟨front,enc,hfront,hlen,hdiff⟩ := hfields
  obtain ⟨diff,hdata⟩ := encodeData_new plainEnv enc Hash.default h (by rw [hdiff]; rfl)
  have hvarint := encodeVarint_length (lt_trans h (by decide : 2 ^ 63 < 2 ^ 64))
  refine ⟨_,_,Put.all_append_ok.mpr ⟨front,enc,_,hfront,
    Put.all_cons_of_ok hdata (Put.all_nil _),rfl⟩,?_⟩
  simp only [List.length_append,List.length_cons,List.length_nil]
  omega

/-- A block whose only update comes before any transaction. -/
def lonelySlot (data : Bytes) : RecordedSlot :=
  .block 6 none [blankUpdate data] [] [] blankBlockMeta []

theorem blockTail_blank (enc : EncoderContext) :
    Put.all [encodeBlockMetaFields blankBlockMeta,encodeEntries []] enc =
      .ok (List.replicate 72 0,enc) := by rfl

theorem encodeCalls_lonelySlot (h : data.length < 2 ^ 63) :
    ∃ bytes enc, encodeCalls plainEnv (lonelySlot data).toCalls plainEnv.newEncoderContext =
      .ok (bytes,enc) ∧ bytes.length ≤ data.length + 300 := by
  obtain ⟨record,enc,hrecord,hlen⟩ := encodeUpdateRecord_blank h
  have hcalls : (orderedCalls [blankUpdate data] [] []).foldlM (stageCall plainEnv)
      (plainEnv.newEncoderContext,{ slot := some 6 }) =
        .ok (enc,{ slot := some 6, preBytes := record, preCount := 1 }) := by
    simp only [orderedCalls,List.map_cons,List.map_nil,List.append_nil,List.foldlM_cons,
      List.foldlM_nil,stageCall,encodeCall,hrecord,ok_bind]
    rfl
  have hcall : encodeCalls plainEnv (lonelySlot data).toCalls plainEnv.newEncoderContext =
      blockBytes 6 { slot := some 6, preBytes := record, preCount := 1 } blankBlockMeta [] enc := by
    simp only [lonelySlot,RecordedSlot.toCalls,encodeCalls,stageEpoch,ok_bind,hcalls]
  have hbytes := Put.all_cons_of_ok (p := encodeU64 6) (s := enc) rfl
    (Put.all_cons_of_ok (p := encodeU8 1) (s := enc) rfl
      (Put.all_cons_of_ok (Staging.sections_eq
        { slot := some 6, preBytes := record, preCount := 1 } enc)
        (blockTail_blank enc)))
  refine ⟨_,enc,hcall.trans hbytes,?_⟩
  have hcount (n : UInt32) : (encodeVarint 8 n.toNat).length ≤ 9 :=
    encodeVarint_length (lt_trans n.toNat_lt (by decide))
  have hzero := hcount 0
  have hone := hcount 1
  have hsix := encodeVarint_length (UInt64.toNat_lt 6)
  simp only [List.length_append,List.length_cons,List.length_nil,List.length_replicate]
  omega

theorem encodeU64_length (v : UInt64) : (encodeVarint 8 v.toNat).length ≤ 9 :=
  encodeVarint_length (UInt64.toNat_lt v)

theorem encodeU32_length (v : UInt32) : (encodeVarint 4 v.toNat).length ≤ 5 := by
  rcases encodeVarint_cases (w := 4) (by decide) (show v.toNat < 256 ^ 4 from v.toNat_lt)
    with ⟨-,heq⟩ | ⟨k,hk,-,heq⟩
  · simp [heq]
  · simp only [heq,List.length_cons,leBytes_length]
    omega

theorem bucketBytes_plain (firstSlot : UInt64) (slotCount : UInt32) (anchor : Hash)
    (payload : Bytes) :
    ∃ raw, bucketBytes plainEnv ⟨4,.none,3⟩ firstSlot slotCount anchor payload = .ok raw ∧
      raw.length ≤ payload.length + 100 := by
  have hraw : bucketBytes plainEnv ⟨4,.none,3⟩ firstSlot slotCount anchor payload =
      .ok (encodeVarint 8 firstSlot.toNat ++ (encodeVarint 4 slotCount.toNat ++ ([0] ++
        (encodeVarint 8 (lenU64 payload).toNat ++ (encodeVarint 8 (lenU64 payload).toNat ++
          (encodeVarint 8 (plainEnv.xxh64 payload).toNat ++ (anchor.1 ++ [])))))) ++ payload) := rfl
  refine ⟨_,hraw,?_⟩
  have hfirst := encodeU64_length firstSlot
  have hcount := encodeU32_length slotCount
  have hlen := encodeU64_length (lenU64 payload)
  have hsum := encodeU64_length (plainEnv.xxh64 payload)
  simp only [List.length_append,List.length_cons,List.length_nil,anchor.2]
  omega

theorem indexBytes_single (e : BucketIndexEntry) :
    ∃ index, indexBytes [e] = .ok index ∧ index.length ≤ 40 := by
  have hindex : indexBytes [e] = .ok ([1] ++ (encodeVarint 8 e.firstSlot.toNat ++
      (encodeVarint 8 e.offset.toNat ++ (encodeVarint 8 e.len.toNat ++ [])) ++ [] ++ [])) := rfl
  refine ⟨_,hindex,?_⟩
  have hfirst := encodeU64_length e.firstSlot
  have hoffset := encodeU64_length e.offset
  have hlen := encodeU64_length e.len
  simp only [List.length_append,List.length_cons,List.length_nil]
  omega

theorem writeSlots_lonelySlot (h : data.length < 2 ^ 40) : ∃ file stats,
    writeSlots plainEnv 0 0 5 10 ⟨4,.none,3⟩ [(lonelySlot data).toCalls] = .ok (file,stats) := by
  obtain ⟨bytes,enc,hbytes,hlen⟩ := encodeCalls_lonelySlot (lt_trans h (by decide))
  have hnew : ∃ w, ArchiveWriter.new plainEnv 0 0 5 10 ⟨4,.none,3⟩ = .ok w ∧
      w.staging.slot = none ∧ w.checkSlot plainEnv 6 = .ok (w.enterBucket 6) ∧
      (w.enterBucket 6).enc = plainEnv.newEncoderContext ∧ (w.enterBucket 6).bucketBuf = [] ∧
      (w.enterBucket 6).bucketFirstSlot = some 6 ∧ (w.enterBucket 6).config = ⟨4,.none,3⟩ ∧
      (w.enterBucket 6).sink.length ≤ 100 ∧ (w.enterBucket 6).index = [] :=
    ⟨_,rfl,rfl,rfl,rfl,rfl,rfl,rfl,by decide,rfl⟩
  obtain ⟨w,hnew,hidle,hcheck,henc,hbuf,hfirst,hconfig,hsink,hindex⟩ := hnew
  rw [← henc] at hbytes
  obtain ⟨staging,stats,hwrite⟩ := ArchiveWriter.writeBlock_of_ok hidle hcheck hbytes
    (by rw [hbuf,List.nil_append]; omega)
  obtain ⟨raw,hraw,hrawLen⟩ := bucketBytes_plain 6 ((w.enterBucket 6).bucketSlotCount + 1)
    (w.enterBucket 6).bucketPohAnchor bytes
  obtain ⟨index,hindex',hindexLen⟩ :=
    indexBytes_single ⟨6,(w.enterBucket 6).fileOffset,lenU64 raw⟩
  have hfinish := ArchiveWriter.finish_of_ok
    (w := (w.enterBucket 6).appended bytes enc blankBlockMeta.blockhash staging stats) rfl hfirst
    (by
      simp only [ArchiveWriter.appended,hconfig,hbuf,List.nil_append]
      exact hraw)
    (by
      simp only [ArchiveWriter.appended,hindex,List.nil_append]
      exact hindex')
    (by
      simp only [ArchiveWriter.appended,List.length_append,footerLen]
      omega)
  obtain ⟨file,stats',hfinish⟩ := hfinish
  refine ⟨file,stats',?_⟩
  simp only [writeSlots,hnew,ok_bind,List.foldlM_cons,List.foldlM_nil]
  change (w.writeBlock plainEnv 6 none (orderedCalls [blankUpdate data] [] []) blankBlockMeta [] >>=
    _) >>= _ = _
  rw [hwrite]
  exact hfinish

theorem lonelySlot_counted : (lonelySlot data).Counted :=
  ⟨show 1 < 2 ^ 32 by decide,show 0 < 2 ^ 32 by decide,show 0 < 2 ^ 32 by decide⟩

theorem lonelySlot_fits_iff : (lonelySlot data).Fits ↔ data.length ≤ maxSlotPreUpdateData := by
  simp [RecordedSlot.Fits,RecordedSlot.early,RecordedSlot.late,lonelySlot,dataLen,blankUpdate,
    maxSlotPreUpdates]

theorem lonelySlot_unreadable (hroom : data.length < 2 ^ 40)
    (hlarge : maxSlotPreUpdateData < data.length) : ∃ file stats reader e final,
    writeSlots plainEnv 0 0 5 10 ⟨4,.none,3⟩ [(lonelySlot data).toCalls] = .ok (file,stats) ∧
    ArchiveReader.open plainEnv file = .ok reader ∧
    ArchiveReader.readSlots plainEnv 0 (2 ^ 64 - 1) true (reader,[]) = .error e final := by
  obtain ⟨file,stats,hwrite⟩ := writeSlots_lonelySlot hroom
  have hfull : ¬(lonelySlot data).Fits := by
    rw [lonelySlot_fits_iff]
    omega
  have hwrite' : writeSlots plainEnv 0 0 5 10 ⟨4,.none,3⟩ ([] ++ (lonelySlot data).toCalls :: []) =
      .ok (file,stats) := hwrite
  obtain ⟨reader,e,final,hopen,hfail⟩ := readSlots_unreadable plainEnv_inverts hwrite' (by simp)
    (RecordedSlot.unreadable plainEnv_inverts lonelySlot_counted hfull)
  exact ⟨file,stats,reader,e,final,hwrite,hopen,hfail⟩

end Oversized

/-- One update larger than the arena for early updates is written without complaint, and the
file cannot be read back. -/
theorem oversizedSlot_unreadable : ∃ data file stats reader e final,
    data = List.replicate (maxSlotPreUpdateData + 1) 0 ∧
    writeSlots plainEnv 0 0 5 10 ⟨4,.none,3⟩ [(lonelySlot data).toCalls] = .ok (file,stats) ∧
    ArchiveReader.open plainEnv file = .ok reader ∧
    ArchiveReader.readSlots plainEnv 0 (2 ^ 64 - 1) true (reader,[]) = .error e final := by
  obtain ⟨data,hdata⟩ : ∃ data : Bytes, data = List.replicate (maxSlotPreUpdateData + 1) 0 :=
    ⟨_,rfl⟩
  have hlen : data.length = maxSlotPreUpdateData + 1 := by rw [hdata,List.length_replicate]
  have hroom : maxSlotPreUpdateData + 1 < 2 ^ 40 := by decide
  obtain ⟨file,stats,reader,e,final,hwrite,hopen,hfail⟩ :=
    lonelySlot_unreadable (hlen ▸ hroom) (hlen ▸ Nat.lt_succ_self maxSlotPreUpdateData)
  exact ⟨data,file,stats,reader,e,final,hdata,hwrite,hopen,hfail⟩

end Jetstreamer.Archive
