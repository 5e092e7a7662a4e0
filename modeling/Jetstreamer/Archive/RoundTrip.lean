import Jetstreamer.Archive.WrittenCalls
set_option autoImplicit false

namespace Jetstreamer.Archive
open Lib Lencode Horizon

theorem readIoVarint_cons (byte : UInt8) (rest : Bytes) :
    readIoVarint ⟨(),byte :: rest⟩ = readIoVarintAfter byte.toNat ⟨(),rest⟩ :=
  Get.bind_of_ok (Get.take_of_length _ () (show [byte].length = 1 from rfl) rest)

theorem readIoVarint_encodeVarint {n : Nat} (h : n < 2 ^ 64) (rest : Bytes) :
    readIoVarint ⟨(),encodeVarint 8 n ++ rest⟩ = .ok n ⟨(),rest⟩ := by
  rcases encodeVarint_cases (w := 8) (by decide) (by simpa using h) with
    ⟨hsmall,heq⟩ | ⟨k,hk,hn,heq⟩
  · have hbyte : (UInt8.ofNat n).toNat = n := by
      rw [UInt8.toNat_ofNat']
      omega
    rw [heq,List.singleton_append,readIoVarint_cons,hbyte,readIoVarintAfter,if_pos (by omega)]
    rfl
  · have hbyte : (UInt8.ofNat (128 + k)).toNat = 128 + k := by
      rw [UInt8.toNat_ofNat']
      omega
    rw [heq,List.cons_append,readIoVarint_cons,hbyte,readIoVarintAfter,if_neg (by omega),
      Nat.add_sub_cancel_left,if_neg (by omega),
      Get.bind_of_ok (Get.take_of_length _ () (leBytes_length k n) rest),leValue_leBytes hn]
    rfl

section Opening

variable {env : Env} {header : FileHeader} {config : ArchiveWriterConfig} {buckets : List Bucket}
  {file : Bytes}

theorem readFileHeader_front {front : Bytes} (hfront : fileHeaderBytes header = .ok front)
    (hsmall : front.length < 2 ^ 63) (hversion : header.formatVersion = formatVersion)
    (htable : header.primeTableId = primeTableId env) (rest : Bytes) :
    readFileHeader env ⟨(),front ++ rest⟩ = .ok header ⟨(),rest⟩ := by
  obtain ⟨headerBytes,hheader,hfront⟩ := bind_ok hfront
  obtain ⟨lenPrefix,hlen,hfront⟩ := bind_ok hfront
  cases hfront
  obtain ⟨hlt,rfl,-⟩ := encodeLen_ok (toBytes_ok hlen)
  simp only [List.length_append] at hsmall
  have hfits : ¬tooLarge headerBytes.length := by
    rw [tooLarge]
    omega
  have hparse : Get.parse (decodeFileHeader env.zstd) headerBytes = .ok header :=
    parse_toBytes (reads_fileHeader env.zstd header) hheader
  rw [readFileHeader,List.append_assoc,List.append_assoc,
    Get.bind_of_ok (Get.take_of_length _ () (show magic.length = 8 from rfl) _)]
  simp only [ne_eq,not_true_eq_false,if_false]
  rw [Get.bind_of_ok (readIoVarint_encodeVarint hlt _),if_neg hfits,
    Get.bind_of_ok (Get.take_append _ () headerBytes rest)]
  simp only [hparse,hversion,htable]
  rfl

theorem reads_index {entries : List BucketIndexEntry} (h : ¬tooLarge (24 * entries.length)) :
    Reads (fun _ _ => True)
      (Put.all [encodeLen entries.length,Put.each encodeBucketIndexEntry entries] :
        Put Failure Unit) readIndex entries fun _ _ => True := by
  refine (reads_len _).cons ?_
  rw [if_neg h]
  exact (Reads.each fun entry _ => reads_bucketIndexEntry entry).cons (Reads.nil _)

theorem Bucket.Holds.length_raw {b : Bucket} (h : b.Holds env config) : 32 ≤ b.raw.length := by
  obtain ⟨payload,enc,-,-,hraw⟩ := h.written
  obtain ⟨stored,hstored,hraw⟩ := bind_ok hraw
  obtain ⟨headerBytes,hheader,hraw⟩ := bind_ok hraw
  have hall : Put.all ([encodeU64 _,encodeU32 _,encodeCompression _,encodeU64 _,encodeU64 _,
      encodeU64 _] ++ [encodeFixed b.anchor]) () = .ok (headerBytes,()) := toBytes_ok hheader
  obtain ⟨fields,middle,hash,-,hhash,rfl⟩ := Put.all_append_ok.mp hall
  obtain ⟨first,middle',others,hfirst,hothers,rfl⟩ := Put.all_cons_ok.mp hhash
  cases hfirst
  rw [← Except.ok.inj hraw]
  simp only [List.length_append,b.anchor.2]
  omega

theorem length_storedBytes (h : ∀ b ∈ buckets, b.Holds env config) :
    24 * buckets.length ≤ (storedBytes buckets).length := by
  induction buckets with
  | nil => simp [storedBytes]
  | cons b rest ih =>
    have hb := (h b List.mem_cons_self).length_raw
    have hrest := ih fun b' hb' => h b' (List.mem_cons_of_mem _ hb')
    simp only [storedBytes,List.flatMap_cons,List.length_append,List.length_cons] at hrest ⊢
    omega

theorem open_file (h : ArchiveFile env header config buckets file)
    (hversion : header.formatVersion = formatVersion)
    (htable : header.primeTableId = primeTableId env) :
    ∃ reader : ArchiveReader, ArchiveReader.open env file = .ok reader ∧
      Opened env config buckets reader ∧ reader.verifyChain = false := by
  obtain ⟨front,index,hfront,hindex,rfl⟩ := h.parts
  have hsmall := h.small
  set footer : Footer := ⟨lenU64 (front ++ storedBytes buckets),lenU64 index,
    UInt64.ofNat buckets.length,env.xxh64 index⟩ with hfooter
  have hlen := footer.toBytes_length
  have hbuckets := length_storedBytes h.held
  simp only [List.length_append] at hsmall
  have hended : ∀ f ∈ storedFrames buckets, f.slot.toNat + 1 < 2 ^ 64 := by
    intro f hf
    obtain ⟨stop,hstop⟩ := h.ended
    have hlt := UInt64.lt_iff_toNat_lt.mp (hstop f hf)
    have := stop.toNat_lt
    omega
  refine ⟨⟨_,header,bucketIndex front.length buckets,false,none,0,{}⟩,?_,
    ⟨⟨h.held,h.small,front,index ++ footer.toBytes,by simp,rfl⟩,h.bucketSlots,rfl,h.anchored,
      h.increasing,h.spaced,hended⟩,rfl⟩
  have hheader : Get.parse (readFileHeader env)
      (front ++ storedBytes buckets ++ index ++ footer.toBytes) = .ok header := by
    have hread := readFileHeader_front hfront (by omega) hversion htable
    simp [Get.parse,hread]
  have hfoot : readFooter (front ++ storedBytes buckets ++ index ++ footer.toBytes) =
      .ok footer := by
    have hstart : (front ++ storedBytes buckets ++ index ++ footer.toBytes).length - footerLen =
        (front ++ storedBytes buckets ++ index).length := by
      rw [List.length_append,hlen,Nat.add_sub_cancel]
    rw [readFooter,if_neg (by rw [List.length_append]; omega),hstart,List.drop_left,
      Footer.fromBytes_toBytes]
  have hat : readAt (front ++ storedBytes buckets ++ index ++ footer.toBytes)
      footer.indexOffset.toNat footer.indexLen.toNat = .ok index := by
    rw [hfooter]
    simp only [lenU64]
    rw [UInt64.toNat_ofNat_of_lt' (by simp only [UInt64.size,List.length_append]; omega),
      UInt64.toNat_ofNat_of_lt' (by simp only [UInt64.size]; omega)]
    exact readAt_append (by omega)
  have hparse : parseBucketIndex env index footer = .ok (bucketIndex front.length buckets) := by
    have hfits : ¬tooLarge (24 * (bucketIndex front.length buckets).length) := by
      rw [bucketIndex_length,tooLarge]
      omega
    rw [parseBucketIndex,if_neg (by simp [hfooter])]
    exact parse_toBytes (reads_index hfits) hindex
  simp only [ArchiveReader.open,hheader,hfoot,hat,hparse,ok_bind]
  rfl

theorem writeSlots_opened {nowMs epoch slotStart slotCount : UInt64} {slots : List SlotCalls}
    {stats : ArchiveStats}
    (h : writeSlots env nowMs epoch slotStart slotCount config slots = .ok (file,stats)) :
    ∃ buckets config' reader, storedFrames buckets = slots ∧
      ArchiveReader.open env file = .ok reader ∧ Opened env config' buckets reader ∧
      reader.verifyChain = false := by
  obtain ⟨buckets,config',hfile,hslots⟩ := writeSlots_file h
  obtain ⟨reader,hopen,hopened,hchain⟩ := open_file hfile rfl rfl
  exact ⟨buckets,config',reader,hslots,hopen,hopened,hchain⟩

theorem readSlots_of_call (call : ReadCall) {r : ArchiveReader} {result : Except Failure Nat}
    {events : List Event} (hchain : r.verifyChain = call.verifyChain)
    (h : (r.call env call).1 = (result,events)) :
    match result with
    | .ok n => ∃ final, ArchiveReader.readSlots env call.startSlot call.maxSlots
        call.accountUpdateData (r,[]) = .ok n (final,events)
    | .error e => ∃ final, ArchiveReader.readSlots env call.startSlot call.maxSlots
        call.accountUpdateData (r,[]) = .error e final := by
  have hsame : ({ r with verifyChain := call.verifyChain } : ArchiveReader) = r := by rw [← hchain]
  rw [ArchiveReader.call,hsame] at h
  split at h
  · rename_i n final told hrun
    obtain ⟨rfl,rfl⟩ := Prod.mk.inj h
    exact ⟨final,hrun⟩
  · rename_i e final told hrun
    obtain ⟨rfl,rfl⟩ := Prod.mk.inj h
    exact ⟨_,hrun⟩

theorem readSlots_readable (hz : env.zstd.Inverts) {nowMs epoch slotStart slotCount : UInt64}
    {slots : List SlotCalls} {stats : ArchiveStats}
    (h : writeSlots env nowMs epoch slotStart slotCount config slots = .ok (file,stats))
    (hread : ∀ f ∈ slots, Readable env f) :
    ∃ reader final, ArchiveReader.open env file = .ok reader ∧
      ArchiveReader.readSlots env 0 (2 ^ 64 - 1) true (reader,[]) =
        .ok slots.length (final,slots.flatMap SlotCalls.events) := by
  obtain ⟨buckets,config',reader,rfl,hopen,hopened,hchain⟩ := writeSlots_opened h
  have hdecoded := hopened.decoded_all hz true false
  have hcall := hopened.call_window hz ⟨0,2 ^ 64 - 1,true,false⟩ rfl
    (by rw [hdecoded]; exact hread)
  rw [window_all hopened.length_frames] at hcall
  obtain ⟨final,hrun⟩ := readSlots_of_call _ hchain hcall
  exact ⟨reader,final,hopen,hrun⟩

theorem readSlots_unreadable (hz : env.zstd.Inverts) {nowMs epoch slotStart slotCount : UInt64}
    {good others : List SlotCalls} {f : SlotCalls} {stats : ArchiveStats}
    (h : writeSlots env nowMs epoch slotStart slotCount config (good ++ f :: others) =
      .ok (file,stats))
    (hgood : ∀ g ∈ good, Readable env g) (hbad : Unreadable env f) :
    ∃ reader e final, ArchiveReader.open env file = .ok reader ∧
      ArchiveReader.readSlots env 0 (2 ^ 64 - 1) true (reader,[]) = .error e final := by
  obtain ⟨buckets,config',reader,hslots,hopen,hopened,hchain⟩ := writeSlots_opened h
  have hdecoded := hopened.decoded_all hz true false
  have hreached : reader.reached ⟨0,2 ^ 64 - 1,true,false⟩ (storedFrames buckets) =
      good ++ f :: others := by
    rw [reached_unchecked rfl,hdecoded,hslots]
  have hcall := hopened.call_refused hz hreached hgood hbad
  obtain ⟨final,hrun⟩ := readSlots_of_call ⟨0,2 ^ 64 - 1,true,false⟩ hchain
    (Prod.ext hcall rfl)
  exact ⟨reader,_,final,hopen,hrun⟩

end Opening

/-- Whatever a writer is asked to store, in the order the recorder emits it, a reader of the
finished file delivers, and nothing else. -/
theorem readSlots_writeArchive (env : Env) (hz : env.zstd.Inverts)
    (nowMs epoch slotStart slotCount : UInt64) (config : ArchiveWriterConfig)
    (frames : List Frame) (file : Bytes) (stats : ArchiveStats)
    (h : writeArchive env nowMs epoch slotStart slotCount config frames = .ok (file,stats)) :
    ∃ reader final, ArchiveReader.open env file = .ok reader ∧
      ArchiveReader.readSlots env 0 (2 ^ 64 - 1) true (reader,[]) =
        .ok frames.length (final,frames.flatMap Frame.events) := by
  rw [writeArchive_eq] at h
  obtain ⟨reader,final,hopen,hread⟩ := readSlots_readable hz h fun f hf => by
    obtain ⟨frame,-,rfl⟩ := List.mem_map.mp hf
    exact frame.readable hz
  refine ⟨reader,final,hopen,hread.trans ?_⟩
  have hevents : (frames.map Frame.toCalls).flatMap SlotCalls.events =
      frames.flatMap Frame.events := by
    simp [List.flatMap_map,Frame.toCalls_events]
  rw [List.length_map,hevents]

def plainEnv : Env := ⟨⟨fun _ bytes => some bytes,some⟩,fun _ => 0,⟨[],List.nodup_nil⟩,by decide⟩

theorem plainEnv_inverts : plainEnv.zstd.Inverts := by
  intro level input output h
  exact h.symm

def blankTransaction : Transaction where
  status := ⟨0,0,0,.empty⟩
  fee := 0
  preBalances := .empty
  postBalances := .empty
  loadedWritableAddresses := .empty
  loadedReadonlyAddresses := .empty
  innerInstructions := none
  logMessages := none
  preTokenBalances := none
  postTokenBalances := none
  rewards := none
  returnData := none
  computeUnitsConsumed := none
  costUnits := none
  signatures := .empty
  message := .legacy ⟨⟨0,0,0⟩,.empty,Hash.default,.empty⟩
  accountUpdates := .empty

def blankBlockMeta : BlockMeta :=
  ⟨0,0,Hash.default,Hash.default,none,none,0,0,.empty,none,.empty,.empty⟩

def blankUpdate (data : Bytes) : AccountUpdate := ⟨Hash.default,0,Hash.default,false,0,0,data⟩

def smallFrames : List Frame :=
  [.skipped 5,.block {
    slot := 6
    epoch := none
    pre := ⟨[blankUpdate [1,2,3]],by decide,by decide⟩
    transactions := [{ blankTransaction with
      accountUpdates := ⟨[blankUpdate [1,2,4]],by decide,by decide⟩ }]
    post := ⟨[blankUpdate [1,2,5]],by decide,by decide⟩
    info := blankBlockMeta
    entries := [⟨1,1⟩]
    counted := by decide
    phases := by simp }]

theorem smallFrames_readSlots : ∃ file stats reader final,
    writeArchive plainEnv 0 0 5 10 ⟨4,.zstd,3⟩ smallFrames = .ok (file,stats) ∧
      ArchiveReader.open plainEnv file = .ok reader ∧
      ArchiveReader.readSlots plainEnv 0 (2 ^ 64 - 1) true (reader,[]) =
        .ok 2 (final,smallFrames.flatMap Frame.events) := by
  have hok : (writeArchive plainEnv 0 0 5 10 ⟨4,.zstd,3⟩ smallFrames).isOk = true := by
    decide +kernel
  cases h : writeArchive plainEnv 0 0 5 10 ⟨4,.zstd,3⟩ smallFrames with
  | error e =>
    rw [h] at hok
    cases hok
  | ok result =>
    obtain ⟨file,stats⟩ := result
    obtain ⟨reader,final,hopen,hread⟩ :=
      readSlots_writeArchive plainEnv plainEnv_inverts 0 0 5 10 ⟨4,.zstd,3⟩ smallFrames file stats h
    exact ⟨file,stats,reader,final,rfl,hopen,hread⟩

end Jetstreamer.Archive
