import Jetstreamer.Ggjet.Layout
set_option autoImplicit false

namespace Jetstreamer.Ggjet
open Lib Lencode Horizon Archive

section Streams

variable {τ α : Type}

theorem readVarint_cons (t : τ) (byte : UInt8) (rest : Bytes) :
    (readVarint : Get GgjetFailure τ Nat) ⟨t,byte :: rest⟩ = readVarintAfter byte.toNat ⟨t,rest⟩ :=
  Get.bind_of_ok (Get.take_of_length _ t (show [byte].length = 1 from rfl) rest)

theorem readVarint_encodeVarint {n : Nat} (h : n < 2 ^ 64) (t : τ) (rest : Bytes) :
    (readVarint : Get GgjetFailure τ Nat) ⟨t,encodeVarint 8 n ++ rest⟩ = .ok n ⟨t,rest⟩ := by
  rcases encodeVarint_cases (w := 8) (by decide) (by simpa using h) with
    ⟨hsmall,heq⟩ | ⟨k,hk,hn,heq⟩
  · have hbyte : (UInt8.ofNat n).toNat = n := by
      rw [UInt8.toNat_ofNat']
      omega
    rw [heq,List.singleton_append,readVarint_cons,hbyte,readVarintAfter,if_pos (by omega)]
    rfl
  · have hbyte : (UInt8.ofNat (128 + k)).toNat = 128 + k := by
      rw [UInt8.toNat_ofNat']
      omega
    rw [heq,List.cons_append,readVarint_cons,hbyte,readVarintAfter,if_neg (by omega),
      Nat.add_sub_cancel_left,if_neg (by omega),
      Get.bind_of_ok (Get.take_of_length _ t (leBytes_length k n) rest),leValue_leBytes hn]
    rfl

theorem one_le_length_encodeVarint (w n : Nat) : 1 ≤ (encodeVarint w n).length := by
  unfold encodeVarint
  split <;> simp only [List.length_cons] <;> omega

/-- A decoder that reads back what an encoder without context writes. -/
abbrev Inverts (p : Put GgjetFailure Unit) (decode : Get GgjetFailure Unit α) (a : α) : Prop :=
  Reads (fun _ _ => True) p decode a fun _ _ => True

variable {p : Put GgjetFailure Unit} {decode : Get GgjetFailure Unit α}

theorem parse_toBytes {a : α}
    {bytes : Bytes} (hr : Inverts p decode a) (h : toBytes p = .ok bytes) :
    Get.parse decode bytes = .ok a := by
  obtain ⟨t,hread,-⟩ := hr () () bytes () [] trivial (toBytes_ok h)
  rw [List.append_nil] at hread
  rw [Get.parse,hread]

theorem writeFramed_ok {out : Bytes} (h : writeFramed p = .ok out) :
    ∃ bytes, toBytes p = .ok bytes ∧ bytes.length < 2 ^ 64 ∧
      out = encodeVarint 8 bytes.length ++ bytes := by
  obtain ⟨bytes,hbytes,hnext⟩ := bind_ok h
  obtain ⟨len,hlen,hout⟩ := bind_ok hnext
  obtain ⟨hlt,rfl,-⟩ := encodeLen_ok (toBytes_ok hlen)
  cases hout
  exact ⟨bytes,hbytes,hlt,rfl⟩

theorem readFramed_append {a : α}
    {out : Bytes} (hr : Inverts p decode a) (h : writeFramed p = .ok out)
    (hsmall : out.length < 2 ^ 63) (t : τ) (rest : Bytes) :
    readFramed decode ⟨t,out ++ rest⟩ = .ok a ⟨t,rest⟩ := by
  obtain ⟨bytes,hbytes,hlt,rfl⟩ := writeFramed_ok h
  have hfits : ¬tooLarge bytes.length := by
    rw [List.length_append] at hsmall
    rw [tooLarge]
    omega
  rw [readFramed,List.append_assoc,Get.bind_of_ok (readVarint_encodeVarint hlt t _),if_neg hfits,
    Get.bind_of_ok (Get.take_append _ t bytes rest),parse_toBytes hr hbytes]
  rfl

theorem readFramedCursor_append {a : α}
    {out : Bytes} (hr : Inverts p decode a) (h : writeFramed p = .ok out) (t : τ) (rest : Bytes) :
    readFramedCursor decode ⟨t,out ++ rest⟩ = .ok a ⟨t,rest⟩ := by
  obtain ⟨bytes,hbytes,hlt,rfl⟩ := writeFramed_ok h
  have hlen : (decodeU64 : Get GgjetFailure τ UInt64)
      ⟨t,encodeVarint 8 bytes.length ++ (bytes ++ rest)⟩ =
        .ok (UInt64.ofNat bytes.length) ⟨t,bytes ++ rest⟩ := by
    change EStateM.map UInt64.ofNat (decodeVarint 8) _ = _
    simp only [EStateM.map,decodeVarint_encodeVarint (show 0 < 8 by decide) (by decide)
      (show bytes.length < 256 ^ 8 by simpa using hlt) t (bytes ++ rest)]
  have hnat : (UInt64.ofNat bytes.length).toNat = bytes.length := UInt64.toNat_ofNat_of_lt' hlt
  rw [readFramedCursor,List.append_assoc,Get.bind_of_ok hlen,hnat,
    Get.bind_of_ok (Get.take_append _ t bytes rest),parse_toBytes hr hbytes]
  rfl

end Streams

section Blobs

variable {env : GgjetEnv} {first : UInt64} {count : UInt32} {raw out : Bytes}
  {compression : Compression} {level : Int}

/-- What a written section consists of, and that it can be read. -/
structure Blob (env : GgjetEnv) (out raw : Bytes) (header : BlobHeader) (framed stored : Bytes) :
    Prop where
  bytes : out = framed ++ stored
  framed : writeFramed (encodeBlobHeader header) = .ok framed
  storedLen : header.storedLen = lenU64 stored
  unpacks : decompress env header stored = .ok raw

theorem writeBlob_ok (hz : env.zstd.Inverts) (hraw : raw.length < 2 ^ 63)
    (h : writeBlob env first count raw compression level = .ok out) :
    ∃ header framed stored, Blob env out raw header framed stored ∧ header.firstOrdinal = first ∧
      header.itemCount = count ∧ header.uncompressedLen = lenU64 raw ∧
      (compression = .none → stored = raw ∧ header.xxh64 = env.xxh64 raw) := by
  obtain ⟨stored,hstored,hnext⟩ := bind_ok h
  obtain ⟨framed,hframed,hout⟩ := bind_ok hnext
  cases hout
  refine ⟨_,framed,stored,⟨rfl,hframed,rfl,decompress_compress env hz hstored hraw first count⟩,
    rfl,rfl,rfl,?_⟩
  rintro rfl
  cases hstored
  exact ⟨rfl,rfl⟩

variable {header : BlobHeader} {framed stored : Bytes} {τ : Type}

theorem Blob.readHeader (h : Blob env out raw header framed stored) (hsmall : out.length < 2 ^ 63)
    (t : τ) (rest : Bytes) :
    readFramed decodeBlobHeader ⟨t,out ++ rest⟩ = .ok header ⟨t,stored ++ rest⟩ := by
  have hlen := hsmall
  rw [h.bytes,List.length_append] at hlen
  rw [h.bytes,List.append_assoc]
  exact readFramed_append (reads_blobHeader header) h.framed (by omega) t _

theorem Blob.readStored (h : Blob env out raw header framed stored) (hsmall : out.length < 2 ^ 63)
    (t : τ) (rest : Bytes) :
    readStored env header ⟨t,stored ++ rest⟩ = .ok raw ⟨t,rest⟩ := by
  rw [h.bytes,List.length_append] at hsmall
  have hlen : header.storedLen.toNat = stored.length := by
    rw [h.storedLen]
    refine UInt64.toNat_ofNat_of_lt' ?_
    simp only [UInt64.size]
    omega
  have hfits : ¬tooLarge stored.length := by
    rw [tooLarge]
    omega
  rw [Ggjet.readStored,hlen,if_neg hfits,Get.bind_of_ok (Get.take_append _ t stored rest),h.unpacks]
  rfl

end Blobs

section Opening

variable {env : GgjetEnv} {header : GgjetHeader} {manifest : AccountManifest}
  {config : GgjetWriterConfig} {front : Bytes}

theorem splitAddresses_flatMap (accounts : List Address) :
    splitAddresses accounts.length (accounts.flatMap (·.1)) = accounts := by
  induction accounts with
  | nil => rfl
  | cons a rest ih =>
    have hlen : 32 ≤ ((a :: rest).flatMap (·.1)).length := by
      rw [List.flatMap_cons,List.length_append,a.2]
      omega
    have htake : ((a :: rest).flatMap (·.1)).take 32 = a.1 := by
      rw [List.flatMap_cons,List.take_append_of_le_length (by rw [a.2]),List.take_of_length_le
        (by rw [a.2])]
    have hdrop : ((a :: rest).flatMap (·.1)).drop 32 = rest.flatMap (·.1) := by
      rw [List.flatMap_cons,List.drop_append_of_le_length (by rw [a.2]),List.drop_of_length_le
        (by rw [a.2]),List.nil_append]
    rw [List.length_cons,splitAddresses,dif_pos hlen,hdrop,ih]
    simp only [htake]

theorem length_raw (manifest : AccountManifest) :
    manifest.raw.length = 32 * manifest.accounts.length := by
  unfold AccountManifest.raw
  induction manifest.accounts with
  | nil => rfl
  | cons a rest ih =>
    rw [List.flatMap_cons,List.length_append,a.2,ih,List.length_cons]
    omega

theorem readFront_front (hz : env.zstd.Inverts)
    (hfront : GgjetWriter.frontBytes env header manifest config = .ok front)
    (hsmall : front.length < 2 ^ 63) (hversion : header.formatVersion = formatVersion)
    (hcount : header.accountCount.toNat = manifest.accounts.length)
    (hdigest : header.accountSetSha256 = manifest.digest env) (rest : Bytes) :
    readFront env ⟨(),front ++ rest⟩ = .ok (header,manifest) ⟨(),rest⟩ := by
  obtain ⟨headerBytes,hheader,hnext⟩ := bind_ok hfront
  obtain ⟨manifestBytes,hmanifest,hout⟩ := bind_ok hnext
  cases hout
  have hmax := manifest.count
  have hraw := length_raw manifest
  obtain ⟨blob,framed,stored,hblob,hfirst,hitems,-,-⟩ := writeBlob_ok hz (by omega) hmanifest
  simp only [List.length_append] at hsmall
  have hmagic : (Get.take (.error .io) 8 : Get GgjetFailure Unit _)
      ⟨(),magic ++ (headerBytes ++ (manifestBytes ++ rest))⟩ =
        .ok ⟨magic,rfl⟩ ⟨(),headerBytes ++ (manifestBytes ++ rest)⟩ :=
    Get.take_of_length _ () (show magic.length = 8 from rfl) _
  have hitemCount : blob.itemCount.toNat = manifest.accounts.length := by
    rw [hitems]
    exact UInt32.toNat_ofNat_of_lt' hmax
  have hdims : ¬(blob.firstOrdinal ≠ 0 ∨ blob.itemCount.toNat ≠ header.accountCount.toNat ∨
      manifest.raw.length ≠ header.accountCount.toNat * 32) := by
    rw [hfirst,hitemCount,hcount,hraw]
    simp [Nat.mul_comm]
  have hsplit : splitAddresses (manifest.raw.length / 32) manifest.raw = manifest.accounts := by
    rw [hraw,Nat.mul_div_cancel_left _ (by decide)]
    exact splitAddresses_flatMap manifest.accounts
  have hread : readManifest env header ⟨(),manifestBytes ++ rest⟩ = .ok manifest ⟨(),rest⟩ := by
    rw [readManifest,Get.bind_of_ok (hblob.readHeader (by omega) () rest),
      Get.bind_of_ok (hblob.readStored (by omega) () rest),if_neg (by omega),if_neg hdims,hsplit,
      AccountManifest.fromAccounts_accounts]
    change (if manifest.digest env ≠ header.accountSetSha256 then _ else _ :
      Get GgjetFailure Unit AccountManifest) _ = _
    rw [if_neg (by simp [hdigest])]
    rfl
  rw [readFront,List.append_assoc,List.append_assoc,Get.bind_of_ok hmagic]
  simp only [ne_eq,not_true_eq_false,if_false]
  rw [Get.bind_of_ok (readFramed_append (reads_ggjetHeader env.zstd header) hheader
    (by omega) () _),
    if_neg (by simp [hversion]),Get.bind_of_ok hread]
  rfl

end Opening

section Indexing

variable {env : GgjetEnv} {header : GgjetHeader} {manifest : AccountManifest}
  {config : GgjetWriterConfig}

theorem reads_entries (entries : List GgjetBucketIndexEntry) :
    Inverts (Put.each encodeIndexEntry entries) (readEntries entries.length) entries := by
  induction entries with
  | nil => exact Reads.nil _
  | cons entry rest ih =>
    refine (reads_indexEntry entry).cons (Reads.single ?_)
    dsimp only
    rw [if_neg (by simp)]
    exact ih.cons (Reads.nil _)

theorem reads_lenPast {ε σ τ : Type} [Raises ε] {P : σ → τ → Prop} (n : Nat) :
    Reads P (encodeLen n : Put ε σ) (decodeU64Past : Get ε τ (UInt64 × Bool))
      (UInt64.ofNat n,false) P := by
  intro s t bytes s' rest hP hp
  obtain ⟨hlt,rfl,rfl⟩ := encodeLen_ok hp
  have hraw : (encodeU64 (UInt64.ofNat n) : Put ε σ) s' = .ok (encodeVarint 8 n,s') := by
    rw [encodeU64,UInt64.toNat_ofNat_of_lt' hlt]
    rfl
  exact reads_u64Past (UInt64.ofNat n) s' t _ s' rest hP hraw

theorem reads_index {entries : List GgjetBucketIndexEntry} {footer : Footer}
    (hcount : footer.bucketCount = UInt64.ofNat entries.length)
    (hfits : 40 * entries.length < 2 ^ 63) :
    Inverts (Put.all [encodeLen entries.length,Put.each encodeIndexEntry entries])
      (readIndex footer) entries := by
  have hnat : (UInt64.ofNat entries.length).toNat = entries.length := by
    refine UInt64.toNat_ofNat_of_lt' ?_
    simp only [UInt64.size]
    omega
  refine (reads_lenPast _).cons ?_
  dsimp only
  rw [if_neg (by simp [hcount]),hnat,if_neg (by rw [tooLarge]; omega),if_neg (by simp)]
  exact (reads_entries entries).all_single

theorem checkedAdd_of_lt {a b : UInt64} (h : a.toNat + b.toNat < 2 ^ 64) :
    checkedAdd a b = .ok (a + b) := by rw [checkedAdd,if_pos h]

theorem checkIndex_updateIndex {buckets : List UpdateBucket} {first : Nat} (offset : Nat)
    (hheld : Chained (fun n b => UpdateBucket.Holds env config manifest n b) (·.frames.length) first
      buckets)
    (hbound : first + (storedFrames buckets).length < 2 ^ 64) :
    checkIndex (UInt64.ofNat first) (updateIndex offset first buckets) =
      .ok (UInt64.ofNat (first + (storedFrames buckets).length)) := by
  induction buckets generalizing first offset with
  | nil => rfl
  | cons b rest ih =>
    obtain ⟨hb,hrest⟩ := hheld
    rw [storedFrames,List.flatMap_cons,List.length_append] at hbound ⊢
    have hcount : (UInt32.ofNat b.frames.length).toNat = b.frames.length :=
      UInt32.toNat_ofNat_of_lt' hb.counted
    have hpos : UInt32.ofNat b.frames.length ≠ 0 := by
      intro hzero
      rw [hzero] at hcount
      exact hb.nonempty (List.eq_nil_of_length_eq_zero hcount.symm)
    have hfirst : (UInt64.ofNat first).toNat = first := by
      refine UInt64.toNat_ofNat_of_lt' ?_
      simp only [UInt64.size]
      omega
    have hwide : (UInt32.ofNat b.frames.length).toUInt64 = UInt64.ofNat b.frames.length := by
      apply UInt64.toNat_inj.mp
      rw [UInt32.toNat_toUInt64,hcount,UInt64.toNat_ofNat_of_lt']
      simp only [UInt64.size]
      omega
    have hadd : checkedAdd (UInt64.ofNat first) (UInt32.ofNat b.frames.length).toUInt64 =
        .ok (UInt64.ofNat (first + b.frames.length)) := by
      rw [checkedAdd_of_lt (by rw [hfirst,UInt32.toNat_toUInt64,hcount]; omega),hwide,
        ← UInt64.ofNat_add]
    have hbound' : first + b.frames.length + (storedFrames rest).length < 2 ^ 64 := by
      rw [storedFrames]
      omega
    have htail := ih (offset + b.raw.length) hrest hbound'
    rw [updateIndex,checkIndex,if_neg (by simp [hpos]),hadd,ok_bind,htail,storedFrames,
      Nat.add_assoc]

theorem ofIndex_ok (source : Bytes) (manifest : AccountManifest) (checkpointOffset : Nat)
    {index : List GgjetBucketIndexEntry} {stop : UInt64}
    (hindex : checkIndex header.updateStartSlot index = .ok stop)
    (hend : checkedAdd header.updateStartSlot header.updateSlotCount = .ok stop) :
    ∃ r, GgjetReader.ofIndex source header manifest checkpointOffset index = .ok r ∧
      r.source = source ∧ r.header = header ∧ r.manifest = manifest ∧
      r.checkpointOffset = checkpointOffset ∧ r.index = index := by
  unfold GgjetReader.ofIndex
  split
  · rename_i e he
    rw [hindex] at he
    cases he
  · rename_i stop' hstop
    rw [hindex] at hstop
    cases hstop
    split
    · rename_i e he
      rw [hend] at he
      cases he
    · rename_i expectedEnd hexpected
      rw [hend] at hexpected
      cases hexpected
      rw [dif_pos rfl]
      exact ⟨_,rfl,rfl,rfl,rfl,rfl,rfl⟩

theorem readAt_append {front middle rest : Bytes} (h : middle.length < 2 ^ 63) :
    readAt (front ++ middle ++ rest) front.length middle.length = .ok middle := by
  have hfits : ¬tooLarge middle.length := not_le.mpr h
  rw [readAt,if_neg hfits,if_pos (.inl (by simp only [List.length_append]; omega)),
    List.append_assoc,List.drop_left,List.take_left]

variable {front terminator index file : Bytes} {sections : List CheckpointBucket}
  {buckets : List UpdateBucket}

theorem open_file (hz : env.zstd.Inverts)
    (h : GgjetFile env header manifest config front sections terminator buckets index file)
    (hversion : header.formatVersion = formatVersion)
    (hcount : header.accountCount = UInt64.ofNat manifest.accounts.length)
    (hdigest : header.accountSetSha256 = manifest.digest env) :
    ∃ r, GgjetReader.open env file = .ok r ∧ r.source = file ∧ r.header = header ∧
      r.manifest = manifest ∧ r.checkpointOffset = front.length ∧
      r.index = updateIndex (front ++ storedSections sections ++ terminator).length
        header.updateStartSlot.toNat buckets := by
  have hsmall := h.small
  have hbytes := h.bytes
  obtain ⟨body,hbody⟩ : ∃ body, front ++ storedSections sections ++ terminator ++
      storedBuckets buckets = front ++ body :=
    ⟨storedSections sections ++ (terminator ++ storedBuckets buckets),by simp⟩
  obtain ⟨footer,hfooter⟩ : ∃ footer : Footer, footer = ⟨lenU64 (front ++ body),lenU64 index,
    UInt64.ofNat buckets.length,env.xxh64 index⟩ := ⟨_,rfl⟩
  rw [hbody,← hfooter] at hbytes
  rw [hbytes] at hsmall
  have hfooterLen := footer.toBytes_length
  simp only [List.length_append] at hsmall
  have hmanifest := manifest.count
  have haccounts : header.accountCount.toNat = manifest.accounts.length := by
    rw [hcount]
    refine UInt64.toNat_ofNat_of_lt' ?_
    simp only [UInt64.size]
    omega
  have hfront : readFront env ⟨(),file⟩ =
      .ok (header,manifest) ⟨(),body ++ index ++ footer.toBytes⟩ := by
    have hread := readFront_front hz h.opening (by omega) hversion haccounts hdigest
      (body ++ index ++ footer.toBytes)
    rw [hbytes,← hread]
    simp
  have hfoot : readFooter file = .ok footer := by
    have hlen : file.length - footerLen = (front ++ body ++ index).length := by
      rw [hbytes,List.length_append,hfooterLen,Nat.add_sub_cancel]
    have hlong : ¬file.length < footerLen := by
      rw [hbytes,List.length_append,hfooterLen]
      omega
    rw [readFooter,if_neg hlong,hlen,hbytes,List.drop_left,Footer.fromBytes_toBytes]
  have hat : readAt file footer.indexOffset.toNat footer.indexLen.toNat = .ok index := by
    have hoffset : footer.indexOffset.toNat = (front ++ body).length := by
      rw [hfooter]
      refine UInt64.toNat_ofNat_of_lt' ?_
      simp only [UInt64.size,List.length_append]
      omega
    have hlen : footer.indexLen.toNat = index.length := by
      rw [hfooter]
      refine UInt64.toNat_ofNat_of_lt' ?_
      simp only [UInt64.size]
      omega
    rw [hoffset,hlen,hbytes]
    exact readAt_append (by omega)
  have hparse : parseIndex env footer index = .ok (updateIndex
      (front ++ storedSections sections ++ terminator).length header.updateStartSlot.toNat
        buckets) := by
    rw [parseIndex,if_neg (by simp [hfooter])]
    refine parse_toBytes (reads_index ?_ ?_) h.indexed
    · rw [updateIndex_length,hfooter]
    · rw [updateIndex_length]
      exact h.indexFits
  have hindex := checkIndex_updateIndex (front ++ storedSections sections ++ terminator).length
    h.bucketsHeld (by rw [h.covered]; exact h.bounded)
  rw [h.covered,UInt64.ofNat_add,UInt64.ofNat_toNat,UInt64.ofNat_toNat] at hindex
  obtain ⟨r,hr,hsource,hheader,hman,hoffset,hidx⟩ :=
    ofIndex_ok file manifest front.length hindex (checkedAdd_of_lt h.bounded)
  refine ⟨r,?_,hsource,hheader,hman,hoffset,hidx⟩
  have hposition : file.length - (body ++ index ++ footer.toBytes).length = front.length := by
    rw [hbytes]
    simp only [List.length_append]
    omega
  rw [GgjetReader.open,hfront]
  dsimp only
  rw [hfoot,ok_bind,hat,ok_bind,hparse,ok_bind,hposition,hr]

end Indexing

section Updates

variable {env : GgjetEnv} {manifest : AccountManifest}

theorem reads_update (hz : env.zstd.Inverts) {u : AccountUpdate} (slot : UInt64)
    {previous : Option UInt64} (hnewer : ∀ p ∈ previous, p < u.writeVersion) :
    Reads (Linked env.toEnv) (encodeUpdate env manifest u) (readUpdate env manifest slot previous) u
      (Linked env.toEnv) := by
  unfold encodeUpdate
  cases hindex : manifest.indexOf u.pubkey with
  | none =>
    intro s t bytes s' rest _ hp
    cases hp
  | some ordinal =>
    have hknown := AccountManifest.indexOf_some hindex
    have hfilter : previous.filter (u.writeVersion ≤ ·) = none := by
      rw [Option.filter_eq_none_iff]
      intro p hp hle
      exact UInt64.not_le.mpr (hnewer p hp) (by simpa using hle)
    refine (reads_u32 ordinal).cons ?_
    rw [hknown]
    refine (reads_u64 u.writeVersion).cons ?_
    rw [hfilter]
    exact (reads_u64 u.lamports).cons ((reads_address u.owner).cons ((reads_bool u.executable).cons
      ((reads_u64 u.rentEpoch).cons ((reads_data hz u.pubkey u.data).cons (Reads.nil u)))))

theorem reads_updates (hz : env.zstd.Inverts) (slot : UInt64) {updates : List AccountUpdate}
    (hincreasing : (updates.map (·.writeVersion)).Pairwise (· < ·)) :
    Reads (Linked env.toEnv) (Put.each (encodeUpdate env manifest) updates)
      (Get.collect updates.length (nextUpdate env manifest slot) none)
      (updates,updates.getLast?.map (·.writeVersion)) (Linked env.toEnv) := by
  refine Reads.collect (I := fun _ => Linked env.toEnv)
    (f := fun seen : List AccountUpdate => seen.getLast?.map (·.writeVersion)) ?_
  intro seen u rest heq
  have hnewer : ∀ p ∈ seen.getLast?.map (·.writeVersion), p < u.writeVersion := by
    intro p hp
    obtain ⟨v,hv,rfl⟩ := Option.map_eq_some_iff.mp hp
    rw [heq,List.map_append,List.pairwise_append] at hincreasing
    exact hincreasing.2.2 v.writeVersion (List.mem_map_of_mem (List.mem_of_getLast? hv))
      u.writeVersion (by simp)
  rw [List.getLast?_concat,Option.map_some]
  exact Reads.single ((reads_update hz slot hnewer).cons (Reads.nil (u,some u.writeVersion)))

theorem reads_lenU64 {P : EncoderContext → DecoderContext → Prop} (n : Nat) :
    Reads P (encodeLen n : Put GgjetFailure EncoderContext) decodeU64 (UInt64.ofNat n) P :=
  (reads_len n).map

theorem reads_frameHeader {f : SlotFrame} {first bucketUpdates : UInt64} {frameIndex : Nat}
    {P : EncoderContext → DecoderContext → Prop} (hslot : f.slot.toNat = first.toNat + frameIndex)
    (htotal : bucketUpdates.toNat + f.updates.length < 2 ^ 64) :
    Reads P (Put.all [encodeU64 f.slot,encodeLen f.updates.length])
      (readFrameHeader first frameIndex bucketUpdates)
      (f.slot,UInt64.ofNat f.updates.length,bucketUpdates + UInt64.ofNat f.updates.length) P := by
  have hlt := f.slot.toNat_lt
  have hindex : (UInt64.ofNat frameIndex).toNat = frameIndex := by
    refine UInt64.toNat_ofNat_of_lt' ?_
    simp only [UInt64.size]
    omega
  have hcount : (UInt64.ofNat f.updates.length).toNat = f.updates.length := by
    refine UInt64.toNat_ofNat_of_lt' ?_
    simp only [UInt64.size]
    omega
  have hexpected : checkedAdd first (UInt64.ofNat frameIndex) = .ok f.slot := by
    have hsum : first.toNat + (UInt64.ofNat frameIndex).toNat < 2 ^ 64 := by omega
    rw [checkedAdd_of_lt hsum]
    refine congrArg _ (UInt64.toNat_inj.mp ?_)
    rw [UInt64.toNat_add,Nat.mod_eq_of_lt hsum,hindex,hslot]
  refine (reads_u64 f.slot).cons ?_
  rw [hexpected,Get.ofExcept_ok,pure_bind,if_neg (by simp)]
  refine (reads_lenU64 f.updates.length).cons ?_
  rw [checkedAdd_of_lt (by omega),Get.ofExcept_ok,pure_bind]
  exact Reads.nil _

theorem reads_frame (hz : env.zstd.Inverts) {f : SlotFrame} {first : UInt64} {seen : List SlotFrame}
    (hslot : f.slot.toNat = first.toNat + seen.length) (htotal : updateTotal (seen ++ [f]) < 2 ^ 64)
    (hincreasing : (f.updates.map (·.writeVersion)).Pairwise (· < ·)) :
    Reads (Linked env.toEnv) (encodeFrame env manifest f)
      (readFrame env manifest first (seen.length,UInt64.ofNat (updateTotal seen)))
      (f,(seen ++ [f]).length,UInt64.ofNat (updateTotal (seen ++ [f]))) (Linked env.toEnv) := by
  have hsum : updateTotal (seen ++ [f]) = updateTotal seen + f.updates.length := by
    rw [updateTotal_append]
    simp [updateTotal]
  have hseen : (UInt64.ofNat (updateTotal seen)).toNat = updateTotal seen := by
    refine UInt64.toNat_ofNat_of_lt' ?_
    simp only [UInt64.size]
    omega
  have hcount : (UInt64.ofNat f.updates.length).toNat = f.updates.length := by
    refine UInt64.toNat_ofNat_of_lt' ?_
    simp only [UInt64.size]
    omega
  have hroom : (UInt64.ofNat (updateTotal seen)).toNat + f.updates.length < 2 ^ 64 := by omega
  refine (reads_frameHeader hslot hroom).append ?_
  dsimp only
  rw [hcount]
  refine (reads_updates hz f.slot hincreasing).cons ?_
  rw [hsum,UInt64.ofNat_add,List.length_append,List.length_singleton]
  exact Reads.nil _

theorem reads_frames (hz : env.zstd.Inverts) {first : UInt64} {frames : List SlotFrame}
    (hslots : frames.map (·.slot.toNat) = List.range' first.toNat frames.length)
    (htotal : updateTotal frames < 2 ^ 64)
    (hincreasing : ∀ f ∈ frames, (f.updates.map (·.writeVersion)).Pairwise (· < ·)) :
    Reads (Linked env.toEnv) (Put.each (encodeFrame env manifest) frames)
      (Get.collect frames.length (readFrame env manifest first) (0,0))
      (frames,frames.length,UInt64.ofNat (updateTotal frames)) (Linked env.toEnv) := by
  refine Reads.collect (I := fun _ => Linked env.toEnv)
    (f := fun seen => (seen.length,UInt64.ofNat (updateTotal seen))) ?_
  intro seen f rest heq
  have hslot : f.slot.toNat = first.toNat + seen.length := by
    have hget : (frames.map (·.slot.toNat))[seen.length]? = some f.slot.toNat := by simp [heq]
    rw [hslots,List.getElem?_range' (by simp [heq])] at hget
    have := Option.some.inj hget
    omega
  refine reads_frame hz hslot ?_ (hincreasing f (by simp [heq]))
  rw [heq,← List.singleton_append,← List.append_assoc,updateTotal_append] at htotal
  omega

end Updates

section Buckets

variable {env : GgjetEnv} {manifest : AccountManifest} {config : GgjetWriterConfig}

theorem one_le_length_encodeUpdate {u : AccountUpdate} {s s' : EncoderContext} {bytes : Bytes}
    (h : encodeUpdate env manifest u s = .ok (bytes,s')) : 1 ≤ bytes.length := by
  unfold encodeUpdate at h
  cases hindex : manifest.indexOf u.pubkey with
  | none =>
    rw [hindex] at h
    cases h
  | some ordinal =>
    rw [hindex] at h
    obtain ⟨first,middle,others,hfirst,-,rfl⟩ := Put.all_cons_ok.mp h
    cases hfirst
    have := one_le_length_encodeVarint 4 ordinal.toNat
    rw [List.length_append]
    omega

theorem length_encodeFrame {f : SlotFrame} {s s' : EncoderContext} {bytes : Bytes}
    (h : encodeFrame env manifest f s = .ok (bytes,s')) : f.updates.length ≤ bytes.length := by
  obtain ⟨slot,s1,tail,-,hcount,rfl⟩ := Put.all_cons_ok.mp h
  obtain ⟨count,s2,tail',-,hupdates,rfl⟩ := Put.all_cons_ok.mp hcount
  obtain ⟨updates,s3,rest,heach,-,rfl⟩ := Put.all_cons_ok.mp hupdates
  have hsum : (f.updates.map fun _ => 1).sum ≤ updates.length :=
    Put.sum_le_length_each (fun _ _ _ _ => one_le_length_encodeUpdate) heach
  simp only [List.map_const',List.sum_replicate,smul_eq_mul,Nat.mul_one] at hsum
  simp only [List.length_append]
  omega

theorem bucketFrames_stored (hz : env.zstd.Inverts) {r : GgjetReader} {b : UpdateBucket}
    {first : Nat} {before after : Bytes} (hb : b.Holds env config r.manifest first)
    (hfirst : first < 2 ^ 64) (hsource : r.source = before ++ b.raw ++ after)
    (hsmall : r.source.length < 2 ^ 63) :
    r.bucketFrames env ⟨UInt64.ofNat first,UInt32.ofNat b.frames.length,
      UInt64.ofNat (updateTotal b.frames),UInt64.ofNat before.length,lenU64 b.raw⟩ =
        .ok b.frames := by
  obtain ⟨payload,enc,hfits,hpayload,hraw⟩ := hb.written
  obtain ⟨header,framed,stored,hblob,hordinal,hitems,-,-⟩ := writeBlob_ok hz hfits hraw
  rw [hsource] at hsmall
  simp only [List.length_append] at hsmall
  have hoffset : (UInt64.ofNat before.length).toNat = before.length := by
    refine UInt64.toNat_ofNat_of_lt' ?_
    simp only [UInt64.size]
    omega
  have hlen : (lenU64 b.raw).toNat = b.raw.length := by
    refine UInt64.toNat_ofNat_of_lt' ?_
    simp only [UInt64.size]
    omega
  have hstored : header.storedLen.toNat = stored.length := by
    have := congrArg List.length hblob.bytes
    rw [List.length_append] at this
    rw [hblob.storedLen]
    refine UInt64.toNat_ofNat_of_lt' ?_
    simp only [UInt64.size]
    omega
  have hheader : (readFramedCursor decodeBlobHeader : Get GgjetFailure Unit BlobHeader) ⟨(),b.raw⟩ =
      .ok header ⟨(),stored⟩ := by
    have hread := readFramedCursor_append (reads_blobHeader header) hblob.framed () stored
    rwa [← hblob.bytes] at hread
  have hbucket : r.readBucket env ⟨UInt64.ofNat first,UInt32.ofNat b.frames.length,
      UInt64.ofNat (updateTotal b.frames),UInt64.ofNat before.length,lenU64 b.raw⟩ =
        .ok (header,payload) := by
    rw [GgjetReader.readBucket,hsource,hoffset,hlen,readAt_append (by omega),ok_bind,hheader]
    dsimp only
    rw [if_neg (by simp [hordinal,hitems,hstored]),hblob.unpacks]
    rfl
  have htotal : updateTotal b.frames ≤ payload.length :=
    Put.sum_le_length_each (fun _ _ _ _ => length_encodeFrame) hpayload
  have hfirstNat : header.firstOrdinal.toNat = first := by
    rw [hordinal]
    exact UInt64.toNat_ofNat_of_lt' hfirst
  have hcount : header.itemCount.toNat = b.frames.length := by
    rw [hitems]
    exact UInt32.toNat_ofNat_of_lt' hb.counted
  have hslots : b.frames.map (·.slot.toNat) =
      List.range' header.firstOrdinal.toNat b.frames.length := by
    rw [hfirstNat]
    exact hb.slots
  obtain ⟨dec,hread,-⟩ := reads_frames hz hslots (by omega) hb.increasing _ _ payload enc []
    (linked_start env.toEnv) hpayload
  rw [List.append_nil] at hread
  rw [GgjetReader.bucketFrames,hbucket,ok_bind]
  dsimp only
  rw [hcount,hread]
  dsimp only
  rw [if_neg (by simp)]

theorem entryFrames_stored (hz : env.zstd.Inverts) {r : GgjetReader} {buckets : List UpdateBucket}
    {first : Nat} {before after : Bytes}
    (hheld : Chained (fun n b => UpdateBucket.Holds env config r.manifest n b) (·.frames.length)
      first buckets)
    (hbound : first + (storedFrames buckets).length < 2 ^ 64)
    (hsource : r.source = before ++ storedBuckets buckets ++ after)
    (hsmall : r.source.length < 2 ^ 63) :
    GgjetReader.InOrder env r (updateIndex before.length first buckets) ∧
      (updateIndex before.length first buckets).flatMap (r.entryFrames env) =
        storedFrames buckets := by
  induction buckets generalizing first before with
  | nil => exact ⟨(fun e he => nomatch he),rfl⟩
  | cons b rest ih =>
    obtain ⟨hb,hrest⟩ := hheld
    rw [storedFrames,List.flatMap_cons,List.length_append] at hbound
    have hbound' : first + b.frames.length + (storedFrames rest).length < 2 ^ 64 := by
      rw [storedFrames]
      omega
    have hsource' : r.source = before ++ b.raw ++ (storedBuckets rest ++ after) := by
      rw [hsource,storedBuckets,List.flatMap_cons]
      simp [storedBuckets]
    have hframes := bucketFrames_stored hz hb (by omega) hsource' hsmall
    have hnext : r.source = before ++ b.raw ++ storedBuckets rest ++ after := by
      rw [hsource']
      simp
    obtain ⟨hin,heq⟩ := ih hrest hbound' hnext
    rw [List.length_append] at hin heq
    constructor
    · intro e he
      rcases List.mem_cons.mp he with rfl | he
      · exact GgjetReader.bucketFrames_entryFrames hframes
      · exact hin e he
    · rw [updateIndex,List.flatMap_cons,heq,GgjetReader.entryFrames,hframes]
      rfl

end Buckets

def givenSlots (calls : List GgjetWriter.Call) : List (UInt64 × List AccountUpdate) :=
  calls.filterMap (·.updates)

def givenUpdates (start stop : Nat) (calls : List GgjetWriter.Call) : List UpdateEvent :=
  ((givenSlots calls).filter fun s => start ≤ s.1.toNat ∧ s.1.toNat < stop).flatMap
    fun s => s.2.map (s.1,·)

theorem filterMap_frame (calls : List GgjetWriter.Call) :
    calls.filterMap (·.frame) = (givenSlots calls).map fun s => ⟨s.1,sortUpdates s.2⟩ := by
  rw [givenSlots,List.map_filterMap]
  rfl

theorem windowEvents_perm (start stop : UInt64) (given : List (UInt64 × List AccountUpdate)) :
    (windowEvents start stop (given.map fun s => ⟨s.1,sortUpdates s.2⟩)).Perm
      ((given.filter fun s => start.toNat ≤ s.1.toNat ∧ s.1.toNat < stop.toNat).flatMap
        fun s => s.2.map (s.1,·)) := by
  induction given with
  | nil => exact List.Perm.nil
  | cons s rest ih =>
    have hwithin : SlotFrame.within start stop ⟨s.1,sortUpdates s.2⟩ = true ↔
        start.toNat ≤ s.1.toNat ∧ s.1.toNat < stop.toNat := SlotFrame.within_iff
    rw [windowEvents] at ih ⊢
    by_cases hin : start.toNat ≤ s.1.toNat ∧ s.1.toNat < stop.toNat
    · rw [List.map_cons,List.filter_cons_of_pos (hwithin.mpr hin),
        List.filter_cons_of_pos (by simpa using hin),List.flatMap_cons,List.flatMap_cons]
      exact List.Perm.append ((List.perm_insertionSort _ s.2).map _) ih
    · rw [List.map_cons,List.filter_cons_of_neg (by rw [hwithin]; exact hin),
        List.filter_cons_of_neg (by simpa using hin)]
      exact ih

theorem windowCount_slots (start stop : UInt64) (frames : List SlotFrame) :
    windowCount start stop frames =
      (frames.map (·.slot.toNat)).countP fun n => start.toNat ≤ n ∧ n < stop.toNat := by
  rw [windowCount,List.countP_map]
  refine List.countP_congr fun f _ => ?_
  rw [SlotFrame.within_iff]
  simp

/-- A window is delivered in full and in order, whatever buckets it cuts. -/
theorem visitSlots_writeFile (env : GgjetEnv) (hz : env.zstd.Inverts)
    (nowMs checkpointSlot start count : UInt64) (manifest : AccountManifest)
    (config : GgjetWriterConfig) (calls : List GgjetWriter.Call) (file : Bytes) (stats : GgjetStats)
    (h : GgjetWriter.writeFile env nowMs manifest checkpointSlot start count config calls =
      .ok (file,stats)) :
    (givenSlots calls).map (·.1.toNat) = List.range' start.toNat count.toNat ∧
    ∃ r, GgjetReader.open env file = .ok r ∧
      ∀ (first maxSlots : UInt64), first.toNat + maxSlots.toNat < 2 ^ 64 →
        ∃ log, r.visitSlots env first maxSlots [] = .ok (UInt64.ofNat
            ((List.range' start.toNat count.toNat).countP
              fun n => first.toNat ≤ n ∧ n < first.toNat + maxSlots.toNat)) log ∧
          log.Perm (givenUpdates first.toNat (first.toNat + maxSlots.toNat) calls) ∧
          log.Pairwise fun x y => x.1 < y.1 ∨
            (x.1 = y.1 ∧ x.2.writeVersion < y.2.writeVersion) := by
  obtain ⟨header,front,sections,terminator,buckets,index,hversion,rfl,rfl,-,haccounts,hdigest,hfile,
    -,hframes⟩ := writeFile_file h
  obtain ⟨r,hopen,hsource,hheader,hmanifest,-,hindex⟩ :=
    open_file hz hfile hversion haccounts hdigest
  have hbytes := hfile.bytes
  rw [← hsource,List.append_assoc _ index] at hbytes
  have hheld := hfile.bucketsHeld
  rw [← hmanifest] at hheld
  obtain ⟨hin,hall⟩ := entryFrames_stored hz hheld
      (by rw [hfile.covered]; exact hfile.bounded) hbytes
    (by rw [hsource]; exact hfile.small)
  rw [← hindex] at hin hall
  have hstored : r.frames env = (givenSlots calls).map fun s => ⟨s.1,sortUpdates s.2⟩ := by
    rw [GgjetReader.frames,hall,hframes,filterMap_frame]
  have hslots := GgjetReader.slots_frames hin
  rw [hheader,hstored,List.map_map] at hslots
  refine ⟨hslots,r,hopen,?_⟩
  intro first maxSlots hsum
  have hstop : (first + maxSlots).toNat = first.toNat + maxSlots.toNat := by
    rw [UInt64.toNat_add,Nat.mod_eq_of_lt hsum]
  have hvisit := GgjetReader.visitSlots_of_inOrder hin hsum []
  rw [windowCount_slots,GgjetReader.slots_frames hin,hheader,hstop,List.nil_append] at hvisit
  refine ⟨_,hvisit,?_,?_⟩
  · rw [hstored,givenUpdates,← hstop]
    exact windowEvents_perm first (first + maxSlots) (givenSlots calls)
  · have hsorted := GgjetReader.sorted_frames hin
    have hpairs := pairwise_events
      (hsorted.sublist (List.filter_sublist.map _ :
        (((r.frames env).filter (·.within first (first + maxSlots))).map (·.slot.toNat)).Sublist _))
      fun f hf => GgjetReader.frames_wellFormed hin f (List.mem_of_mem_filter hf)
    refine hpairs.imp fun {x y} hxy => ?_
    rcases UInt64.lt_or_eq_of_le hxy.1 with hlt | heq
    · exact .inl hlt
    · exact .inr ⟨heq,hxy.2 heq⟩

theorem smallFile_windows : ∃ file stats r log, smallFile = .ok (file,stats) ∧
    GgjetReader.open plainGgjetEnv file = .ok r ∧
      r.visitSlots plainGgjetEnv 6 9 [] = .ok 2 log ∧ log.Perm (givenUpdates 6 15 smallCalls) := by
  have hok : smallFile.isOk = true := by decide +kernel
  cases hfile : smallFile with
  | error e =>
    rw [hfile] at hok
    cases hok
  | ok written =>
    obtain ⟨file,stats⟩ := written
    obtain ⟨-,r,hopen,hvisit⟩ := visitSlots_writeFile plainGgjetEnv plainEnv_inverts 0 4 5 3
        smallManifest
      ⟨2,1,1000,.zstd,3⟩ smallCalls file stats hfile
    obtain ⟨log,hlog,hperm,-⟩ := hvisit 6 9 (by decide)
    exact ⟨file,stats,r,log,rfl,hopen,hlog,hperm⟩

end Jetstreamer.Ggjet
