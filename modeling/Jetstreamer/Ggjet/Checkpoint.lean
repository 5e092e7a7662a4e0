import Jetstreamer.Ggjet.RoundTrip
set_option autoImplicit false

namespace Jetstreamer.Ggjet
open Lib Lencode Horizon Archive

section Records

variable {τ : Type} {P : Unit → τ → Prop}

theorem reads_some {n : Nat} (hn : 0 < n) (v : FixedBytes n) :
    Reads P (encodeFixed v : Put GgjetFailure Unit) (readSome n) v P := by
  refine Reads.of_raw fun t rest => ?_
  have hne : ¬v.1 ++ rest = [] := by
    intro hnil
    have := congrArg List.length hnil
    rw [List.length_append,v.2,List.length_nil] at this
    omega
  have hbytes : (v.1 ++ rest).take n ++ List.replicate (n - (v.1 ++ rest).length) 0 = v.1 := by
    rw [List.take_append_of_le_length (by rw [v.2]),List.take_of_length_le (by rw [v.2]),
      List.length_append,v.2]
    simp
  have hrest : (v.1 ++ rest).drop n = rest := by
    rw [List.drop_append_of_le_length (by rw [v.2]),List.drop_of_length_le (by rw [v.2]),
      List.nil_append]
  unfold readSome
  dsimp only
  rw [if_neg hne]
  simp only [hbytes,hrest]

theorem reads_byte (v : UInt8) :
    Reads P (encodeU8 v : Put GgjetFailure Unit) (readSome 1) ⟨[v],rfl⟩ P :=
  reads_some (n := 1) Nat.one_pos ⟨[v],rfl⟩

theorem reads_account (a : CheckpointAccount) :
    Reads P (Put.all [encodeU64 a.lastModifiedSlot,encodeU64 a.lamports,encodeFixed a.owner,
        encodeU8 (if a.executable then 1 else 0),encodeU64 a.rentEpoch,encodeLen a.data.length,
        Put.raw a.data] : Put GgjetFailure Unit) readCheckpointAccount a P := by
  refine (reads_u64 _).cons ((reads_u64Past _).cons ((reads_some (by decide) a.owner).cons
    ((reads_byte _).cons ((reads_u64 _).cons ?_))))
  intro s t bytes s' rest hP hp
  obtain ⟨len,s1,tail,hlen,hdata,rfl⟩ := Put.all_cons_ok.mp hp
  obtain ⟨data,s2,empty,hraw,hempty,rfl⟩ := Put.all_cons_ok.mp hdata
  obtain ⟨hlt,rfl,rfl⟩ := encodeLen_ok hlen
  cases hraw
  cases hempty
  have hnat : (UInt64.ofNat a.data.length).toNat = a.data.length := UInt64.toNat_ofNat_of_lt' hlt
  have hread : (decodeU64 : Get GgjetFailure τ UInt64)
      ⟨t,encodeVarint 8 a.data.length ++ (a.data ++ rest)⟩ =
        .ok (UInt64.ofNat a.data.length) ⟨t,a.data ++ rest⟩ := by
    change EStateM.map UInt64.ofNat (decodeVarint 8) _ = _
    simp only [EStateM.map,decodeVarint_encodeVarint (show 0 < 8 by decide) (by decide)
      (show a.data.length < 256 ^ 8 by simpa using hlt) t (a.data ++ rest)]
  refine ⟨t,?_,hP⟩
  rw [List.append_nil,List.append_assoc,Get.bind_of_ok hread,hnat,
    Get.bind_of_ok (Get.take_append _ t a.data rest)]
  obtain ⟨lastModifiedSlot,lamports,owner,executable,rentEpoch,data⟩ := a
  cases executable <;> rfl

end Records

section Sections

variable {env : GgjetEnv} {header : GgjetHeader} {manifest : AccountManifest}
  {config : GgjetWriterConfig}

/-- What a visitor is told of accounts from the ordinal `first` on. -/
def checkpointEvents (manifest : AccountManifest) (first : Nat)
    (accounts : List (Option CheckpointAccount)) : List CheckpointEvent :=
  (manifest.accounts.drop first).zip accounts

theorem checkpointEvents_cons {first : Nat} {address : Address} (account : Option CheckpointAccount)
    (rest : List (Option CheckpointAccount)) (h : manifest.accounts[first]? = some address) :
    checkpointEvents manifest first (account :: rest) =
      (address,account) :: checkpointEvents manifest (first + 1) rest := by
  obtain ⟨hlt,hget⟩ := List.getElem?_eq_some_iff.mp h
  rw [checkpointEvents,List.drop_eq_getElem_cons hlt,hget,List.zip_cons_cons,checkpointEvents]

theorem checkpointEvents_append (first : Nat) (xs ys : List (Option CheckpointAccount))
    (h : first + xs.length ≤ manifest.accounts.length) :
    checkpointEvents manifest first (xs ++ ys) =
      checkpointEvents manifest first xs ++ checkpointEvents manifest (first + xs.length) ys := by
  induction xs generalizing first with
  | nil => simp [checkpointEvents]
  | cons account rest ih =>
    rw [List.length_cons] at h
    have hget : manifest.accounts[first]? = some (manifest.accounts[first]) :=
      List.getElem?_eq_getElem (by omega)
    rw [List.cons_append,checkpointEvents_cons account _ hget,checkpointEvents_cons account _ hget,
      ih (first + 1) (by omega),List.cons_append,List.length_cons,Nat.add_assoc,Nat.add_comm 1]

theorem reads_visitAccount {n : Nat} {address : Address} {before : List CheckpointEvent}
    (account : Option CheckpointAccount) (hget : manifest.accounts[n]? = some address) :
    Reads (fun _ log => log = before) (encodeCheckpointAccount account)
      (visitAccount header manifest (UInt64.ofNat n)) (UInt64.ofNat (n + 1))
      (fun _ log => log = before ++ [(address,account)]) := by
  have hnat : (UInt64.ofNat n).toNat = n := by
    refine UInt64.toNat_ofNat_of_lt' ?_
    have := (List.getElem?_eq_some_iff.mp hget).1
    have := manifest.count
    simp only [UInt64.size]
    omega
  have hnext : UInt64.ofNat n + 1 = UInt64.ofNat (n + 1) := by rw [UInt64.ofNat_add]; rfl
  cases account with
  | none =>
    refine Reads.single ((reads_byte 0).cons ?_)
    rw [hnat,hget,hnext]
    refine Reads.modifyCtx (Q := fun _ log => log = before ++ [(address,none)]) ?_ (Reads.nil _)
    rintro s t rfl
    rfl
  | some a =>
    refine (reads_byte 1).cons ?_
    rw [hnat,hget,hnext]
    dsimp only
    rw [if_neg (show ¬([1] : List UInt8) = [0] by decide),if_pos (rfl : ([1] : List UInt8) = [1])]
    refine Reads.single ((reads_account a).cons ?_)
    refine Reads.modifyCtx (Q := fun _ log => log = before ++ [(address,some a)]) ?_ (Reads.nil _)
    rintro s t rfl
    rfl

theorem reads_section (header : GgjetHeader) {first : Nat} {before : List CheckpointEvent}
    {accounts : List (Option CheckpointAccount)}
    (h : first + accounts.length ≤ manifest.accounts.length) :
    Reads (fun _ log => log = before) (Put.each encodeCheckpointAccount accounts)
      (Get.loop accounts.length (visitAccount header manifest) (UInt64.ofNat first))
      (UInt64.ofNat (first + accounts.length))
      (fun _ log => log = before ++ checkpointEvents manifest first accounts) := by
  have hstep : ∀ seen account rest, accounts = seen ++ account :: rest →
      Reads (fun _ log => log = before ++ checkpointEvents manifest first seen)
        (encodeCheckpointAccount account)
        (visitAccount header manifest (UInt64.ofNat (first + seen.length)))
        (UInt64.ofNat (first + (seen ++ [account]).length))
        (fun _ log => log = before ++ checkpointEvents manifest first (seen ++ [account])) := by
    intro seen account rest heq
    have hlen := congrArg List.length heq
    rw [List.length_append,List.length_cons] at hlen
    have hget : manifest.accounts[first + seen.length]? =
        some (manifest.accounts[first + seen.length]) := List.getElem?_eq_getElem (by omega)
    have hevents : checkpointEvents manifest first (seen ++ [account]) =
        checkpointEvents manifest first seen ++
          [(manifest.accounts[first + seen.length],account)] := by
      rw [checkpointEvents_append first seen [account] (by omega),
        checkpointEvents_cons account [] hget]
      simp [checkpointEvents]
    rw [hevents,← List.append_assoc,List.length_append,List.length_singleton,← Nat.add_assoc]
    exact reads_visitAccount account hget
  have hloop := Reads.loop (f := fun seen => UInt64.ofNat (first + seen.length))
    (I := fun seen _ log => log = before ++ checkpointEvents manifest first seen) hstep
  simpa [checkpointEvents] using hloop

theorem visitCheckpointBuckets_section (hz : env.zstd.Inverts) (fuel : Nat) {first : Nat}
    {b : CheckpointBucket} (hb : b.Holds env config first)
    (hsize : header.checkpointBucketAccounts = config.checkpointBucketAccounts)
    (hfirst : first + b.accounts.length ≤ manifest.accounts.length) (hsmall : b.raw.length < 2 ^ 63)
    (log : List CheckpointEvent) (rest : Bytes) :
    visitCheckpointBuckets env header manifest (fuel + 1) (UInt64.ofNat first) ⟨log,b.raw ++ rest⟩ =
      visitCheckpointBuckets env header manifest fuel (UInt64.ofNat (first + b.accounts.length))
        ⟨log ++ checkpointEvents manifest first b.accounts,rest⟩ := by
  obtain ⟨payload,hfits,hpayload,hraw⟩ := hb.written
  obtain ⟨blob,framed,stored,hblob,hordinal,hitems,-,-⟩ := writeBlob_ok hz hfits hraw
  have hlt := config.checkpointBucketAccounts.toNat_lt
  have hcounted := hb.counted
  have hcount : blob.itemCount.toNat = b.accounts.length := by
    rw [hitems]
    exact UInt32.toNat_ofNat_of_lt' (by simp only [UInt32.size]; omega)
  have hpos : blob.itemCount ≠ 0 := by
    intro hzero
    rw [hzero] at hcount
    exact hb.nonempty (List.eq_nil_of_length_eq_zero hcount.symm)
  have hmax : ¬header.checkpointBucketAccounts < blob.itemCount := by
    rw [UInt32.lt_iff_toNat_lt,hcount,hsize]
    omega
  obtain ⟨seen,hread,rfl⟩ := reads_section header hfirst () log payload () [] rfl hpayload
  rw [List.append_nil] at hread
  have hinside : Get.inside payload
      (Get.loop blob.itemCount.toNat (visitAccount header manifest) (UInt64.ofNat first))
        ⟨log,rest⟩ =
        .ok (UInt64.ofNat (first + b.accounts.length),[])
          ⟨log ++ checkpointEvents manifest first b.accounts,rest⟩ := by
    rw [Get.inside,hcount,hread]
  rw [visitCheckpointBuckets,Get.bind_of_ok (hblob.readHeader hsmall log rest),
    if_neg (by simp [hordinal]),if_neg hpos,if_neg hmax,
    Get.bind_of_ok (hblob.readStored hsmall log rest),Get.bind_of_ok hinside]
  simp only [ne_eq,not_true_eq_false,if_false]

theorem visitCheckpointBuckets_terminator (header : GgjetHeader) (manifest : AccountManifest)
    (fuel : Nat) (hz : env.zstd.Inverts) {ordinal : UInt64} {terminator : Bytes} {level : Int}
    (h : writeBlob env ordinal 0 [] .none level = .ok terminator)
    (hsmall : terminator.length < 2 ^ 63) (log : List CheckpointEvent) (rest : Bytes) :
    visitCheckpointBuckets env header manifest (fuel + 1) ordinal ⟨log,terminator ++ rest⟩ =
      .ok ordinal ⟨log,rest⟩ := by
  obtain ⟨blob,framed,stored,hblob,hordinal,hitems,hlen,hplain⟩ := writeBlob_ok hz (by decide) h
  obtain ⟨rfl,hsum⟩ := hplain rfl
  have hread := hblob.readHeader hsmall log rest
  rw [List.nil_append] at hread
  rw [visitCheckpointBuckets,Get.bind_of_ok hread,if_neg (by simp [hordinal]),if_pos hitems,
    if_neg (by simp [hlen,hblob.storedLen,hsum,lenU64])]
  rfl

theorem visitCheckpointBuckets_stored (hz : env.zstd.Inverts) {sections : List CheckpointBucket}
    {first fuel : Nat} {terminator : Bytes} {level : Int} (log : List CheckpointEvent)
    (rest : Bytes)
    (hheld : Chained (fun n b => CheckpointBucket.Holds env config n b) (·.accounts.length) first
      sections)
    (hsize : header.checkpointBucketAccounts = config.checkpointBucketAccounts)
    (hend : first + (storedAccounts sections).length = manifest.accounts.length)
    (hclosing : writeBlob env (UInt64.ofNat manifest.accounts.length) 0 [] .none level =
      .ok terminator)
    (hsmall : (storedSections sections ++ terminator).length < 2 ^ 63)
    (hfuel : sections.length < fuel) :
    visitCheckpointBuckets env header manifest fuel (UInt64.ofNat first)
        ⟨log,storedSections sections ++ (terminator ++ rest)⟩ =
      .ok (UInt64.ofNat manifest.accounts.length)
        ⟨log ++ checkpointEvents manifest first (storedAccounts sections),rest⟩ := by
  induction sections generalizing first fuel log with
  | nil =>
    obtain ⟨fuel,rfl⟩ : ∃ n, fuel = n + 1 := ⟨fuel - 1,by simp at hfuel; omega⟩
    have hfirst : first = manifest.accounts.length := by simpa [storedAccounts] using hend
    have hlast := visitCheckpointBuckets_terminator header manifest fuel hz hclosing
      (by simpa [storedSections] using hsmall) log rest
    simpa [storedSections,storedAccounts,checkpointEvents,hfirst] using hlast
  | cons b others ih =>
    obtain ⟨fuel,rfl⟩ : ∃ n, fuel = n + 1 := ⟨fuel - 1,by omega⟩
    obtain ⟨hb,hrest⟩ := hheld
    rw [storedAccounts,List.flatMap_cons,List.length_append] at hend
    rw [storedSections,List.flatMap_cons,List.append_assoc,List.length_append] at hsmall
    have hend' : first + b.accounts.length + (storedAccounts others).length =
        manifest.accounts.length := by
      rw [storedAccounts]
      omega
    have hsmall' : (storedSections others ++ terminator).length < 2 ^ 63 := by
      rw [storedSections]
      omega
    have hfits : first + b.accounts.length ≤ manifest.accounts.length := by omega
    have hstep := visitCheckpointBuckets_section hz fuel hb hsize hfits (by omega) log
      (storedSections others ++ (terminator ++ rest))
    have htail := @ih (first + b.accounts.length) fuel
      (log ++ checkpointEvents manifest first b.accounts) hrest hend' hsmall' (by simpa using hfuel)
    rw [storedSections,List.flatMap_cons,List.append_assoc,← storedSections,hstep,htail,
      List.append_assoc,← checkpointEvents_append first b.accounts _ hfits]
    rfl

theorem length_sections {sections : List CheckpointBucket} {first : Nat} (hz : env.zstd.Inverts)
    (hheld : Chained (fun n b => CheckpointBucket.Holds env config n b) (·.accounts.length) first
      sections) : sections.length ≤ (storedSections sections).length := by
  induction sections generalizing first with
  | nil => simp
  | cons b others ih =>
    obtain ⟨hb,hrest⟩ := hheld
    obtain ⟨payload,hfits,-,hraw⟩ := hb.written
    obtain ⟨blob,framed,stored,hblob,-,-,-,-⟩ := writeBlob_ok hz hfits hraw
    obtain ⟨bytes,-,hlt,hframed⟩ := writeFramed_ok hblob.framed
    have hpos := one_le_length_encodeVarint 8 bytes.length
    have hothers := ih hrest
    rw [storedSections,List.flatMap_cons,← storedSections,List.length_append,hblob.bytes,hframed]
    simp only [List.length_append,List.length_cons]
    omega

end Sections

/-- Every account of the manifest is delivered once, in the manifest's order and as it was given. -/
theorem visitCheckpoint_writeFile (env : GgjetEnv) (hz : env.zstd.Inverts)
    (nowMs checkpointSlot start count : UInt64) (manifest : AccountManifest)
    (config : GgjetWriterConfig) (calls : List GgjetWriter.Call) (file : Bytes) (stats : GgjetStats)
    (h : GgjetWriter.writeFile env nowMs manifest checkpointSlot start count config calls =
      .ok (file,stats)) :
    (calls.filterMap (·.account)).length = manifest.accounts.length ∧
    ∃ r, GgjetReader.open env file = .ok r ∧
      r.visitCheckpoint env [] = .ok (UInt64.ofNat manifest.accounts.length)
        (manifest.accounts.zip (calls.filterMap (·.account))) := by
  obtain ⟨header,front,sections,terminator,buckets,index,hversion,rfl,rfl,hsize,haccounts,hdigest,
    hfile,hgiven,-⟩ := writeFile_file h
  obtain ⟨r,hopen,hsource,hheader,hmanifest,hoffset,-⟩ :=
    open_file hz hfile hversion haccounts hdigest
  have hcomplete := hfile.complete
  have hsmall := hfile.small
  have hclosing := hfile.closing
  rw [haccounts] at hclosing
  obtain ⟨rest,hrest⟩ : ∃ rest, file = front ++
      (storedSections sections ++ (terminator ++ rest)) := by
    rw [hfile.bytes]
    exact ⟨_,by simp only [List.append_assoc]; rfl⟩
  rw [hrest] at hsmall
  simp only [List.length_append] at hsmall
  have hbytes : r.source.drop r.checkpointOffset =
      storedSections sections ++ (terminator ++ rest) := by
    rw [hsource,hoffset,hrest,List.drop_left]
  have hfuel := length_sections hz hfile.sectionsHeld
  have hvisit := visitCheckpointBuckets_stored hz [] rest
    hfile.sectionsHeld hsize (by rw [Nat.zero_add]; exact hcomplete) hclosing
    (by rw [List.length_append]; omega)
    (show _ < (storedSections sections ++ (terminator ++ rest)).length + 1 by
      rw [List.length_append]; omega)
  rw [hgiven] at hcomplete hvisit
  refine ⟨hcomplete,r,hopen,?_⟩
  simp only [GgjetReader.visitCheckpoint,hbytes,hheader,hmanifest]
  rw [show (0 : UInt64) = UInt64.ofNat 0 from rfl,hvisit]
  dsimp only
  rw [if_neg (by simp [haccounts])]
  rfl

theorem smallFile_checkpoint : ∃ file stats r, smallFile = .ok (file,stats) ∧
    GgjetReader.open plainGgjetEnv file = .ok r ∧
      r.visitCheckpoint plainGgjetEnv [] = .ok 2
        (smallManifest.accounts.zip (smallCalls.filterMap (·.account))) := by
  have hok : smallFile.isOk = true := by decide +kernel
  cases hfile : smallFile with
  | error e =>
    rw [hfile] at hok
    cases hok
  | ok written =>
    obtain ⟨file,stats⟩ := written
    obtain ⟨-,r,hopen,hvisit⟩ := visitCheckpoint_writeFile plainGgjetEnv plainEnv_inverts 0 4 5 3
      smallManifest ⟨2,1,1000,.zstd,3⟩ smallCalls file stats hfile
    exact ⟨file,stats,r,rfl,hopen,hvisit⟩

end Jetstreamer.Ggjet
