import Jetstreamer.Archive.FrameRoundTrip
import Jetstreamer.Archive.Writer
set_option autoImplicit false

namespace Jetstreamer.Archive
open Lib Lencode Horizon

/-- A call between `beginSlot` and `endSlot`, the epoch notification apart. -/
inductive Call where
  | orphan (view : AccountUpdate)
  | transaction (tx : Transaction)

def ArchiveWriter.call (env : Env) (w : ArchiveWriter) : Call → Except Failure ArchiveWriter
  | .orphan view => w.writeOrphanUpdate env view
  | .transaction tx => w.writeTransaction env tx

def ArchiveWriter.writeEpoch (env : Env) (w : ArchiveWriter) :
    Option EpochMeta → Except Failure ArchiveWriter
  | none => .ok w
  | some info => w.writeEpochMeta env info

def ArchiveWriter.writeBlock (env : Env) (w : ArchiveWriter) (slot : UInt64)
    (epoch : Option EpochMeta) (calls : List Call) (info : BlockMeta)
    (entries : List EntryRecord) : Except Failure ArchiveWriter := do
  let w ← w.beginSlot env slot
  let w ← w.writeEpoch env epoch
  let w ← calls.foldlM (ArchiveWriter.call env) w
  w.endSlot info entries

def orderedCalls (pre : List AccountUpdate) (txs : List Transaction) (post : List AccountUpdate) :
    List Call :=
  pre.map .orphan ++ (txs.map .transaction ++ post.map .orphan)

def BlockFrame.calls (b : BlockFrame) : List Call :=
  orderedCalls b.pre.updates b.transactions b.post.updates

def ArchiveWriter.writeFrame (env : Env) (w : ArchiveWriter) : Frame → Except Failure ArchiveWriter
  | .skipped slot => w.writeSkippedSlot env slot
  | .block b => w.writeBlock env b.slot b.epoch b.calls b.info b.entries

/-- The calls a writer receives for one slot, in whatever order they arrive. -/
inductive SlotCalls where
  | skipped (slot : UInt64)
  | block (slot : UInt64) (epoch : Option EpochMeta) (calls : List Call) (info : BlockMeta)
      (entries : List EntryRecord)

def SlotCalls.slot : SlotCalls → UInt64
  | .skipped slot => slot
  | .block slot _ _ _ _ => slot

def SlotCalls.chained (hash : Hash) : SlotCalls → Hash
  | .skipped _ => hash
  | .block _ _ _ info _ => info.blockhash

def ArchiveWriter.writeCalls (env : Env) (w : ArchiveWriter) :
    SlotCalls → Except Failure ArchiveWriter
  | .skipped slot => w.writeSkippedSlot env slot
  | .block slot epoch calls info entries => w.writeBlock env slot epoch calls info entries

def Frame.toCalls : Frame → SlotCalls
  | .skipped slot => .skipped slot
  | .block b => .block b.slot b.epoch b.calls b.info b.entries

theorem ArchiveWriter.writeFrame_eq (env : Env) (w : ArchiveWriter) (f : Frame) :
    w.writeFrame env f = w.writeCalls env f.toCalls := by
  cases f <;> rfl

@[simp] theorem Frame.toCalls_slot (f : Frame) : f.toCalls.slot = f.slot := by cases f <;> rfl

section Staging

variable {env : Env}

def encodeCall (env : Env) : Call → Put Failure EncoderContext
  | .orphan view => encodeUpdateRecord env view
  | .transaction tx => encodeTxRecord env tx

def Staging.add (st : Staging) (bytes : Bytes) : Call → Staging
  | .orphan _ => st.addOrphan bytes
  | .transaction _ => st.addTx bytes

@[simp] theorem Staging.add_slot (st : Staging) (bytes : Bytes) (c : Call) :
    (st.add bytes c).slot = st.slot := by
  cases c with
  | orphan view =>
    simp only [add,addOrphan]
    split <;> rfl
  | transaction tx => rfl

def stageCall (env : Env) (s : EncoderContext × Staging) (c : Call) :
    Except Failure (EncoderContext × Staging) := do
  let written ← encodeCall env c s.1
  return (written.2,s.2.add written.1 c)

variable {s' s : EncoderContext × Staging} {w w' : ArchiveWriter} {txs : List Transaction}
  {slot : UInt64} {epoch : Option EpochMeta} {bytes : Bytes} {info : BlockMeta}
  {entries : List EntryRecord} {enc : EncoderContext}

theorem stageCall_ok {c : Call} (h : stageCall env s c = .ok s') :
    ∃ bytes, encodeCall env c s.1 = .ok (bytes,s'.1) ∧ s'.2 = s.2.add bytes c := by
  obtain ⟨⟨bytes,enc⟩,henc,h⟩ := bind_ok h
  cases h
  exact ⟨bytes,henc,rfl⟩

theorem ArchiveWriter.call_ok {c : Call} (h : w.call env c = .ok w') :
    ∃ s stats, stageCall env (w.enc,w.staging) c = .ok s ∧
      w' = { w with enc := s.1, staging := s.2, stats := stats } := by
  cases c with
  | orphan view =>
    simp only [call,writeOrphanUpdate] at h
    split at h
    · cases h
    · obtain ⟨⟨bytes,enc⟩,henc,h⟩ := bind_ok h
      cases h
      exact ⟨_,_,by simp only [stageCall,encodeCall,henc,ok_bind]; rfl,rfl⟩
  | transaction tx =>
    simp only [call,writeTransaction] at h
    split at h
    · cases h
    · obtain ⟨⟨bytes,enc⟩,henc,h⟩ := bind_ok h
      cases h
      exact ⟨_,_,by simp only [stageCall,encodeCall,henc,ok_bind]; rfl,rfl⟩

variable {calls : List Call}

theorem ArchiveWriter.calls_ok (h : calls.foldlM (ArchiveWriter.call env) w = .ok w') :
    ∃ s stats, calls.foldlM (stageCall env) (w.enc,w.staging) = .ok s ∧
      w' = { w with enc := s.1, staging := s.2, stats := stats } := by
  induction calls generalizing w with
  | nil =>
    cases h
    exact ⟨(w'.enc,w'.staging),w'.stats,rfl,rfl⟩
  | cons c rest ih =>
    rw [List.foldlM_cons] at h
    obtain ⟨middle,hc,h⟩ := bind_ok h
    obtain ⟨s1,stats1,hstage,rfl⟩ := ArchiveWriter.call_ok hc
    obtain ⟨s2,stats2,hrest,rfl⟩ := ih h
    refine ⟨s2,stats2,?_,rfl⟩
    rw [List.foldlM_cons,hstage,ok_bind]
    exact hrest

def Staging.addOrphans (st : Staging) (bytes : Bytes) (n : Nat) : Staging :=
  if st.txCount = 0 then
    { st with preBytes := st.preBytes ++ bytes, preCount := st.preCount + UInt32.ofNat n }
  else { st with postBytes := st.postBytes ++ bytes, postCount := st.postCount + UInt32.ofNat n }

def Staging.addTxs (st : Staging) (bytes : Bytes) (n : Nat) : Staging :=
  { st with txBytes := st.txBytes ++ bytes, txCount := st.txCount + UInt32.ofNat n }

theorem UInt32.add_one_add_ofNat (c : UInt32) (n : Nat) :
    c + 1 + UInt32.ofNat n = c + UInt32.ofNat (n + 1) := by
  rw [UInt32.ofNat_add,UInt32.add_assoc]
  congr 1
  exact UInt32.add_comm _ _

theorem stage_map {α : Type} {make : α → Call} {write : α → Put Failure EncoderContext}
    {adds : Staging → Bytes → Nat → Staging} (hwrite : ∀ a, encodeCall env (make a) = write a)
    (hnil : ∀ st, adds st [] 0 = st)
    (hcons : ∀ st a b bs n, adds (st.add b (make a)) bs n = adds st (b ++ bs) (n + 1))
    {items : List α} (h : (items.map make).foldlM (stageCall env) s = .ok s') :
    ∃ bytes, Put.each write items s.1 = .ok (bytes,s'.1) ∧
      s'.2 = adds s.2 bytes items.length := by
  induction items generalizing s with
  | nil =>
    cases h
    exact ⟨[],rfl,(hnil _).symm⟩
  | cons a rest ih =>
    rw [List.map_cons,List.foldlM_cons] at h
    obtain ⟨middle,hcall,h⟩ := bind_ok h
    obtain ⟨first,hfirst,hst⟩ := stageCall_ok hcall
    obtain ⟨others,hothers,hfinal⟩ := ih h
    refine ⟨first ++ others,?_,?_⟩
    · rw [hwrite] at hfirst
      exact Put.all_cons_ok.mpr ⟨first,middle.1,others,hfirst,hothers,rfl⟩
    · rw [hfinal,hst,hcons,List.length_cons]

theorem stage_orphans {us : List AccountUpdate}
    (h : (us.map Call.orphan).foldlM (stageCall env) s = .ok s') :
    ∃ bytes, (Put.each (encodeUpdateRecord env) us : Put Failure _) s.1 = .ok (bytes,s'.1) ∧
      s'.2 = s.2.addOrphans bytes us.length := by
  refine stage_map (fun _ => rfl) ?_ ?_ h
  · intro st
    unfold Staging.addOrphans
    split <;> simp
  · intro st u b bs n
    by_cases hcount : st.txCount = 0
    · simp [Staging.add,Staging.addOrphan,Staging.addOrphans,hcount,UInt32.add_one_add_ofNat]
    · simp [Staging.add,Staging.addOrphan,Staging.addOrphans,hcount,UInt32.add_one_add_ofNat]

theorem stage_transactions (h : (txs.map Call.transaction).foldlM (stageCall env) s = .ok s') :
    ∃ bytes, Put.each (encodeTxRecord env) txs s.1 = .ok (bytes,s'.1) ∧
      s'.2 = s.2.addTxs bytes txs.length := by
  refine stage_map (fun _ => rfl) ?_ ?_ h
  · intro st
    simp [Staging.addTxs]
  · intro st tx b bs n
    simp [Staging.add,Staging.addTx,Staging.addTxs,UInt32.add_one_add_ofNat]

def stageEpoch (env : Env) (slot : UInt64) (enc : EncoderContext) :
    Option EpochMeta → Except Failure (EncoderContext × Staging)
  | none => .ok (enc,{ slot := some slot })
  | some info => do
    let written ← encodeEpochMeta env info enc
    return (written.2,{ slot := some slot, epochBytes := written.1, hasEpoch := true })

/-- The writer after a frame: the bytes behind those of the bucket, one frame more, and the
encoders and the chain moved on. -/
def ArchiveWriter.appended (w : ArchiveWriter) (bytes : Bytes) (enc : EncoderContext) (hash : Hash)
    (staging : Staging) (stats : ArchiveStats) : ArchiveWriter :=
  { w with
    bucketBuf := w.bucketBuf ++ bytes
    bucketSlotCount := w.bucketSlotCount + 1
    enc := enc
    lastBlockhash := hash
    staging := { staging with slot := none }
    stats := stats }

/-- The bytes of a block frame, from its staged sections. -/
def blockBytes (slot : UInt64) (st : Staging) (info : BlockMeta) (entries : List EntryRecord) :
    Put Failure EncoderContext :=
  Put.all [encodeU64 slot,encodeU8 1,st.sections,encodeBlockMetaFields info,encodeEntries entries]

/-- The bytes of a slot: its sections are staged with the shared encoders in the order of the
calls, and assembled afterwards. -/
def encodeCalls (env : Env) : SlotCalls → Put Failure EncoderContext
  | .skipped slot => Put.all [encodeU64 slot,encodeU8 0]
  | .block slot epoch calls info entries => fun enc => do
    let s ← stageEpoch env slot enc epoch
    let s ← calls.foldlM (stageCall env) s
    blockBytes slot s.2 info entries s.1

theorem ArchiveWriter.beginSlot_ok (h : w.beginSlot env slot = .ok w') :
    ∃ w1, w.checkSlot env slot = .ok w1 ∧ w' = { w1 with staging := { slot := some slot } } := by
  unfold beginSlot at h
  split at h
  · cases h
  · obtain ⟨w1,hcheck,h⟩ := bind_ok h
    cases h
    exact ⟨w1,hcheck,rfl⟩

theorem ArchiveWriter.writeEpoch_ok (hst : w.staging = { slot := some slot })
    (h : w.writeEpoch env epoch = .ok w') :
    ∃ s stats, stageEpoch env slot w.enc epoch = .ok s ∧
      w' = { w with enc := s.1, staging := s.2, stats := stats } := by
  cases epoch with
  | none =>
    cases h
    exact ⟨_,w.stats,rfl,by rw [← hst]⟩
  | some info =>
    simp only [writeEpoch,writeEpochMeta] at h
    split at h
    · cases h
    · obtain ⟨⟨bytes,enc⟩,henc,h⟩ := bind_ok h
      refine ⟨(enc,{ slot := some slot, epochBytes := bytes, hasEpoch := true }),w'.stats,?_,?_⟩
      · simp only [stageEpoch,henc,ok_bind]
        rfl
      · cases h
        rw [hst]
        rfl

theorem extendBuf_ok {buf out : Bytes} (h : extendBuf buf bytes = .ok out) :
    out = buf ++ bytes ∧ (buf ++ bytes).length < 2 ^ 63 := by
  unfold extendBuf at h
  split at h
  · rename_i hlen
    cases h
    exact ⟨rfl,hlen⟩
  · cases h

theorem ArchiveWriter.endSlot_ok (hslot : w.staging.slot = some slot)
    (h : w.endSlot info entries = .ok w') :
    ∃ bytes enc stats, blockBytes slot w.staging info entries w.enc = .ok (bytes,enc) ∧
      (w.bucketBuf ++ bytes).length < 2 ^ 63 ∧
      w' = w.appended bytes enc info.blockhash w.staging stats := by
  simp only [endSlot,hslot] at h
  obtain ⟨⟨bytes,enc⟩,henc,h⟩ := bind_ok h
  obtain ⟨buf,hbuf,h⟩ := bind_ok h
  obtain ⟨rfl,hlen⟩ := extendBuf_ok hbuf
  cases h
  exact ⟨bytes,enc,_,henc,hlen,rfl⟩

theorem stageCalls_slot (h : calls.foldlM (stageCall env) s = .ok s') : s'.2.slot = s.2.slot := by
  refine foldlM_invariant (I := fun t => t.2.slot = s.2.slot) ?_ rfl h
  intro t c t' hslot hcall
  obtain ⟨bytes,-,hst⟩ := stageCall_ok hcall
  rw [hst,Staging.add_slot,hslot]

theorem stageEpoch_slot (h : stageEpoch env slot enc epoch = .ok s) :
    s.2.slot = some slot := by
  cases epoch with
  | none =>
    cases h
    rfl
  | some info =>
    obtain ⟨written,-,h⟩ := bind_ok h
    cases h
    rfl

theorem ArchiveWriter.writeBlock_ok (h : w.writeBlock env slot epoch calls info entries = .ok w') :
    ∃ w1 bytes enc staging stats, w.checkSlot env slot = .ok w1 ∧
      encodeCalls env (.block slot epoch calls info entries) w1.enc = .ok (bytes,enc) ∧
      (w1.bucketBuf ++ bytes).length < 2 ^ 63 ∧
      w' = w1.appended bytes enc info.blockhash staging stats := by
  obtain ⟨w2,hbegin,h⟩ := bind_ok h
  obtain ⟨w1,hcheck,rfl⟩ := beginSlot_ok hbegin
  obtain ⟨w3,hepoch,h⟩ := bind_ok h
  obtain ⟨s1,stats1,hstage1,rfl⟩ := writeEpoch_ok rfl hepoch
  obtain ⟨w4,hcalls,h⟩ := bind_ok h
  obtain ⟨s2,stats2,hstage2,rfl⟩ := calls_ok hcalls
  have hslot : s2.2.slot = some slot := (stageCalls_slot hstage2).trans (stageEpoch_slot hstage1)
  obtain ⟨bytes,enc,stats,hbytes,hlen,rfl⟩ := endSlot_ok hslot h
  refine ⟨w1,bytes,enc,s2.2,stats,hcheck,?_,hlen,rfl⟩
  simp only [encodeCalls,hstage1,hstage2,ok_bind]
  exact hbytes

theorem ArchiveWriter.call_of_ok {c : Call}
    (hopen : w.staging.slot.isSome) (h : stageCall env (w.enc,w.staging) c = .ok s) :
    ∃ stats, w.call env c = .ok { w with enc := s.1, staging := s.2, stats := stats } := by
  have hsome : ¬w.staging.slot.isNone := by simpa [Option.isSome_iff_ne_none] using hopen
  obtain ⟨bytes,henc,hst⟩ := stageCall_ok h
  cases c with
  | orphan view =>
    refine ⟨countOrphans w.stats [view],?_⟩
    simp only [encodeCall] at henc
    simp only [call,writeOrphanUpdate,if_neg hsome,henc,ok_bind,hst]
    rfl
  | transaction tx =>
    refine ⟨{ w.stats with
      transactions := w.stats.transactions + 1
      accountUpdates := w.stats.accountUpdates + UInt64.ofNat tx.accountUpdates.updates.length
      accountDataBytesIn := w.stats.accountDataBytesIn +
        UInt64.ofNat (dataLen tx.accountUpdates.updates) },?_⟩
    simp only [encodeCall] at henc
    simp only [call,writeTransaction,if_neg hsome,henc,ok_bind,hst]
    rfl

theorem ArchiveWriter.calls_of_ok (hopen : w.staging.slot.isSome)
    (h : calls.foldlM (stageCall env) (w.enc,w.staging) = .ok s) :
    ∃ stats, calls.foldlM (ArchiveWriter.call env) w =
      .ok { w with enc := s.1, staging := s.2, stats := stats } := by
  induction calls generalizing w with
  | nil =>
    cases h
    exact ⟨w.stats,rfl⟩
  | cons c rest ih =>
    rw [List.foldlM_cons] at h
    obtain ⟨middle,hc,h⟩ := bind_ok h
    obtain ⟨stats1,hcall⟩ := call_of_ok hopen hc
    obtain ⟨bytes,-,hst⟩ := stageCall_ok hc
    have hopen1 : middle.2.slot.isSome := by rwa [hst,Staging.add_slot]
    obtain ⟨stats2,hrest⟩ := ih
        (w := { w with enc := middle.1, staging := middle.2, stats := stats1 })
      hopen1 h
    exact ⟨stats2,by rw [List.foldlM_cons,hcall,ok_bind,hrest]⟩

theorem ArchiveWriter.writeEpoch_of_ok
    (hst : w.staging = { slot := some slot }) (h : stageEpoch env slot w.enc epoch = .ok s) :
    ∃ stats, w.writeEpoch env epoch =
      .ok { w with enc := s.1, staging := s.2, stats := stats } := by
  cases epoch with
  | none =>
    cases h
    exact ⟨w.stats,by rw [writeEpoch,← hst]⟩
  | some info =>
    obtain ⟨⟨bytes,enc⟩,henc,h⟩ := bind_ok h
    cases h
    simp only [writeEpoch,writeEpochMeta,hst,henc,ok_bind]
    exact ⟨_,rfl⟩

theorem ArchiveWriter.writeBlock_of_ok {w1 : ArchiveWriter} (hidle : w.staging.slot = none)
    (hcheck : w.checkSlot env slot = .ok w1)
    (henc : encodeCalls env (.block slot epoch calls info entries) w1.enc = .ok (bytes,enc))
    (hlen : (w1.bucketBuf ++ bytes).length < 2 ^ 63) :
    ∃ staging stats, w.writeBlock env slot epoch calls info entries =
      .ok (w1.appended bytes enc info.blockhash staging stats) := by
  obtain ⟨s1,hepoch,henc⟩ := bind_ok henc
  obtain ⟨s2,hcalls,hbytes⟩ := bind_ok henc
  obtain ⟨stats1,hepoch'⟩ :=
    writeEpoch_of_ok (w := { w1 with staging := { slot := some slot } }) rfl hepoch
  have hslot1 := stageEpoch_slot hepoch
  obtain ⟨stats2,hcalls'⟩ := calls_of_ok
      (w := { w1 with enc := s1.1, staging := s1.2, stats := stats1 })
    (by simp [hslot1]) hcalls
  have hslot2 : s2.2.slot = some slot := (stageCalls_slot hcalls).trans hslot1
  have hbegin : w.beginSlot env slot = .ok { w1 with staging := { slot := some slot } } := by
    simp only [beginSlot,hidle,hcheck,ok_bind]
    rfl
  refine ⟨s2.2,{ stats2 with slots := stats2.slots + 1, blocks := stats2.blocks + 1 },?_⟩
  simp only [blockBytes] at hbytes
  simp only [writeBlock,hbegin,hepoch',hcalls',ok_bind,endSlot,hslot2,hbytes,extendBuf,if_pos hlen]
  rfl

theorem encodeLen_of_lt {σ : Type} {n : Nat} (h : n < 2 ^ 64) (s : σ) :
    (encodeLen n : Put Failure σ) s = .ok (encodeVarint 8 n,s) := by
  simp only [encodeLen,h,if_true]

theorem UInt32.ofNat_ne_zero {n : Nat} (hpos : n ≠ 0) (hlt : n < 2 ^ 32) : UInt32.ofNat n ≠ 0 := by
  intro h
  have := congrArg UInt32.toNat h
  simp only [UInt32.toNat_ofNat',UInt32.toNat_zero] at this
  omega

theorem stageBlock_ok {pre post : List AccountUpdate} {s1 s2 : EncoderContext × Staging}
    (hfresh : s1.2.preBytes = [] ∧ s1.2.preCount = 0 ∧ s1.2.txBytes = [] ∧ s1.2.txCount = 0 ∧
      s1.2.postBytes = [] ∧ s1.2.postCount = 0)
    (hphases : txs = [] → post = []) (hcounted : txs.length < 2 ^ 32)
    (h : (orderedCalls pre txs post).foldlM (stageCall env) s1 = .ok s2) :
    ∃ e1 e2 preBytes txBytes postBytes,
      (Put.each (encodeUpdateRecord env) pre : Put Failure _) s1.1 = .ok (preBytes,e1) ∧
      Put.each (encodeTxRecord env) txs e1 = .ok (txBytes,e2) ∧
      (Put.each (encodeUpdateRecord env) post : Put Failure _) e2 = .ok (postBytes,s2.1) ∧
      s2.2 = { s1.2 with
        preBytes, preCount := UInt32.ofNat pre.length
        txBytes, txCount := UInt32.ofNat txs.length
        postBytes, postCount := UInt32.ofNat post.length } := by
  obtain ⟨hpreBytes,hpreCount,htxBytes,htxCount,hpostBytes,hpostCount⟩ := hfresh
  rw [orderedCalls,List.foldlM_append] at h
  obtain ⟨t1,hpre,h⟩ := bind_ok h
  rw [List.foldlM_append] at h
  obtain ⟨t2,htxs,h⟩ := bind_ok h
  obtain ⟨preBytes,hpre,hst1⟩ := stage_orphans hpre
  obtain ⟨txBytes,htxs,hst2⟩ := stage_transactions htxs
  obtain ⟨postBytes,hpost,hst3⟩ := stage_orphans h
  refine ⟨t1.1,t2.1,preBytes,txBytes,postBytes,hpre,htxs,hpost,?_⟩
  rw [hst3,hst2,hst1]
  simp only [Staging.addOrphans,Staging.addTxs,htxCount,if_true,hpreBytes,hpreCount,htxBytes,
    List.nil_append,UInt32.zero_add]
  by_cases hnone : txs = []
  · have hnopost := hphases hnone
    subst hnopost
    obtain ⟨hempty,-⟩ := Prod.mk.inj (Except.ok.inj hpost)
    simp [hnone,hpostBytes,hpostCount,← hempty]
  · have hne := UInt32.ofNat_ne_zero (List.length_pos_iff.mpr hnone).ne' hcounted
    simp [hne,hpostBytes,hpostCount]

theorem counted_ok {α : Type} {write : α → Put Failure EncoderContext} {items : List α}
    {e e' : EncoderContext} (hlen : items.length < 2 ^ 64)
    (h : Put.each write items e = .ok (bytes,e')) :
    Put.all [encodeLen items.length,Put.each write items] e =
      .ok (encodeVarint 8 items.length ++ bytes,e') := by
  have hall := Put.all_cons_of_ok (encodeLen_of_lt hlen e) (Put.all_cons_of_ok h (Put.all_nil e'))
  rwa [List.append_nil] at hall

theorem stageEpoch_ok (h : stageEpoch env slot enc epoch = .ok s) :
    ∃ bytes, s.2 = { slot := some slot, hasEpoch := epoch.isSome, epochBytes := bytes } ∧
      encodeEpochSection env epoch enc = .ok ((if epoch.isSome then 1 else 0) :: bytes,s.1) := by
  cases epoch with
  | none =>
    cases h
    exact ⟨[],rfl,rfl⟩
  | some info =>
    obtain ⟨⟨bytes,enc'⟩,henc,h⟩ := bind_ok h
    cases h
    have hall := Put.all_cons_of_ok (p := encodeU8 1) (s := enc) rfl
        (Put.all_cons_of_ok henc (Put.all_nil enc'))
    rw [List.append_nil] at hall
    exact ⟨bytes,rfl,hall⟩

theorem Staging.sections_eq (st : Staging) (e : EncoderContext) :
    st.sections e = .ok ((if st.hasEpoch then 1 else 0) :: st.epochBytes ++
      (encodeVarint 8 st.preCount.toNat ++ st.preBytes) ++
      (encodeVarint 8 st.txCount.toNat ++ st.txBytes) ++
      (encodeVarint 8 st.postCount.toNat ++ st.postBytes),e) := by
  have hcount (c : UInt32) : c.toNat < 2 ^ 64 := lt_trans c.toNat_lt (by decide)
  simp only [Staging.sections,Put.all,encodeBool,Put.raw_apply,encodeLen_of_lt (hcount _),ok_bind]
  cases st.hasEpoch <;> simp [pure,Except.pure]

theorem encodeSections_of_encodeCalls {pre post : List AccountUpdate} {enc' : EncoderContext}
    (hphases : txs = [] → post = []) (hpreLen : pre.length < 2 ^ 32)
    (htxsLen : txs.length < 2 ^ 32) (hpostLen : post.length < 2 ^ 32)
    (h : encodeCalls env (.block slot epoch (orderedCalls pre txs post) info entries) enc =
      .ok (bytes,enc')) :
    encodeSections env slot epoch pre txs post info entries enc = .ok (bytes,enc') := by
  obtain ⟨s1,hepoch,h⟩ := bind_ok h
  obtain ⟨s2,hcalls,hbytes⟩ := bind_ok h
  obtain ⟨epochBytes,hst1,hepoch⟩ := stageEpoch_ok hepoch
  obtain ⟨e1,e2,preBytes,txBytes,postBytes,hpre,htxs,hpost,hst2⟩ :=
    stageBlock_ok (by simp [hst1]) hphases htxsLen hcalls
  have hlt {n : Nat} (h : n < 2 ^ 32) : n < 2 ^ 64 := lt_trans h (by decide)
  obtain ⟨first,m1,rest,hfirst,hbytes,rfl⟩ := Put.all_cons_ok.mp hbytes
  cases hfirst
  obtain ⟨kind,m2,rest,hkind,hbytes,rfl⟩ := Put.all_cons_ok.mp hbytes
  cases hkind
  obtain ⟨sections,m3,rest,hsections,hbytes,rfl⟩ := Put.all_cons_ok.mp hbytes
  rw [Staging.sections_eq] at hsections
  cases hsections
  have hframe := Put.all_cons_of_ok (p := encodeU64 slot) (s := enc) rfl
    (Put.all_cons_of_ok (p := encodeU8 1) (s := enc) rfl (Put.all_cons_of_ok hepoch
    (Put.all_cons_of_ok (counted_ok (hlt hpreLen) hpre)
    (Put.all_cons_of_ok (counted_ok (hlt htxsLen) htxs)
    (Put.all_cons_of_ok (counted_ok (hlt hpostLen) hpost) hbytes)))))
  refine hframe.trans ?_
  simp only [hst2,hst1,UInt32.toNat_ofNat_of_lt' hpreLen,UInt32.toNat_ofNat_of_lt' hpostLen,
    UInt32.toNat_ofNat_of_lt' htxsLen]
  simp

theorem encodeFrame_of_encodeCalls {f : Frame} {enc' : EncoderContext}
    (h : encodeCalls env f.toCalls enc = .ok (bytes,enc')) :
    encodeFrame env f enc = .ok (bytes,enc') := by
  cases f with
  | skipped slot => exact h
  | block b =>
    have hpreLen : b.pre.updates.length < 2 ^ 32 := lt_of_le_of_lt b.pre.count (by decide)
    have hpostLen : b.post.updates.length < 2 ^ 32 := lt_of_le_of_lt b.post.count (by decide)
    exact encodeSections_of_encodeCalls b.phases hpreLen b.counted hpostLen h

end Staging

section Slots

variable {env : Env}

variable {w : ArchiveWriter}

theorem ArchiveWriter.checkSlot_ok {w1 : ArchiveWriter} {slot : UInt64}
    (h : w.checkSlot env slot = .ok w1) :
    (w.slotStart ≤ slot ∧ slot < w.slotEnd ∧ ∀ last, w.lastSlot = some last → last < slot) ∧
      ((w.bucketFirstSlot = none ∧ w1 = w.enterBucket slot) ∨
        ∃ first, w.bucketFirstSlot = some first ∧
          ((w.bucketId first = w.bucketId slot ∧ w1 = w.enterBucket slot) ∨
            ∃ w0, w.bucketId first ≠ w.bucketId slot ∧ w.flushBucket env = .ok w0 ∧
              w1 = w0.enterBucket slot)) := by
  unfold checkSlot at h
  split at h
  · cases h
  · rename_i hrange
    rw [not_or,UInt64.not_lt,UInt64.not_le] at hrange
    split at h
    · cases h
    · rename_i hlast
      obtain ⟨w0,hleave,h⟩ := bind_ok h
      cases h
      refine ⟨⟨hrange.1,hrange.2,?_⟩,?_⟩
      · intro last hsome
        rw [hsome,Option.filter_eq_none_iff] at hlast
        exact UInt64.not_le.mp (by simpa using hlast last rfl)
      · unfold leaveBucket at hleave
        cases hfirst : w.bucketFirstSlot with
        | none =>
          simp only [hfirst] at hleave
          cases hleave
          exact .inl ⟨rfl,rfl⟩
        | some first =>
          simp only [hfirst] at hleave
          refine .inr ⟨first,rfl,?_⟩
          by_cases hid : w.bucketId first = w.bucketId slot
          · simp only [hid,ne_eq,not_true_eq_false,if_false] at hleave
            cases hleave
            exact .inl ⟨hid,rfl⟩
          · simp only [ne_eq,hid,not_false_eq_true,if_true] at hleave
            exact .inr ⟨w0,hid,hleave,rfl⟩

/-- The writer after a flush: the bucket behind the file, its entry behind the index, and the
encoders as at the start. -/
def ArchiveWriter.flushed (env : Env) (w : ArchiveWriter) (firstSlot : UInt64) (raw : Bytes)
    (stats : ArchiveStats) : ArchiveWriter :=
  { w with
    sink := w.sink ++ raw
    bucketFirstSlot := none
    index := w.index ++ [⟨firstSlot,w.fileOffset,lenU64 raw⟩]
    fileOffset := w.fileOffset + lenU64 raw
    stats := stats
    bucketBuf := []
    bucketSlotCount := 0
    enc := env.newEncoderContext }

theorem writeAll_ok {sink bytes out : Bytes} (h : writeAll sink bytes = .ok out) :
    out = sink ++ bytes ∧ (sink ++ bytes).length < 2 ^ 63 := by
  unfold writeAll at h
  split at h
  · rename_i hlen
    cases h
    exact ⟨rfl,hlen⟩
  · cases h

theorem ArchiveWriter.flushBucket_ok {w0 : ArchiveWriter} {firstSlot : UInt64}
    (hfirst : w.bucketFirstSlot = some firstSlot) (h : w.flushBucket env = .ok w0) :
    ∃ raw stats,
      bucketBytes env w.config firstSlot w.bucketSlotCount w.bucketPohAnchor w.bucketBuf = .ok raw ∧
      (w.sink ++ raw).length < 2 ^ 63 ∧ w0 = w.flushed env firstSlot raw stats := by
  simp only [flushBucket,hfirst] at h
  obtain ⟨raw,hraw,h⟩ := bind_ok h
  obtain ⟨sink,hsink,h⟩ := bind_ok h
  obtain ⟨rfl,hlen⟩ := writeAll_ok hsink
  cases h
  exact ⟨raw,_,hraw,hlen,rfl⟩

theorem ArchiveWriter.flushBucket_staging {w0 : ArchiveWriter}
    (h : w.flushBucket env = .ok w0) : w0.staging = w.staging := by
  cases hfirst : w.bucketFirstSlot with
  | none =>
    simp only [flushBucket,hfirst] at h
    cases h
    rfl
  | some first =>
    obtain ⟨raw,stats,-,-,rfl⟩ := flushBucket_ok hfirst h
    rfl

@[simp] theorem ArchiveWriter.enterBucket_staging (w : ArchiveWriter) (slot : UInt64) :
    (w.enterBucket slot).staging = w.staging := by
  unfold enterBucket
  split <;> rfl

theorem ArchiveWriter.checkSlot_staging {w1 : ArchiveWriter} {slot : UInt64}
    (h : w.checkSlot env slot = .ok w1) : w1.staging = w.staging := by
  rcases (checkSlot_ok h).2 with ⟨-,rfl⟩ | ⟨first,-,⟨-,rfl⟩ | ⟨w0,-,hflush,rfl⟩⟩
  · exact enterBucket_staging w slot
  · exact enterBucket_staging w slot
  · rw [enterBucket_staging,flushBucket_staging hflush]

theorem ArchiveWriter.writeCalls_ok {w' : ArchiveWriter} {f : SlotCalls}
    (h : w.writeCalls env f = .ok w') :
    ∃ w1 bytes enc staging stats, w.checkSlot env f.slot = .ok w1 ∧
      encodeCalls env f w1.enc = .ok (bytes,enc) ∧ (w1.bucketBuf ++ bytes).length < 2 ^ 63 ∧
      w' = w1.appended bytes enc (f.chained w1.lastBlockhash) staging stats := by
  cases f with
  | skipped slot =>
    simp only [writeCalls,writeSkippedSlot] at h
    split at h
    · cases h
    · rename_i hidle
      obtain ⟨w1,hcheck,h⟩ := bind_ok h
      obtain ⟨⟨bytes,enc⟩,henc,h⟩ := bind_ok h
      obtain ⟨buf,hbuf,h⟩ := bind_ok h
      obtain ⟨rfl,hlen⟩ := extendBuf_ok hbuf
      refine ⟨w1,bytes,enc,w1.staging,w'.stats,hcheck,henc,hlen,?_⟩
      have hslot : w1.staging.slot = none := by
        rw [checkSlot_staging hcheck]
        simpa using hidle
      have hstaging : { w1.staging with slot := none } = w1.staging := by rw [← hslot]
      cases h
      simp only [appended,hstaging]
      rfl
  | block slot epoch calls info entries => exact writeBlock_ok h

end Slots

end Jetstreamer.Archive
