import Jetstreamer.Ggjet.Frames
import Jetstreamer.Lib.Ensures
import Jetstreamer.Archive.RoundTrip
set_option autoImplicit false

namespace Jetstreamer.Ggjet
open Lib Lencode Horizon Archive

/-- The accounts are known, and each update is newer than the one before. -/
structure SlotFrame.WellFormed (manifest : AccountManifest) (f : SlotFrame) : Prop where
  known : ∀ u ∈ f.updates, u.pubkey ∈ manifest.accounts
  increasing : (f.updates.map (·.writeVersion)).Pairwise (· < ·)

def updateTotal (frames : List SlotFrame) : Nat := (frames.map (·.updates.length)).sum

@[simp] theorem updateTotal_cons (f : SlotFrame) (frames : List SlotFrame) :
    updateTotal (f :: frames) = f.updates.length + updateTotal frames := by
  simp [updateTotal]

theorem updateTotal_append (xs ys : List SlotFrame) :
    updateTotal (xs ++ ys) = updateTotal xs + updateTotal ys := by
  simp [updateTotal]

section Decoding

variable {env : GgjetEnv} {manifest : AccountManifest}

theorem readUpdate_ensures (slot : UInt64) (previous : Option UInt64) :
    Ensures (fun _ => True) (readUpdate env manifest slot previous) fun u _ =>
      u.pubkey ∈ manifest.accounts ∧ ∀ p ∈ previous, p < u.writeVersion := by
  refine Ensures.top.bind fun ordinal => ?_
  cases haccount : manifest.accounts[ordinal.toNat]? with
  | none => exact Ensures.throw _
  | some pubkey =>
    refine Ensures.top.bind fun writeVersion => ?_
    cases hprevious : previous.filter (writeVersion ≤ ·) with
    | some p => exact Ensures.throw _
    | none =>
      have hnewer : ∀ p ∈ previous, p < writeVersion := by
        intro p hp
        have hnot := (Option.filter_eq_none_iff.mp hprevious) p hp
        exact UInt64.not_le.mp (by simpa using hnot)
      have hknown : pubkey ∈ manifest.accounts := List.mem_of_getElem? haccount
      exact Ensures.top.bind fun _ => Ensures.top.bind fun _ => Ensures.top.bind fun _ =>
        Ensures.top.bind fun _ => Ensures.top.bind fun _ => Ensures.pure fun _ _ => ⟨hknown,hnewer⟩

theorem collect_updates {slot : UInt64} {n : Nat} {previous last : Option UInt64}
    {updates : List AccountUpdate} {input next : Input DecoderContext}
    (h : Get.collect n (nextUpdate env manifest slot) previous input = .ok (updates,last) next) :
    ((∀ u ∈ updates, u.pubkey ∈ manifest.accounts ∧ ∀ p ∈ previous, p < u.writeVersion) ∧
      (updates.map (·.writeVersion)).Pairwise (· < ·)) ∧ updates.length = n := by
  refine Get.collect_induction (P := fun previous updates _ =>
    (∀ u ∈ updates, u.pubkey ∈ manifest.accounts ∧ ∀ p ∈ previous, p < u.writeVersion) ∧
      (updates.map (·.writeVersion)).Pairwise (· < ·)) ?_ ?_ h
  · intro previous
    simp
  · intro previous u middle rest last input next hround ⟨hrest,hincreasing⟩
    have hstep : Ensures (fun _ => True) (nextUpdate env manifest slot previous) fun r _ =>
        (r.1.pubkey ∈ manifest.accounts ∧ ∀ p ∈ previous, p < r.1.writeVersion) ∧
          r.2 = some r.1.writeVersion :=
      (readUpdate_ensures slot previous).bind fun u => Ensures.pure fun _ hu => ⟨hu,rfl⟩
    obtain ⟨⟨hknown,hnewer⟩,hmiddle⟩ := hstep _ _ _ _ trivial hround
    dsimp only at hknown hnewer hmiddle
    subst hmiddle
    have hlater : ∀ v ∈ rest, u.writeVersion < v.writeVersion := fun v hv => (hrest v hv).2 _ rfl
    refine ⟨?_,?_⟩
    · intro v hv
      rcases List.mem_cons.mp hv with rfl | hv
      · exact ⟨hknown,hnewer⟩
      · exact ⟨(hrest v hv).1,fun p hp => UInt64.lt_trans (hnewer p hp) (hlater v hv)⟩
    · rw [List.map_cons,List.pairwise_cons]
      refine ⟨?_,hincreasing⟩
      intro version hversion
      obtain ⟨v,hv,rfl⟩ := List.mem_map.mp hversion
      exact hlater v hv

theorem readFrameHeader_ensures (first : UInt64) (frameIndex : Nat) (bucketUpdates : UInt64)
    (hindex : frameIndex < 2 ^ 64) :
    Ensures (fun _ => True) (readFrameHeader first frameIndex bucketUpdates) fun r _ =>
      r.1.toNat = first.toNat + frameIndex ∧ r.2.2.toNat = bucketUpdates.toNat + r.2.1.toNat := by
  refine Ensures.top.bind fun slot => (Ensures.ofExcept _).bind fun expected => ?_
  intro t bytes r next hexpected hrun
  by_cases hslot : slot ≠ expected
  · rw [if_pos hslot] at hrun
    cases hrun
  · rw [if_neg hslot] at hrun
    rw [not_not] at hslot
    have hrest : Ensures (fun _ => True) (do
        let count ← decodeU64
        let total ← MonadExcept.ofExcept (checkedAdd bucketUpdates count)
        return (slot,count,total) : Get GgjetFailure DecoderContext (UInt64 × UInt64 × UInt64))
        fun r _ => r.1 = slot ∧ checkedAdd bucketUpdates r.2.1 = .ok r.2.2 :=
      Ensures.top.bind fun count => (Ensures.ofExcept _).bind fun total =>
        Ensures.pure fun _ htotal => ⟨rfl,htotal⟩
    obtain ⟨hr,htotal⟩ := hrest t bytes r next trivial hrun
    rw [hr,hslot,checkedAdd_ok hexpected,checkedAdd_ok htotal,UInt64.toNat_ofNat_of_lt' hindex]
    exact ⟨rfl,rfl⟩

theorem readFrame_ensures (first : UInt64) (st : Nat × UInt64) (hindex : st.1 < 2 ^ 64) :
    Ensures (fun _ => True) (readFrame env manifest first st) fun r _ =>
      r.1.slot.toNat = first.toNat + st.1 ∧ r.1.WellFormed manifest ∧ r.2.1 = st.1 + 1 ∧
        r.2.2.toNat = st.2.toNat + r.1.updates.length := by
  refine (readFrameHeader_ensures first st.1 st.2 hindex).bind fun ⟨slot,count,total⟩ => ?_
  intro t bytes r next hheader hrun
  dsimp only at hheader hrun
  cases hcollect : Get.collect count.toNat (nextUpdate env manifest slot) none ⟨t,bytes⟩ with
  | error e middle =>
    rw [Get.bind_of_error hcollect] at hrun
    cases hrun
  | ok c middle =>
    rw [Get.bind_of_ok hcollect] at hrun
    cases hrun
    obtain ⟨⟨hknown,hincreasing⟩,hlen⟩ := collect_updates hcollect
    refine ⟨hheader.1,⟨fun u hu => (hknown u hu).1,hincreasing⟩,rfl,?_⟩
    rw [hlen]
    exact hheader.2

theorem collect_frames {first : UInt64} {n : Nat} {st last : Nat × UInt64}
    {frames : List SlotFrame} {input next : Input DecoderContext} (hn : st.1 + n ≤ 2 ^ 64)
    (h : Get.collect n (readFrame env manifest first) st input = .ok (frames,last) next) :
    frames.map (·.slot.toNat) = List.range' (first.toNat + st.1) n ∧
      (∀ f ∈ frames, f.WellFormed manifest) ∧ last.2.toNat = st.2.toNat + updateTotal frames := by
  have hall := Get.collect_induction (P := fun st frames last => st.1 + frames.length ≤ 2 ^ 64 →
    frames.map (·.slot.toNat) = List.range' (first.toNat + st.1) frames.length ∧
      (∀ f ∈ frames, f.WellFormed manifest) ∧ last.2.toNat = st.2.toNat + updateTotal frames)
        ?_ ?_ h
  · rw [hall.2] at hall
    exact hall.1 hn
  · intro st _
    simp [updateTotal]
  · intro st f middle rest last input next hround hrest hlen
    rw [List.length_cons] at hlen
    obtain ⟨hslot,hformed,hcount,htotal⟩ :=
      readFrame_ensures first st (by omega) _ _ _ _ trivial hround
    dsimp only at hslot hformed hcount htotal
    obtain ⟨hslots,hrestFormed,hlast⟩ := hrest (by omega)
    refine ⟨?_,?_,?_⟩
    · rw [List.map_cons,hslot,hslots,hcount,List.length_cons,List.range'_succ,Nat.add_assoc]
    · intro g hg
      rcases List.mem_cons.mp hg with rfl | hg
      · exact hformed
      · exact hrestFormed g hg
    · rw [hlast,htotal,updateTotal_cons,Nat.add_assoc]

end Decoding

variable {entries : List GgjetBucketIndexEntry} {stop start : UInt64}

theorem Tiled.le {first last : Nat} (h : Tiled first last entries) : first ≤ last := by
  induction entries generalizing first with
  | nil => exact Nat.le_of_eq h
  | cons entry rest ih =>
    have := ih h.2.2
    omega

namespace GgjetReader

variable {env : GgjetEnv} {r : GgjetReader}

theorem bucketFrames_spec {entry : GgjetBucketIndexEntry} {frames : List SlotFrame}
    (h : r.bucketFrames env entry = .ok frames) :
    frames.map (·.slot.toNat) = List.range' entry.firstSlot.toNat entry.slotCount.toNat ∧
      (∀ f ∈ frames, f.WellFormed r.manifest) ∧ updateTotal frames = entry.updateCount.toNat := by
  obtain ⟨⟨header,payload⟩,hread,h⟩ := bind_ok h
  have hheader : header.firstOrdinal = entry.firstSlot ∧ header.itemCount = entry.slotCount := by
    obtain ⟨raw,-,hread⟩ := bind_ok hread
    split at hread
    · cases hread
    · rename_i header' framed _
      dsimp only at hread
      split at hread
      · cases hread
      · rename_i hgood
        obtain ⟨payload',-,hread⟩ := bind_ok hread
        cases hread
        rw [not_or,not_or,not_not,not_not] at hgood
        exact ⟨hgood.1,hgood.2.1⟩
  dsimp only at h
  cases hrun : Get.collect header.itemCount.toNat (readFrame env r.manifest header.firstOrdinal)
      (0,0) ⟨newDecoderContext,payload⟩ with
  | error e next =>
    rw [hrun] at h
    cases h
  | ok c next =>
    obtain ⟨collected,count,total⟩ := c
    rw [hrun] at h
    dsimp only at h
    split at h
    · cases h
    · rename_i hgood
      cases h
      rw [not_or,not_not] at hgood
      have hsmall : 0 + header.itemCount.toNat ≤ 2 ^ 64 := by
        have := header.itemCount.toNat_lt
        omega
      obtain ⟨hslots,hformed,htotal⟩ := collect_frames hsmall hrun
      rw [hheader.1,hheader.2] at hslots
      refine ⟨hslots,hformed,?_⟩
      rw [← hgood.1,htotal]
      simp

def entryFrames (env : GgjetEnv) (r : GgjetReader) (entry : GgjetBucketIndexEntry) :
    List SlotFrame :=
  (r.bucketFrames env entry).toOption.getD []

def frames (env : GgjetEnv) (r : GgjetReader) : List SlotFrame :=
  r.index.flatMap (r.entryFrames env)

/-- No bucket is damaged. -/
def InOrder (env : GgjetEnv) (r : GgjetReader) (entries : List GgjetBucketIndexEntry) : Prop :=
  ∀ entry ∈ entries, r.bucketFrames env entry = .ok (r.entryFrames env entry)

theorem bucketFrames_entryFrames {entry : GgjetBucketIndexEntry} {frames : List SlotFrame}
    (h : r.bucketFrames env entry = .ok frames) :
    r.bucketFrames env entry = .ok (r.entryFrames env entry) := by
  rw [entryFrames,h]
  rfl

theorem slots_of_tiled {start stop : Nat}
    (htiled : Tiled start stop entries) (h : InOrder env r entries) :
    (entries.flatMap (r.entryFrames env)).map (·.slot.toNat) =
      List.range' start (stop - start) := by
  induction entries generalizing start with
  | nil =>
    have heq : start = stop := htiled
    simp [heq]
  | cons entry rest ih =>
    obtain ⟨hfirst,-,hrest⟩ := htiled
    have hslots := ih hrest fun e he => h e (List.mem_cons_of_mem _ he)
    have hentry := (bucketFrames_spec (h entry List.mem_cons_self)).1
    have hle := hrest.le
    rw [List.flatMap_cons,List.map_append,hentry,hslots,hfirst,List.range'_append_1]
    congr 1
    omega

theorem slots_frames (h : InOrder env r r.index) :
    (r.frames env).map (·.slot.toNat) =
      List.range' r.header.updateStartSlot.toNat r.header.updateSlotCount.toNat := by
  have hslots := slots_of_tiled r.tiled h
  rwa [Nat.add_sub_cancel_left] at hslots

end GgjetReader

theorem SlotFrame.within_iff {f : SlotFrame} :
    f.within start stop = true ↔ start.toNat ≤ f.slot.toNat ∧ f.slot.toNat < stop.toNat := by
  simp [SlotFrame.within,UInt64.le_iff_toNat_le,UInt64.lt_iff_toNat_lt]

theorem window_none {frames : List SlotFrame}
    (h : ∀ f ∈ frames, f.slot.toNat < start.toNat ∨ stop.toNat ≤ f.slot.toNat) :
    windowEvents start stop frames = [] ∧ windowCount start stop frames = 0 := by
  have hout : ∀ f ∈ frames, ¬f.within start stop = true := by
    intro f hf
    rw [SlotFrame.within_iff]
    have := h f hf
    omega
  exact ⟨by rw [windowEvents,List.filter_eq_nil_iff.mpr hout,List.flatMap_nil],
    List.countP_eq_zero.mpr hout⟩

theorem windowEvents_append (start stop : UInt64) (xs ys : List SlotFrame) :
    windowEvents start stop (xs ++ ys) = windowEvents start stop xs ++
      windowEvents start stop ys := by
  simp [windowEvents]

theorem windowCount_append (start stop : UInt64) (xs ys : List SlotFrame) :
    windowCount start stop (xs ++ ys) = windowCount start stop xs + windowCount start stop ys := by
  simp [windowCount]

namespace GgjetReader

variable {env : GgjetEnv} {r : GgjetReader}

theorem visitBuckets_of_inOrder {first last : Nat}
    (htiled : Tiled first last entries) (h : InOrder env r entries) (start stop visited : UInt64)
    (log : List UpdateEvent) :
    r.visitBuckets env start stop entries visited log =
      .ok (visited + UInt64.ofNat (windowCount start stop (entries.flatMap (r.entryFrames env))))
        (log ++ windowEvents start stop (entries.flatMap (r.entryFrames env))) := by
  induction entries generalizing first visited log with
  | nil =>
    change (EStateM.Result.ok visited log : EStateM.Result GgjetFailure _ _) = _
    simp [windowCount,windowEvents]
  | cons entry rest ih =>
    have hslots := slots_of_tiled htiled h
    obtain ⟨hfirst,-,hrest⟩ := htiled
    rw [visitBuckets]
    split
    · -- the window ends before this bucket, so no later frame lies in it
      rename_i hstop
      have hbehind : ∀ f ∈ (entry :: rest).flatMap (r.entryFrames env),
          f.slot.toNat < start.toNat ∨ stop.toNat ≤ f.slot.toNat := by
        intro f hf
        have hmem : f.slot.toNat ∈ List.range' first (last - first) := by
          rw [← hslots]
          exact List.mem_map_of_mem hf
        have := (List.mem_range'_1.mp hmem).1
        have := UInt64.le_iff_toNat_le.mp hstop
        omega
      rw [(window_none hbehind).1,(window_none hbehind).2]
      change (EStateM.Result.ok visited log : EStateM.Result GgjetFailure _ _) = _
      simp
    · have hentry := visitBucket_of_frames (h entry List.mem_cons_self) start stop visited log
      change EStateM.bind _ _ log = _
      simp only [EStateM.bind,hentry]
      rw [ih hrest fun e he => h e (List.mem_cons_of_mem _ he)]
      rw [List.flatMap_cons,windowEvents_append,windowCount_append,UInt64.ofNat_add,
        UInt64.add_assoc,List.append_assoc]

theorem window_dropWhile {first last : Nat}
    (htiled : Tiled first last entries) (hlast : last < 2 ^ 64) (h : InOrder env r entries)
    (start stop : UInt64) :
    ∃ first' rest, entries.dropWhile (fun e => saturatingEnd e ≤ start.toNat) = rest ∧
      Tiled first' last rest ∧ InOrder env r rest ∧
      windowEvents start stop (entries.flatMap (r.entryFrames env)) =
        windowEvents start stop (rest.flatMap (r.entryFrames env)) ∧
      windowCount start stop (entries.flatMap (r.entryFrames env)) =
        windowCount start stop (rest.flatMap (r.entryFrames env)) := by
  induction entries generalizing first with
  | nil => exact ⟨first,[],rfl,htiled,h,rfl,rfl⟩
  | cons entry rest ih =>
    have htail : InOrder env r rest := fun e he => h e (List.mem_cons_of_mem _ he)
    by_cases hpassed : saturatingEnd entry ≤ start.toNat
    · obtain ⟨hfirst,-,hrest⟩ := htiled
      obtain ⟨first',rest',hdrop,htiled',hin',hevents,hcount⟩ := ih hrest htail
      have hend : saturatingEnd entry = entry.firstSlot.toNat + entry.slotCount.toNat := by
        have := hrest.le
        unfold saturatingEnd
        omega
      have hbefore : ∀ f ∈ r.entryFrames env entry,
          f.slot.toNat < start.toNat ∨ stop.toNat ≤ f.slot.toNat := by
        intro f hf
        have hmem : f.slot.toNat ∈
            List.range' entry.firstSlot.toNat entry.slotCount.toNat := by
          rw [← (bucketFrames_spec (h entry List.mem_cons_self)).1]
          exact List.mem_map_of_mem hf
        have := (List.mem_range'_1.mp hmem).2
        omega
      refine ⟨first',rest',?_,htiled',hin',?_,?_⟩
      · rw [List.dropWhile_cons_of_pos (by simpa using hpassed),hdrop]
      · rw [List.flatMap_cons,windowEvents_append,(window_none hbefore).1,List.nil_append,hevents]
      · rw [List.flatMap_cons,windowCount_append,(window_none hbefore).2,Nat.zero_add,hcount]
    · refine ⟨first,entry :: rest,?_,htiled,h,rfl,rfl⟩
      rw [List.dropWhile_cons_of_neg (by simpa using hpassed)]

theorem visitSlots_of_inOrder (h : InOrder env r r.index) {maxSlots : UInt64}
    (hsum : start.toNat + maxSlots.toNat < 2 ^ 64) (log : List UpdateEvent) :
    r.visitSlots env start maxSlots log =
      .ok (UInt64.ofNat (windowCount start (start + maxSlots) (r.frames env)))
        (log ++ windowEvents start (start + maxSlots) (r.frames env)) := by
  have hstop : (start + maxSlots).toNat = start.toNat + maxSlots.toNat := by
    rw [UInt64.toNat_add,Nat.mod_eq_of_lt hsum]
  unfold visitSlots
  split
  · rename_i hnothing
    have hnone : ∀ f ∈ r.frames env,
        f.slot.toNat < start.toNat ∨ (start + maxSlots).toNat ≤ f.slot.toNat := by
      intro f hf
      rcases hnothing with hzero | hempty
      · rw [hstop,hzero]
        simpa using Nat.lt_or_ge f.slot.toNat start.toNat
      · simp [frames,hempty] at hf
    rw [(window_none hnone).1,(window_none hnone).2,List.append_nil]
    rfl
  · obtain ⟨first,rest,hdrop,htiled,hin,hevents,hcount⟩ :=
      window_dropWhile r.tiled r.bounded h start (start + maxSlots)
    have hadd : checkedAdd start maxSlots = .ok (start + maxSlots) := by
      rw [checkedAdd,if_pos hsum]
    rw [hadd,hdrop,frames,hevents,hcount]
    change r.visitBuckets env start (start + maxSlots) rest 0 log = _
    rw [visitBuckets_of_inOrder htiled hin,UInt64.zero_add]

theorem inOrder_of_visitBuckets {visited n : UInt64}
    {log log' : List UpdateEvent} (hahead : ∀ e ∈ entries, e.firstSlot < stop)
    (h : r.visitBuckets env start stop entries visited log = .ok n log') :
    InOrder env r entries := by
  induction entries generalizing visited log with
  | nil => exact fun e he => nomatch he
  | cons entry rest ih =>
    rw [visitBuckets,if_neg (UInt64.not_le.mpr (hahead entry List.mem_cons_self))] at h
    change EStateM.bind _ _ log = _ at h
    unfold EStateM.bind at h
    cases hvisit : r.visitBucket env start stop entry visited log with
    | error e middle =>
      rw [hvisit] at h
      cases h
    | ok seen middle =>
      rw [hvisit] at h
      obtain ⟨frames,hframes⟩ := bucketFrames_of_visitBucket hvisit
      have hrest := ih (fun e he => hahead e (List.mem_cons_of_mem _ he)) h
      intro e he
      rcases List.mem_cons.mp he with rfl | he
      · exact bucketFrames_entryFrames hframes
      · exact hrest e he

theorem tiled_bounds {first last : Nat} (h : Tiled first last entries) :
    ∀ e ∈ entries, first ≤ e.firstSlot.toNat ∧ e.firstSlot.toNat + e.slotCount.toNat ≤ last ∧
      0 < e.slotCount.toNat := by
  induction entries generalizing first with
  | nil => exact fun e he => nomatch he
  | cons entry rest ih =>
    obtain ⟨hfirst,hpos,hrest⟩ := h
    have hle := hrest.le
    intro e he
    rcases List.mem_cons.mp he with rfl | he
    · omega
    · have := ih hrest e he
      omega

theorem inOrder_of_visitSlots {n : UInt64} {log : List UpdateEvent}
    (h : r.visitSlots env r.header.updateStartSlot r.header.updateSlotCount [] = .ok n log) :
    InOrder env r r.index := by
  unfold visitSlots at h
  split at h
  · rename_i hnothing
    rcases hnothing with hzero | hempty
    · intro e he
      have := tiled_bounds r.tiled e he
      rw [hzero,UInt64.toNat_zero] at this
      omega
    · rw [hempty]
      exact fun e he => nomatch he
  · have hadd : checkedAdd r.header.updateStartSlot r.header.updateSlotCount =
        .ok (r.header.updateStartSlot + r.header.updateSlotCount) := by
      rw [checkedAdd,if_pos r.bounded]
    have hstop : (r.header.updateStartSlot + r.header.updateSlotCount).toNat =
        r.header.updateStartSlot.toNat + r.header.updateSlotCount.toNat := by
      rw [UInt64.toNat_add,Nat.mod_eq_of_lt r.bounded]
    have hbounds := tiled_bounds r.tiled
    have hdrop : r.index.dropWhile
        (fun e => saturatingEnd e ≤ r.header.updateStartSlot.toNat) = r.index := by
      cases hindex : r.index with
      | nil => rfl
      | cons entry rest =>
        have := hbounds entry (by rw [hindex]; exact List.mem_cons_self)
        have := r.bounded
        have hnot : ¬saturatingEnd entry ≤ r.header.updateStartSlot.toNat := by
          unfold saturatingEnd
          omega
        exact List.dropWhile_cons_of_neg (by simpa using hnot)
    rw [hadd,hdrop] at h
    refine inOrder_of_visitBuckets (fun e he => ?_) h
    have := hbounds e he
    rw [UInt64.lt_iff_toNat_lt,hstop]
    omega

def visitWindows (env : GgjetEnv) (r : GgjetReader) (start : UInt64) :
    List UInt64 → Visit UpdateEvent UInt64
  | [] => return 0
  | size :: rest => do
    let seen ← r.visitSlots env start size
    let others ← visitWindows env r (start + size) rest
    return seen + others

end GgjetReader

theorem window_split {frames : List SlotFrame} {a b c : UInt64}
    (hsorted : (frames.map (·.slot.toNat)).Pairwise (· < ·)) (hab : a.toNat ≤ b.toNat)
    (hbc : b.toNat ≤ c.toNat) :
    windowEvents a c frames = windowEvents a b frames ++ windowEvents b c frames ∧
      windowCount a c frames = windowCount a b frames + windowCount b c frames := by
  induction frames with
  | nil => exact ⟨rfl,rfl⟩
  | cons f rest ih =>
    rw [List.map_cons,List.pairwise_cons] at hsorted
    obtain ⟨hevents,hcount⟩ := ih hsorted.2
    by_cases hfirst : f.slot.toNat < b.toNat
    · have hsecond : ¬f.within b c = true := by
        rw [SlotFrame.within_iff]
        omega
      have hsame : f.within a c = f.within a b := by
        rw [Bool.eq_iff_iff,SlotFrame.within_iff,SlotFrame.within_iff]
        omega
      constructor
      · simp only [windowEvents] at hevents ⊢
        by_cases hin : f.within a b = true <;> simp [hsame,hin,hsecond,hevents]
      · simp only [windowCount] at hcount ⊢
        simp only [List.countP_cons,hsame,hsecond,hcount,Bool.false_eq_true,if_false]
        omega
    · -- from here on every slot lies behind the first window
      have hbehind : ∀ g ∈ f :: rest, b.toNat ≤ g.slot.toNat := by
        intro g hg
        rcases List.mem_cons.mp hg with rfl | hg
        · omega
        · have := hsorted.1 g.slot.toNat (List.mem_map_of_mem hg)
          omega
      have hnone : windowEvents a b (f :: rest) = [] ∧ windowCount a b (f :: rest) = 0 :=
        window_none fun g hg => .inr (hbehind g hg)
      have hsame : ∀ g ∈ f :: rest, g.within a c = g.within b c := by
        intro g hg
        have := hbehind g hg
        rw [Bool.eq_iff_iff,SlotFrame.within_iff,SlotFrame.within_iff]
        omega
      constructor
      · rw [hnone.1,List.nil_append,windowEvents,windowEvents,List.filter_congr hsame]
      · rw [hnone.2,Nat.zero_add,windowCount,windowCount]
        exact List.countP_congr fun g hg => by rw [hsame g hg]

namespace GgjetReader

variable {env : GgjetEnv} {r : GgjetReader}

theorem sorted_frames (h : InOrder env r r.index) :
    ((r.frames env).map (·.slot.toNat)).Pairwise (· < ·) := by
  rw [slots_frames h]
  exact List.pairwise_lt_range'

theorem visitWindows_of_inOrder (h : InOrder env r r.index)
    {sizes : List UInt64} (hstop : start.toNat + (sizes.map (·.toNat)).sum = stop.toNat)
    (log : List UpdateEvent) :
    r.visitWindows env start sizes log =
      .ok (UInt64.ofNat (windowCount start stop (r.frames env)))
        (log ++ windowEvents start stop (r.frames env)) := by
  induction sizes generalizing start log with
  | nil =>
    have heq : start = stop := UInt64.toNat_inj.mp (by simpa using hstop)
    have hnone : ∀ f ∈ r.frames env, f.slot.toNat < start.toNat ∨ stop.toNat ≤ f.slot.toNat := by
      intro f _
      rw [heq]
      exact Nat.lt_or_ge f.slot.toNat stop.toNat
    rw [(window_none hnone).1,(window_none hnone).2,List.append_nil]
    rfl
  | cons size rest ih =>
    rw [List.map_cons,List.sum_cons] at hstop
    have hsum : start.toNat + size.toNat < 2 ^ 64 := by
      have := stop.toNat_lt
      omega
    have hnext : (start + size).toNat = start.toNat + size.toNat := by
      rw [UInt64.toNat_add,Nat.mod_eq_of_lt hsum]
    obtain ⟨hevents,hcount⟩ := window_split (sorted_frames h)
      (show start.toNat ≤ (start + size).toNat by omega)
      (show (start + size).toNat ≤ stop.toNat by omega)
    have hfirst := visitSlots_of_inOrder h hsum log
    have hreach : (start + size).toNat + (rest.map (·.toNat)).sum = stop.toNat := by omega
    have hrest := ih hreach (log ++ windowEvents start (start + size) (r.frames env))
    change EStateM.bind _ _ log = _
    simp only [EStateM.bind,hfirst]
    change EStateM.bind _ _ _ = _
    simp only [EStateM.bind,hrest]
    rw [hevents,hcount,UInt64.ofNat_add,List.append_assoc]
    rfl

theorem frames_wellFormed (h : InOrder env r r.index) :
    ∀ f ∈ r.frames env, f.WellFormed r.manifest := by
  intro f hf
  obtain ⟨entry,hentry,hf⟩ := List.mem_flatMap.mp hf
  exact (bucketFrames_spec (h entry hentry)).2.1 f hf

theorem length_events (frames : List SlotFrame) :
    (frames.flatMap SlotFrame.events).length = updateTotal frames := by
  simp [List.length_flatMap,SlotFrame.events,updateTotal]

theorem updateTotal_frames (h : InOrder env r r.index) :
    updateTotal (r.frames env) = (r.index.map (·.updateCount.toNat)).sum := by
  have hall : ∀ entries, InOrder env r entries →
      updateTotal (entries.flatMap (r.entryFrames env)) =
        (entries.map (·.updateCount.toNat)).sum := by
    intro entries hentries
    induction entries with
    | nil => rfl
    | cons entry rest ih =>
      rw [List.flatMap_cons,updateTotal_append,
        (bucketFrames_spec (hentries _ List.mem_cons_self)).2.2,
        ih fun e he => hentries e (List.mem_cons_of_mem _ he),List.map_cons,List.sum_cons]
  exact hall r.index h

theorem window_whole (h : InOrder env r r.index)
    (hstart : start.toNat ≤ r.header.updateStartSlot.toNat)
    (hstop : r.header.updateStartSlot.toNat + r.header.updateSlotCount.toNat ≤ stop.toNat) :
    windowEvents start stop (r.frames env) = (r.frames env).flatMap SlotFrame.events ∧
      windowCount start stop (r.frames env) = r.header.updateSlotCount.toNat := by
  have hall : ∀ f ∈ r.frames env, f.within start stop = true := by
    intro f hf
    have hmem : f.slot.toNat ∈
        List.range' r.header.updateStartSlot.toNat r.header.updateSlotCount.toNat := by
      rw [← slots_frames h]
      exact List.mem_map_of_mem hf
    rw [List.mem_range'_1] at hmem
    rw [SlotFrame.within_iff]
    omega
  have hlen : (r.frames env).length = r.header.updateSlotCount.toNat := by
    have := congrArg List.length (slots_frames h)
    simpa using this
  exact ⟨by rw [windowEvents,List.filter_eq_self.mpr hall],
    by rw [windowCount,List.countP_eq_length.mpr hall,hlen]⟩

end GgjetReader

theorem pairwise_events {manifest : AccountManifest} {frames : List SlotFrame}
    (hsorted : (frames.map (·.slot.toNat)).Pairwise (· < ·))
    (hformed : ∀ f ∈ frames, f.WellFormed manifest) :
    (frames.flatMap SlotFrame.events).Pairwise fun x y =>
      x.1 ≤ y.1 ∧ (x.1 = y.1 → x.2.writeVersion < y.2.writeVersion) := by
  induction frames with
  | nil => exact List.Pairwise.nil
  | cons f rest ih =>
    rw [List.map_cons,List.pairwise_cons] at hsorted
    rw [List.flatMap_cons,List.pairwise_append]
    refine ⟨?_,ih hsorted.2 fun g hg => hformed g (List.mem_cons_of_mem _ hg),?_⟩
    · rw [SlotFrame.events,List.pairwise_map]
      have hversions := (hformed f List.mem_cons_self).increasing
      rw [List.pairwise_map] at hversions
      exact hversions.imp fun hlt => ⟨UInt64.le_refl _,fun _ => hlt⟩
    · intro x hx y hy
      obtain ⟨u,-,rfl⟩ := List.mem_map.mp hx
      obtain ⟨g,hg,hy⟩ := List.mem_flatMap.mp hy
      obtain ⟨v,-,rfl⟩ := List.mem_map.mp hy
      have hlt := hsorted.1 g.slot.toNat (List.mem_map_of_mem hg)
      refine ⟨UInt64.le_iff_toNat_le.mpr (Nat.le_of_lt hlt),fun heq => ?_⟩
      dsimp only at heq
      rw [heq] at hlt
      omega

theorem readFront_ensures (env : GgjetEnv) :
    Ensures (fun _ => True) (readFront env) fun front _ =>
      front.2.digest env = front.1.accountSetSha256 := by
  have hmanifest (header : GgjetHeader) : Ensures (fun _ => True) (readManifest env header)
      fun manifest _ => manifest.digest env = header.accountSetSha256 := by
    refine Ensures.top.bind fun blob => Ensures.top.bind fun raw => ?_
    refine Ensures.ite (Ensures.throw _) (Ensures.ite (Ensures.throw _) ?_)
    refine Ensures.top.bind fun manifest => ?_
    by_cases hdigest : manifest.digest env ≠ header.accountSetSha256
    · rw [if_pos hdigest]
      exact Ensures.throw _
    · rw [if_neg hdigest]
      exact Ensures.pure fun _ _ => not_not.mp hdigest
  refine Ensures.top.bind fun start => Ensures.ite (Ensures.throw _) ?_
  refine Ensures.top.bind fun header => Ensures.ite (Ensures.throw _) ?_
  intro t bytes front next _ hrun
  have hrest := (hmanifest header).bind (R := fun front _ =>
    front.2.digest env = front.1.accountSetSha256) (k := fun manifest => pure (header,manifest))
    fun manifest => Ensures.pure fun _ hdigest => hdigest
  exact hrest t bytes front next trivial hrun

theorem digest_of_open {env : GgjetEnv} {source : Bytes} {r : GgjetReader}
    (h : GgjetReader.open env source = .ok r) :
    r.manifest.digest env = r.header.accountSetSha256 := by
  unfold GgjetReader.open at h
  cases hfront : readFront env ⟨(),source⟩ with
  | error e next =>
    rw [hfront] at h
    cases h
  | ok front next =>
    obtain ⟨header,manifest⟩ := front
    have hdigest := readFront_ensures env () source _ next trivial hfront
    rw [hfront] at h
    obtain ⟨footer,-,h⟩ := bind_ok h
    obtain ⟨indexBytes,-,h⟩ := bind_ok h
    obtain ⟨index,-,h⟩ := bind_ok h
    unfold GgjetReader.ofIndex at h
    split at h
    · cases h
    · split at h
      · cases h
      · split at h
        · cases h
          exact hdigest
        · cases h

/-- Whatever the bytes, a file that opens and can be visited in full is consistent: the declared
slots in order, known accounts, increasing write versions, as many updates as the index says, and
the same updates through any adjacent windows. -/
theorem accepted_file_sound (env : GgjetEnv) (source : Bytes) (r : GgjetReader) (n : UInt64)
    (log : List UpdateEvent) (hopen : GgjetReader.open env source = .ok r)
    (hvisit : r.visitSlots env r.header.updateStartSlot r.header.updateSlotCount [] = .ok n log) :
    n = r.header.updateSlotCount ∧
    log.Pairwise (fun x y => x.1 ≤ y.1) ∧
    (∀ event ∈ log, r.header.updateStartSlot.toNat ≤ event.1.toNat ∧
      event.1.toNat < r.header.updateStartSlot.toNat + r.header.updateSlotCount.toNat) ∧
    (∀ event ∈ log, event.2.pubkey ∈ r.manifest.accounts) ∧
    r.manifest.accounts.Nodup ∧ r.manifest.digest env = r.header.accountSetSha256 ∧
    log.Pairwise (fun x y => x.1 = y.1 → x.2.writeVersion < y.2.writeVersion) ∧
    log.length = (r.index.map (·.updateCount.toNat)).sum ∧
    ∀ (start stop : UInt64) (sizes : List UInt64),
      start.toNat + (sizes.map (·.toNat)).sum = stop.toNat →
      start.toNat ≤ r.header.updateStartSlot.toNat →
      r.header.updateStartSlot.toNat + r.header.updateSlotCount.toNat ≤ stop.toNat →
      r.visitWindows env start sizes [] = .ok r.header.updateSlotCount log := by
  have hgood := GgjetReader.inOrder_of_visitSlots hvisit
  have hstop : (r.header.updateStartSlot + r.header.updateSlotCount).toNat =
      r.header.updateStartSlot.toNat + r.header.updateSlotCount.toNat := by
    rw [UInt64.toNat_add,Nat.mod_eq_of_lt r.bounded]
  obtain ⟨hevents,hcount⟩ := GgjetReader.window_whole hgood (Nat.le_refl _)
      (Nat.le_of_eq hstop.symm)
  have hrun := GgjetReader.visitSlots_of_inOrder hgood r.bounded []
  rw [hvisit,hevents,hcount,List.nil_append,UInt64.ofNat_toNat] at hrun
  obtain ⟨rfl,rfl⟩ := EStateM.Result.ok.inj hrun
  have hpairs := pairwise_events (GgjetReader.sorted_frames hgood)
    (GgjetReader.frames_wellFormed hgood)
  have hmem : ∀ event ∈ (r.frames env).flatMap SlotFrame.events,
      ∃ f ∈ r.frames env, event.1 = f.slot ∧ event.2 ∈ f.updates := by
    intro event hevent
    obtain ⟨f,hf,hevent⟩ := List.mem_flatMap.mp hevent
    obtain ⟨u,hu,rfl⟩ := List.mem_map.mp hevent
    exact ⟨f,hf,rfl,hu⟩
  refine ⟨rfl,hpairs.imp And.left,?_,?_,r.manifest.nodup,digest_of_open hopen,
    hpairs.imp And.right,?_,?_⟩
  · intro event hevent
    obtain ⟨f,hf,hslot,-⟩ := hmem event hevent
    have hin : f.slot.toNat ∈
        List.range' r.header.updateStartSlot.toNat r.header.updateSlotCount.toNat := by
      rw [← GgjetReader.slots_frames hgood]
      exact List.mem_map_of_mem hf
    rw [hslot]
    exact List.mem_range'_1.mp hin
  · intro event hevent
    obtain ⟨f,hf,-,hu⟩ := hmem event hevent
    exact (GgjetReader.frames_wellFormed hgood f hf).known event.2 hu
  · rw [GgjetReader.length_events,GgjetReader.updateTotal_frames hgood]
  · intro start stop sizes hsum hstart hcover
    obtain ⟨hall,hseen⟩ := GgjetReader.window_whole hgood hstart hcover
    rw [GgjetReader.visitWindows_of_inOrder hgood hsum,hall,hseen,UInt64.ofNat_toNat,
      List.nil_append]

def plainGgjetEnv : GgjetEnv := ⟨plainEnv,fun _ => Hash.default⟩

def flatAddress (byte : UInt8) : Address := ⟨List.replicate 32 byte,by simp⟩

def smallManifest : AccountManifest := ⟨[flatAddress 1,flatAddress 2],by decide,by decide⟩

def smallCalls : List GgjetWriter.Call :=
  [.checkpoint none,.checkpoint (some ⟨4,0,flatAddress 9,true,7,[1,2,3]⟩),.finishCheckpoint,
    .slot 5 [⟨flatAddress 2,10,flatAddress 9,false,0,4,[1,2]⟩,
      ⟨flatAddress 1,11,flatAddress 9,false,0,3,[]⟩],
    .slot 6 [],.slot 7 [⟨flatAddress 2,12,flatAddress 8,false,0,5,[1,2,3]⟩]]

def smallFile : Except GgjetFailure (Bytes × GgjetStats) :=
  GgjetWriter.writeFile plainGgjetEnv 0 smallManifest 4 5 3 ⟨2,1,1000,.zstd,3⟩ smallCalls

theorem smallFile_sound : ∃ source r log,
    GgjetReader.open plainGgjetEnv source = .ok r ∧
      r.visitSlots plainGgjetEnv r.header.updateStartSlot r.header.updateSlotCount [] =
        .ok r.header.updateSlotCount log ∧
      log.Pairwise (fun x y => x.1 = y.1 → x.2.writeVersion < y.2.writeVersion) := by
  have hok : ((do
      let written ← smallFile
      let r ← GgjetReader.open plainGgjetEnv written.1
      match r.visitSlots plainGgjetEnv r.header.updateStartSlot r.header.updateSlotCount [] with
      | .ok n log => .ok (n,log)
      | .error e _ => .error e : Except GgjetFailure (UInt64 × List UpdateEvent))).isOk = true := by
    decide +kernel
  cases hrun : (do
      let written ← smallFile
      let r ← GgjetReader.open plainGgjetEnv written.1
      match r.visitSlots plainGgjetEnv r.header.updateStartSlot r.header.updateSlotCount [] with
      | .ok n log => .ok (n,log)
      | .error e _ => .error e : Except GgjetFailure (UInt64 × List UpdateEvent)) with
  | error e =>
    rw [hrun] at hok
    cases hok
  | ok result =>
    obtain ⟨written,-,hrest⟩ := bind_ok hrun
    obtain ⟨r,hopen,hvisit⟩ := bind_ok hrest
    split at hvisit
    · rename_i n log hlog
      obtain ⟨rfl,-,-,-,-,-,hversions,-⟩ :=
        accepted_file_sound plainGgjetEnv written.1 r n log hopen hlog
      exact ⟨written.1,r,log,hopen,hlog,hversions⟩
    · cases hvisit

end Jetstreamer.Ggjet
