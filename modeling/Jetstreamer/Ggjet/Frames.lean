import Jetstreamer.Ggjet.Reader
set_option autoImplicit false

namespace Jetstreamer.Ggjet
open Lib Lencode Horizon Archive

structure SlotFrame where
  slot : UInt64
  updates : List AccountUpdate
  deriving DecidableEq

def SlotFrame.events (f : SlotFrame) : List UpdateEvent := f.updates.map (f.slot,·)

def SlotFrame.within (start stop : UInt64) (f : SlotFrame) : Bool := start ≤ f.slot && f.slot < stop

def windowEvents (start stop : UInt64) (frames : List SlotFrame) : List UpdateEvent :=
  (frames.filter (·.within start stop)).flatMap SlotFrame.events

def windowCount (start stop : UInt64) (frames : List SlotFrame) : Nat :=
  frames.countP (·.within start stop)

section Silent

variable (env : GgjetEnv) (manifest : AccountManifest)

/-- A round of the loop over updates, without a visitor. -/
def nextUpdate (slot : UInt64) (previous : Option UInt64) :
    Get GgjetFailure DecoderContext (AccountUpdate × Option UInt64) := do
  let u ← readUpdate env manifest slot previous
  return (u,some u.writeVersion)

/-- A frame, without a visitor. The state is the number of frames and of updates so far. -/
def readFrame (first : UInt64) (st : Nat × UInt64) :
    Get GgjetFailure DecoderContext (SlotFrame × Nat × UInt64) := do
  let (slot,count,total) ← readFrameHeader first st.1 st.2
  let updates ← Get.collect count.toNat (nextUpdate env manifest slot) none
  return (⟨slot,updates.1⟩,st.1 + 1,total)

def GgjetReader.bucketFrames (r : GgjetReader) (entry : GgjetBucketIndexEntry) :
    Except GgjetFailure (List SlotFrame) := do
  let (header,payload) ← r.readBucket env entry
  match Get.collect header.itemCount.toNat (readFrame env r.manifest header.firstOrdinal) (0,0)
      ⟨newDecoderContext,payload⟩ with
  | .error e _ => .error e
  | .ok (frames,_,total) next =>
    if total ≠ entry.updateCount ∨ next.bytes ≠ [] then .error (.error (.checksum entry.firstSlot))
    else .ok frames

end Silent

section Telling

variable (env : GgjetEnv) (manifest : AccountManifest)

theorem visitUpdate_tells (emit : Bool) (slot : UInt64) (previous : Option UInt64) :
    Tells (fun r => if emit then [(slot,r.1)] else []) (·.2)
      (visitUpdate env manifest emit slot previous) (nextUpdate env manifest slot previous) := by
  refine Tells.quiet fun u => ?_
  exact Tells.tell rfl rfl

theorem visitFrame_tells (start stop first visited : UInt64) (seen : List SlotFrame)
    (st : Nat × UInt64) :
    Tells (fun r => if r.1.within start stop then r.1.events else [])
      (fun r => ⟨r.2.1,r.2.2,visited + UInt64.ofNat (windowCount start stop (seen ++ [r.1]))⟩)
      (visitFrame env manifest start stop first
        ⟨st.1,st.2,visited + UInt64.ofNat (windowCount start stop seen)⟩)
      (readFrame env manifest first st) := by
  refine Tells.quiet fun ⟨slot,count,total⟩ => ?_
  have hloop : Tells _ _ (Get.loop count.toNat _ none) _ := Tells.loop
    (fun u => if (start ≤ slot && slot < stop) = true then [(slot,u)] else []) (fun _ b => b)
    (fun _ b => visitUpdate_tells env manifest (start ≤ slot && slot < stop) slot b) count.toNat
    [] none
  refine hloop.map ?_ ?_
  · intro b
    dsimp only [SlotFrame.within,SlotFrame.events]
    by_cases hemit : (start ≤ slot && slot < stop) = true
    · simp only [hemit,if_true,List.map_eq_flatMap]
    · simp [hemit]
  · intro b
    simp only [windowCount,List.countP_append,List.countP_singleton,SlotFrame.within]
    by_cases hemit : (start ≤ slot && slot < stop) = true
    · simp [hemit,UInt64.ofNat_add,UInt64.add_assoc]
    · simp [hemit]

end Telling

theorem windowEvents_eq_flatMap (start stop : UInt64) (frames : List SlotFrame) :
    frames.flatMap (fun f => if f.within start stop then f.events else []) =
      windowEvents start stop frames := by
  induction frames with
  | nil => rfl
  | cons f rest ih =>
    by_cases hin : f.within start stop = true
    · simp only [List.flatMap_cons,hin,if_true,ih,windowEvents,List.filter_cons_of_pos]
    · simp only [List.flatMap_cons,hin,ih,windowEvents]
      simp [hin]

namespace GgjetReader

variable (env : GgjetEnv) (r : GgjetReader)

theorem visitFrames_tells (start stop visited : UInt64) (header : BlobHeader) :
    Tells (fun c => windowEvents start stop c.1)
      (fun c => ⟨c.2.1,c.2.2,visited + UInt64.ofNat (windowCount start stop c.1)⟩)
      (Get.loop header.itemCount.toNat
        (visitFrame env r.manifest start stop header.firstOrdinal) ⟨0,0,visited⟩)
      (Get.collect header.itemCount.toNat (readFrame env r.manifest header.firstOrdinal)
        (0,0)) := by
  have hloop := Tells.loop (fun f => if f.within start stop then f.events else [])
    (fun seen b => (⟨b.1,b.2,visited + UInt64.ofNat (windowCount start stop seen)⟩ : VisitState))
    (fun seen b => visitFrame_tells env r.manifest start stop header.firstOrdinal visited seen b)
    header.itemCount.toNat [] (0,0)
  simpa [windowEvents_eq_flatMap,windowCount] using hloop

variable {env r}

theorem visitBucket_of_frames {entry : GgjetBucketIndexEntry} {frames : List SlotFrame}
    (h : r.bucketFrames env entry = .ok frames) (start stop visited : UInt64)
    (log : List UpdateEvent) :
    r.visitBucket env start stop entry visited log =
      .ok (visited + UInt64.ofNat (windowCount start stop frames))
        (log ++ windowEvents start stop frames) := by
  obtain ⟨⟨header,payload⟩,hread,h⟩ := bind_ok h
  have htells := visitFrames_tells env r start stop visited header
  unfold visitBucket
  rw [hread]
  dsimp only at h ⊢
  cases hrun : Get.collect header.itemCount.toNat (readFrame env r.manifest header.firstOrdinal)
      (0,0) ⟨newDecoderContext,payload⟩ with
  | error e next =>
    rw [hrun] at h
    cases h
  | ok c next =>
    obtain ⟨collected,count,total⟩ := c
    rw [hrun] at h
    dsimp only at h
    split at h
    · cases h
    · rename_i hgood
      cases h
      rw [htells.of_ok hrun log]
      dsimp only
      rw [if_neg hgood]

theorem bucketFrames_of_visitBucket {entry : GgjetBucketIndexEntry}
    {start stop visited seen : UInt64} {log log' : List UpdateEvent}
    (h : r.visitBucket env start stop entry visited log = .ok seen log') :
    ∃ frames, r.bucketFrames env entry = .ok frames := by
  unfold visitBucket at h
  cases hread : r.readBucket env entry with
  | error e =>
    rw [hread] at h
    cases h
  | ok bucket =>
    obtain ⟨header,payload⟩ := bucket
    rw [hread] at h
    dsimp only at h
    have htells := visitFrames_tells env r start stop visited header
    cases hrun : Get.collect header.itemCount.toNat (readFrame env r.manifest header.firstOrdinal)
        (0,0) ⟨newDecoderContext,payload⟩ with
    | error e next =>
      obtain ⟨told,hfail⟩ := htells.of_error hrun log
      rw [hfail] at h
      cases h
    | ok c next =>
      obtain ⟨frames,count,total⟩ := c
      rw [htells.of_ok hrun log] at h
      dsimp only at h
      by_cases hbad : total ≠ entry.updateCount ∨ next.bytes ≠ []
      · rw [if_pos hbad] at h
        cases h
      · refine ⟨frames,?_⟩
        unfold bucketFrames
        rw [hread,ok_bind]
        dsimp only
        rw [hrun]
        dsimp only
        rw [if_neg hbad]

end GgjetReader

end Jetstreamer.Ggjet
