import Jetstreamer.Archive.WrittenRuns
set_option autoImplicit false

namespace Jetstreamer.Archive
open Lib Lencode Horizon

theorem walkBack_spec (index : List BucketIndexEntry) (slot : UInt64) (i : Nat) :
    walkBack index slot i ≤ i ∧ ∀ entry, 0 < walkBack index slot i →
      index[walkBack index slot i]? = some entry → entry.firstSlot ≤ slot := by
  induction i with
  | zero => exact ⟨Nat.le_refl 0,fun _ h => absurd h (Nat.lt_irrefl 0)⟩
  | succ i ih =>
    rw [walkBack]
    by_cases hbehind : (index[i+1]?).any (slot < ·.firstSlot) = true
    · rw [if_pos hbehind]
      exact ⟨Nat.le_succ_of_le ih.1,ih.2⟩
    · rw [if_neg hbehind]
      refine ⟨Nat.le_refl _,fun entry _ hentry => ?_⟩
      rw [hentry,Option.any_some,decide_eq_true_eq] at hbehind
      exact UInt64.not_lt.mp hbehind

theorem walkBack_passed {index : List BucketIndexEntry} (slot : UInt64) {i t : Nat}
    {entry : BucketIndexEntry} (hlt : walkBack index slot i < t) (hle : t ≤ i)
    (hentry : index[t]? = some entry) : slot < entry.firstSlot := by
  induction i with
  | zero =>
    omega
  | succ i ih =>
    rw [walkBack] at hlt
    by_cases hbehind : (index[i+1]?).any (slot < ·.firstSlot) = true
    · rw [if_pos hbehind] at hlt
      rcases Nat.eq_or_lt_of_le hle with rfl | hle
      · rw [hentry,Option.any_some,decide_eq_true_eq] at hbehind
        exact hbehind
      · exact ih hlt (by omega)
    · rw [if_neg hbehind] at hlt
      omega

theorem bucketContaining_lt {r : ArchiveReader} (hslots : r.header.bucketSlots ≠ 0)
    (hindex : r.index ≠ []) (startSlot : UInt64) :
    ∃ target < r.index.length, bucketContaining r.header r.index startSlot = .ok target ∧
      ∀ entry, 0 < target → r.index[target]? = some entry → entry.firstSlot ≤ startSlot := by
  obtain ⟨hle,hfirst⟩ := walkBack_spec r.index startSlot
    (min ((startSlot.toNat - r.header.slotStart.toNat) / r.header.bucketSlots.toNat)
      (r.index.length - 1))
  have hpos := List.length_pos_iff.mpr hindex
  exact ⟨_,by omega,by rw [bucketContaining,if_neg hslots],hfirst⟩

/-- The frames a call on a fresh reader decodes, from the start of the bucket for the start slot up
to the end of the window. -/
def ArchiveReader.decoded (r : ArchiveReader) (call : ReadCall) (slots : List SlotCalls) :
    List SlotCalls :=
  match bucketContaining r.header r.index call.startSlot with
  | .error _ => []
  | .ok target =>
    match r.index[target]? with
    | none => []
    | some entry => scanned call.startSlot call.maxSlots (slots.filter (entry.firstSlot ≤ ·.slot))

/-- Up to the first that meets the condition, that one included. -/
def through {α : Type} (p : α → Bool) : List α → List α
  | [] => []
  | x :: rest => if p x then [x] else x :: through p rest

section Through

variable {α : Type} {p : α → Bool}

theorem through_eq (items : List α) : through p items =
    items.takeWhile (fun x => !p x) ++ (items.dropWhile fun x => !p x).take 1 := by
  induction items with
  | nil => rfl
  | cons x rest ih =>
    rw [through,List.takeWhile_cons,List.dropWhile_cons]
    cases p x with
    | true => rfl
    | false => exact congrArg (x :: ·) ih

theorem through_none {items : List α} (h : ∀ x ∈ items, p x = false) : through p items = items := by
  have hall : ∀ x ∈ items, (!p x) = true := fun x hx => by rw [h x hx,Bool.not_false]
  rw [through_eq,List.takeWhile_eq_self_iff.mpr hall,List.dropWhile_eq_nil_iff.mpr hall,
    List.take_nil,List.append_nil]

theorem mem_through {items : List α} {x : α} (h : x ∈ through p items) : x ∈ items := by
  rw [through_eq,List.mem_append] at h
  rcases h with h | h
  · exact (List.takeWhile_prefix _).subset h
  · exact (List.dropWhile_suffix _).subset (List.mem_of_mem_take h)

theorem through_split {items before after : List α} {x : α}
    (h : through p items = before ++ x :: after) :
    ∃ more, items = before ++ x :: more ∧ ∀ y ∈ before, p y = false := by
  induction items generalizing before with
  | nil => simp [through] at h
  | cons y rest ih =>
    rw [through] at h
    cases before with
    | nil =>
      refine ⟨rest,?_,by simp⟩
      split at h
      · rw [List.nil_append,(List.cons.inj h).1]
      · rw [List.nil_append,(List.cons.inj h).1]
    | cons z before =>
      split at h
      · cases (List.append_ne_nil_of_right_ne_nil before (List.cons_ne_nil x after)
          (List.cons.inj h).2.symm)
      · rename_i hnot
        obtain ⟨rfl,hrest⟩ := List.cons.inj h
        obtain ⟨more,rfl,hbefore⟩ := ih hrest
        refine ⟨more,rfl,fun w hw => ?_⟩
        rcases List.mem_cons.mp hw with rfl | hw
        · exact Bool.eq_false_iff.mpr hnot
        · exact hbefore w hw

end Through

theorem exists_first {α : Type} {P : α → Prop} {items : List α} (h : ¬∀ x ∈ items, P x) :
    ∃ before x after, items = before ++ x :: after ∧ (∀ y ∈ before, P y) ∧ ¬P x := by
  induction items with
  | nil => exact absurd (by simp) h
  | cons x rest ih =>
    by_cases hx : P x
    · have hrest : ¬∀ y ∈ rest, P y := fun hall => h (by simpa [hx] using hall)
      obtain ⟨before,y,after,rfl,hbefore,hy⟩ := ih hrest
      exact ⟨x :: before,y,after,rfl,by simpa [hx] using hbefore,hy⟩
    · exact ⟨[],x,rest,rfl,by simp,hx⟩

/-- A call that checks the chain ends at a block that breaks it. -/
def ReadCall.stops (call : ReadCall) (slots : List SlotCalls) (f : SlotCalls) : Bool :=
  call.verifyChain && f.breaks slots

/-- The frames a call has to do with: those it decodes, up to one it ends at. -/
def ArchiveReader.reached (r : ArchiveReader) (call : ReadCall) (slots : List SlotCalls) :
    List SlotCalls :=
  through (call.stops slots) (r.decoded call slots)

/-- What a call is to return, and to tell its visitor of. At a block that breaks the chain the
visitor is told of all but the block itself. -/
def ArchiveReader.intended (r : ArchiveReader) (call : ReadCall) (slots : List SlotCalls) :
    Except Failure Nat × List Event :=
  let whole := ((r.decoded call slots).takeWhile fun f => !call.stops slots f).filter
    (call.startSlot ≤ ·.slot)
  let told := whole.flatMap (SlotCalls.told call.accountUpdateData)
  match (r.decoded call slots).find? (call.stops slots) with
  | none => (.ok whole.length,told)
  | some f => (.error (.error (.pohMismatch f.slot)),told ++
      if call.startSlot ≤ f.slot then (f.told call.accountUpdateData).dropLast else [])

section Calls

variable {env : Env} {config : ArchiveWriterConfig} {buckets : List Bucket} {r : ArchiveReader}
  {call : ReadCall}

theorem Opened.slot_before (h : Opened env config buckets r) {k : Nat} (hk : k < buckets.length)
    {f : SlotCalls} (hf : f ∈ storedFrames (buckets.take k)) : f.slot < buckets[k].firstSlot := by
  have hincreasing := h.increasing
  obtain ⟨g,hg,hslot⟩ := Option.map_eq_some_iff.mp (h.served.held _ (List.getElem_mem hk)).first
  rw [storedFrames_take_drop buckets k,List.pairwise_map,List.pairwise_append] at hincreasing
  rw [← hslot]
  refine hincreasing.2.2 f hf g ?_
  rw [storedFrames_drop hk]
  exact List.mem_append_left _ (List.mem_of_mem_head? hg)

theorem Opened.slot_from (h : Opened env config buckets r) {k : Nat} (hk : k < buckets.length)
    {f : SlotCalls} (hf : f ∈ storedFrames (buckets.drop k)) : buckets[k].firstSlot ≤ f.slot := by
  have hincreasing := h.increasing
  obtain ⟨g,hg,hslot⟩ := Option.map_eq_some_iff.mp (h.served.held _ (List.getElem_mem hk)).first
  obtain ⟨others,hothers⟩ := List.head?_eq_some_iff.mp hg
  rw [storedFrames_take_drop buckets k,List.pairwise_map,List.pairwise_append] at hincreasing
  have hrest := hincreasing.2.1
  rw [storedFrames_drop hk,hothers] at hf hrest
  rw [← hslot]
  rcases List.mem_cons.mp hf with rfl | hf
  · exact UInt64.le_refl _
  · exact UInt64.le_of_lt ((List.pairwise_cons.mp hrest).1 f hf)

theorem Opened.filter_firstSlot (h : Opened env config buckets r) {k : Nat}
    (hk : k < buckets.length) : (storedFrames buckets).filter (buckets[k].firstSlot ≤ ·.slot) =
      storedFrames (buckets.drop k) := by
  have hlow : ∀ f ∈ storedFrames (buckets.take k),
      ¬decide (buckets[k].firstSlot ≤ f.slot) = true := by
    intro f hf
    rw [decide_eq_true_eq,UInt64.not_le]
    exact h.slot_before hk hf
  have hhigh : ∀ f ∈ storedFrames (buckets.drop k),
      decide (buckets[k].firstSlot ≤ f.slot) = true := fun f hf =>
    decide_eq_true (h.slot_from hk hf)
  rw [storedFrames_take_drop buckets k,List.filter_append,List.filter_eq_nil_iff.mpr hlow,
    List.filter_eq_self.mpr hhigh,List.nil_append]

theorem Opened.decoded (hz : env.zstd.Inverts) (h : Opened env config buckets r) {target : Nat}
    (hlt : target < buckets.length)
    (htarget : bucketContaining r.header r.index call.startSlot = .ok target) :
    r.decoded call (storedFrames buckets) =
      scanned call.startSlot call.maxSlots (storedFrames (buckets.drop target)) := by
  obtain ⟨⟨entry,hentry,hfirst⟩,-⟩ := h.served.load hz hlt
  simp only [ArchiveReader.decoded,htarget,hentry,hfirst]
  rw [h.filter_firstSlot hlt]

theorem decoded_idle (h : r.idle call) (slots : List SlotCalls) : r.decoded call slots = [] := by
  unfold ArchiveReader.decoded
  rcases h with hindex | hmax
  · rw [List.isEmpty_iff.mp hindex]
    split <;> rfl
  · rw [hmax]
    split
    · rfl
    · split <;> simp

theorem mem_scanned {startSlot : UInt64} {left : Nat} {frames : List SlotCalls} {f : SlotCalls}
    (h : f ∈ scanned startSlot left frames) : f ∈ frames := by
  induction frames generalizing left with
  | nil =>
    rw [scanned_nil] at h
    cases h
  | cons g rest ih =>
    cases left with
    | zero =>
      cases h
    | succ left =>
      rcases List.mem_cons.mp h with rfl | h
      · exact List.mem_cons_self
      · exact List.mem_cons_of_mem _ (ih h)

theorem mem_decoded {slots : List SlotCalls} {f : SlotCalls} (h : f ∈ r.decoded call slots) :
    f ∈ slots := by
  unfold ArchiveReader.decoded at h
  split at h
  · cases h
  · split at h
    · cases h
    · exact (List.mem_filter.mp (mem_scanned h)).1

/-- Of the frames a call decodes, those that do not lie before its start are its window. -/
theorem Opened.decoded_window (hz : env.zstd.Inverts) (h : Opened env config buckets r)
    (call : ReadCall) : (r.decoded call (storedFrames buckets)).filter (call.startSlot ≤ ·.slot) =
      window call.startSlot call.maxSlots (storedFrames buckets) := by
  by_cases hindex : r.index = []
  · have hbuckets : buckets = [] := by
      rw [← List.length_eq_zero_iff,← h.served.length_index,hindex,List.length_nil]
    rw [decoded_idle (.inl (by rw [hindex]; rfl)),hbuckets]
    simp [window,storedFrames]
  · obtain ⟨target,hlt,htarget,hstart⟩ := bucketContaining_lt h.bucketSlots hindex call.startSlot
    rw [h.served.length_index] at hlt
    rw [h.decoded hz hlt htarget,filter_scanned]
    refine congrArg (List.take call.maxSlots) ?_
    rcases Nat.eq_zero_or_pos target with rfl | hpos
    · rw [List.drop_zero]
    obtain ⟨⟨entry,hentry,hfirst⟩,-⟩ := h.served.load hz hlt
    have hle := hstart entry hpos hentry
    rw [← h.filter_firstSlot hlt,List.filter_filter]
    refine List.filter_congr fun f _ => ?_
    rw [hfirst] at hle
    by_cases hslot : call.startSlot ≤ f.slot
    · simp [UInt64.le_trans hle hslot]
    · simp [hslot]

theorem filter_all (frames : List SlotCalls) :
    frames.filter (fun f => (0 : UInt64) ≤ f.slot) = frames :=
  List.filter_eq_self.mpr fun _ _ => decide_eq_true UInt64.zero_le

theorem window_all {frames : List SlotCalls} {maxSlots : Nat} (h : frames.length ≤ maxSlots) :
    window 0 maxSlots frames = frames := by
  rw [window,filter_all,List.take_of_length_le h]

theorem Opened.length_frames (h : Opened env config buckets r) :
    (storedFrames buckets).length ≤ 2 ^ 64 - 1 := by
  have hsub : ((storedFrames buckets).map fun f => f.slot.toNat) ⊆ List.range (2 ^ 64 - 1) := by
    intro n hn
    obtain ⟨f,hf,rfl⟩ := List.mem_map.mp hn
    have := h.ended f hf
    exact List.mem_range.mpr (by omega)
  have hle := (List.subperm_of_subset (nodup_slots h.increasing) hsub).length_le
  rwa [List.length_map,List.length_range] at hle

theorem Opened.decoded_all (hz : env.zstd.Inverts) (h : Opened env config buckets r)
    (data verify : Bool) :
    r.decoded ⟨0,2 ^ 64 - 1,data,verify⟩ (storedFrames buckets) = storedFrames buckets := by
  have hwindow := h.decoded_window hz ⟨0,2 ^ 64 - 1,data,verify⟩
  rwa [filter_all,window_all h.length_frames] at hwindow

theorem reached_unchecked (hverify : call.verifyChain = false) (slots : List SlotCalls) :
    r.reached call slots = r.decoded call slots :=
  through_none fun f _ => by rw [ReadCall.stops,hverify,Bool.false_and]

theorem intended_of_none {slots : List SlotCalls}
    (h : ∀ f ∈ r.decoded call slots, call.stops slots f = false) : r.intended call slots =
      (.ok ((r.decoded call slots).filter (call.startSlot ≤ ·.slot)).length,
        ((r.decoded call slots).filter (call.startSlot ≤ ·.slot)).flatMap
          (SlotCalls.told call.accountUpdateData)) := by
  have hfind : (r.decoded call slots).find? (call.stops slots) = none :=
    List.find?_eq_none.mpr fun f hf => by simp [h f hf]
  have hwhole : (r.decoded call slots).takeWhile (fun f => !call.stops slots f) =
      r.decoded call slots :=
    List.takeWhile_eq_self_iff.mpr fun f hf => by rw [h f hf,Bool.not_false]
  simp [ArchiveReader.intended,hfind,hwhole]

theorem Opened.intended_unchecked (hz : env.zstd.Inverts) (h : Opened env config buckets r)
    (hverify : call.verifyChain = false) : r.intended call (storedFrames buckets) =
      (.ok (window call.startSlot call.maxSlots (storedFrames buckets)).length,
        (window call.startSlot call.maxSlots (storedFrames buckets)).flatMap
          (SlotCalls.told call.accountUpdateData)) := by
  rw [← h.decoded_window hz]
  exact intended_of_none fun f _ => by rw [ReadCall.stops,hverify,Bool.false_and]

/-- A call on a fresh reader starts in front of the frames it is to decode. -/
theorem Opened.start (hz : env.zstd.Inverts) (h : Opened env config buckets r)
    (hidle : ¬r.idle call) :
    ∃ s now, Ahead env buckets s now ∧ s.visited = 0 ∧ s.events = [] ∧
      scanned call.startSlot call.maxSlots (now ++ storedFrames (buckets.drop (s.bucket + 1))) =
        r.decoded call (storedFrames buckets) ∧
      ∀ data, r.run env (call.wanting data) =
        runOn env r.framing (call.wanting data) now.length (s.shown data) := by
  have hindex : r.index ≠ [] := fun hnil => hidle (.inl (by rw [hnil]; rfl))
  obtain ⟨target,hlt,htarget,-⟩ := bucketContaining_lt h.bucketSlots hindex call.startSlot
  rw [h.served.length_index] at hlt
  obtain ⟨p,hload,hcount,-,hahead⟩ := h.load hz hlt
  refine ⟨.start target p,_,hahead 0 [] {},rfl,rfl,?_,fun data => ?_⟩
  · rw [h.decoded hz hlt htarget,storedFrames_drop hlt]
    rfl
  · have hcold : (r.asked (call.wanting data)).continues target (call.wanting data).startSlot =
        false := by
      simp [ArchiveReader.continues,ArchiveReader.asked,h.fresh]
    have htarget' : bucketContaining r.header r.index (call.wanting data).startSlot =
      .ok target := htarget
    simp only [ArchiveReader.run,htarget',Except.mapError,ok_bind,hcold]
    rw [show r.framing.load env (call.wanting data).accountUpdateData target =
      .ok (p.shown data) from hload data]
    simp only [ok_bind,runFrom,shown_count,hcount]
    cases data <;> rfl

/-- A call all of whose frames can be read does what it is to do, and books the same bytes whether
its visitor wants the data of updates or not. -/
theorem Opened.call_reached (hz : env.zstd.Inverts) (h : Opened env config buckets r)
    (hread : ∀ f ∈ r.reached call (storedFrames buckets), Readable env f) :
    ∃ bytes, ∀ data,
      (r.call env (call.wanting data)).1 = r.intended (call.wanting data) (storedFrames buckets) ∧
      (r.call env (call.wanting data)).2.decoder.byteStats = r.decoder.byteStats.plus bytes := by
  by_cases hidle : r.idle call
  · refine ⟨{},fun data => ?_⟩
    have hidle' : r.idle (call.wanting data) := hidle
    rw [call_idle hidle',ArchiveReader.intended,decoded_idle hidle']
    exact ⟨rfl,rfl⟩
  · obtain ⟨s,now,hahead,hvisited,hevents,hscan,hrun⟩ := h.start hz hidle
    rw [ArchiveReader.reached,through_eq] at hread
    have hwhole : ∀ f ∈ (r.decoded call (storedFrames buckets)).takeWhile
        (fun f => !call.stops (storedFrames buckets) f),
        (call.verifyChain && f.breaks (storedFrames buckets)) = false := fun f hf => by
      have := List.mem_takeWhile_imp hf
      rwa [Bool.not_eq_eq_eq_not,Bool.not_true] at this
    have hsplit : scanned call.startSlot (call.maxSlots - s.visited)
        (now ++ storedFrames (buckets.drop (s.bucket + 1))) =
          (r.decoded call (storedFrames buckets)).takeWhile
            (fun f => !call.stops (storedFrames buckets) f) ++
          (r.decoded call (storedFrames buckets)).dropWhile
            fun f => !call.stops (storedFrames buckets) f := by
      rw [hvisited,Nat.sub_zero,hscan,List.takeWhile_append_dropWhile]
    obtain ⟨s',now',hahead',hrun',hvisited',hevents',hscan'⟩ := hahead.run hz h hsplit
      (fun f hf => hread f (List.mem_append_left _ hf)) hwhole
    rw [hvisited,Nat.zero_add] at hvisited'
    rw [hevents,List.nil_append] at hevents'
    have htold (data : Bool) : (s'.shown data).events =
        (((r.decoded call (storedFrames buckets)).takeWhile
          fun f => !call.stops (storedFrames buckets) f).filter
            (call.startSlot ≤ ·.slot)).flatMap (SlotCalls.told data) := by
      cases data with
      | true => exact hevents'
      | false =>
        change elideEvents s'.events = _
        rw [hevents',elideEvents,List.map_flatMap]
        rfl
    have hend (data : Bool) : outcome (r.run env (call.wanting data)) =
        r.intended (call.wanting data) (storedFrames buckets) ∧
        booked (r.run env (call.wanting data)) = s'.bytes := by
      have hsame : r.decoded (call.wanting data) (storedFrames buckets) =
        r.decoded call (storedFrames buckets) := rfl
      have hstops : (call.wanting data).stops = call.stops := rfl
      rw [hrun data,hrun' data,ArchiveReader.intended,hsame,hstops,
        List.find?_eq_head?_dropWhile_not]
      cases htail : (r.decoded call (storedFrames buckets)).dropWhile
          fun f => !call.stops (storedFrames buckets) f with
      | nil =>
        rw [hahead'.done h (by rw [hscan',htail])]
        refine ⟨?_,rfl⟩
        simp only [outcome]
        rw [htold data]
        exact congrArg (fun n => (Except.ok n,_)) hvisited'
      | cons f more =>
        have hfirst : call.stops (storedFrames buckets) f = true := by
          have := List.head_dropWhile_not (fun f => !call.stops (storedFrames buckets) f)
            (l := r.decoded call (storedFrames buckets)) (by rw [htail]; simp)
          simpa [htail] using this
        rw [hahead'.breaks hz h (by rw [hscan',htail])
          (hread f (by rw [htail]; simp)) hfirst]
        refine ⟨?_,rfl⟩
        rw [htold data]
        rfl
    refine ⟨s'.bytes,fun data => ?_⟩
    have hidle' : ¬r.idle (call.wanting data) := hidle
    obtain ⟨hcall,-,hbytes,-⟩ := call_run env hidle'
    rw [hcall,hbytes,(hend data).1,(hend data).2]
    exact ⟨rfl,rfl⟩

/-- Without a check of the chain, a call delivers its window. -/
theorem Opened.call_window (hz : env.zstd.Inverts) (h : Opened env config buckets r)
    (call : ReadCall) (hverify : call.verifyChain = false)
    (hread : ∀ f ∈ r.decoded call (storedFrames buckets), Readable env f) :
    (r.call env call).1 =
      (.ok (window call.startSlot call.maxSlots (storedFrames buckets)).length,
        (window call.startSlot call.maxSlots (storedFrames buckets)).flatMap
          (SlotCalls.told call.accountUpdateData)) := by
  obtain ⟨bytes,hcall⟩ := h.call_reached hz (by rw [reached_unchecked hverify]; exact hread)
  rw [← h.intended_unchecked hz hverify]
  exact (hcall call.accountUpdateData).1

theorem Opened.call_refused (hz : env.zstd.Inverts) (h : Opened env config buckets r)
    {good others : List SlotCalls} {f : SlotCalls}
    (hreached : r.reached call (storedFrames buckets) = good ++ f :: others)
    (hgood : ∀ g ∈ good, Readable env g) (hbad : Unreadable env f) :
    (r.call env (call.wanting true)).1.1 = .error (Raises.encode .invalidData) := by
  obtain ⟨more,hdecoded,hwhole⟩ := through_split hreached
  have hidle : ¬r.idle call := by
    intro hidle
    rw [decoded_idle hidle] at hdecoded
    cases good <;> cases hdecoded
  obtain ⟨s,now,hahead,hvisited,-,hscan,hrun⟩ := h.start hz hidle
  obtain ⟨s',now',hahead',hrun',-,-,hscan'⟩ := hahead.run hz h
    (by rw [hvisited,Nat.sub_zero,hscan,hdecoded]) hgood hwhole
  obtain ⟨halt,hhalt,hfailure⟩ := hahead'.refused hz h hscan' hbad
  have hidle' : ¬r.idle (call.wanting true) := hidle
  rw [(call_run env hidle').1,hrun,hrun',hhalt,outcome,hfailure]

theorem Opened.call_unfit (hz : env.zstd.Inverts) (h : Opened env config buckets r)
    (hregular : ∀ f ∈ r.reached call (storedFrames buckets), f.Ordered ∧ f.Counted)
    (hfull : ¬∀ f ∈ r.reached call (storedFrames buckets), f.Fits) :
    (r.call env (call.wanting true)).1.1 = .error (Raises.encode .invalidData) := by
  obtain ⟨good,f,others,hreached,hgood,hbad⟩ := exists_first hfull
  rw [hreached] at hregular
  refine h.call_refused hz hreached (fun g hg => ?_)
    (SlotCalls.unreadable hz (hregular f (by simp)) hbad)
  exact SlotCalls.readable hz (hregular g (List.mem_append_left _ hg)) (hgood g hg)

theorem Opened.call_fits (hz : env.zstd.Inverts) (h : Opened env config buckets r)
    (hregular : ∀ f ∈ r.reached call (storedFrames buckets), f.Ordered ∧ f.Counted)
    (hfits : ∀ f ∈ r.reached call (storedFrames buckets), f.Fits) :
    ∃ bytes, ∀ data,
      (r.call env (call.wanting data)).1 = r.intended (call.wanting data) (storedFrames buckets) ∧
      (r.call env (call.wanting data)).2.decoder.byteStats = r.decoder.byteStats.plus bytes :=
  h.call_reached hz fun f hf => SlotCalls.readable hz (hregular f hf) (hfits f hf)

end Calls

end Jetstreamer.Archive
