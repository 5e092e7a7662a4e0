import Jetstreamer.Archive.Capacity
import Jetstreamer.Archive.ReaderSessions
set_option autoImplicit false

namespace Jetstreamer.Archive
open Lib Lencode Horizon

/-- An update between two transactions. -/
def crossedSlot : SlotCalls :=
  .block 6 none
    [.transaction { blankTransaction with accountUpdates := .collect [blankUpdate []] },
      .orphan (blankUpdate [1,2,3]),
      .transaction { blankTransaction with accountUpdates := .collect [blankUpdate [1,2,3]] }]
    blankBlockMeta []

section Sessions

variable {env : Env} {config : ArchiveWriterConfig} {buckets : List Bucket} {r : ArchiveReader}

theorem Position.Holds.frames (data : Bool) {frames : List SlotCalls} {p : Position}
    (h : p.Holds env frames) (hread : ∀ f ∈ frames, Readable env f) :
    ((p.shown data).frames env frames.length).map DecodedFrame.slot =
      frames.map SlotCalls.slot := by
  induction frames generalizing p with
  | nil => rfl
  | cons f rest ih =>
    obtain ⟨frame,q,hnext,hslot,-,hholds⟩ := h.next_shown (hread f List.mem_cons_self) data
    have hrest := ih hholds fun g hg => hread g (List.mem_cons_of_mem _ hg)
    rw [List.length_cons,Position.frames,hnext]
    simp [hslot,hrest]

theorem Opened.increasing_framing (hz : env.zstd.Inverts) (h : Opened env config buckets r)
    (hread : ∀ f ∈ storedFrames buckets, Readable env f) : r.framing.Increasing env := by
  intro data idx hidx
  have hlt : idx < buckets.length := by
    rw [← h.served.length_index]
    exact hidx
  obtain ⟨-,p,hload,hholds,-⟩ := h.served.load hz hlt
  have hmem : buckets[idx].frames ∈ buckets.map Bucket.frames :=
    List.mem_map_of_mem (List.getElem_mem hlt)
  have hframes := hholds.frames data fun f hf =>
    hread f (List.mem_flatten.mpr ⟨_,hmem,hf⟩)
  rw [Framing.frames,hload data]
  simp only [shown_count,hholds.count,hframes]
  have hall := h.increasing
  rw [storedFrames,List.pairwise_map,List.flatMap,List.pairwise_flatten] at hall
  exact List.pairwise_map.mpr (hall.1 _ hmem)

/-- As long as no call fails, every call may go on where the one before it has stopped. -/
theorem Opened.careful (hz : env.zstd.Inverts) (h : Opened env config buckets r)
    (hread : ∀ f ∈ storedFrames buckets, Readable env f) {calls : List ReadCall}
    (hverify : ∀ c ∈ calls, c.verifyChain = false) {s : Session}
    (hframing : s.reader.framing = r.framing) (hintact : s.intact = true)
    (hsound : s.Sound env) : s.Careful env calls := by
  induction calls generalizing s with
  | nil => trivial
  | cons c rest ih =>
    have hc := hverify c List.mem_cons_self
    have hstep : s.reader.resumes c → s.intact ∧ (c.verifyChain → s.checked) := by
      intro _
      refine ⟨hintact,fun hcheck => ?_⟩
      rw [hc] at hcheck
      cases hcheck
    have houtcome := Session.outcome_fresh hframing h.fresh (h.increasing_framing hz hread) hsound
      hstep
    rw [h.call_window hz c hc fun f hf => hread f (mem_decoded hf)] at houtcome
    have hnext : (s.call env c).2.reader.framing = r.framing := by
      rw [(Session.call_reader env s c).1]
      exact call_framing.trans hframing
    have hintact' : (s.call env c).2.intact = true := by
      unfold Session.call
      by_cases hidle : s.reader.idle c
      · simp only [if_pos hidle]
        exact hintact
      · simp only [if_neg hidle,houtcome,hintact]
        rfl
    exact ⟨hstep,ih (fun c' hc' => hverify c' (List.mem_cons_of_mem _ hc')) hnext hintact'
      (Session.call_sound hsound)⟩

end Sessions

/-- On an archive written with the orphan updates of each slot before or behind its transactions,
each call of a session tells of the frames it asks for, whatever calls came before it, if and only
if the updates of each slot fit the arenas of a decoder. -/
theorem session_windows_iff (env : Env) (hz : env.zstd.Inverts)
    (nowMs epoch slotStart slotCount : UInt64) (config : ArchiveWriterConfig)
    (slots : List SlotCalls) (file : Bytes) (stats : ArchiveStats) (r : ArchiveReader)
    (h : writeSlots env nowMs epoch slotStart slotCount config slots = .ok (file,stats))
    (hopen : ArchiveReader.open env file = .ok r) (hregular : ∀ f ∈ slots, f.Ordered ∧ f.Counted) :
    (∀ calls : List ReadCall, (∀ c ∈ calls, c.verifyChain = false) →
      Session.outcomes env ⟨r,true,true⟩ calls = calls.map fun c =>
        (.ok (window c.startSlot c.maxSlots slots).length,
          (window c.startSlot c.maxSlots slots).flatMap (SlotCalls.told c.accountUpdateData))) ↔
      ∀ f ∈ slots, f.Fits := by
  obtain ⟨buckets,config',reader,rfl,hopen',hopened,-⟩ := writeSlots_opened h
  cases Except.ok.inj (hopen'.symm.trans hopen)
  constructor
  · intro hall
    by_contra hfull
    have hone := hall [⟨0,2 ^ 64 - 1,true,false⟩] (by simp)
    rw [Session.outcomes,(Session.call_reader env _ _).2] at hone
    have hreached : r.reached ⟨0,2 ^ 64 - 1,true,false⟩ (storedFrames buckets) =
        storedFrames buckets := by
      rw [reached_unchecked rfl,hopened.decoded_all hz]
    have hunfit := hopened.call_unfit hz (by rw [hreached]; exact hregular)
      (by rw [hreached]; exact hfull)
    cases hunfit.symm.trans (congrArg Prod.fst (List.cons.inj hone).1)
  · intro hfits calls hverify
    have hread : ∀ f ∈ storedFrames buckets, Readable env f := fun f hf =>
      SlotCalls.readable hz (hregular f hf) (hfits f hf)
    have hsound : Session.Sound env ⟨r,true,true⟩ := by
      intro _ idx hidx
      rw [hopened.fresh] at hidx
      cases hidx
    have hcareful := hopened.careful hz hread hverify rfl rfl hsound
    rw [Session.outcomes_fresh hopened.fresh (hopened.increasing_framing hz hread) rfl hsound
      hcareful]
    exact List.map_congr_left fun c hc => hopened.call_window hz c (hverify c hc) fun f hf =>
      hread f (mem_decoded hf)

theorem smallSlots_regular :
    ∀ f ∈ smallSlots.map RecordedSlot.toCalls, f.Ordered ∧ f.Counted := by
  simp only [smallSlots,List.map_cons,List.forall_mem_cons]
  exact ⟨⟨rfl,by decide⟩,⟨rfl,by decide⟩,by simp⟩

theorem smallSlots_stored : ∃ file stats r,
    writeSlots plainEnv 0 0 5 10 ⟨4,.none,3⟩ (smallSlots.map RecordedSlot.toCalls) =
        .ok (file,stats) ∧
      ArchiveReader.open plainEnv file = .ok r := by
  have hall : (do
      let (file,_) ← writeSlots plainEnv 0 0 5 10 ⟨4,.none,3⟩ (smallSlots.map RecordedSlot.toCalls)
      let r ← ArchiveReader.open plainEnv file
      return ()) = .ok () := by
    decide +kernel
  obtain ⟨⟨file,stats⟩,hwrite,hall⟩ := bind_ok hall
  obtain ⟨r,hopen,-⟩ := bind_ok hall
  exact ⟨file,stats,r,hwrite,hopen⟩

theorem session_smallSlots : ∃ file stats r,
    writeSlots plainEnv 0 0 5 10 ⟨4,.none,3⟩ (smallSlots.map RecordedSlot.toCalls) =
        .ok (file,stats) ∧
      ArchiveReader.open plainEnv file = .ok r ∧
      Session.outcomes plainEnv ⟨r,true,true⟩
        [⟨6,1,false,false⟩,⟨6,1,true,false⟩,⟨0,1,true,false⟩] =
        [(.ok 1,((smallSlots.map RecordedSlot.toCalls).drop 1).flatMap (SlotCalls.told false)),
          (.ok 1,((smallSlots.map RecordedSlot.toCalls).drop 1).flatMap (SlotCalls.told true)),
          (.ok 1,((smallSlots.map RecordedSlot.toCalls).take 1).flatMap
            (SlotCalls.told true))] := by
  obtain ⟨file,stats,r,hwrite,hopen⟩ := smallSlots_stored
  refine ⟨file,stats,r,hwrite,hopen,?_⟩
  exact (session_windows_iff plainEnv plainEnv_inverts 0 0 5 10 ⟨4,.none,3⟩ _ file stats r hwrite
    hopen smallSlots_regular).mpr (by decide) _ (by decide)

def ReadCall.checking (verify : Bool) (call : ReadCall) : ReadCall :=
  { call with verifyChain := verify }

def ArchiveReader.firstMismatch (r : ArchiveReader) (call : ReadCall) (slots : List SlotCalls) :
    Option UInt64 :=
  ((r.decoded call slots).find? (SlotCalls.breaks slots)).map SlotCalls.slot

/-- The archive of a slot with an update between its transactions, and what its readers meet. -/
theorem crossedSlot_stored : ∃ file stats r,
    writeSlots plainEnv 0 0 5 10 ⟨4,.none,3⟩ [crossedSlot] = .ok (file,stats) ∧
      ArchiveReader.open plainEnv file = .ok r ∧
      (r.call plainEnv ⟨0,1,true,false⟩).1 =
        (.error (.error (.encode .invalidData)),crossedSlot.events.take 1) ∧
      (r.call plainEnv ⟨0,1,false,false⟩).1 = (.ok 1,elideEvents crossedSlot.events) ∧
      (r.call plainEnv ⟨0,1,true,true⟩).1.1 = .error (.error (.encode .invalidData)) ∧
      r.firstMismatch ⟨0,1,true,true⟩ [crossedSlot] = none := by
  have hall : (do
      let (file,_) ← writeSlots plainEnv 0 0 5 10 ⟨4,.none,3⟩ [crossedSlot]
      let r ← ArchiveReader.open plainEnv file
      return ((r.call plainEnv ⟨0,1,true,false⟩).1,(r.call plainEnv ⟨0,1,false,false⟩).1,
        (r.call plainEnv ⟨0,1,true,true⟩).1.1,r.firstMismatch ⟨0,1,true,true⟩ [crossedSlot])) =
      .ok ((.error (.error (.encode .invalidData)),crossedSlot.events.take 1),
        (.ok 1,elideEvents crossedSlot.events),.error (.error (.encode .invalidData)),none) := by
    decide +kernel
  obtain ⟨⟨file,stats⟩,hwrite,hall⟩ := bind_ok hall
  obtain ⟨r,hopen,hall⟩ := bind_ok hall
  have hmet := Except.ok.inj hall
  simp only [Prod.mk.injEq] at hmet
  exact ⟨file,stats,r,hwrite,hopen,hmet⟩

/-- An archive with an update between transactions cannot be read. -/
theorem session_crossedSlot : ∃ file stats r,
    writeSlots plainEnv 0 0 5 10 ⟨4,.none,3⟩ [crossedSlot] = .ok (file,stats) ∧
      ArchiveReader.open plainEnv file = .ok r ∧
      Session.outcomes plainEnv ⟨r,true,true⟩ [⟨0,1,true,false⟩] =
        [(.error (.error (.encode .invalidData)),crossedSlot.events.take 1)] := by
  obtain ⟨file,stats,r,hwrite,hopen,hfull,-⟩ := crossedSlot_stored
  refine ⟨file,stats,r,hwrite,hopen,?_⟩
  rw [Session.outcomes,(Session.call_reader plainEnv _ _).2,hfull]
  rfl

/-- All of the window is read, or all of it up to a block that breaks the chain. -/
def Delivered : Except Failure Nat → Prop
  | .ok _ => True
  | .error (.error (.pohMismatch _)) => True
  | .error _ => False

/-- With the data of updates and without it, a window on a fresh reader is delivered with the same
result, the same callbacks but for that data and the same accounting of bytes. -/
def ElidesOnlyData (env : Env) (r : ArchiveReader) (call : ReadCall) : Prop :=
  ∃ result events, Delivered result ∧ (r.call env (call.wanting true)).1 = (result,events) ∧
    (r.call env (call.wanting false)).1 = (result,elideEvents events) ∧
    (r.call env (call.wanting false)).2.decoder.byteStats =
      (r.call env (call.wanting true)).2.decoder.byteStats

section Windows

variable {r : ArchiveReader} {call : ReadCall} {slots : List SlotCalls}

theorem intended_delivered : Delivered (r.intended call slots).1 := by
  unfold ArchiveReader.intended
  cases (r.decoded call slots).find? (call.stops slots) <;> exact trivial

theorem intended_elided : r.intended (call.wanting false) slots =
    ((r.intended (call.wanting true) slots).1,
      elideEvents (r.intended (call.wanting true) slots).2) := by
  have hsame (data : Bool) : r.decoded (call.wanting data) slots = r.decoded call slots := rfl
  have hstops (data : Bool) : (call.wanting data).stops = call.stops := rfl
  have htold (frames : List SlotCalls) : frames.flatMap (SlotCalls.told false) =
      elideEvents (frames.flatMap (SlotCalls.told true)) := by
    rw [elideEvents,List.map_flatMap]
    rfl
  simp only [ArchiveReader.intended,hsame,hstops]
  simp only [ReadCall.wanting,htold]
  cases (r.decoded call slots).find? (call.stops slots) with
  | none => rfl
  | some f =>
    have hlast : (if call.startSlot ≤ f.slot then (f.told false).dropLast else []) =
        elideEvents (if call.startSlot ≤ f.slot then (f.told true).dropLast else []) := by
      split
      · exact List.map_dropLast.symm
      · rfl
    exact Prod.ext rfl ((congrArg (_ ++ ·) hlast).trans List.map_append.symm)

end Windows

/-- A window on a fresh reader that checks the chain fails at the first mismatch among the frames it
decodes, and without one it is served as if the chain were not checked. -/
def VerifiesChain (env : Env) (r : ArchiveReader) (call : ReadCall) (slots : List SlotCalls) :
    Prop :=
  (∀ slot, (r.call env (call.checking true)).1.1 = .error (.error (.pohMismatch slot)) ↔
    r.firstMismatch call slots = some slot) ∧
  (r.firstMismatch call slots = none → ∃ n events,
    (r.call env (call.checking true)).1 = (.ok n,events) ∧
    (r.call env (call.checking false)).1 = (.ok n,events))

section Chain

variable {r : ArchiveReader} {call : ReadCall} {slots : List SlotCalls}

theorem stops_checking : (call.checking true).stops slots = SlotCalls.breaks slots :=
  funext fun f => Bool.true_and (f.breaks slots)

theorem intended_mismatch {slot : UInt64} (h : r.firstMismatch call slots = some slot) :
    (r.intended (call.checking true) slots).1 = .error (.error (.pohMismatch slot)) := by
  obtain ⟨f,hf,rfl⟩ := Option.map_eq_some_iff.mp h
  have hfind : (r.decoded (call.checking true) slots).find? ((call.checking true).stops slots) =
      some f := by
    rw [stops_checking]
    exact hf
  simp [ArchiveReader.intended,hfind]

theorem intact_chain (h : r.firstMismatch call slots = none) :
    ∀ f ∈ r.decoded call slots, f.breaks slots = false := by
  have hnone := List.find?_eq_none.mp (Option.map_eq_none_iff.mp h)
  exact fun f hf => Bool.eq_false_iff.mpr (hnone f hf)

theorem intended_chain (h : r.firstMismatch call slots = none) (verify : Bool) :
    r.intended (call.checking verify) slots =
      (.ok ((r.decoded call slots).filter (call.startSlot ≤ ·.slot)).length,
        ((r.decoded call slots).filter (call.startSlot ≤ ·.slot)).flatMap
          (SlotCalls.told call.accountUpdateData)) := by
  have hnone : ∀ f ∈ r.decoded (call.checking verify) slots,
      (call.checking verify).stops slots f = false := fun f hf => by
    rw [ReadCall.stops,intact_chain h f hf,Bool.and_false]
  exact intended_of_none hnone

end Chain

/-- Where the orphan updates of each slot a checking window comes upon are written before or behind
its transactions, the chain is checked exactly, with the data of updates and without it, if and only
if they fit the arenas of a decoder. -/
theorem verifiesChain_iff_fits (env : Env) (hz : env.zstd.Inverts)
    (nowMs epoch slotStart slotCount : UInt64) (config : ArchiveWriterConfig)
    (slots : List SlotCalls) (file : Bytes) (stats : ArchiveStats) (r : ArchiveReader)
    (h : writeSlots env nowMs epoch slotStart slotCount config slots = .ok (file,stats))
    (hopen : ArchiveReader.open env file = .ok r) (call : ReadCall)
    (hregular : ∀ f ∈ r.reached (call.checking true) slots, f.Ordered ∧ f.Counted) :
    (∀ data, VerifiesChain env r (call.wanting data) slots) ↔
      ∀ f ∈ r.reached (call.checking true) slots, f.Fits := by
  obtain ⟨buckets,config',reader,rfl,hopen',hopened,-⟩ := writeSlots_opened h
  cases Except.ok.inj (hopen'.symm.trans hopen)
  constructor
  · intro hverifies
    by_contra hunfit
    have herror := hopened.call_unfit hz hregular hunfit
    obtain ⟨hmismatch,hnone⟩ := hverifies true
    cases hfirst : r.firstMismatch (call.wanting true) (storedFrames buckets) with
    | some slot => cases herror.symm.trans ((hmismatch slot).mpr hfirst)
    | none =>
      obtain ⟨n,events,hok,-⟩ := hnone hfirst
      cases herror.symm.trans (congrArg Prod.fst hok)
  · intro hfits data
    obtain ⟨bytes,hcall⟩ := hopened.call_fits hz hregular hfits
    have hchecked : (r.call env ((call.wanting data).checking true)).1 =
      r.intended ((call.wanting data).checking true) (storedFrames buckets) := (hcall data).1
    rw [VerifiesChain,hchecked]
    cases hfirst : r.firstMismatch (call.wanting data) (storedFrames buckets) with
    | some slot =>
      rw [intended_mismatch hfirst]
      refine ⟨fun slot' => ?_,nofun⟩
      constructor
      · intro heq
        cases heq
        rfl
      · intro heq
        cases heq
        rfl
    | none =>
      have hwhole : r.reached (call.checking true) (storedFrames buckets) =
          r.reached (call.checking false) (storedFrames buckets) := by
        have hfalse : r.reached (call.checking false) (storedFrames buckets) =
          r.decoded call (storedFrames buckets) := reached_unchecked rfl _
        rw [hfalse]
        exact through_none fun f hf => by
          exact intact_chain hfirst f hf
      rw [hwhole] at hregular hfits
      obtain ⟨bytes',hcall'⟩ := hopened.call_fits hz hregular hfits
      have hunchecked : (r.call env ((call.wanting data).checking false)).1 =
        r.intended ((call.wanting data).checking false) (storedFrames buckets) := (hcall' data).1
      rw [hunchecked,intended_chain hfirst true,intended_chain hfirst false]
      exact ⟨fun slot => ⟨nofun,nofun⟩,fun _ => ⟨_,_,rfl,rfl⟩⟩

theorem verifiesChain_smallSlots : ∃ file stats r,
    writeSlots plainEnv 0 0 5 10 ⟨4,.none,3⟩ (smallSlots.map RecordedSlot.toCalls) =
        .ok (file,stats) ∧
      ArchiveReader.open plainEnv file = .ok r ∧
      VerifiesChain plainEnv r ⟨6,1,true,true⟩ (smallSlots.map RecordedSlot.toCalls) := by
  obtain ⟨file,stats,r,hwrite,hopen⟩ := smallSlots_stored
  have hmem (f : SlotCalls) (hf : f ∈ r.reached ⟨6,1,true,true⟩
      (smallSlots.map RecordedSlot.toCalls)) := mem_decoded (mem_through hf)
  refine ⟨file,stats,r,hwrite,hopen,?_⟩
  exact (verifiesChain_iff_fits plainEnv plainEnv_inverts 0 0 5 10 ⟨4,.none,3⟩ _ file stats r hwrite
    hopen ⟨6,1,true,true⟩ fun f hf => smallSlots_regular f (hmem f hf)).mpr (fun f hf =>
      (by decide : ∀ f ∈ smallSlots.map RecordedSlot.toCalls, f.Fits) f (hmem f hf)) true

/-- An archive that cannot be read fails without any mismatch. -/
theorem not_verifiesChain_crossedSlot : ∃ file stats r,
    writeSlots plainEnv 0 0 5 10 ⟨4,.none,3⟩ [crossedSlot] = .ok (file,stats) ∧
      ArchiveReader.open plainEnv file = .ok r ∧
      ¬VerifiesChain plainEnv r ⟨0,1,true,true⟩ [crossedSlot] := by
  obtain ⟨file,stats,r,hwrite,hopen,-,-,hfail,hnone⟩ := crossedSlot_stored
  refine ⟨file,stats,r,hwrite,hopen,fun hverifies => ?_⟩
  obtain ⟨n,events,hok,-⟩ := hverifies.2 hnone
  cases hfail.symm.trans (congrArg Prod.fst hok)

end Jetstreamer.Archive
