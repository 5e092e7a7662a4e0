import Jetstreamer.Archive.Layout
import Jetstreamer.Archive.Reader
set_option autoImplicit false

namespace Jetstreamer.Archive
open Lib Lencode Horizon

variable {bytes : Bytes} {p : Put Failure Unit}

theorem toBytes_ok (h : toBytes p = .ok bytes) :
    p () = .ok (bytes,()) := by
  obtain ⟨⟨out,u⟩,hp,h⟩ := bind_ok h
  cases h
  exact hp

theorem reads_toBytes {α : Type} {g : Get Failure Unit α} {a : α}
    (h : Reads (fun _ _ => True) p g a fun _ _ => True)
    (hp : toBytes p = .ok bytes) (rest : Bytes) : g ⟨(),bytes ++ rest⟩ = .ok a ⟨(),rest⟩ := by
  obtain ⟨t,hg,-⟩ := h () () bytes () rest trivial (toBytes_ok hp)
  exact hg

theorem parse_toBytes {α : Type} {g : Get Failure Unit α} {a : α}
    (h : Reads (fun _ _ => True) p g a fun _ _ => True)
    (hp : toBytes p = .ok bytes) : Get.parse g bytes = .ok a := by
  have hg := reads_toBytes h hp []
  rw [List.append_nil] at hg
  simp [Get.parse,hg]

def earlyOrphans : List Call → List AccountUpdate
  | .orphan view :: rest => view :: earlyOrphans rest
  | _ => []

def orphansOf (calls : List Call) : List AccountUpdate :=
  calls.filterMap fun
    | .orphan view => some view
    | .transaction _ => none

def lateOrphans (calls : List Call) : List AccountUpdate :=
  (orphansOf calls).drop (earlyOrphans calls).length

def transactionsOf (calls : List Call) : List Transaction :=
  calls.filterMap fun
    | .orphan _ => none
    | .transaction tx => some tx

def SlotCalls.events : SlotCalls → List Event
  | .skipped slot => [.block (.skipped slot) []]
  | .block slot epoch calls info entries => epoch.toList.map .epoch ++
      transactionEvents slot (transactionsOf calls) ++
      [.block (.block { info with
        slot
        preUpdates := .collect (earlyOrphans calls)
        postUpdates := .collect (lateOrphans calls) }) entries]

/-- From encoders and decoders in step, the bytes of the slot read back as its events. -/
def Readable (env : Env) (f : SlotCalls) : Prop :=
  ∀ hash, Reads (InStep env [] hash) (encodeCalls env f) (readFrame env true false 0) (f.slot,true)
    (InStep env f.events (f.chained hash))

/-- No decoder in step with the encoders gets through the bytes of the slot. -/
def Unreadable (env : Env) (f : SlotCalls) : Prop :=
  ∀ hash verify, Fails (InStep env [] hash) (encodeCalls env f) (readFrame env true verify 0)
    (Raises.encode .invalidData)

section Recorded

theorem earlyOrphans_map (us : List AccountUpdate) (calls : List Call) :
    earlyOrphans (us.map .orphan ++ calls) = us ++ earlyOrphans calls := by
  induction us with
  | nil => rfl
  | cons u rest ih => simp only [List.map_cons,List.cons_append,earlyOrphans,ih]

theorem BlockFrame.earlyOrphans_calls (b : BlockFrame) : earlyOrphans b.calls = b.pre.updates := by
  rw [BlockFrame.calls,orderedCalls,earlyOrphans_map]
  cases htxs : b.transactions with
  | nil => simp [b.phases htxs,earlyOrphans]
  | cons tx rest => simp [earlyOrphans]

theorem BlockFrame.lateOrphans_calls (b : BlockFrame) : lateOrphans b.calls = b.post.updates := by
  have horphans (us : List AccountUpdate) : orphansOf (us.map .orphan) = us := by
    simp [orphansOf]
  have htxs : orphansOf (b.transactions.map .transaction) = [] := by
    simp [orphansOf]
  have hall : orphansOf b.calls = b.pre.updates ++ b.post.updates := by
    rw [BlockFrame.calls,orderedCalls]
    unfold orphansOf at horphans htxs ⊢
    rw [List.filterMap_append,List.filterMap_append,horphans,htxs,horphans,List.nil_append]
  rw [lateOrphans,hall,b.earlyOrphans_calls,List.drop_left]

theorem BlockFrame.transactionsOf_calls (b : BlockFrame) :
    transactionsOf b.calls = b.transactions := by
  simp [BlockFrame.calls,orderedCalls,transactionsOf]

theorem Frame.toCalls_events (f : Frame) : f.toCalls.events = f.events := by
  cases f with
  | skipped slot => rfl
  | block b =>
    simp [toCalls,SlotCalls.events,Frame.events,BlockFrame.delivered,b.earlyOrphans_calls,
      b.lateOrphans_calls,b.transactionsOf_calls,AccountUpdates.collect_updates]

theorem Frame.readable {env : Env} (hz : env.zstd.Inverts) (f : Frame) :
    Readable env f.toCalls := by
  intro hash s t bytes s' rest hP hp
  have hchain : f.ChainOk false hash := by
    cases f with
    | skipped slot => trivial
    | block b => exact .inl rfl
  have hchained : f.toCalls.chained hash = f.chained hash := by cases f <;> rfl
  have hread := reads_frame hz false 0 f hchain s t bytes s' rest hP (encodeFrame_of_encodeCalls hp)
  rw [f.toCalls_slot,f.toCalls_events,hchained]
  exact hread

end Recorded

/-- What the recorder emits for one slot, the lists being as long as they happen to be. -/
inductive RecordedSlot where
  | skipped (slot : UInt64)
  | block (slot : UInt64) (epoch : Option EpochMeta) (pre : List AccountUpdate)
      (txs : List Transaction) (post : List AccountUpdate) (info : BlockMeta)
      (entries : List EntryRecord)

namespace RecordedSlot

def toCalls : RecordedSlot → SlotCalls
  | .skipped slot => .skipped slot
  | .block slot epoch pre txs post info entries =>
    .block slot epoch (orderedCalls pre txs post) info entries

def transactions : RecordedSlot → List Transaction
  | .skipped _ => []
  | .block _ _ _ txs _ _ _ => txs

/-- The updates in front of the transactions; without a transaction, all of them. -/
def early : RecordedSlot → List AccountUpdate
  | .skipped _ => []
  | .block _ _ pre txs post _ _ => if txs = [] then pre ++ post else pre

def late : RecordedSlot → List AccountUpdate
  | .skipped _ => []
  | .block _ _ _ txs post _ _ => if txs = [] then [] else post

/-- The arenas of a decoder have room for the updates of the slot. -/
def Fits (s : RecordedSlot) : Prop :=
  (s.early.length ≤ maxSlotPreUpdates ∧ dataLen s.early ≤ maxSlotPreUpdateData) ∧
    (s.late.length ≤ maxSlotPostUpdates ∧ dataLen s.late ≤ maxSlotPostUpdateData)

instance (s : RecordedSlot) : Decidable s.Fits := inferInstanceAs (Decidable (_ ∧ _))

def Counted (s : RecordedSlot) : Prop :=
  s.early.length < 2 ^ 32 ∧ s.transactions.length < 2 ^ 32 ∧ s.late.length < 2 ^ 32

instance (s : RecordedSlot) : Decidable s.Counted := inferInstanceAs (Decidable (_ ∧ _))

end RecordedSlot

section Blocks

variable {env : Env} {slot : UInt64} {epoch : Option EpochMeta} {pre post : List AccountUpdate}
  {txs : List Transaction} {info : BlockMeta} {entries : List EntryRecord}

theorem RecordedSlot.toCalls_block :
    (block slot epoch pre txs post info entries).toCalls = .block slot epoch
      (orderedCalls (block slot epoch pre txs post info entries).early txs
        (block slot epoch pre txs post info entries).late) info entries := by
  by_cases htxs : txs = []
  · simp [toCalls,early,late,orderedCalls,htxs]
  · simp [toCalls,early,late,htxs]

theorem fails_onDecoders {α : Type} {log : List Event} {hash : Hash}
    {p : Put Failure EncoderContext} {g : Get Failure DecoderContext α}
    {e : Failure} (h : Fails (Linked env) p g e) :
    Fails (InStep env log hash) p (onDecoders g) e := by
  intro s t bytes s' rest hP hp
  obtain ⟨next,hg⟩ := h s t.decoders bytes s' rest hP.linked hp
  exact ⟨⟨{ t with decoders := next.ctx },next.bytes⟩,by simp only [onDecoders,Get.onPart,hg]⟩

theorem fails_updatesSection {MAX DATA : Nat} (hz : env.zstd.Inverts) {log : List Event}
    {hash : Hash} {updates : List AccountUpdate} {book : Nat → FrameContext → FrameContext}
    (hfull : ¬(updates.length ≤ MAX ∧ dataLen updates ≤ DATA)) :
    Fails (InStep env log hash) (encodeUpdates env updates)
      (readUpdates env true book : Get Failure FrameContext (AccountUpdates MAX DATA))
      (Raises.encode .invalidData) :=
  Fails.cons (reads_len _) (Fails.head (fails_onDecoders (fails_updates hz hfull)).tally)

theorem fails_sections (hz : env.zstd.Inverts) {log : List Event} {hash : Hash}
    {verifyChain : Bool} {startSlot : UInt64} (hcounted : txs.length < 2 ^ 32)
    (hfull : ¬((pre.length ≤ maxSlotPreUpdates ∧ dataLen pre ≤ maxSlotPreUpdateData) ∧
      (post.length ≤ maxSlotPostUpdates ∧ dataLen post ≤ maxSlotPostUpdateData))) :
    Fails (InStep env log hash) (encodeSections env slot epoch pre txs post info entries)
      (readFrame env true verifyChain startSlot) (Raises.encode .invalidData) := by
  refine Fails.cons (reads_u64 slot) (Fails.cons (reads_u8 1) ?_)
  refine Fails.bind (Fails.cons (reads_epochSection hz _ epoch) ?_)
  by_cases hpre : pre.length ≤ maxSlotPreUpdates ∧ dataLen pre ≤ maxSlotPreUpdateData
  · have hpost : ¬(post.length ≤ maxSlotPostUpdates ∧ dataLen post ≤ maxSlotPostUpdateData) :=
      fun h => hfull ⟨hpre,h⟩
    refine Fails.cons (reads_updatesSection hz (⟨pre,hpre.1,hpre.2⟩ : PreUpdates)
      fun n _ _ h => (h.book n).1) (Fails.cons (reads_transactions hz _ slot hcounted) ?_)
    exact Fails.bind (Fails.head (fails_updatesSection hz hpost))
  · exact Fails.bind (Fails.head (fails_updatesSection hz hpre))

end Blocks

section Slots

variable {env : Env} {s : RecordedSlot}

theorem RecordedSlot.readable (hz : env.zstd.Inverts) (hcounted : s.Counted) (hfits : s.Fits) :
    Readable env s.toCalls := by
  cases s with
  | skipped slot => exact (Frame.skipped slot).readable hz
  | block slot epoch pre txs post info entries =>
    rw [toCalls_block]
    have hphases : txs = [] → (block slot epoch pre txs post info entries).late = [] := by
      intro h
      simp [late,h]
    exact (Frame.block ⟨slot,epoch,⟨_,hfits.1.1,hfits.1.2⟩,txs,⟨_,hfits.2.1,hfits.2.2⟩,info,entries,
      hcounted.2.1,hphases⟩).readable hz

theorem RecordedSlot.unreadable (hz : env.zstd.Inverts) (hcounted : s.Counted)
    (hfull : ¬s.Fits) : Unreadable env s.toCalls := by
  cases s with
  | skipped slot => exact absurd ⟨⟨Nat.zero_le _,Nat.zero_le _⟩,Nat.zero_le _,Nat.zero_le _⟩ hfull
  | block slot epoch pre txs post info entries =>
    rw [toCalls_block]
    have hphases : txs = [] → (block slot epoch pre txs post info entries).late = [] := by
      intro h
      simp [late,h]
    intro hash verify enc t bytes enc' rest hP hp
    exact fails_sections hz hcounted.2.1 hfull enc t bytes enc' rest hP
      (encodeSections_of_encodeCalls hphases hcounted.1 hcounted.2.1 hcounted.2.2 hp)

end Slots

/-- The calls for a slot, sorted by the sections they go to. -/
def SlotCalls.recorded : SlotCalls → RecordedSlot
  | .skipped slot => .skipped slot
  | .block slot epoch calls info entries =>
    .block slot epoch (earlyOrphans calls) (transactionsOf calls) (lateOrphans calls) info entries

/-- The calls come in the order of the sections: no orphan update between two transactions. -/
def SlotCalls.Ordered (f : SlotCalls) : Prop := f.recorded.toCalls = f

def SlotCalls.Counted (f : SlotCalls) : Prop := f.recorded.Counted

instance SlotCalls.decidableCounted (f : SlotCalls) : Decidable f.Counted :=
  inferInstanceAs (Decidable f.recorded.Counted)

/-- The arenas of a decoder have room for the orphan updates of the slot. -/
def SlotCalls.Fits (f : SlotCalls) : Prop := f.recorded.Fits

instance SlotCalls.decidableFits (f : SlotCalls) : Decidable f.Fits :=
  inferInstanceAs (Decidable f.recorded.Fits)

section Written

variable {env : Env} {f : SlotCalls} (hz : env.zstd.Inverts) (h : f.Ordered ∧ f.Counted)
include hz h

theorem SlotCalls.readable (hfits : f.Fits) : Readable env f := by
  rw [← h.1]
  exact RecordedSlot.readable hz h.2 hfits

theorem SlotCalls.unreadable (hfull : ¬f.Fits) : Unreadable env f := by
  rw [← h.1]
  exact RecordedSlot.unreadable hz h.2 hfull

end Written

end Jetstreamer.Archive
