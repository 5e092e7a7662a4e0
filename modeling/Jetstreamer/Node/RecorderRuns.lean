import Jetstreamer.Node.Recorder
set_option autoImplicit false

namespace Jetstreamer.Archive
open Lib Horizon

theorem ArchiveWriter.writeCalls_slot {env : Env} {w w' : ArchiveWriter} {f : SlotCalls}
    (h : w.writeCalls env f = .ok w') :
    (w.slotStart ≤ f.slot ∧ f.slot < w.slotEnd ∧ ∀ last, w.lastSlot = some last → last < f.slot) ∧
      w'.lastSlot = some f.slot ∧ w'.slotStart = w.slotStart ∧ w'.slotEnd = w.slotEnd := by
  obtain ⟨w1,bytes,enc,staging,stats,hcheck,-,-,rfl⟩ := ArchiveWriter.writeCalls_ok h
  obtain ⟨hslot,hways⟩ := ArchiveWriter.checkSlot_ok hcheck
  refine ⟨hslot,?_⟩
  rcases hways with ⟨-,rfl⟩ | ⟨first,hfirst,⟨-,rfl⟩ | ⟨w0,-,hflush,rfl⟩⟩
  · rw [ArchiveWriter.enterBucket_eq]
    exact ⟨rfl,rfl,rfl⟩
  · rw [ArchiveWriter.enterBucket_eq]
    exact ⟨rfl,rfl,rfl⟩
  · obtain ⟨raw,stats0,-,-,rfl⟩ := ArchiveWriter.flushBucket_ok hfirst hflush
    rw [ArchiveWriter.enterBucket_eq]
    exact ⟨rfl,rfl,rfl⟩

theorem ArchiveWriter.new_range {env : Env} {nowMs epoch slotStart slotCount : UInt64}
    {config : ArchiveWriterConfig} {w : ArchiveWriter}
    (h : ArchiveWriter.new env nowMs epoch slotStart slotCount config = .ok w) :
    w.slotStart = slotStart ∧ w.slotEnd = slotStart + slotCount ∧ w.lastSlot = none := by
  unfold ArchiveWriter.new at h
  split at h
  · cases h
  · obtain ⟨headerBytes,-,h⟩ := bind_ok h
    obtain ⟨lenPrefix,-,h⟩ := bind_ok h
    obtain ⟨sink,-,h⟩ := bind_ok h
    cases h
    exact ⟨rfl,rfl,rfl⟩

end Jetstreamer.Archive

namespace Jetstreamer.Node
open Lib Horizon Archive Ggjet

theorem mapFailure_ok {α : Type} {result : Except Failure α} {a : α}
    (h : mapFailure result = .ok a) : result = .ok a := by
  cases result with
  | error e => cases h
  | ok b => exact congrArg _ (Except.ok.inj h)

/-- Each transaction is filled with the updates of its first signature. -/
def Filled (ctx : RecorderContext) (slot : UInt64) (a : SlotAssembly) (c : CommittedTx)
    (tx : Transaction) : Prop :=
  fillTransaction ctx.parsers slot c (a.updatesOf c) = .ok tx

namespace RecorderState

variable {ctx : RecorderContext} {slot : UInt64}

theorem writeTransactions_ok {cs : List CommittedTx} {w w' : ArchiveWriter}
    {updates stray : AList fun _ : Signature => List AccountUpdate} {txs : List Transaction}
    (h : writeTransactions ctx slot cs w updates = .ok (w',stray,txs)) :
    (txs.map Archive.Call.transaction).foldlM (ArchiveWriter.call ctx.env.toEnv) w = .ok w' ∧
      (∀ sig ∈ updates, sig ∈ stray ∨ ∃ c ∈ cs, c.tx.signatures.head? = some sig) ∧
      ∀ a : SlotAssembly, (cs.map fun c => c.tx.signatures.head?).Nodup →
        (∀ c ∈ cs, ∀ sig, c.tx.signatures.head? = some sig →
          updates.lookup sig = a.txUpdates.lookup sig) →
        List.Forall₂ (Filled ctx slot a) cs txs := by
  induction cs generalizing w updates txs with
  | nil =>
    cases h
    exact ⟨rfl,fun sig hsig => .inl hsig,fun _ _ _ => .nil⟩
  | cons c rest ih =>
    obtain ⟨scratch,hconvert,h⟩ := bind_ok h
    cases hsig : c.tx.signatures.head? with
    | none =>
      rw [hsig] at h
      cases h
    | some sig =>
      rw [hsig] at h
      obtain ⟨tx,hpush,h⟩ := bind_ok h
      obtain ⟨w1,hwrite,h⟩ := bind_ok h
      obtain ⟨⟨w2,stray2,txs2⟩,hrest,h⟩ := bind_ok h
      cases h
      obtain ⟨hcalls,hkeys,hfilled⟩ := ih hrest
      refine ⟨?_,fun other hother => ?_,fun a hnodup hlookup => ?_⟩
      · have hcall : ArchiveWriter.call ctx.env.toEnv w (.transaction tx) = .ok w1 :=
          mapFailure_ok hwrite
        simp only [List.map_cons,List.foldlM_cons,hcall,ok_bind]
        exact hcalls
      · by_cases hsame : other = sig
        · subst hsame
          exact .inr ⟨c,List.mem_cons_self,hsig⟩
        · rcases hkeys other (AList.mem_erase.mpr ⟨hsame,hother⟩) with hstray | ⟨c',hc',heq⟩
          · exact .inl hstray
          · exact .inr ⟨c',List.mem_cons_of_mem _ hc',heq⟩
      · rw [List.map_cons,List.nodup_cons] at hnodup
        refine .cons ?_ (hfilled a hnodup.2 fun c' hc' sig' hsig' => ?_)
        · rw [Filled,SlotAssembly.updatesOf,hsig,Option.bind_some,
            ← hlookup c List.mem_cons_self sig hsig,fillTransaction,hconvert,ok_bind,hpush]
        · have hne : sig' ≠ sig := by
            rintro rfl
            exact hnodup.1 (List.mem_map.mpr ⟨c',hc',hsig'.trans hsig.symm⟩)
          rw [AList.lookup_erase_ne hne]
          exact hlookup c' (List.mem_cons_of_mem _ hc') sig' hsig'

variable {st st' : RecorderState} {a : SlotAssembly} {info : BufferedBlockMeta}

structure Assembled (ctx : RecorderContext) (slot : UInt64) (a : SlotAssembly)
    (info : BufferedBlockMeta) (txs : List Transaction) (blockMeta : BlockMeta) : Prop where
  blockMeta : info.toBlockMeta slot = .ok blockMeta
  owned : ∀ sig ∈ a.txUpdates, ∃ c ∈ a.txs, c.tx.signatures.head? = some sig
  filled : (a.txs.map fun c => c.tx.signatures.head?).Nodup →
    List.Forall₂ (Filled ctx slot a) a.txs txs

theorem writeBlock_ok (h : st.writeBlock ctx slot a info = .ok st') :
    ∃ txs blockMeta w, Assembled ctx slot a info txs blockMeta ∧
      st.writer.writeCalls ctx.env.toEnv (RecordedSlot.block slot (st.epochMeta slot info)
        a.preOrphans txs a.postOrphans blockMeta a.entries).toCalls = .ok w ∧
      st' = { st with
        writer := w
        epochMetaWritten := true
        lastEmitted := some slot
        emitted := st.emitted ++ [.block slot (st.epochMeta slot info) a.preOrphans txs
          a.postOrphans blockMeta a.entries] } := by
  obtain ⟨w1,hbegin,h⟩ := bind_ok h
  obtain ⟨w2,hepoch,h⟩ := bind_ok h
  obtain ⟨w3,hpre,h⟩ := bind_ok h
  obtain ⟨⟨w4,stray,txs⟩,htxs,h⟩ := bind_ok h
  dsimp only at h
  split at h
  · cases h
  · rename_i hstray
    obtain ⟨w5,hpost,h⟩ := bind_ok h
    obtain ⟨blockMeta,hmeta,h⟩ := bind_ok h
    obtain ⟨w6,hend,h⟩ := bind_ok h
    cases h
    obtain ⟨hcalls,howned,hfilled⟩ := writeTransactions_ok htxs
    refine ⟨txs,blockMeta,w6,⟨hmeta,fun sig hsig => ?_,fun hnodup =>
      hfilled a hnodup fun _ _ _ _ => rfl⟩,?_,rfl⟩
    · refine (howned sig hsig).resolve_left fun hmem => ?_
      have hempty : stray.keys = [] := by simpa using hstray
      rw [AList.mem_keys,hempty] at hmem
      cases hmem
    · simp only [RecordedSlot.toCalls,ArchiveWriter.writeCalls,ArchiveWriter.writeBlock,
        orderedCalls,
        List.foldlM_append,mapFailure_ok hbegin,mapFailure_ok hepoch,mapFailure_ok hpre,hcalls,
        mapFailure_ok hpost,ok_bind]
      exact mapFailure_ok hend

theorem writeSelected_ok {updates : AccountManifest → List AccountUpdate}
    (h : st.writeSelected ctx slot updates = .ok st') :
    st' = { st with ggjetWriter := st'.ggjetWriter, selected := st'.selected } := by
  unfold writeSelected at h
  cases hwriter : st.ggjetWriter with
  | none =>
    rw [hwriter] at h
    cases h
    rfl
  | some g =>
    rw [hwriter] at h
    obtain ⟨g',hg,h⟩ := bind_ok h
    cases h
    rfl

theorem writeSkipped_ok (h : st.writeSkipped ctx slot = .ok st') :
    (ctx.presence.state slot.toNat ≠ some .present ∨ slot ∈ st.forceSkipped) ∧
      ∃ w, st.writer.writeCalls ctx.env.toEnv (.skipped slot) = .ok w ∧
        st' = { st with
          writer := w
          ggjetWriter := st'.ggjetWriter
          selected := st'.selected
          emitted := st.emitted ++ [.skipped slot] } := by
  obtain ⟨_,hgap,h⟩ := bind_ok h
  obtain ⟨w,hwrite,h⟩ := bind_ok h
  refine ⟨?_,w,mapFailure_ok hwrite,writeSelected_ok h⟩
  unfold checkGapSlotSkipped at hgap
  split at hgap
  · rename_i hpresent
    exact .inl hpresent
  · split at hgap
    · rename_i hforced
      exact .inr hforced
    · cases hgap

end RecorderState

namespace RecorderCall

def activity : RecorderCall → Option UInt64
  | .update slot _ _ | .committedEntry slot _ _ _ => some slot
  | .blockMeta _ _ | .forceSkipped _ => none

variable (slot : UInt64)

def entry : RecorderCall → Option EntryRecord
  | .committedEntry s _ numHashes txs =>
    if s = slot then some ⟨numHashes,UInt32.ofNat txs.length⟩ else none
  | _ => none

def committed : RecorderCall → List CommittedTx
  | .committedEntry s _ _ txs => if s = slot then txs else []
  | _ => []

def owned (sig : Signature) : RecorderCall → Option AccountUpdate
  | .update s (some other) u => if s = slot ∧ other = sig then some u else none
  | _ => none

def orphan : RecorderCall → Option AccountUpdate
  | .update s none u => if s = slot then some u else none
  | _ => none

def info : RecorderCall → Option BufferedBlockMeta
  | .blockMeta s info => if s = slot then some info else none
  | _ => none

end RecorderCall

section History

variable (calls : List RecorderCall) (slot : UInt64)

def Active : Prop := ∃ c ∈ calls, c.activity = some slot

def committedOf : List CommittedTx := calls.flatMap (RecorderCall.committed slot)

def ownedOf (c : CommittedTx) : List AccountUpdate :=
  match c.tx.signatures.head? with
  | some sig => calls.filterMap (RecorderCall.owned slot sig)
  | none => []

def early : List RecorderCall := calls.takeWhile fun c => (c.committed slot).isEmpty

def late : List RecorderCall := calls.dropWhile fun c => (c.committed slot).isEmpty

def lastMeta : Option BufferedBlockMeta := (calls.filterMap (RecorderCall.info slot)).getLast?

/-- No later slot was active since the slot was. -/
def Open : Prop :=
  ∃ before c after, calls = before ++ c :: after ∧ c.activity = some slot ∧
    ∀ d ∈ after, ∀ s, d.activity = some s → s ≤ slot

/-- The metadata of an emitted block: the last delivered before the first call that showed the block
to be complete, or before the end. -/
def EmittedMeta (info : BufferedBlockMeta) : Prop :=
  ∃ before after, calls = before ++ after ∧ lastMeta before slot = some info ∧ Open before slot ∧
    (∀ c ∈ after, c.activity ≠ some slot) ∧
    ∀ c, after.head? = some c → ∃ later, c.activity = some later ∧ slot < later

def RecordedAs (ctx : RecorderContext) : RecordedSlot → Prop
  | .skipped slot => ¬Active calls slot ∧
      (ctx.presence.state slot.toNat ≠ some .present ∨ .forceSkipped slot ∈ calls)
  | .block slot _ pre txs post blockMeta entries =>
    Active calls slot ∧
      entries = calls.filterMap (RecorderCall.entry slot) ∧
      pre = (early calls slot).filterMap (RecorderCall.orphan slot) ∧
      post = (late calls slot).filterMap (RecorderCall.orphan slot) ∧
      (((committedOf calls slot).map fun c => c.tx.signatures.head?).Nodup →
        List.Forall₂ (fun c tx =>
          fillTransaction ctx.parsers slot c (ownedOf calls slot c) = .ok tx)
          (committedOf calls slot) txs) ∧
      (∀ sig, calls.filterMap (RecorderCall.owned slot sig) ≠ [] →
        ∃ c ∈ committedOf calls slot, c.tx.signatures.head? = some sig) ∧
      ∃ info, EmittedMeta calls slot info ∧ info.toBlockMeta slot = .ok blockMeta

end History

section Append

variable {calls : List RecorderCall} {slot : UInt64} {c : RecorderCall} {a : SlotAssembly}

theorem committedOf_append :
    committedOf (calls ++ [c]) slot = committedOf calls slot ++ c.committed slot := by
  simp [committedOf]

theorem orphan_of_committed (h : (c.committed slot).isEmpty = false) : c.orphan slot = none := by
  cases c with
  | committedEntry => rfl
  | blockMeta => rfl
  | forceSkipped => rfl
  | update => simp [RecorderCall.committed] at h

theorem takeWhile_snoc {α : Type} (p : α → Bool) (items : List α) (last : α) :
    (items ++ [last]).takeWhile p =
      items.takeWhile p ++ if items.all p && p last then [last] else [] := by
  induction items with
  | nil => cases h : p last <;> simp [h]
  | cons first rest ih =>
    cases h : p first with
    | true => simp [h,ih]
    | false => simp [h]

theorem dropWhile_snoc {α : Type} (p : α → Bool) (items : List α) (last : α) :
    (items ++ [last]).dropWhile p =
      items.dropWhile p ++ if items.all p && p last then [] else [last] := by
  induction items with
  | nil => cases h : p last <;> simp [h]
  | cons first rest ih =>
    cases h : p first with
    | true => simp [h,ih]
    | false => simp [h]

theorem filterMap_singleton {α β : Type} (f : α → Option β) (x : α) :
    [x].filterMap f = (f x).toList := by
  cases h : f x <;> simp [h]

theorem committedOf_eq_nil_iff : (calls.all fun c => (c.committed slot).isEmpty) = true ↔
    committedOf calls slot = [] := by
  simp [committedOf]

theorem early_append :
    (early (calls ++ [c]) slot).filterMap (RecorderCall.orphan slot) =
      (early calls slot).filterMap (RecorderCall.orphan slot) ++
        if committedOf calls slot = [] then (c.orphan slot).toList else [] := by
  rw [early,takeWhile_snoc,List.filterMap_append,early]
  congr 1
  by_cases hnone : committedOf calls slot = []
  · rw [if_pos hnone,committedOf_eq_nil_iff.mpr hnone,Bool.true_and]
    cases hc : (c.committed slot).isEmpty with
    | true => simp [filterMap_singleton]
    | false => simp [orphan_of_committed hc]
  · have hsome : (calls.all fun c => (c.committed slot).isEmpty) = false := by
      rw [← Bool.not_eq_true,committedOf_eq_nil_iff]
      exact hnone
    simp [hnone,hsome]

theorem late_append :
    (late (calls ++ [c]) slot).filterMap (RecorderCall.orphan slot) =
      (late calls slot).filterMap (RecorderCall.orphan slot) ++
        if committedOf calls slot = [] then [] else (c.orphan slot).toList := by
  rw [late,dropWhile_snoc,List.filterMap_append,late]
  congr 1
  by_cases hnone : committedOf calls slot = []
  · rw [if_pos hnone,committedOf_eq_nil_iff.mpr hnone,Bool.true_and]
    cases hc : (c.committed slot).isEmpty with
    | true => simp
    | false => simp [orphan_of_committed hc]
  · have hsome : (calls.all fun c => (c.committed slot).isEmpty) = false := by
      rw [← Bool.not_eq_true,committedOf_eq_nil_iff]
      exact hnone
    simp [hnone,hsome,filterMap_singleton]

structure Holds (calls : List RecorderCall) (slot : UInt64) (a : SlotAssembly) : Prop where
  entries : a.entries = calls.filterMap (RecorderCall.entry slot)
  txs : a.txs = committedOf calls slot
  pre : a.preOrphans = (early calls slot).filterMap (RecorderCall.orphan slot)
  post : a.postOrphans = (late calls slot).filterMap (RecorderCall.orphan slot)
  owned : ∀ sig, (a.txUpdates.lookup sig).getD [] = calls.filterMap (RecorderCall.owned slot sig)

theorem Holds.append (h : Holds calls slot a) {b : SlotAssembly}
    (hentries : b.entries = a.entries ++ (c.entry slot).toList)
    (htxs : b.txs = a.txs ++ c.committed slot)
    (hpre : b.preOrphans = a.preOrphans ++ if a.txs = [] then (c.orphan slot).toList else [])
    (hpost : b.postOrphans = a.postOrphans ++ if a.txs = [] then [] else (c.orphan slot).toList)
    (howned : ∀ sig, (b.txUpdates.lookup sig).getD [] =
      (a.txUpdates.lookup sig).getD [] ++ (c.owned slot sig).toList) :
    Holds (calls ++ [c]) slot b where
  entries := by rw [hentries,h.entries,List.filterMap_append,filterMap_singleton]
  txs := by rw [htxs,h.txs,committedOf_append]
  pre := by rw [hpre,h.pre,h.txs,early_append]
  post := by rw [hpost,h.post,h.txs,late_append]
  owned := fun sig => by rw [howned,h.owned,List.filterMap_append,filterMap_singleton]

theorem silent_of_ne (h : c.activity ≠ some slot) :
    c.entry slot = none ∧ c.committed slot = [] ∧ c.orphan slot = none ∧
      ∀ sig, c.owned slot sig = none := by
  cases c with
  | blockMeta | forceSkipped => exact ⟨rfl,rfl,rfl,fun _ => rfl⟩
  | committedEntry s index numHashes txs =>
    have hne : s ≠ slot := fun heq => h (by rw [RecorderCall.activity,heq])
    simp [RecorderCall.entry,RecorderCall.committed,RecorderCall.orphan,RecorderCall.owned,hne]
  | update s signature u =>
    have hne : s ≠ slot := fun heq => h (by rw [RecorderCall.activity,heq])
    cases signature <;> simp [RecorderCall.entry,RecorderCall.committed,RecorderCall.orphan,
      RecorderCall.owned,hne]

theorem Holds.other (h : Holds calls slot a) (hc : c.activity ≠ some slot) :
    Holds (calls ++ [c]) slot a := by
  obtain ⟨hentry,hcommitted,horphan,howned⟩ := silent_of_ne hc
  refine h.append ?_ ?_ ?_ ?_ fun sig => ?_ <;> simp [hentry,hcommitted,horphan,howned]

theorem Holds.route (h : Holds calls slot a) (signature : Option Signature) (u : AccountUpdate) :
    Holds (calls ++ [.update slot signature u]) slot (a.route signature u) := by
  cases signature with
  | some sig =>
    refine h.append ?_ ?_ ?_ ?_ fun other => ?_
    · simp [SlotAssembly.route,RecorderCall.entry]
    · simp [SlotAssembly.route,RecorderCall.committed]
    · simp [SlotAssembly.route,RecorderCall.orphan]
    · simp [SlotAssembly.route,RecorderCall.orphan]
    · by_cases hother : other = sig
      · subst hother
        simp [SlotAssembly.route,RecorderCall.owned]
      · simp [SlotAssembly.route,RecorderCall.owned,Ne.symm hother,AList.lookup_insert_ne hother]
  | none =>
    by_cases htxs : a.txs = []
    · refine h.append ?_ ?_ ?_ ?_ fun other => ?_ <;>
        simp [SlotAssembly.route,RecorderCall.entry,RecorderCall.committed,RecorderCall.orphan,
          RecorderCall.owned,htxs]
    · refine h.append ?_ ?_ ?_ ?_ fun other => ?_ <;>
        simp [SlotAssembly.route,RecorderCall.entry,RecorderCall.committed,RecorderCall.orphan,
          RecorderCall.owned,htxs]

theorem Holds.commit (h : Holds calls slot a) (index : Nat) (numHashes : UInt64)
    (txs : List CommittedTx) :
    Holds (calls ++ [.committedEntry slot index numHashes txs]) slot (a.commit numHashes txs) := by
  refine h.append ?_ ?_ ?_ ?_ fun other => ?_ <;>
    simp [SlotAssembly.commit,RecorderCall.entry,RecorderCall.committed,RecorderCall.orphan,
      RecorderCall.owned]

theorem active_append :
    Active (calls ++ [c]) slot ↔ Active calls slot ∨ c.activity = some slot := by
  simp [Active,or_and_right,exists_or]

theorem lastMeta_append :
    lastMeta (calls ++ [c]) slot = (c.info slot).or (lastMeta calls slot) := by
  rw [lastMeta,List.filterMap_append,filterMap_singleton]
  cases h : c.info slot with
  | none => simp [lastMeta]
  | some info => simp

theorem open_snoc (h : c.activity = some slot) : Open (calls ++ [c]) slot :=
  ⟨calls,c,[],rfl,h,by simp⟩

theorem Open.active (h : Open calls slot) : Active calls slot := by
  obtain ⟨before,d,after,rfl,hd,-⟩ := h
  exact ⟨d,by simp,hd⟩

theorem Open.append (h : Open calls slot) (hc : ∀ s, c.activity = some s → s ≤ slot) :
    Open (calls ++ [c]) slot := by
  obtain ⟨before,d,after,rfl,hd,hafter⟩ := h
  refine ⟨before,d,after ++ [c],by simp,hd,fun e he => ?_⟩
  rcases List.mem_append.mp he with he | he
  · exact hafter e he
  · rw [List.mem_singleton.mp he]
    exact hc

theorem Open.of_append (h : Open (calls ++ [c]) slot) (hc : c.activity ≠ some slot) :
    Open calls slot ∧ ∀ s, c.activity = some s → s ≤ slot := by
  obtain ⟨before,d,after,heq,hd,hafter⟩ := h
  rcases List.eq_nil_or_concat' after with rfl | ⟨init,last,rfl⟩
  · obtain rfl := List.singleton_inj.mp (List.append_inj' heq rfl).2
    exact absurd hd hc
  · have hsplit : calls ++ [c] = (before ++ d :: init) ++ [last] := by rw [heq]; simp
    obtain ⟨hcalls,hlast⟩ := List.append_inj' hsplit rfl
    obtain rfl := List.singleton_inj.mp hlast
    exact ⟨⟨before,d,init,hcalls,hd,fun e he => hafter e (List.mem_append_left _ he)⟩,
      hafter c (by simp)⟩

theorem EmittedMeta.of_open {info : BufferedBlockMeta} (h : Open calls slot)
    (hinfo : lastMeta calls slot = some info) : EmittedMeta calls slot info :=
  ⟨calls,[],by simp,hinfo,h,by simp,by simp⟩

theorem EmittedMeta.append {info : BufferedBlockMeta} (h : EmittedMeta calls slot info)
    (hc : c.activity ≠ some slot)
    (hclosed : Open calls slot → ∃ later, c.activity = some later ∧ slot < later) :
    EmittedMeta (calls ++ [c]) slot info := by
  obtain ⟨before,after,rfl,hinfo,hopen,hafter,hhead⟩ := h
  refine ⟨before,after ++ [c],by simp,hinfo,hopen,fun d hd => ?_,fun d hd => ?_⟩
  · rcases List.mem_append.mp hd with hd | hd
    · exact hafter d hd
    · rw [List.mem_singleton.mp hd]
      exact hc
  · cases after with
    | nil =>
      obtain rfl : c = d := by simpa using hd
      rw [List.append_nil] at hclosed
      exact hclosed hopen
    | cons first rest => exact hhead d (by simpa using hd)

variable {ctx : RecorderContext} {f : RecordedSlot}

theorem RecordedAs.append (h : RecordedAs calls ctx f) (hc : c.activity ≠ some f.toCalls.slot)
    (hclosed : Open calls f.toCalls.slot →
      ∃ later, c.activity = some later ∧ f.toCalls.slot < later) :
    RecordedAs (calls ++ [c]) ctx f := by
  cases f with
  | skipped s =>
    obtain ⟨hactive,hallowed⟩ := h
    refine ⟨?_,hallowed.imp id (List.mem_append_left _)⟩
    rw [active_append,not_or]
    exact ⟨hactive,hc⟩
  | block s epoch pre txs post blockMeta entries =>
    obtain ⟨hactive,hentries,hpre,hpost,hfilled,howned,info,hinfo,hmeta⟩ := h
    have hne : c.activity ≠ some s := hc
    obtain ⟨hentry,hcommitted,horphan,hown⟩ := silent_of_ne hne
    have hcommittedOf : committedOf (calls ++ [c]) s = committedOf calls s := by
      rw [committedOf_append]
      simpa using hcommitted
    have hownedOf : ∀ sig, (calls ++ [c]).filterMap (RecorderCall.owned s sig) =
        calls.filterMap (RecorderCall.owned s sig) := by
      intro sig
      rw [List.filterMap_append,filterMap_singleton]
      simpa using hown sig
    refine ⟨active_append.mpr (.inl hactive),?_,?_,?_,?_,?_,info,hinfo.append hc hclosed,hmeta⟩
    · rw [hentries,List.filterMap_append,filterMap_singleton]
      simpa using hentry
    · rw [hpre,early_append]
      simpa using fun _ => horphan
    · rw [hpost,late_append]
      simpa using fun _ => horphan
    · rw [hcommittedOf]
      simpa only [ownedOf,hownedOf] using hfilled
    · intro sig hsig
      rw [hownedOf] at hsig
      rw [hcommittedOf]
      exact howned sig hsig

theorem Holds.recordedAs {info : BufferedBlockMeta} {txs : List Transaction} {blockMeta : BlockMeta}
    {epoch : Option EpochMeta} (h : Holds calls slot a) (hopen : Open calls slot)
    (hinfo : lastMeta calls slot = some info)
    (hassembled : RecorderState.Assembled ctx slot a info txs blockMeta) :
    RecordedAs calls ctx (.block slot epoch a.preOrphans txs a.postOrphans blockMeta
      a.entries) := by
  refine ⟨hopen.active,h.entries,h.pre,h.post,fun hnodup => ?_,fun sig hsig => ?_,info,
    .of_open hopen hinfo,hassembled.blockMeta⟩
  · rw [← h.txs] at hnodup ⊢
    refine (hassembled.filled hnodup).imp fun c tx hfill => ?_
    rw [Filled,SlotAssembly.updatesOf] at hfill
    rw [ownedOf]
    cases hsig : c.tx.signatures.head? with
    | none =>
      rw [hsig] at hfill
      exact hfill
    | some sig =>
      rw [hsig,Option.bind_some,h.owned sig] at hfill
      exact hfill
  · rw [← h.txs]
    refine hassembled.owned sig ?_
    rw [← h.owned sig] at hsig
    by_contra hnot
    rw [← AList.lookup_eq_none] at hnot
    simp [hnot] at hsig

end Append

end Jetstreamer.Node
