import Jetstreamer.Lib.Arena
import Jetstreamer.Horizon.Lossless
import Jetstreamer.Horizon.Populate
import Jetstreamer.Archive.Format
set_option autoImplicit false

namespace Jetstreamer.Horizon
open Lib Lencode

/-! Account updates and log lines in their arenas. -/

variable {MAX DATA N : Nat} {ε σ τ : Type} [Raises ε] {spare : Nat → UInt8}

section Model

def UpdateArena.push (view : AccountUpdate) :
    EStateM PushAccountUpdateError (UpdateArena MAX DATA) Unit := fun arena =>
  if hcount : MAX ≤ arena.info.items.length then .error .metaFull arena
  else if hsize : DATA < arena.data.items.length + view.data.length then
    .error .dataArenaFull arena
  else .ok () ⟨⟨arena.info.items ++ [⟨view.pubkey,view.lamports,view.owner,view.executable,
      view.rentEpoch,view.writeVersion,UInt32.ofNat arena.data.items.length,
      UInt32.ofNat view.data.length⟩],by simp; omega⟩,
    ⟨arena.data.items ++ view.data,by simp; omega⟩⟩

/-- The header of a section of bytes: how many there are to be. -/
def decodeDataLen (N : Nat) : Get ε τ {n : Nat // n ≤ N} := do
  let flagged ← decodeLen
  if flagged % 2 = 1 then panic
  else if h : flagged / 2 ≤ N then return ⟨flagged / 2,h⟩
  else panic

theorem length_nil_eq {n : Nat} (h : n = 0) : ([] : Bytes).length = n := h.symm

theorem length_map_range {f : Nat → UInt8} (n : Nat) : ((List.range n).map f).length = n := by simp

/-- One read into the cells of a buffer, the count of which is not looked at: where the reader ends
the cells keep what they held, that is the bytes stored last and `spare` behind them. -/
def ZeroVec.readOver (spare : Nat → UInt8) (old : ZeroVec N UInt8) (n : Nat) :
    Get ε τ {bytes : Bytes // bytes.length = n} := fun input =>
  if h : n = 0 then .ok ⟨[],length_nil_eq h⟩ input
  else if input.bytes = [] then .error (Raises.encode .readerOutOfData) input
  else .ok ⟨(List.range n).map fun i => input.bytes.getD i (old.items.getD i (spare i)),
    length_map_range n⟩ ⟨input.ctx,input.bytes.drop n⟩

def ZeroVec.decodeOver (spare : Nat → UInt8) (old : ZeroVec N UInt8) :
    Get ε τ (ZeroVec N UInt8) := do
  let n ← decodeDataLen N
  let bytes ← old.readOver spare n.1
  return ⟨bytes.1,length_val_le bytes n.2⟩

def UpdateArena.decodeOver (spare : Nat → UInt8) (address : Get ε τ Address)
    (old : UpdateArena MAX DATA) : Get ε τ (UpdateArena MAX DATA) := do
  let info ← decodeZeroVecInPlace .zero (AccountUpdateMeta.decodeInto address) old.info
  let data ← old.data.decodeOver spare
  return ⟨info,data⟩

def LogMessages.decodeOver (spare : Nat → UInt8) (old : LogMessages) : Get ε τ LogMessages := do
  let lens ← old.lens.decodeInto decodeU32
  let data ← old.data.decodeOver spare
  return ⟨lens,data⟩

def updateArena (MAX DATA : Nat) (spare : Nat → UInt8) (putAddress : Address → Put ε σ)
    (getAddress : Get ε τ Address) :
    Arena ε σ τ PushAccountUpdateError (UpdateArena MAX DATA) AccountUpdate where
  empty := ⟨.empty,.empty⟩
  clear := fun old => ⟨old.info.clear,old.data.clear⟩
  push := UpdateArena.push
  encode := encodeUpdateArena putAddress
  decodeInto := UpdateArena.decodeOver spare getAddress
  iter := UpdateArena.iter

/-- The lines from `offset` on. One that ends behind the data stops the program. -/
def linesFrom (data : Bytes) : Nat → List UInt32 → Option (List Bytes)
  | _, [] => some []
  | offset, len :: rest => do
    if data.length < offset + len.toNat then none
    return (data.drop offset).take len.toNat :: (← linesFrom data (offset + len.toNat) rest)

def LogMessages.iter (logs : LogMessages) : Option (List Bytes) :=
  linesFrom logs.data.items 0 logs.lens.items

def logArena (spare : Nat → UInt8) : Arena ε σ τ PushLogError LogMessages Bytes where
  empty := .empty
  clear := fun old => ⟨old.lens.clear,old.data.clear⟩
  push := fun line logs => match logs.push line with
    | .ok next => .ok () next
    | .error e => .error e logs
  encode := encodeLogMessages
  decodeInto := LogMessages.decodeOver spare
  iter := LogMessages.iter

/-- There is an entry and bytes left for one more update. -/
def UpdateFits (MAX DATA : Nat) (updates : List AccountUpdate) (u : AccountUpdate) : Prop :=
  updates.length < MAX ∧ dataLen updates + u.data.length ≤ DATA

def LineFits (lines : List Bytes) (line : Bytes) : Prop :=
  lines.length < maxTxLogMsgs ∧ lines.flatten.length + line.length ≤ maxTxLogData

theorem UpdateArena.push_cases (u : AccountUpdate) (arena : UpdateArena MAX DATA) :
    (¬(arena.info.items.length < MAX ∧ arena.data.items.length + u.data.length ≤ DATA) ∧
      ∃ e, push u arena = .error e arena) ∨
    (arena.info.items.length < MAX ∧ arena.data.items.length + u.data.length ≤ DATA) ∧
      ∃ next, push u arena = .ok () next ∧
        next.info.items = arena.info.items ++ layOut arena.data.items.length [u] ∧
        next.data.items = arena.data.items ++ u.data := by
  unfold push
  split
  · exact .inl ⟨by omega,_,rfl⟩
  · split
    · exact .inl ⟨by omega,_,rfl⟩
    · exact .inr ⟨by omega,_,rfl,rfl,rfl⟩

theorem logArena_push_cases (spare : Nat → UInt8) (line : Bytes) (logs : LogMessages) :
    (¬(logs.lens.items.length < maxTxLogMsgs ∧
        logs.data.items.length + line.length ≤ maxTxLogData) ∧
      ∃ e, (logArena spare : Arena ε σ τ _ _ _).push line logs = .error e logs) ∨
    (logs.lens.items.length < maxTxLogMsgs ∧
        logs.data.items.length + line.length ≤ maxTxLogData) ∧
      ∃ next, (logArena spare : Arena ε σ τ _ _ _).push line logs = .ok () next ∧
        next.lens.items = logs.lens.items ++ [UInt32.ofNat line.length] ∧
        next.data.items = logs.data.items ++ line := by
  simp only [logArena,LogMessages.push]
  by_cases hlines : maxTxLogMsgs ≤ logs.lens.items.length
  · exact .inl ⟨by omega,_,by rw [dif_pos hlines]⟩
  · by_cases hdata : maxTxLogData < logs.data.items.length + line.length
    · exact .inl ⟨by omega,_,by rw [dif_neg hlines,dif_pos hdata]⟩
    · exact .inr ⟨by omega,_,by rw [dif_neg hlines,dif_neg hdata],rfl,rfl⟩

end Model

section Sections

variable {α β γ : Type} {first : Get ε τ α} {second third : Get ε τ β} {f : α → β → γ}
  {input : Input τ}

omit [Raises ε] in
theorem sections_ok {Q : γ → Prop} :
    (∀ c left, (do let a ← first; let b ← second; return f a b) input = .ok c left → Q c) ↔
      ∀ a middle, first input = .ok a middle → ∀ b left, second middle = .ok b left →
        Q (f a b) := by
  constructor
  · intro h a middle hfirst b left hsecond
    refine h (f a b) left ?_
    rw [Get.bind_of_ok hfirst,Get.bind_of_ok hsecond]
    rfl
  · intro h c left hread
    obtain ⟨a,middle,hfirst,hread⟩ := Get.bind_eq_ok hread
    obtain ⟨b,last,hsecond,hread⟩ := Get.bind_eq_ok hread
    cases hread
    exact h a middle hfirst b left hsecond

omit [Raises ε] in
theorem sections_mono {c : γ} {left : Input τ}
    (hsecond : ∀ b middle left, second middle = .ok b left → third middle = .ok b left)
    (h : (do let a ← first; let b ← second; return f a b) input = .ok c left) :
    (do let a ← first; let b ← third; return f a b) input = .ok c left := by
  obtain ⟨a,middle,hfirst,h⟩ := Get.bind_eq_ok h
  obtain ⟨b,last,hread,h⟩ := Get.bind_eq_ok h
  rw [Get.bind_of_ok hfirst,Get.bind_of_ok (hsecond b middle last hread)]
  exact h

end Sections

section Lists

variable {P : σ → τ → Prop} {putAddress : Address → Put ε σ} {getAddress : Get ε τ Address}

theorem ZeroVec.readOver_of_ok {old : ZeroVec N UInt8} {n : Nat}
    {bytes : {bytes : Bytes // bytes.length = n}} {input left : Input τ}
    (h : (readBuf n : Get ε τ _) input = .ok bytes left) :
    (old.readOver spare n : Get ε τ _) input = .ok bytes left := by
  rw [readBuf] at h
  rw [readOver]
  by_cases hn : n = 0
  · rwa [dif_pos hn] at h ⊢
  by_cases hnil : input.bytes = []
  · rw [dif_neg hn,if_pos hnil] at h
    cases h
  rw [dif_neg hn,if_neg hnil,Get.take] at h
  rw [dif_neg hn,if_neg hnil]
  split at h
  · rename_i hlen
    cases h
    congr 2
    refine List.ext_getElem (by simp [hlen]) fun i hi _ => ?_
    have hin : i < input.bytes.length := by
      rw [List.length_map,List.length_range] at hi
      omega
    simp [List.getElem?_eq_getElem hin]
  · cases h

/-- A read that finds all its bytes leaves no old cell. -/
theorem ZeroVec.decodeOver_of_ok {old v : ZeroVec N UInt8} {input left : Input τ}
    (h : (old.decodeIntoU8 : Get ε τ _) input = .ok v left) :
    (old.decodeOver spare : Get ε τ _) input = .ok v left := by
  obtain ⟨flagged,middle,hlen,h⟩ := Get.bind_eq_ok h
  rw [decodeOver,decodeDataLen,bind_assoc,Get.bind_of_ok hlen]
  by_cases hodd : flagged % 2 = 1
  · rw [if_pos hodd] at h
    cases h
  rw [if_neg hodd,readPayload] at h
  rw [if_neg hodd]
  by_cases hfits : flagged / 2 ≤ N
  · rw [dif_pos hfits] at h
    obtain ⟨bytes,last,hread,h⟩ := Get.bind_eq_ok h
    rw [dif_pos hfits,pure_bind,Get.bind_of_ok (readOver_of_ok hread)]
    exact h
  · rw [dif_neg hfits] at h
    cases h

theorem layOut_append (offset : Nat) (us vs : List AccountUpdate) :
    layOut offset (us ++ vs) = layOut offset us ++ layOut (offset + dataLen us) vs := by
  induction us generalizing offset with
  | nil => rfl
  | cons u us ih =>
    simp only [List.cons_append,layOut,ih,dataLen,List.map_cons,List.sum_cons,Nat.add_assoc]

theorem updateArena_refines (hDATA : DATA < 2 ^ 32)
    (haddr : ∀ a, Reads P (putAddress a) getAddress a P) :
    (updateArena MAX DATA spare putAddress getAddress).Refines P (UpdateFits MAX DATA)
      fun arena updates =>
        arena.info.items = layOut 0 updates ∧ arena.data.items = updates.flatMap (·.data) where
  empty := ⟨rfl,rfl⟩
  clear _ := ⟨rfl,rfl⟩
  push u arena updates := by
    rintro ⟨hinfos,hbytes⟩
    have hlen : arena.data.items.length = dataLen updates := by
      rw [hbytes,List.length_flatMap]
      rfl
    have hcount : arena.info.items.length = updates.length := by rw [hinfos,layOut_length]
    have hcases := UpdateArena.push_cases u arena
    rw [hlen,hcount] at hcases
    refine hcases.imp id fun ⟨hfits,next,hpush,hinfo,hdata⟩ => ⟨hfits,next,hpush,?_⟩
    rw [hinfo,hdata,layOut_append,hinfos,Nat.zero_add,hbytes]
    exact ⟨rfl,by simp⟩
  reads arena old := by
    refine (reads_updateArena haddr arena old).of_ok fun input arena left h => ?_
    exact sections_mono (fun _ _ _ => ZeroVec.decodeOver_of_ok) h
  iter arena updates := by
    rintro ⟨hinfos,hbytes⟩
    have hlen := arena.data.fits
    rw [hbytes,List.length_flatMap] at hlen
    change arena.info.items.mapM _ = _
    rw [hinfos,hbytes]
    exact view_layOut [] (by rw [List.length_nil,Nat.zero_add]; exact hlen.trans_lt hDATA)

theorem linesFrom_append (before : Bytes) {lines : List Bytes}
    (h : lines.flatten.length < 2 ^ 32) :
    linesFrom (before ++ lines.flatten) before.length
      (lines.map fun line => UInt32.ofNat line.length) = some lines := by
  induction lines generalizing before with
  | nil => rfl
  | cons line rest ih =>
    rw [List.flatten_cons,List.length_append] at h
    have hlen : (UInt32.ofNat line.length).toNat = line.length :=
      UInt32.toNat_ofNat_of_lt' (by rw [UInt32.size]; omega)
    have hrest := ih (before ++ line) (by omega)
    rw [List.length_append,List.append_assoc] at hrest
    simp [linesFrom,hlen,hrest]

theorem logArena_refines : (logArena spare : Arena ε σ τ _ _ _).Refines P LineFits
    fun logs lines => logs.lens.items = lines.map (fun line => UInt32.ofNat line.length) ∧
      logs.data.items = lines.flatten where
  empty := ⟨rfl,rfl⟩
  clear _ := ⟨rfl,rfl⟩
  push line logs lines := by
    rintro ⟨hall,hbytes⟩
    have hcases := logArena_push_cases (ε := ε) (σ := σ) (τ := τ) spare line logs
    rw [hbytes,hall,List.length_map] at hcases
    refine hcases.imp id fun ⟨hfits,next,hpush,hlens,hdata⟩ => ⟨hfits,next,hpush,?_⟩
    simp [hlens,hdata]
  reads logs old := by
    refine (reads_logMessages logs).of_ok fun input logs left h => ?_
    rw [← LogMessages.decodeInto_eq old] at h
    exact sections_mono (fun _ _ _ => ZeroVec.decodeOver_of_ok) h
  iter logs lines := by
    rintro ⟨hall,hbytes⟩
    have hlen := logs.data.fits
    rw [hbytes] at hlen
    change linesFrom _ 0 _ = _
    rw [hall,hbytes]
    exact linesFrom_append [] (hlen.trans_lt (by decide))

/-- The bytes the arenas of transactions, blocks and epochs have room for. -/
def updateArenas : List Nat :=
  [maxTxAccountUpdateData,maxSlotPreUpdateData,maxSlotPostUpdateData,maxEpochUpdateData]

/-- Through any sequence of calls both arenas are lists to their callers. -/
theorem arenas_actAsLists (spare : Nat → UInt8) (hDATA : DATA ∈ updateArenas)
    (haddr : ∀ a, Reads P (putAddress a) getAddress a P) :
    (updateArena MAX DATA spare putAddress getAddress).ActsAsList P (UpdateFits MAX DATA) ∧
      (logArena spare : Arena ε σ τ _ _ _).ActsAsList P LineFits := by
  have hall : ∀ size ∈ updateArenas, size < 2 ^ 32 := by decide
  exact ⟨(updateArena_refines (hall DATA hDATA) haddr).actsAsList,logArena_refines.actsAsList⟩

def oneUpdateArena := updateArena 1 maxTxAccountUpdateData (fun _ => 0)
  (encodeFixed : Address → Put Archive.Failure Unit)
  (decodeFixed 32 : Get Archive.Failure Unit Address)

def zeroUpdate (data : Bytes) : AccountUpdate := ⟨zeroAddress,0,zeroAddress,false,0,0,data⟩

/-- The second update finds no entry, and the second line no bytes. -/
theorem oneUpdateArena_actsAsList :
    (∃ next, oneUpdateArena.push (zeroUpdate [7]) oneUpdateArena.empty = .ok () next ∧
      oneUpdateArena.iter next = some [zeroUpdate [7]] ∧
      ∃ e, oneUpdateArena.push (zeroUpdate [8]) next = .error e next) ∧
    ∃ next, let arena : Arena Archive.Failure Unit Unit _ _ _ := logArena fun _ => 0
      arena.push [65] arena.empty = .ok () next ∧ arena.iter next = some [[65]] ∧
      ∃ e, arena.push (List.replicate maxTxLogData 66) next = .error e next := by
  obtain ⟨hupdates,hlogs⟩ : oneUpdateArena.ActsAsList (fun _ _ => True) (UpdateFits 1 _) ∧ _ :=
    arenas_actAsLists (fun _ => 0) (by decide) reads_fixed
  constructor
  · obtain ⟨next,hpush,hiter⟩ := (hupdates _ _ .empty).2.1 (zeroUpdate [7])
      ⟨by decide,by decide⟩
    refine ⟨next,hpush,hiter,(hupdates _ _ (.pushed .empty hpush)).2.2.1 _ ?_⟩
    exact fun hfits => absurd hfits.1 (by decide)
  · obtain ⟨next,hpush,hiter⟩ := (hlogs _ _ .empty).2.1 [65] ⟨by decide,by decide⟩
    refine ⟨next,hpush,hiter,(hlogs _ _ (.pushed .empty hpush)).2.2.1 _ fun hfits => ?_⟩
    have := hfits.2
    rw [List.length_replicate] at this
    simp at this

end Lists

section Decoded

/-- The data of an update lies in a part of that many bytes. -/
def AccountUpdateMeta.InRange (n : Nat) (m : AccountUpdateMeta) : Prop :=
  m.dataOffset.toNat + m.dataLen.toNat ≤ n

def UpdateArena.WellFormed (arena : UpdateArena MAX DATA) : Prop :=
  arena.iter ≠ none ∧ ∀ m ∈ arena.info.items, m.InRange arena.data.items.length

/-- Where the last line ends. -/
def endOf (lens : List UInt32) : Nat := (lens.map UInt32.toNat).sum

def LogMessages.WellFormed (logs : LogMessages) : Prop :=
  logs.iter ≠ none ∧ endOf logs.lens.items ≤ logs.data.items.length

theorem UpdateArena.wellFormed_iff {arena : UpdateArena MAX DATA} :
    arena.WellFormed ↔ ∀ m ∈ arena.info.items, m.InRange arena.data.items.length := by
  refine ⟨And.right,fun h => ⟨?_,h⟩⟩
  rw [iter]
  generalize arena.info.items = infos at h ⊢
  induction infos with
  | nil => simp
  | cons m rest ih =>
    obtain ⟨hm,hrest⟩ := List.forall_mem_cons.mp h
    obtain ⟨views,hviews⟩ := Option.ne_none_iff_exists'.mp (ih hrest)
    rw [AccountUpdateMeta.InRange] at hm
    simp [AccountUpdateMeta.view,hm,hviews]

theorem linesFrom_ne_none {data : Bytes} {lens : List UInt32} {offset : Nat}
    (h : offset + endOf lens ≤ data.length) : linesFrom data offset lens ≠ none := by
  induction lens generalizing offset with
  | nil => simp [linesFrom]
  | cons len rest ih =>
    have hend : endOf (len :: rest) = len.toNat + endOf rest := by simp [endOf]
    obtain ⟨lines,hlines⟩ := Option.ne_none_iff_exists'.mp
      (@ih (offset + len.toNat) (by omega))
    have hlen : ¬data.length < offset + len.toNat := by omega
    simp [linesFrom,hlen,hlines]

theorem LogMessages.wellFormed_iff {logs : LogMessages} :
    logs.WellFormed ↔ endOf logs.lens.items ≤ logs.data.items.length :=
  ⟨And.right,fun h => ⟨linesFrom_ne_none (by rwa [Nat.zero_add]),h⟩⟩

variable {putAddress : Address → Put ε σ} {getAddress : Get ε τ Address}

theorem UpdateArena.WellFormed.afterPush {arena : UpdateArena MAX DATA} (h : arena.WellFormed)
    (u : AccountUpdate) :
    ((updateArena MAX DATA spare putAddress getAddress).afterPush arena u).WellFormed := by
  rw [Arena.afterPush]
  obtain ⟨-,e,hpush⟩ | ⟨-,next,hpush,hinfo,hdata⟩ := UpdateArena.push_cases u arena
  · simpa only [updateArena,hpush] using h
  · simp only [updateArena,hpush]
    rw [wellFormed_iff] at h ⊢
    rw [hinfo,hdata]
    have hoffset := Nat.mod_le arena.data.items.length (2 ^ 32)
    have hlen := Nat.mod_le u.data.length (2 ^ 32)
    intro m hm
    rw [AccountUpdateMeta.InRange,List.length_append]
    rcases List.mem_append.mp hm with hm | hm
    · exact le_add_right (h m hm)
    · obtain rfl := List.mem_singleton.mp hm
      simp only [UInt32.toNat_ofNat']
      omega

theorem LogMessages.WellFormed.afterPush {logs : LogMessages} (h : logs.WellFormed)
    (line : Bytes) : ((logArena spare : Arena ε σ τ _ _ _).afterPush logs line).WellFormed := by
  rw [Arena.afterPush]
  obtain ⟨-,e,hpush⟩ | ⟨-,next,hpush,hlens,hdata⟩ :=
    logArena_push_cases (ε := ε) (σ := σ) (τ := τ) spare line logs
  · simpa only [hpush] using h
  · simp only [hpush]
    rw [wellFormed_iff] at h ⊢
    have hlen := Nat.mod_le line.length (2 ^ 32)
    rw [hlens,hdata,endOf,List.map_append,List.sum_append,List.length_append]
    simp only [endOf] at h
    simp
    omega

theorem ZeroVec.readOver_eq_ok {old : ZeroVec N UInt8} {n : Nat} {input : Input τ} :
    (∃ bytes left, (old.readOver spare n : Get ε τ _) input = .ok bytes left) ↔
      n = 0 ∨ input.bytes ≠ [] := by
  unfold readOver
  by_cases hn : n = 0
  · simp [hn]
  · by_cases hnil : input.bytes = [] <;> simp [hn,hnil]

/-- Of the bytes of a section only the number announced is checked, and that one follows at all. -/
theorem ZeroVec.decodeOver_length_iff {old : ZeroVec N UInt8} {Q : Nat → Prop}
    {input : Input τ} :
    (∀ v left, (old.decodeOver spare : Get ε τ _) input = .ok v left → Q v.items.length) ↔
      ∀ n left, (decodeDataLen N : Get ε τ _) input = .ok n left → n.1 = 0 ∨ left.bytes ≠ [] →
        Q n.1 := by
  constructor
  · intro h n middle hlen hfollows
    obtain ⟨bytes,left,hread⟩ := (readOver_eq_ok (ε := ε)).mpr hfollows
    have hv := h ⟨bytes.1,length_val_le bytes n.2⟩ left (by
      rw [decodeOver,Get.bind_of_ok hlen,Get.bind_of_ok hread]
      rfl)
    rwa [bytes.2] at hv
  · intro h v left hread
    obtain ⟨n,middle,hlen,hread⟩ := Get.bind_eq_ok hread
    obtain ⟨bytes,last,hread,hv⟩ := Get.bind_eq_ok hread
    cases hv
    rw [bytes.2]
    exact h n middle hlen (readOver_eq_ok.mp ⟨bytes,_,hread⟩)

end Decoded

end Jetstreamer.Horizon
