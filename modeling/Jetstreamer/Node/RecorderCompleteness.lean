import Jetstreamer.Node.RecorderRuns
set_option autoImplicit false

namespace Jetstreamer.Node
open Lib Horizon Archive Ggjet

section Slots

variable {a b c s : UInt64}

theorem mem_slotsBetween : s ∈ slotsBetween a b ↔ a ≤ s ∧ s < b := by
  simp only [slotsBetween,List.mem_map,List.mem_range'_1,UInt64.le_iff_toNat_le,
    UInt64.lt_iff_toNat_lt]
  have hb := b.toNat_lt
  constructor
  · rintro ⟨n,hn,rfl⟩
    rw [UInt64.toNat_ofNat_of_lt' (by rw [UInt64.size]; omega)]
    omega
  · intro hs
    exact ⟨s.toNat,by omega,UInt64.ofNat_toNat⟩

theorem mem_slotsThrough : s ∈ slotsThrough a b ↔ a ≤ s ∧ s ≤ b := by
  simp only [slotsThrough,List.mem_map,List.mem_range'_1,UInt64.le_iff_toNat_le]
  have hb := b.toNat_lt
  constructor
  · rintro ⟨n,hn,rfl⟩
    rw [UInt64.toNat_ofNat_of_lt' (by rw [UInt64.size]; omega)]
    omega
  · intro hs
    exact ⟨s.toNat,by omega,UInt64.ofNat_toNat⟩

theorem range'_split {i j k : Nat} (hij : i ≤ j) (hjk : j ≤ k) :
    List.range' i (j - i) ++ List.range' j (k - j) = List.range' i (k - i) := by
  obtain ⟨m,rfl⟩ := Nat.exists_eq_add_of_le hij
  obtain ⟨n,rfl⟩ := Nat.exists_eq_add_of_le hjk
  rw [Nat.add_sub_cancel_left,Nat.add_sub_cancel_left,List.range'_append_1,Nat.add_assoc,
    Nat.add_sub_cancel_left]

theorem slotsBetween_append (hab : a ≤ b) (hbc : b ≤ c) :
    slotsBetween a b ++ slotsBetween b c = slotsBetween a c := by
  rw [UInt64.le_iff_toNat_le] at hab hbc
  rw [slotsBetween,slotsBetween,slotsBetween,← List.map_append,range'_split hab hbc]

theorem slotsBetween_append_through (hab : a ≤ b) (hbc : b.toNat ≤ c.toNat + 1) :
    slotsBetween a b ++ slotsThrough b c = slotsThrough a c := by
  rw [UInt64.le_iff_toNat_le] at hab
  rw [slotsBetween,slotsThrough,slotsThrough,← List.map_append,range'_split hab hbc]

theorem toNat_succ (h : a < b) : (a + 1).toNat = a.toNat + 1 := by
  rw [UInt64.lt_iff_toNat_lt] at h
  have hb := b.toNat_lt
  rw [UInt64.toNat_add]
  simp only [UInt64.reduceToNat]
  omega

theorem slotsBetween_succ (h : a < b) : slotsBetween a (a + 1) = [a] := by
  rw [slotsBetween,toNat_succ h]
  simp

theorem slotsBetween_extend (hab : a ≤ b) (hbc : b ≤ c) (hcs : c < s) :
    slotsBetween a b ++ (slotsBetween b c ++ [c]) = slotsBetween a (c + 1) := by
  have hsucc : c ≤ c + 1 := by
    rw [UInt64.le_iff_toNat_le,toNat_succ hcs]
    omega
  rw [← slotsBetween_succ hcs,← List.append_assoc,slotsBetween_append hab hbc,
    slotsBetween_append (hab.trans hbc) hsucc]

theorem slotsBetween_eq_nil (h : b ≤ a) : slotsBetween a b = [] := by
  rw [UInt64.le_iff_toNat_le] at h
  simp only [slotsBetween,List.map_eq_nil_iff,List.range'_eq_nil_iff]
  omega

end Slots

namespace RecorderState

variable {ctx : RecorderContext} {st st' st'' : RecorderState} {slot : UInt64} {a : SlotAssembly}

structure Kept (st st' : RecorderState) : Prop where
  slotStart : st'.slotStart = st.slotStart
  slotEndInclusive : st'.slotEndInclusive = st.slotEndInclusive
  assemblies : st'.assemblies = st.assemblies
  forceSkipped : st'.forceSkipped = st.forceSkipped
  finished : st'.finished = st.finished
  writerStart : st'.writer.slotStart = st.writer.slotStart
  writerEnd : st'.writer.slotEnd = st.writer.slotEnd

theorem Kept.refl (st : RecorderState) : Kept st st := ⟨rfl,rfl,rfl,rfl,rfl,rfl,rfl⟩

theorem Kept.trans (h : Kept st st') (h' : Kept st' st'') : Kept st st'' where
  slotStart := h'.slotStart.trans h.slotStart
  slotEndInclusive := h'.slotEndInclusive.trans h.slotEndInclusive
  assemblies := h'.assemblies.trans h.assemblies
  forceSkipped := h'.forceSkipped.trans h.forceSkipped
  finished := h'.finished.trans h.finished
  writerStart := h'.writerStart.trans h.writerStart
  writerEnd := h'.writerEnd.trans h.writerEnd

def Writes (ctx : RecorderContext) (st st' : RecorderState) (frames : List RecordedSlot) : Prop :=
  st'.emitted = st.emitted ++ frames ∧
    (frames.map RecordedSlot.toCalls).foldlM (ArchiveWriter.writeCalls ctx.env.toEnv) st.writer =
      .ok st'.writer

theorem Writes.trans {frames frames' : List RecordedSlot} (h : Writes ctx st st' frames)
    (h' : Writes ctx st' st'' frames') : Writes ctx st st'' (frames ++ frames') := by
  refine ⟨by rw [h'.1,h.1,List.append_assoc],?_⟩
  rw [List.map_append,List.foldlM_append,h.2,ok_bind,h'.2]

theorem Writes.single {f : RecordedSlot} (hemitted : st'.emitted = st.emitted ++ [f])
    (hwriter : st.writer.writeCalls ctx.env.toEnv f.toCalls = .ok st'.writer) :
    Writes ctx st st' [f] := by
  refine ⟨hemitted,?_⟩
  rw [List.map_singleton,List.foldlM_cons,hwriter,ok_bind]
  rfl

theorem writeSkipped_all {gaps : List UInt64} (h : gaps.foldlM (writeSkipped ctx) st = .ok st') :
    Kept st st' ∧ st'.blockMetas = st.blockMetas ∧ st'.lastEmitted = st.lastEmitted ∧
      Writes ctx st st' (gaps.map .skipped) ∧
      ∀ g ∈ gaps, (ctx.presence.state g.toNat ≠ some .present ∨ g ∈ st.forceSkipped) ∧
        g < st.writer.slotEnd := by
  induction gaps generalizing st with
  | nil =>
    cases h
    exact ⟨.refl _,rfl,rfl,⟨by simp,rfl⟩,by simp⟩
  | cons gap rest ih =>
    obtain ⟨middle,hgap,hrest⟩ := bind_ok h
    obtain ⟨hallowed,w,hwrite,hmiddle⟩ := writeSkipped_ok hgap
    obtain ⟨⟨-,hstop,-⟩,-,hsame,hsame'⟩ := ArchiveWriter.writeCalls_slot hwrite
    obtain ⟨hkept,hmetas,hlast,hwrites,hgaps⟩ := ih hrest
    have hwriter : middle.writer = w := by rw [hmiddle]
    have hfirst : Kept st middle := by
      rw [hmiddle]
      exact ⟨rfl,rfl,rfl,rfl,rfl,hsame,hsame'⟩
    have hone : Writes ctx st middle [.skipped gap] :=
      .single (by rw [hmiddle]) (by rw [hwriter]; exact hwrite)
    refine ⟨hfirst.trans hkept,?_,?_,hone.trans hwrites,fun g hg => ?_⟩
    · rw [hmetas,hmiddle]
    · rw [hlast,hmiddle]
    · rcases List.mem_cons.mp hg with rfl | hg
      · exact ⟨hallowed,hstop⟩
      · rw [← hfirst.forceSkipped,← hfirst.writerEnd]
        exact hgaps g hg

structure Emits (ctx : RecorderContext) (st : RecorderState) (slot : UInt64) (a : SlotAssembly)
    (st' : RecorderState) : Prop where
  kept : Kept st st'
  blockMetas : st'.blockMetas = st.blockMetas.erase slot
  lastEmitted : st'.lastEmitted = some slot
  lastSlot : st'.writer.lastSlot = some slot
  inRange : st.writer.slotStart ≤ slot ∧ slot < st.writer.slotEnd
  fresh : slotsBetween st.next slot = [] → ∀ last, st.writer.lastSlot = some last → last < slot
  gaps : ∀ g ∈ slotsBetween st.next slot,
    ctx.presence.state g.toNat ≠ some .present ∨ g ∈ st.forceSkipped
  frames : ∃ info txs blockMeta epoch, st.blockMetas.find slot = some info ∧
    Assembled ctx slot a info txs blockMeta ∧
    Writes ctx st st' ((slotsBetween st.next slot).map .skipped ++
      [.block slot epoch a.preOrphans txs a.postOrphans blockMeta a.entries])

theorem emitSlot_ok (h : st.emitSlot ctx slot a = .ok st') : Emits ctx st slot a st' := by
  obtain ⟨st1,hgaps,h⟩ := bind_ok h
  obtain ⟨hkept,hmetas,-,hwrites,hallowed⟩ := writeSkipped_all hgaps
  have hnothing : slotsBetween st.next slot = [] → st1.writer = st.writer := by
    intro hnil
    rw [hnil] at hgaps
    cases hgaps
    rfl
  cases hinfo : st1.blockMetas.find slot with
  | none =>
    rw [hinfo] at h
    cases h
  | some info =>
    rw [hinfo] at h
    obtain ⟨st2,hselected,h⟩ := bind_ok h
    obtain ⟨txs,blockMeta,w,hassembled,hwrite,hst⟩ := writeBlock_ok h
    have hst2 := writeSelected_ok hselected
    have hwriter2 : st2.writer = st1.writer := by rw [hst2]
    have hemitted2 : st2.emitted = st1.emitted := by rw [hst2]
    rw [hwriter2] at hwrite
    obtain ⟨⟨hstart,hstop,hlast⟩,hnext,hsame,hsame'⟩ := ArchiveWriter.writeCalls_slot hwrite
    have hblock : Kept st1 st' := by
      rw [hst,hst2]
      exact ⟨rfl,rfl,rfl,rfl,rfl,hsame,hsame'⟩
    have hone : Writes ctx st1 st' [.block slot (st2.epochMeta slot info) a.preOrphans txs
        a.postOrphans blockMeta a.entries] :=
      .single (by rw [hst,← hemitted2]) (by rw [hwrite,hst])
    exact {
      kept := hkept.trans hblock
      blockMetas := by rw [hst,hst2,hmetas]
      lastEmitted := by rw [hst]
      lastSlot := by rw [hst]; exact hnext
      inRange := by
        rw [← hkept.writerStart,← hkept.writerEnd]
        exact ⟨hstart,hstop⟩
      fresh := fun hnil => by
        rw [← hnothing hnil]
        exact hlast
      gaps := fun g hg => (hallowed g hg).1
      frames := ⟨info,txs,blockMeta,_,by rw [← hmetas,hinfo],hassembled,hwrites.trans hone⟩ }

variable {w₀ : ArchiveWriter} {past : List RecorderCall} {boundary : UInt64} {c : RecorderCall}

structure Coherent (w₀ : ArchiveWriter) (st : RecorderState) : Prop where
  running : st.finished = false
  slotStart : st.slotStart = w₀.slotStart
  slotEndInclusive : st.slotEndInclusive = w₀.slotEnd - 1
  writerStart : st.writer.slotStart = w₀.slotStart
  writerEnd : st.writer.slotEnd = w₀.slotEnd
  lastSlot : st.writer.lastSlot = st.lastEmitted
  inRange : ∀ last, st.lastEmitted = some last → st.slotStart ≤ last ∧ last < w₀.slotEnd

theorem next_of_last {last : UInt64} (h : st.lastEmitted = some last) : st.next = last + 1 := by
  rw [next,h]

theorem next_of_none (h : st.lastEmitted = none) : st.next = st.slotStart := by
  rw [next,h]

theorem Coherent.emitSlot (h : Coherent w₀ st) (hemit : st.emitSlot ctx slot a = .ok st') :
    Coherent w₀ st' := by
  have hemits := emitSlot_ok hemit
  exact {
    running := hemits.kept.finished.trans h.running
    slotStart := hemits.kept.slotStart.trans h.slotStart
    slotEndInclusive := hemits.kept.slotEndInclusive.trans h.slotEndInclusive
    writerStart := hemits.kept.writerStart.trans h.writerStart
    writerEnd := hemits.kept.writerEnd.trans h.writerEnd
    lastSlot := hemits.lastSlot.trans hemits.lastEmitted.symm
    inRange := fun last hlast => by
      rw [hemits.lastEmitted] at hlast
      cases hlast
      rw [hemits.kept.slotStart,h.slotStart,← h.writerStart,← h.writerEnd]
      exact hemits.inRange }

theorem Coherent.next_le (h : Coherent w₀ st) (hemit : st.emitSlot ctx slot a = .ok st') :
    st.next ≤ slot := by
  have hemits := emitSlot_ok hemit
  by_contra hbehind
  rw [not_le] at hbehind
  have hfresh := hemits.fresh (slotsBetween_eq_nil hbehind.le)
  rw [h.lastSlot] at hfresh
  cases hlast : st.lastEmitted with
  | none =>
    rw [next_of_none hlast,h.slotStart,← h.writerStart] at hbehind
    exact absurd hemits.inRange.1 (not_le.mpr hbehind)
  | some last =>
    have hless := hfresh last hlast
    rw [next_of_last hlast] at hbehind
    have hsucc := toNat_succ hless
    rw [UInt64.lt_iff_toNat_lt] at hless hbehind
    omega

theorem Coherent.slotStart_le (h : Coherent w₀ st) : st.slotStart ≤ st.next := by
  cases hlast : st.lastEmitted with
  | none => rw [next_of_none hlast]
  | some last =>
    obtain ⟨hstart,hstop⟩ := h.inRange last hlast
    have hsucc := toNat_succ hstop
    rw [next_of_last hlast]
    rw [UInt64.le_iff_toNat_le] at hstart ⊢
    omega

structure Tracks (ctx : RecorderContext) (w₀ : ArchiveWriter) (past : List RecorderCall)
    (st : RecorderState) : Prop extends Coherent w₀ st where
  written : (st.emitted.map RecordedSlot.toCalls).foldlM
    (ArchiveWriter.writeCalls ctx.env.toEnv) w₀ = .ok st.writer
  slots : st.emitted.map (fun f => f.toCalls.slot) = slotsBetween st.slotStart st.next
  assembly : ∀ slot, st.next ≤ slot → Holds past slot ((st.assemblies.find slot).getD .default)
  waiting : ∀ slot, (st.assemblies.find slot).isSome → st.next ≤ slot ∧ Open past slot
  active : ∀ slot, st.next ≤ slot → Active past slot → (st.assemblies.find slot).isSome
  metas : ∀ slot, st.next ≤ slot → st.blockMetas.find slot = lastMeta past slot
  forced : ∀ slot ∈ st.forceSkipped, .forceSkipped slot ∈ past

def Tells (ctx : RecorderContext) (past : List RecorderCall) (st st' : RecorderState) : Prop :=
  ∃ frames, st'.emitted = st.emitted ++ frames ∧ ∀ f ∈ frames, RecordedAs past ctx f

theorem Tells.refl : Tells ctx past st st := ⟨[],by simp,by simp⟩

theorem Tells.trans (h : Tells ctx past st st') (h' : Tells ctx past st' st'') :
    Tells ctx past st st'' := by
  obtain ⟨frames,hemitted,hframes⟩ := h
  obtain ⟨frames',hemitted',hframes'⟩ := h'
  refine ⟨frames ++ frames',by rw [hemitted',hemitted,List.append_assoc],fun f hf => ?_⟩
  exact (List.mem_append.mp hf).elim (hframes f) (hframes' f)

theorem Tracks.emitSlot {rest : List (UInt64 × SlotAssembly)} (h : Tracks ctx w₀ past st)
    (hfirst : st.assemblies.entries = (slot,a) :: rest)
    (hemit : { st with assemblies := st.assemblies.erase slot }.emitSlot ctx slot a = .ok st') :
    Tracks ctx w₀ past st' ∧ Tells ctx past st st' ∧ st'.assemblies.entries = rest := by
  have hemits := emitSlot_ok hemit
  have hcoherent : Coherent w₀ { st with assemblies := st.assemblies.erase slot } :=
    ⟨h.running,h.slotStart,h.slotEndInclusive,h.writerStart,h.writerEnd,h.lastSlot,h.inRange⟩
  have hnext : st.next ≤ slot := hcoherent.next_le hemit
  have hsucc : st'.next.toNat = slot.toNat + 1 := by
    rw [next_of_last hemits.lastEmitted,toNat_succ hemits.inRange.2]
  have hlater : ∀ s, st'.next ≤ s → st.next ≤ s ∧ s ≠ slot := by
    intro s hs
    rw [UInt64.le_iff_toNat_le] at hs hnext ⊢
    exact ⟨by omega,fun heq => by rw [heq] at hs; omega⟩
  obtain ⟨hfind,hleast⟩ := OrderedMap.find_first hfirst
  obtain ⟨-,hopen⟩ := h.waiting slot (by rw [hfind]; rfl)
  have hassemblies : ∀ s, st'.assemblies.find s =
      if s = slot then none else st.assemblies.find s := by
    intro s
    rw [hemits.kept.assemblies,OrderedMap.find_erase]
  have hgap : ∀ g ∈ slotsBetween st.next slot, ¬Active past g := by
    intro g hg hactive
    obtain ⟨hge,hlt⟩ := mem_slotsBetween.mp hg
    exact absurd (hleast g (h.active g hge hactive)) (not_le.mpr hlt)
  have hholds : Holds past slot a := by
    have := h.assembly slot hnext
    rwa [hfind] at this
  obtain ⟨info,txs,blockMeta,epoch,hinfo,hassembled,hwrites⟩ := hemits.frames
  have hemitted : st'.emitted = st.emitted ++ ((slotsBetween st.next slot).map .skipped ++
    [.block slot epoch a.preOrphans txs a.postOrphans blockMeta a.entries]) := hwrites.1
  refine ⟨{ hcoherent.emitSlot hemit with
    written := ?_, slots := ?_, assembly := fun s hs => ?_, waiting := fun s hs => ?_,
    active := fun s hs hactive => ?_, metas := fun s hs => ?_, forced := ?_ },
    ⟨_,hemitted,fun f hf => ?_⟩,?_⟩
  · rw [hwrites.1,List.map_append,List.foldlM_append]
    exact (congrArg (· >>= _) h.written).trans hwrites.2
  · have hstart : st'.slotStart = st.slotStart := hemits.kept.slotStart
    rw [hemitted,List.map_append,h.slots,List.map_append,List.map_map,List.map_singleton,hstart,
      next_of_last hemits.lastEmitted,
      ← slotsBetween_extend h.slotStart_le hnext hemits.inRange.2]
    congr 2
    exact List.map_id _
  · obtain ⟨hge,hne⟩ := hlater s hs
    rw [hassemblies,if_neg hne]
    exact h.assembly s hge
  · rw [hassemblies] at hs
    split at hs
    · cases hs
    · rename_i hne
      refine ⟨?_,(h.waiting s hs).2⟩
      have hle := hleast s hs
      have hlt : slot < s := lt_of_le_of_ne hle (Ne.symm hne)
      rw [UInt64.lt_iff_toNat_lt] at hlt
      rw [UInt64.le_iff_toNat_le]
      omega
  · obtain ⟨hge,hne⟩ := hlater s hs
    rw [hassemblies,if_neg hne]
    exact h.active s hge hactive
  · obtain ⟨hge,hne⟩ := hlater s hs
    rw [hemits.blockMetas,OrderedMap.find_erase,if_neg hne]
    exact h.metas s hge
  · rw [hemits.kept.forceSkipped]
    exact h.forced
  · rcases List.mem_append.mp hf with hskipped | hblock
    · obtain ⟨g,hg,rfl⟩ := List.mem_map.mp hskipped
      exact ⟨hgap g hg,(hemits.gaps g hg).imp id (h.forced g)⟩
    · rw [List.mem_singleton.mp hblock]
      exact hholds.recordedAs hopen ((h.metas slot hnext).symm.trans hinfo) hassembled
  · rw [hemits.kept.assemblies]
    exact OrderedMap.entries_erase_first hfirst

theorem Tracks.emitBelow {entries : List (UInt64 × SlotAssembly)} (h : Tracks ctx w₀ past st)
    (hentries : st.assemblies.entries = entries)
    (hemit : emitBelow ctx boundary entries st = .ok st') :
    Tracks ctx w₀ past st' ∧ Tells ctx past st st' ∧
      ∀ slot, (st'.assemblies.find slot).isSome → boundary ≤ slot := by
  induction entries generalizing st with
  | nil =>
    cases hemit
    refine ⟨h,.refl,fun slot hslot => ?_⟩
    rw [OrderedMap.find_eq_none hentries] at hslot
    cases hslot
  | cons first rest ih =>
    obtain ⟨slot,a⟩ := first
    unfold RecorderState.emitBelow at hemit
    split at hemit
    · rename_i hboundary
      cases hemit
      exact ⟨h,.refl,fun s hs => hboundary.trans ((OrderedMap.find_first hentries).2 s hs)⟩
    · obtain ⟨st1,hone,hrest⟩ := bind_ok hemit
      obtain ⟨htracks,htells,hentries1⟩ := h.emitSlot hentries hone
      obtain ⟨htracks',htells',hbelow⟩ := ih htracks hentries1 hrest
      exact ⟨htracks',htells.trans htells',hbelow⟩

/-- The calls told so far are all recorded, and no slot behind the last block is open. -/
structure Settled (ctx : RecorderContext) (w₀ : ArchiveWriter) (past : List RecorderCall)
    (st : RecorderState) : Prop extends Tracks ctx w₀ past st where
  frames : ∀ f ∈ st.emitted, RecordedAs past ctx f
  closed : ∀ slot < st.next, ¬Open past slot
  started : ∀ slot, Active past slot → st.slotStart ≤ slot

theorem Tracks.behind (h : Tracks ctx w₀ past st) {f : RecordedSlot} (hf : f ∈ st.emitted) :
    f.toCalls.slot < st.next := by
  have hmem : f.toCalls.slot ∈ st.emitted.map fun f => f.toCalls.slot := List.mem_map.mpr ⟨f,hf,rfl⟩
  rw [h.slots,mem_slotsBetween] at hmem
  exact hmem.2

theorem info_of_activity (hc : c.activity = some slot) (s : UInt64) : c.info s = none := by
  cases c with
  | blockMeta => cases hc
  | update | committedEntry | forceSkipped => rfl

theorem Tracks.touch {g : SlotAssembly → SlotAssembly} (h : Tracks ctx w₀ past st)
    (hframes : ∀ f ∈ st.emitted, RecordedAs past ctx f)
    (hstarted : ∀ s, Active past s → st.slotStart ≤ s) (hnext : st.next ≤ slot)
    (hbelow : ∀ s, (st.assemblies.find s).isSome → slot ≤ s) (hc : c.activity = some slot)
    (hholds : ∀ a, Holds past slot a → Holds (past ++ [c]) slot (g a)) :
    Settled ctx w₀ (past ++ [c])
      { st with assemblies := st.assemblies.upsert slot fun a => g (a.getD .default) } := by
  have hother : ∀ s, s ≠ slot → c.activity ≠ some s := by
    intro s hs heq
    exact hs (Option.some.inj (heq.symm.trans hc))
  have hlater : ∀ s < st.next, ∃ later, c.activity = some later ∧ s < later :=
    fun s hs => ⟨slot,hc,hs.trans_le hnext⟩
  refine { h with
    assembly := fun s hs => ?_, waiting := fun s hs => ?_, active := fun s hs hactive => ?_,
    metas := fun s hs => ?_, forced := fun s hs => ?_, frames := fun f hf => ?_,
    closed := fun s hs => ?_, started := fun s hs => ?_ }
  · rw [OrderedMap.find_upsert]
    by_cases heq : s = slot
    · subst heq
      rw [if_pos rfl]
      exact hholds _ (h.assembly s hs)
    · rw [if_neg heq]
      exact (h.assembly s hs).other (hother s heq)
  · rw [OrderedMap.find_upsert] at hs
    by_cases heq : s = slot
    · subst heq
      exact ⟨hnext,open_snoc hc⟩
    · rw [if_neg heq] at hs
      refine ⟨(h.waiting s hs).1,(h.waiting s hs).2.append fun later hlater => ?_⟩
      rw [hc] at hlater
      cases hlater
      exact hbelow s hs
  · rw [OrderedMap.find_upsert]
    by_cases heq : s = slot
    · rw [if_pos heq]
      rfl
    · rw [if_neg heq]
      exact h.active s hs ((active_append.mp hactive).resolve_right (hother s heq))
  · rw [lastMeta_append,info_of_activity hc,Option.none_or]
    exact h.metas s hs
  · exact List.mem_append_left _ (h.forced s hs)
  · have hbehind := h.behind hf
    exact (hframes f hf).append (hother _ (hbehind.trans_le hnext).ne) fun _ => hlater _ hbehind
  · intro hopen
    obtain ⟨-,hle⟩ := hopen.of_append (hother s (lt_of_lt_of_le hs hnext).ne)
    exact absurd (hle slot hc) (not_le.mpr (lt_of_lt_of_le hs hnext))
  · rcases active_append.mp hs with hold | hnew
    · exact hstarted s hold
    · rw [hc] at hnew
      cases hnew
      exact h.slotStart_le.trans hnext

theorem Settled.idle (h : Settled ctx w₀ past st) (hc : c.activity = none)
    {metas : OrderedMap UInt64 BufferedBlockMeta} {forceSkipped : List UInt64}
    (hmetas : ∀ slot, st.next ≤ slot → metas.find slot = (c.info slot).or (st.blockMetas.find slot))
    (hforced : ∀ slot ∈ forceSkipped, slot ∈ st.forceSkipped ∨ c = .forceSkipped slot) :
    Settled ctx w₀ (past ++ [c]) { st with blockMetas := metas, forceSkipped := forceSkipped } := by
  have hother : ∀ s, c.activity ≠ some s := by
    intro s
    rw [hc]
    exact nofun
  refine { h with
    assembly := fun s hs => (h.assembly s hs).other (hother s), waiting := fun s hs => ?_,
    active := fun s hs hactive => ?_, metas := fun s hs => ?_, forced := fun s hs => ?_,
    frames := fun f hf => ?_, closed := fun s hs hopen => ?_,
    started := fun s hs => h.started s ((active_append.mp hs).resolve_right (hother s)) }
  · refine ⟨(h.waiting s hs).1,(h.waiting s hs).2.append fun later hlater => ?_⟩
    exact absurd hlater (hother later)
  · exact h.active s hs ((active_append.mp hactive).resolve_right (hother s))
  · rw [lastMeta_append,← h.metas s hs]
    exact hmetas s hs
  · rcases hforced s hs with hold | rfl
    · exact List.mem_append_left _ (h.forced s hold)
    · simp
  · exact (h.frames f hf).append (hother _) fun hopen => absurd hopen (h.closed _ (h.behind hf))
  · exact h.closed s hs (hopen.of_append (hother s)).1

/-- A recorder that holds an assembly behind the last block. -/
def Doomed (w₀ : ArchiveWriter) (st : RecorderState) : Prop :=
  Coherent w₀ st ∧ ∃ slot < st.next, (st.assemblies.find slot).isSome

theorem Doomed.emit (h : Doomed w₀ st) (hemit : st.emitCompleteBelow ctx boundary = .ok st') :
    st' = st ∧ boundary < st.next := by
  obtain ⟨hcoherent,slot,hbehind,hfind⟩ := h
  unfold emitCompleteBelow at hemit
  cases hentries : st.assemblies.entries with
  | nil =>
    rw [OrderedMap.find_eq_none hentries] at hfind
    cases hfind
  | cons first rest =>
    obtain ⟨k,a⟩ := first
    have hk : k < st.next := ((OrderedMap.find_first hentries).2 slot hfind).trans_lt hbehind
    rw [hentries] at hemit
    unfold emitBelow at hemit
    split at hemit
    · rename_i hboundary
      cases hemit
      exact ⟨rfl,hboundary.trans_lt hk⟩
    · obtain ⟨st1,hone,-⟩ := bind_ok hemit
      have hpopped : Coherent w₀ { st with assemblies := st.assemblies.erase k } :=
        ⟨hcoherent.running,hcoherent.slotStart,hcoherent.slotEndInclusive,hcoherent.writerStart,
          hcoherent.writerEnd,hcoherent.lastSlot,hcoherent.inRange⟩
      exact absurd (hpopped.next_le hone) (not_le.mpr hk)

theorem Doomed.upsert (h : Doomed w₀ st) {f : Option SlotAssembly → SlotAssembly} :
    Doomed w₀ { st with assemblies := st.assemblies.upsert slot f } := by
  obtain ⟨hcoherent,s,hbehind,hfind⟩ := h
  refine ⟨⟨hcoherent.running,hcoherent.slotStart,hcoherent.slotEndInclusive,hcoherent.writerStart,
    hcoherent.writerEnd,hcoherent.lastSlot,hcoherent.inRange⟩,s,hbehind,?_⟩
  rw [OrderedMap.find_upsert]
  split
  · rfl
  · exact hfind

theorem Doomed.idle (h : Doomed w₀ st) {metas : OrderedMap UInt64 BufferedBlockMeta}
    {forceSkipped : List UInt64} :
    Doomed w₀ { st with blockMetas := metas, forceSkipped := forceSkipped } := by
  obtain ⟨hcoherent,hbehind⟩ := h
  exact ⟨⟨hcoherent.running,hcoherent.slotStart,hcoherent.slotEndInclusive,hcoherent.writerStart,
    hcoherent.writerEnd,hcoherent.lastSlot,hcoherent.inRange⟩,hbehind⟩

section

variable (h : Settled ctx w₀ past st ∨ Doomed w₀ st)
include h

theorem touch_cases {g : SlotAssembly → SlotAssembly} (hc : c.activity = some slot)
    (hholds : ∀ a, Holds past slot a → Holds (past ++ [c]) slot (g a))
    (hemit : st.emitCompleteBelow ctx slot = .ok st') :
    Settled ctx w₀ (past ++ [c])
        { st' with assemblies := st'.assemblies.upsert slot fun a => g (a.getD .default) } ∨
      Doomed w₀
        { st' with assemblies := st'.assemblies.upsert slot fun a => g (a.getD .default) } := by
  rcases h with h | h
  · obtain ⟨htracks,⟨frames,hemitted,hframes⟩,hbelow⟩ := h.toTracks.emitBelow rfl hemit
    by_cases hnext : st'.next ≤ slot
    · refine .inl (htracks.touch (fun f hf => ?_) (fun s hs => ?_) hnext hbelow hc hholds)
      · rw [hemitted] at hf
        exact (List.mem_append.mp hf).elim (h.frames f) (hframes f)
      · rw [htracks.slotStart,← h.slotStart]
        exact h.started s hs
    · have hcoherent := htracks.toCoherent
      refine .inr ⟨⟨hcoherent.running,hcoherent.slotStart,hcoherent.slotEndInclusive,
        hcoherent.writerStart,hcoherent.writerEnd,hcoherent.lastSlot,hcoherent.inRange⟩,slot,
        not_le.mp hnext,?_⟩
      rw [OrderedMap.find_upsert,if_pos rfl]
      rfl
  · obtain ⟨rfl,-⟩ := h.emit hemit
    exact .inr h.upsert

theorem record_settled
    (hrecord : st.record ctx c = .ok st') :
    Settled ctx w₀ (past ++ [c]) st' ∨ Doomed w₀ st' := by
  have hrunning : st.finished = false := h.elim (fun h => h.running) fun h => h.1.running
  cases c with
  | blockMeta slot info =>
    rw [record,recordBlockMeta,if_neg (by simp [hrunning])] at hrecord
    split at hrecord
    · -- the slot is behind, the metadata is dropped
      rename_i hlate
      cases hrecord
      refine h.imp (fun h => ?_) id
      refine h.idle rfl (fun s hs => ?_) fun s hs => .inl hs
      have hne : slot ≠ s := by
        rintro rfl
        cases hlast : st.lastEmitted with
        | none =>
          rw [hlast] at hlate
          cases hlate
        | some last =>
          have hsucc := toNat_succ (h.inRange last hlast).2
          rw [hlast,Option.any_some,decide_eq_true_eq,UInt64.le_iff_toNat_le] at hlate
          rw [next_of_last hlast,UInt64.le_iff_toNat_le,hsucc] at hs
          omega
      simp [RecorderCall.info,hne]
    · cases hrecord
      refine h.imp (fun h => ?_) fun h => h.idle
      refine h.idle rfl (fun s hs => ?_) fun s hs => .inl hs
      rw [OrderedMap.find_upsert]
      by_cases heq : s = slot
      · simp [RecorderCall.info,heq]
      · simp [RecorderCall.info,heq,Ne.symm heq]
  | update slot signature u =>
    simp only [record,recordOwnedUpdate,hrunning,Bool.false_eq_true,if_false,routeUpdate] at hrecord
    obtain ⟨mid,hemit,hrecord⟩ := bind_ok hrecord
    cases hrecord
    exact touch_cases h rfl (fun a ha => ha.route signature u) hemit
  | committedEntry slot index numHashes txs =>
    simp only [record,recordCommittedEntry,hrunning,Bool.false_eq_true,if_false] at hrecord
    obtain ⟨mid,hemit,hrecord⟩ := bind_ok hrecord
    split at hrecord
    · cases hrecord
    · cases hrecord
      exact touch_cases h rfl (fun a ha => ha.commit index numHashes txs) hemit
  | forceSkipped slot =>
    cases hrecord
    refine h.imp (fun h => ?_) fun h => h.idle
    refine h.idle rfl (fun s hs => ?_) fun s hs => ?_
    · simp [RecorderCall.info]
    · rcases List.mem_cons.mp hs with rfl | hs
      · exact .inr rfl
      · exact .inl hs

theorem run_settled {calls : List RecorderCall}
    (hrun : calls.foldlM (record ctx) st = .ok st') :
    Settled ctx w₀ (past ++ calls) st' ∨ Doomed w₀ st' := by
  induction calls generalizing past st with
  | nil =>
    cases hrun
    rwa [List.append_nil]
  | cons c rest ih =>
    obtain ⟨middle,hone,hrest⟩ := bind_ok hrun
    have hrest' := ih (record_settled h hone) hrest
    rwa [List.append_assoc] at hrest'

end

variable {nowMs epoch slotStart slotCount : UInt64} {config : ArchiveWriterConfig}
  {ggjet : Option (AccountManifest × GgjetWriterConfig)}

theorem create_settled (h : create ctx nowMs epoch slotStart slotCount config ggjet = .ok st) :
    ∃ w₀, ArchiveWriter.new ctx.env.toEnv nowMs epoch slotStart slotCount config = .ok w₀ ∧
      Settled ctx w₀ [] st := by
  obtain ⟨w₀,hnew,h⟩ := bind_ok h
  obtain ⟨g,-,h⟩ := bind_ok h
  cases h
  have hnew := mapFailure_ok hnew
  obtain ⟨hstart,hstop,hlast⟩ := ArchiveWriter.new_range hnew
  have hnone : ∀ slot, ¬Open [] slot := by
    rintro slot ⟨before,c,after,heq,-⟩
    simp at heq
  refine ⟨w₀,hnew,{
    running := rfl
    slotStart := hstart.symm
    slotEndInclusive := by rw [hstop]
    writerStart := rfl
    writerEnd := rfl
    lastSlot := hlast
    inRange := nofun
    written := rfl
    slots := (slotsBetween_eq_nil le_rfl).symm
    assembly := fun _ _ => ⟨rfl,rfl,rfl,rfl,fun _ => rfl⟩
    waiting := nofun
    active := fun slot _ hactive => ?_
    metas := fun _ _ => rfl
    forced := nofun
    frames := nofun
    closed := fun slot _ => hnone slot
    started := fun slot hactive => ?_ }⟩
  · obtain ⟨c,hc,-⟩ := hactive
    cases hc
  · obtain ⟨c,hc,-⟩ := hactive
    cases hc

end RecorderState

/-- The frames of a finished recording: one for each slot of the range, in order, each saying
what the calls said of its slot, and a block for every slot that was told of. -/
structure Complete (ctx : RecorderContext) (calls : List RecorderCall) (first last : UInt64)
    (frames : List RecordedSlot) : Prop where
  slots : frames.map (fun f => f.toCalls.slot) = slotsThrough first last
  recorded : ∀ f ∈ frames, RecordedAs calls ctx f
  covered : ∀ slot, Active calls slot → ∃ f ∈ frames, f.toCalls.slot = slot

/-- `u64::MAX`, the slot of the notification that unloads a plugin. -/
def reservedSlot : UInt64 := 2^64 - 1

namespace RecorderState

variable {ctx : RecorderContext} {st final : RecorderState} {w₀ : ArchiveWriter}
  {calls : List RecorderCall}

structure Ended (ctx : RecorderContext) (w₀ : ArchiveWriter) (calls : List RecorderCall)
    (final : RecorderState) : Prop where
  written : (final.emitted.map RecordedSlot.toCalls).foldlM
    (ArchiveWriter.writeCalls ctx.env.toEnv) w₀ = .ok final.writer
  slots : final.emitted.map (fun f => f.toCalls.slot) = slotsThrough w₀.slotStart (w₀.slotEnd - 1)
  recorded : ∀ f ∈ final.emitted, RecordedAs calls ctx f
  covered : ∀ slot, Active calls slot → slot ≠ reservedSlot →
    ∃ f ∈ final.emitted, f.toCalls.slot = slot

theorem slotsBetween_append_rest (h : Coherent w₀ st) :
    slotsBetween st.slotStart st.next ++ slotsThrough st.next st.slotEndInclusive =
      slotsThrough w₀.slotStart (w₀.slotEnd - 1) := by
  rw [← h.slotStart,← h.slotEndInclusive]
  cases hlast : st.lastEmitted with
  | none =>
    rw [next_of_none hlast,slotsBetween_eq_nil le_rfl,List.nil_append]
  | some last =>
    refine slotsBetween_append_through h.slotStart_le ?_
    obtain ⟨-,hstop⟩ := h.inRange last hlast
    have hsucc := toNat_succ hstop
    rw [UInt64.lt_iff_toNat_lt] at hstop
    rw [next_of_last hlast,hsucc,h.slotEndInclusive,
      UInt64.toNat_sub_of_le _ _ (by
        rw [UInt64.le_iff_toNat_le]
        simp only [UInt64.reduceToNat]
        omega)]
    simp only [UInt64.reduceToNat]
    omega

theorem toNat_reservedSlot : reservedSlot.toNat = 2^64 - 1 := by decide +kernel

theorem emitAll_ended (h : Settled ctx w₀ calls st ∨ Doomed w₀ st)
    (hend : st.emitAll ctx = .ok final) : Ended ctx w₀ calls final := by
  have hrunning : st.finished = false := h.elim (fun h => h.running) fun h => h.1.running
  have htop : ∀ slot : UInt64, slot ≤ reservedSlot := by
    intro slot
    have := slot.toNat_lt
    rw [UInt64.le_iff_toNat_le,toNat_reservedSlot]
    omega
  rw [emitAll,if_neg (by simp [hrunning])] at hend
  obtain ⟨st1,hemit,hend⟩ := bind_ok hend
  obtain ⟨st2,hgaps,hend⟩ := bind_ok hend
  rcases h with h | h
  · split at hend
    · cases hend
    · cases hend
      obtain ⟨htracks,⟨frames,hemitted,hframes⟩,hbelow⟩ := h.toTracks.emitBelow rfl hemit
      obtain ⟨-,-,-,hwrites,hallowed⟩ := writeSkipped_all hgaps
      have hearlier : ∀ f ∈ st1.emitted, RecordedAs calls ctx f := by
        intro f hf
        rw [hemitted] at hf
        exact (List.mem_append.mp hf).elim (h.frames f) (hframes f)
      -- the assemblies that are left belong to the last slot number, which no range has
      have hleft : ∀ slot, st1.next ≤ slot → Active calls slot → slot = reservedSlot :=
        fun slot hnext hactive => le_antisymm (htop slot)
          (hbelow slot (htracks.active slot hnext hactive))
      have hstop : ∀ g ∈ slotsThrough st1.next st1.slotEndInclusive, g < w₀.slotEnd := by
        intro g hg
        rw [← htracks.writerEnd]
        exact (hallowed g hg).2
      refine ⟨?_,?_,fun f hf => ?_,fun slot hactive hne => ?_⟩
      · rw [hwrites.1,List.map_append,List.foldlM_append,htracks.written,ok_bind]
        exact hwrites.2
      · rw [hwrites.1,List.map_append,htracks.slots,List.map_map,← slotsBetween_append_rest
          htracks.toCoherent]
        congr 1
        exact List.map_id _
      · rw [hwrites.1] at hf
        rcases List.mem_append.mp hf with hf | hf
        · exact hearlier f hf
        · obtain ⟨g,hg,rfl⟩ := List.mem_map.mp hf
          refine ⟨fun hactive => ?_,(hallowed g hg).1.imp id (htracks.forced g)⟩
          have hmax := hleft g (mem_slotsThrough.mp hg).1 hactive
          exact absurd (hstop g hg) (not_lt.mpr (hmax ▸ htop _))
      · have hbefore : slot < st1.next := not_le.mp fun hnext => hne (hleft slot hnext hactive)
        have hstart : st1.slotStart ≤ slot := by
          rw [htracks.slotStart,← h.slotStart]
          exact h.started slot hactive
        have hmem := mem_slotsBetween.mpr ⟨hstart,hbefore⟩
        rw [← htracks.slots] at hmem
        obtain ⟨f,hf,hslot⟩ := List.mem_map.mp hmem
        refine ⟨f,?_,hslot⟩
        rw [hwrites.1]
        exact List.mem_append_left _ hf
  · obtain ⟨-,hboundary⟩ := h.emit hemit
    exact absurd (htop _) (not_le.mpr hboundary)

end RecorderState

theorem finish_ended {ctx : RecorderContext} {nowMs epoch slotStart slotCount : UInt64}
    {config : ArchiveWriterConfig} {ggjet : Option (AccountManifest × GgjetWriterConfig)}
    {calls : List RecorderCall} {st₀ st : RecorderState} {archive : Bytes × ArchiveStats}
    {accounts : Option (Bytes × GgjetStats)}
    (hcreate : RecorderState.create ctx nowMs epoch slotStart slotCount config ggjet = .ok st₀)
    (hrun : calls.foldlM (RecorderState.record ctx) st₀ = .ok st)
    (hfinish : st.finish ctx = .ok (archive,accounts)) :
    ∃ final w₀, st.emitAll ctx = .ok final ∧
      writeSlots ctx.env.toEnv nowMs epoch slotStart slotCount config
        (final.emitted.map RecordedSlot.toCalls) = .ok archive ∧
      w₀.slotStart = slotStart ∧ w₀.slotEnd = slotStart + slotCount ∧
      RecorderState.Ended ctx w₀ calls final := by
  obtain ⟨w₀,hnew,hsettled⟩ := RecorderState.create_settled hcreate
  have hrecorded := RecorderState.run_settled (.inl hsettled) hrun
  rw [List.nil_append] at hrecorded
  obtain ⟨final,hend,hfinish⟩ := bind_ok hfinish
  obtain ⟨file,hclose,hfinish⟩ := bind_ok hfinish
  have harchive : file = archive := by
    cases hwriter : final.ggjetWriter with
    | none =>
      rw [hwriter] at hfinish
      cases hfinish
      rfl
    | some g =>
      rw [hwriter] at hfinish
      obtain ⟨stats,-,hfinish⟩ := bind_ok hfinish
      cases hfinish
      rfl
  subst harchive
  have hended := RecorderState.emitAll_ended hrecorded hend
  obtain ⟨hstart,hstop,-⟩ := ArchiveWriter.new_range hnew
  refine ⟨final,w₀,hend,?_,hstart,hstop,hended⟩
  rw [writeSlots,hnew,ok_bind,hended.written,ok_bind]
  exact mapFailure_ok hclose

def plainContext : RecorderContext where
  env := { plainEnv with sha256 := fun _ => Hash.default }
  parsers := ⟨fun _ => none,fun _ => none⟩
  presence := ⟨5,5,[.missing],rfl,by decide⟩

def plainSignature : Signature := ⟨List.replicate 64 0,by simp⟩

def plainTx : CommittedTx where
  tx := ⟨[plainSignature],.legacy ⟨⟨0,0,0⟩,[],Hash.default,[]⟩⟩
  info := ⟨.ok (),0,[],[],none,none,none,none,none,⟨[],[]⟩,none,none,none⟩

def smallCalls : List RecorderCall :=
  [.update 6 none (blankUpdate [1]),
    .blockMeta 6 ⟨5,Hash.default,Hash.default,[],none,none,none,1,1⟩,
    .update 6 (some plainSignature) (blankUpdate [2]),.committedEntry 6 0 1 [plainTx],
    .update 6 none (blankUpdate [3])]

def recordAll (ctx : RecorderContext) (slotStart slotCount : UInt64) (calls : List RecorderCall) :
    Except RecorderError (RecorderState × RecorderState ×
      (Bytes × ArchiveStats) × Option (Bytes × GgjetStats)) := do
  let st₀ ← RecorderState.create ctx 0 0 slotStart slotCount ⟨4,.none,3⟩ none
  let st ← calls.foldlM (RecorderState.record ctx) st₀
  let result ← st.finish ctx
  return (st₀,st,result)

theorem recordAll_ok {ctx : RecorderContext} {slotStart slotCount : UInt64}
    {calls : List RecorderCall} (h : (recordAll ctx slotStart slotCount calls).isOk = true) :
    ∃ st₀ st archive accounts,
      RecorderState.create ctx 0 0 slotStart slotCount ⟨4,.none,3⟩ none = .ok st₀ ∧
      calls.foldlM (RecorderState.record ctx) st₀ = .ok st ∧
      st.finish ctx = .ok (archive,accounts) := by
  cases hall : recordAll ctx slotStart slotCount calls with
  | error e =>
    rw [hall] at h
    cases h
  | ok result =>
    obtain ⟨st₀,hcreate,hall⟩ := bind_ok hall
    obtain ⟨st,hrun,hall⟩ := bind_ok hall
    obtain ⟨⟨archive,accounts⟩,hfinish,-⟩ := bind_ok hall
    exact ⟨st₀,st,archive,accounts,hcreate,hrun,hfinish⟩

end Jetstreamer.Node
