import Jetstreamer.Archive.Positions
import Jetstreamer.Lib.Ensures
set_option autoImplicit false

namespace Jetstreamer.Archive
open Lib Lencode Horizon

section Body

variable {env : Env} {materialize : Bool} {hash : Hash}

def AtHash (hash : Hash) (ctx : FrameContext) : Prop := ctx.lastBlockhash = hash

theorem ensures_deliver (emit : Bool) (event : Event) :
    Ensures (AtHash hash) (deliver emit event) fun _ => AtHash hash := by
  refine Ensures.modifyCtx fun ctx hctx => ?_
  cases emit <;> exact hctx

theorem ensures_same {α : Type} (a : α) :
    Ensures (AtHash hash) (pure a : Get Failure FrameContext α) fun _ => AtHash hash :=
  Ensures.pure fun _ h => h

theorem ensures_kept {α : Type} {read : Get Failure FrameContext α}
    (h : ∀ f, Shadows (fun _ => False) f id read read) :
    Ensures (AtHash hash) read fun _ => AtHash hash :=
  Ensures.of_shadows h

theorem ensures_onDecoders {α : Type} {read : Get Failure DecoderContext α} :
    Ensures (AtHash hash) (onDecoders read) fun _ => AtHash hash :=
  Ensures.onPart fun _ _ h => h

theorem ensures_readUpdates {MAX DATA : Nat} (book : Nat → FrameContext → FrameContext)
    (hbook : ∀ n ctx, (book n ctx).lastBlockhash = ctx.lastBlockhash) :
    Ensures (AtHash hash)
      (readUpdates env materialize book : Get Failure FrameContext (AccountUpdates MAX DATA))
      fun _ => AtHash hash := by
  refine (ensures_kept fun f => shadows_len).bind fun count => ?_
  exact Ensures.tally ensures_onDecoders fun n _ ctx h => (hbook n ctx).trans h

theorem ensures_readEpochSection (emit : Bool) :
    Ensures (AtHash hash) (readEpochSection env materialize emit) fun _ => AtHash hash := by
  refine (ensures_kept fun f => shadows_u8).bind fun flag => ?_
  split
  · have hu64 : Ensures (AtHash hash) (decodeU64 : Get Failure FrameContext UInt64)
        fun _ => AtHash hash := ensures_kept fun f => shadows_u64
    refine Ensures.bind ?_ fun info => ensures_deliver emit _
    refine hu64.bind fun _ => hu64.bind fun _ => hu64.bind fun _ => hu64.bind fun _ => ?_
    refine (ensures_kept fun f => shadows_option shadows_u64).bind fun _ => ?_
    exact (ensures_readUpdates .addUpdateBytes fun _ _ => rfl).bind fun _ => ensures_same _
  · exact ensures_same _

theorem ensures_readTransactions (emit : Bool) (slot : UInt64) :
    Ensures (AtHash hash) (readTransactions env materialize emit slot) fun _ => AtHash hash := by
  refine (ensures_kept fun f => shadows_len).bind fun count => ?_
  refine Ensures.loop (fun txIndex => ?_) _ _
  have hrecord : Ensures (AtHash hash) (readTxRecord env materialize) fun _ => AtHash hash := by
    refine Ensures.tally (Q := fun _ => AtHash hash) ?_ fun _ _ _ h => h
    refine ensures_onDecoders.bind fun tx => ?_
    exact (ensures_readUpdates .addTxUpdateBytes fun _ _ => rfl).bind fun _ => ensures_same _
  exact hrecord.bind fun tx => (ensures_deliver emit _).bind fun _ => ensures_same _

theorem ensures_blockMetaFields (slot : UInt64) (pre : PreUpdates) (post : PostUpdates) :
    Ensures (AtHash hash) (decodeBlockMetaFields slot pre post : Get Failure FrameContext BlockMeta)
      fun info ctx => AtHash hash ctx ∧ info.slot = slot := by
  refine (ensures_kept fun f => shadows_u64).bind fun _ =>
    (ensures_kept fun f => shadows_fixed 32).bind fun _ =>
    (ensures_kept fun f => shadows_fixed 32).bind fun _ =>
    (ensures_kept fun f => shadows_option shadows_i64).bind fun _ =>
    (ensures_kept fun f => shadows_option shadows_u64).bind fun _ =>
    (ensures_kept fun f => shadows_u64).bind fun _ =>
    (ensures_kept fun f => shadows_u64).bind fun _ =>
    (ensures_kept fun f => shadows_zeroVec (shadows_reward (shadows_fixed 32))).bind fun _ =>
    (ensures_kept fun f => shadows_option shadows_u64).bind fun _ => ?_
  exact Ensures.pure fun _ h => ⟨h,rfl⟩

def blockBody (env : Env) (materialize emit : Bool) (slot : UInt64) :
    Get Failure FrameContext (BlockMeta × List EntryRecord) := do
  readEpochSection env materialize emit
  let pre ← readUpdates env materialize .addUpdateBytes
  let _ ← readTransactions env materialize emit slot
  let post ← readUpdates env materialize .addUpdateBytes
  let info ← decodeBlockMetaFields slot pre post
  let entryCount ← decodeLen
  let entries ← Get.times entryCount decodeEntryRecord
  return (info,entries.1)

theorem readBlock_eq (verify emit : Bool) (slot : UInt64) :
    readBlock env materialize verify emit slot =
      blockBody env materialize emit slot >>= fun body =>
        checkChain verify body.1 >>= fun _ => deliver emit (.block (.block body.1) body.2) := by
  simp only [readBlock,blockBody,bind_assoc,pure_bind]

theorem ensures_blockBody (emit : Bool) (slot : UInt64) :
    Ensures (AtHash hash) (blockBody env materialize emit slot)
      fun body ctx => AtHash hash ctx ∧ body.1.slot = slot := by
  refine (ensures_readEpochSection emit).bind fun _ =>
    (ensures_readUpdates .addUpdateBytes fun _ _ => rfl).bind fun pre =>
    (ensures_readTransactions emit slot).bind fun _ =>
    (ensures_readUpdates .addUpdateBytes fun _ _ => rfl).bind fun post =>
    (ensures_blockMetaFields slot pre post).bind fun info => ?_
  refine Ensures.bind (Ensures.of_shadows fun f => shadows_len) fun count =>
    Ensures.bind (Ensures.of_shadows fun f => shadows_entryRecord.times count) fun entries => ?_
  exact Ensures.pure fun _ h => h

end Body

/-- The block the callbacks end with, if they do, follows the one with the hash. -/
def follows (hash : Hash) (events : List Event) : Bool :=
  match events.getLast? with
  | some (.block (.block info) _) => hash = Hash.default || info.parentBlockhash = hash
  | _ => true

section Checking

variable {env : Env} {materialize : Bool} {ctx : FrameContext} {bytes : Bytes} {slot : UInt64}
  {after : Input FrameContext}

theorem checkChain_run (verify : Bool) (info : BlockMeta) (ctx : FrameContext) (bytes : Bytes) :
    checkChain verify info ⟨ctx,bytes⟩ =
      if verify ∧ ctx.lastBlockhash ≠ Hash.default ∧ info.parentBlockhash ≠ ctx.lastBlockhash then
        .error (.error (.pohMismatch info.slot)) ⟨ctx,bytes⟩
      else .ok () ⟨{ ctx with lastBlockhash := info.blockhash },bytes⟩ := by
  rw [checkChain,Get.ctx_bind]
  split <;> rfl

theorem readBlock_checked
    (hrun : readBlock env materialize false true slot ⟨ctx,bytes⟩ = .ok () after) :
    if follows ctx.lastBlockhash after.ctx.events then
      readBlock env materialize true true slot ⟨ctx,bytes⟩ = .ok () after
    else ∃ next, readBlock env materialize true true slot ⟨ctx,bytes⟩ =
        .error (.error (.pohMismatch slot)) next ∧ next.ctx.events = after.ctx.events.dropLast := by
  rw [readBlock_eq] at hrun ⊢
  cases hbody : blockBody env materialize true slot ⟨ctx,bytes⟩ with
  | error e next =>
    rw [Get.bind_of_error hbody] at hrun
    cases hrun
  | ok body middle =>
    obtain ⟨hhash,hslot⟩ := ensures_blockBody true slot _ _ _ _ rfl hbody
    have hhash' : middle.ctx.lastBlockhash = ctx.lastBlockhash := hhash
    have hfalse := checkChain_run false body.1 middle.ctx middle.bytes
    rw [if_neg (by simp)] at hfalse
    rw [Get.bind_of_ok hbody,Get.bind_of_ok hfalse] at hrun
    have htrue := checkChain_run true body.1 middle.ctx middle.bytes
    rw [hhash'] at htrue
    have hevents : after.ctx.events = middle.ctx.events ++ [.block (.block body.1) body.2] := by
      cases hrun
      rfl
    have hfollows : follows ctx.lastBlockhash after.ctx.events = true ↔
        ctx.lastBlockhash = Hash.default ∨ body.1.parentBlockhash = ctx.lastBlockhash := by
      simp [follows,hevents]
    by_cases hgood : follows ctx.lastBlockhash after.ctx.events = true
    · have := hfollows.mp hgood
      rw [if_neg (by tauto)] at htrue
      rw [if_pos hgood,Get.bind_of_ok hbody,Get.bind_of_ok htrue]
      exact hrun
    · have := mt hfollows.mpr hgood
      rw [if_pos (by tauto)] at htrue
      rw [if_neg hgood]
      rw [Get.bind_of_ok hbody,Get.bind_of_error htrue,hslot,hevents]
      exact ⟨_,rfl,List.dropLast_concat.symm⟩

theorem readFrame_checked {emit : Bool}
    (hrun : readFrame env materialize false 0 ⟨ctx,bytes⟩ = .ok (slot,emit) after) :
    frontSlot ⟨ctx,bytes⟩ = slot ∧
    if follows ctx.lastBlockhash after.ctx.events then
      readFrame env materialize true 0 ⟨ctx,bytes⟩ = .ok (slot,emit) after
    else ∃ next, readFrame env materialize true 0 ⟨ctx,bytes⟩ =
        .error (.error (.pohMismatch slot)) next ∧ next.ctx.events = after.ctx.events.dropLast := by
  have hkeep {α : Type} {read : Get Failure FrameContext α}
      {input next : Input FrameContext} {a : α}
      (h : ∀ f, Shadows (fun _ => False) f id read read) (hread : read input = .ok a next) :
      next.ctx.lastBlockhash = input.ctx.lastBlockhash :=
    ensures_kept h _ _ _ _ (rfl : AtHash input.ctx.lastBlockhash input.ctx) hread
  rw [readFrame_eq] at hrun ⊢
  cases hslot : (decodeU64 : Get Failure FrameContext UInt64) ⟨ctx,bytes⟩ with
  | error e next =>
    rw [Get.bind_of_error hslot] at hrun
    cases hrun
  | ok slot' first =>
    have hfirst : first.ctx.lastBlockhash = ctx.lastBlockhash := hkeep (fun f => shadows_u64) hslot
    have hall : decide ((0 : UInt64) ≤ slot') = true := decide_eq_true UInt64.zero_le
    rw [Get.bind_of_ok hslot,hall] at hrun
    rw [Get.bind_of_ok hslot,hall]
    obtain ⟨rfl,rfl⟩ := Prod.mk.inj (frameAfter_value hrun)
    refine ⟨by simp only [frontSlot,hslot],?_⟩
    unfold frameAfter at hrun ⊢
    cases hkind : (decodeU8 : Get Failure FrameContext UInt8) first with
    | error e next =>
      rw [Get.bind_of_error hkind] at hrun
      cases hrun
    | ok kind second =>
      have hsecond : second.ctx.lastBlockhash = ctx.lastBlockhash :=
        (hkeep (fun f => shadows_u8) hkind).trans hfirst
      rw [Get.bind_of_ok hkind] at hrun
      rw [Get.bind_of_ok hkind]
      by_cases hskipped : kind = 0
      · rw [if_pos hskipped] at hrun
        rw [if_pos hskipped]
        cases hrun
        rw [if_pos (by simp [follows])]
        rfl
      · by_cases hblock : kind = 1
        · rw [if_neg hskipped,if_pos hblock] at hrun
          rw [if_neg hskipped,if_pos hblock]
          cases hread : readBlock env materialize false true slot second with
          | error e next =>
            rw [Get.bind_of_error hread] at hrun
            cases hrun
          | ok u third =>
            rw [Get.bind_of_ok hread] at hrun
            cases hrun
            have hchecked := readBlock_checked hread
            rw [hsecond] at hchecked
            split
            · rename_i hgood
              rw [if_pos hgood] at hchecked
              rw [Get.bind_of_ok hchecked]
              rfl
            · rename_i hbad
              rw [if_neg hbad] at hchecked
              obtain ⟨next,hnext,hevents⟩ := hchecked
              exact ⟨next,Get.bind_of_error hnext,hevents⟩
        · rw [if_neg hskipped,if_neg hblock] at hrun
          cases hrun

/-- Checking the chain changes what becomes of a frame only if its block does not follow the one
before it. The visitor has then been told of everything but the block. -/
theorem Position.next_checked {p q : Position} {frame : DecodedFrame}
    (h : p.next env false = .ok (frame,q)) :
    p.next env true = if follows p.lastBlockhash frame.events then .ok (frame,q)
      else .error (.error (.pohMismatch frame.slot),⟨frame.slot,frame.events.dropLast,{}⟩) := by
  obtain ⟨hpos,hremaining,slot,emit,after,hrun,rfl,rfl⟩ := next_ok h
  obtain ⟨hfront,hchecked⟩ := readFrame_checked hrun
  have hsame : (p.frame slot after).events = after.ctx.events := rfl
  rw [hsame]
  split
  · rename_i hgood
    exact next_of_ok hpos hremaining ((if_pos hgood).mp hchecked)
  · rename_i hbad
    obtain ⟨next,hnext,hevents⟩ := (if_neg hbad).mp hchecked
    have hfront' : frontSlot p.input = slot := hfront
    have hnext' : readFrame env p.materialize true 0 p.input =
      .error (.error (.pohMismatch slot)) next := hnext
    simp only [Position.next,if_neg hpos,hnext',hfront',hevents]
    rfl

end Checking

end Jetstreamer.Archive
