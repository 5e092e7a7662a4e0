import Jetstreamer.Archive.Frames
import Jetstreamer.Horizon.DecoderShadows
set_option autoImplicit false

namespace Jetstreamer.Archive
open Lib Lencode Horizon

abbrev UpdateMap := ∀ MAX DATA : Nat, AccountUpdates MAX DATA → AccountUpdates MAX DATA

def mapEvent (g : UpdateMap) : Event → Event
  | .epoch info => .epoch { info with updates := g _ _ info.updates }
  | .transaction slot txIndex tx =>
    .transaction slot txIndex { tx with accountUpdates := g _ _ tx.accountUpdates }
  | .block (.skipped slot) entries => .block (.skipped slot) entries
  | .block (.block info) entries =>
    .block (.block { info with
      preUpdates := g _ _ info.preUpdates, postUpdates := g _ _ info.postUpdates }) entries

/-- Two ways of decoding a frame, the second one's state being `f` of the first one's. They may
differ in what is done with the data of updates and in whether the visitor is told. -/
structure FrameMap (env : Env) (kept : Failure → Prop) (materialize materialize' emit emit' : Bool)
    (f : FrameContext → FrameContext) (f0 : DecoderContext → DecoderContext) (g : UpdateMap) :
    Prop where
  decoders : ∀ ctx, (f ctx).decoders = f0 ctx.decoders
  setDecoders : ∀ d ctx, { f ctx with decoders := f0 d } = f { ctx with decoders := d }
  hash : ∀ ctx, (f ctx).lastBlockhash = ctx.lastBlockhash
  setHash : ∀ h ctx, { f ctx with lastBlockhash := h } = f { ctx with lastBlockhash := h }
  updateBytes : ∀ n ctx, (f ctx).addUpdateBytes n = f (ctx.addUpdateBytes n)
  txBytes : ∀ n ctx, (f ctx).addTxBytes n = f (ctx.addTxBytes n)
  txUpdateBytes : ∀ n ctx, (f ctx).addTxUpdateBytes n = f (ctx.addTxUpdateBytes n)
  delivers : ∀ event ctx,
    (if emit' then { f ctx with events := (f ctx).events ++ [mapEvent g event] } else f ctx) =
      f (if emit then { ctx with events := ctx.events ++ [event] } else ctx)
  address : Shadows kept f0 id (decodeAddress env : Get Failure _ _) (decodeAddress env)
  update : ∀ (MAX DATA : Nat) (arena : AccountUpdates MAX DATA),
    Shadows kept f0 (g MAX DATA) (decodeUpdateRecordInto env materialize arena)
      (decodeUpdateRecordInto env materialize' (g MAX DATA arena))
  empty : ∀ {MAX DATA : Nat}, g MAX DATA AccountUpdates.empty = AccountUpdates.empty

namespace FrameMap

variable {env : Env} {kept : Failure → Prop} {materialize materialize' emit emit' : Bool}
  {f : FrameContext → FrameContext} {f0 : DecoderContext → DecoderContext} {g : UpdateMap}
  (hm : FrameMap env kept materialize materialize' emit emit' f f0 g)
include hm

theorem onDecoders {α β : Type} {h : α → β} {read : Get Failure DecoderContext α}
    {read' : Get Failure DecoderContext β} (hread : Shadows kept f0 h read read') :
    Shadows kept f h (Archive.onDecoders read) (Archive.onDecoders read') :=
  hread.onPart hm.decoders hm.setDecoders

theorem deliver (event : Event) :
    Shadows kept f id (Archive.deliver emit event) (Archive.deliver emit' (mapEvent g event)) :=
  Shadows.modifyCtx (hm.delivers event)

theorem readUpdates {MAX DATA : Nat} {book : Nat → FrameContext → FrameContext}
    (hbook : ∀ n ctx, book n (f ctx) = f (book n ctx)) :
    Shadows kept f (g MAX DATA) (Archive.readUpdates env materialize book)
      (Archive.readUpdates env materialize' book) := by
  refine shadows_len.bind fun count => (hm.onDecoders ?_).tally hbook
  have hloop := Shadows.loop (n := count) AccountUpdates.empty (hm.update MAX DATA)
  rwa [hm.empty] at hloop

theorem txFields : Shadows kept f0 id (decodeTxFields env) (decodeTxFields env) := by
  refine (shadows_zeroVec (shadows_fixed 64)).bind fun _ =>
    (shadows_versionedMessage hm.address).bind fun _ => shadows_transactionStatus.bind fun _ =>
    shadows_u64.bind fun _ => (shadows_zeroVec shadows_u64).bind fun _ =>
    (shadows_zeroVec shadows_u64).bind fun _ => (shadows_zeroVec hm.address).bind fun _ =>
    (shadows_zeroVec hm.address).bind fun _ => ?_
  refine (shadows_optionInto (shadows_zeroVec shadows_innerInstruction)).bind fun _ =>
    (shadows_optionInto shadows_logMessages).bind fun _ =>
    (shadows_optionInto (shadows_zeroVec (shadows_tokenBalance hm.address))).bind fun _ =>
    (shadows_optionInto (shadows_zeroVec (shadows_tokenBalance hm.address))).bind fun _ =>
    (shadows_optionInto (shadows_zeroVec (shadows_reward hm.address))).bind fun _ => ?_
  exact (shadows_option (shadows_returnData hm.address)).bind fun _ =>
    (shadows_option shadows_u64).bind fun _ => (shadows_option shadows_u64).bind fun _ =>
    Shadows.pure _

theorem readTxRecord :
    Shadows kept f (fun tx => { tx with accountUpdates := g _ _ tx.accountUpdates })
      (Archive.readTxRecord env materialize) (Archive.readTxRecord env materialize') := by
  refine Shadows.tally ?_ hm.txBytes
  exact (hm.onDecoders hm.txFields).bind fun _ =>
    (hm.readUpdates hm.txUpdateBytes).bind fun _ => Shadows.pure _

theorem readEpochMeta :
    Shadows kept f (fun info => { info with updates := g _ _ info.updates })
      (Archive.readEpochMeta env materialize) (Archive.readEpochMeta env materialize') :=
  shadows_u64.bind fun _ => shadows_u64.bind fun _ => shadows_u64.bind fun _ =>
    shadows_u64.bind fun _ => (shadows_option shadows_u64).bind fun _ =>
    (hm.readUpdates hm.updateBytes).bind fun _ => Shadows.pure _

theorem readEpochSection :
    Shadows kept f id (Archive.readEpochSection env materialize emit)
      (Archive.readEpochSection env materialize' emit') := by
  refine shadows_u8.bind fun flag => ?_
  simp only [id]
  split
  · exact hm.readEpochMeta.bind fun info => hm.deliver (.epoch info)
  · exact Shadows.pure _

theorem readTransactions (slot : UInt64) :
    Shadows kept f id (Archive.readTransactions env materialize emit slot)
      (Archive.readTransactions env materialize' emit' slot) := by
  refine shadows_len.bind fun txCount => Shadows.loop (g := id) 0 fun txIndex => ?_
  exact hm.readTxRecord.bind fun tx =>
    (hm.deliver (.transaction slot (UInt32.ofNat txIndex) tx)).bind fun _ => Shadows.pure _

theorem checkChain {verify verify' : Bool} {info info' : BlockMeta}
    (hparent : info'.parentBlockhash = info.parentBlockhash)
    (hblockhash : info'.blockhash = info.blockhash) (hslot : info'.slot = info.slot)
    (hverify : verify' = verify ∨ verify' = false ∧ ∀ slot, ¬kept (.error (.pohMismatch slot))) :
    Shadows kept f id (Archive.checkChain verify info) (Archive.checkChain verify' info') := by
  refine Shadows.ctx fun ctx => ?_
  have hnext : Shadows kept f id
      (Get.modifyCtx fun ctx : FrameContext => { ctx with lastBlockhash := info.blockhash })
      (Get.modifyCtx fun ctx => { ctx with lastBlockhash := info'.blockhash }) := by
    rw [hblockhash]
    exact Shadows.modifyCtx fun ctx => hm.setHash _ ctx
  rw [hm.hash,hparent,hslot]
  by_cases hbad : verify = true ∧ ctx.lastBlockhash ≠ Hash.default ∧
      info.parentBlockhash ≠ ctx.lastBlockhash
  · rw [if_pos hbad]
    rcases hverify with rfl | ⟨rfl,hdropped⟩
    · rw [if_pos hbad]
      exact Shadows.throw _
    · exact fun t bytes hkept => absurd hkept (hdropped _)
  · rw [if_neg hbad]
    rcases hverify with rfl | ⟨rfl,_⟩
    · rw [if_neg hbad]
      exact hnext
    · rw [if_neg (by simp)]
      exact hnext

theorem readBlock {verify verify' : Bool} (slot : UInt64)
    (hverify : verify' = verify ∨ verify' = false ∧ ∀ slot, ¬kept (.error (.pohMismatch slot))) :
    Shadows kept f id (Archive.readBlock env materialize verify emit slot)
      (Archive.readBlock env materialize' verify' emit' slot) := by
  refine hm.readEpochSection.bind fun _ => (hm.readUpdates hm.updateBytes).bind fun pre =>
    (hm.readTransactions slot).bind fun _ => (hm.readUpdates hm.updateBytes).bind fun post =>
    (shadows_blockMetaFields slot (g _ _) (g _ _) pre post).bind fun info =>
    shadows_len.bind fun entryCount =>
    (shadows_entryRecord.times entryCount).bind fun entries => ?_
  exact (hm.checkChain rfl rfl rfl hverify).bind fun _ => hm.deliver
    (.block (.block info) entries.1)

end FrameMap

/-- A frame context whose visitor had seen `log` and is told of nothing more, or of everything. -/
def FrameContext.toldAfter (log : List Event) (emit : Bool) (ctx : FrameContext) : FrameContext :=
  { ctx with events := log ++ if emit then ctx.events else [] }

theorem mapEvent_id (event : Event) : mapEvent (fun _ _ arena => arena) event = event := by
  cases event with
  | epoch info => rfl
  | transaction slot txIndex tx => rfl
  | block notification entries => cases notification <;> rfl

theorem frameMap_toldAfter (env : Env) (materialize emit : Bool) (log : List Event) :
    FrameMap env (fun _ => True) materialize materialize true emit
      (FrameContext.toldAfter log emit) id fun _ _ arena => arena where
  decoders _ := rfl
  setDecoders _ _ := rfl
  hash _ := rfl
  setHash _ _ := rfl
  updateBytes _ _ := rfl
  txBytes _ _ := rfl
  txUpdateBytes _ _ := rfl
  delivers event ctx := by
    cases emit <;> simp [FrameContext.toldAfter,mapEvent_id]
  address := Shadows.refl _
  update _ _ arena := Shadows.refl _
  empty := rfl

def FrameContext.mapped (f0 : DecoderContext → DecoderContext) (g : UpdateMap)
    (ctx : FrameContext) : FrameContext :=
  { ctx with
    decoders := f0 ctx.decoders
    events := ctx.events.map (mapEvent g) }

theorem frameMap_same (env : Env) (kept : Failure → Prop) (materialize emit : Bool) :
    FrameMap env kept materialize materialize emit emit
      (FrameContext.mapped id fun _ _ arena => arena) id fun _ _ arena => arena where
  decoders _ := rfl
  setDecoders _ _ := rfl
  hash _ := rfl
  setHash _ _ := rfl
  updateBytes _ _ := rfl
  txBytes _ _ := rfl
  txUpdateBytes _ _ := rfl
  delivers event ctx := by
    cases emit <;> simp [FrameContext.mapped]
  address := Shadows.refl _
  update _ _ arena := Shadows.refl _
  empty := rfl

section Elision

variable {ε : Type} [Raises ε]

section

variable (ctx : DecoderContext)
include ctx

theorem shadows_skip {τ : Type} (n : Nat) :
    Shadows (fun _ => False) (fun _ => ctx) (fun _ => ())
      ((·.1) <$> Get.take (Raises.encode .readerOutOfData) n : Get ε τ Bytes)
        (skipReaderBytes n) := by
  intro t bytes
  by_cases hn : n ≤ bytes.length
  · simp only [Functor.map,EStateM.map,Get.take,hn,dite_true,skipReaderBytes,bind,EStateM.bind]
    rfl
  · simp [Functor.map,EStateM.map,Get.take,hn]

theorem shadows_reserve {τ α : Type} (n : Nat) {k : Get ε τ α} {other : Get ε DecoderContext Unit}
    (h : Shadows (fun _ => False) (fun _ => ctx) (fun _ => ()) k other) :
    Shadows (fun _ => False) (fun _ => ctx) (fun _ => ())
      (do reserve n; k : Get ε τ α) other := by
  by_cases hn : tooLarge n
  · rw [reserve,if_pos hn]
    exact fun t bytes => False.elim
  · rw [reserve_of_fits hn,pure_bind]
    exact h

theorem shadows_readExactInto {τ : Type} (n : Nat) :
    Shadows (fun _ => False) (fun _ => ctx) (fun _ => ())
      (readExactInto n : Get ε τ Bytes) (skipReaderBytes n) := by
  unfold readExactInto
  split
  · rename_i hn
    subst hn
    exact fun t bytes => rfl
  · exact shadows_reserve ctx n (shadows_skip ctx n)

theorem shadows_readPatch {τ : Type} (n : Nat) :
    Shadows (fun _ => False) (fun _ => ctx) (fun _ => ())
      (readPatch n : Get ε τ Bytes) (skipReaderBytes n) := by
  intro t bytes
  by_cases hnil : bytes = []
  · simp [readPatch,hnil]
  · simp only [readPatch,hnil,if_false]
    exact shadows_skip ctx n t bytes

theorem shadows_applyPatch {τ : Type} (old : Bytes) (done : Bytes × Nat) :
    Shadows (fun _ => False) (fun _ => ctx) (fun _ => ()) (applyPatch old done : Get ε τ _) (do
      let _gap ← decodeLen
      let patchLen ← decodeLen
      skipReaderBytes patchLen) := by
  refine shadows_len.bind fun gap => shadows_len.bind fun patchLen => ?_
  simp only [id]
  split
  · exact Shadows.throw_dropped _ _
  · split
    · exact Shadows.throw_dropped _ _
    · refine shadows_reserve ctx _ ?_
      rw [← bind_pure (skipReaderBytes patchLen)]
      exact (shadows_readPatch ctx patchLen).bind fun _ => Shadows.pure _

theorem storeBlob_silent {key : UInt64} {newLen : Nat} {result : Bytes} :
    Shadows (fun _ => False) (fun _ => ctx) (fun _ => ())
      (storeBlob key newLen result : Get ε DiffStore Bytes) (pure ()) := by
  unfold storeBlob
  split
  · exact Shadows.throw_dropped _ _
  · exact fun t bytes => rfl

end

theorem activeKey_silent (t : DiffStore) (bytes : Bytes) (key : UInt64) (next : Input DiffStore)
    (h : (activeKey : Get ε DiffStore UInt64) ⟨t,bytes⟩ = .ok key next) : next.bytes = bytes := by
  rw [activeKey,Get.ctx_bind] at h
  cases hkey : t.currentKey with
  | none =>
    rw [hkey] at h
    cases h
  | some known =>
    rw [hkey] at h
    cases h
    rfl

theorem oldBlob_silent {key : UInt64} (t : DiffStore) (bytes old : Bytes) (next : Input DiffStore)
    (h : (oldBlob key : Get ε DiffStore Bytes) ⟨t,bytes⟩ = .ok old next) : next.bytes = bytes := by
  rw [oldBlob,Get.ctx_bind] at h
  cases hold : t.store key with
  | none =>
    rw [hold] at h
    cases h
  | some known =>
    rw [hold] at h
    cases h
    rfl

theorem zstdDecompressInto_silent {τ : Type} {z : Zstd} {compressed out : Bytes} {len : Nat}
    {input next : Input τ}
    (h : (zstdDecompressInto z compressed len : Get ε τ Bytes) input = .ok out next) :
    next.bytes = input.bytes := by
  by_cases hlen : tooLarge len
  · rw [zstdDecompressInto,reserve,if_pos hlen] at h
    cases h
  rw [zstdDecompressInto,reserve_of_fits hlen,pure_bind] at h
  cases hout : z.decompress compressed with
  | none =>
    rw [hout] at h
    cases h
  | some data =>
    simp only [hout] at h
    split at h
    · cases h
    · split at h
      · cases h
      · cases h
        rfl

theorem shadows_skipDiffBlob (z : Zstd) (ctx : DecoderContext) :
    Shadows (fun _ => False) (fun _ => ctx) (fun _ => ()) (decodeBlob z : Get ε DiffStore Bytes)
      skipDiffBlob := by
  refine shadows_len.bind fun mode => ?_
  simp only [id]
  split
  · refine shadows_len.bind fun len => ?_
    refine Shadows.silent (fun t bytes s next h => by cases h; exact ⟨rfl,rfl⟩) fun s => ?_
    cases s.currentKey with
    | none => exact shadows_readExactInto ctx len
    | some key =>
      refine Shadows.silent (fun t bytes u next h => by cases h; exact ⟨rfl,rfl⟩) fun _ => ?_
      simp only [id]
      rw [← bind_pure (skipReaderBytes len)]
      refine (shadows_readExactInto ctx len).bind fun data => ?_
      exact fun t bytes => rfl
  · split
    · refine shadows_len.bind fun newLen => shadows_len.bind fun numPatches => ?_
      refine Shadows.silent (fun t bytes key next h => ⟨activeKey_silent t bytes key next h,rfl⟩)
        fun key => ?_
      refine Shadows.silent (fun t bytes old next h => ⟨oldBlob_silent t bytes old next h,rfl⟩)
        fun old => ?_
      refine shadows_reserve ctx _ ?_
      simp only [id]
      rw [← bind_pure (Get.loop numPatches _ ())]
      exact (Shadows.loop (g := fun _ => ()) ([],0) (shadows_applyPatch ctx old)).bind fun done =>
        storeBlob_silent ctx
    · split
      · refine shadows_len.bind fun newLen => shadows_len.bind fun compressedLen => ?_
        refine Shadows.silent (fun t bytes key next h => ⟨activeKey_silent t bytes key next h,rfl⟩)
          fun key => ?_
        refine Shadows.silent (fun t bytes old next h => ⟨oldBlob_silent t bytes old next h,rfl⟩)
          fun old => ?_
        simp only [id]
        rw [← bind_pure (skipReaderBytes compressedLen)]
        refine (shadows_readExactInto ctx compressedLen).bind fun compressed => ?_
        exact Shadows.silent (fun t bytes xor next h => ⟨zstdDecompressInto_silent h,rfl⟩)
          fun xor => storeBlob_silent ctx
      · exact Shadows.throw_dropped _ _

def elideUpdate (u : AccountUpdate) : AccountUpdate := { u with data := [] }

theorem dataLen_elide (updates : List AccountUpdate) : dataLen (updates.map elideUpdate) = 0 := by
  induction updates with
  | nil => rfl
  | cons u rest ih =>
    simp only [dataLen,List.map_cons,List.sum_cons] at ih ⊢
    rw [ih]
    rfl

def elide : UpdateMap := fun _ _ arena =>
  ⟨arena.updates.map elideUpdate,by rw [List.length_map]; exact arena.count,
    by rw [dataLen_elide]; exact Nat.zero_le _⟩

theorem push_elide {MAX DATA : Nat} {arena next : AccountUpdates MAX DATA} {u : AccountUpdate}
    (h : arena.push u = .ok next) :
    (elide MAX DATA arena).push (elideUpdate u) = .ok (elide MAX DATA next) := by
  unfold AccountUpdates.push at h
  split at h
  · cases h
  · rename_i hcount
    split at h
    · cases h
    · cases h
      have hsize : ¬DATA < dataLen (elide MAX DATA arena).updates +
          (elideUpdate u).data.length := by
        simp [elide,elideUpdate,dataLen_elide]
      have hcount' : ¬MAX ≤ (elide MAX DATA arena).updates.length := by
        simpa [elide] using hcount
      unfold AccountUpdates.push
      rw [dif_neg hcount',dif_neg hsize]
      simp [elide]

def elideDecoders (decoders : DecoderContext) : DecoderContext := { decoders with diff := .empty }

theorem shadows_elidedData (env : Env) (pubkey : Address) :
    Shadows (fun _ => False) elideDecoders (fun _ => [])
      (decodeUpdateData env true pubkey : Get ε DecoderContext Bytes)
      (decodeUpdateData env false pubkey) := by
  intro t bytes
  have hskip := shadows_skipDiffBlob (ε := ε) env.zstd (elideDecoders t)
    (t.diff.setKey (accountDiffKey env pubkey)) bytes
  simp only [decodeUpdateData,if_true,Bool.false_eq_true,if_false,decodeData,Get.onPart]
  cases hblob : (decodeBlob env.zstd : Get ε DiffStore Bytes)
      ⟨t.diff.setKey (accountDiffKey env pubkey),bytes⟩ with
  | ok data next =>
    rw [hblob] at hskip
    rw [Get.bind_of_ok hskip]
    rfl
  | error e next => exact False.elim

theorem shadows_elidedAddress (env : Env) :
    Shadows (fun _ => False) elideDecoders id (decodeAddress env : Get ε DecoderContext Address)
      (decodeAddress env) :=
  (Shadows.refl _).onPart (fun _ => rfl) fun _ _ => rfl

theorem shadows_elidedUpdate (env : Env) {MAX DATA : Nat} (arena : AccountUpdates MAX DATA) :
    Shadows (fun _ => False) elideDecoders (elide MAX DATA)
      (decodeUpdateRecordInto env true arena : Get ε DecoderContext _)
      (decodeUpdateRecordInto env false (elide MAX DATA arena)) := by
  refine (shadows_elidedAddress env).bind fun pubkey => shadows_u64.bind fun lamports =>
    (shadows_elidedAddress env).bind fun owner => shadows_bool.bind fun executable =>
    shadows_u64.bind fun rentEpoch => shadows_u64.bind fun writeVersion =>
    (shadows_elidedData env pubkey).bind fun data => ?_
  simp only [id]
  cases hpush : arena.push ⟨pubkey,lamports,owner,executable,rentEpoch,writeVersion,data⟩ with
  | error e => exact Shadows.throw_dropped _ _
  | ok next =>
    have hpush' := push_elide hpush
    simp only [elideUpdate] at hpush'
    rw [hpush']
    exact Shadows.pure _

end Elision

theorem frameMap_elide (env : Env) (emit : Bool) :
    FrameMap env (fun _ => False) true false emit emit (FrameContext.mapped elideDecoders elide)
      elideDecoders elide where
  decoders _ := rfl
  setDecoders _ _ := rfl
  hash _ := rfl
  setHash _ _ := rfl
  updateBytes _ _ := rfl
  txBytes _ _ := rfl
  txUpdateBytes _ _ := rfl
  delivers event ctx := by
    cases emit <;> simp [FrameContext.mapped]
  address := shadows_elidedAddress env
  update _ _ arena := shadows_elidedUpdate env arena
  empty := rfl

end Jetstreamer.Archive
