import Jetstreamer.Archive.Frames
import Jetstreamer.Horizon.InPlace
set_option autoImplicit false

namespace Jetstreamer.Archive
open Lib Lencode Horizon

/-- The calls made for one block, in the order the recorder makes them. Without transactions
every update written counts as an earlier one. -/
structure BlockFrame where
  slot : UInt64
  epoch : Option EpochMeta
  pre : PreUpdates
  transactions : List Transaction
  post : PostUpdates
  info : BlockMeta
  entries : List EntryRecord
  counted : transactions.length < 2 ^ 32
  phases : transactions = [] → post.updates = []

inductive Frame where
  | skipped (slot : UInt64)
  | block (b : BlockFrame)

def Frame.slot : Frame → UInt64
  | .skipped slot => slot
  | .block b => b.slot

def BlockFrame.delivered (b : BlockFrame) : BlockMeta :=
  { b.info with slot := b.slot, preUpdates := b.pre, postUpdates := b.post }

def transactionEvents (slot : UInt64) (txs : List Transaction) : List Event :=
  txs.mapIdx fun i tx => .transaction slot (UInt32.ofNat i) tx

def Frame.events : Frame → List Event
  | .skipped slot => [.block (.skipped slot) []]
  | .block b => b.epoch.toList.map .epoch ++ transactionEvents b.slot b.transactions ++
      [.block (.block b.delivered) b.entries]

section Wire

variable (env : Env)

def encodeEpochSection : Option EpochMeta → Put Failure EncoderContext
  | none => encodeU8 0
  | some m => Put.all [encodeU8 1,encodeEpochMeta env m]

def encodeTransactions (txs : List Transaction) : Put Failure EncoderContext :=
  Put.all [encodeLen txs.length,Put.each (encodeTxRecord env) txs]

/-- The bytes of a block, as one pass of the encoders over its sections. -/
def encodeSections (slot : UInt64) (epoch : Option EpochMeta) (pre : List AccountUpdate)
    (txs : List Transaction) (post : List AccountUpdate) (info : BlockMeta)
    (entries : List EntryRecord) : Put Failure EncoderContext :=
  Put.all [encodeU64 slot,encodeU8 1,encodeEpochSection env epoch,encodeUpdates env pre,
    encodeTransactions env txs,encodeUpdates env post,encodeBlockMetaFields info,
    encodeEntries entries]

def encodeFrame : Frame → Put Failure EncoderContext
  | .skipped slot => Put.all [encodeU64 slot,encodeU8 0]
  | .block b => encodeSections env b.slot b.epoch b.pre.updates b.transactions b.post.updates
      b.info b.entries

end Wire

/-- Encoder and decoder inside a bucket, with what the visitor has seen and the blockhash the
chain has reached. -/
structure InStep (env : Env) (log : List Event) (hash : Hash) (enc : EncoderContext)
    (ctx : FrameContext) : Prop where
  linked : Linked env enc ctx.decoders
  events : ctx.events = log
  hash : ctx.lastBlockhash = hash

section Sections

variable {env : Env} {log : List Event} {hash : Hash}

theorem reads_onDecoders {α : Type} {p : Put Failure EncoderContext}
    {g : Get Failure DecoderContext α} {a : α} (h : Reads (Linked env) p g a (Linked env)) :
    Reads (InStep env log hash) p (onDecoders g) a (InStep env log hash) := by
  intro s t bytes s' rest hP hp
  obtain ⟨d,hg,hlinked⟩ := h s t.decoders bytes s' rest hP.linked hp
  refine ⟨{ t with decoders := d },?_,⟨hlinked,hP.events,hP.hash⟩⟩
  simp only [onDecoders,Get.onPart,hg]

theorem reads_deliver {p : Put Failure EncoderContext} {β : Type}
    {k : Unit → Get Failure FrameContext β} {b : β} {R : EncoderContext → FrameContext → Prop}
    (emit : Bool) (event : Event)
    (h : Reads (InStep env (log ++ if emit then [event] else []) hash) p (k ()) b R) :
    Reads (InStep env log hash) p (deliver emit event >>= k) b R := by
  refine Reads.modifyCtx (fun s t hP => ?_) h
  cases emit with
  | false => exact ⟨hP.linked,by simp [hP.events],hP.hash⟩
  | true => exact ⟨hP.linked,by simp [hP.events],hP.hash⟩

theorem reads_updatesSection {MAX DATA : Nat} (hz : env.zstd.Inverts)
    (arena : AccountUpdates MAX DATA) {book : Nat → FrameContext → FrameContext}
    (hbook : ∀ n s t, InStep env log hash s t → InStep env log hash s (book n t)) :
    Reads (InStep env log hash) (encodeUpdates env arena.updates) (readUpdates env true book) arena
      (InStep env log hash) :=
  (reads_len _).cons (((reads_onDecoders (reads_updates hz arena)).tally hbook).all_single)

theorem InStep.book {enc : EncoderContext} {ctx : FrameContext} (h : InStep env log hash enc ctx)
    (n : Nat) : InStep env log hash enc (ctx.addUpdateBytes n) ∧
      InStep env log hash enc (ctx.addTxBytes n) ∧
      InStep env log hash enc (ctx.addTxUpdateBytes n) :=
  ⟨⟨h.linked,h.events,h.hash⟩,⟨h.linked,h.events,h.hash⟩,⟨h.linked,h.events,h.hash⟩⟩

theorem reads_txFields (tx : Transaction) :
    Reads (Linked env) (encodeTxFields env tx) (decodeTxFields env)
      { tx with accountUpdates := AccountUpdates.empty } (Linked env) := by
  refine (reads_zeroVec _ fun s _ => reads_fixed s).cons
    ((reads_versionedMessage reads_address _).cons ((reads_transactionStatus _).cons
    ((reads_u64 _).cons ((reads_zeroVec _ fun v _ => reads_u64 v).cons
    ((reads_zeroVec _ fun v _ => reads_u64 v).cons
    ((reads_zeroVec _ fun a _ => reads_address a).cons
    ((reads_zeroVec _ fun a _ => reads_address a).cons ?_)))))))
  refine (reads_optionInto fun v _ => reads_zeroVec v fun ix _ => reads_innerInstruction ix).cons
    ((reads_optionInto fun v _ => reads_logMessages v).cons
    ((reads_optionInto fun v _ => reads_zeroVec v fun b _ =>
      reads_tokenBalance reads_address b).cons
    ((reads_optionInto fun v _ => reads_zeroVec v fun b _ =>
      reads_tokenBalance reads_address b).cons
    ((reads_optionInto fun v _ => reads_zeroVec v fun r _ => reads_reward reads_address r).cons
      ?_))))
  exact (reads_option fun v _ => reads_returnData reads_address v).cons
    ((reads_optionU64 _).cons ((reads_optionU64 _).cons (Reads.nil _)))

theorem reads_txRecord (hz : env.zstd.Inverts) (tx : Transaction) :
    Reads (InStep env log hash) (encodeTxRecord env tx) (readTxRecord env true) tx
      (InStep env log hash) := by
  refine Reads.tally ?_ fun n _ _ h => (h.book n).2.1
  exact (reads_onDecoders (reads_txFields tx)).cons
    ((reads_updatesSection hz tx.accountUpdates fun n _ _ h => (h.book n).2.2).cons (Reads.nil _))

def decodeTxFieldsInto (env : Env) (old : Transaction) :
    Get Failure DecoderContext Transaction := do
  let address := decodeAddress env
  let signatures ← old.signatures.decodeInto (decodeFixed 64)
  let message ← old.message.decodeInto address
  let status ← decodeTransactionStatus
  let fee ← decodeU64
  let preBalances ← old.preBalances.decodeInto decodeU64
  let postBalances ← old.postBalances.decodeInto decodeU64
  let loadedWritableAddresses ← old.loadedWritableAddresses.decodeInto address
  let loadedReadonlyAddresses ← old.loadedReadonlyAddresses.decodeInto address
  let innerInstructions ← decodeOptionZeroVecInto decodeInnerInstruction old.innerInstructions
  let logMessages ← decodeOptionLogMessagesInto old.logMessages
  let preTokenBalances ← decodeOptionZeroVecInto (decodeTokenBalance address) old.preTokenBalances
  let postTokenBalances ← decodeOptionZeroVecInto (decodeTokenBalance address) old.postTokenBalances
  let rewards ← decodeOptionZeroVecInto (decodeReward address) old.rewards
  let returnData ← decodeOption (decodeReturnData address)
  let computeUnitsConsumed ← decodeOption decodeU64
  let costUnits ← decodeOption decodeU64
  return { old with
    status, fee, preBalances, postBalances, loadedWritableAddresses, loadedReadonlyAddresses,
    innerInstructions, logMessages, preTokenBalances, postTokenBalances, rewards, returnData,
    computeUnitsConsumed, costUnits, signatures, message }

def readTxRecordInto (env : Env) (materialize : Bool) (scratch : Transaction) :
    Get Failure FrameContext Transaction :=
  Get.tally .addTxBytes do
    let tx ← onDecoders (decodeTxFieldsInto env scratch.clear)
    let accountUpdates ← readUpdates env materialize .addTxUpdateBytes
    return { tx with accountUpdates }

theorem decodeTxFieldsInto_eq (scratch : Transaction) :
    decodeTxFieldsInto env scratch.clear = decodeTxFields env := by
  unfold decodeTxFieldsInto decodeTxFields
  simp only [ZeroVec.decodeInto_eq,decodeOptionLogMessagesInto_eq,decodeOptionZeroVecInto_eq,
    VersionedMessage.decodeInto_eq,Transaction.clear]

theorem readTxRecordInto_eq (materialize : Bool) (scratch : Transaction) :
    readTxRecordInto env materialize scratch = readTxRecord env materialize := by
  unfold readTxRecordInto readTxRecord
  rw [decodeTxFieldsInto_eq]

theorem reads_epochMeta (hz : env.zstd.Inverts) (m : EpochMeta) :
    Reads (InStep env log hash) (encodeEpochMeta env m) (readEpochMeta env true) m
      (InStep env log hash) :=
  (reads_u64 _).cons ((reads_u64 _).cons ((reads_u64 _).cons ((reads_u64 _).cons
    ((reads_optionU64 _).cons ((reads_updatesSection hz m.updates fun n _ _ h => (h.book n).1).cons
      (Reads.nil m))))))

theorem reads_epochSection (hz : env.zstd.Inverts) (emit : Bool) (epoch : Option EpochMeta) :
    Reads (InStep env log hash) (encodeEpochSection env epoch) (readEpochSection env true emit) ()
      (InStep env (log ++ if emit then epoch.toList.map .epoch else []) hash) := by
  cases epoch with
  | none =>
    simp only [Option.toList_none,List.map_nil,ite_self,List.append_nil]
    exact ((reads_u8 0).cons (Reads.nil ())).single
  | some m =>
    refine (reads_u8 1).cons ((reads_epochMeta hz m).cons ?_)
    exact reads_deliver emit (.epoch m) (Reads.nil ())

theorem transactionEvents_concat (slot : UInt64) (txs : List Transaction) (tx : Transaction) :
    transactionEvents slot (txs ++ [tx]) =
      transactionEvents slot txs ++ [.transaction slot (UInt32.ofNat txs.length) tx] := by
  simp [transactionEvents,List.mapIdx_append]

theorem reads_transaction (hz : env.zstd.Inverts) (emit : Bool) (slot : UInt64)
    (seen : List Transaction) (tx : Transaction) :
    Reads (InStep env (log ++ if emit then transactionEvents slot seen else []) hash)
      (encodeTxRecord env tx) (readTransaction env true emit slot seen.length)
      (seen ++ [tx]).length
      (InStep env (log ++ if emit then transactionEvents slot (seen ++ [tx]) else []) hash) := by
  refine ((reads_txRecord hz tx).cons (reads_deliver emit _ ?_)).single
  have hlog : (log ++ if emit then transactionEvents slot seen else []) ++
      (if emit then [.transaction slot (UInt32.ofNat seen.length) tx] else []) =
        log ++ if emit then transactionEvents slot (seen ++ [tx]) else [] := by
    cases emit <;> simp [transactionEvents_concat]
  rw [hlog,List.length_append,List.length_singleton]
  exact Reads.nil _

theorem reads_transactions (hz : env.zstd.Inverts) (emit : Bool) (slot : UInt64)
    {txs : List Transaction} (hfew : txs.length < 2 ^ 32) :
    Reads (InStep env log hash) (encodeTransactions env txs)
      (readTransactions env true emit slot) txs.length
      (InStep env (log ++ if emit then transactionEvents slot txs else []) hash) := by
  refine (reads_len _).cons ?_
  rw [Nat.mod_eq_of_lt hfew]
  have hloop := Reads.loop (f := List.length)
    (I := fun seen => InStep env (log ++ if emit then transactionEvents slot seen else []) hash)
    fun seen tx rest (_ : txs = seen ++ tx :: rest) => reads_transaction hz emit slot seen tx
  simp only [transactionEvents,List.mapIdx_nil,ite_self,List.append_nil] at hloop
  exact hloop.all_single

/-- The chain check passes when it is off, starts afresh or finds the parent. -/
def ChainOk (verifyChain : Bool) (hash : Hash) (info : BlockMeta) : Prop :=
  verifyChain = false ∨ hash = Hash.default ∨ info.parentBlockhash = hash

theorem reads_checkChain {p : Put Failure EncoderContext} {β : Type}
    {k : Unit → Get Failure FrameContext β} {b : β} {R : EncoderContext → FrameContext → Prop}
    {verifyChain : Bool} {info : BlockMeta} (hchain : ChainOk verifyChain hash info)
    (h : Reads (InStep env log info.blockhash) p (k ()) b R) :
    Reads (InStep env log hash) p (checkChain verifyChain info >>= k) b R := by
  intro s t bytes s' rest hP hp
  have hpass : ¬(verifyChain = true ∧ t.lastBlockhash ≠ Hash.default ∧
      info.parentBlockhash ≠ t.lastBlockhash) := by
    rintro ⟨hon,hstart,hparent⟩
    rw [hP.hash] at hstart hparent
    rcases hchain with hoff | hfirst | hfound
    · exact absurd hon (by simp [hoff])
    · exact hstart hfirst
    · exact hparent hfound
  have hcheck : checkChain verifyChain info ⟨t,bytes ++ rest⟩ =
      .ok () ⟨{ t with lastBlockhash := info.blockhash },bytes ++ rest⟩ := by
    rw [checkChain,Get.ctx_bind,if_neg hpass]
    rfl
  rw [Get.bind_of_ok hcheck]
  exact h s _ bytes s' rest ⟨hP.linked,hP.events,rfl⟩ hp

def Frame.chained (hash : Hash) : Frame → Hash
  | .skipped _ => hash
  | .block b => b.info.blockhash

def Frame.ChainOk (verifyChain : Bool) (hash : Hash) : Frame → Prop
  | .skipped _ => True
  | .block b => Archive.ChainOk verifyChain hash b.info

theorem reads_block (hz : env.zstd.Inverts) (verifyChain emit : Bool) (b : BlockFrame)
    (hchain : ChainOk verifyChain hash b.info) :
    Reads (InStep env log hash)
      (Put.all [encodeEpochSection env b.epoch,encodeUpdates env b.pre.updates,
        encodeTransactions env b.transactions,encodeUpdates env b.post.updates,
        encodeBlockMetaFields b.info,encodeEntries b.entries])
      (readBlock env true verifyChain emit b.slot) ()
      (InStep env (log ++ if emit then (Frame.block b).events else []) b.info.blockhash) := by
  have hlog : (log ++ if emit then (Frame.block b).events else []) =
      ((log ++ if emit then b.epoch.toList.map .epoch else []) ++
        (if emit then transactionEvents b.slot b.transactions else [])) ++
        if emit then [.block (.block b.delivered) b.entries] else [] := by
    cases emit <;> simp [Frame.events]
  rw [hlog]
  refine (reads_epochSection hz emit b.epoch).cons
    ((reads_updatesSection hz b.pre fun n _ _ h => (h.book n).1).cons
    ((reads_transactions hz emit b.slot b.counted).cons
    ((reads_updatesSection hz b.post fun n _ _ h => (h.book n).1).cons
    ((reads_blockMetaFields b.info b.slot b.pre b.post).cons ?_))))
  refine Reads.all_single ((reads_len _).cons ((Reads.each fun e _ => reads_entryRecord e).cons ?_))
  exact reads_checkChain hchain (reads_deliver emit _ (Reads.nil ()))

theorem reads_frame (hz : env.zstd.Inverts) (verifyChain : Bool) (startSlot : UInt64) (f : Frame)
    (hchain : f.ChainOk verifyChain hash) :
    Reads (InStep env log hash) (encodeFrame env f) (readFrame env true verifyChain startSlot)
      (f.slot,decide (startSlot ≤ f.slot))
      (InStep env (log ++ if startSlot ≤ f.slot then f.events else []) (f.chained hash)) := by
  have hlog : (if startSlot ≤ f.slot then f.events else []) =
      if decide (startSlot ≤ f.slot) then f.events else [] := by simp
  rw [hlog]
  cases f with
  | skipped slot =>
    refine (reads_u64 slot).cons ((reads_u8 0).cons ?_)
    rw [if_pos rfl]
    exact reads_deliver _ _ (Reads.nil _)
  | block b =>
    refine (reads_u64 b.slot).cons ((reads_u8 1).cons ?_)
    rw [if_neg (by decide),if_pos rfl]
    refine Reads.single ((reads_block hz verifyChain _ b hchain).cons ?_)
    exact Reads.nil _

end Sections

end Jetstreamer.Archive
