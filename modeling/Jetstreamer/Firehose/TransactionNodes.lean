import Jetstreamer.Firehose.Dataframes
set_option autoImplicit false

namespace Jetstreamer.Firehose.Car
open Lib

/-- The format of a transaction. It is read from front to back, so no shorter stretch of a
transaction's bytes is read as a whole one. -/
structure Wincode (Tx : Type) where
  serialize : Tx → Bytes
  deserializeExact : Bytes → Option Tx
  roundTrip : ∀ tx, deserializeExact (serialize tx) = some tx
  selfDelimiting : ∀ tx bytes rest, serialize tx = bytes ++ rest → rest ≠ [] →
    deserializeExact bytes = none

structure TransactionTools (Tx Meta Signature Hash : Type) where
  wincode : Wincode Tx
  sums : Checksums
  decodeTransactionStatusMeta : Nat → Bytes → Option Meta
  messageHash : Tx → Hash
  signatures : Tx → List Signature
  isSimpleVoteTransaction : Tx → Bool

structure TransactionNode (Cid : Type) where
  data : DataFrame Cid
  metadata : DataFrame Cid
  slot : UInt64
  index : Option UInt64

structure TransactionData (Tx Meta Signature Hash : Type) where
  slot : Nat
  transactionSlotIndex : Nat
  signature : Signature
  messageHash : Hash
  isVote : Bool
  transactionStatusMeta : Meta
  transaction : Tx
  deriving DecidableEq

inductive NodeDecodingError (Cid Other : Type) where
  | deserialize
  | reassembly (err : ReassemblyError Cid Other)
  | metadata
  | missingSignature
  | panics
  deriving DecidableEq

variable {Cid Other Tx Meta Signature Hash : Type} (tools : TransactionTools Tx Meta Signature Hash)
  (nodes : NodesWithCids Cid Other) (fuel slot : Nat)

/-- Only the first frame's own bytes are read. -/
def TransactionNode.asParsed (node : TransactionNode Cid) :
    Except (NodeDecodingError Cid Other) Tx :=
  match tools.wincode.deserializeExact node.data.data with
  | some tx => .ok tx
  | none => .error .deserialize

/-- The metadata, reassembled from its frames; `none` when their links never end. -/
def TransactionNode.statusMeta (node : TransactionNode Cid) :
    Option (Except (NodeDecodingError Cid Other) Meta) :=
  (nodes.reassembleDataframesBorrowed tools.sums fuel node.metadata).map fun result =>
    match result with
    | .error err => .error (.reassembly err)
    | .ok cow => match tools.decodeTransactionStatusMeta slot cow.intoOwned with
      | some info => .ok info
      | none => .error .metadata

def TransactionNode.transactionData (node : TransactionNode Cid) (tx : Tx) (info : Meta) :
    Except (NodeDecodingError Cid Other) (TransactionData Tx Meta Signature Hash) :=
  match tools.signatures tx with
  | [] => .error .missingSignature
  | signature :: _ => match node.index with
    | none => .error .panics
    | some index => .ok ⟨slot,index.toNat,signature,tools.messageHash tx,
        tools.isSimpleVoteTransaction tx,info,tx⟩

def TransactionNode.handOver (node : TransactionNode Cid) (tx : Tx) :
    Option (Except (NodeDecodingError Cid Other) (TransactionData Tx Meta Signature Hash)) :=
  (node.statusMeta tools nodes fuel slot).map fun info =>
    info >>= node.transactionData tools slot tx

/-- The transaction branch of the worker, up to the call of `on_tx`. -/
def TransactionNode.onTransaction (node : TransactionNode Cid) :
    Option (Except (NodeDecodingError Cid Other) (TransactionData Tx Meta Signature Hash)) :=
  match node.asParsed tools with
  | .error err => some (.error err)
  | .ok tx => node.handOver tools nodes fuel slot tx

def TransactionNode.Intact (node : TransactionNode Cid) (segments : List (List (Part Cid))) :
    Prop :=
  (∀ part ∈ segments.flatten, nodes.Stored part) ∧
    HashMatches tools.sums node.data.hash (payload node.data segments)

def TransactionNode.Damaged (node : TransactionNode Cid) (segments : List (List (Part Cid))) :
    Prop :=
  (∃ part ∈ segments.flatten, nodes.Unavailable part.cid) ∨
    ((∀ part ∈ segments.flatten, nodes.Stored part) ∧
      ¬HashMatches tools.sums node.data.hash (payload node.data segments))

/-- An intact payload is handed over as the transaction it is, a damaged one is answered with an
error; a worker that stops answers nothing. -/
def TransactionNode.DecodesWhole (node : TransactionNode Cid) (segments : List (List (Part Cid)))
    (tx : Tx) : Prop :=
  (node.Intact tools nodes segments →
    node.onTransaction tools nodes fuel slot = node.handOver tools nodes fuel slot tx) ∧
  (node.Damaged tools nodes segments →
    ∃ err, err ≠ .panics ∧ node.onTransaction tools nodes fuel slot = some (.error err))

def TransactionNode.MetadataRefused (node : TransactionNode Cid) : Prop :=
  (∃ err, nodes.reassembleDataframesBorrowed tools.sums fuel node.metadata = some (.error err)) ∨
    ∃ cow, nodes.reassembleDataframesBorrowed tools.sums fuel node.metadata = some (.ok cow) ∧
      tools.decodeTransactionStatusMeta slot cow.intoOwned = none

def TransactionNode.Unsigned (node : TransactionNode Cid) (tx : Tx) : Prop :=
  (nodes.reassembleDataframesBorrowed tools.sums fuel node.metadata).isSome ∧
    tools.signatures tx = []

variable {tools nodes fuel slot}

theorem TransactionNode.onTransaction_complete {node : TransactionNode Cid} {tx : Tx}
    (h : node.data.data = tools.wincode.serialize tx) :
    node.onTransaction tools nodes fuel slot = node.handOver tools nodes fuel slot tx := by
  have hparsed : (node.asParsed tools : Except (NodeDecodingError Cid Other) Tx) = .ok tx := by
    simp only [asParsed,h,tools.wincode.roundTrip]
  simp only [onTransaction,hparsed]

theorem TransactionNode.onTransaction_partial {node : TransactionNode Cid} {tx : Tx} {rest : Bytes}
    (h : tools.wincode.serialize tx = node.data.data ++ rest) (hrest : rest ≠ []) :
    node.onTransaction tools nodes fuel slot = some (.error .deserialize) := by
  have hparsed : (node.asParsed tools : Except (NodeDecodingError Cid Other) Tx) =
      .error .deserialize := by
    simp only [asParsed,tools.wincode.selfDelimiting tx _ _ h hrest]
  simp only [onTransaction,hparsed]

theorem TransactionNode.handOver_ne_deserialize (node : TransactionNode Cid) (tx : Tx) :
    node.handOver tools nodes fuel slot tx ≠ some (.error .deserialize) := by
  intro h
  obtain ⟨info,hinfo,herr⟩ := Option.map_eq_some_iff.mp h
  rcases bind_error herr with herr | ⟨value,-,herr⟩
  · subst herr
    obtain ⟨result,-,hresult⟩ := Option.map_eq_some_iff.mp hinfo
    split at hresult
    · cases hresult
    · split at hresult <;> cases hresult
  · unfold transactionData at herr
    split at herr
    · cases herr
    · split at herr <;> cases herr

/-- Whole or not, a transaction is answered with an error for its metadata and its signatures
alone; without an index the worker stops. -/
theorem TransactionNode.handOver_error_iff (node : TransactionNode Cid) (tx : Tx) :
    (∃ err, err ≠ .panics ∧ node.handOver tools nodes fuel slot tx = some (.error err)) ↔
      node.MetadataRefused tools nodes fuel slot ∨ node.Unsigned tools nodes fuel tx := by
  unfold MetadataRefused Unsigned handOver statusMeta
  cases nodes.reassembleDataframesBorrowed tools.sums fuel node.metadata with
  | none => simp
  | some result =>
    cases result with
    | error err =>
      refine ⟨fun _ => .inl (.inl ⟨err,rfl⟩),fun _ => ⟨.reassembly err,nofun,rfl⟩⟩
    | ok cow =>
      cases hmeta : tools.decodeTransactionStatusMeta slot cow.intoOwned with
      | none =>
        refine ⟨fun _ => .inl (.inr ⟨cow,rfl,hmeta⟩),fun _ => ⟨.metadata,nofun,?_⟩⟩
        simp only [Option.map_some,hmeta]
        rfl
      | some info =>
        simp only [Option.map_some,hmeta,ok_bind,transactionData]
        cases tools.signatures tx with
        | nil => exact ⟨fun _ => .inr ⟨rfl,rfl⟩,fun _ => ⟨.missingSignature,nofun,rfl⟩⟩
        | cons signature rest =>
          cases node.index with
          | none => simp [hmeta,eq_comm]
          | some index => simp [hmeta]

structure TransactionNode.CutInto (tools : TransactionTools Tx Meta Signature Hash)
    (node : TransactionNode Cid) (segments : List (List (Part Cid))) (tx : Tx) : Prop where
  linked : Linked node.data.next segments
  bytes : payload node.data segments = tools.wincode.serialize tx

/-- A transaction cut into frames is handed over whole exactly when the frames behind the first
carry none of its bytes, and then nobody notices that one is missing or the checksum is wrong
unless its metadata or signatures fail. -/
theorem TransactionNode.decodesWhole_iff (tools : TransactionTools Tx Meta Signature Hash)
    (nodes : NodesWithCids Cid Other) (fuel slot : Nat) (node : TransactionNode Cid)
    (segments : List (List (Part Cid))) (tx : Tx) (hcut : node.CutInto tools segments tx) :
    node.DecodesWhole tools nodes fuel slot segments tx ↔
      (chunks segments.flatten ≠ [] → ¬node.Intact tools nodes segments) ∧
      (chunks segments.flatten = [] → node.Damaged tools nodes segments →
        node.MetadataRefused tools nodes fuel slot ∨ node.Unsigned tools nodes fuel tx) := by
  rw [← node.handOver_error_iff]
  by_cases hrest : chunks segments.flatten = []
  · have hwhole : node.data.data = tools.wincode.serialize tx := by
      rw [← hcut.bytes,payload,hrest,List.append_nil]
    have hresult : node.onTransaction tools nodes fuel slot = _ := onTransaction_complete hwhole
    rw [DecodesWhole,hresult]
    exact ⟨fun h => ⟨fun hne => absurd hrest hne,fun _ => h.2⟩,fun h => ⟨fun _ => rfl,h.2 hrest⟩⟩
  · have hresult : node.onTransaction tools nodes fuel slot = _ :=
      onTransaction_partial hcut.bytes.symm hrest
    rw [DecodesWhole,hresult]
    constructor
    · intro h
      exact ⟨fun _ hintact => node.handOver_ne_deserialize tx (h.1 hintact).symm,
        fun hempty => absurd hempty hrest⟩
    · intro h
      exact ⟨fun hintact => absurd hintact (h.1 hrest),fun _ => ⟨.deserialize,by simp,rfl⟩⟩

def pairTools : TransactionTools (UInt8 × UInt8) Unit UInt8 UInt8 where
  wincode := {
    serialize := fun tx => [tx.1,tx.2]
    deserializeExact := fun bytes => match bytes with
      | [a,b] => some (a,b)
      | _ => none
    roundTrip := fun _ => rfl
    selfDelimiting := by
      intro tx bytes rest h hrest
      match bytes, rest with
      | [], _ => rfl
      | [_], _ => rfl
      | [_,_], [] => exact absurd rfl hrest
      | [_,_], _ :: _ => simp at h
      | _ :: _ :: _ :: _, _ => simp at h }
  sums := NodesWithCids.byLength
  decodeTransactionStatusMeta := fun _ _ => some ()
  messageHash := fun tx => tx.2
  signatures := fun tx => [tx.1]
  isSimpleVoteTransaction := fun _ => false

def emptyFrame : DataFrame Nat := ⟨6,none,none,none,[],none⟩

def cutNode : TransactionNode Nat :=
  ⟨⟨6,some 2,none,some 2,[5],some [1]⟩,emptyFrame,9,some 0⟩

def cutParts : List (List (Part Nat)) := [[⟨1,⟨6,none,none,none,[8],none⟩⟩]]

def cutNodes : NodesWithCids Nat Unit :=
  NodesWithCids.new.push ⟨1,.dataFrame ⟨6,none,none,none,[8],none⟩⟩

theorem cutNode_cutInto : cutNode.CutInto pairTools cutParts (5,8) :=
  ⟨⟨[],_,rfl,rfl,by simp,rfl⟩,rfl⟩

theorem not_decodesWhole_cutNode : cutNode.CutInto pairTools cutParts (5,8) ∧
    ¬cutNode.DecodesWhole pairTools cutNodes 1 9 cutParts (5,8) := by
  refine ⟨cutNode_cutInto,fun h => ?_⟩
  have hintact : cutNode.Intact pairTools cutNodes cutParts := by
    unfold TransactionNode.Intact NodesWithCids.Stored
    decide
  have hfails : cutNode.onTransaction pairTools cutNodes 1 9 = some (.error .deserialize) := by
    decide
  exact cutNode.handOver_ne_deserialize (5,8) ((h.1 hintact).symm.trans hfails)

def wholeNode : TransactionNode Nat := ⟨⟨6,some 2,none,none,[5,8],none⟩,emptyFrame,9,some 0⟩

theorem wholeNode_decodesWhole : wholeNode.DecodesWhole pairTools cutNodes 1 9 [] (5,8) ∧
    wholeNode.onTransaction pairTools cutNodes 1 9 = some (.ok ⟨9,0,5,8,false,(),(5,8)⟩) := by
  refine ⟨(TransactionNode.decodesWhole_iff pairTools cutNodes 1 9 wholeNode [] (5,8)
    ⟨rfl,rfl⟩).mpr ⟨fun h => absurd rfl h,fun _ hdamaged => ?_⟩,by decide⟩
  rcases hdamaged with ⟨part,hmem,-⟩ | ⟨-,hwrong⟩
  · cases hmem
  · exact absurd (by decide) hwrong

end Jetstreamer.Firehose.Car
