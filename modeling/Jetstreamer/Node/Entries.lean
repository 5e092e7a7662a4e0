import Mathlib
set_option autoImplicit false

namespace Jetstreamer.Node

/-- The data that passes through the replay pipeline without being looked at. -/
structure ChainTypes where
  Sig : Type
  Message : Type
  Status : Type
  Details : Type
  Hash : Type

structure VersionedTransaction (C : ChainTypes) where
  signatures : List C.Sig
  message : C.Message

structure TransactionStatusMeta (C : ChainTypes) where
  status : C.Status
  details : C.Details

structure ScheduledTransaction (C : ChainTypes) where
  tx : VersionedTransaction C
  expectedStatus : C.Status
  statusMeta : TransactionStatusMeta C

structure PendingEntry (C : ChainTypes) where
  entryIndex : Nat
  startIndex : Nat
  txCount : Nat
  hash : C.Hash
  numHashes : Nat

structure ReadyEntry (Tx Hash : Type) where
  slot : Nat
  entryIndex : Nat
  startIndex : Nat
  txs : List Tx
  hash : Hash
  numHashes : Nat
  txCount : Nat
  deriving DecidableEq, Repr

end Jetstreamer.Node
