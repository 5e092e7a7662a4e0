import Jetstreamer.Lencode.Primitives
set_option autoImplicit false

namespace Jetstreamer.Lencode
open Lib

/-- The compression library, as far as the codec uses it. -/
structure Zstd where
  compress : Int → Bytes → Option Bytes
  decompress : Bytes → Option Bytes

def Zstd.Inverts (z : Zstd) : Prop :=
  ∀ level input output, z.compress level input = some output → z.decompress output = some input

def zstdLevel : Int := 1

/-- A contiguous region of changed bytes. -/
structure Patch where
  offset : Nat
  data : Bytes
  deriving DecidableEq, Repr

/-- Patches separated by fewer bytes than this are merged. -/
def coalesceGap : Nat := 8

/-- The differing regions of the common part of two blobs, `run` being the region still open. -/
def scan (i : Nat) (run : Option Patch) : Bytes → Bytes → List Patch
  | o :: os, n :: ns =>
    if o ≠ n then
      scan (i+1) (some (run.elim ⟨i,[n]⟩ fun p => ⟨p.offset,p.data ++ [n]⟩)) os ns
    else run.toList ++ scan (i+1) none os ns
  | _, _ => run.toList

def tailPatch (old new : Bytes) : List Patch :=
  if old.length < new.length then [⟨old.length,new.drop old.length⟩] else []

def coalesce (new : Bytes) (last : Patch) : List Patch → List Patch
  | [] => [last]
  | p :: rest =>
    let lastEnd := last.offset + last.data.length
    if p.offset - lastEnd < coalesceGap then
      coalesce new ⟨last.offset,last.data ++ (new.take p.offset).drop lastEnd ++ p.data⟩ rest
    else last :: coalesce new p rest

def computePatches (old new : Bytes) : Option (List Patch) :=
  let patches :=
    match scan 0 none old new ++ tailPatch old new with
    | [] => []
    | first :: rest => coalesce new first rest
  if new.length / 2 < (patches.map (·.data.length)).sum then none else some patches

def computeXor (old new : Bytes) : Bytes :=
  List.zipWith (· ^^^ ·) old new ++ (new.drop old.length ++ old.drop new.length)

def tryXorCompress (z : Zstd) (old new : Bytes) : Option Bytes :=
  match z.compress zstdLevel (computeXor old new) with
  | some compressed => if compressed.length < new.length then some compressed else none
  | none => none

/-- Last blob seen for each key, and the key of the next one. -/
structure DiffStore where
  store : UInt64 → Option Bytes
  currentKey : Option UInt64

def DiffStore.empty : DiffStore := ⟨fun _ => none,none⟩

def DiffStore.setKey (s : DiffStore) (key : UInt64) : DiffStore := { s with currentKey := some key }

def DiffStore.insert (s : DiffStore) (key : UInt64) (data : Bytes) : DiffStore :=
  { s with store := Function.update s.store key (some data) }

section Encoder

variable {ε σ : Type} [Raises ε]

def writePatch (cursor : Nat) (p : Patch) : Put ε σ :=
  Put.all [encodeLen (p.offset - cursor),encodeLen p.data.length,Put.raw p.data]

def writePatches (cursor : Nat) : List Patch → Put ε σ
  | [] => Put.raw []
  | p :: rest => Put.all [writePatch cursor p,writePatches (p.offset + p.data.length) rest]

def encodeRleToBuf (old new : Bytes) : Option (Put ε σ) :=
  (computePatches old new).map fun patches =>
    Put.all [encodeLen 1,encodeLen new.length,encodeLen patches.length,writePatches 0 patches]

def encodeXorToBuf (z : Zstd) (old new : Bytes) : Option (Put ε σ) :=
  (tryXorCompress z old new).map fun compressed =>
    Put.all [encodeLen 2,encodeLen new.length,encodeLen compressed.length,Put.raw compressed]

def encodeFull (data : Bytes) : Put ε σ :=
  Put.all [encodeLen 0,encodeLen data.length,Put.raw data]

def candidate : Option (Put ε Unit) → Except ε (Option Bytes)
  | none => .ok none
  | some p => do
    let written ← p ()
    return some written.1

def winner : Option Bytes → Option Bytes → Option Bytes
  | some rle, some xor => if rle.length ≤ xor.length then some rle else some xor
  | some rle, none => some rle
  | none, xor => xor

/-- A short list of patches makes the second candidate not worth computing. -/
def xorCandidate (z : Zstd) (old data : Bytes) (rle : Option Bytes) : Except ε (Option Bytes) :=
  if rle.any fun buf => buf.length * 10 ≤ data.length then .ok none
  else if tooLarge (max old.length data.length) then .error Raises.panics
  else candidate (encodeXorToBuf z old data)

/-- The diff against a known blob, or nothing when neither candidate is worth it. -/
def encodeDiff (z : Zstd) (old data : Bytes) : Except ε (Option Bytes) := do
  let rle ← candidate (encodeRleToBuf old data)
  let xor ← xorCandidate z old data rle
  return winner rle xor

def encodeBlob (z : Zstd) (data : Bytes) : Put ε DiffStore := fun s =>
  -- no slice is that long
  if tooLarge data.length then .error Raises.panics
  else
    match s.currentKey with
    | none => encodeFull data s
    | some key =>
      match s.store key with
      | none => encodeFull data (s.insert key data)
      | some old => do
        match ← encodeDiff z old data with
        | some buf => return (buf,s.insert key data)
        | none => encodeFull data (s.insert key data)

end Encoder

section Decoder

variable {ε τ : Type} [Raises ε]

def readExactInto (n : Nat) : Get ε τ Bytes :=
  if n = 0 then pure []
  else do
    reserve n
    (·.1) <$> Get.take (Raises.encode .readerOutOfData) n

/-- A cursor at the end of its data refuses even an empty read. -/
def readPatch (n : Nat) : Get ε τ Bytes := fun input =>
  if input.bytes = [] then .error (Raises.encode .readerOutOfData) input
  else ((·.1) <$> Get.take (Raises.encode .readerOutOfData) n) input

/-- One patch: the bytes of the old blob before it, then its own. -/
def applyPatch (old : Bytes) (done : Bytes × Nat) : Get ε τ (Bytes × Nat) := do
  let gap ← decodeLen
  let patchLen ← decodeLen
  let copyEnd := (done.2 + gap) % 2 ^ 64
  if old.length < copyEnd then fail .invalidData
  else if copyEnd < done.2 then panic
  else
    let copied := done.1 ++ (old.take copyEnd).drop done.2
    reserve (copied.length + patchLen)
    let patch ← readPatch patchLen
    return (copied ++ patch,copyEnd + patchLen)

def withTail (old : Bytes) (newLen : Nat) (done : Bytes × Nat) : Bytes :=
  let bound := min old.length newLen
  let remaining := bound - min done.2 bound
  if 0 < remaining ∧ done.2 < old.length then
    done.1 ++ (old.take (min (done.2 + remaining) old.length)).drop done.2
  else done.1

def zstdDecompressInto (z : Zstd) (compressed : Bytes) (originalLen : Nat) : Get ε τ Bytes := do
  reserve originalLen
  match z.decompress compressed with
  | none => fail .invalidData
  | some out =>
    if originalLen < out.length then fail .invalidData
    else if out.length ≠ originalLen then fail .incorrectLength
    else pure out

def applyXor (old xor : Bytes) (newLen : Nat) : Bytes :=
  List.zipWith (· ^^^ ·) (old.take newLen) xor ++ (xor.take newLen).drop old.length

def activeKey : Get ε DiffStore UInt64 := do
  match (← Get.ctx).currentKey with
  | some key => return key
  | none => fail .invalidData

def oldBlob (key : UInt64) : Get ε DiffStore Bytes := do
  match (← Get.ctx).store key with
  | some old => return old
  | none => fail .invalidData

def storeBlob (key : UInt64) (newLen : Nat) (result : Bytes) : Get ε DiffStore Bytes := do
  if result.length ≠ newLen then fail .invalidData
  else
    Get.modifyCtx fun s => s.insert key result
    return result

def decodeBlob (z : Zstd) : Get ε DiffStore Bytes := do
  let mode ← decodeLen
  if mode = 0 then
    let len ← decodeLen
    match (← Get.ctx).currentKey with
    | some key =>
      -- the stored buffer is cleared before it is filled
      Get.modifyCtx fun s => s.insert key []
      let data ← readExactInto len
      Get.modifyCtx fun s => s.insert key data
      return data
    | none => readExactInto len
  else if mode = 1 then
    let newLen ← decodeLen
    let numPatches ← decodeLen
    let key ← activeKey
    let old ← oldBlob key
    reserve newLen
    let done ← Get.loop numPatches (applyPatch old) ([],0)
    storeBlob key newLen (withTail old newLen done)
  else if mode = 2 then
    let newLen ← decodeLen
    let compressedLen ← decodeLen
    let key ← activeKey
    let old ← oldBlob key
    let compressed ← readExactInto compressedLen
    let xor ← zstdDecompressInto z compressed (max old.length newLen)
    storeBlob key newLen (applyXor old xor newLen)
  else fail .invalidData

end Decoder

end Jetstreamer.Lencode
