import Jetstreamer.Horizon.ZeroVec
import Jetstreamer.Lencode.Dedupe
import Jetstreamer.Lencode.DiffRoundTrip
set_option autoImplicit false

namespace Jetstreamer.Horizon
open Lib Lencode

abbrev Address := FixedBytes 32
abbrev Hash := FixedBytes 32
abbrev Signature := FixedBytes 64

/-- What the format takes from outside: the compressor, the checksum and the table of popular
addresses compiled into both sides. -/
structure Env where
  zstd : Zstd
  xxh64 : Bytes → UInt64
  primed : FrozenState Address
  primedCount : primed.values.length ≤ 65535

/-- Stateful encoders of a bucket. -/
structure EncoderContext where
  dedupe : DedupeEncoder Address
  diff : DiffStore

structure DecoderContext where
  dedupe : DedupeDecoder Address
  diff : DiffStore

def Env.newEncoderContext (env : Env) : EncoderContext := ⟨env.primed.encoder,.empty⟩

def newDecoderContext : DecoderContext := ⟨FrozenState.decoder,.empty⟩

/-- The two contexts know the same addresses under the same identifiers and the same blobs. -/
structure Linked (env : Env) (enc : EncoderContext) (dec : DecoderContext) : Prop where
  dedupe : env.primed.Mirrors enc.dedupe dec.dedupe
  diff : enc.diff = dec.diff

theorem linked_start (env : Env) : Linked env env.newEncoderContext newDecoderContext :=
  ⟨env.primed.mirrors_start,rfl⟩

structure AccountUpdate where
  pubkey : Address
  lamports : UInt64
  owner : Address
  executable : Bool
  rentEpoch : UInt64
  writeVersion : UInt64
  data : Bytes
  deriving DecidableEq

inductive PushAccountUpdateError where
  | metaFull
  | dataArenaFull
  deriving DecidableEq, Repr

def dataLen (updates : List AccountUpdate) : Nat := (updates.map (·.data.length)).sum

/-- Updates in order, with the room left in the table and in the shared data arena accounted
for. -/
structure AccountUpdates (MAX DATA : Nat) where
  updates : List AccountUpdate
  count : updates.length ≤ MAX
  size : dataLen updates ≤ DATA
  deriving DecidableEq

namespace AccountUpdates

variable {MAX DATA : Nat}

def empty : AccountUpdates MAX DATA := ⟨[],Nat.zero_le MAX,Nat.zero_le DATA⟩

def push (arena : AccountUpdates MAX DATA) (u : AccountUpdate) :
    Except PushAccountUpdateError (AccountUpdates MAX DATA) :=
  if hcount : MAX ≤ arena.updates.length then .error .metaFull
  else if hsize : DATA < dataLen arena.updates + u.data.length then .error .dataArenaFull
  else .ok ⟨arena.updates ++ [u],by simp; omega,by simp [dataLen] at *; omega⟩

/-- The arena as it was when it held `n` updates. -/
def firstN (arena : AccountUpdates MAX DATA) (n : Nat) : AccountUpdates MAX DATA where
  updates := arena.updates.take n
  count := le_trans (by simp) arena.count
  size := by
    refine le_trans ?_ arena.size
    rw [dataLen,dataLen,List.map_take]
    exact (List.take_sublist n _).sum_le_sum fun _ _ => Nat.zero_le _

theorem push_firstN {arena : AccountUpdates MAX DATA} {seen rest : List AccountUpdate}
    {u : AccountUpdate} (h : arena.updates = seen ++ u :: rest) :
    (arena.firstN seen.length).push u = .ok (arena.firstN (seen ++ [u]).length) := by
  have hseen : arena.updates.take seen.length = seen := by simp [h]
  have hnext : arena.updates.take (seen ++ [u]).length = seen ++ [u] := by
    simp [h,List.take_append]
  have hcount := arena.count
  have hsize := arena.size
  rw [h] at hcount hsize
  simp only [List.length_append,List.length_cons,dataLen,List.map_append,List.map_cons,
    List.sum_append,List.sum_cons] at hcount hsize
  unfold push
  rw [dif_neg (by simp only [firstN,hseen]; omega),
    dif_neg (by simp only [firstN,hseen,dataLen]; omega)]
  simp only [firstN,hseen,hnext]

theorem fits_or_full (updates : List AccountUpdate) :
    (updates.length ≤ MAX ∧ dataLen updates ≤ DATA) ∨
      ∃ (arena : AccountUpdates MAX DATA) (u : AccountUpdate) (rest : List AccountUpdate)
        (e : PushAccountUpdateError), updates = arena.updates ++ u :: rest ∧
          arena.push u = .error e := by
  induction updates using List.reverseRecOn with
  | nil => exact .inl ⟨Nat.zero_le MAX,Nat.zero_le DATA⟩
  | append_singleton us u ih =>
    rcases ih with ⟨hcount,hsize⟩ | ⟨arena,bad,rest,e,heq,hpush⟩
    · cases hpush : push (⟨us,hcount,hsize⟩ : AccountUpdates MAX DATA) u with
      | error e => exact .inr ⟨⟨us,hcount,hsize⟩,u,[],e,rfl,hpush⟩
      | ok next =>
        have hnext : next.updates = us ++ [u] := by
          unfold push at hpush
          split at hpush
          · cases hpush
          · split at hpush
            · cases hpush
            · cases hpush
              rfl
        rw [← hnext]
        exact .inl ⟨next.count,next.size⟩
    · exact .inr ⟨arena,bad,rest ++ [u],e,by simp [heq],hpush⟩

/-- The updates pushed one after the other, those without room left out. -/
def collect (updates : List AccountUpdate) : AccountUpdates MAX DATA :=
  updates.foldl (fun arena u => (arena.push u).toOption.getD arena) empty

theorem collect_updates (arena : AccountUpdates MAX DATA) : collect arena.updates = arena := by
  have hall : ∀ seen rest, arena.updates = seen ++ rest →
      rest.foldl (fun a u => (a.push u).toOption.getD a) (arena.firstN seen.length) = arena := by
    intro seen rest heq
    induction rest generalizing seen with
    | nil =>
      rw [List.append_nil] at heq
      simp only [List.foldl_nil,firstN,← heq,List.take_length]
    | cons u rest ih =>
      rw [List.foldl_cons,push_firstN heq]
      exact ih (seen ++ [u]) (by simp [heq])
  exact hall [] arena.updates rfl

end AccountUpdates

section Codecs

variable {ε : Type} [Raises ε] (env : Env)

def encodeAddress (address : Address) : Put ε EncoderContext :=
  Put.onPart (·.dedupe) (fun dedupe ctx => { ctx with dedupe }) (env.primed.encode (·.1) address)

def decodeAddress : Get ε DecoderContext Address :=
  Get.onPart (·.dedupe) (fun dedupe ctx => { ctx with dedupe })
    (env.primed.decode (decodeFixed 32))

def accountDiffKey (pubkey : Address) : UInt64 := env.xxh64 pubkey.1

/-- A blob under the diff key of its account. -/
def encodeData (pubkey : Address) (data : Bytes) : Put ε EncoderContext :=
  Put.onPart (·.diff.setKey (accountDiffKey env pubkey)) (fun diff ctx => { ctx with diff })
    (encodeBlob env.zstd data)

def decodeData (pubkey : Address) : Get ε DecoderContext Bytes :=
  Get.onPart (·.diff.setKey (accountDiffKey env pubkey)) (fun diff ctx => { ctx with diff })
    (decodeBlob env.zstd)

def encodeUpdateRecord (view : AccountUpdate) : Put ε EncoderContext :=
  Put.all [encodeAddress env view.pubkey,encodeU64 view.lamports,encodeAddress env view.owner,
    encodeBool view.executable,encodeU64 view.rentEpoch,encodeU64 view.writeVersion,
    encodeData env view.pubkey view.data]

def skipReaderBytes (n : Nat) : Get ε DecoderContext Unit := do
  let _ ← Get.take (Raises.encode .readerOutOfData) n
  return ()

/-- Passes over a blob without rebuilding it. -/
def skipDiffBlob : Get ε DecoderContext Unit := do
  let mode ← decodeLen
  if mode = 0 then
    let len ← decodeLen
    skipReaderBytes len
  else if mode = 1 then
    let _newLen ← decodeLen
    let numPatches ← decodeLen
    Get.loop numPatches (fun _ => do
      let _gap ← decodeLen
      let patchLen ← decodeLen
      skipReaderBytes patchLen) ()
  else if mode = 2 then
    let _newLen ← decodeLen
    let compressedLen ← decodeLen
    skipReaderBytes compressedLen
  else fail .invalidData

def decodeUpdateData (materialize : Bool) (pubkey : Address) : Get ε DecoderContext Bytes :=
  if materialize then decodeData env pubkey
  else do
    skipDiffBlob
    return []

/-- Reads one update and stores it; a full arena counts as invalid data. -/
def decodeUpdateRecordInto {MAX DATA : Nat} (materialize : Bool) (arena : AccountUpdates MAX DATA) :
    Get ε DecoderContext (AccountUpdates MAX DATA) := do
  let pubkey ← decodeAddress env
  let lamports ← decodeU64
  let owner ← decodeAddress env
  let executable ← decodeBool
  let rentEpoch ← decodeU64
  let writeVersion ← decodeU64
  let data ← decodeUpdateData env materialize pubkey
  match arena.push ⟨pubkey,lamports,owner,executable,rentEpoch,writeVersion,data⟩ with
  | .ok arena => return arena
  | .error _ => fail .invalidData

end Codecs

section RoundTrip

variable {ε : Type} [Raises ε] {env : Env}

theorem reads_address (address : Address) :
    Reads (Linked env) (encodeAddress env address : Put ε _) (decodeAddress env) address
      (Linked env) := by
  exact (env.primed.reads_encode decodeFixed_append address).onPart (fun s t h => h.dedupe)
    fun s t enc dec h hM => ⟨hM,h.diff⟩

section

variable (hz : env.zstd.Inverts)
include hz

theorem reads_data (pubkey : Address) (data : Bytes) :
    Reads (Linked env) (encodeData env pubkey data : Put ε _) (decodeData env pubkey) data
      (Linked env) := by
  refine (reads_blob hz data).onPart (fun s t h => ?_) fun s t enc dec h heq => ⟨h.dedupe,heq⟩
  rw [h.diff]

theorem reads_updateRecord {MAX DATA : Nat} {u : AccountUpdate}
    {arena next : AccountUpdates MAX DATA} (hpush : arena.push u = .ok next) :
    Reads (Linked env) (encodeUpdateRecord env u : Put ε _)
      (decodeUpdateRecordInto env true arena) next (Linked env) := by
  refine (reads_address u.pubkey).cons ((reads_u64 u.lamports).cons
    ((reads_address u.owner).cons ((reads_bool u.executable).cons ((reads_u64 u.rentEpoch).cons
      ((reads_u64 u.writeVersion).cons ((reads_data hz u.pubkey u.data).cons ?_))))))
  simp only [hpush]
  exact Reads.nil next

theorem reads_updates {MAX DATA : Nat} (arena : AccountUpdates MAX DATA) :
    Reads (Linked env) (Put.each (encodeUpdateRecord env) arena.updates : Put ε _)
      (Get.loop arena.updates.length (decodeUpdateRecordInto env true) AccountUpdates.empty) arena
      (Linked env) := by
  have h := Reads.loop (ε := ε) (I := fun _ => Linked env)
      (f := fun seen => arena.firstN seen.length)
    fun seen u rest heq => reads_updateRecord hz (AccountUpdates.push_firstN heq)
  have hall : arena.firstN arena.updates.length = arena := by simp [AccountUpdates.firstN]
  rw [hall] at h
  exact h

theorem fails_updateRecord {MAX DATA : Nat} {u : AccountUpdate}
    {arena : AccountUpdates MAX DATA} {e : PushAccountUpdateError}
    (hpush : arena.push u = .error e) :
    Fails (Linked env) (encodeUpdateRecord env u : Put ε _)
      (decodeUpdateRecordInto env true arena) (Raises.encode .invalidData) := by
  refine Fails.cons (reads_address u.pubkey) (Fails.cons (reads_u64 u.lamports)
    (Fails.cons (reads_address u.owner) (Fails.cons (reads_bool u.executable)
      (Fails.cons (reads_u64 u.rentEpoch) (Fails.cons (reads_u64 u.writeVersion)
        (Fails.cons (reads_data hz u.pubkey u.data) ?_))))))
  simp only [hpush]
  intro s t bytes s' rest _ _
  exact ⟨_,rfl⟩

theorem fails_updates {MAX DATA : Nat} {updates : List AccountUpdate}
    (hfull : ¬(updates.length ≤ MAX ∧ dataLen updates ≤ DATA)) :
    Fails (Linked env) (Put.each (encodeUpdateRecord env) updates : Put ε _)
      (Get.loop updates.length (decodeUpdateRecordInto env true)
        (AccountUpdates.empty : AccountUpdates MAX DATA)) (Raises.encode .invalidData) := by
  rcases @AccountUpdates.fits_or_full MAX DATA updates with hfits | ⟨arena,u,rest,e,rfl,hpush⟩
  · exact absurd hfits hfull
  · exact Fails.loop (reads_updates hz arena) (fails_updateRecord hz hpush)

end

end RoundTrip

end Jetstreamer.Horizon
