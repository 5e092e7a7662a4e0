import Mathlib
set_option autoImplicit false

namespace Jetstreamer.Firehose

def slotToEpoch (slot : Nat) : Nat := slot / 432000

def epochToSlotRange (epoch : Nat) : Nat × Nat := (epoch*432000,epoch*432000+431999)

def epochStart (epoch : Nat) : Nat := (epochToSlotRange epoch).1

def epochEnd (epoch : Nat) : Nat := (epochToSlotRange epoch).2

theorem slotToEpoch_eq_iff {slot epoch : Nat} :
    slotToEpoch slot = epoch ↔ epochStart epoch ≤ slot ∧ slot ≤ epochEnd epoch := by
  simp only [slotToEpoch,epochStart,epochEnd,epochToSlotRange]
  omega

theorem slotToEpoch_mono {first second : Nat} (h : first ≤ second) :
    slotToEpoch first ≤ slotToEpoch second :=
  Nat.div_le_div_right h

theorem epochStart_le_epochEnd (epoch : Nat) : epochStart epoch ≤ epochEnd epoch := by
  simp only [epochStart,epochEnd,epochToSlotRange]
  omega

theorem epochStart_succ (epoch : Nat) : epochStart (epoch+1) = epochEnd epoch + 1 := by
  simp only [epochStart,epochEnd,epochToSlotRange]
  omega

structure CarTypes where
  Tx : Type
  Rewards : Type
  Hash : Type
  noRewards : Rewards
  zeroHash : Hash

/-- A node of an epoch's CAR that is not a block. A rewards node may reassemble to an
empty frame; subsets, epochs and continuation frames carry nothing for the worker. -/
inductive Node (C : CarTypes) where
  | transaction (index : Nat) (tx : C.Tx)
  | entry (numHashes : Nat) (hash : C.Hash) (transactions : Nat)
  | rewards (data : Option C.Rewards)
  | other

structure Block where
  slot : Nat
  parentSlot : Nat
  blocktime : Nat
  blockHeight : Option Nat

/-- What `read_until_block` returns: the nodes of a slot and the block node that ends them. -/
structure Batch (C : CarTypes) where
  nodes : List (Node C)
  block : Block

def Batch.slot {C : CarTypes} (batch : Batch C) : Nat := batch.block.slot

def Node.entryHash {C : CarTypes} : Node C → Option C.Hash
  | .entry _ hash _ => some hash
  | _ => none

def lastEntryHash {C : CarTypes} (batch : Batch C) : Option C.Hash :=
  batch.nodes.reverse.findSome? Node.entryHash

inductive Lookup where
  | found
  | notFound
  | failed
  deriving DecidableEq

/-- What the worker can read: each epoch's CAR, the slot index, and the stream that
follows a seek to the start or past the end of an indexed slot's data. -/
structure Source (C : CarTypes) where
  car : Nat → List (Batch C)
  slotToRange : Nat → Lookup
  scannable : Nat → Bool
  streamFrom : Nat → Nat → List (Batch C)
  streamAfter : Nat → Nat → List (Batch C)

namespace Source

variable {C : CarTypes} (src : Source C)

def Present (slot : Nat) : Prop := src.slotToRange slot = .found

instance (slot : Nat) : Decidable (src.Present slot) :=
  inferInstanceAs (Decidable (_ = _))

/-- Looks at `slot`, `slot-1`, … for the nearest present slot not below `floor`. -/
def prevPresentLoop (floor : Nat) : Nat → Nat → Option Nat
  | 0, _ => none
  | n+1, slot =>
      if slot < floor then none
      else match src.slotToRange slot with
        | .found => some slot
        | .failed => none
        | .notFound =>
            match slot with
            | 0 => none
            | below+1 => prevPresentLoop floor n below

def prevPresentSlot (floor before : Nat) : Option Nat :=
  match before with
  | 0 => none
  | slot+1 => src.prevPresentLoop floor 64 slot

def scanSlots (first last : Nat) : Option Nat :=
  (List.range' first (last+1-first)).find? (fun slot => src.slotToRange slot = .found)

def scanEpoch (after upToInclusive epoch : Nat) : Option Nat :=
  src.scanSlots (max (after+1) (epochStart epoch)) (min upToInclusive (epochEnd epoch))

def nextPresentLoop (after upToInclusive : Nat) : List Nat → Option Nat
  | [] => none
  | epoch :: rest =>
      if src.scannable epoch then
        (src.scanEpoch after upToInclusive epoch).or (nextPresentLoop after upToInclusive rest)
      else none

/-- The first present slot after `after` and at most `upToInclusive`. A legacy index
cannot be scanned, and then nothing is reported. -/
def nextPresentSlot (after upToInclusive : Nat) : Option Nat :=
  src.nextPresentLoop after upToInclusive
    (List.range' (slotToEpoch (after+1))
      (slotToEpoch upToInclusive + 1 - slotToEpoch (after+1)))

inductive Seek where
  | reached (slot : Nat)
  | missing
  | failed

def Seek.elim {α : Type} (onReached : Nat → α) (onMissing onFailed : α) : Seek → α
  | .reached found => onReached found
  | .missing => onMissing
  | .failed => onFailed

def seekUp : Nat → Nat → Seek
  | 0, _ => .missing
  | n+1, slot =>
      match src.slotToRange slot with
      | .found => .reached slot
      | .failed => .failed
      | .notFound => seekUp n (slot+1)

def seekDown (floor : Nat) : Nat → Seek
  | 0 => .missing
  | below+1 =>
      if floor < below+1 then
        match src.slotToRange below with
        | .found => .reached below
        | .failed => .failed
        | .notFound => seekDown floor below
      else .missing

/-- `seek_to_slot`: the stream from the first indexed slot at or above `slot`, else from
past the epoch's last indexed slot below it; no stream when the index cannot answer. -/
def seekToSlot (slot : Nat) : Option (List (Batch C)) :=
  let epoch := slotToEpoch slot
  (src.seekUp (epochEnd epoch + 1 - slot) slot).elim
    (fun found => some (src.streamFrom epoch found))
    ((src.seekDown (epochStart epoch) slot).elim (fun found => some (src.streamAfter epoch found))
      none none)
    none

/-- The stream a pass reads in an epoch it enters at `localStart`. Past the epoch's first
slot it enters one present slot early, so that the hash chain is primed. -/
def openAt (epoch localStart : Nat) : Option (List (Batch C)) :=
  if epochStart epoch < localStart then
    src.seekToSlot ((src.prevPresentSlot (epochStart epoch) localStart).getD localStart)
  else some (src.car epoch)

variable {src}

theorem scanSlots_some {first last found : Nat} (h : src.scanSlots first last = some found) :
    src.Present found ∧ first ≤ found ∧ found ≤ last := by
  have hmem := List.mem_of_find?_eq_some h
  rw [List.mem_range'_1] at hmem
  have hpresent : src.slotToRange found = .found := by simpa using List.find?_some h
  exact ⟨hpresent,by omega,by omega⟩

theorem scanSlots_none {first last slot : Nat} (h : src.scanSlots first last = none)
    (hlow : first ≤ slot) (hhigh : slot ≤ last) : ¬src.Present slot := by
  have hslot := List.find?_eq_none.mp h slot (by rw [List.mem_range'_1]; omega)
  simpa [Present] using hslot

theorem nextPresentLoop_some {after upTo found : Nat} {epochs : List Nat}
    (h : src.nextPresentLoop after upTo epochs = some found) :
    src.Present found ∧ after < found ∧ found ≤ upTo := by
  induction epochs with
  | nil => cases h
  | cons epoch rest ih =>
    rw [nextPresentLoop] at h
    split at h
    · rcases Option.or_eq_some_iff.mp h with hfound | ⟨_,hrest⟩
      · obtain ⟨hpresent,hlow,hhigh⟩ := scanSlots_some hfound
        exact ⟨hpresent,(le_max_left _ _).trans hlow,hhigh.trans (min_le_left _ _)⟩
      · exact ih hrest
    · cases h

theorem nextPresentLoop_none (hscan : ∀ epoch, src.scannable epoch = true) {after upTo : Nat}
    {epochs : List Nat} (h : src.nextPresentLoop after upTo epochs = none) {slot : Nat}
    (hafter : after < slot) (hle : slot ≤ upTo) (hepoch : slotToEpoch slot ∈ epochs) :
    ¬src.Present slot := by
  induction epochs with
  | nil => simp at hepoch
  | cons epoch rest ih =>
    rw [nextPresentLoop,if_pos (hscan epoch)] at h
    obtain ⟨hnone,hrest⟩ := Option.or_eq_none_iff.mp h
    cases hepoch with
    | tail _ hlater => exact ih hrest hlater
    | head =>
      obtain ⟨hlow,hhigh⟩ := slotToEpoch_eq_iff.mp (Eq.refl (slotToEpoch slot))
      exact scanSlots_none hnone (max_le hafter hlow) (le_min hle hhigh)

theorem nextPresentSlot_some {after upTo found : Nat}
    (h : src.nextPresentSlot after upTo = some found) :
    src.Present found ∧ after < found ∧ found ≤ upTo :=
  nextPresentLoop_some h

theorem nextPresentSlot_none (hscan : ∀ epoch, src.scannable epoch = true) {after upTo : Nat}
    (h : src.nextPresentSlot after upTo = none) {slot : Nat} (hafter : after < slot)
    (hle : slot ≤ upTo) : ¬src.Present slot := by
  refine nextPresentLoop_none hscan h hafter hle ?_
  rw [List.mem_range'_1]
  have hlow : slotToEpoch (after+1) ≤ slotToEpoch slot := slotToEpoch_mono hafter
  have hhigh := slotToEpoch_mono hle
  omega

end Source

end Jetstreamer.Firehose
