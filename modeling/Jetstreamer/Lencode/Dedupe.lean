import Jetstreamer.Lencode.Primitives
set_option autoImplicit false

namespace Jetstreamer.Lencode
open Lib

variable {α : Type} [DecidableEq α]

/-- The values both sides are primed with, in the same order and without repetition. -/
structure FrozenState (α : Type) where
  values : List α
  nodup : values.Nodup

/-- Identifiers given so far to values outside the frozen table. -/
structure DedupeEncoder (α : Type) where
  store : List (α × Nat)
  nextId : Nat

structure DedupeDecoder (α : Type) where
  scratch : List α

namespace FrozenState

variable (frozen : FrozenState α)

def encoder : DedupeEncoder α := ⟨[],frozen.values.length + 1⟩

def decoder : DedupeDecoder α := ⟨[]⟩

/-- A known value is written as its identifier, a new one as 0 and its own bytes. -/
def encode {ε : Type} [Raises ε] (pack : α → Bytes) (value : α) : Put ε (DedupeEncoder α) :=
  fun s =>
    match frozen.values.idxOf? value with
    | some i => encodeLen (i + 1) s
    | none =>
      match s.store.lookup value with
      | some id => encodeLen id s
      | none =>
        Put.all [encodeLen 0,Put.raw (pack value)] ⟨(value,s.nextId) :: s.store,s.nextId + 1⟩

def decode {ε : Type} [Raises ε] (unpack : Get ε (DedupeDecoder α) α) :
    Get ε (DedupeDecoder α) α := do
  let id ← decodeVarintUsize
  if id ≠ 0 ∧ id ≤ frozen.values.length then
    match frozen.values[id-1]? with
    | some value => return value
    | none => fail .invalidData
  else if id = 0 then
    let value ← unpack
    Get.modifyCtx fun dec => ⟨dec.scratch ++ [value]⟩
    return value
  else
    match (← Get.ctx).scratch[id-frozen.values.length-1]? with
    | some value => return value
    | none => fail .invalidData

/-- Every identifier the encoder has given out names the same value in the decoder's scratch. -/
structure Mirrors (enc : DedupeEncoder α) (dec : DedupeDecoder α) : Prop where
  next : enc.nextId = frozen.values.length + dec.scratch.length + 1
  known : ∀ value id, enc.store.lookup value = some id →
    frozen.values.length < id ∧ dec.scratch[id-frozen.values.length-1]? = some value

theorem mirrors_start : frozen.Mirrors frozen.encoder (decoder) :=
  ⟨by simp [encoder,decoder],by simp [encoder]⟩

theorem Mirrors.add {frozen : FrozenState α} {enc : DedupeEncoder α} {dec : DedupeDecoder α}
    (h : frozen.Mirrors enc dec) (value : α) :
    frozen.Mirrors ⟨(value,enc.nextId) :: enc.store,enc.nextId + 1⟩ ⟨dec.scratch ++ [value]⟩ := by
  refine ⟨by simp [h.next]; omega,?_⟩
  intro other id hlookup
  rw [List.lookup_cons] at hlookup
  by_cases heq : other = value
  · subst heq
    simp only [beq_self_eq_true] at hlookup
    cases hlookup
    have hindex : enc.nextId - frozen.values.length - 1 = dec.scratch.length := by
      have := h.next
      omega
    exact ⟨by have := h.next; omega,by simp [hindex]⟩
  · simp only [beq_eq_false_iff_ne.mpr heq] at hlookup
    obtain ⟨hlt,hget⟩ := h.known other id hlookup
    refine ⟨hlt,?_⟩
    rw [List.getElem?_append_left ((List.getElem?_eq_some_iff.mp hget).1)]
    exact hget

def valueOf (dec : DedupeDecoder α) (id : Nat) : Option α :=
  if id ≤ frozen.values.length then frozen.values[id-1]?
  else dec.scratch[id-frozen.values.length-1]?

section Lookup

omit [DecidableEq α]

variable {ε : Type} [Raises ε] {unpack : Get ε (DedupeDecoder α) α} {id : Nat}

theorem decode_id (hid : id < 2 ^ 64) (hpos : id ≠ 0) (dec : DedupeDecoder α) (rest : Bytes) :
    frozen.decode unpack ⟨dec,encodeVarint 8 id ++ rest⟩ =
      (frozen.valueOf dec id).elim (.error (Raises.encode .invalidData) ⟨dec,rest⟩)
        fun value => .ok value ⟨dec,rest⟩ := by
  rw [decode,Get.bind_of_ok (decodeVarintUsize_encodeVarint hid dec rest),valueOf]
  by_cases hle : id ≤ frozen.values.length
  · simp only [hpos,hle,ne_eq,not_false_eq_true,and_self,if_true]
    cases frozen.values[id-1]? <;> rfl
  · simp only [hpos,hle,and_false,if_false]
    rw [Get.ctx_bind]
    cases dec.scratch[id-frozen.values.length-1]? <;> rfl

theorem decode_new {dec : DedupeDecoder α} {value : α} {bytes rest : Bytes}
    (hunpack : unpack ⟨dec,bytes ++ rest⟩ = .ok value ⟨dec,rest⟩) :
    frozen.decode unpack ⟨dec,encodeVarint 8 0 ++ (bytes ++ rest)⟩ =
      .ok value ⟨⟨dec.scratch ++ [value]⟩,rest⟩ := by
  rw [decode,Get.bind_of_ok (decodeVarintUsize_encodeVarint (by decide) dec _)]
  simp only [ne_eq,not_true_eq_false,false_and,if_false,if_true]
  rw [Get.bind_of_ok hunpack]
  rfl

end Lookup

theorem reads_encode {ε : Type} [Raises ε] {pack : α → Bytes} {unpack : Get ε (DedupeDecoder α) α}
    (hunpack : ∀ value dec rest, unpack ⟨dec,pack value ++ rest⟩ = .ok value ⟨dec,rest⟩)
    (value : α) :
    Reads frozen.Mirrors (frozen.encode pack value) (frozen.decode unpack) value
      frozen.Mirrors := by
  intro enc dec bytes enc' rest hM hp
  unfold encode at hp
  split at hp
  · rename_i i hidx
    obtain ⟨hlt,hget,-⟩ := List.idxOf?_eq_some_iff.mp hidx
    obtain ⟨hid,rfl,rfl⟩ := encodeLen_ok hp
    refine ⟨dec,?_,hM⟩
    rw [decode_id frozen hid (by omega)]
    simp [valueOf,show i + 1 ≤ frozen.values.length by omega,hlt,hget]
  · split at hp
    · rename_i id hlookup
      obtain ⟨hlt,hget⟩ := hM.known value id hlookup
      obtain ⟨hid,rfl,rfl⟩ := encodeLen_ok hp
      refine ⟨dec,?_,hM⟩
      rw [decode_id frozen hid (by omega)]
      simp [valueOf,show ¬id ≤ frozen.values.length by omega,hget]
    · obtain ⟨first,middle,others,hfirst,hothers,rfl⟩ := Put.all_cons_ok.mp hp
      obtain ⟨hid,rfl,rfl⟩ := encodeLen_ok hfirst
      obtain ⟨second,middle,others,hsecond,hnil,rfl⟩ := Put.all_cons_ok.mp hothers
      cases hsecond
      cases hnil
      refine ⟨⟨dec.scratch ++ [value]⟩,?_,hM.add value⟩
      rw [List.append_nil,List.append_assoc]
      exact decode_new frozen (hunpack value dec rest)

end FrozenState

end Jetstreamer.Lencode
