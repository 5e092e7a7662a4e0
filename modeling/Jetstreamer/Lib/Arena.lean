import Jetstreamer.Lib.Codec
set_option autoImplicit false

namespace Jetstreamer.Lib

/-- A store of items that is changed in place, with its codec. A walk over the items that stops
the program has no result. -/
structure Arena (ε σ τ ρ Store Item : Type) where
  empty : Store
  clear : Store → Store
  push : Item → EStateM ρ Store Unit
  encode : Store → Put ε σ
  decodeInto : Store → Get ε τ Store
  iter : Store → Option (List Item)

namespace Arena

variable {ε σ τ ρ Store Item : Type} (arena : Arena ε σ τ ρ Store Item) (P : σ → τ → Prop)

/-- The stores calls lead to, each with the items it is to hold. Clearing and decoding may find
any store before them. -/
inductive Built : Store → List Item → Prop
  | empty : Built arena.empty []
  | clear (old : Store) : Built (arena.clear old) []
  | pushed {store next : Store} {items : List Item} {item : Item} : Built store items →
      arena.push item store = .ok () next → Built next (items ++ [item])
  | refused {store next : Store} {items : List Item} {item : Item} {e : ρ} : Built store items →
      arena.push item store = .error e next → Built next items
  | decoded {store next : Store} {items : List Item} (old : Store) {s s' : σ} {t : τ}
      {bytes rest : Bytes} {left : Input τ} : Built store items → P s t →
      arena.encode store s = .ok (bytes,s') →
      arena.decodeInto old ⟨t,bytes ++ rest⟩ = .ok next left → Built next items

/-- The store is a list to its callers: what it holds comes out, an item there is room for goes
behind it, one there is no room for is refused and changes nothing, and its encoding makes any
other store the same. -/
def ActsAsList (fits : List Item → Item → Prop) : Prop :=
  ∀ store items, arena.Built P store items → arena.iter store = some items ∧
    (∀ item, fits items item → ∃ next, arena.push item store = .ok () next ∧
      arena.iter next = some (items ++ [item])) ∧
    (∀ item, ¬fits items item → ∃ e, arena.push item store = .error e store) ∧
    ∀ old s t bytes s' rest, P s t → arena.encode store s = .ok (bytes,s') →
      ∃ t', arena.decodeInto old ⟨t,bytes ++ rest⟩ = .ok store ⟨t',rest⟩

/-- A relation between stores and lists that every call keeps. -/
structure Refines (fits : List Item → Item → Prop) (R : Store → List Item → Prop) : Prop where
  empty : R arena.empty []
  clear : ∀ old, R (arena.clear old) []
  push : ∀ item store items, R store items →
    (¬fits items item ∧ ∃ e, arena.push item store = .error e store) ∨
    fits items item ∧ ∃ next, arena.push item store = .ok () next ∧ R next (items ++ [item])
  reads : ∀ store old, Reads P (arena.encode store) (arena.decodeInto old) store P
  iter : ∀ store items, R store items → arena.iter store = some items

def afterPush (store : Store) (item : Item) : Store :=
  match arena.push item store with
  | .ok _ next => next
  | .error _ next => next

/-- What is decoded over the old store, if it is, is well formed, and is so after any pushes. -/
def DecodesTo (W : Store → Prop) (old : Store) (input : Input τ) : Prop :=
  ∀ store left, arena.decodeInto old input = .ok store left →
    ∀ items : List Item, W (items.foldl arena.afterPush store)

variable {arena P} {fits : List Item → Item → Prop} {R : Store → List Item → Prop}

theorem Refines.built (h : arena.Refines P fits R) {store : Store} {items : List Item}
    (hbuilt : arena.Built P store items) : R store items := by
  induction hbuilt with
  | empty => exact h.empty
  | clear old => exact h.clear old
  | @pushed store _ items item _ hpush ih =>
    obtain ⟨-,_,hrefused⟩ | ⟨-,_,hpushed,hnext⟩ := h.push item store items ih
    · rw [hrefused] at hpush
      cases hpush
    · rw [hpushed] at hpush
      cases hpush
      exact hnext
  | @refused store _ items item _ _ hpush ih =>
    obtain ⟨-,_,hrefused⟩ | ⟨-,_,hpushed,-⟩ := h.push item store items ih
    · rw [hrefused] at hpush
      cases hpush
      exact ih
    · rw [hpushed] at hpush
      cases hpush
  | decoded old _ hP hencode hdecode ih =>
    obtain ⟨t',hread,-⟩ := h.reads _ old _ _ _ _ _ hP hencode
    rw [hread] at hdecode
    cases hdecode
    exact ih

theorem Refines.actsAsList (h : arena.Refines P fits R) : arena.ActsAsList P fits := by
  intro store items hbuilt
  have hstore := h.built hbuilt
  refine ⟨h.iter _ _ hstore,fun item hfits => ?_,fun item hfull => ?_,
    fun old s t bytes s' rest hP hput => ?_⟩
  · obtain ⟨hfull,-⟩ | ⟨-,next,hpush,hnext⟩ := h.push item store items hstore
    · exact absurd hfits hfull
    · exact ⟨next,hpush,h.iter _ _ hnext⟩
  · obtain ⟨-,hrefused⟩ | ⟨hfits,-⟩ := h.push item store items hstore
    · exact hrefused
    · exact absurd hfits hfull
  · obtain ⟨t',hread,-⟩ := h.reads store old s t bytes s' rest hP hput
    exact ⟨t',hread⟩

theorem decodesTo_iff {W : Store → Prop}
    (hpush : ∀ store item, W store → W (arena.afterPush store item))
    {old : Store} {input : Input τ} :
    arena.DecodesTo W old input ↔
      ∀ store left, arena.decodeInto old input = .ok store left → W store := by
  refine ⟨fun h store left hdecode => h store left hdecode [],fun h store left hdecode items => ?_⟩
  exact List.foldlRecOn items _ (h store left hdecode)
    fun store hstore item _ => hpush store item hstore

end Arena

end Jetstreamer.Lib
