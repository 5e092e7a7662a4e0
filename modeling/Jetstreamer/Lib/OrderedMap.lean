import Mathlib
set_option autoImplicit false

namespace Jetstreamer.Lib

instance uint64LinearOrder : LinearOrder UInt64 where
  le_refl := UInt64.le_refl
  le_trans := fun _ _ _ => UInt64.le_trans
  lt_iff_le_not_ge := fun a b => by
    rw [UInt64.lt_iff_toNat_lt,UInt64.le_iff_toNat_le,UInt64.le_iff_toNat_le]
    omega
  le_antisymm := fun _ _ => UInt64.le_antisymm
  le_total := UInt64.le_total
  toDecidableLE := inferInstance
  toDecidableEq := inferInstance

/-- A map with its entries in the order of their keys. -/
structure OrderedMap (κ α : Type) [LinearOrder κ] where
  entries : List (κ × α)
  sorted : entries.Pairwise fun a b => a.1 < b.1

namespace OrderedMap

variable {κ α : Type} [LinearOrder κ]

def upsertEntry (key : κ) (f : Option α → α) : List (κ × α) → List (κ × α)
  | [] => [(key,f none)]
  | (other,a) :: rest =>
    if key < other then (key,f none) :: (other,a) :: rest
    else if key = other then (key,f (some a)) :: rest
    else (other,a) :: upsertEntry key f rest

theorem upsertEntry_key {key : κ} {f : Option α → α} {entries : List (κ × α)} {entry : κ × α}
    (h : entry ∈ upsertEntry key f entries) : entry.1 = key ∨ entry ∈ entries := by
  induction entries with
  | nil => simp_all [upsertEntry]
  | cons first rest ih =>
    obtain ⟨other,a⟩ := first
    unfold upsertEntry at h
    split at h
    · rcases List.mem_cons.mp h with rfl | h
      · exact .inl rfl
      · exact .inr h
    · split at h
      · rcases List.mem_cons.mp h with rfl | h
        · exact .inl rfl
        · exact .inr (List.mem_cons_of_mem _ h)
      · rcases List.mem_cons.mp h with rfl | h
        · exact .inr List.mem_cons_self
        · exact (ih h).imp id (List.mem_cons_of_mem _)

theorem upsertEntry_sorted {key : κ} {f : Option α → α} {entries : List (κ × α)}
    (h : entries.Pairwise fun a b => a.1 < b.1) :
    (upsertEntry key f entries).Pairwise fun a b => a.1 < b.1 := by
  induction entries with
  | nil => simp [upsertEntry]
  | cons first rest ih =>
    obtain ⟨other,a⟩ := first
    obtain ⟨hfirst,hrest⟩ := List.pairwise_cons.mp h
    unfold upsertEntry
    split
    · rename_i hless
      refine List.pairwise_cons.mpr ⟨fun entry hentry => ?_,h⟩
      rcases List.mem_cons.mp hentry with rfl | hentry
      · exact hless
      · exact hless.trans (hfirst entry hentry)
    · rename_i hnot
      split
      · rename_i heq
        subst heq
        exact List.pairwise_cons.mpr ⟨hfirst,hrest⟩
      · rename_i hne
        refine List.pairwise_cons.mpr ⟨fun entry hentry => ?_,ih hrest⟩
        rcases upsertEntry_key hentry with hkey | hentry
        · rw [hkey]
          exact lt_of_le_of_ne (not_lt.mp hnot) (Ne.symm hne)
        · exact hfirst entry hentry

def empty : OrderedMap κ α := ⟨[],List.Pairwise.nil⟩

def find (m : OrderedMap κ α) (key : κ) : Option α :=
  (m.entries.find? fun entry => entry.1 = key).map Prod.snd

/-- The entry of a key is made or changed. -/
def upsert (m : OrderedMap κ α) (key : κ) (f : Option α → α) : OrderedMap κ α :=
  ⟨upsertEntry key f m.entries,upsertEntry_sorted m.sorted⟩

def erase (m : OrderedMap κ α) (key : κ) : OrderedMap κ α :=
  ⟨m.entries.filter fun entry => entry.1 ≠ key,m.sorted.filter _⟩

variable {m : OrderedMap κ α} {key other : κ} {a : α} {f : Option α → α}

@[simp] theorem find_empty : (empty : OrderedMap κ α).find key = none := rfl

theorem find_eq_some_iff : m.find key = some a ↔ (key,a) ∈ m.entries := by
  obtain ⟨entries,hsorted⟩ := m
  unfold find
  dsimp only
  induction entries with
  | nil => simp
  | cons first rest ih =>
    obtain ⟨name,b⟩ := first
    obtain ⟨hfirst,hrest⟩ := List.pairwise_cons.mp hsorted
    by_cases hkey : name = key
    · subst hkey
      simp only [List.find?_cons,decide_true,Option.map_some,Option.some.injEq,List.mem_cons,
        Prod.mk.injEq,true_and]
      constructor
      · rintro rfl
        exact .inl rfl
      · rintro (rfl | hmem)
        · rfl
        · exact absurd (hfirst _ hmem) (lt_irrefl _)
    · simp only [List.find?_cons,hkey,decide_false,List.mem_cons,Prod.mk.injEq,Ne.symm hkey,
        false_and,false_or]
      exact ih hrest

theorem find_upsert :
    (m.upsert key f).find other = if other = key then some (f (m.find key)) else m.find other := by
  obtain ⟨entries,hsorted⟩ := m
  unfold find upsert
  dsimp only
  induction entries with
  | nil =>
    by_cases hother : other = key
    · simp [upsertEntry,hother]
    · simp [upsertEntry,hother,Ne.symm hother]
  | cons first rest ih =>
    obtain ⟨name,b⟩ := first
    obtain ⟨hfirst,hrest⟩ := List.pairwise_cons.mp hsorted
    unfold upsertEntry
    by_cases hless : key < name
    · -- the key comes before all others
      have hnone : rest.find? (fun entry => entry.1 = key) = none := by
        rw [List.find?_eq_none]
        intro entry hentry
        have := hless.trans (hfirst entry hentry)
        simpa using this.ne'
      rw [if_pos hless]
      by_cases hother : other = key
      · subst hother
        simp [hless.ne',hnone]
      · simp [hother,Ne.symm hother]
    · rw [if_neg hless]
      by_cases hkey : key = name
      · subst hkey
        by_cases hother : other = key
        · simp [hother]
        · simp [hother,Ne.symm hother]
      · rw [if_neg hkey]
        by_cases hname : name = other
        · subst hname
          simp [Ne.symm hkey]
        · simp only [List.find?_cons,hname,Ne.symm hkey,decide_false]
          exact ih hrest

theorem find_erase : (m.erase key).find other = if other = key then none else m.find other := by
  by_cases hother : other = key
  · subst hother
    rw [if_pos rfl]
    simp [find,erase]
  · rw [if_neg hother]
    ext a
    rw [find_eq_some_iff,find_eq_some_iff]
    simp [erase,hother]

theorem entries_erase_first {rest : List (κ × α)} (h : m.entries = (key,a) :: rest) :
    (m.erase key).entries = rest := by
  have hsorted := m.sorted
  rw [h] at hsorted
  obtain ⟨hfirst,-⟩ := List.pairwise_cons.mp hsorted
  rw [erase]
  dsimp only
  rw [h,List.filter_cons_of_neg (by simp),List.filter_eq_self]
  intro entry hentry
  simpa using (hfirst entry hentry).ne'

theorem find_first {rest : List (κ × α)} (h : m.entries = (key,a) :: rest) :
    m.find key = some a ∧ ∀ other, (m.find other).isSome → key ≤ other := by
  refine ⟨find_eq_some_iff.mpr (by simp [h]),fun other hother => ?_⟩
  obtain ⟨b,hb⟩ := Option.isSome_iff_exists.mp hother
  rw [find_eq_some_iff,h] at hb
  have hsorted := m.sorted
  rw [h] at hsorted
  rcases List.mem_cons.mp hb with heq | hmem
  · exact (Prod.mk.inj heq).1.ge
  · exact ((List.pairwise_cons.mp hsorted).1 _ hmem).le

theorem find_eq_none (h : m.entries = []) : m.find key = none := by
  simp [find,h]

end OrderedMap

end Jetstreamer.Lib
