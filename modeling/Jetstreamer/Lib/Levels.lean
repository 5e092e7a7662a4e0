import Mathlib
set_option autoImplicit false

namespace Jetstreamer.Lib

section Levels

variable {R : Nat → Nat → Prop}

/-- An item stands one level above the highest earlier item it depends on. -/
def Leveled (R : Nat → Nat → Prop) [DecidableRel R] (n : Nat) (level : Nat → Nat) : Prop :=
  ∀ i < n, level i = ((Finset.range i).filter (R · i)).sup fun j => level j + 1

/-- Items each of which depends on the one before it. -/
def DependencyChain (R : Nat → Nat → Prop) (chain : List Nat) : Prop :=
  chain.IsChain fun j i => j < i ∧ R j i

theorem dependencyChain_concat {chain : List Nat} {j i : Nat} :
    DependencyChain R (chain ++ [j] ++ [i]) ↔ DependencyChain R (chain ++ [j]) ∧ j < i ∧ R j i := by
  rw [DependencyChain,DependencyChain,List.isChain_append]
  simp

theorem DependencyChain.le_last {chain : List Nat} {i : Nat}
    (h : DependencyChain R (chain ++ [i])) : ∀ j ∈ chain, j < i := by
  induction chain using List.reverseRecOn generalizing i with
  | nil => simp
  | append_singleton chain k ih =>
    obtain ⟨hchain,hlt,-⟩ := dependencyChain_concat.mp h
    intro j hj
    rcases List.mem_append.mp hj with hj | hj
    · exact (ih hchain j hj).trans hlt
    · simpa [List.mem_singleton.mp hj] using hlt

variable [DecidableRel R] {n : Nat} {level : Nat → Nat}

theorem leveled_of_steps (above : ∀ j i, j < i → i < n → R j i → level j < level i)
    (attained : ∀ i < n, level i = 0 ∨ ∃ j < i, R j i ∧ level i = level j + 1) :
    Leveled R n level := by
  intro i hi
  apply le_antisymm
  · rcases attained i hi with hzero | ⟨j,hj,hR,heq⟩
    · simp [hzero]
    · rw [heq]
      exact Finset.le_sup (f := fun j => level j + 1) (by simp [hj,hR])
  · simp only [Finset.sup_le_iff,Finset.mem_filter,Finset.mem_range]
    exact fun j hj => above j i hj.1 hi hj.2

section

variable (h : Leveled R n level)
include h

theorem Leveled.lt {i j : Nat} (hi : i < n) (hj : j < i) (hR : R j i) :
    level j < level i := by
  rw [h i hi]
  exact Finset.le_sup (f := fun j => level j + 1) (by simp [hj,hR])

theorem Leveled.attained {i : Nat} (hi : i < n) (hpos : level i ≠ 0) :
    ∃ j < i, R j i ∧ level i = level j + 1 := by
  have hne : ((Finset.range i).filter (R · i)).Nonempty := by
    rw [Finset.nonempty_iff_ne_empty]
    intro hempty
    exact hpos (by rw [h i hi,hempty]; rfl)
  obtain ⟨j,hj,heq⟩ := Finset.exists_mem_eq_sup _ hne fun j => level j + 1
  simp only [Finset.mem_filter,Finset.mem_range] at hj
  exact ⟨j,hj.1,hj.2,by rw [h i hi,heq]⟩

theorem Leveled.le {place : Nat → Nat}
    (hplace : ∀ j i, j < i → i < n → R j i → place j < place i) {i : Nat} (hi : i < n) :
    level i ≤ place i := by
  induction i using Nat.strong_induction_on with
  | _ i ih =>
    by_cases hzero : level i = 0
    · simp [hzero]
    · obtain ⟨j,hj,hR,heq⟩ := h.attained hi hzero
      have hle := ih j hj (hj.trans hi)
      have hlt := hplace j i hj hi hR
      omega

theorem Leveled.exists_chain {i : Nat} (hi : i < n) :
    ∃ chain, DependencyChain R (chain ++ [i]) ∧ chain.length = level i := by
  induction i using Nat.strong_induction_on with
  | _ i ih =>
    by_cases hzero : level i = 0
    · exact ⟨[],by simp [DependencyChain],by simp [hzero]⟩
    · obtain ⟨j,hj,hR,heq⟩ := h.attained hi hzero
      obtain ⟨chain,hchain,hlen⟩ := ih j hj (hj.trans hi)
      exact ⟨chain ++ [j],dependencyChain_concat.mpr ⟨hchain,hj,hR⟩,by simp [hlen,heq]⟩

theorem Leveled.chain_length_le {chain : List Nat} {i : Nat} (hi : i < n)
    (hchain : DependencyChain R (chain ++ [i])) : chain.length ≤ level i := by
  induction chain using List.reverseRecOn generalizing i with
  | nil => simp
  | append_singleton chain j ih =>
    obtain ⟨hrest,hj,hR⟩ := dependencyChain_concat.mp hchain
    have hle := ih (hj.trans hi) hrest
    have hlt := h.lt hi hj hR
    simp only [List.length_append,List.length_singleton]
    omega

end

end Levels

end Jetstreamer.Lib
