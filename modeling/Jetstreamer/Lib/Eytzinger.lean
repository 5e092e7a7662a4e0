import Mathlib
set_option autoImplicit false

namespace Jetstreamer.Lib

/-- The positions of the subtree at `i` of the tree that `n` array positions spell breadth first,
in the order a search tree keeps its keys. -/
def inorder (n i : Nat) : List Nat :=
  if i < n then inorder n (2*i+1) ++ i :: inorder n (2*i+2) else []
termination_by n - i

theorem inorder_of_lt {n i : Nat} (h : i < n) :
    inorder n i = inorder n (2*i+1) ++ i :: inorder n (2*i+2) := by
  rw [inorder,if_pos h]

theorem inorder_of_le {n i : Nat} (h : n ≤ i) : inorder n i = [] := by
  rw [inorder,if_neg (by omega)]

theorem child_mem_inorder {n i j child : Nat} (h : j ∈ inorder n i)
    (hchild : child = 2*j+1 ∨ child = 2*j+2) (hlt : child < n) : child ∈ inorder n i := by
  induction i using inorder.induct n with
  | case1 i hi left right =>
    rw [inorder_of_lt hi,List.mem_append,List.mem_cons] at h ⊢
    rcases h with h | rfl | h
    · exact .inl (left h)
    · -- the child is the root of one of the two subtrees
      rcases hchild with rfl | rfl
      · exact .inl (by rw [inorder_of_lt hlt]; simp)
      · exact .inr (.inr (by rw [inorder_of_lt hlt]; simp))
    · exact .inr (.inr (right h))
  | case2 i hi =>
    rw [inorder_of_le (Nat.le_of_not_lt hi)] at h
    cases h

theorem mem_inorder_zero {n j : Nat} (h : j < n) : j ∈ inorder n 0 := by
  induction j using Nat.strong_induction_on with
  | _ j ih =>
    rcases Nat.eq_zero_or_pos j with rfl | hpos
    · rw [inorder_of_lt h]
      simp
    · have hparent := ih ((j-1)/2) (by omega) (by omega)
      exact child_mem_inorder hparent (by omega) h

section Search

variable {κ : Type} [LinearOrder κ] {n : Nat} {key : Nat → κ} {target : κ}

/-- The keys at the first `n` positions are distinct and ascend in order. -/
def EytzingerOrder (n : Nat) (key : Nat → κ) : Prop :=
  ((inorder n 0).map key).Pairwise (· < ·)

/-- The search from position `i`: to the right past a smaller key, to the left past a larger. -/
def descend (n : Nat) (key : Nat → κ) (target : κ) (i : Nat) : Option Nat :=
  if i < n then
    if key i = target then some i
    else descend n key target (if key i < target then 2*i+2 else 2*i+1)
  else none
termination_by n - i
decreasing_by split <;> omega

theorem descend_some {i j : Nat} (h : descend n key target i = some j) :
    j < n ∧ key j = target := by
  induction i using descend.induct n key target with
  | case1 i hi heq =>
    rw [descend,if_pos hi,if_pos heq] at h
    cases h
    exact ⟨hi,heq⟩
  | case2 i hi hne ih =>
    rw [descend,if_pos hi,if_neg hne] at h
    exact ih h
  | case3 i hi =>
    rw [descend,if_neg hi] at h
    cases h

theorem descend_of_mem {i j : Nat} (horder : ((inorder n i).map key).Pairwise (· < ·))
    (hmem : j ∈ inorder n i) (hkey : key j = target) : descend n key target i = some j := by
  induction i using inorder.induct n with
  | case1 i hi left right =>
    rw [inorder_of_lt hi,List.map_append,List.map_cons,List.pairwise_append,
      List.pairwise_cons] at horder
    obtain ⟨hleft,⟨habove,hright⟩,hbelow⟩ := horder
    rw [inorder_of_lt hi,List.mem_append,List.mem_cons] at hmem
    rw [descend,if_pos hi]
    rcases hmem with hmem | rfl | hmem
    · have hlt : key j < key i := hbelow (key j) (List.mem_map_of_mem hmem) (key i) (by simp)
      rw [hkey] at hlt
      rw [if_neg hlt.ne',if_neg hlt.asymm]
      exact left hleft hmem
    · rw [if_pos hkey]
    · have hlt : key i < key j := habove (key j) (List.mem_map_of_mem hmem)
      rw [hkey] at hlt
      rw [if_neg hlt.ne,if_pos hlt]
      exact right hright hmem
  | case2 i hi =>
    rw [inorder_of_le (Nat.le_of_not_lt hi)] at hmem
    cases hmem

theorem EytzingerOrder.descend_eq_some_iff (h : EytzingerOrder n key) {j : Nat} :
    descend n key target 0 = some j ↔ j < n ∧ key j = target :=
  ⟨descend_some,fun ⟨hlt,hkey⟩ => descend_of_mem h (mem_inorder_zero hlt) hkey⟩

end Search

end Jetstreamer.Lib
