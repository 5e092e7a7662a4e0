import Mathlib
set_option autoImplicit false

namespace Jetstreamer.Lib

section Agents

variable {ι σ M : Type} [Fintype ι]

theorem share_le_sum (share : σ → Nat) (agents : ι → σ) (i : ι) :
    share (agents i) ≤ ∑ j, share (agents j) :=
  Finset.single_le_sum (fun j _ => Nat.zero_le (share (agents j))) (Finset.mem_univ i)

variable [DecidableEq ι] [AddCommMonoid M]

theorem exists_rest_update (share : σ → M) (agents : ι → σ) (i : ι) :
    ∃ rest, ∑ j, share (agents j) = rest + share (agents i) ∧
      ∀ next, ∑ j, share (Function.update agents i next j) = rest + share next := by
  refine ⟨∑ j ∈ Finset.univ.erase i, share (agents j),?_,fun next => ?_⟩
  · exact (Finset.sum_erase_add Finset.univ (fun j => share (agents j)) (Finset.mem_univ i)).symm
  · rw [← Finset.sum_erase_add Finset.univ (fun j => share (Function.update agents i next j))
      (Finset.mem_univ i),Function.update_self]
    congr 1
    apply Finset.sum_congr rfl
    intro j hj
    rw [Function.update_of_ne (Finset.ne_of_mem_erase hj)]

theorem sum_update_add (share : σ → Nat) (agents : ι → σ) (i : ι) (next : σ) :
    ∑ j, share (Function.update agents i next j) + share (agents i) =
      ∑ j, share (agents j) + share next := by
  obtain ⟨rest,hbefore,hafter⟩ := exists_rest_update share agents i
  rw [hbefore,hafter next]
  omega

end Agents

section Tasks

variable {σ M : Type} [AddCommMonoid M]

theorem exists_rest_set (share : σ → M) {tasks : List σ} {k : Nat} {task : σ}
    (h : tasks[k]? = some task) :
    ∃ rest, (tasks.map share).sum = rest + share task ∧
      ∀ next, ((tasks.set k next).map share).sum = rest + share next := by
  induction tasks generalizing k with
  | nil => simp at h
  | cons first tasks ih =>
    cases k with
    | zero =>
      cases h
      exact ⟨(tasks.map share).sum,by simp [add_comm],fun next => by simp [add_comm]⟩
    | succ k =>
      obtain ⟨rest,hbefore,hafter⟩ := ih (by simpa using h)
      exact ⟨share first + rest,by simp [hbefore,add_assoc],
        fun next => by rw [List.set_cons_succ,List.map_cons,List.sum_cons,hafter,add_assoc]⟩

theorem sum_eraseIdx_add (share : σ → M) {tasks : List σ} {k : Nat} {task : σ}
    (h : tasks[k]? = some task) :
    (tasks.map share).sum = ((tasks.eraseIdx k).map share).sum + share task := by
  induction tasks generalizing k with
  | nil => simp at h
  | cons first tasks ih =>
    cases k with
    | zero =>
      cases h
      simp [add_comm]
    | succ k => simp [ih (by simpa using h),add_assoc]

end Tasks

end Jetstreamer.Lib
