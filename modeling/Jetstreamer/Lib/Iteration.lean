import Mathlib
set_option autoImplicit false

namespace Jetstreamer.Lib

variable {α : Type} {f : α → Option α}

/-- Where `n` steps lead, if none of them stops. -/
def after (f : α → Option α) : Nat → α → Option α
  | 0, a => some a
  | n+1, a => (f a).bind (after f n)

def Stops (f : α → Option α) (a : α) : Prop := ∃ n, after f n a = none

def Reaches (f : α → Option α) (a b : α) : Prop := ∃ n, after f n a = some b

/-- Comes back to where it started. -/
def Returns (f : α → Option α) (a : α) : Prop := ∃ n, after f (n+1) a = some a

@[simp] theorem after_zero (a : α) : after f 0 a = some a := rfl

theorem after_succ_some {a b : α} (h : f a = some b) (n : Nat) : after f (n+1) a = after f n b := by
  simp [after,h]

theorem after_succ_none {a : α} (h : f a = none) (n : Nat) : after f (n+1) a = none := by
  simp [after,h]

theorem after_add (m n : Nat) (a : α) : after f (m + n) a = (after f m a).bind (after f n) := by
  induction m generalizing a with
  | zero => simp
  | succ m ih =>
    rw [Nat.succ_add,after,after,Option.bind_assoc]
    congr 1
    funext b
    exact ih b

theorem after_none_of_le {m n : Nat} {a : α} (h : after f m a = none) (hle : m ≤ n) :
    after f n a = none := by
  obtain ⟨k,rfl⟩ := Nat.exists_eq_add_of_le hle
  rw [after_add,h,Option.bind_none]

theorem stops_of_none {a : α} (h : f a = none) : Stops f a := ⟨1,after_succ_none h 0⟩

theorem stops_iff_of_some {a b : α} (h : f a = some b) : Stops f a ↔ Stops f b := by
  constructor
  · rintro ⟨n,hn⟩
    cases n with
    | zero => cases hn
    | succ n => exact ⟨n,by rw [← after_succ_some h,hn]⟩
  · rintro ⟨n,hn⟩
    exact ⟨n+1,by rw [after_succ_some h,hn]⟩

theorem after_mul_of_returns {c : α} {k : Nat} (h : after f k c = some c) (j : Nat) :
    after f (j * k) c = some c := by
  induction j with
  | zero => simp
  | succ j ih => rw [Nat.succ_mul,after_add,ih,Option.bind_some,h]

theorem stops_iff_not_returns (hfin : {b | ∃ a, f a = some b}.Finite) (a : α) :
    Stops f a ↔ ¬∃ c, Reaches f a c ∧ Returns f c := by
  constructor
  · rintro ⟨n,hn⟩ ⟨c,⟨m,hm⟩,k,hk⟩
    have hround : after f (m + n * (k+1)) a = some c := by
      rw [after_add,hm,Option.bind_some,after_mul_of_returns hk]
    have hle : n ≤ m + n * (k+1) := by
      rw [Nat.mul_succ]
      omega
    rw [after_none_of_le hn hle] at hround
    cases hround
  · intro hacyclic
    by_contra hgoing
    have hsome (n : Nat) : ∃ b, after f n a = some b :=
      Option.ne_none_iff_exists'.mp fun hn => hgoing ⟨n,hn⟩
    choose place hplace using hsome
    have hmem (n : Nat) : place (n+1) ∈ {b | ∃ a, f a = some b} := by
      have hstep := hplace (n+1)
      rw [after_add,hplace n,Option.bind_some,after] at hstep
      cases hf : f (place n) with
      | none => simp [hf] at hstep
      | some b =>
        simp only [hf,Option.bind_some,after_zero,Option.some.injEq] at hstep
        exact ⟨place n,by rw [hf,hstep]⟩
    -- infinitely many steps, finitely many places: two steps lead to the same one
    obtain ⟨m,n,hlt,hsame⟩ := hfin.exists_lt_map_eq_of_forall_mem hmem
    refine hacyclic ⟨place (m+1),⟨m+1,hplace (m+1)⟩,n-m-1,?_⟩
    have hgo := hplace (n+1)
    rw [show n + 1 = m + 1 + (n - m - 1 + 1) by omega,after_add,hplace (m+1),
      Option.bind_some] at hgo
    rw [hgo,hsame]
    congr 2
    omega

end Jetstreamer.Lib
