import Mathlib
set_option autoImplicit false

namespace Jetstreamer.Lib

variable {α : Type} {P : Nat → α → Prop} {size : α → Nat}

/-- Items one behind the other, each at the place the sizes of those before it give. -/
def Chained (P : Nat → α → Prop) (size : α → Nat) : Nat → List α → Prop
  | _, [] => True
  | n, a :: rest => P n a ∧ Chained P size (n + size a) rest

theorem Chained.concat {n : Nat} {items : List α} {last : α} (h : Chained P size n items)
    (hlast : P (n + (items.map size).sum) last) : Chained P size n (items ++ [last]) := by
  induction items generalizing n with
  | nil => exact ⟨by simpa using hlast,trivial⟩
  | cons first rest ih =>
    refine ⟨h.1,ih h.2 ?_⟩
    rwa [List.map_cons,List.sum_cons,← Nat.add_assoc] at hlast

end Jetstreamer.Lib
