import Mathlib
set_option autoImplicit false

namespace Jetstreamer.Lib

section Intervals

variable {α : Type} [LinearOrder α]

/-- A half-open interval has the point. -/
def Within (interval : α × α) (point : α) : Prop := interval.1 ≤ point ∧ point < interval.2

/-- What intervals sorted by their starts leave open between the cursor and the stop. -/
def gaps (stop : α) : α → List (α × α) → List (α × α)
  | cursor, [] => if cursor < stop then [(cursor,stop)] else []
  | cursor, (first,last) :: rest =>
    (if cursor < first then [(cursor,first)] else []) ++ gaps stop (max cursor last) rest

theorem exists_within_ite {low high point : α} :
    (∃ gap ∈ (if low < high then [(low,high)] else []), Within gap point) ↔
      low ≤ point ∧ point < high := by
  split
  · simp [Within]
  · rename_i hle
    simp only [List.not_mem_nil,false_and,exists_false,false_iff,not_and,not_lt]
    exact fun hlow => (not_lt.mp hle).trans hlow

theorem exists_within_gaps {stop cursor point : α} {intervals : List (α × α)}
    (hsorted : intervals.Pairwise fun a b => a.1 ≤ b.1)
    (hinside : ∀ interval ∈ intervals, interval.1 ≤ stop) :
    (∃ gap ∈ gaps stop cursor intervals, Within gap point) ↔
      (cursor ≤ point ∧ point < stop) ∧ ∀ interval ∈ intervals, ¬Within interval point := by
  induction intervals generalizing cursor with
  | nil =>
    rw [gaps,exists_within_ite]
    simp
  | cons interval rest ih =>
    obtain ⟨first,last⟩ := interval
    obtain ⟨hfirst,hrest⟩ := List.pairwise_cons.mp hsorted
    obtain ⟨hstop,hinside⟩ := List.forall_mem_cons.mp hinside
    have hstop : first ≤ stop := hstop
    simp only [gaps,List.mem_append,or_and_right,exists_or,exists_within_ite,ih hrest hinside,
      List.forall_mem_cons,max_le_iff]
    constructor
    · rintro (⟨hlow,hhigh⟩ | ⟨⟨⟨hlow,hlast⟩,hhigh⟩,hnone⟩)
      · -- a point before the first interval is before all of them
        exact ⟨⟨hlow,hhigh.trans_le hstop⟩,fun hwithin => hwithin.1.not_gt hhigh,
          fun later hmem hwithin => ((hfirst later hmem).trans hwithin.1).not_gt hhigh⟩
      · exact ⟨⟨hlow,hhigh⟩,fun hwithin => hlast.not_gt hwithin.2,hnone⟩
    · rintro ⟨⟨hlow,hhigh⟩,hfirst,hnone⟩
      rcases lt_or_ge point first with hbefore | hafter
      · exact .inl ⟨hlow,hbefore⟩
      · have hlast : last ≤ point := not_lt.mp fun hlt => hfirst ⟨hafter,hlt⟩
        exact .inr ⟨⟨⟨hlow,hlast⟩,hhigh⟩,hnone⟩

end Intervals

end Jetstreamer.Lib
