import Mathlib
set_option autoImplicit false

namespace Jetstreamer.Lib

section Reordering

variable {E S : Type} (step : S → E → S) (dep : E → E → Prop)

/-- Steps that do not depend on each other commute. -/
def Commutes : Prop :=
  ∀ a b, ¬ dep a b → ∀ s, step (step s a) b = step (step s b) a

variable {step dep}

theorem Commutes.foldl_past (hc : Commutes step dep) {a : E} {before : List E}
    (h : ∀ b ∈ before, ¬ dep b a) (s : S) :
    step (before.foldl step s) a = before.foldl step (step s a) := by
  induction before generalizing s with
  | nil => rfl
  | cons b rest ih =>
    have hb : ¬ dep b a := h b List.mem_cons_self
    have hrest : ∀ c ∈ rest, ¬ dep c a := fun c hmem => h c (List.mem_cons_of_mem b hmem)
    simp only [List.foldl_cons]
    rw [ih hrest (step s b),hc b a hb s]

/-- Every dependent pair of `source` keeps its order in `target`. -/
def KeepsOrder (dep : E → E → Prop) (source target : List E) : Prop :=
  ∀ a b, dep a b → [a,b].Sublist source → [a,b].Sublist target

theorem KeepsOrder.of_pairwise {source target : List E}
    (h : source.Pairwise fun a b => ¬ dep a b) : KeepsOrder dep source target := by
  intro a b hd hs
  have hpair := h.sublist hs
  simp only [List.pairwise_cons,List.mem_singleton,forall_eq] at hpair
  exact absurd hd hpair.1

theorem pair_sublist_flatten {levels : List (List E)} {a b : E} {r r' : Nat}
    {level level' : List E} (hr : levels[r]? = some level) (hr' : levels[r']? = some level')
    (ha : a ∈ level) (hb : b ∈ level') (hlt : r < r') : [a,b].Sublist levels.flatten := by
  induction levels generalizing r r' with
  | nil => simp at hr
  | cons first rest ih =>
    obtain ⟨k,rfl⟩ : ∃ k, r' = k + 1 := ⟨r' - 1,by omega⟩
    rw [List.getElem?_cons_succ] at hr'
    rw [List.flatten_cons]
    cases r with
    | zero =>
      obtain rfl : first = level := by simpa using hr
      have hmem : b ∈ rest.flatten :=
        List.mem_flatten.mpr ⟨level',List.mem_of_getElem? hr',hb⟩
      exact (List.singleton_sublist.mpr ha).append (List.singleton_sublist.mpr hmem)
    | succ j =>
      rw [List.getElem?_cons_succ] at hr
      exact (ih hr hr' (by omega)).trans (List.sublist_append_right first rest.flatten)

theorem KeepsOrder.of_levels {source : List E} {levels : List (List E)}
    (h : ∀ a b, dep a b → [a,b].Sublist source → ∃ (r r' : Nat) (level level' : List E), r < r' ∧
      levels[r]? = some level ∧ levels[r']? = some level' ∧ a ∈ level ∧ b ∈ level') :
    KeepsOrder dep source levels.flatten := by
  intro a b hd hs
  obtain ⟨r,r',level,level',hlt,hr,hr',ha,hb⟩ := h a b hd hs
  exact pair_sublist_flatten hr hr' ha hb hlt

theorem KeepsOrder.of_append {before after target : List E} {a : E}
    (h : KeepsOrder dep (before ++ a :: after) (a :: target))
    (hn : (a :: target).Nodup) (hp : (before ++ a :: after).Perm (a :: target)) :
    KeepsOrder dep (before ++ after) target := by
  intro b c hd hs
  have hsub : (before ++ after).Sublist (before ++ a :: after) :=
    (List.Sublist.refl before).append (List.sublist_cons_self a after)
  have hbc := h b c hd (hs.trans hsub)
  have hne : b ≠ a := by
    rintro rfl
    have hnd : (before ++ b :: after).Nodup := hp.nodup_iff.mpr hn
    have hmem : b ∈ before ++ after := hs.subset (by simp)
    rw [List.nodup_middle] at hnd
    exact (List.nodup_cons.mp hnd).1 hmem
  cases hbc with
  | cons _ htail => exact htail
  | cons_cons _ htail => exact absurd rfl hne

theorem KeepsOrder.head_free {before after target : List E} {a : E}
    (h : KeepsOrder dep (before ++ a :: after) (a :: target))
    (hn : (a :: target).Nodup) : ∀ b ∈ before, ¬ dep b a := by
  intro b hb hd
  have hsource : [b,a].Sublist (before ++ a :: after) :=
    (List.singleton_sublist.mpr hb).append
      (List.singleton_sublist.mpr List.mem_cons_self)
  have hnot : a ∉ target := (List.nodup_cons.mp hn).1
  cases h b a hd hsource with
  | cons _ htail => exact hnot (htail.subset (by simp))
  | cons_cons _ htail => exact hnot (htail.subset (by simp))

theorem Commutes.foldl_eq (hc : Commutes step dep) {source target : List E}
    (hp : source.Perm target) (hn : target.Nodup) (h : KeepsOrder dep source target) (s : S) :
    source.foldl step s = target.foldl step s := by
  induction target generalizing source s with
  | nil => rw [hp.eq_nil]
  | cons a rest ih =>
    obtain ⟨before,after,rfl⟩ := List.append_of_mem (hp.mem_iff.mpr List.mem_cons_self)
    have hfree := h.head_free hn
    have htail : (before ++ after).Perm rest :=
      (List.perm_middle.symm.trans hp).cons_inv
    have ihrest := ih htail (List.nodup_cons.mp hn).2 (h.of_append hn hp) (step s a)
    rw [List.foldl_append] at ihrest
    rw [List.foldl_append,List.foldl_cons,List.foldl_cons,hc.foldl_past hfree,ihrest]

end Reordering

section Grouping

variable {α : Type} {key : α → Nat}

theorem filter_least_append {least : Nat} {items : List α}
    (hsorted : items.Pairwise fun left right => key left ≤ key right)
    (hleast : ∀ item ∈ items, least ≤ key item) :
    items.filter (fun item => key item = least) ++ items.filter (fun item => key item ≠ least) =
      items := by
  induction items with
  | nil => rfl
  | cons first rest ih =>
    rw [List.pairwise_cons] at hsorted
    have hrest := ih hsorted.2 fun item hmem => hleast item (List.mem_cons_of_mem _ hmem)
    by_cases hfirst : key first = least
    · simpa [List.filter_cons,hfirst] using hrest
    · have hlt : least < key first :=
        Nat.lt_of_le_of_ne (hleast first List.mem_cons_self) (Ne.symm hfirst)
      have hnone : (first :: rest).filter (fun item => key item = least) = [] := by
        rw [List.filter_eq_nil_iff]
        intro item hmem
        rw [decide_eq_true_eq]
        cases hmem with
        | head => exact hfirst
        | tail _ hmem =>
          have hle := hsorted.1 item hmem
          omega
      have hall : (first :: rest).filter (fun item => key item ≠ least) = first :: rest := by
        rw [List.filter_eq_self]
        intro item hmem
        have hout := List.filter_eq_nil_iff.mp hnone item hmem
        simpa using hout
      rw [hnone,hall,List.nil_append]

theorem eq_flatMap_filter {start count : Nat} {items : List α}
    (hsorted : items.Pairwise fun left right => key left ≤ key right)
    (hrange : ∀ item ∈ items, start ≤ key item ∧ key item < start + count) :
    items = (List.range' start count).flatMap fun k => items.filter fun item => key item = k := by
  induction count generalizing start items with
  | zero =>
    cases items with
    | nil => rfl
    | cons first rest =>
      have hfirst := hrange first List.mem_cons_self
      omega
  | succ count ih =>
    have hsplit := filter_least_append hsorted fun item hmem => (hrange item hmem).1
    have hlater : ∀ item ∈ items.filter (fun item => key item ≠ start),
        start + 1 ≤ key item ∧ key item < start + 1 + count := by
      intro item hmem
      obtain ⟨hitem,hne⟩ := List.mem_filter.mp hmem
      have hkey := hrange item hitem
      rw [decide_eq_true_eq] at hne
      omega
    have htail := ih (hsorted.filter fun item => key item ≠ start) hlater
    rw [List.range'_succ,List.flatMap_cons]
    nth_rewrite 1 [← hsplit]
    rw [htail]
    congr 1
    refine List.flatMap_congr fun k hk => ?_
    have hne : k ≠ start := by
      have hmem := List.mem_range'_1.mp hk
      omega
    rw [List.filter_filter]
    refine List.filter_congr fun item _ => ?_
    by_cases hkey : key item = k <;> simp [hkey,hne]

end Grouping

end Jetstreamer.Lib
