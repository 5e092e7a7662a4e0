import Jetstreamer.Firehose.Coverage
set_option autoImplicit false

namespace Jetstreamer.Firehose
open Lib

/-! How the slots of a run are shared out among its threads. -/

/-- Arithmetic that leaves 64 bits stops a checked build. -/
def fits64 (n : Nat) : Option Nat := if n < 2 ^ 64 then some n else none

def subrange (start slotsPerThread remainder i : Nat) : Option (Nat × Nat) := do
  let extraSlot := if i < remainder then 1 else 0
  let start ← fits64 (start + (← fits64 (i*slotsPerThread)))
  let start ← fits64 (start + min i remainder)
  let stop ← fits64 (start+slotsPerThread)
  return (start,← fits64 (stop+extraSlot))

/-- No result stands for a stop: an underflow, a division by zero or one of the two assertions. -/
def generateSubranges (slotRange : Nat × Nat) (threads : Nat) : Option (List (Nat × Nat)) := do
  if slotRange.2 < slotRange.1 ∨ threads = 0 then none
  let total := slotRange.2-slotRange.1
  let ranges ← (List.range threads).mapM (subrange slotRange.1 (total/threads) (total%threads))
  let totalCovered ← ranges.foldlM (fun sum r => fits64 (sum+(r.2-r.1))) 0
  if totalCovered ≠ total then none
  if ¬ranges.IsChain (fun a b => a.2 = b.1) then none
  return ranges

theorem fits64_of_lt {n : Nat} (h : n < 2 ^ 64) : fits64 n = some n := if_pos h

section Shares

variable {start stop threads : Nat}

def cut (start stop threads i : Nat) : Nat :=
  start+i*((stop-start)/threads)+min i ((stop-start)%threads)

theorem cut_succ (start stop threads i : Nat) :
    cut start stop threads (i+1) = cut start stop threads i+(stop-start)/threads+
      (if i < (stop-start)%threads then 1 else 0) := by
  rw [cut,cut,Nat.succ_mul]
  split <;> omega

theorem cut_mono (start stop threads : Nat) : Monotone (cut start stop threads) :=
  monotone_nat_of_le_succ fun i => by rw [cut_succ,Nat.add_assoc]; exact Nat.le_add_right _ _

theorem cut_zero (start stop threads : Nat) : cut start stop threads 0 = start := by
  simp [cut]

theorem cut_last (hrange : start ≤ stop) (hthreads : 0 < threads) :
    cut start stop threads threads = stop := by
  have hdiv := Nat.div_add_mod (stop-start) threads
  have hlt := Nat.mod_lt (stop-start) hthreads
  rw [cut,min_eq_right hlt.le]
  omega

theorem subrange_eq {i : Nat} (h : cut start stop threads (i+1) < 2 ^ 64) :
    subrange start ((stop-start)/threads) ((stop-start)%threads) i =
      some (cut start stop threads i,cut start stop threads (i+1)) := by
  rw [cut_succ] at h ⊢
  rw [cut] at h ⊢
  generalize (stop-start)/threads = q at h ⊢
  rw [subrange,fits64_of_lt (n := i*q) (by omega)]
  simp only [Option.bind_eq_bind,Option.bind_some]
  rw [fits64_of_lt (by omega),Option.bind_some,fits64_of_lt (by omega),Option.bind_some,
    fits64_of_lt (by omega),Option.bind_some,fits64_of_lt (by omega)]
  rfl

end Shares

section Cuts

variable {cut : Nat → Nat}

def between (cut : Nat → Nat) (n : Nat) : List (Nat × Nat) :=
  (List.range n).map fun i => (cut i,cut (i+1))

theorem between_succ (cut : Nat → Nat) (n : Nat) :
    between cut (n+1) = between cut n ++ [(cut n,cut (n+1))] := by
  simp [between,List.range_succ]

theorem mapM_between {f : Nat → Option (Nat × Nat)} {n : Nat}
    (h : ∀ i < n, f i = some (cut i,cut (i+1))) :
    (List.range n).mapM f = some (between cut n) := by
  induction n with
  | zero => rfl
  | succ n ih =>
    rw [List.range_succ,List.mapM_append,ih fun i hi => h i (by omega)]
    simp [h n (by omega),between_succ]

theorem covered_between (hcut : Monotone cut) (n slot : Nat) :
    Covered (between cut n) slot ↔ Within (cut 0,cut n) slot := by
  induction n with
  | zero => simp [Covered,between,Within]
  | succ n ih =>
    have hlow := hcut (Nat.zero_le n)
    have hhigh : cut n ≤ cut (n+1) := hcut n.le_succ
    rw [between_succ,Covered]
    simp only [List.mem_append,List.mem_singleton,or_and_right,exists_or,exists_eq_left]
    rw [← Covered,ih]
    simp only [Within]
    omega

theorem foldlM_between (hcut : Monotone cut) {n : Nat} (h : cut n < 2 ^ 64) :
    (between cut n).foldlM (fun sum r => fits64 (sum+(r.2-r.1))) 0 = some (cut n-cut 0) := by
  induction n with
  | zero => simp [between]
  | succ n ih =>
    have hlow := hcut (Nat.zero_le n)
    have hhigh : cut n ≤ cut (n+1) := hcut n.le_succ
    have hsum : cut n-cut 0+(cut (n+1)-cut n) = cut (n+1)-cut 0 := by omega
    rw [between_succ,List.foldlM_append,ih (by omega)]
    simp only [Option.bind_eq_bind,Option.bind_some,List.foldlM_cons,List.foldlM_nil,hsum]
    rw [fits64_of_lt (by omega)]
    rfl

theorem isChain_between (cut : Nat → Nat) (n : Nat) :
    (between cut n).IsChain fun a b => a.2 = b.1 := by
  rw [between,List.isChain_map,List.isChain_range]
  exact fun _ _ => rfl

theorem pairwise_between (hcut : Monotone cut) (n : Nat) :
    (between cut n).Pairwise fun a b => a.2 ≤ b.1 := by
  rw [between,List.pairwise_map]
  exact List.pairwise_lt_range.imp fun hlt => hcut hlt

end Cuts

/-- The shares of the threads: every slot is in one share and no share is larger than another by
more than a slot. -/
structure Splits (slotRange : Nat × Nat) (threads : Nat) (ranges : List (Nat × Nat)) : Prop where
  count : ranges.length = threads
  covers : ∀ slot, Covered ranges slot ↔ Within slotRange slot
  disjoint : ranges.Pairwise fun a b => a.2 ≤ b.1
  even : ∀ a ∈ ranges, ∀ b ∈ ranges, a.2-a.1 ≤ b.2-b.1+1

section Shares

variable {start stop threads : Nat}

theorem even_between_cut {n : Nat} {a b : Nat × Nat}
    (ha : a ∈ between (cut start stop threads) n) (hb : b ∈ between (cut start stop threads) n) :
    a.2-a.1 ≤ b.2-b.1+1 := by
  obtain ⟨i,-,rfl⟩ := List.mem_map.mp ha
  obtain ⟨j,-,rfl⟩ := List.mem_map.mp hb
  simp only [cut_succ]
  split <;> omega

theorem generateSubranges_eq (hrange : start ≤ stop) (hstop : stop < 2 ^ 64)
    (hthreads : 0 < threads) :
    generateSubranges (start,stop) threads = some (between (cut start stop threads) threads) := by
  have hmono := cut_mono start stop threads
  have hlast := cut_last hrange hthreads
  have hranges : (List.range threads).mapM (subrange start _ _) =
      some (between (cut start stop threads) threads) :=
    mapM_between fun i hi => subrange_eq ((hmono hi).trans_lt (hlast.trans_lt hstop))
  have hsum := foldlM_between hmono (hlast.trans_lt hstop)
  rw [cut_zero,hlast] at hsum
  have hok : ¬(stop < start ∨ threads = 0) := by omega
  simp only [generateSubranges,if_neg hok,hranges]
  simp [hsum,isChain_between]

theorem covered_subranges (hrange : start ≤ stop) (hthreads : 0 < threads) (slot : Nat) :
    Covered (between (cut start stop threads) threads) slot ↔ Within (start,stop) slot := by
  rw [covered_between (cut_mono ..),cut_zero,cut_last hrange hthreads]

/-- For every range of slots and every number of threads the call goes through, and its ranges
share the slots out. -/
theorem generateSubranges_splits (hrange : start ≤ stop) (hstop : stop < 2 ^ 64)
    (hthreads : 0 < threads) :
    ∃ ranges, generateSubranges (start,stop) threads = some ranges ∧
      Splits (start,stop) threads ranges :=
  ⟨_,generateSubranges_eq hrange hstop hthreads,
    ⟨by simp [between],covered_subranges hrange hthreads,
    pairwise_between (cut_mono ..) threads,fun _ ha _ hb => even_between_cut ha hb⟩⟩

theorem generateSubranges_splits_ten : ∃ ranges,
    generateSubranges (5,15) 4 = some ranges ∧ Splits (5,15) 4 ranges :=
  generateSubranges_splits (by decide) (by decide) (by decide)

def overallStart (subranges : List (Nat × Nat)) : Nat := (subranges.head?.map (·.1)).getD 0

def overallEnd (subranges : List (Nat × Nat)) : Nat := (subranges.getLast?.map (·.2)).getD 0

theorem overallStart_between {n : Nat} (h : 0 < n) (cut : Nat → Nat) :
    overallStart (between cut n) = cut 0 := by
  obtain ⟨n,rfl⟩ := Nat.exists_eq_succ_of_ne_zero h.ne'
  simp [overallStart,between,List.range_succ_eq_map]

theorem overallEnd_between {n : Nat} (h : 0 < n) (cut : Nat → Nat) :
    overallEnd (between cut n) = cut n := by
  obtain ⟨n,rfl⟩ := Nat.exists_eq_succ_of_ne_zero h.ne'
  simp [overallEnd,between_succ]

/-- Whichever threads did the work, the audit of a run passes exactly when the present slots of
every thread's share were journaled, slot 0 apart. -/
theorem coverageAudit_subranges_iff {C : CarTypes} {src : Source C}
    (hscan : ∀ epoch, src.scannable epoch = true) (hrange : start ≤ stop) (hstop : stop < 2 ^ 64)
    (hthreads : 0 < threads) {ranges coverageLog : List (Nat × Nat)}
    (hranges : generateSubranges (start,stop) threads = some ranges)
    (hinside : ∀ interval ∈ coverageLog, interval.2 ≤ stop) :
    coverageAudit src (overallStart ranges) (overallEnd ranges) coverageLog = 0 ↔
      ∀ range ∈ ranges, ∀ slot, Within range slot → slot ≠ 0 → src.Present slot →
        Covered coverageLog slot := by
  rw [generateSubranges_eq hrange hstop hthreads] at hranges
  cases hranges
  rw [overallStart_between hthreads,overallEnd_between hthreads,cut_zero,
    cut_last hrange hthreads,coverageAudit_eq_zero_iff hscan hinside]
  have hcovers := covered_subranges hrange hthreads
  constructor
  · intro h range hmem slot hwithin
    obtain ⟨hlow,hhigh⟩ := (hcovers slot).mp ⟨range,hmem,hwithin⟩
    exact h slot hlow hhigh
  · intro h slot hlow hhigh
    obtain ⟨range,hmem,hwithin⟩ := (hcovers slot).mpr ⟨hlow,hhigh⟩
    exact h range hmem slot hwithin

theorem coverageAudit_two_subranges :
    coverageAudit (indexOnly [5,7,9]) 5 10 [(8,10),(5,8)] = 0 ↔
      ∀ range ∈ [(5,8),(8,10)], ∀ slot, Within range slot → slot ≠ 0 →
        (indexOnly [5,7,9]).Present slot → Covered [(8,10),(5,8)] slot := by
  have hranges : generateSubranges (5,10) 2 = some [(5,8),(8,10)] := by decide
  exact coverageAudit_subranges_iff (fun _ => rfl) (by decide) (by decide) (by decide) hranges
    (by decide)

end Shares

end Jetstreamer.Firehose
