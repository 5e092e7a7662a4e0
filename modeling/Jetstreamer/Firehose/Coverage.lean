import Jetstreamer.Firehose.Source
import Jetstreamer.Lib.Intervals
set_option autoImplicit false

namespace Jetstreamer.Firehose
open Lib

def pairLe (a b : Nat × Nat) : Bool := a.1 < b.1 || (a.1 == b.1 && a.2 ≤ b.2)

def coveredIntervals (coverageLog : List (Nat × Nat)) : List (Nat × Nat) :=
  (coverageLog.filter fun (start,stop) => stop > start).mergeSort pairLe

def auditStep (state : List (Nat × Nat) × Nat) (interval : Nat × Nat) :
    List (Nat × Nat) × Nat :=
  let (holes,cursor) := state
  let holes := if interval.1 > cursor then holes ++ [(cursor,interval.1)] else holes
  (holes,max cursor interval.2)

def auditHoles (overallStart overallEnd : Nat) (coverageLog : List (Nat × Nat)) :
    List (Nat × Nat) :=
  let (holes,cursor) := (coveredIntervals coverageLog).foldl auditStep ([],overallStart)
  if cursor < overallEnd then holes ++ [(cursor,overallEnd)] else holes

/-- The number of holes with an unprocessed slot; the audit passes when there is none. The slot
before the hole is handed to the index as the one to look after. -/
def coverageAudit {C : CarTypes} (src : Source C) (overallStart overallEnd : Nat)
    (coverageLog : List (Nat × Nat)) : Nat :=
  (auditHoles overallStart overallEnd coverageLog).countP fun (holeStart,holeEnd) =>
    (src.nextPresentSlot (holeStart-1) (holeEnd-1)).isSome

theorem foldl_auditStep (stop cursor : Nat) (holes intervals : List (Nat × Nat)) :
    (let (holes,cursor) := intervals.foldl auditStep (holes,cursor)
      if cursor < stop then holes ++ [(cursor,stop)] else holes) =
      holes ++ gaps stop cursor intervals := by
  induction intervals generalizing holes cursor with
  | nil =>
    change (if cursor < stop then holes ++ [(cursor,stop)] else holes) = _
    rw [gaps]
    split <;> simp
  | cons interval rest ih =>
    rw [List.foldl_cons,auditStep,ih,gaps]
    split <;> simp [*]

theorem auditHoles_eq (overallStart overallEnd : Nat) (coverageLog : List (Nat × Nat)) :
    auditHoles overallStart overallEnd coverageLog =
      gaps overallEnd overallStart (coveredIntervals coverageLog) :=
  foldl_auditStep overallEnd overallStart [] (coveredIntervals coverageLog)

theorem pairwise_coveredIntervals (coverageLog : List (Nat × Nat)) :
    (coveredIntervals coverageLog).Pairwise fun a b => a.1 ≤ b.1 := by
  have hsorted : (coveredIntervals coverageLog).Pairwise fun a b => pairLe a b = true :=
    List.pairwise_mergeSort (fun a b c hab hbc => by simp [pairLe] at *; omega)
      (fun a b => by simp [pairLe]; omega) _
  refine hsorted.imp fun {a b} hle => ?_
  simp [pairLe] at hle
  omega

variable {coverageLog : List (Nat × Nat)}

theorem mem_coveredIntervals {interval : Nat × Nat} :
    interval ∈ coveredIntervals coverageLog ↔
      interval ∈ coverageLog ∧ interval.1 < interval.2 := by
  simp [coveredIntervals,List.mem_mergeSort]

def Covered (coverageLog : List (Nat × Nat)) (slot : Nat) : Prop :=
  ∃ interval ∈ coverageLog, Within interval slot

instance (coverageLog : List (Nat × Nat)) (slot : Nat) : Decidable (Covered coverageLog slot) :=
  inferInstanceAs (Decidable (∃ interval ∈ coverageLog, _ ∧ _))

theorem exists_within_auditHoles {overallStart overallEnd slot : Nat}
    (hinside : ∀ interval ∈ coverageLog, interval.2 ≤ overallEnd) :
    (∃ hole ∈ auditHoles overallStart overallEnd coverageLog, Within hole slot) ↔
      (overallStart ≤ slot ∧ slot < overallEnd) ∧ ¬Covered coverageLog slot := by
  have hstarts : ∀ interval ∈ coveredIntervals coverageLog, interval.1 ≤ overallEnd := by
    intro interval hmem
    obtain ⟨hmem,hlt⟩ := mem_coveredIntervals.mp hmem
    exact hlt.le.trans (hinside interval hmem)
  rw [auditHoles_eq,exists_within_gaps (pairwise_coveredIntervals coverageLog) hstarts]
  refine and_congr_right fun _ => ⟨?_,?_⟩
  · rintro hnone ⟨interval,hmem,hwithin⟩
    exact hnone interval
      (mem_coveredIntervals.mpr ⟨hmem,hwithin.1.trans_lt hwithin.2⟩) hwithin
  · intro hnot interval hmem hwithin
    exact hnot ⟨interval,(mem_coveredIntervals.mp hmem).1,hwithin⟩

variable {C : CarTypes} {src : Source C}

theorem nextPresentSlot_hole (hscan : ∀ epoch, src.scannable epoch = true) {hole : Nat × Nat} :
    (src.nextPresentSlot (hole.1-1) (hole.2-1)).isSome = true ↔
      ∃ slot, slot ≠ 0 ∧ Within hole slot ∧ src.Present slot := by
  constructor
  · intro h
    obtain ⟨slot,hslot⟩ := Option.isSome_iff_exists.mp h
    obtain ⟨hpresent,hlow,hhigh⟩ := Source.nextPresentSlot_some hslot
    exact ⟨slot,by omega,⟨by omega,by omega⟩,hpresent⟩
  · rintro ⟨slot,hne,⟨hlow,hhigh⟩,hpresent⟩
    by_contra hnone
    rw [Bool.not_eq_true,Option.isSome_eq_false_iff,Option.isNone_iff_eq_none] at hnone
    exact Source.nextPresentSlot_none hscan hnone (by omega) (by omega) hpresent

theorem coverageAudit_eq_zero_iff (hscan : ∀ epoch, src.scannable epoch = true)
    {overallStart overallEnd : Nat}
    (hinside : ∀ interval ∈ coverageLog, interval.2 ≤ overallEnd) :
    coverageAudit src overallStart overallEnd coverageLog = 0 ↔
      ∀ slot, overallStart ≤ slot → slot < overallEnd → slot ≠ 0 → src.Present slot →
        Covered coverageLog slot := by
  have hholes (slot : Nat) :
      (∃ hole ∈ auditHoles overallStart overallEnd coverageLog, Within hole slot) ↔
        (overallStart ≤ slot ∧ slot < overallEnd) ∧ ¬Covered coverageLog slot :=
    exists_within_auditHoles hinside
  rw [coverageAudit,List.countP_eq_zero]
  constructor
  · intro hnone slot hlow hhigh hne hpresent
    by_contra hnot
    obtain ⟨hole,hmem,hwithin⟩ := (hholes slot).mpr ⟨⟨hlow,hhigh⟩,hnot⟩
    exact hnone hole hmem ((nextPresentSlot_hole hscan).mpr ⟨slot,hne,hwithin,hpresent⟩)
  · intro hall hole hmem hsome
    obtain ⟨slot,hne,hwithin,hpresent⟩ := (nextPresentSlot_hole hscan).mp hsome
    obtain ⟨⟨hlow,hhigh⟩,hnot⟩ := (hholes slot).mp ⟨hole,hmem,hwithin⟩
    exact hnot (hall slot hlow hhigh hne hpresent)

/-- The audit passes exactly when every present slot of the range was processed. -/
def AuditExact {C : CarTypes} (src : Source C) (overallStart overallEnd : Nat)
    (coverageLog : List (Nat × Nat)) : Prop :=
  coverageAudit src overallStart overallEnd coverageLog = 0 ↔
    ∀ slot, overallStart ≤ slot → slot < overallEnd → src.Present slot →
      Covered coverageLog slot

def OnlyZeroMissing {C : CarTypes} (src : Source C) (overallStart overallEnd : Nat)
    (coverageLog : List (Nat × Nat)) : Prop :=
  overallStart = 0 ∧ src.Present 0 ∧ ¬Covered coverageLog 0 ∧
    ∀ slot, slot < overallEnd → slot ≠ 0 → src.Present slot → Covered coverageLog slot

/-- The audit is exact unless the only slot it should report is slot 0. -/
theorem auditExact_iff {C : CarTypes} (src : Source C)
    (hscan : ∀ epoch, src.scannable epoch = true) (overallStart overallEnd : Nat)
    (hrange : overallStart < overallEnd) (coverageLog : List (Nat × Nat))
    (hinside : ∀ interval ∈ coverageLog,
      overallStart ≤ interval.1 ∧ interval.2 ≤ overallEnd) :
    AuditExact src overallStart overallEnd coverageLog ↔
      ¬OnlyZeroMissing src overallStart overallEnd coverageLog := by
  rw [AuditExact,coverageAudit_eq_zero_iff hscan fun interval hmem => (hinside interval hmem).2]
  constructor
  · rintro hexact ⟨rfl,hpresent,hnot,hothers⟩
    exact hnot (hexact.mp (fun slot _ hhigh hne => hothers slot hhigh hne) 0 le_rfl hrange
      hpresent)
  · intro hzero
    refine ⟨fun hothers slot hlow hhigh hpresent => ?_,
      fun hall slot hlow hhigh _ => hall slot hlow hhigh⟩
    by_cases hne : slot = 0
    · subst hne
      by_contra hnot
      obtain rfl := Nat.le_zero.mp hlow
      exact hzero ⟨rfl,hpresent,hnot,fun slot => hothers slot (Nat.zero_le slot)⟩
    · exact hothers slot hlow hhigh hne hpresent

def indexOnly (present : List Nat) : Source ⟨Unit,Unit,Unit,(),()⟩ where
  car := fun _ => []
  slotToRange := fun slot => if slot ∈ present then .found else .notFound
  scannable := fun _ => true
  streamFrom := fun _ _ => []
  streamAfter := fun _ _ => []

theorem auditExact_overlapping :
    AuditExact (indexOnly [5,7,9]) 5 10 [(7,10),(5,5),(6,8),(5,6)] := by
  rw [auditExact_iff (indexOnly [5,7,9]) (fun _ => rfl) 5 10 (by decide) _ (by decide)]
  rintro ⟨hstart,-⟩
  cases hstart

theorem not_auditExact_zero : coverageAudit (indexOnly [0,1]) 0 2 [(1,2)] = 0 ∧
    (indexOnly [0,1]).Present 0 ∧ ¬Covered [(1,2)] 0 ∧
    ¬AuditExact (indexOnly [0,1]) 0 2 [(1,2)] := by
  have hpasses : coverageAudit (indexOnly [0,1]) 0 2 [(1,2)] = 0 := by decide +kernel
  refine ⟨hpasses,by decide,by decide,fun hexact => ?_⟩
  exact absurd (hexact.mp hpasses 0 le_rfl (by decide) (by decide)) (by decide)

end Jetstreamer.Firehose
