import Mathlib
set_option autoImplicit false

namespace Jetstreamer.Node

section Rounds

variable {Address : Type}

structure EntryAccounts (Address : Type) where
  writes : Finset Address
  reads : Finset Address

/-- Two entries conflict if they share an account that at least one writes. -/
def EntryAccounts.conflictsWith (e f : EntryAccounts Address) : Prop :=
  (∃ a ∈ e.writes, a ∈ f.writes ∨ a ∈ f.reads) ∨ ∃ a ∈ e.reads, a ∈ f.writes

instance [DecidableEq Address] (e f : EntryAccounts Address) :
    Decidable (e.conflictsWith f) :=
  inferInstanceAs (Decidable (_ ∨ _))

theorem EntryAccounts.conflictsWith_comm {e f : EntryAccounts Address} :
    e.conflictsWith f ↔ f.conflictsWith e := by
  unfold EntryAccounts.conflictsWith
  constructor
  · rintro (⟨a,ha,hw | hr⟩ | ⟨a,ha,hw⟩)
    · exact .inl ⟨a,hw,.inl ha⟩
    · exact .inr ⟨a,hr,ha⟩
    · exact .inl ⟨a,hw,.inr ha⟩
  · rintro (⟨a,ha,hw | hr⟩ | ⟨a,ha,hw⟩)
    · exact .inl ⟨a,hw,.inl ha⟩
    · exact .inr ⟨a,hr,ha⟩
    · exact .inl ⟨a,hw,.inr ha⟩

/-- The local variables of `assign_rounds`; the two maps hold the latest round
with a writer, and with any accessor, of an account. -/
structure RoundPlan (Address : Type) where
  rounds : List (List Nat)
  lastWrite : Address → Option Nat
  lastAccess : Address → Option Nat

def RoundPlan.empty : RoundPlan Address := ⟨[],fun _ => none,fun _ => none⟩

def nextRound : Option Nat → Nat
  | none => 0
  | some previousRound => previousRound + 1

def RoundPlan.roundIndex (plan : RoundPlan Address) (entry : EntryAccounts Address) : Nat :=
  max (entry.writes.sup fun a => nextRound (plan.lastAccess a))
    (entry.reads.sup fun a => nextRound (plan.lastWrite a))

/-- Grow the rounds up to `roundIndex` and append the entry to that round. -/
def pushRound (rounds : List (List Nat)) (roundIndex entryIndex : Nat) : List (List Nat) :=
  (rounds ++ List.replicate (roundIndex + 1 - rounds.length) []).modify roundIndex
    (· ++ [entryIndex])

def RoundPlan.place [DecidableEq Address] (plan : RoundPlan Address) (entryIndex : Nat)
    (entry : EntryAccounts Address) : RoundPlan Address :=
  let roundIndex := plan.roundIndex entry
  { rounds := pushRound plan.rounds roundIndex entryIndex
    lastWrite := fun a => if a ∈ entry.writes then some roundIndex else plan.lastWrite a
    lastAccess := fun a =>
      if a ∈ entry.reads then
        some (match if a ∈ entry.writes then some roundIndex else plan.lastAccess a with
          | some lastRound => max lastRound roundIndex
          | none => roundIndex)
      else if a ∈ entry.writes then some roundIndex
      else plan.lastAccess a }

def assignRoundsFrom [DecidableEq Address] (plan : RoundPlan Address) (entryIndex : Nat) :
    List (EntryAccounts Address) → RoundPlan Address
  | [] => plan
  | entry :: rest => assignRoundsFrom (plan.place entryIndex entry) (entryIndex + 1) rest

def assignRounds [DecidableEq Address] (entries : List (EntryAccounts Address)) : List (List Nat) :=
  (assignRoundsFrom .empty 0 entries).rounds

def InRound (rounds : List (List Nat)) (r i : Nat) : Prop :=
  ∃ round, rounds[r]? = some round ∧ i ∈ round

theorem pushRound_inRound {rounds : List (List Nat)} {k n r i : Nat} :
    InRound (pushRound rounds k n) r i ↔ InRound rounds r i ∨ r = k ∧ i = n := by
  unfold InRound pushRound
  rw [List.getElem?_modify]
  by_cases hr : r < rounds.length
  · have hcell : (rounds ++ List.replicate (k + 1 - rounds.length) [])[r]? = rounds[r]? :=
      List.getElem?_append_left hr
    rw [hcell,List.getElem?_eq_getElem hr]
    by_cases hk : k = r <;> simp [hk,eq_comm]
  · have hnone : rounds[r]? = none := List.getElem?_eq_none (Nat.not_lt.mp hr)
    rw [List.getElem?_append_right (Nat.not_lt.mp hr),List.getElem?_replicate,hnone]
    by_cases hk : k = r
    · subst hk
      have hlt : k - rounds.length < k + 1 - rounds.length := by omega
      simp [hlt]
    · have hne : ¬ r = k := fun h => hk h.symm
      by_cases hlt : r - rounds.length < k + 1 - rounds.length <;> simp [hlt,hk,hne]

theorem modify_flatten_perm {rounds : List (List Nat)} {k n : Nat} (hk : k < rounds.length) :
    (rounds.modify k (· ++ [n])).flatten.Perm (n :: rounds.flatten) := by
  induction rounds generalizing k with
  | nil => simp at hk
  | cons round rest ih =>
    cases k with
    | zero =>
      simp only [List.modify_zero_cons,List.flatten_cons,List.append_assoc]
      exact List.perm_middle
    | succ k =>
      have hrest := ih (k := k) (by simpa using hk)
      simp only [List.modify_succ_cons,List.flatten_cons]
      exact (hrest.append_left round).trans List.perm_middle

theorem pushRound_flatten_perm (rounds : List (List Nat)) (k n : Nat) :
    (pushRound rounds k n).flatten.Perm (n :: rounds.flatten) := by
  unfold pushRound
  refine (modify_flatten_perm ?_).trans ?_
  · simp only [List.length_append,List.length_replicate]
    omega
  · simp

/-- What the planner knows after placing `placed`: every entry stands in one
round, an account's latest rounds bound the rounds of its accessors, and
conflicting entries stand in strictly increasing rounds. -/
structure RoundPlan.Valid (plan : RoundPlan Address) (placed : List (EntryAccounts Address)) :
    Prop where
  perm : plan.rounds.flatten.Perm (List.range placed.length)
  bound : ∀ r i, InRound plan.rounds r i → i < placed.length
  write_le : ∀ r i e a, InRound plan.rounds r i → placed[i]? = some e → a ∈ e.writes →
    ∃ w, plan.lastWrite a = some w ∧ r ≤ w
  access_le : ∀ r i e a, InRound plan.rounds r i → placed[i]? = some e →
    a ∈ e.writes ∨ a ∈ e.reads → ∃ w, plan.lastAccess a = some w ∧ r ≤ w
  order : ∀ r r' i j e f, i < j → InRound plan.rounds r i → InRound plan.rounds r' j →
    placed[i]? = some e → placed[j]? = some f → e.conflictsWith f → r < r'

theorem RoundPlan.empty_valid : (RoundPlan.empty : RoundPlan Address).Valid [] := by
  constructor <;> simp [RoundPlan.empty,InRound]

theorem RoundPlan.access_lt_roundIndex {plan : RoundPlan Address} {e : EntryAccounts Address}
    {a : Address} {w : Nat} (ha : a ∈ e.writes) (hw : plan.lastAccess a = some w) :
    w < plan.roundIndex e := by
  have hle : nextRound (plan.lastAccess a) ≤ e.writes.sup fun b => nextRound (plan.lastAccess b) :=
    Finset.le_sup (f := fun b => nextRound (plan.lastAccess b)) ha
  rw [hw] at hle
  exact Nat.lt_of_lt_of_le (Nat.lt_of_succ_le hle) (Nat.le_max_left _ _)

theorem RoundPlan.write_lt_roundIndex {plan : RoundPlan Address} {e : EntryAccounts Address}
    {a : Address} {w : Nat} (ha : a ∈ e.reads) (hw : plan.lastWrite a = some w) :
    w < plan.roundIndex e := by
  have hle : nextRound (plan.lastWrite a) ≤ e.reads.sup fun b => nextRound (plan.lastWrite b) :=
    Finset.le_sup (f := fun b => nextRound (plan.lastWrite b)) ha
  rw [hw] at hle
  exact Nat.lt_of_lt_of_le (Nat.lt_of_succ_le hle) (Nat.le_max_right _ _)

theorem RoundPlan.Valid.lt_roundIndex {plan : RoundPlan Address}
    {placed : List (EntryAccounts Address)} (h : plan.Valid placed) {r i : Nat}
    {e f : EntryAccounts Address} (hi : InRound plan.rounds r i) (he : placed[i]? = some e)
    (hc : e.conflictsWith f) : r < plan.roundIndex f := by
  rcases hc with ⟨a,ha,hw | hr⟩ | ⟨a,ha,hw⟩
  · obtain ⟨w,hlast,hle⟩ := h.access_le r i e a hi he (.inl ha)
    exact Nat.lt_of_le_of_lt hle (access_lt_roundIndex hw hlast)
  · obtain ⟨w,hlast,hle⟩ := h.write_le r i e a hi he ha
    exact Nat.lt_of_le_of_lt hle (write_lt_roundIndex hr hlast)
  · obtain ⟨w,hlast,hle⟩ := h.access_le r i e a hi he (.inr ha)
    exact Nat.lt_of_le_of_lt hle (access_lt_roundIndex hw hlast)

theorem RoundPlan.place_lastWrite_le [DecidableEq Address] {plan : RoundPlan Address}
    {n r : Nat} {f : EntryAccounts Address} {a : Address}
    (hf : a ∈ f.writes → r ≤ plan.roundIndex f)
    (h : a ∉ f.writes → ∃ w, plan.lastWrite a = some w ∧ r ≤ w) :
    ∃ w, (plan.place n f).lastWrite a = some w ∧ r ≤ w := by
  simp only [RoundPlan.place]
  by_cases ha : a ∈ f.writes
  · exact ⟨plan.roundIndex f,by simp [ha],hf ha⟩
  · simpa [ha] using h ha

theorem RoundPlan.place_lastAccess_le [DecidableEq Address] {plan : RoundPlan Address}
    {n r : Nat} {f : EntryAccounts Address} {a : Address}
    (hf : a ∈ f.writes → r ≤ plan.roundIndex f)
    (hr : a ∈ f.reads → r ≤ plan.roundIndex f ∨ ∃ w, plan.lastAccess a = some w ∧ r ≤ w)
    (h : a ∉ f.writes → a ∉ f.reads → ∃ w, plan.lastAccess a = some w ∧ r ≤ w) :
    ∃ w, (plan.place n f).lastAccess a = some w ∧ r ≤ w := by
  simp only [RoundPlan.place]
  by_cases hwrite : a ∈ f.writes
  · exact ⟨plan.roundIndex f,by simp [hwrite],hf hwrite⟩
  · by_cases hread : a ∈ f.reads
    · simp only [hread,hwrite,if_true,if_false,Option.some.injEq,exists_eq_left']
      rcases hr hread with hle | ⟨w,hw,hle⟩
      · cases plan.lastAccess a with
        | none => exact hle
        | some w => exact Nat.le_trans hle (Nat.le_max_right _ _)
      · rw [hw]
        exact Nat.le_trans hle (Nat.le_max_left _ _)
    · simpa [hread,hwrite] using h hwrite hread

/-- One step of the planner: the placed entry joins the accessors of its
accounts, and the rounds of earlier accessors stay below the new marks. -/
theorem RoundPlan.Valid.place [DecidableEq Address] {plan : RoundPlan Address}
    {placed : List (EntryAccounts Address)} (h : plan.Valid placed)
    (f : EntryAccounts Address) : (plan.place placed.length f).Valid (placed ++ [f]) := by
  have hrounds : (plan.place placed.length f).rounds =
      pushRound plan.rounds (plan.roundIndex f) placed.length := rfl
  have hold : ∀ {r i e}, InRound plan.rounds r i → (placed ++ [f])[i]? = some e →
      placed[i]? = some e := by
    intro r i e hi he
    rwa [List.getElem?_append_left (h.bound r i hi)] at he
  have hnew : ∀ {e}, (placed ++ [f])[placed.length]? = some e → e = f := by
    intro e he
    simpa [eq_comm] using he
  constructor
  case perm =>
    rw [hrounds,List.length_append,List.length_singleton,List.range_succ]
    exact (pushRound_flatten_perm _ _ _).trans
      ((h.perm.cons _).trans (List.perm_append_singleton _ _).symm)
  case bound =>
    intro r i hi
    rw [hrounds,pushRound_inRound] at hi
    rw [List.length_append,List.length_singleton]
    rcases hi with hi | ⟨_,rfl⟩
    · exact Nat.lt_succ_of_lt (h.bound r i hi)
    · exact Nat.lt_succ_self _
  case write_le =>
    intro r i e a hi he ha
    rw [hrounds,pushRound_inRound] at hi
    rcases hi with hi | ⟨rfl,rfl⟩
    · refine place_lastWrite_le (fun hf => ?_) (fun _ => h.write_le r i e a hi (hold hi he) ha)
      exact Nat.le_of_lt (h.lt_roundIndex hi (hold hi he) (.inl ⟨a,ha,.inl hf⟩))
    · obtain rfl := hnew he
      exact place_lastWrite_le (fun _ => Nat.le_refl _) (fun hn => absurd ha hn)
  case access_le =>
    intro r i e a hi he ha
    rw [hrounds,pushRound_inRound] at hi
    rcases hi with hi | ⟨rfl,rfl⟩
    · have hprev := h.access_le r i e a hi (hold hi he) ha
      refine place_lastAccess_le (fun hf => ?_) (fun _ => .inr hprev) (fun _ _ => hprev)
      refine Nat.le_of_lt (h.lt_roundIndex hi (hold hi he) ?_)
      rcases ha with ha | ha
      · exact .inl ⟨a,ha,.inl hf⟩
      · exact .inr ⟨a,ha,hf⟩
    · obtain rfl := hnew he
      refine place_lastAccess_le (fun _ => Nat.le_refl _) (fun _ => .inl (Nat.le_refl _)) ?_
      intro hw hr
      rcases ha with ha | ha
      · exact absurd ha hw
      · exact absurd ha hr
  case order =>
    intro r r' i j e g hij hi hj he hg hc
    rw [hrounds,pushRound_inRound] at hi hj
    rcases hj with hj | ⟨rfl,rfl⟩
    · rcases hi with hi | ⟨_,rfl⟩
      · exact h.order r r' i j e g hij hi hj (hold hi he) (hold hj hg) hc
      · exact absurd (h.bound r' j hj) (by omega)
    · rcases hi with hi | ⟨_,rfl⟩
      · obtain rfl := hnew hg
        exact h.lt_roundIndex hi (hold hi he) hc
      · exact absurd hij (Nat.lt_irrefl _)

theorem assignRoundsFrom_valid [DecidableEq Address] {plan : RoundPlan Address}
    {placed rest : List (EntryAccounts Address)} (h : plan.Valid placed) :
    (assignRoundsFrom plan placed.length rest).Valid (placed ++ rest) := by
  induction rest generalizing plan placed with
  | nil => simpa [assignRoundsFrom] using h
  | cons f rest ih =>
    have hrest := ih (h.place f)
    rw [List.length_append,List.length_singleton,List.append_assoc] at hrest
    exact hrest

theorem assignRounds_valid [DecidableEq Address] (entries : List (EntryAccounts Address)) :
    (assignRoundsFrom .empty 0 entries).Valid entries :=
  assignRoundsFrom_valid RoundPlan.empty_valid

theorem assignRounds_perm [DecidableEq Address] (entries : List (EntryAccounts Address)) :
    (assignRounds entries).flatten.Perm (List.range entries.length) :=
  (assignRounds_valid entries).perm

theorem assignRounds_order [DecidableEq Address] {entries : List (EntryAccounts Address)}
    {r r' i j : Nat} {e f : EntryAccounts Address} (hij : i < j)
    (hi : InRound (assignRounds entries) r i) (hj : InRound (assignRounds entries) r' j)
    (he : entries[i]? = some e) (hf : entries[j]? = some f) (hc : e.conflictsWith f) :
    r < r' :=
  (assignRounds_valid entries).order r r' i j e f hij hi hj he hf hc

theorem assignRounds_inRound [DecidableEq Address] {entries : List (EntryAccounts Address)}
    {i : Nat} (hi : i < entries.length) : ∃ r, InRound (assignRounds entries) r i := by
  have hmem : i ∈ (assignRounds entries).flatten :=
    (assignRounds_perm entries).mem_iff.mpr (List.mem_range.mpr hi)
  obtain ⟨round,hround,hround_mem⟩ := List.mem_flatten.mp hmem
  obtain ⟨r,hr⟩ := List.getElem?_of_mem hround
  exact ⟨r,round,hr,hround_mem⟩

theorem assignRounds_free [DecidableEq Address] {entries : List (EntryAccounts Address)}
    {r : Nat} {round : List Nat} (hround : (assignRounds entries)[r]? = some round) :
    round.Pairwise fun i j => ∀ e f, entries[i]? = some e → entries[j]? = some f →
      ¬ e.conflictsWith f := by
  have hnodup : round.Nodup := by
    have hflat : (assignRounds entries).flatten.Nodup :=
      (assignRounds_perm entries).nodup_iff.mpr List.nodup_range
    exact (List.nodup_flatten.mp hflat).1 round (List.mem_of_getElem? hround)
  refine hnodup.imp_of_mem ?_
  intro i j hi hj hne e f he hf hc
  rcases Nat.lt_or_gt_of_ne hne with hlt | hlt
  · exact Nat.lt_irrefl r
      (assignRounds_order hlt ⟨round,hround,hi⟩ ⟨round,hround,hj⟩ he hf hc)
  · exact Nat.lt_irrefl r (assignRounds_order hlt ⟨round,hround,hj⟩ ⟨round,hround,hi⟩ hf he
      (EntryAccounts.conflictsWith_comm.mp hc))

end Rounds

end Jetstreamer.Node
