import Jetstreamer.Node.Rounds
import Jetstreamer.Lib.Levels
set_option autoImplicit false

namespace Jetstreamer.Node
open Lib

section Optimality

variable {Address : Type}

def Conflicting (entries : List (EntryAccounts Address)) (i j : Nat) : Prop :=
  ∃ e ∈ entries[i]?, ∃ f ∈ entries[j]?, e.conflictsWith f

instance [DecidableEq Address] (entries : List (EntryAccounts Address)) :
    DecidableRel (Conflicting entries) := fun i j =>
  decidable_of_iff (∃ e ∈ entries[i]?.toFinset, ∃ f ∈ entries[j]?.toFinset, e.conflictsWith f)
    (by simp [Conflicting])

def roundOf (rounds : List (List Nat)) (i : Nat) : Nat := rounds.findIdx (i ∈ ·)

/-- A plan for all entries that keeps conflicting ones in order and apart. -/
structure Respects (entries : List (EntryAccounts Address)) (rounds : List (List Nat)) : Prop where
  partition : rounds.flatten.Perm (List.range entries.length)
  order : ∀ i j, i < j → Conflicting entries i j → roundOf rounds i < roundOf rounds j

/-- Entries of the slot each of which conflicts with the one before it. -/
def ConflictChain (entries : List (EntryAccounts Address)) (chain : List Nat) : Prop :=
  DependencyChain (Conflicting entries) chain ∧ ∀ i ∈ chain, i < entries.length

section Places

variable {rounds : List (List Nat)} {r i n k : Nat}

theorem roundOf_lt (h : i ∈ rounds.flatten) : roundOf rounds i < rounds.length := by
  simpa [roundOf] using h

theorem inRound_roundOf (h : i ∈ rounds.flatten) : InRound rounds (roundOf rounds i) i := by
  have hlt := roundOf_lt h
  have hmem := List.findIdx_getElem (p := fun round => decide (i ∈ round)) (w := hlt)
  exact ⟨rounds[roundOf rounds i],List.getElem?_eq_getElem hlt,of_decide_eq_true hmem⟩

theorem InRound.mem_flatten (h : InRound rounds r i) : i ∈ rounds.flatten := by
  obtain ⟨round,hround,hi⟩ := h
  exact List.mem_flatten.mpr ⟨round,List.mem_of_getElem? hround,hi⟩

theorem InRound.lt_length (h : InRound rounds r i) : r < rounds.length := by
  obtain ⟨round,hround,-⟩ := h
  exact (List.getElem?_eq_some_iff.mp hround).1

theorem InRound.eq_roundOf (h : InRound rounds r i) (hnodup : rounds.flatten.Nodup) :
    r = roundOf rounds i := by
  obtain ⟨round,hround,hi⟩ := h
  obtain ⟨other,hother,hi'⟩ := inRound_roundOf (InRound.mem_flatten ⟨round,hround,hi⟩)
  obtain ⟨hr,rfl⟩ := List.getElem?_eq_some_iff.mp hround
  obtain ⟨hr',rfl⟩ := List.getElem?_eq_some_iff.mp hother
  have hdisjoint := List.pairwise_iff_getElem.mp (List.nodup_flatten.mp hnodup).2
  rcases Nat.lt_trichotomy r (roundOf rounds i) with hlt | heq | hgt
  · exact absurd hi' (hdisjoint r _ hr hr' hlt hi)
  · exact heq
  · exact absurd hi (hdisjoint _ r hr' hr hgt hi')

theorem mem_pushRound {round : List Nat} (hk : k ≤ rounds.length)
    (h : round ∈ pushRound rounds k n) :
    round ∈ rounds ∨ round = [n] ∨ ∃ old ∈ rounds, round = old ++ [n] := by
  obtain ⟨r,hr⟩ := List.getElem?_of_mem h
  rw [pushRound,List.getElem?_modify] at hr
  rcases Nat.lt_or_ge r rounds.length with hlt | hge
  · rw [List.getElem?_append_left hlt,List.getElem?_eq_getElem hlt] at hr
    have hmem := List.getElem_mem hlt
    by_cases heq : k = r
    · simp only [heq,if_true,Option.map_eq_map,Option.map_some,Option.some.injEq] at hr
      exact .inr (.inr ⟨_,hmem,hr.symm⟩)
    · simp only [heq,if_false,Option.map_eq_map,Option.map_some,Option.some.injEq] at hr
      exact .inl (hr ▸ hmem)
  · rw [List.getElem?_append_right hge,List.getElem?_replicate] at hr
    by_cases heq : k = r
    · simp only [heq,if_true,Option.map_eq_map] at hr
      split at hr
      · exact .inr (.inl (Option.some.inj hr).symm)
      · cases hr
    · rw [if_neg (show ¬r - rounds.length < k + 1 - rounds.length by omega)] at hr
      cases hr

end Places

/-- What the planner's two maps and rounds are exactly: each mark is the round of an entry that set
it, and each entry stands right behind one it conflicts with, or at the front. -/
structure RoundPlan.Tight (plan : RoundPlan Address) (placed : List (EntryAccounts Address)) :
    Prop where
  valid : plan.Valid placed
  write : ∀ a w, plan.lastWrite a = some w → ∃ i, InRound plan.rounds w i ∧
    ∃ e ∈ placed[i]?, a ∈ e.writes
  access : ∀ a w, plan.lastAccess a = some w → ∃ i, InRound plan.rounds w i ∧
    ∃ e ∈ placed[i]?, a ∈ e.writes ∨ a ∈ e.reads
  behind : ∀ r i, InRound plan.rounds r i → r = 0 ∨
    ∃ r' j, j < i ∧ InRound plan.rounds r' j ∧ Conflicting placed j i ∧ r = r' + 1
  full : ∀ round ∈ plan.rounds, round ≠ [] ∧ round.Pairwise (· < ·)

theorem RoundPlan.empty_tight : (RoundPlan.empty : RoundPlan Address).Tight [] := by
  constructor
  case valid => exact RoundPlan.empty_valid
  all_goals simp [RoundPlan.empty,InRound]

theorem sup_nextRound {s : Finset Address} {marks : Address → Option Nat}
    (h : (s.sup fun a => nextRound (marks a)) ≠ 0) :
    ∃ a ∈ s, ∃ w, marks a = some w ∧ (s.sup fun a => nextRound (marks a)) = w + 1 := by
  have hne : s.Nonempty := by
    rw [Finset.nonempty_iff_ne_empty]
    rintro rfl
    exact h rfl
  obtain ⟨a,ha,heq⟩ := Finset.exists_mem_eq_sup s hne fun a => nextRound (marks a)
  rw [heq] at h ⊢
  cases hmark : marks a with
  | none => simp [hmark,nextRound] at h
  | some w => exact ⟨a,ha,w,hmark,rfl⟩

variable {plan : RoundPlan Address} {placed entries : List (EntryAccounts Address)}

theorem RoundPlan.Tight.roundIndex_attained (h : plan.Tight placed) (f : EntryAccounts Address)
    (hpos : plan.roundIndex f ≠ 0) :
    ∃ r j, InRound plan.rounds r j ∧ (∃ e ∈ placed[j]?, e.conflictsWith f) ∧
      plan.roundIndex f = r + 1 := by
  rw [RoundPlan.roundIndex] at hpos ⊢
  rcases max_cases (f.writes.sup fun a => nextRound (plan.lastAccess a))
    (f.reads.sup fun a => nextRound (plan.lastWrite a)) with ⟨heq,-⟩ | ⟨heq,-⟩
  · rw [heq] at hpos ⊢
    obtain ⟨a,ha,w,hw,hsup⟩ := sup_nextRound hpos
    obtain ⟨j,hj,e,he,hwrites | hreads⟩ := h.access a w hw
    · exact ⟨w,j,hj,⟨e,he,.inl ⟨a,hwrites,.inl ha⟩⟩,hsup⟩
    · exact ⟨w,j,hj,⟨e,he,.inr ⟨a,hreads,ha⟩⟩,hsup⟩
  · rw [heq] at hpos ⊢
    obtain ⟨a,ha,w,hw,hsup⟩ := sup_nextRound hpos
    obtain ⟨j,hj,e,he,hwrites⟩ := h.write a w hw
    exact ⟨w,j,hj,⟨e,he,.inl ⟨a,hwrites,.inr ha⟩⟩,hsup⟩

theorem RoundPlan.Tight.roundIndex_le (h : plan.Tight placed) (f : EntryAccounts Address) :
    plan.roundIndex f ≤ plan.rounds.length := by
  by_cases hzero : plan.roundIndex f = 0
  · simp [hzero]
  · obtain ⟨r,j,hj,-,heq⟩ := h.roundIndex_attained f hzero
    have hlt := hj.lt_length
    omega

theorem RoundPlan.place_lastWrite [DecidableEq Address] {n w : Nat}
    {f : EntryAccounts Address} {a : Address} (h : (plan.place n f).lastWrite a = some w) :
    (w = plan.roundIndex f ∧ a ∈ f.writes) ∨ plan.lastWrite a = some w := by
  simp only [RoundPlan.place] at h
  by_cases ha : a ∈ f.writes
  · simp only [ha,if_true,Option.some.injEq] at h
    exact .inl ⟨h.symm,ha⟩
  · simp only [ha,if_false] at h
    exact .inr h

theorem RoundPlan.place_lastAccess [DecidableEq Address] {n w : Nat}
    {f : EntryAccounts Address} {a : Address} (h : (plan.place n f).lastAccess a = some w) :
    (w = plan.roundIndex f ∧ (a ∈ f.writes ∨ a ∈ f.reads)) ∨ plan.lastAccess a = some w := by
  simp only [RoundPlan.place] at h
  by_cases hwrite : a ∈ f.writes
  · simp only [hwrite,if_true,max_self,ite_self,Option.some.injEq] at h
    exact .inl ⟨h.symm,.inl hwrite⟩
  · by_cases hread : a ∈ f.reads
    · simp only [hwrite,hread,if_true,if_false,Option.some.injEq] at h
      cases hold : plan.lastAccess a with
      | none =>
        rw [hold] at h
        exact .inl ⟨h.symm,.inr hread⟩
      | some old =>
        rw [hold] at h
        dsimp only at h
        rcases max_cases old (plan.roundIndex f) with ⟨hmax,-⟩ | ⟨hmax,-⟩
        · exact .inr (by rw [← h,hmax])
        · exact .inl ⟨by rw [← h,hmax],.inr hread⟩
    · simp only [hwrite,hread,if_false] at h
      exact .inr h

theorem Conflicting.append {rest : List (EntryAccounts Address)} {i j : Nat}
    (h : Conflicting placed i j) : Conflicting (placed ++ rest) i j := by
  obtain ⟨e,he,f,hf,hc⟩ := h
  exact ⟨e,List.getElem?_append_left (List.getElem?_eq_some_iff.mp he).1 ▸ he,f,
    List.getElem?_append_left (List.getElem?_eq_some_iff.mp hf).1 ▸ hf,hc⟩

theorem RoundPlan.Tight.place [DecidableEq Address] (h : plan.Tight placed)
    (f : EntryAccounts Address) :
    (plan.place placed.length f).Tight (placed ++ [f]) := by
  have hrounds : (plan.place placed.length f).rounds =
      pushRound plan.rounds (plan.roundIndex f) placed.length := rfl
  have hkeep : ∀ {r i}, InRound plan.rounds r i →
      InRound (plan.place placed.length f).rounds r i := by
    intro r i hi
    rw [hrounds,pushRound_inRound]
    exact .inl hi
  have hnew : InRound (plan.place placed.length f).rounds (plan.roundIndex f) placed.length := by
    rw [hrounds,pushRound_inRound]
    exact .inr ⟨rfl,rfl⟩
  have hlast : f ∈ (placed ++ [f])[placed.length]? := by simp
  have hold : ∀ {i : Nat} {e}, e ∈ placed[i]? → e ∈ (placed ++ [f])[i]? := by
    intro i e he
    rwa [List.getElem?_append_left (List.getElem?_eq_some_iff.mp he).1]
  constructor
  case valid => exact h.valid.place f
  case write =>
    intro a w hw
    rcases RoundPlan.place_lastWrite hw with ⟨rfl,ha⟩ | hw
    · exact ⟨placed.length,hnew,f,hlast,ha⟩
    · obtain ⟨i,hi,e,he,ha⟩ := h.write a w hw
      exact ⟨i,hkeep hi,e,hold he,ha⟩
  case access =>
    intro a w hw
    rcases RoundPlan.place_lastAccess hw with ⟨rfl,ha⟩ | hw
    · exact ⟨placed.length,hnew,f,hlast,ha⟩
    · obtain ⟨i,hi,e,he,ha⟩ := h.access a w hw
      exact ⟨i,hkeep hi,e,hold he,ha⟩
  case behind =>
    intro r i hi
    rw [hrounds,pushRound_inRound] at hi
    rcases hi with hi | ⟨rfl,rfl⟩
    · rcases h.behind r i hi with hzero | ⟨r',j,hj,hin,hc,heq⟩
      · exact .inl hzero
      · exact .inr ⟨r',j,hj,hkeep hin,hc.append,heq⟩
    · by_cases hzero : plan.roundIndex f = 0
      · exact .inl hzero
      · obtain ⟨r',j,hj,⟨e,he,hc⟩,heq⟩ := h.roundIndex_attained f hzero
        exact .inr ⟨r',j,h.valid.bound r' j hj,hkeep hj,⟨e,hold he,f,hlast,hc⟩,heq⟩
  case full =>
    intro round hround
    rcases mem_pushRound (h.roundIndex_le f) hround with hround | rfl | ⟨old,hmem,rfl⟩
    · exact h.full round hround
    · simp
    · have hbelow : ∀ i ∈ old, i < placed.length := by
        intro i hi
        obtain ⟨r,hr⟩ := List.getElem?_of_mem hmem
        exact h.valid.bound r i ⟨old,hr,hi⟩
      simpa [List.pairwise_append,(h.full old hmem).2] using hbelow

theorem assignRoundsFrom_tight [DecidableEq Address]
    {rest : List (EntryAccounts Address)} (h : plan.Tight placed) :
    (assignRoundsFrom plan placed.length rest).Tight (placed ++ rest) := by
  induction rest generalizing plan placed with
  | nil => simpa [assignRoundsFrom] using h
  | cons f rest ih =>
    have hrest := ih (h.place f)
    rwa [List.length_append,List.length_singleton,List.append_assoc] at hrest

theorem assignRounds_tight [DecidableEq Address] (entries : List (EntryAccounts Address)) :
    (assignRoundsFrom .empty 0 entries).Tight entries :=
  assignRoundsFrom_tight RoundPlan.empty_tight

theorem mem_assignRounds [DecidableEq Address] {i : Nat} :
    i ∈ (assignRounds entries).flatten ↔ i < entries.length := by
  rw [(assignRounds_perm entries).mem_iff,List.mem_range]

theorem assignRounds_nodup [DecidableEq Address] (entries : List (EntryAccounts Address)) :
    (assignRounds entries).flatten.Nodup :=
  (assignRounds_perm entries).nodup_iff.mpr List.nodup_range

theorem Conflicting.lt_length {i j : Nat}
    (h : Conflicting entries i j) : i < entries.length ∧ j < entries.length := by
  obtain ⟨e,he,f,hf,-⟩ := h
  exact ⟨(List.getElem?_eq_some_iff.mp he).1,(List.getElem?_eq_some_iff.mp hf).1⟩

theorem assignRounds_respects [DecidableEq Address] (entries : List (EntryAccounts Address)) :
    Respects entries (assignRounds entries) := by
  constructor
  · exact assignRounds_perm entries
  · intro i j hij hc
    obtain ⟨hi,hj⟩ := hc.lt_length
    obtain ⟨e,he,f,hf,hc⟩ := hc
    exact assignRounds_order hij (inRound_roundOf (mem_assignRounds.mpr hi))
      (inRound_roundOf (mem_assignRounds.mpr hj)) he hf hc

theorem assignRounds_leveled [DecidableEq Address] (entries : List (EntryAccounts Address)) :
    Leveled (Conflicting entries) entries.length (roundOf (assignRounds entries)) := by
  apply leveled_of_steps
  · exact fun j i hj _ hc => (assignRounds_respects entries).order j i hj hc
  · intro i hi
    rcases (assignRounds_tight entries).behind _ i (inRound_roundOf (mem_assignRounds.mpr hi))
      with hzero | ⟨r,j,hj,hin,hc,heq⟩
    · exact .inl hzero
    · obtain rfl := InRound.eq_roundOf hin (assignRounds_nodup entries)
      exact .inr ⟨j,hj,hc,heq⟩

theorem exists_last_round [DecidableEq Address] (h : assignRounds entries ≠ []) :
    ∃ i < entries.length, (assignRounds entries).length = roundOf (assignRounds entries) i + 1 := by
  have hfull := ((assignRounds_tight entries).full _ (List.getLast_mem h)).1
  obtain ⟨i,rest,hcons⟩ := List.exists_cons_of_ne_nil hfull
  have hpos := List.length_pos_iff.mpr h
  have hin : InRound (assignRounds entries) ((assignRounds entries).length - 1) i := by
    refine ⟨(assignRounds entries).getLast h,?_,?_⟩
    · rw [← List.getLast?_eq_getElem?,List.getLast?_eq_some_getLast h]
    · exact hcons ▸ List.mem_cons_self
  refine ⟨i,mem_assignRounds.mp hin.mem_flatten,?_⟩
  rw [← hin.eq_roundOf (assignRounds_nodup entries)]
  omega

theorem assignRounds_longest_chain [DecidableEq Address] (entries : List (EntryAccounts Address)) :
    IsGreatest {k | ∃ chain, ConflictChain entries chain ∧ chain.length = k}
      (assignRounds entries).length := by
  constructor
  · by_cases hnil : assignRounds entries = []
    · exact ⟨[],by simp [ConflictChain,DependencyChain],by simp [hnil]⟩
    · obtain ⟨i,hi,hlen⟩ := exists_last_round hnil
      obtain ⟨chain,hchain,hlevel⟩ := (assignRounds_leveled entries).exists_chain hi
      refine ⟨chain ++ [i],⟨hchain,?_⟩,by simp [hlen,hlevel]⟩
      intro j hj
      rcases List.mem_append.mp hj with hj | hj
      · exact (hchain.le_last j hj).trans hi
      · simpa [List.mem_singleton.mp hj] using hi
  · rintro k ⟨chain,⟨hchain,hbound⟩,rfl⟩
    rcases List.eq_nil_or_concat' chain with rfl | ⟨rest,i,rfl⟩
    · simp
    · have hi := hbound i (by simp)
      have hlevel := (assignRounds_leveled entries).chain_length_le hi hchain
      have hlt := roundOf_lt (mem_assignRounds.mpr hi)
      simp only [List.length_append,List.length_singleton]
      omega

theorem assignRounds_fewest [DecidableEq Address] (entries : List (EntryAccounts Address)) :
    IsLeast {k | ∃ rounds, Respects entries rounds ∧ rounds.length = k}
      (assignRounds entries).length := by
  constructor
  · exact ⟨_,assignRounds_respects entries,rfl⟩
  · rintro k ⟨rounds,hplan,rfl⟩
    by_cases hnil : assignRounds entries = []
    · simp [hnil]
    · obtain ⟨i,hi,hlen⟩ := exists_last_round hnil
      have hle := (assignRounds_leveled entries).le
        (fun j i hj _ hc => hplan.order j i hj hc) hi
      have hlt := roundOf_lt (hplan.partition.mem_iff.mpr (List.mem_range.mpr hi))
      omega

/-- Each entry stands right behind the last one it conflicts with, which makes the plan as short as
the conflicts allow. -/
theorem assignRounds_optimal [DecidableEq Address] (entries : List (EntryAccounts Address)) :
    (assignRounds entries).flatten.Perm (List.range entries.length) ∧
    (∀ round ∈ assignRounds entries, round ≠ [] ∧ round.Pairwise (· < ·)) ∧
    (∀ i < entries.length, roundOf (assignRounds entries) i =
      ((Finset.range i).filter (Conflicting entries · i)).sup
        fun j => 1 + roundOf (assignRounds entries) j) ∧
    IsGreatest {k | ∃ chain, ConflictChain entries chain ∧ chain.length = k}
      (assignRounds entries).length ∧
    IsLeast {k | ∃ rounds, Respects entries rounds ∧ rounds.length = k}
      (assignRounds entries).length := by
  refine ⟨assignRounds_perm entries,(assignRounds_tight entries).full,?_,
    assignRounds_longest_chain entries,assignRounds_fewest entries⟩
  intro i hi
  simpa only [Nat.add_comm 1] using assignRounds_leveled entries i hi

end Optimality

end Jetstreamer.Node
