import Jetstreamer.Firehose.PrefetchBudget
set_option autoImplicit false

namespace Jetstreamer.Firehose.Prefetch
open Lib Semaphore

def Fetch.weight (f : Fetch) : Nat :=
  match f.state with
  | .running attempt => 10 - attempt
  | .done _ | .failed _ => 7

def Phase.weight : Phase → Nat
  | .launching => 2
  | .waiting _ | .awaiting => 1
  | .sending _ => 4
  | .ended => 0

/-- A bound on the moves a pipeline can make without its reader. -/
def Pipeline.weight (p : Pipeline) : Nat :=
  20*(p.total - p.next) + (p.pending.map Fetch.weight).sum + p.phase.weight

theorem Fetch.reply_weight_lt {f next : Fetch} {total : Nat} {r : Reply}
    (h : f.reply total r = some next) : next.weight < f.weight := by
  unfold Fetch.reply at h
  cases hstate : f.state with
  | running attempt =>
    simp only [hstate] at h
    cases h
    simp only [Fetch.weight,hstate]
    cases request f.start f.last (some total) r with
    | ok answer =>
      have := attempt.isLt
      simp only
      omega
    | error err =>
      fin_cases attempt <;> simp
  | done bytes => simp [hstate] at h
  | failed err => simp [hstate] at h

theorem Fetch.weight_pos (f : Fetch) : 0 < f.weight := by
  unfold weight
  split
  · omega
  · decide
  · decide

namespace Pipeline

variable {config : Config} {budget after : Semaphore} {p next : Pipeline} {w : Work}

theorem launch_weight_lt (hnext : p.next < p.total) :
    (p.launch config).weight + 10 ≤ 20*(p.total - p.next) +
    (p.pending.map Fetch.weight).sum + 2 := by
  have hpos : 0 < p.nextSize config := nextSize_pos hnext
  have hle : p.nextSize config ≤ p.total - p.next := Nat.min_le_left _ _
  simp only [weight,launch,List.map_append,List.sum_append,List.map_cons,List.map_nil,
    List.sum_cons,List.sum_nil,Fetch.weight,Phase.weight]
  simp
  omega

theorem Worked.weight_lt (h : Worked config budget p w after next) (hwf : p.Wf) :
    next.weight < p.weight := by
  cases h with
  | launched hphase hnext h =>
    have hlaunch : (p.launch config).weight + 10 ≤ _ := launch_weight_lt hnext
    simp only [weight,hphase,Phase.weight] at hlaunch ⊢
    omega
  | granted ticket hphase h =>
    have hlaunch : (p.launch config).weight + 10 ≤ _ :=
      launch_weight_lt (hwf.waiting ticket hphase).1
    simp only [weight,hphase,Phase.weight] at hlaunch ⊢
    omega
  | taken f rest result hphase hpending h =>
    have hweight : f.weight = 7 := by
      unfold Fetch.result at h
      unfold Fetch.weight
      cases hstate : f.state <;> simp_all
    simp only [weight,hphase,Phase.weight,hpending,List.map_cons,List.sum_cons,hweight]
    omega
  | replied k r f answered hphase hpending hreply =>
    obtain ⟨rest,hbefore,hafter⟩ := exists_rest_set Fetch.weight hpending
    have hlt := Fetch.reply_weight_lt hreply
    simp only [weight,hbefore,hafter]
    omega
  | cleared k f hphase hpending =>
    have hpos := f.weight_pos
    simp only [weight,sum_eraseIdx_add Fetch.weight hpending]
    omega
  | reclaimed hclosed hphase =>
    rcases hphase with hphase | hphase <;> simp [weight,hphase,Phase.weight]
  | queued hphase | full hphase | returned hphase | refused _ hphase _ | sent _ hphase
  | sentError _ hphase | left _ _ hphase | dropped _ _ hphase =>
    simp [weight,hphase,Phase.weight]

theorem Worked.fair (h : Worked config budget p w after next) : budget.Fair after := by
  cases h with
  | launched _ _ h => exact tryAcquire_fair h
  | granted _ _ h => exact grant_fair h
  | queued => exact enqueue_fair budget
  | left ticket => exact leave_fair budget ticket
  | refused | dropped | replied | cleared => exact release_fair budget _
  | full | returned | taken | sent | sentError | reclaimed => exact release_fair budget 0

/-- Nothing happens to the pipeline without its reader, not even the loss of a request. -/
def AtRest (config : Config) (budget : Semaphore) (p : Pipeline) : Prop :=
  p.advance config budget = none ∧ (∀ k, p.reply budget k .lost = none) ∧
    p.reclaim budget = none ∧ ∀ k, p.reclaimFetch budget k = none

theorem AtRest.cases (h : p.AtRest config budget) :
    (p.phase = .ended ∧ p.pending = []) ∨
    (∃ ticket, p.phase = .waiting ticket ∧ p.receiving = true ∧
      budget.grant ticket (p.nextSize config) = none) ∨
    ∃ result, p.phase = .sending result ∧ p.receiving = true ∧
      config.concurrency ≤ p.channel.length := by
  obtain ⟨hadvance,hreply,hreclaim,hclear⟩ := h
  cases hphase : p.phase with
  | launching =>
    simp only [advance,hphase] at hadvance
    split at hadvance
    · split at hadvance
      · cases hadvance
      · split at hadvance <;> cases hadvance
    · cases hadvance
  | waiting ticket =>
    refine .inr (.inl ⟨ticket,rfl,?_,?_⟩)
    · simpa [reclaim,hphase] using hreclaim
    · simpa [advance,hphase] using hadvance
  | awaiting =>
    simp only [advance,hphase] at hadvance
    cases hpending : p.pending with
    | nil => simp [hpending] at hadvance
    | cons f rest =>
      -- the request at the head is under way, and could be lost
      have hresult : f.result = none := by simpa [hpending] using hadvance
      have hlost := hreply 0
      simp only [reply,hphase,hpending] at hlost
      unfold Fetch.result at hresult
      cases hstate : f.state <;> simp_all [Fetch.reply]
  | sending result =>
    refine .inr (.inr ⟨result,rfl,?_⟩)
    have hopen : p.receiving = true := by simpa [reclaim,hphase] using hreclaim
    refine ⟨hopen,?_⟩
    simpa [advance,hphase,hopen] using hadvance
  | ended =>
    refine .inl ⟨rfl,?_⟩
    cases hpending : p.pending with
    | nil => rfl
    | cons f rest => simpa [reclaimFetch,hphase,hpending] using hclear 0

end Pipeline

/-- A chunk has come that the reader has not used up. -/
def Reader.HoldsReceived (r : Reader) : Prop :=
  r.current ≠ none ∨ ∃ p bytes, r.pipeline = some p ∧ .ok bytes ∈ p.channel

namespace Pipeline

variable {config : Config} {budget : Semaphore} {p : Pipeline}

theorem channelHeld_eq_zero (h : ∀ bytes, .ok bytes ∉ p.channel) : p.channelHeld = 0 := by
  unfold channelHeld
  rw [List.sum_eq_zero_iff]
  simp only [List.mem_map,forall_exists_index,and_imp]
  rintro _ result hmem rfl
  cases result with
  | ok bytes => exact absurd hmem (h bytes)
  | error err => rfl

theorem AtRest.starved (h : p.AtRest config budget) (hwf : p.Wf)
    (hreceived : ∀ bytes, .ok bytes ∉ p.channel) :
    budget.Starved config.budgetBytes p.holding := by
  have hchannel := channelHeld_eq_zero hreceived
  rcases h.cases with ⟨hphase,hpending⟩ | ⟨ticket,hphase,hopen,hgrant⟩ | ⟨result,hphase,hopen,hfull⟩
  · exact ⟨by simp [Pipeline.holding,load,hphase,hpending,hchannel,Phase.holding],
      by simp [Pipeline.holding,hphase,Phase.holding]⟩
  · have hpending := (hwf.waiting ticket hphase).2
    refine ⟨by simp [Pipeline.holding,load,hphase,hpending,hchannel,Phase.holding],?_⟩
    intro other hother
    obtain rfl : other = ticket := by
      simpa [Pipeline.holding,hphase,Phase.holding] using hother
    exact ⟨_,nextSize_le,hgrant⟩
  · -- a full channel has a result in it, and no error before the end
    have hpos := config.concurrencyPos
    cases hlist : p.channel with
    | nil =>
      rw [hlist,List.length_nil] at hfull
      omega
    | cons first rest =>
      cases first with
      | ok bytes => exact absurd (by simp [hlist]) (hreceived bytes)
      | error err =>
        have hended := hwf.errors err (by simp [hlist])
        simp [hphase] at hended

end Pipeline

def Action.IsWork {ι : Type} : Action ι → Prop
  | .live _ _ | .aborted _ _ => True
  | _ => False

/-- A step of a producer, a request or the runtime: none of the readers acts. -/
def Internal {ι : Type} [DecidableEq ι] (config : Config) (objects : ι → Bytes)
    (s next : System ι) : Prop :=
  ∃ action : Action ι, action.IsWork ∧ action.Honest objects ∧
    s.step config action = some next

namespace Reader

variable {budget : Semaphore} {r : Reader}

theorem copy_fair (remaining : Nat) (budget : Semaphore) (r : Reader) (chunk : Bytes) :
    budget.Fair (r.copy remaining budget chunk).2.budget := by
  unfold copy
  dsimp only
  split
  · exact release_fair budget _
  · exact release_fair budget 0

theorem pollRead_fair (remaining : Nat) (budget : Semaphore) (r : Reader) :
    budget.Fair (r.pollRead remaining budget).2.budget := by
  have hcases := pollRead_cases remaining budget r
  generalize r.pollRead remaining budget = polled at hcases
  cases hcases with
  | nothing | pending => exact release_fair budget 0
  | current | received => exact copy_fair _ _ _ _
  | failed | finished => exact release_fair budget _

end Reader

namespace System

section

variable {ι : Type} [DecidableEq ι] {config : Config} {objects : ι → Bytes} {s next : System ι}

theorem step_fair {action : Action ι} (h : s.step config action = some next) :
    s.budget.Fair next.budget := by
  obtain ⟨i,reply,reader,-,hnone,hopen,rfl⟩ | ⟨i,remaining,r,-,hr,rfl⟩ | ⟨i,origin,r,-,hr,rfl⟩ |
    ⟨i,r,-,hr,rfl⟩ | ⟨i,w,r,p,budget,after,-,hr,hp,hwork,rfl⟩ |
    ⟨k,w,p,budget,after,-,hp,hwork,rfl⟩ := step_cases h
  · exact release_fair s.budget 0
  · exact Reader.pollRead_fair remaining s.budget r
  · rcases Reader.startSeek_cases s.budget r origin with ⟨result,hseek⟩ | ⟨position,hseek⟩
    · rw [hseek]
      exact release_fair s.budget 0
    · rw [hseek]
      exact release_fair s.budget _
  · exact release_fair s.budget _
  · exact (Pipeline.work_cases hwork).fair
  · exact (Pipeline.work_cases hwork).fair

theorem atRest_live {i : ι} {r : Reader} {p : Pipeline} (hr : s.readers i = some r)
    (hp : r.pipeline = some p) (hrest : ∀ next, ¬Internal config objects s next) :
    p.AtRest config s.budget := by
  have hnone : ∀ w, (Action.live i w).Honest objects → p.work config s.budget w = none := by
    intro w hhonest
    cases hwork : p.work config s.budget w with
    | none => rfl
    | some result =>
      have hstep : s.step config (.live i w) = some { s with
          budget := result.1
          readers := Function.update s.readers i (some { r with pipeline := some result.2 }) } := by
        simp [step,hr,hp,hwork]
      exact absurd ⟨.live i w,trivial,hhonest,hstep⟩ (hrest _)
  exact ⟨hnone .advance trivial,fun k => hnone (.reply k .lost) trivial,hnone .reclaim trivial,
    fun k => hnone (.reclaimFetch k) trivial⟩

theorem atRest_aborted {k : Nat} {p : Pipeline} (hp : s.aborted[k]? = some p)
    (hrest : ∀ next, ¬Internal config objects s next) : p.AtRest config s.budget := by
  have hnone : ∀ w, p.work config s.budget w = none := by
    intro w
    cases hwork : p.work config s.budget w with
    | none => rfl
    | some result =>
      have hstep : s.step config (.aborted k w) = some { s with
          budget := result.1
          aborted := s.aborted.set k result.2 } := by
        simp [step,hp,hwork]
      exact absurd ⟨.aborted k w,trivial,trivial,hstep⟩ (hrest _)
  exact ⟨hnone .advance,fun k => hnone (.reply k .lost),hnone .reclaim,
    fun k => hnone (.reclaimFetch k)⟩

end

variable {ι : Type} [Fintype ι]

def weight (s : System ι) : Nat :=
  ∑ i, (s.readers i).elim 0 (fun r => r.pipeline.elim 0 Pipeline.weight) +
    (s.aborted.map Pipeline.weight).sum

variable [DecidableEq ι] {config : Config} {objects : ι → Bytes} {s next : System ι}

theorem Accounted.internal_weight_lt (h : s.Accounted config)
    (hinternal : Internal config objects s next) : next.weight < s.weight := by
  obtain ⟨action,hwork,-,hstep⟩ := hinternal
  obtain ⟨i,reply,reader,rfl,hnone,hopen,rfl⟩ | ⟨i,remaining,r,rfl,hr,rfl⟩ |
    ⟨i,origin,r,rfl,hr,rfl⟩ | ⟨i,r,rfl,hr,rfl⟩ | ⟨i,w,r,p,budget,after,rfl,hr,hp,hworked,rfl⟩ |
    ⟨k,w,p,budget,after,rfl,hp,hworked,rfl⟩ := step_cases hstep
  · cases hwork
  · cases hwork
  · cases hwork
  · cases hwork
  · obtain ⟨rest,hsum,hupdate⟩ := exists_rest_update
      (fun reader : Option Reader => reader.elim 0 fun r => r.pipeline.elim 0 Pipeline.weight)
      s.readers i
    have hlt := (Pipeline.work_cases hworked).weight_lt (h.readers i r hr p hp).1
    simp only [weight,hsum,hupdate,hr,hp,Option.elim_some]
    omega
  · obtain ⟨rest,hsum,hset⟩ := exists_rest_set Pipeline.weight hp
    have hlt := (Pipeline.work_cases hworked).weight_lt (h.aborted p (List.mem_of_getElem? hp)).1
    simp only [weight,hsum,hset]
    omega

theorem Accounted.starved (h : s.Accounted config) (hrest : ∀ next, ¬Internal config objects s next)
    (hreceived : ∀ i r, s.readers i = some r → ¬r.HoldsReceived) :
    s.budget.Starved config.budgetBytes s.holding := by
  refine .add (Finset.sum_induction _ _ (fun _ _ => .add) starved_zero fun i _ => ?_)
    (List.sum_induction _ (fun _ _ => .add) starved_zero fun held hheld => ?_)
  · cases hr : s.readers i with
    | none => exact starved_zero
    | some r =>
      have hnothing := hreceived i r hr
      simp only [Reader.HoldsReceived,not_or,not_not,not_exists,not_and] at hnothing
      cases hp : r.pipeline with
      | none => simpa [Reader.holding,hp,hnothing.1,Prod.mk_zero_zero] using starved_zero
      | some p =>
        have hstarved := (atRest_live hr hp hrest).starved (h.readers i r hr p hp).1
          fun bytes => hnothing.2 p bytes hp
        simpa [Reader.holding,hp,hnothing.1,Prod.mk_zero_zero] using hstarved
  · obtain ⟨p,hp,rfl⟩ := List.mem_map.mp hheld
    obtain ⟨hwf,hclosed⟩ := h.aborted p hp
    obtain ⟨k,hk⟩ := List.mem_iff_getElem?.mp hp
    exact (atRest_aborted hk hrest).starved hwf (by simp [hwf.closed hclosed])

theorem Accounted.progress (h : s.Accounted config) (hqueue : s.budget.queue ≠ []) :
    (∃ next, Internal config objects s next) ∨ ∃ i r, s.readers i = some r ∧ r.HoldsReceived := by
  by_contra hstuck
  simp only [not_or,not_exists,not_and] at hstuck
  exact hqueue ((h.starved hstuck.1 hstuck.2).queue_eq_nil h.balanced)

theorem Accounted.permits_back (h : s.Accounted config) (hdropped : ∀ i, s.readers i = none)
    (hrest : ∀ next, ¬Internal config objects s next) :
    s.budget.available = config.budgetBytes ∧ s.budget.queue = [] := by
  have hstarved := h.starved hrest (by simp [hdropped])
  refine ⟨?_,hstarved.queue_eq_nil h.balanced⟩
  have hall := h.balanced.permits
  rwa [hstarved.permits] at hall

end System

end Jetstreamer.Firehose.Prefetch
