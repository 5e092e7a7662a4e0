import Jetstreamer.Firehose.Source
import Jetstreamer.Lib.Tally
set_option autoImplicit false

namespace Jetstreamer.Firehose.Stats
open Lib

structure ThreadStats where
  slotsProcessed : Nat
  blocksProcessed : Nat
  leaderSkippedSlots : Nat
  currentSlot : Nat
  deriving DecidableEq

structure Overall where
  slotsProcessed : Nat
  blocksProcessed : Nat
  deriving DecidableEq

inductive Op where
  | keep
  | addSlot
  | addBlock
  | removeBlock
  | removeSlot
  deriving DecidableEq

def Overall.apply (overall : Overall) : Op → Overall
  | .keep => overall
  | .addSlot => { overall with slotsProcessed := overall.slotsProcessed + 1 }
  | .addBlock => { overall with blocksProcessed := overall.blocksProcessed + 1 }
  | .removeBlock => { overall with blocksProcessed := overall.blocksProcessed - 1 }
  | .removeSlot => { overall with slotsProcessed := overall.slotsProcessed - 1 }

inductive BlockCall where
  | block (slot : Nat)
  | possibleLeaderSkipped (slot : Nat)
  deriving DecidableEq

structure Config where
  blockEnabled : Bool
  trackingIntervalSlots : Nat
  intervalPos : 0 < trackingIntervalSlots

/-- The block a thread is handling: the skipped slots before it, and what a rollback restores. -/
structure InBlock where
  slot : Nat
  gap : List Nat
  prevLastCounted : Nat
  snapshot : ThreadStats
  deriving DecidableEq

/-- Where a thread is in the handling of a block. Other threads may act between any two phases;
each phase does at most one operation on the shared counters. -/
inductive Phase where
  | idle
  | skipping (b : InBlock) (rest : List Nat)
  | skipAdded (b : InBlock) (skipped : Nat) (rest : List Nat)
  | countSlot (b : InBlock)
  | countBlock (b : InBlock)
  | countStats (b : InBlock)
  | reporting (b : InBlock)
  | undoBlock (b : InBlock)
  | undoSlot (b : InBlock)
  | undoStats (b : InBlock)
  | retrying (b : InBlock)
  deriving DecidableEq

/-- One worker. `source` are the slots of the blocks of its range, `stream` those its pass has
still to read; `calls` are the `on_block` calls made and `rollbacks` the blocks rolled back. -/
structure Thread where
  initialStart : Nat
  start : Nat
  source : List Nat
  stream : List Nat
  epoch : Option Nat
  lastCounted : Nat
  lastEmitted : Nat
  pendingSkips : List Nat
  stats : ThreadStats
  phase : Phase
  calls : List BlockCall
  rollbacks : List InBlock
  deriving DecidableEq

def Thread.spawn (start : Nat) (source : List Nat) : Thread where
  initialStart := start
  start := start
  source := source
  stream := source
  epoch := none
  lastCounted := start - 1
  lastEmitted := start - 1
  pendingSkips := []
  stats := ⟨0,0,0,start⟩
  phase := .idle
  calls := []
  rollbacks := []

/-- The slots the loop before a block counts as skipped; it stops where the epoch changes. -/
def skippedBefore (lastCounted slot : Nat) : List Nat :=
  (List.range' (lastCounted+1) (slot-(lastCounted+1))).takeWhile fun skipped =>
    slotToEpoch skipped = slotToEpoch lastCounted

def ThreadStats.countSkip (stats : ThreadStats) (skipped : Nat) : ThreadStats :=
  { stats with
    leaderSkippedSlots := stats.leaderSkippedSlots + 1
    slotsProcessed := stats.slotsProcessed + 1
    currentSlot := skipped }

def ThreadStats.countBlock (stats : ThreadStats) (slot : Nat) : ThreadStats :=
  { stats with
    blocksProcessed := stats.blocksProcessed + 1
    slotsProcessed := stats.slotsProcessed + 1
    currentSlot := slot }

namespace Thread

def enter (config : Config) (t : Thread) (slot : Nat) : Thread :=
  let epoch := slotToEpoch slot
  if t.epoch = some epoch then t
  else
    let localStart := max t.start (epochStart epoch)
    { t with
      epoch := some epoch
      lastCounted := localStart - 1
      pendingSkips := if config.blockEnabled then [] else t.pendingSkips
      stats := { t.stats with currentSlot := localStart } }

def begin (t : Thread) (slot : Nat) (rest : List Nat) : Thread :=
  let gap := skippedBefore t.lastCounted slot
  { t with
    stream := rest
    phase := .skipping ⟨slot,gap,t.lastCounted,t.stats⟩ gap }

def emit (config : Config) (t : Thread) (slot : Nat) (call : BlockCall) : Thread :=
  if config.blockEnabled && t.lastEmitted < slot then
    { t with lastEmitted := slot, calls := t.calls ++ [call] }
  else t

def announceSkip (config : Config) (t : Thread) (skipped : Nat) : Thread :=
  let t := if config.blockEnabled then { t with pendingSkips := skipped :: t.pendingSkips } else t
  t.emit config skipped (.possibleLeaderSkipped skipped)

def settle (config : Config) (t : Thread) (b : InBlock) : Thread :=
  let cleared := config.blockEnabled && t.pendingSkips.contains b.slot
  let t := { t with pendingSkips := t.pendingSkips.filter fun pending => pending != b.slot }
  if b.slot ≤ t.lastCounted && !cleared then { t with phase := .idle }
  else { t.emit config b.slot (.block b.slot) with phase := .countSlot b }

def finish (t : Thread) (b : InBlock) : Thread :=
  { t with lastCounted := max t.lastCounted b.slot, phase := .idle }

/-- The retry loop: the pass begins again at the slot that failed. The emission cursor is the one
the thread began with, since the assignment reads the variable outside the pass. -/
def retry (config : Config) (t : Thread) (slot : Nat) : Thread :=
  let start := if slot ≤ t.lastCounted then t.lastCounted + 1 else slot
  { t with
    start := start
    stream := t.source.filter fun other => start ≤ other
    epoch := none
    lastEmitted := t.initialStart - 1
    pendingSkips := if config.blockEnabled then [] else t.pendingSkips
    phase := .idle }

/-- One step of a thread; `ok` is what the stats handler answers where it is called. -/
def step (config : Config) (ok : Bool) (t : Thread) : Option (Op × Thread) :=
  match t.phase with
  | .idle =>
    match t.stream with
    | [] => none
    | slot :: rest => some (.keep,(t.enter config slot).begin slot rest)
  | .skipping b [] => some (.keep,t.settle config b)
  | .skipping b (skipped :: rest) =>
    some (.addSlot,{ t.announceSkip config skipped with phase := .skipAdded b skipped rest })
  | .skipAdded b skipped rest =>
    some (.keep,{ t with
      stats := t.stats.countSkip skipped
      lastCounted := skipped
      phase := .skipping b rest })
  | .countSlot b => some (.addSlot,{ t with phase := .countBlock b })
  | .countBlock b => some (.addBlock,{ t with phase := .countStats b })
  | .countStats b =>
    let t := { t with stats := t.stats.countBlock b.slot }
    if b.slot % config.trackingIntervalSlots = 0 then some (.keep,{ t with phase := .reporting b })
    else some (.keep,t.finish b)
  | .reporting b =>
    if ok then some (.keep,t.finish b) else some (.keep,{ t with phase := .undoBlock b })
  | .undoBlock b => some (.removeBlock,{ t with phase := .undoSlot b })
  | .undoSlot b => some (.removeSlot,{ t with phase := .undoStats b })
  | .undoStats b =>
    some (.keep,{ t with
      stats := b.snapshot
      lastCounted := b.prevLastCounted
      rollbacks := t.rollbacks ++ [b]
      phase := .retrying b })
  | .retrying b => some (.keep,t.retry config b.slot)

end Thread

structure System (n : Nat) where
  overall : Overall
  threads : Fin n → Thread

def System.spawn {n : Nat} (ranges : Fin n → Nat × List Nat) : System n where
  overall := ⟨0,0⟩
  threads := fun i => Thread.spawn (ranges i).1 (ranges i).2

def System.step {n : Nat} (config : Config) (s : System n) (i : Fin n) (ok : Bool) :
    Option (System n) :=
  ((s.threads i).step config ok).map fun (op,t) =>
    ⟨s.overall.apply op,Function.update s.threads i t⟩

/-- The states a run can be in, under any schedule and any answers of the stats handler. -/
inductive Reachable {n : Nat} (config : Config) (ranges : Fin n → Nat × List Nat) :
    System n → Prop where
  | spawn : Reachable config ranges (System.spawn ranges)
  | step {s next : System n} (i : Fin n) (ok : Bool) (h : Reachable config ranges s)
      (hstep : s.step config i ok = some next) : Reachable config ranges next

namespace Thread

def leaked (t : Thread) : Nat := (t.rollbacks.map fun b => b.gap.length).sum

/-- What a thread has added to the shared counters. Between an operation on them and the change of
its own counters the two differ, and a rollback leaves behind the skipped slots before the block. -/
def added (t : Thread) : Overall :=
  match t.phase with
  | .skipAdded _ _ _ | .countBlock _ =>
    ⟨t.leaked + t.stats.slotsProcessed + 1,t.stats.blocksProcessed⟩
  | .countStats _ => ⟨t.leaked + t.stats.slotsProcessed + 1,t.stats.blocksProcessed + 1⟩
  | .undoSlot _ => ⟨t.leaked + t.stats.slotsProcessed,t.stats.blocksProcessed - 1⟩
  | .undoStats _ => ⟨t.leaked + t.stats.slotsProcessed - 1,t.stats.blocksProcessed - 1⟩
  | _ => ⟨t.leaked + t.stats.slotsProcessed,t.stats.blocksProcessed⟩

/-- How far the counters of a thread have moved since the block it is handling began. -/
def Sound (t : Thread) : Prop :=
  match t.phase with
  | .idle => True
  | .skipping b rest =>
    t.stats.slotsProcessed + rest.length = b.snapshot.slotsProcessed + b.gap.length ∧
      t.stats.blocksProcessed = b.snapshot.blocksProcessed
  | .skipAdded b _ rest =>
    t.stats.slotsProcessed + 1 + rest.length = b.snapshot.slotsProcessed + b.gap.length ∧
      t.stats.blocksProcessed = b.snapshot.blocksProcessed
  | .countSlot b | .countBlock b | .countStats b =>
    t.stats.slotsProcessed = b.snapshot.slotsProcessed + b.gap.length ∧
      t.stats.blocksProcessed = b.snapshot.blocksProcessed
  | .reporting b | .undoBlock b | .undoSlot b | .undoStats b =>
    t.stats.slotsProcessed = b.snapshot.slotsProcessed + b.gap.length + 1 ∧
      t.stats.blocksProcessed = b.snapshot.blocksProcessed + 1
  | .retrying b => t.stats = b.snapshot

variable {config : Config} {ok : Bool} {t next : Thread} {op : Op}

@[simp] theorem emit_stats (slot : Nat) (call : BlockCall) :
    (t.emit config slot call).stats = t.stats := by
  unfold emit
  split <;> rfl

@[simp] theorem emit_rollbacks (slot : Nat) (call : BlockCall) :
    (t.emit config slot call).rollbacks = t.rollbacks := by
  unfold emit
  split <;> rfl

@[simp] theorem announceSkip_stats (skipped : Nat) :
    (t.announceSkip config skipped).stats = t.stats := by
  unfold announceSkip
  split <;> simp

@[simp] theorem announceSkip_rollbacks (skipped : Nat) :
    (t.announceSkip config skipped).rollbacks = t.rollbacks := by
  unfold announceSkip
  split <;> simp

theorem enter_counters (config : Config) (t : Thread) (slot : Nat) :
    (t.enter config slot).stats.slotsProcessed = t.stats.slotsProcessed ∧
      (t.enter config slot).stats.blocksProcessed = t.stats.blocksProcessed ∧
      (t.enter config slot).rollbacks = t.rollbacks ∧
      (t.enter config slot).calls = t.calls := by
  by_cases h : t.epoch = some (slotToEpoch slot) <;> simp [enter,h]

theorem settle_cases (config : Config) (t : Thread) (b : InBlock) :
    t.settle config b = { t with
        pendingSkips := t.pendingSkips.filter fun pending => pending != b.slot
        phase := .idle } ∨
      t.settle config b = { Thread.emit config { t with
        pendingSkips := t.pendingSkips.filter fun pending => pending != b.slot } b.slot
          (.block b.slot) with phase := .countSlot b } := by
  unfold settle
  dsimp only
  split
  · exact .inl rfl
  · exact .inr rfl

theorem step_added (h : t.step config ok = some (op,next)) (hsound : t.Sound) :
    next.Sound ∧ next.added = t.added.apply op ∧
      (op = .removeSlot → 0 < t.added.slotsProcessed) ∧
      (op = .removeBlock → 0 < t.added.blocksProcessed) := by
  unfold step at h
  unfold Sound at hsound
  cases hphase : t.phase with
  | idle =>
    rw [hphase] at h
    cases hstream : t.stream with
    | nil => simp [hstream] at h
    | cons slot rest =>
      simp only [hstream] at h
      cases h
      obtain ⟨hslots,hblocks,hrolls,-⟩ := enter_counters config t slot
      simp [Sound,added,leaked,begin,hphase,Overall.apply,hslots,hblocks,hrolls]
  | skipping b rest =>
    rw [hphase] at h hsound
    cases rest with
    | nil =>
      cases h
      rcases settle_cases config t b with hsettle | hsettle
      · simp [hsettle,Sound,added,leaked,hphase,Overall.apply]
      · simpa [hsettle,Sound,added,leaked,hphase,Overall.apply] using hsound
    | cons skipped rest =>
      cases h
      simp only [List.length_cons] at hsound
      refine ⟨?_,?_,nofun,nofun⟩
      · simp only [Sound,announceSkip_stats]
        omega
      · simp [added,leaked,hphase,Overall.apply]
  | skipAdded b skipped rest =>
    rw [hphase] at h hsound
    cases h
    refine ⟨?_,?_,nofun,nofun⟩
    · simpa [Sound,ThreadStats.countSkip] using hsound
    · simp [added,leaked,hphase,Overall.apply,ThreadStats.countSkip,Nat.add_assoc]
  | countSlot b =>
    rw [hphase] at h hsound
    cases h
    exact ⟨hsound,by simp [added,leaked,hphase,Overall.apply],nofun,nofun⟩
  | countBlock b =>
    rw [hphase] at h hsound
    cases h
    exact ⟨hsound,by simp [added,leaked,hphase,Overall.apply],nofun,nofun⟩
  | countStats b =>
    rw [hphase] at h hsound
    simp only at h
    split at h
    · cases h
      refine ⟨?_,?_,nofun,nofun⟩
      · simpa [Sound,ThreadStats.countBlock] using hsound
      · simp [added,leaked,hphase,Overall.apply,ThreadStats.countBlock,Nat.add_assoc]
    · cases h
      refine ⟨trivial,?_,nofun,nofun⟩
      simp [added,leaked,hphase,Overall.apply,ThreadStats.countBlock,finish,Nat.add_assoc]
  | reporting b =>
    rw [hphase] at h hsound
    simp only at h
    split at h
    · cases h
      exact ⟨trivial,by simp [added,leaked,hphase,Overall.apply,finish],nofun,nofun⟩
    · cases h
      exact ⟨hsound,by simp [added,leaked,hphase,Overall.apply],nofun,nofun⟩
  | undoBlock b =>
    rw [hphase] at h hsound
    cases h
    simp only at hsound
    refine ⟨hsound,by simp [added,leaked,hphase,Overall.apply],nofun,fun _ => ?_⟩
    simp only [added,hphase]
    omega
  | undoSlot b =>
    rw [hphase] at h hsound
    cases h
    simp only at hsound
    refine ⟨hsound,by simp [added,leaked,hphase,Overall.apply],fun _ => ?_,nofun⟩
    simp only [added,hphase]
    omega
  | undoStats b =>
    rw [hphase] at h hsound
    cases h
    simp only at hsound
    refine ⟨rfl,?_,nofun,nofun⟩
    simp only [added,leaked,hphase,Overall.apply,List.map_append,List.sum_append,List.map_cons,
      List.map_nil,List.sum_cons,List.sum_nil,Overall.mk.injEq]
    omega
  | retrying b =>
    rw [hphase] at h hsound
    cases h
    exact ⟨trivial,by simp [added,leaked,hphase,Overall.apply,retry],nofun,nofun⟩

theorem step_rollbacks (h : t.step config ok = some (op,next)) :
    (next.rollbacks = t.rollbacks ∧ ∀ b, t.phase ≠ .undoStats b) ∨
      ∃ b, t.phase = .undoStats b ∧ next.rollbacks = t.rollbacks ++ [b] := by
  unfold step at h
  cases hphase : t.phase with
  | idle =>
    rw [hphase] at h
    cases hstream : t.stream with
    | nil => simp [hstream] at h
    | cons slot rest =>
      simp only [hstream] at h
      cases h
      exact .inl ⟨(enter_counters config t slot).2.2.1,nofun⟩
  | skipping b rest =>
    rw [hphase] at h
    cases rest with
    | nil =>
      cases h
      rcases settle_cases config t b with hsettle | hsettle <;> simp [hsettle]
    | cons skipped rest =>
      cases h
      simp
  | countStats b =>
    rw [hphase] at h
    simp only at h
    split at h <;> cases h <;> exact .inl ⟨rfl,nofun⟩
  | reporting b =>
    rw [hphase] at h
    simp only at h
    split at h <;> cases h <;> exact .inl ⟨rfl,nofun⟩
  | undoStats b =>
    rw [hphase] at h
    cases h
    exact .inr ⟨b,rfl,rfl⟩
  | skipAdded _ _ _ | countSlot _ | countBlock _ | undoBlock _ | undoSlot _ | retrying _ =>
    rw [hphase] at h
    cases h
    exact .inl ⟨rfl,nofun⟩

theorem emit_disabled (hdisabled : config.blockEnabled = false) (slot : Nat) (call : BlockCall) :
    t.emit config slot call = t := by
  simp [emit,hdisabled]

theorem step_calls (hdisabled : config.blockEnabled = false)
    (h : t.step config ok = some (op,next)) : next.calls = t.calls := by
  unfold step at h
  cases hphase : t.phase with
  | idle =>
    rw [hphase] at h
    cases hstream : t.stream with
    | nil => simp [hstream] at h
    | cons slot rest =>
      simp only [hstream] at h
      cases h
      exact (enter_counters config t slot).2.2.2
  | skipping b rest =>
    rw [hphase] at h
    cases rest with
    | nil =>
      cases h
      rcases settle_cases config t b with hsettle | hsettle <;>
        simp [hsettle,emit_disabled hdisabled]
    | cons skipped rest =>
      cases h
      simp [announceSkip,emit_disabled hdisabled,hdisabled]
  | countStats b =>
    rw [hphase] at h
    simp only at h
    split at h <;> cases h <;> rfl
  | reporting b =>
    rw [hphase] at h
    simp only at h
    split at h <;> cases h <;> rfl
  | skipAdded _ _ _ | countSlot _ | countBlock _ | undoBlock _ | undoSlot _ | undoStats _
  | retrying _ =>
    rw [hphase] at h
    cases h
    rfl

theorem step_ok (h : ∀ b, t.phase ≠ .reporting b) :
    t.step config ok = t.step config true := by
  unfold step
  cases hphase : t.phase with
  | reporting b => exact absurd hphase (h b)
  | skipping b rest => cases rest <;> rfl
  | _ => rfl

def solo (config : Config) : Nat → Thread → Option Thread
  | 0, t => some t
  | k+1, t => do
    let (_,t) ← t.step config true
    t.solo config k

def Finished (t : Thread) : Prop := t.phase = .idle ∧ t.stream = []

theorem solo_succ {k : Nat} {start : Thread} (hsolo : start.solo config k = some t)
    (hstep : t.step config true = some (op,next)) :
    start.solo config (k+1) = some next := by
  induction k generalizing start with
  | zero =>
    cases hsolo
    simp [solo,hstep]
  | succ k ih =>
    obtain ⟨⟨first,after⟩,hfirst,hrest⟩ := Option.bind_eq_some_iff.mp hsolo
    rw [solo,hfirst]
    exact ih hrest

theorem solo_calls {k : Nat} {start : Thread} (hdisabled : config.blockEnabled = false)
    (hsolo : start.solo config k = some t) : t.calls = start.calls := by
  induction k generalizing start with
  | zero =>
    cases hsolo
    rfl
  | succ k ih =>
    obtain ⟨⟨op,middle⟩,hfirst,hrest⟩ := Option.bind_eq_some_iff.mp hsolo
    rw [ih hrest,step_calls hdisabled hfirst]

theorem step_eq_none_iff : t.step config ok = none ↔ t.Finished := by
  unfold step Finished
  cases hphase : t.phase with
  | idle => cases t.stream <;> simp
  | skipping b rest => cases rest <;> simp
  | countStats b => simp only; split <;> simp
  | reporting b => simp only; split <;> simp
  | _ => simp

theorem solo_finished {k j : Nat} {start u : Thread} (hk : start.solo config k = some t)
    (hj : start.solo config j = some u) (ht : t.Finished) (hu : u.Finished) : t = u := by
  induction k generalizing start j with
  | zero =>
    cases hk
    cases j with
    | zero => exact Option.some.inj hj
    | succ j =>
      rw [solo,step_eq_none_iff.mpr ht] at hj
      cases hj
  | succ k ih =>
    cases j with
    | zero =>
      cases hj
      rw [solo,step_eq_none_iff.mpr hu] at hk
      cases hk
    | succ j =>
      obtain ⟨⟨op,middle⟩,hfirst,hrest⟩ := Option.bind_eq_some_iff.mp hk
      rw [solo,hfirst] at hj
      exact ih hrest hj

def work (t : Thread) : Nat ×ₗ Nat :=
  toLex (t.stream.length,match t.phase with
    | .idle => 0
    | .skipping _ rest => 2*rest.length + 5
    | .skipAdded _ _ rest => 2*rest.length + 6
    | .countSlot _ => 4
    | .countBlock _ => 3
    | .countStats _ => 2
    | .reporting _ => 1
    | _ => 0)

def Forward (t : Thread) : Prop :=
  match t.phase with
  | .undoBlock _ | .undoSlot _ | .undoStats _ | .retrying _ => False
  | _ => True

@[simp] theorem emit_stream (slot : Nat) (call : BlockCall) :
    (t.emit config slot call).stream = t.stream := by
  unfold emit
  split <;> rfl

@[simp] theorem announceSkip_stream (skipped : Nat) :
    (t.announceSkip config skipped).stream = t.stream := by
  unfold announceSkip
  split <;> simp

theorem Forward.step (hforward : t.Forward) (h : t.step config true = some (op,next)) :
    next.Forward ∧ next.work < t.work := by
  unfold Thread.step at h
  unfold Forward at hforward
  cases hphase : t.phase with
  | idle =>
    rw [hphase] at h
    cases hstream : t.stream with
    | nil => simp [hstream] at h
    | cons slot rest =>
      simp only [hstream] at h
      cases h
      simp [Forward,work,begin,hphase,hstream,Prod.Lex.toLex_lt_toLex]
  | skipping b rest =>
    rw [hphase] at h
    cases rest with
    | nil =>
      cases h
      rcases settle_cases config t b with hsettle | hsettle <;>
        simp [hsettle,Forward,work,hphase,Prod.Lex.toLex_lt_toLex]
    | cons skipped rest =>
      cases h
      simp [Forward,work,hphase,Prod.Lex.toLex_lt_toLex]
      omega
  | countStats b =>
    rw [hphase] at h
    simp only at h
    split at h <;> cases h <;> simp [Forward,work,finish,hphase,Prod.Lex.toLex_lt_toLex]
  | skipAdded _ _ _ | countSlot _ | countBlock _ | reporting _ =>
    rw [hphase] at h
    cases h
    simp [Forward,work,finish,hphase,Prod.Lex.toLex_lt_toLex]
  | undoBlock _ | undoSlot _ | undoStats _ | retrying _ => simp [hphase] at hforward

def CleanEnd (config : Config) (start t : Thread) : Prop :=
  t.Finished ∧ ∃ k, start.solo config k = some t

theorem Forward.exists_cleanEnd (hforward : t.Forward) : ∃ u, CleanEnd config t u := by
  induction hwork : t.work using WellFoundedLT.induction generalizing t with
  | ind left ih =>
    subst hwork
    cases hstep : t.step config true with
    | none => exact ⟨t,step_eq_none_iff.mp hstep,0,rfl⟩
    | some result =>
      obtain ⟨hnext,hless⟩ := hforward.step hstep
      obtain ⟨u,hfinished,k,hsolo⟩ := ih _ hless hnext rfl
      exact ⟨u,hfinished,k+1,by simpa [solo,hstep] using hsolo⟩

def Undoing (t : Thread) : Prop :=
  ∃ b, t.phase = .undoBlock b ∨ t.phase = .undoSlot b ∨ t.phase = .undoStats b

/-- A thread with no rollback behind it or under way is where it would be alone. -/
def Untroubled (config : Config) (start t : Thread) : Prop :=
  t.rollbacks = [] → ¬t.Undoing → ∃ k, start.solo config k = some t

theorem Untroubled.step {start : Thread} (huntroubled : Untroubled config start t)
    (h : t.step config ok = some (op,next)) : Untroubled config start next := by
  intro hrollbacks hundoing
  rcases step_rollbacks h with ⟨hsame,hphase⟩ | ⟨b,-,hadded⟩
  · have ht : ¬t.Undoing := by
      rintro ⟨b,hb | hb | hb⟩
      · simp only [Thread.step,hb] at h
        cases h
        exact hundoing ⟨b,.inr (.inl rfl)⟩
      · simp only [Thread.step,hb] at h
        cases h
        exact hundoing ⟨b,.inr (.inr rfl)⟩
      · exact hphase b hb
    obtain ⟨k,hsolo⟩ := huntroubled (hsame ▸ hrollbacks) ht
    have htrue : t.step config true = some (op,next) := by
      cases ok with
      | true => exact h
      | false =>
        rw [← h]
        refine (step_ok fun b hreport => ?_).symm
        -- a failed report begins a rollback
        simp only [Thread.step,hreport] at h
        cases h
        exact hundoing ⟨b,.inl rfl⟩
    exact ⟨k+1,solo_succ hsolo htrue⟩
  · rw [hadded] at hrollbacks
    simp at hrollbacks

end Thread

namespace System

variable {n : Nat} {config : Config} {ranges : Fin n → Nat × List Nat} {s next : System n}

/-- No thread is in the middle of a block: each has handled its last one or rolled it back. -/
def Quiet (s : System n) : Prop :=
  ∀ i, (s.threads i).phase = .idle ∨ ∃ b, (s.threads i).phase = .retrying b

structure Tallied (s : System n) : Prop where
  slots : s.overall.slotsProcessed = ∑ i, (s.threads i).added.slotsProcessed
  blocks : s.overall.blocksProcessed = ∑ i, (s.threads i).added.blocksProcessed
  sound : ∀ i, (s.threads i).Sound

theorem step_some {i : Fin n} {ok : Bool} (h : s.step config i ok = some next) :
    ∃ op t, (s.threads i).step config ok = some (op,t) ∧
      next = ⟨s.overall.apply op,Function.update s.threads i t⟩ := by
  obtain ⟨⟨op,t⟩,hstep,heq⟩ := Option.map_eq_some_iff.mp h
  exact ⟨op,t,hstep,heq.symm⟩

theorem Tallied.step {i : Fin n} {ok : Bool} (htallied : s.Tallied)
    (h : s.step config i ok = some next) : next.Tallied := by
  obtain ⟨op,t,hstep,rfl⟩ := step_some h
  obtain ⟨hsound,hadded,hslot,hblock⟩ := Thread.step_added hstep (htallied.sound i)
  have hslots := sum_update_add (fun t : Thread => t.added.slotsProcessed) s.threads i t
  have hblocks := sum_update_add (fun t : Thread => t.added.blocksProcessed) s.threads i t
  have hleSlots := share_le_sum (fun t : Thread => t.added.slotsProcessed) s.threads i
  have hleBlocks := share_le_sum (fun t : Thread => t.added.blocksProcessed) s.threads i
  have hbefore := htallied.slots
  have hbefore' := htallied.blocks
  rw [hadded] at hslots hblocks
  refine ⟨?_,?_,fun j => ?_⟩
  · cases op <;> simp only [Overall.apply] at hslots hslot ⊢ <;> simp at hslot <;> omega
  · cases op <;> simp only [Overall.apply] at hblocks hblock ⊢ <;> simp at hblock <;> omega
  · by_cases hj : j = i
    · subst hj
      simpa using hsound
    · simpa [hj] using htallied.sound j

theorem Quiet.added (h : s.Quiet) (i : Fin n) :
    (s.threads i).added =
      ⟨(s.threads i).leaked + (s.threads i).stats.slotsProcessed,
        (s.threads i).stats.blocksProcessed⟩ := by
  rcases h i with hphase | ⟨b,hphase⟩ <;> simp [Thread.added,hphase]

theorem Tallied.quiet_slots (h : s.Tallied) (hquiet : s.Quiet) :
    s.overall.slotsProcessed =
      ∑ i, (s.threads i).leaked + ∑ i, (s.threads i).stats.slotsProcessed := by
  rw [h.slots,← Finset.sum_add_distrib]
  exact Finset.sum_congr rfl fun i _ => by rw [hquiet.added i]

theorem Tallied.quiet_blocks (h : s.Tallied) (hquiet : s.Quiet) :
    s.overall.blocksProcessed = ∑ i, (s.threads i).stats.blocksProcessed := by
  rw [h.blocks]
  exact Finset.sum_congr rfl fun i _ => by rw [hquiet.added i]

/-- What the counters and calls are to be, whatever the stats handler answered. -/
structure Consistent (config : Config) (ranges : Fin n → Nat × List Nat) (s : System n) :
    Prop where
  slots : s.Quiet → s.overall.slotsProcessed = ∑ i, (s.threads i).stats.slotsProcessed
  blocks : s.Quiet → s.overall.blocksProcessed = ∑ i, (s.threads i).stats.blocksProcessed
  restored : ∀ i b, (s.threads i).phase = .retrying b → (s.threads i).stats = b.snapshot
  clean : ∀ i, ∃ u, Thread.CleanEnd config (Thread.spawn (ranges i).1 (ranges i).2) u
  calls : ∀ i, (s.threads i).Finished → ∀ u,
    Thread.CleanEnd config (Thread.spawn (ranges i).1 (ranges i).2) u →
      (s.threads i).calls = u.calls

end System

section

variable {n : Nat} {config : Config} {ranges : Fin n → Nat × List Nat} {s : System n}

section

variable (h : Reachable config ranges s)
include h

theorem Reachable.tallied : s.Tallied := by
  induction h with
  | spawn =>
    exact ⟨by simp [System.spawn,Thread.spawn,Thread.added,Thread.leaked],
      by simp [System.spawn,Thread.spawn,Thread.added,Thread.leaked],fun _ => trivial⟩
  | step i ok _ hstep ih => exact ih.step hstep

theorem Reachable.untroubled (i : Fin n) :
    Thread.Untroubled config (Thread.spawn (ranges i).1 (ranges i).2) (s.threads i) := by
  induction h with
  | spawn => exact fun _ _ => ⟨0,rfl⟩
  | step j ok _ hstep ih =>
    obtain ⟨op,t,hthread,rfl⟩ := System.step_some hstep
    by_cases hj : i = j
    · subst hj
      simpa using ih.step hthread
    · simpa [hj] using ih

theorem Reachable.calls (hdisabled : config.blockEnabled = false)
    (i : Fin n) : (s.threads i).calls = [] := by
  induction h with
  | spawn => rfl
  | step j ok _ hstep ih =>
    obtain ⟨op,t,hthread,rfl⟩ := System.step_some hstep
    by_cases hj : i = j
    · subst hj
      simpa [Thread.step_calls hdisabled hthread] using ih
    · simpa [hj] using ih

theorem Reachable.slots_eq_iff (hquiet : s.Quiet) :
    s.overall.slotsProcessed = ∑ i, (s.threads i).stats.slotsProcessed ↔
      ∀ i, ∀ b ∈ (s.threads i).rollbacks, b.gap = [] := by
  rw [h.tallied.quiet_slots hquiet,Nat.add_eq_right,Finset.sum_eq_zero_iff]
  simp [Thread.leaked,List.sum_eq_zero_iff]

end

/-- In every run in which no rolled back block had skipped slots before it, and none had an
`on_block` handler to be called again, the totals are the sums and the calls those of a run without
failures. -/
theorem Reachable.consistent_of_clean (h : Reachable config ranges s)
    (hclean : ∀ i, ∀ b ∈ (s.threads i).rollbacks, b.gap = [] ∧ config.blockEnabled = false) :
    System.Consistent config ranges s where
  slots := fun hquiet => (h.slots_eq_iff hquiet).mpr fun i b hb => (hclean i b hb).1
  blocks := h.tallied.quiet_blocks
  restored := by
    intro i b hphase
    simpa [Thread.Sound,hphase] using h.tallied.sound i
  clean := fun i => Thread.Forward.exists_cleanEnd trivial
  calls := by
    rintro i hfinished u ⟨hu,j,hsolo⟩
    cases hrollbacks : (s.threads i).rollbacks with
    | nil =>
      have hundoing : ¬(s.threads i).Undoing := by
        simp [Thread.Undoing,hfinished.1]
      obtain ⟨k,hk⟩ := h.untroubled i hrollbacks hundoing
      rw [Thread.solo_finished hk hsolo hfinished hu]
    | cons b rest =>
      have hdisabled := (hclean i b (by simp [hrollbacks])).2
      rw [h.calls hdisabled i,Thread.solo_calls hdisabled hsolo]
      rfl

def System.run (config : Config) (s : System n) : List (Fin n × Bool) → Option (System n)
  | [] => some s
  | (i,ok) :: rest => do
    let s ← s.step config i ok
    s.run config rest

theorem Reachable.run {schedule : List (Fin n × Bool)} {last : System n}
    (h : Reachable config ranges s) (hrun : s.run config schedule = some last) :
    Reachable config ranges last := by
  induction schedule generalizing s with
  | nil =>
    cases hrun
    exact h
  | cons move rest ih =>
    obtain ⟨next,hstep,hrest⟩ := Option.bind_eq_some_iff.mp hrun
    exact ih (h.step move.1 move.2 hstep) hrest

end

def gapRange : Fin 1 → Nat × List Nat := fun _ => (5,[6])

def everySlot (blockEnabled : Bool) : Config := ⟨blockEnabled,1,Nat.one_pos⟩

def failAt (failing moves : Nat) : List (Fin 1 × Bool) :=
  (List.range moves).map fun k => (Fin.last 0,k != failing)

theorem consistent_of_clean_denseRange :
    ∃ s, Reachable (everySlot false) (fun _ : Fin 1 => (6,[6])) s ∧
      (s.threads 0).rollbacks.length = 1 ∧
      System.Consistent (everySlot false) (fun _ : Fin 1 => (6,[6])) s := by
  have hrun : ((System.spawn fun _ : Fin 1 => (6,[6])).run (everySlot false) (failAt 5 16)).map
      (fun s => (s.threads 0).rollbacks.map fun b => (b.slot,b.gap)) = some [(6,[])] := by
    decide +kernel
  obtain ⟨s,hs,hrollbacks⟩ := Option.map_eq_some_iff.mp hrun
  have hreachable := Reachable.spawn.run hs
  refine ⟨s,hreachable,?_,hreachable.consistent_of_clean ?_⟩
  · simpa using congrArg List.length hrollbacks
  · intro i b hb
    have hmem := List.mem_map_of_mem (f := fun b : InBlock => (b.slot,b.gap)) hb
    rw [Subsingleton.elim i 0,hrollbacks] at hmem
    simp_all [everySlot]

/-- The skipped slot stays in the shared counter, and the retry calls the handler a second time. -/
theorem not_consistent_gapRange :
    (∃ s, Reachable (everySlot true) gapRange s ∧ s.Quiet ∧
      s.overall.slotsProcessed = 1 ∧ ∑ i, (s.threads i).stats.slotsProcessed = 0 ∧
      ¬System.Consistent (everySlot true) gapRange s) ∧
    ∃ s u, Reachable (everySlot true) gapRange s ∧ (s.threads 0).Finished ∧
      Thread.CleanEnd (everySlot true) (Thread.spawn 5 [6]) u ∧
      u.calls = [.possibleLeaderSkipped 5,.block 6] ∧
      (s.threads 0).calls = [.possibleLeaderSkipped 5,.block 6,.block 6] := by
  constructor
  · have hrun : ((System.spawn gapRange).run (everySlot true) (failAt 7 12)).map
        (fun s => (s.overall.slotsProcessed,(s.threads 0).stats.slotsProcessed,
          (s.threads 0).phase)) = some (1,0,.idle) := by
      decide +kernel
    obtain ⟨s,hs,hstate⟩ := Option.map_eq_some_iff.mp hrun
    obtain ⟨hoverall,hstats,hphase⟩ : s.overall.slotsProcessed = 1 ∧
        (s.threads 0).stats.slotsProcessed = 0 ∧ (s.threads 0).phase = .idle := by
      simpa using hstate
    have hquiet : s.Quiet := by
      intro i
      rw [Subsingleton.elim i 0]
      exact .inl hphase
    have hsum : ∑ i, (s.threads i).stats.slotsProcessed = 0 := by simpa using hstats
    refine ⟨s,Reachable.spawn.run hs,hquiet,hoverall,hsum,fun hconsistent => ?_⟩
    have hslots := hconsistent.slots hquiet
    omega
  · have hrun : ((System.spawn gapRange).run (everySlot true) (failAt 7 18)).map
        (fun s => ((s.threads 0).phase,(s.threads 0).stream,(s.threads 0).calls)) =
        some (.idle,[],[.possibleLeaderSkipped 5,.block 6,.block 6]) := by
      decide +kernel
    obtain ⟨s,hs,hstate⟩ := Option.map_eq_some_iff.mp hrun
    have hsolo : ((Thread.spawn 5 [6]).solo (everySlot true) 8).map
        (fun u => (u.phase,u.stream,u.calls)) =
        some (.idle,[],[.possibleLeaderSkipped 5,.block 6]) := by
      decide +kernel
    obtain ⟨u,hu,hclean⟩ := Option.map_eq_some_iff.mp hsolo
    simp only [Prod.mk.injEq] at hstate hclean
    exact ⟨s,u,Reachable.spawn.run hs,⟨hstate.1,hstate.2.1⟩,⟨⟨hclean.1,hclean.2.1⟩,8,hu⟩,
      hclean.2.2,hstate.2.2⟩

end Jetstreamer.Firehose.Stats
