import Jetstreamer.Firehose.Prefetch
import Jetstreamer.Lib.Tally
set_option autoImplicit false

namespace Jetstreamer.Firehose.Prefetch
open Lib Semaphore

def Phase.holding : Phase → Holding
  | .waiting ticket => (0,{ticket})
  | .sending result => (resultHeld result,0)
  | .launching | .awaiting | .ended => 0

def Pipeline.load (p : Pipeline) : Nat := (p.pending.map Fetch.held).sum + p.channelHeld

def Pipeline.holding (p : Pipeline) : Holding := (p.load,0) + p.phase.holding

def Reader.holding (r : Reader) : Holding :=
  r.pipeline.elim 0 Pipeline.holding + (r.current.elim 0 List.length,0)

def Left.holding (left : Left) : Holding :=
  left.reader.holding + (left.aborted.map Pipeline.holding).sum

theorem Fetch.result_held {f : Fetch} {result : Except IoError Bytes}
    (h : f.result = some result) : f.held = resultHeld result := by
  unfold Fetch.result at h
  unfold Fetch.held
  cases hstate : f.state with
  | running attempt => simp [hstate] at h
  | done bytes =>
    simp only [hstate,Option.some.injEq] at h
    rw [← h]
    exact bytes.2.symm
  | failed err =>
    simp only [hstate,Option.some.injEq] at h
    rw [← h]
    rfl

theorem Fetch.reply_held_le {f next : Fetch} {total : Nat} {r : Reply}
    (h : f.reply total r = some next) : next.held ≤ f.held := by
  unfold Fetch.reply at h
  cases hstate : f.state with
  | running attempt =>
    simp only [hstate] at h
    cases h
    simp only [Fetch.held,hstate]
    split <;> simp [Fetch.size]
  | done bytes => simp [hstate] at h
  | failed err => simp [hstate] at h

namespace Pipeline

/-- What every pipeline keeps to: it waits for permits with no request under way, and after an error
it sends nothing. -/
structure Wf (p : Pipeline) : Prop where
  waiting : ∀ ticket, p.phase = .waiting ticket → p.next < p.total ∧ p.pending = []
  closed : p.receiving = false → p.channel = []
  errors : ∀ err, .error err ∈ p.channel → p.phase = .ended
  last : ∀ err, .error err ∉ p.channel.dropLast

/-- All that can happen to a pipeline without its reader. -/
inductive Worked (config : Config) (budget : Semaphore) (p : Pipeline) :
    Work → Semaphore → Pipeline → Prop where
  | launched {after : Semaphore} (hphase : p.phase = .launching) (hnext : p.next < p.total)
      (h : budget.tryAcquire (p.nextSize config) = some after) :
      Worked config budget p .advance after (p.launch config)
  | queued (hphase : p.phase = .launching) (hnext : p.next < p.total) (hpending : p.pending = []) :
      Worked config budget p .advance budget.enqueue { p with phase := .waiting budget.issued }
  | full (hphase : p.phase = .launching) :
      Worked config budget p .advance budget { p with phase := .awaiting }
  | granted {after : Semaphore} (ticket : Nat) (hphase : p.phase = .waiting ticket)
      (h : budget.grant ticket (p.nextSize config) = some after) :
      Worked config budget p .advance after (p.launch config)
  | returned (hphase : p.phase = .awaiting) (hpending : p.pending = []) :
      Worked config budget p .advance budget { p with phase := .ended }
  | taken (f : Fetch) (rest : List Fetch) (result : Except IoError Bytes)
      (hphase : p.phase = .awaiting) (hpending : p.pending = f :: rest)
      (h : f.result = some result) :
      Worked config budget p .advance budget { p with pending := rest, phase := .sending result }
  | refused (result : Except IoError Bytes) (hphase : p.phase = .sending result)
      (hclosed : p.receiving = false) :
      Worked config budget p .advance (budget.release (resultHeld result))
        { p with phase := .ended }
  | sent (bytes : Bytes) (hphase : p.phase = .sending (.ok bytes)) (hopen : p.receiving = true) :
      Worked config budget p .advance budget
        { p with channel := p.channel ++ [.ok bytes], phase := .launching }
  | sentError (err : IoError) (hphase : p.phase = .sending (.error err))
      (hopen : p.receiving = true) :
      Worked config budget p .advance budget
        { p with channel := p.channel ++ [.error err], phase := .ended }
  | replied (k : Nat) (r : Reply) (f next : Fetch) (hphase : p.phase ≠ .ended)
      (hpending : p.pending[k]? = some f) (h : f.reply p.total r = some next) :
      Worked config budget p (.reply k r) (budget.release (f.held - next.held))
        { p with pending := p.pending.set k next }
  | reclaimed (hclosed : p.receiving = false)
    (hphase : p.phase = .launching ∨ p.phase = .awaiting) :
      Worked config budget p .reclaim budget { p with phase := .ended }
  | left (ticket : Nat) (hclosed : p.receiving = false) (hphase : p.phase = .waiting ticket) :
      Worked config budget p .reclaim (budget.leave ticket) { p with phase := .ended }
  | dropped (result : Except IoError Bytes) (hclosed : p.receiving = false)
      (hphase : p.phase = .sending result) :
      Worked config budget p .reclaim (budget.release (resultHeld result))
        { p with phase := .ended }
  | cleared (k : Nat) (f : Fetch) (hphase : p.phase = .ended) (hpending : p.pending[k]? = some f) :
      Worked config budget p (.reclaimFetch k) (budget.release f.held)
        { p with pending := p.pending.eraseIdx k }

variable {config : Config} {budget after : Semaphore} {p next : Pipeline} {w : Work}

theorem advance_cases (h : p.advance config budget = some (after,next)) :
    Worked config budget p .advance after next := by
  unfold advance at h
  cases hphase : p.phase with
  | launching =>
    simp only [hphase] at h
    by_cases hloop : p.next < p.total ∧ p.pending.length < config.concurrency
    · rw [if_pos hloop] at h
      cases hacquire : budget.tryAcquire (p.nextSize config) with
      | some left =>
        rw [hacquire] at h
        cases h
        exact .launched hphase hloop.1 hacquire
      | none =>
        rw [hacquire] at h
        by_cases hpending : p.pending = []
        · simp only [List.isEmpty_iff.mpr hpending,if_true] at h
          cases h
          exact .queued hphase hloop.1 hpending
        · simp only [List.isEmpty_iff,hpending,if_false] at h
          cases h
          exact .full hphase
    · rw [if_neg hloop] at h
      cases h
      exact .full hphase
  | waiting ticket =>
    simp only [hphase,Option.map_eq_some_iff] at h
    obtain ⟨left,hgrant,heq⟩ := h
    cases heq
    exact .granted ticket hphase hgrant
  | awaiting =>
    simp only [hphase] at h
    cases hpending : p.pending with
    | nil =>
      have hreturned : Worked config budget p .advance budget { p with phase := .ended } :=
        .returned hphase hpending
      rw [hpending] at h hreturned
      cases h
      exact hreturned
    | cons f rest =>
      simp only [hpending,Option.map_eq_some_iff] at h
      obtain ⟨result,hresult,heq⟩ := h
      cases heq
      exact .taken f rest result hphase hpending hresult
  | sending result =>
    simp only [hphase] at h
    by_cases hopen : p.receiving = true
    · rw [if_neg (by simp [hopen])] at h
      split at h
      · cases h
        cases result with
        | ok bytes => exact .sent bytes hphase hopen
        | error err => exact .sentError err hphase hopen
      · cases h
    · rw [if_pos (by simp [hopen])] at h
      cases h
      exact .refused result hphase (by simpa using hopen)
  | ended => simp [hphase] at h

theorem reply_cases {k : Nat} {r : Reply} (h : p.reply budget k r = some (after,next)) :
    Worked config budget p (.reply k r) after next := by
  unfold reply at h
  have hended : p.phase ≠ .ended := by
    intro hphase
    simp [hphase] at h
  have hdo : (do
      let f ← p.pending[k]?
      let next ← f.reply p.total r
      return (budget.release (f.held - next.held),{ p with pending := p.pending.set k next })) =
      some (after,next) := by
    cases hphase : p.phase <;> simp_all
  obtain ⟨f,hf,hrest⟩ := Option.bind_eq_some_iff.mp hdo
  obtain ⟨answered,hreply,heq⟩ := Option.bind_eq_some_iff.mp hrest
  cases heq
  exact .replied k r f answered hended hf hreply

theorem work_cases (h : p.work config budget w = some (after,next)) :
    Worked config budget p w after next := by
  cases w with
  | advance => exact advance_cases h
  | reply k r => exact reply_cases h
  | reclaim =>
    unfold work reclaim at h
    by_cases hopen : p.receiving = true
    · rw [if_pos hopen] at h
      cases h
    · rw [if_neg hopen] at h
      have hclosed : p.receiving = false := by simpa using hopen
      cases hphase : p.phase with
      | launching =>
        rw [hphase] at h
        cases h
        exact .reclaimed hclosed (.inl hphase)
      | awaiting =>
        rw [hphase] at h
        cases h
        exact .reclaimed hclosed (.inr hphase)
      | waiting ticket =>
        rw [hphase] at h
        cases h
        exact .left ticket hclosed hphase
      | sending result =>
        rw [hphase] at h
        cases h
        exact .dropped result hclosed hphase
      | ended =>
        rw [hphase] at h
        cases h
  | reclaimFetch k =>
    unfold work reclaimFetch at h
    cases hphase : p.phase with
    | ended =>
      rw [hphase] at h
      obtain ⟨f,hf,heq⟩ := Option.bind_eq_some_iff.mp h
      have hcleared : Worked config budget p (.reclaimFetch k) (budget.release f.held)
          { p with pending := p.pending.eraseIdx k } := .cleared k f hphase hf
      rw [hphase] at hcleared
      cases heq
      exact hcleared
    | _ => simp [hphase] at h

theorem nextSize_pos (h : p.next < p.total) : 0 < p.nextSize config := by
  have := config.chunkPos
  unfold nextSize
  omega

theorem nextSize_le : p.nextSize config ≤ config.budgetBytes :=
  (Nat.min_le_right _ _).trans config.chunkFits

theorem Worked.wf (h : Worked config budget p w after next) (hwf : p.Wf) : next.Wf := by
  obtain ⟨hwaiting,hclosed,herrors,hlast⟩ := hwf
  cases h with
  | launched hphase hnext _ | granted _ hphase _ =>
    exact ⟨nofun,hclosed,fun err herr => by simp [herrors err herr] at hphase,hlast⟩
  | queued hphase hnext hpending =>
    exact ⟨fun _ _ => ⟨hnext,hpending⟩,hclosed,fun err herr => by simp [herrors err herr] at hphase,
      hlast⟩
  | full hphase | taken _ _ _ hphase _ _ =>
    exact ⟨nofun,hclosed,fun err herr => by simp [herrors err herr] at hphase,hlast⟩
  | returned | refused | reclaimed | left | dropped =>
    exact ⟨nofun,hclosed,fun _ _ => rfl,hlast⟩
  | sent bytes hphase hopen =>
    have hnone : ∀ err, .error err ∉ p.channel := fun err herr => by
      simp [herrors err herr] at hphase
    exact ⟨nofun,by simp [hopen],fun err herr => by simp [hnone] at herr,by simpa using hnone⟩
  | sentError err hphase hopen =>
    have hnone : ∀ err, .error err ∉ p.channel := fun err herr => by
      simp [herrors err herr] at hphase
    exact ⟨nofun,by simp [hopen],fun _ _ => rfl,by simpa using hnone⟩
  | replied k r f answered hphase hpending hreply =>
    refine ⟨fun ticket hticket => ?_,hclosed,herrors,hlast⟩
    have hempty := (hwaiting ticket hticket).2
    simp [hempty] at hpending
  | cleared k f hphase hpending =>
    refine ⟨fun ticket hticket => ?_,hclosed,herrors,hlast⟩
    simp [hphase] at hticket

theorem Wf.head_ok (hwf : p.Wf) {bytes : Bytes} (h : .ok bytes ∈ p.channel) :
    ∃ first rest, p.channel = .ok first :: rest := by
  cases hchannel : p.channel with
  | nil => simp [hchannel] at h
  | cons result rest =>
    cases result with
    | ok first => exact ⟨first,rest,rfl⟩
    | error err =>
      have hlast := hwf.last err
      cases rest with
      | nil => simp [hchannel] at h
      | cons second rest => simp [hchannel] at hlast

theorem Wf.pop (hwf : p.Wf) (hopen : p.receiving = true) {result : Except IoError Bytes}
    {rest : List (Except IoError Bytes)} (h : p.channel = result :: rest) :
    ({ p with channel := rest } : Pipeline).Wf := by
  refine ⟨hwf.waiting,by simp [hopen],fun err herr => hwf.errors err (by simp [h,herr]),?_⟩
  intro err herr
  apply hwf.last err
  cases rest with
  | nil => simp at herr
  | cons second rest => simpa [h] using .inr herr

theorem Worked.receiving (h : Worked config budget p w after next) :
    next.receiving = p.receiving := by
  cases h <;> rfl

theorem launch_load (hnext : p.next < p.total) :
    (p.launch config).load = p.load + p.nextSize config := by
  have hpos : 0 < p.nextSize config := nextSize_pos hnext
  have hsize : p.next + p.nextSize config - 1 - p.next + 1 = p.nextSize config := by omega
  simp only [load,launch,channelHeld,List.map_append,List.sum_append,List.map_cons,List.map_nil,
    List.sum_cons,List.sum_nil,Fetch.held,Fetch.size,hsize]
  omega

@[simp] theorem launch_phase : (p.launch config).phase = .launching := rfl

theorem Worked.moves (h : Worked config budget p w after next) (hwf : p.Wf)
    (hqueue : ∀ ticket, p.phase = .waiting ticket → ticket ∈ budget.queue) :
    Moves budget after p.holding next.holding := by
  cases h with
  | launched hphase hnext h =>
    have hmoves : Moves budget after (p.load,0) ((p.load,0) + (p.nextSize config,0)) :=
      tryAcquire_moves h
    simpa [holding,hphase,Phase.holding,launch_load hnext] using hmoves
  | queued hphase hnext hpending => 
    have hmoves : Moves budget budget.enqueue (p.load,0) ((p.load,0) + (0,{budget.issued})) :=
      enqueue_moves
    simpa [holding,hphase,Phase.holding,load,channelHeld] using hmoves
  | full hphase => exact .same (by simp [holding,hphase,Phase.holding,load,channelHeld])
  | granted ticket hphase h =>
    have hmoves : Moves budget after ((p.load,0) + (0,{ticket}))
        ((p.load,0) + (p.nextSize config,0)) := grant_moves h
    simpa [holding,hphase,Phase.holding,launch_load (hwf.waiting ticket hphase).1]
      using hmoves
  | returned hphase hpending =>
    exact .same (by simp [holding,hphase,Phase.holding,load,channelHeld])
  | taken f rest result hphase hpending h =>
    apply Moves.same
    simp only [holding,hphase,Phase.holding,load,channelHeld,hpending,List.map_cons,List.sum_cons,
      Fetch.result_held h]
    ext1 <;> simp
    omega
  | refused result hphase _ | dropped result _ hphase =>
    exact release_moves (by simp [holding,hphase,Phase.holding,load,channelHeld])
  | sent bytes hphase hopen =>
    apply Moves.same
    simp only [holding,hphase,Phase.holding,load,channelHeld,List.map_append,List.sum_append,
      List.map_cons,List.map_nil,List.sum_cons,List.sum_nil]
    ext1 <;> simp
    omega
  | sentError err hphase hopen =>
    apply Moves.same
    simp [holding,hphase,Phase.holding,load,channelHeld,resultHeld]
  | replied k r f answered hphase hpending hreply =>
    obtain ⟨rest,hbefore,hafter⟩ := exists_rest_set Fetch.held hpending
    have hle := Fetch.reply_held_le hreply
    have hload : p.load = { p with pending := p.pending.set k answered }.load +
        (f.held - answered.held) := by
      simp only [load,channelHeld,hbefore,hafter]
      omega
    exact release_moves (by ext1 <;> simp [holding,hload,add_right_comm])
  | reclaimed hclosed hphase =>
    rcases hphase with hphase | hphase <;>
      exact .same (by simp [holding,hphase,Phase.holding,load,channelHeld])
  | left ticket hclosed hphase =>
    have hmoves : Moves budget (budget.leave ticket) ((p.load,0) + (0,{ticket})) (p.load,0) :=
      leave_moves (hqueue ticket hphase)
    simpa [holding,hphase,Phase.holding,load,channelHeld] using hmoves
  | cleared k f hphase hpending =>
    have hload : p.load = { p with pending := p.pending.eraseIdx k }.load + f.held := by
      simp only [load,channelHeld,sum_eraseIdx_add Fetch.held hpending]
      omega
    exact release_moves (by ext1 <;> simp [holding,hload,add_right_comm])

theorem spawn_wf (position total : Nat) : (spawn position total).Wf := ⟨nofun,nofun,nofun,nofun⟩

@[simp] theorem spawn_holding (position total : Nat) : (spawn position total).holding = 0 := rfl

theorem close_wf (hwf : p.Wf) : p.close.Wf := ⟨hwf.waiting,fun _ => rfl,nofun,nofun⟩

theorem holding_close : p.holding = p.close.holding + (p.channelHeld,0) := by
  ext1
  · simp only [holding,close,load,channelHeld,Prod.fst_add,List.map_nil,List.sum_nil]
    omega
  · simp [holding,close]

theorem holding_channel {result : Except IoError Bytes} {rest : List (Except IoError Bytes)}
    (h : p.channel = result :: rest) :
    p.holding = { p with channel := rest }.holding + (resultHeld result,0) := by
  ext1
  · simp only [holding,load,channelHeld,h,Prod.fst_add,List.map_cons,List.sum_cons]
    omega
  · simp [holding]

end Pipeline

def Reader.Wf (r : Reader) : Prop := ∀ p, r.pipeline = some p → p.Wf ∧ p.receiving = true

def Left.Wf (left : Left) : Prop :=
  left.reader.Wf ∧ ∀ p ∈ left.aborted, p.Wf ∧ p.receiving = false

namespace Reader

/-- All that `poll_read` can do. -/
inductive Polled (remaining : Nat) (budget : Semaphore) (r : Reader) : Poll × Left → Prop where
  | nothing (h : remaining = 0 ∨ r.len ≤ r.position) :
      Polled remaining budget r (.ready (.ok []),⟨budget,r,[]⟩)
  | current (chunk : Bytes) (hpos : 0 < remaining) (hleft : r.position < r.len)
      (hcurrent : r.current = some chunk) :
      Polled remaining budget r
        ({ r with pipeline := some r.started }.copy remaining budget chunk)
  | received (chunk : Bytes) (rest : List (Except IoError Bytes)) (hpos : 0 < remaining)
      (hleft : r.position < r.len) (hcurrent : r.current = none)
      (hchannel : r.started.channel = .ok chunk :: rest) :
      Polled remaining budget r
        ({ r with pipeline := some { r.started with channel := rest }, offset := 0 }.copy
          remaining budget chunk)
  | failed (err : IoError) (rest : List (Except IoError Bytes)) (hcurrent : r.current = none)
      (hchannel : r.started.channel = .error err :: rest) :
      Polled remaining budget r (.ready (.error err),
        { r with pipeline := some { r.started with channel := rest } }.cancel budget)
  | finished (hcurrent : r.current = none) (hchannel : r.started.channel = [])
      (hphase : r.started.phase = .ended) :
      Polled remaining budget r (.ready (.error .prefetchEnded),
        { r with pipeline := some r.started }.cancel budget)
  | pending (hpos : 0 < remaining) (hleft : r.position < r.len) (hcurrent : r.current = none)
      (hchannel : r.started.channel = []) :
      Polled remaining budget r (.pending,⟨budget,{ r with pipeline := some r.started },[]⟩)

variable {remaining : Nat} {budget : Semaphore} {r : Reader}

theorem pollRead_cases (remaining : Nat) (budget : Semaphore) (r : Reader) :
    Polled remaining budget r (r.pollRead remaining budget) := by
  unfold pollRead
  by_cases hnothing : remaining = 0 ∨ r.len ≤ r.position
  · rw [if_pos hnothing]
    exact .nothing hnothing
  · rw [if_neg hnothing]
    have hpos : 0 < remaining := by omega
    have hleft : r.position < r.len := by omega
    dsimp only
    split
    · rename_i chunk hcurrent
      exact .current chunk hpos hleft hcurrent
    · rename_i hcurrent
      split
      · rename_i chunk rest hchannel
        exact .received chunk rest hpos hleft hcurrent hchannel
      · rename_i err rest hchannel
        exact .failed err rest hcurrent hchannel
      · rename_i hchannel
        split
        · rename_i hphase
          exact .finished hcurrent hchannel hphase
        · exact .pending hpos hleft hcurrent hchannel

theorem holding_started : r.holding = { r with pipeline := some r.started }.holding := by
  cases hpipeline : r.pipeline with
  | none => simp [holding,started,hpipeline]
  | some p => simp [holding,started,hpipeline]

theorem cancel_moves :
    Moves budget (r.cancel budget).budget r.holding (r.cancel budget).holding := by
  apply release_moves
  cases hpipeline : r.pipeline with
  | none => simp [Left.holding,cancel,holding,received,hpipeline]
  | some p =>
    simp only [Left.holding,cancel,holding,received,hpipeline,Option.elim_some,Option.elim_none,
      Option.toList_some,List.map_cons,List.map_nil,List.sum_cons,List.sum_nil]
    rw [Pipeline.holding_close]
    ext1 <;> simp [add_assoc]

theorem cancel_moves_of_eq {r' : Reader} (h : r.holding = r'.holding) :
    Moves budget (r'.cancel budget).budget r.holding (r'.cancel budget).holding :=
  h ▸ cancel_moves

theorem copy_moves (remaining : Nat) (budget : Semaphore) (r : Reader) (chunk : Bytes) :
    Moves budget (r.copy remaining budget chunk).2.budget
      ({ r with current := some chunk }.holding) (r.copy remaining budget chunk).2.holding := by
  unfold copy
  dsimp only
  split
  · exact release_moves (by simp [Left.holding,holding])
  · exact .same (by simp [Left.holding,holding])

theorem pollRead_moves :
    Moves budget (r.pollRead remaining budget).2.budget r.holding
      (r.pollRead remaining budget).2.holding := by
  have hcases := pollRead_cases remaining budget r
  generalize r.pollRead remaining budget = polled at hcases
  cases hcases with
  | nothing => exact .same (by simp [Left.holding])
  | current chunk hpos hleft hcurrent =>
    rw [holding_started]
    simpa [hcurrent] using copy_moves remaining budget { r with pipeline := some r.started } chunk
  | received chunk rest hpos hleft hcurrent hchannel =>
    have hmoves := copy_moves remaining budget
      { r with pipeline := some { r.started with channel := rest }, offset := 0 } chunk
    have hold : r.holding = { r with
        pipeline := some { r.started with channel := rest }
        current := some chunk
        offset := 0 }.holding := by
      rw [holding_started]
      simp [holding,hcurrent,Pipeline.holding_channel hchannel,resultHeld]
    rwa [← hold] at hmoves
  | failed err rest hcurrent hchannel =>
    refine cancel_moves_of_eq ?_
    rw [holding_started]
    simp [holding,Pipeline.holding_channel hchannel,resultHeld]
  | finished hcurrent hchannel hphase => exact cancel_moves_of_eq holding_started
  | pending => exact .same (by rw [holding_started]; simp [Left.holding])

theorem Wf.started (hwf : r.Wf) : r.started.Wf ∧ r.started.receiving = true := by
  cases hpipeline : r.pipeline with
  | none =>
    simp only [Reader.started,hpipeline,Option.getD_none]
    exact ⟨Pipeline.spawn_wf _ _,rfl⟩
  | some p => simpa [Reader.started,hpipeline] using hwf p hpipeline

theorem Wf.cancel (hwf : r.Wf) (budget : Semaphore) : (r.cancel budget).Wf := by
  refine ⟨nofun,fun p hp => ?_⟩
  simp only [Reader.cancel,List.mem_map,Option.mem_toList] at hp
  obtain ⟨live,hlive,rfl⟩ := hp
  exact ⟨Pipeline.close_wf (hwf live hlive).1,rfl⟩

theorem Wf.copy (hwf : r.Wf) (chunk : Bytes) : (r.copy remaining budget chunk).2.Wf := by
  unfold Reader.copy
  dsimp only
  split <;> exact ⟨hwf,nofun⟩

theorem Wf.pollRead (hwf : r.Wf) : (r.pollRead remaining budget).2.Wf := by
  obtain ⟨hstarted,hopen⟩ := hwf.started
  have hcases := pollRead_cases remaining budget r
  generalize r.pollRead remaining budget = polled at hcases
  cases hcases with
  | nothing => exact ⟨hwf,nofun⟩
  | current chunk hpos hleft hcurrent =>
    refine Wf.copy ?_ chunk
    rintro p ⟨⟩
    exact ⟨hstarted,hopen⟩
  | received chunk rest hpos hleft hcurrent hchannel =>
    refine Wf.copy ?_ chunk
    rintro p ⟨⟩
    exact ⟨hstarted.pop hopen hchannel,hopen⟩
  | failed err rest hcurrent hchannel =>
    refine Wf.cancel ?_ budget
    rintro p ⟨⟩
    exact ⟨hstarted.pop hopen hchannel,hopen⟩
  | finished hcurrent hchannel hphase =>
    refine Wf.cancel ?_ budget
    rintro p ⟨⟩
    exact ⟨hstarted,hopen⟩
  | pending =>
    refine ⟨?_,nofun⟩
    rintro p ⟨⟩
    exact ⟨hstarted,hopen⟩

theorem open_eq {reply : Reply} (h : open_ reply = .ok r) : ∃ len, r = ⟨len,0,none,none,0⟩ := by
  unfold open_ at h
  cases hrequest : request 0 0 none reply with
  | error err =>
    rw [hrequest] at h
    cases h
  | ok answer =>
    rw [hrequest] at h
    cases h
    exact ⟨answer.1,rfl⟩

theorem startSeek_cases (budget : Semaphore) (r : Reader) (origin : SeekFrom) :
    (∃ result, r.startSeek budget origin = (result,⟨budget,r,[]⟩)) ∨
      ∃ position, r.startSeek budget origin = (.ok (),{ r.cancel budget with
        reader := { (r.cancel budget).reader with position := position } }) := by
  unfold startSeek
  dsimp only
  split
  · split
    · exact .inr ⟨_,rfl⟩
    · exact .inl ⟨_,rfl⟩
  · exact .inl ⟨_,rfl⟩

end Reader

namespace System

variable {ι : Type} [Fintype ι]

def holding (s : System ι) : Holding :=
  ∑ i, (s.readers i).elim 0 Reader.holding + (s.aborted.map Pipeline.holding).sum

/-- The permits of the budget are where they should be, and every pipeline is well formed. -/
structure Accounted (config : Config) (s : System ι) : Prop where
  balanced : Balanced config.budgetBytes s.budget s.holding
  readers : ∀ i r, s.readers i = some r → r.Wf
  aborted : ∀ p ∈ s.aborted, p.Wf ∧ p.receiving = false

variable {config : Config} {s next : System ι}

theorem accounted_new (config : Config) : (new ι config).Accounted config := by
  refine ⟨?_,nofun,nofun⟩
  simpa [holding,new] using balanced_new

theorem Accounted.set {k : Nat} {p after : Pipeline} {budget : Semaphore} {w : Work}
    (h : s.Accounted config) (hp : s.aborted[k]? = some p)
    (hworked : p.Worked config s.budget w budget after) :
    Accounted config { s with budget := budget, aborted := s.aborted.set k after } := by
  obtain ⟨hwf,hclosed⟩ := h.aborted p (List.mem_of_getElem? hp)
  obtain ⟨rest,hsum,hset⟩ := exists_rest_set Pipeline.holding hp
  have hbalanced := h.balanced
  rw [holding,hsum,← add_assoc] at hbalanced
  refine ⟨?_,h.readers,fun q hq => ?_⟩
  · have hqueue : ∀ ticket, p.phase = .waiting ticket → ticket ∈ s.budget.queue := by
      intro ticket hphase
      refine hbalanced.mem_queue ?_
      simp [Pipeline.holding,hphase,Phase.holding]
    rw [holding,hset,← add_assoc]
    exact (hworked.moves hwf hqueue).balanced hbalanced
  · rcases List.mem_or_eq_of_mem_set hq with hq | rfl
    · exact h.aborted q hq
    · exact ⟨hworked.wf hwf,hworked.receiving.trans hclosed⟩

variable [DecidableEq ι]

section

variable (h : s.Accounted config)
include h

theorem Accounted.update {i : ι} {before after : Option Reader} {budget : Semaphore}
    {aborted : List Pipeline} (hbefore : s.readers i = before)
    (hmoves : Moves s.budget budget (before.elim 0 Reader.holding)
      (after.elim 0 Reader.holding + (aborted.map Pipeline.holding).sum))
    (hafter : ∀ r, after = some r → r.Wf)
    (haborted : ∀ p ∈ aborted, p.Wf ∧ p.receiving = false) :
    Accounted config ⟨budget,Function.update s.readers i after,s.aborted ++ aborted⟩ := by
  obtain ⟨rest,hsum,hupdate⟩ := exists_rest_update
    (fun reader : Option Reader => reader.elim 0 Reader.holding) s.readers i
  refine ⟨?_,fun j r hj => ?_,fun p hp => ?_⟩
  · have hbalanced := h.balanced
    rw [holding,hsum,hbefore,add_right_comm] at hbalanced
    have hnext := hmoves.balanced hbalanced
    convert hnext using 1
    simp only [holding,hupdate,List.map_append,List.sum_append]
    abel
  · by_cases hji : j = i
    · subst hji
      exact hafter r (by simpa using hj)
    · exact h.readers j r (by simpa [hji] using hj)
  · rcases List.mem_append.mp hp with hp | hp
    · exact h.aborted p hp
    · exact haborted p hp

theorem Accounted.leave {i : ι} {r : Reader} {left : Left}
    (hr : s.readers i = some r) (hmoves : Moves s.budget left.budget r.holding left.holding)
    (hwf : left.Wf) : (s.leave i left).Accounted config :=
  h.update hr hmoves (by rintro r' ⟨⟩; exact hwf.1) hwf.2

theorem Accounted.waiting_mem {i : ι} {r : Reader} {p : Pipeline} {ticket : Nat}
    (hr : s.readers i = some r) (hp : r.pipeline = some p)
    (hphase : p.phase = .waiting ticket) : ticket ∈ s.budget.queue := by
  obtain ⟨rest,hsum,-⟩ := exists_rest_update
    (fun reader : Option Reader => reader.elim 0 Reader.holding) s.readers i
  have hbalanced := h.balanced
  rw [holding,hsum,hr,add_right_comm] at hbalanced
  refine hbalanced.mem_queue ?_
  simp [Reader.holding,hp,Pipeline.holding,hphase,Phase.holding]

theorem Accounted.live {i : ι} {r : Reader} {p after : Pipeline} {budget : Semaphore} {w : Work}
    (hr : s.readers i = some r) (hp : r.pipeline = some p)
    (hworked : p.Worked config s.budget w budget after) :
    Accounted config { s with
      budget := budget
      readers := Function.update s.readers i (some { r with pipeline := some after }) } := by
  have hwf := (h.readers i r hr p hp).1
  have hupdate : Accounted config ⟨budget,
      Function.update s.readers i (some { r with pipeline := some after }),s.aborted ++ []⟩ := by
    refine h.update hr ?_ ?_ nofun
    · simpa [Reader.holding,hp] using
        (hworked.moves hwf fun ticket => h.waiting_mem hr hp).frame
          (r.current.elim 0 List.length,0)
    · rintro _ ⟨⟩ _ ⟨⟩
      exact ⟨hworked.wf hwf,hworked.receiving.trans (h.readers i r hr p hp).2⟩
  simpa using hupdate

theorem Accounted.step {action : Action ι}
    (hstep : s.step config action = some next) : next.Accounted config := by
  obtain ⟨i,reply,reader,-,hnone,hopen,rfl⟩ | ⟨i,remaining,r,-,hr,rfl⟩ | ⟨i,origin,r,-,hr,rfl⟩ |
    ⟨i,r,-,hr,rfl⟩ | ⟨i,w,r,p,budget,after,-,hr,hp,hwork,rfl⟩ |
    ⟨k,w,p,budget,after,-,hp,hwork,rfl⟩ := step_cases hstep
  · obtain ⟨len,rfl⟩ := Reader.open_eq hopen
    have hupdate : Accounted config ⟨s.budget,
        Function.update s.readers i (some ⟨len,0,none,none,0⟩),s.aborted ++ []⟩ := by
      refine h.update hnone (.same rfl) ?_ nofun
      rintro _ ⟨⟩
      exact nofun
    simpa using hupdate
  · exact h.leave hr Reader.pollRead_moves (h.readers i r hr).pollRead
  · have hwf := h.readers i r hr
    rcases Reader.startSeek_cases s.budget r origin with ⟨result,hseek⟩ | ⟨position,hseek⟩
    · rw [hseek]
      exact h.leave hr (.same (by simp [Left.holding])) ⟨hwf,nofun⟩
    · rw [hseek]
      exact h.leave hr Reader.cancel_moves (hwf.cancel s.budget)
  · refine h.update hr ?_ nofun ((h.readers i r hr).cancel s.budget).2
    have hmoves : Moves s.budget (r.cancel s.budget).budget r.holding
        (r.cancel s.budget).holding := Reader.cancel_moves
    rwa [Left.holding,show (r.cancel s.budget).reader.holding = 0 from rfl] at hmoves
  · exact h.live hr hp (Pipeline.work_cases hwork)
  · exact h.set hp (Pipeline.work_cases hwork)

end

end System

theorem Reachable.accounted {ι : Type} [Fintype ι] [DecidableEq ι] {config : Config}
    {objects : ι → Bytes} {s : System ι} (h : Reachable config objects s) :
    s.Accounted config := by
  induction h with
  | new => exact System.accounted_new config
  | step action _ _ hstep ih => exact ih.step hstep

end Jetstreamer.Firehose.Prefetch
