import Mathlib
set_option autoImplicit false

namespace Jetstreamer.Lib

/-- A counting semaphore whose waiters are served in the order they came. Each waiter has a ticket
of its own; `available` counts the permits nobody has been granted yet. -/
structure Semaphore where
  available : Nat
  queue : List Nat
  issued : Nat

namespace Semaphore

def new (permits : Nat) : Semaphore := ⟨permits,[],0⟩

/-- Without waiting: it fails too when others wait, however few permits are wanted. -/
def tryAcquire (s : Semaphore) (size : Nat) : Option Semaphore :=
  if s.queue = [] ∧ size ≤ s.available then some { s with available := s.available - size }
  else none

/-- The ticket drawn is the number `issued` had before. -/
def enqueue (s : Semaphore) : Semaphore :=
  { s with queue := s.queue ++ [s.issued], issued := s.issued + 1 }

def grant (s : Semaphore) (ticket size : Nat) : Option Semaphore :=
  if s.queue.head? = some ticket ∧ size ≤ s.available then
    some { s with available := s.available - size, queue := s.queue.tail }
  else none

def leave (s : Semaphore) (ticket : Nat) : Semaphore :=
  { s with queue := s.queue.erase ticket }

def release (s : Semaphore) (size : Nat) : Semaphore :=
  { s with available := s.available + size }

@[simp] theorem release_zero (s : Semaphore) : s.release 0 = s := rfl

/-- What one party has of a semaphore: permits, and places in the queue. -/
abbrev Holding := Nat × Multiset Nat

/-- An operation of a party whose holding changes from `old` to `new`. -/
structure Moves (s s' : Semaphore) (old new : Holding) : Prop where
  permits : s'.available + new.1 = s.available + old.1
  places : (s'.queue : Multiset Nat) + old.2 = s.queue + new.2

/-- All permits are available or held, and the queue is made of the waiting parties. -/
structure Balanced (total : Nat) (s : Semaphore) (held : Holding) : Prop where
  permits : s.available + held.1 = total
  places : (s.queue : Multiset Nat) = held.2

variable {s s' t : Semaphore} {old new held : Holding} {total size ticket : Nat}

theorem balanced_new : Balanced total (Semaphore.new total) 0 := ⟨rfl,rfl⟩

theorem Moves.balanced {rest : Holding} (h : Moves s s' old new)
    (hbalanced : Balanced total s (rest + old)) : Balanced total s' (rest + new) := by
  have hpermits := hbalanced.permits
  have hplaces := hbalanced.places
  constructor
  · have := h.permits
    simp only [Prod.fst_add] at hpermits ⊢
    omega
  · have hmoved := h.places
    rw [hplaces,Prod.snd_add,add_right_comm] at hmoved
    simpa using add_right_cancel hmoved

theorem Balanced.mem_queue {rest : Holding} (h : Balanced total s (rest + held))
    (hticket : ticket ∈ held.2) : ticket ∈ s.queue := by
  rw [← Multiset.mem_coe,h.places,Prod.snd_add,Multiset.mem_add]
  exact .inr hticket

theorem Moves.frame (other : Holding) (h : Moves s s' old new) :
    Moves s s' (old + other) (new + other) := by
  constructor
  · have := h.permits
    simp only [Prod.fst_add]
    omega
  · rw [Prod.snd_add,Prod.snd_add,← add_assoc,h.places,add_assoc]

theorem Moves.same (h : old = new) : Moves s s old new := by
  subst h
  exact ⟨rfl,rfl⟩

theorem tryAcquire_moves (h : s.tryAcquire size = some s') :
    Moves s s' old (old + (size,0)) := by
  unfold tryAcquire at h
  split at h
  · rename_i hfits
    cases h
    constructor
    · simp only [Prod.fst_add]
      omega
    · simp
  · cases h

theorem enqueue_moves : Moves s s.enqueue old (old + (0,{s.issued})) := by
  constructor
  · simp [enqueue]
  · simp only [enqueue,Prod.snd_add,← Multiset.coe_add,Multiset.coe_singleton]
    abel

theorem grant_moves (h : s.grant ticket size = some s') :
    Moves s s' (old + (0,{ticket})) (old + (size,0)) := by
  unfold grant at h
  split at h
  · rename_i hfits
    obtain ⟨hhead,hsize⟩ := hfits
    cases h
    obtain ⟨rest,hqueue⟩ : ∃ rest, s.queue = ticket :: rest := by
      cases hq : s.queue with
      | nil => simp [hq] at hhead
      | cons first rest => exact ⟨rest,by simpa [hq] using hhead⟩
    constructor
    · simp only [Prod.fst_add]
      omega
    · simp only [hqueue,List.tail_cons,Prod.snd_add,add_zero,← Multiset.cons_coe,
        ← Multiset.singleton_add]
      abel
  · cases h

theorem leave_moves (h : ticket ∈ s.queue) : Moves s (s.leave ticket) (old + (0,{ticket})) old := by
  constructor
  · simp [leave]
  · have hcons : ({ticket} : Multiset Nat) + (s.queue.erase ticket : List Nat) = s.queue := by
      rw [Multiset.singleton_add,← Multiset.coe_erase]
      exact Multiset.cons_erase h
    simp only [leave,Prod.snd_add,← hcons]
    abel

theorem release_moves (h : old = new + (size,0)) : Moves s (s.release size) old new := by
  subst h
  constructor
  · simp only [release,Prod.fst_add]
    omega
  · simp [release]

/-- Parties that hold no permits, and whose waiting is in vain though each wants at most `total`. -/
structure Starved (total : Nat) (s : Semaphore) (held : Holding) : Prop where
  permits : held.1 = 0
  places : ∀ ticket ∈ held.2, ∃ size ≤ total, s.grant ticket size = none

theorem starved_zero : Starved total s 0 := ⟨rfl,by simp⟩

theorem Starved.add (hold : Starved total s old) (hnew : Starved total s new) :
    Starved total s (old + new) := by
  refine ⟨by simp [hold.permits,hnew.permits],fun ticket hticket => ?_⟩
  rcases Multiset.mem_add.mp hticket with hticket | hticket
  · exact hold.places ticket hticket
  · exact hnew.places ticket hticket

theorem Starved.queue_eq_nil (h : Starved total s held) (hbalanced : Balanced total s held) :
    s.queue = [] := by
  cases hqueue : s.queue with
  | nil => rfl
  | cons ticket rest =>
    have hmem : ticket ∈ held.2 := by
      rw [← hbalanced.places,hqueue]
      simp
    obtain ⟨size,hsize,hgrant⟩ := h.places ticket hmem
    have hall := hbalanced.permits
    have hpermits := h.permits
    have hfits : s.queue.head? = some ticket ∧ size ≤ s.available :=
      ⟨by simp [hqueue],by omega⟩
    simp [grant,hfits] at hgrant

/-- Nobody overtakes: the queue keeps its order, newcomers go to its end, and while anybody waits
permits go to its head only. -/
structure Fair (s s' : Semaphore) : Prop where
  order : ∃ kept new, s'.queue = kept ++ new ∧ kept.Sublist s.queue
  served : s'.available < s.available → s.queue = [] ∨ ∃ ticket, s.queue = ticket :: s'.queue

theorem release_fair (s : Semaphore) (size : Nat) : Fair s (s.release size) := by
  refine ⟨⟨s.queue,[],by simp [release],.refl _⟩,fun hless => ?_⟩
  simp only [release] at hless
  omega

theorem enqueue_fair (s : Semaphore) : Fair s s.enqueue :=
  ⟨⟨s.queue,[s.issued],rfl,.refl _⟩,fun hless => absurd hless (lt_irrefl _)⟩

theorem leave_fair (s : Semaphore) (ticket : Nat) : Fair s (s.leave ticket) :=
  ⟨⟨s.queue.erase ticket,[],by simp [leave],List.erase_sublist⟩,
    fun hless => absurd hless (lt_irrefl _)⟩

theorem tryAcquire_fair (h : s.tryAcquire size = some s') : Fair s s' := by
  unfold tryAcquire at h
  split at h
  · rename_i hfits
    cases h
    exact ⟨⟨[],[],by simp [hfits.1],by simp⟩,fun _ => .inl hfits.1⟩
  · cases h

theorem grant_fair (h : s.grant ticket size = some s') : Fair s s' := by
  unfold grant at h
  split at h
  · rename_i hfits
    cases h
    refine ⟨⟨s.queue.tail,[],by simp,List.tail_sublist _⟩,fun _ => .inr ⟨ticket,?_⟩⟩
    exact (List.cons_head?_tail hfits.1).symm
  · cases h

end Semaphore

end Jetstreamer.Lib
