import Jetstreamer.Archive.RoundTrip
set_option autoImplicit false

namespace Jetstreamer.Archive
open Lib Lencode Horizon

section Runs

variable {env : Env} {call : ReadCall} {file : Framing} {s s' : Progress}

theorem runFrames_decodes {n : Nat} (h : runFrames env call n s = .ok s') :
    ∃ frames, Decodes env call.verifyChain s.position frames s'.position ∧
      s'.bucket = s.bucket := by
  induction n generalizing s with
  | zero =>
    cases h
    exact ⟨[],.nil _,rfl⟩
  | succ n ih =>
    rw [runFrames] at h
    by_cases hmore : s.visited < call.maxSlots
    · rw [if_pos hmore] at h
      obtain ⟨⟨frame,next⟩,hnext,hrest⟩ := bind_ok h
      obtain ⟨frames,hframes,hbucket⟩ := ih hrest
      exact ⟨frame :: frames,.cons (mapError_ok hnext) hframes,hbucket⟩
    · rw [if_neg hmore] at h
      cases h
      exact ⟨[],.nil _,rfl⟩

/-- A bucket of the file and a position some frames behind its front. -/
def Framing.Inside (env : Env) (file : Framing) (verify materialize : Bool) (bucket : Nat)
    (seen : List DecodedFrame) (p : Position) : Prop :=
  ∃ front, file.load env materialize bucket = .ok front ∧ Decodes env verify front seen p

theorem runBuckets_inside {buckets : List Nat} (h : runBuckets env file call buckets s = .ok s') :
    s'.bucket = s.bucket ∧ s'.position = s.position ∨ s'.bucket ∈ buckets ∧
      ∃ seen, file.Inside env call.verifyChain call.accountUpdateData s'.bucket seen
        s'.position := by
  induction buckets generalizing s with
  | nil =>
    cases h
    exact .inl ⟨rfl,rfl⟩
  | cons idx rest ih =>
    rw [runBuckets] at h
    by_cases hmore : s.visited < call.maxSlots
    · rw [if_pos hmore] at h
      obtain ⟨p,hload,h⟩ := bind_ok h
      obtain ⟨s1,hframes,hrest⟩ := bind_ok h
      obtain ⟨frames,hdecodes,hbucket⟩ := runFrames_decodes hframes
      rcases ih hrest with ⟨hsame,hposition⟩ | ⟨hmem,hinside⟩
      · have hidx : s'.bucket = idx := hsame.trans hbucket
        refine .inr ⟨by simp [hidx],frames,p,hidx ▸ mapError_ok hload,?_⟩
        rw [hposition]
        exact hdecodes
      · exact .inr ⟨List.mem_cons_of_mem _ hmem,hinside⟩
    · rw [if_neg hmore] at h
      cases h
      exact .inl ⟨rfl,rfl⟩

variable {p : Position}

theorem runFrom_inside {bucket : Nat} (h : runFrom env file call bucket p = .ok s) :
    if s.bucket = bucket then ∃ frames, Decodes env call.verifyChain p frames s.position
    else ∃ seen, file.Inside env call.verifyChain call.accountUpdateData s.bucket seen
      s.position := by
  obtain ⟨s1,hframes,hrest⟩ := bind_ok h
  obtain ⟨frames,hdecodes,hbucket⟩ := runFrames_decodes hframes
  simp only [Progress.start] at hdecodes hbucket hrest
  rcases runBuckets_inside hrest with ⟨hsame,hposition⟩ | ⟨hmem,hinside⟩
  · rw [if_pos (hsame.trans hbucket),hposition]
    exact ⟨frames,hdecodes⟩
  · have hne : s.bucket ≠ bucket := by
      have := List.mem_range'.mp hmem
      omega
    rw [if_neg hne]
    exact hinside

/-- What a call has done, its accounting of bytes apart. -/
def Progress.unbooked (s : Progress) : Progress := { s with bytes := {} }

def unbooked : Except Halt Progress → Except Halt Progress
  | .ok s => .ok s.unbooked
  | .error h => .error { h with bytes := {} }

theorem unbooked_bind {x y : Except Halt Progress} {k k' : Progress → Except Halt Progress}
    (hxy : unbooked x = unbooked y)
    (hk : ∀ a b, a.unbooked = b.unbooked → unbooked (k a) = unbooked (k' b)) :
    unbooked (x >>= k) = unbooked (y >>= k') := by
  cases x with
  | error h =>
    cases y with
    | error h' => exact hxy
    | ok b => cases hxy
  | ok a =>
    cases y with
    | error h' => cases hxy
    | ok b => exact hk a b (Except.ok.inj hxy)

theorem runFrames_unbooked (n : Nat) (s : Progress) :
    unbooked (runFrames env call n s.unbooked) = unbooked (runFrames env call n s) := by
  induction n generalizing s with
  | zero => rfl
  | succ n ih =>
    rw [runFrames,runFrames]
    by_cases hmore : s.visited < call.maxSlots
    · rw [if_pos hmore,if_pos (show s.unbooked.visited < call.maxSlots from hmore)]
      have hsame : s.unbooked.position = s.position := rfl
      rw [hsame]
      cases hnext : s.position.next env call.verifyChain with
      | error refused => rfl
      | ok decoded =>
        simp only [Except.mapError,ok_bind]
        rw [← ih (s.tell call.startSlot decoded.1 decoded.2),
          ← ih (s.unbooked.tell call.startSlot decoded.1 decoded.2)]
        rfl
    · rw [if_neg hmore,if_neg (show ¬s.unbooked.visited < call.maxSlots from hmore)]
      rfl

theorem runFrames_same {n : Nat} (h : s.unbooked = s'.unbooked) :
    unbooked (runFrames env call n s) = unbooked (runFrames env call n s') := by
  rw [← runFrames_unbooked,h,runFrames_unbooked]

theorem runBuckets_same {buckets : List Nat} (h : s.unbooked = s'.unbooked) :
    unbooked (runBuckets env file call buckets s) =
      unbooked (runBuckets env file call buckets s') := by
  induction buckets generalizing s s' with
  | nil =>
    exact congrArg Except.ok h
  | cons idx rest ih =>
    have hvisited : s.visited = s'.visited :=
      show s.unbooked.visited = s'.unbooked.visited from congrArg Progress.visited h
    have hevents : s.events = s'.events :=
      show s.unbooked.events = s'.unbooked.events from congrArg Progress.events h
    rw [runBuckets,runBuckets,hvisited]
    by_cases hmore : s'.visited < call.maxSlots
    · rw [if_pos hmore,if_pos hmore]
      cases hload : file.load env call.accountUpdateData idx with
      | error e => exact congrArg (fun events => Except.error (Halt.mk e events {})) hevents
      | ok p =>
        refine unbooked_bind (runFrames_same ?_) fun a b hab => ih hab
        simp [Progress.unbooked,hevents]
    · rw [if_neg hmore,if_neg hmore]
      exact congrArg Except.ok h

theorem runFrames_behind {q : Position} {seen : List DecodedFrame} (n : Nat)
    (hdecodes : Decodes env call.verifyChain p seen q) (hmax : s.visited < call.maxSlots)
    (hbelow : ∀ frame ∈ seen, frame.slot < call.startSlot) :
    unbooked (runFrames env call (seen.length + n) { s with position := p }) =
      unbooked (runFrames env call n { s with position := q }) := by
  induction hdecodes generalizing s with
  | nil p => rw [List.length_nil,Nat.zero_add]
  | @cons p q r frame frames hnext _ ih =>
    have hfirst : frame.slot < call.startSlot := hbelow frame List.mem_cons_self
    have hnot : ¬call.startSlot ≤ frame.slot := UInt64.not_le.mpr hfirst
    have hlen : (frame :: frames).length + n = (frames.length + n) + 1 := by
      simp only [List.length_cons]
      omega
    rw [hlen,runFrames,if_pos hmax,hnext]
    simp only [Except.mapError,ok_bind]
    have htell : Progress.tell call.startSlot { s with position := p } frame q =
        { s with bytes := s.bytes.plus frame.bytes, position := q } := by
      simp [Progress.tell,DecodedFrame.told,hnot]
    rw [htell]
    refine Eq.trans (ih (s := { s with bytes := s.bytes.plus frame.bytes }) hmax
      fun f hf => hbelow f (List.mem_cons_of_mem _ hf)) (runFrames_same ?_)
    rfl

theorem runFrom_behind {bucket : Nat} {q : Position} {seen : List DecodedFrame}
    (hdecodes : Decodes env call.verifyChain p seen q) (hmax : 0 < call.maxSlots)
    (hbelow : ∀ frame ∈ seen, frame.slot < call.startSlot) :
    unbooked (runFrom env file call bucket p) = unbooked (runFrom env file call bucket q) := by
  refine unbooked_bind ?_ fun a b hab => runBuckets_same hab
  rw [hdecodes.remaining]
  exact runFrames_behind (s := .start bucket p) _ hdecodes hmax hbelow

end Runs

/-- Decoding `n` frames from the position never panics. -/
def Position.Calm (env : Env) (verify : Bool) : Nat → Position → Prop
  | 0, _ => True
  | n+1, p =>
    match p.next env verify with
    | .error refused => refused.1 ≠ .panics
    | .ok (_,q) => q.Calm env verify n

instance Position.decidableCalm (env : Env) (verify : Bool) :
    ∀ (n : Nat) (p : Position), Decidable (p.Calm env verify n)
  | 0, _ => isTrue trivial
  | n+1, p =>
    match h : p.next env verify with
    | .error refused => decidable_of_iff (refused.1 ≠ .panics) (by rw [Calm,h])
    | .ok (_,q) =>
      have := decidableCalm env verify n q
      decidable_of_iff (q.Calm env verify n) (by rw [Calm,h])

def Framing.CalmIn (env : Env) (file : Framing) (materialize verify : Bool) (bucket : Nat) : Prop :=
  match file.load env materialize bucket with
  | .error e => e ≠ .panics
  | .ok p => p.Calm env verify (max p.slotsRemaining.toNat 1)

instance Framing.decidableCalmIn (env : Env) (file : Framing) (materialize verify : Bool)
    (bucket : Nat) : Decidable (file.CalmIn env materialize verify bucket) :=
  match h : file.load env materialize bucket with
  | .error e => decidable_of_iff (e ≠ .panics) (by rw [CalmIn,h])
  | .ok p => decidable_of_iff (p.Calm env verify (max p.slotsRemaining.toNat 1)) (by rw [CalmIn,h])

/-- No bucket of the file makes a decoder panic that starts at its front. -/
def Framing.Calm (env : Env) (file : Framing) : Prop :=
  file.header.bucketSlots ≠ 0 ∧
    ∀ materialize verify, ∀ bucket < file.index.length, file.CalmIn env materialize verify bucket

instance Framing.decidableCalm (env : Env) (file : Framing) : Decidable (file.Calm env) :=
  inferInstanceAs (Decidable (_ ∧ ∀ materialize verify, ∀ bucket < file.index.length,
    file.CalmIn env materialize verify bucket))

section Calm

variable {env : Env} {call : ReadCall} {file : Framing} {s : Progress} {halt : Halt}

theorem runFrames_calm {n m : Nat} (h : s.position.Calm env call.verifyChain n) (hle : m ≤ n)
    (hrun : runFrames env call m s = .error halt) : halt.failure ≠ .panics := by
  induction m generalizing n s with
  | zero => cases hrun
  | succ m ih =>
    obtain ⟨n,rfl⟩ : ∃ k, n = k + 1 := ⟨n - 1,by omega⟩
    rw [runFrames] at hrun
    rw [Position.Calm] at h
    split at hrun
    · cases hnext : s.position.next env call.verifyChain with
      | error refused =>
        rw [hnext] at h hrun
        cases hrun
        exact h
      | ok decoded =>
        rw [hnext] at h hrun
        exact ih h (Nat.le_of_succ_le_succ hle) hrun
    · cases hrun

variable (hcalm : file.Calm env)
include hcalm

theorem runBuckets_calm {buckets : List Nat} (hbuckets : ∀ idx ∈ buckets, idx < file.index.length)
    (hrun : runBuckets env file call buckets s = .error halt) : halt.failure ≠ .panics := by
  induction buckets generalizing s with
  | nil => cases hrun
  | cons idx rest ih =>
    have hidx := hcalm.2 call.accountUpdateData call.verifyChain idx
        (hbuckets idx List.mem_cons_self)
    rw [Framing.CalmIn] at hidx
    rw [runBuckets] at hrun
    split at hrun
    · cases hload : file.load env call.accountUpdateData idx with
      | error e =>
        rw [hload] at hidx hrun
        cases hrun
        exact hidx
      | ok p =>
        simp only [hload,Except.mapError,ok_bind] at hidx hrun
        rcases bind_error hrun with hframes | ⟨s1,-,hrest⟩
        · refine runFrames_calm ?_ (Nat.le_refl _) hframes
          exact hidx
        · exact ih (fun i hi => hbuckets i (List.mem_cons_of_mem _ hi)) hrest
    · cases hrun

theorem run_calm {r : ArchiveReader} (hfile : r.framing = file) (hfresh : r.currentBucket = none)
    (hidle : ¬r.idle call) (hrun : r.run env call = .error halt) : halt.failure ≠ .panics := by
  subst hfile
  have hindex : r.index ≠ [] := fun hnil => hidle (.inl (by rw [hnil]; rfl))
  obtain ⟨target,hlt,htarget,-⟩ := bucketContaining_lt hcalm.1 hindex call.startSlot
  have hcold : (r.asked call).continues target call.startSlot = false := by
    simp [ArchiveReader.continues,ArchiveReader.asked,hfresh]
  have hin := hcalm.2 call.accountUpdateData call.verifyChain target hlt
  rw [Framing.CalmIn] at hin
  simp only [ArchiveReader.run,htarget,Except.mapError,ok_bind,hcold] at hrun
  cases hload : r.framing.load env call.accountUpdateData target with
  | error e =>
    rw [hload] at hin hrun
    cases hrun
    exact hin
  | ok p =>
    simp only [hload,ok_bind] at hin hrun
    rcases bind_error hrun with hframes | ⟨s1,-,hrest⟩
    · refine runFrames_calm ?_ (Nat.le_max_left _ 1) hframes
      exact hin
    · refine runBuckets_calm hcalm (fun idx hidx => ?_) hrest
      have := List.mem_range'.mp hidx
      omega

end Calm

def ArchiveReader.resumes (r : ArchiveReader) (call : ReadCall) : Bool :=
  if r.idle call then false
  else
    match bucketContaining r.header r.index call.startSlot with
    | .error _ => false
    | .ok target => (r.asked call).continues target call.startSlot

/-- A reader in use. `intact` says that no call has failed since its bucket was loaded, `checked`
that every call since then has checked the chain. -/
structure Session where
  reader : ArchiveReader
  intact : Bool := true
  checked : Bool := true

namespace Session

variable (env : Env)

def call (s : Session) (call : ReadCall) : (Except Failure Nat × List Event) × Session :=
  let (outcome,r) := s.reader.call env call
  if s.reader.idle call then (outcome,{ s with reader := r })
  else
    let stayed := s.reader.resumes call && r.currentBucket == s.reader.currentBucket
    (outcome,⟨r,outcome.1.isOk && (s.intact || !stayed),
      call.verifyChain && (s.checked || !stayed)⟩)

def outcomes (s : Session) : List ReadCall → List (Except Failure Nat × List Event)
  | [] => []
  | c :: rest => (s.call env c).1 :: outcomes (s.call env c).2 rest

/-- The calls a reader can be trusted with: it goes on in a bucket only if no call has failed
there, nor left the chain unchecked that is to be checked now. -/
def Careful (s : Session) : List ReadCall → Prop
  | [] => True
  | c :: rest =>
    (s.reader.resumes c → s.intact ∧ (c.verifyChain → s.checked)) ∧ Careful (s.call env c).2 rest

instance decidableCareful :
    ∀ (s : Session) (calls : List ReadCall), Decidable (Careful env s calls)
  | _, [] => isTrue trivial
  | s, c :: rest =>
    have := decidableCareful (s.call env c).2 rest
    inferInstanceAs (Decidable ((s.reader.resumes c → s.intact ∧ (c.verifyChain → s.checked)) ∧
      Careful env (s.call env c).2 rest))

end Session

section Sessions

variable {env : Env} {r : ArchiveReader} {call : ReadCall}

theorem outcome_unbooked (run : Except Halt Progress) : outcome (unbooked run) = outcome run := by
  cases run <;> rfl

/-- The next `n` frames, as far as they can be decoded. -/
def Position.frames (env : Env) : Nat → Position → List DecodedFrame
  | 0, _ => []
  | n+1, p =>
    match p.next env false with
    | .error _ => []
    | .ok (frame,q) => frame :: frames env n q

def Framing.frames (env : Env) (file : Framing) (materialize : Bool) (bucket : Nat) :
    List DecodedFrame :=
  match file.load env materialize bucket with
  | .error _ => []
  | .ok p => p.frames env p.slotsRemaining.toNat

/-- The frames of each bucket lie in the order of their slots, as far as they can be decoded. -/
def Framing.Increasing (env : Env) (file : Framing) : Prop :=
  ∀ materialize, ∀ bucket < file.index.length,
    ((file.frames env materialize bucket).map DecodedFrame.slot).Pairwise (· < ·)

instance (env : Env) (file : Framing) : Decidable (file.Increasing env) :=
  inferInstanceAs (Decidable (∀ materialize, ∀ bucket < file.index.length,
    ((file.frames env materialize bucket).map DecodedFrame.slot).Pairwise (· < ·)))

variable {p : Position} {seen : List DecodedFrame} {file : Framing} {bucket : Nat}
  {fresh : ArchiveReader}

theorem Decodes.frames {q : Position} (h : Decodes env false p seen q) (n : Nat) :
    p.frames env (seen.length + n) = seen ++ q.frames env n := by
  induction h with
  | nil p => simp
  | cons hnext _ ih =>
    rw [List.length_cons,Nat.succ_add,Position.frames,hnext]
    simp [ih]

theorem Framing.Inside.frames {materialize : Bool}
    (h : file.Inside env false materialize bucket seen p) :
    file.frames env materialize bucket = seen ++ p.frames env p.slotsRemaining.toNat := by
  obtain ⟨front,hload,hdecodes⟩ := h
  rw [Framing.frames,hload]
  simp [hdecodes.remaining,hdecodes.frames]

theorem Framing.load_bucket {materialize : Bool}
    (h : file.load env materialize bucket = .ok p) : bucket < file.index.length := by
  obtain ⟨entry,raw,d,hentry,-⟩ := Framing.load_parts h
  exact (List.getElem?_eq_some_iff.mp hentry).1

theorem Framing.Increasing.inside (h : file.Increasing env) {materialize : Bool}
    (hinside : file.Inside env false materialize bucket seen p) :
    (seen.map DecodedFrame.slot).Pairwise (· < ·) := by
  have hframes := hinside.frames
  obtain ⟨front,hload,-⟩ := hinside
  have hall := h materialize bucket (Framing.load_bucket hload)
  rw [hframes,List.map_append] at hall
  exact (List.pairwise_append.mp hall).1

theorem Framing.load_front {materialize : Bool} {idx : Nat}
    (h : file.load env materialize idx = .ok p) :
    p.lastDecodedSlot = none ∧ p.materialize = materialize := by
  obtain ⟨entry,raw,d,-,-,hload,rfl⟩ := Framing.load_parts h
  obtain ⟨header,after,payload,-,-,-,rfl⟩ := loadBucketBytes_ok_iff.mp hload
  exact ⟨rfl,rfl⟩

theorem Framing.Inside.weaken {verify verify' materialize : Bool}
    (h : file.Inside env verify materialize bucket seen p) (hle : verify' = true → verify = true) :
    file.Inside env verify' materialize bucket seen p := by
  obtain ⟨front,hload,hdecodes⟩ := h
  exact ⟨front,hload,hdecodes.weaken hle⟩

theorem Framing.Inside.materialize {verify materialize : Bool}
    (h : file.Inside env verify materialize bucket seen p) : p.materialize = materialize := by
  obtain ⟨front,hload,hdecodes⟩ := h
  exact hdecodes.materialize.trans (Framing.load_front hload).2

theorem Framing.Inside.below {verify materialize : Bool} {startSlot : UInt64}
    (hincreasing : file.Increasing env)
    (h : file.Inside env verify materialize bucket seen p)
    (hlast : p.lastDecodedSlot.all (· < startSlot) = true) :
    ∀ frame ∈ seen, frame.slot < startSlot := by
  have hpairwise := hincreasing.inside (h.weaken fun hfalse => by cases hfalse)
  obtain ⟨front,hload,hdecodes⟩ := h
  rw [hdecodes.last,(Framing.load_front hload).1,Option.or_none] at hlast
  rcases List.eq_nil_or_concat seen with rfl | ⟨before,final,rfl⟩
  · intro frame hframe
    cases hframe
  · simp only [List.concat_eq_append,List.getLast?_append_cons,List.getLast?_singleton,
      Option.map_some,Option.all_some,decide_eq_true_eq] at hlast
    simp only [List.concat_eq_append,List.map_append] at hpairwise
    intro frame hframe
    rw [List.concat_eq_append,List.mem_append,List.mem_singleton] at hframe
    rcases hframe with hframe | rfl
    · have hlt := (List.pairwise_append.mp hpairwise).2.2 frame.slot
        (List.mem_map_of_mem hframe) final.slot List.mem_cons_self
      exact UInt64.lt_trans hlt hlast
    · exact hlast

/-- As long as no call has failed in it, the reader stands where decoding from the front of its
bucket leads. -/
def Session.Sound (env : Env) (s : Session) : Prop :=
  s.intact = true → ∀ idx, s.reader.currentBucket = some idx →
    ∃ seen, s.reader.framing.Inside env s.checked s.reader.decoder.bucketMaterialize idx seen
      s.reader.decoder.position

theorem resumes_eq {target : Nat} (h : ¬r.idle call)
    (htarget : bucketContaining r.header r.index call.startSlot = .ok target) :
    r.resumes call = (r.asked call).continues target call.startSlot := by
  rw [ArchiveReader.resumes,if_neg h]
  simp only [htarget]

theorem continues_iff {target : Nat} {startSlot : UInt64} :
    r.continues target startSlot = true ↔ r.currentBucket = some target ∧
      r.decoder.bucketMaterialize = r.decoder.materializeAccountData ∧
      r.decoder.lastDecodedSlot.all (· < startSlot) = true := by
  simp [ArchiveReader.continues,and_assoc]

theorem Session.outcome_fresh {s : Session} {c : ReadCall}
    (hframing : s.reader.framing = fresh.framing) (hfresh : fresh.currentBucket = none)
    (hincreasing : fresh.framing.Increasing env) (hsound : s.Sound env)
    (hcareful : s.reader.resumes c → s.intact ∧ (c.verifyChain → s.checked)) :
    (s.reader.call env c).1 = (fresh.call env c).1 := by
  have hindex : s.reader.index = fresh.index := congrArg Framing.index hframing
  have hheader : s.reader.header = fresh.header := congrArg Framing.header hframing
  by_cases hidle : fresh.idle c
  · have hidle' : s.reader.idle c := by
      unfold ArchiveReader.idle at hidle ⊢
      rwa [hindex]
    rw [call_idle hidle,call_idle hidle']
  · have hidle' : ¬s.reader.idle c := by
      unfold ArchiveReader.idle at hidle ⊢
      rwa [hindex]
    rw [(call_run env hidle).1,(call_run env hidle').1,← outcome_unbooked,
      ← outcome_unbooked (fresh.run env c)]
    refine congrArg outcome ?_
    unfold ArchiveReader.run
    rw [hindex,hheader]
    cases htarget : bucketContaining fresh.header fresh.index c.startSlot with
    | error e => rfl
    | ok target =>
      have hcold : (fresh.asked c).continues target c.startSlot = false := by
        simp [ArchiveReader.continues,ArchiveReader.asked,hfresh]
      have hresumes := resumes_eq hidle' (by rw [hindex,hheader]; exact htarget)
      simp only [Except.mapError,ok_bind,hcold,Bool.false_eq_true,if_false,hframing]
      by_cases hcontinues : (s.reader.asked c).continues target c.startSlot = true
      · rw [if_pos hcontinues]
        obtain ⟨hintact,hchecked⟩ := hcareful (hresumes.trans hcontinues)
        obtain ⟨hbucket,hmaterialize,hlast⟩ := continues_iff.mp hcontinues
        obtain ⟨seen,hinside⟩ := hsound hintact target hbucket
        have hbelow := hinside.below (hframing ▸ hincreasing) hlast
        obtain ⟨front,hload,hdecodes⟩ := hinside
        have hload' : fresh.framing.load env c.accountUpdateData target = .ok front := by
          have hmode : s.reader.decoder.bucketMaterialize = c.accountUpdateData := hmaterialize
          rw [← hframing,← hmode]
          exact hload
        have hmax : 0 < c.maxSlots := Nat.pos_of_ne_zero fun hzero => hidle (.inr hzero)
        rw [hload']
        exact (runFrom_behind (hdecodes.weaken hchecked) hmax hbelow).symm
      · rw [if_neg hcontinues]

theorem Session.call_sound {s : Session} {c : ReadCall} (hsound : s.Sound env) :
    (s.call env c).2.Sound env := by
  unfold Session.call
  by_cases hidle : s.reader.idle c
  · simp only [if_pos hidle,call_idle hidle]
    exact hsound
  · simp only [if_neg hidle]
    cases hrun : s.reader.run env c with
    | error halt =>
      have hcall := (call_run env hidle).1
      rw [hrun] at hcall
      intro hintact
      simp only [hcall] at hintact
      cases hintact
    | ok p =>
      obtain ⟨hcall,-,-,hshows⟩ := call_run env hidle
      have hshows := hshows p hrun
      rw [hrun] at hcall
      intro hintact idx hidx
      simp only [hcall] at hintact
      have hidx' : p.bucket = idx := Option.some.inj (hshows.bucket.symm.trans hidx)
      have hmode : (s.reader.call env c).2.decoder.bucketMaterialize = p.position.materialize :=
        congrArg Position.materialize hshows.position
      simp only
      rw [hshows.position,hshows.framing,hmode]
      -- a bucket loaded by this call has been checked by it alone
      have hloaded (seen : List DecodedFrame) (hinside : s.reader.framing.Inside env c.verifyChain
          c.accountUpdateData p.bucket seen p.position) (checked : Bool)
          (hchecked : checked = true → c.verifyChain = true) :
          ∃ seen, s.reader.framing.Inside env checked p.position.materialize idx seen
            p.position := by
        rw [hinside.materialize,← hidx']
        exact ⟨seen,hinside.weaken hchecked⟩
      have hboth : ∀ a b : Bool, (c.verifyChain && (a || b)) = true → c.verifyChain = true := by
        intro a b h
        exact (Bool.and_eq_true _ _ ▸ h).1
      obtain ⟨target,htarget,hrun⟩ := bind_ok hrun
      have htarget := mapError_ok htarget
      by_cases hcontinues : (s.reader.asked c).continues target c.startSlot = true
      · rw [if_pos hcontinues] at hrun
        obtain ⟨hbucket,-,-⟩ := continues_iff.mp hcontinues
        have hbucket' : s.reader.currentBucket = some target := hbucket
        have hend := runFrom_inside hrun
        by_cases hsame : p.bucket = target
        · rw [if_pos hsame] at hend
          obtain ⟨frames,hframes⟩ := hend
          have hstayed : (s.reader.resumes c &&
              (s.reader.call env c).2.currentBucket == s.reader.currentBucket) = true := by
            rw [resumes_eq hidle htarget,hcontinues,hshows.bucket,hbucket',hsame]
            simp
          rw [hstayed,Bool.not_true,Bool.or_false] at hintact ⊢
          obtain ⟨seen,front,hload,hdecodes⟩ := hsound hintact target hbucket'
          have hmaterialize : p.position.materialize = s.reader.decoder.bucketMaterialize :=
            hframes.materialize
          rw [hmaterialize,← hidx',hsame]
          refine ⟨seen ++ frames,front,hload,(hdecodes.weaken ?_).append (hframes.weaken ?_)⟩
          · intro h
            exact (Bool.and_eq_true _ _ ▸ h).2
          · intro h
            exact (Bool.and_eq_true _ _ ▸ h).1
        · rw [if_neg hsame] at hend
          obtain ⟨seen,hinside⟩ := hend
          exact hloaded seen hinside _ (hboth _ _)
      · rw [if_neg hcontinues] at hrun
        obtain ⟨front,hload,hrun⟩ := bind_ok hrun
        have hload := mapError_ok hload
        have hend := runFrom_inside hrun
        by_cases hsame : p.bucket = target
        · rw [if_pos hsame] at hend
          obtain ⟨frames,hframes⟩ := hend
          exact hloaded frames ⟨front,hsame ▸ hload,hframes⟩ _ (hboth _ _)
        · rw [if_neg hsame] at hend
          obtain ⟨seen,hinside⟩ := hend
          exact hloaded seen hinside _ (hboth _ _)

theorem Session.call_reader (env : Env) (s : Session) (c : ReadCall) :
    (s.call env c).2.reader = (s.reader.call env c).2 ∧
      (s.call env c).1 = (s.reader.call env c).1 := by
  unfold Session.call
  by_cases hidle : s.reader.idle c
  · simp only [if_pos hidle]
    exact ⟨trivial,trivial⟩
  · simp only [if_neg hidle]
    exact ⟨trivial,trivial⟩

theorem Session.outcomes_fresh (hfresh : fresh.currentBucket = none)
    (hincreasing : fresh.framing.Increasing env) {calls : List ReadCall} {s : Session}
    (hframing : s.reader.framing = fresh.framing) (hsound : s.Sound env)
    (hcareful : s.Careful env calls) :
    s.outcomes env calls = calls.map fun c => (fresh.call env c).1 := by
  induction calls generalizing s with
  | nil => rfl
  | cons c rest ih =>
    obtain ⟨hstep,hrest⟩ := hcareful
    obtain ⟨hreader,houtcome⟩ := Session.call_reader env s c
    have hframing' : (s.call env c).2.reader.framing = fresh.framing := by
      rw [hreader]
      exact call_framing.trans hframing
    rw [Session.outcomes,List.map_cons,houtcome,ih hframing' (Session.call_sound hsound) hrest,
      Session.outcome_fresh hframing hfresh hincreasing hsound hstep]

theorem open_currentBucket {source : Bytes} (h : ArchiveReader.open env source = .ok r) :
    r.currentBucket = none := by
  obtain ⟨header,-,h⟩ := bind_ok h
  obtain ⟨footer,-,h⟩ := bind_ok h
  obtain ⟨indexBytes,-,h⟩ := bind_ok h
  obtain ⟨index,-,h⟩ := bind_ok h
  cases h
  rfl

theorem call_calm (hfresh : fresh.currentBucket = none) (hcalm : fresh.framing.Calm env)
    (c : ReadCall) : (fresh.call env c).1.1 ≠ .error .panics := by
  by_cases hidle : fresh.idle c
  · rw [call_idle hidle]
    exact nofun
  · rw [(call_run env hidle).1]
    cases hrun : fresh.run env c with
    | ok s => exact nofun
    | error halt =>
      exact fun h => run_calm hcalm rfl hfresh hidle hrun (Except.error.inj h)

end Sessions

def eightSlots : List SlotCalls := (List.range 8).map fun n => .skipped (UInt64.ofNat n)

def damagedFile : Bytes :=
  match writeSlots plainEnv 0 0 0 8 ⟨4,.zstd,3⟩ eightSlots with
  | .ok (file,_) => file.set 73 9
  | .error _ => []

def skippedEvents (slots : List UInt64) : List Event :=
  slots.map fun slot => .block (.skipped slot) []

/-- A call behind one that fails, and one that goes on from there. -/
def callsAround : List ReadCall :=
  [⟨0,2,true,false⟩,⟨4,1,true,false⟩,⟨0,3,true,true⟩,⟨3,1,true,true⟩]

/-- What a reader of the damaged file is, and what it meets. -/
def ArchiveReader.MeetsDamage (fresh : ArchiveReader) : Prop :=
  (fresh.framing.Increasing plainEnv ∧ fresh.framing.Calm plainEnv ∧
      Session.Careful plainEnv ⟨fresh,true,true⟩ callsAround) ∧
    callsAround.map (fun c => (fresh.call plainEnv c).1) =
      [(.ok 2,skippedEvents [0,1]),(.error (.error (.bucketChecksum 4)),[]),
        (.ok 3,skippedEvents [0,1,2]),(.ok 1,skippedEvents [3])] ∧
    Session.outcomes plainEnv ⟨fresh,true,true⟩
        [⟨0,2,true,false⟩,⟨4,1,true,false⟩,⟨2,2,true,false⟩] =
      [(.ok 2,skippedEvents [0,1]),(.error (.error (.bucketChecksum 4)),[]),
        (.ok 2,skippedEvents [6,7])] ∧
    (fresh.call plainEnv ⟨2,2,true,false⟩).1 = (.ok 2,skippedEvents [2,3])

instance ArchiveReader.decidableMeetsDamage (fresh : ArchiveReader) :
    Decidable fresh.MeetsDamage :=
  inferInstanceAs (Decidable (_ ∧ _))

theorem damagedFile_reader :
    ∃ fresh, ArchiveReader.open plainEnv damagedFile = .ok fresh ∧ fresh.MeetsDamage := by
  have hall : (do
      let fresh ← ArchiveReader.open plainEnv damagedFile
      return decide fresh.MeetsDamage) = .ok true := by
    decide +kernel
  obtain ⟨fresh,hopen,hall⟩ := bind_ok hall
  exact ⟨fresh,hopen,of_decide_eq_true (Except.ok.inj hall)⟩

end Jetstreamer.Archive
