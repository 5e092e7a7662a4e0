import Jetstreamer.Firehose.PrefetchProgress
import Jetstreamer.Lib.Runs
set_option autoImplicit false

namespace Jetstreamer.Firehose.Prefetch
open Lib

def Slice (object : Bytes) (start : Nat) (bytes : Bytes) : Prop :=
  bytes ≠ [] ∧ bytes = (object.drop start).take bytes.length

theorem collect_flatten {expected : Nat} {bytes : Bytes} {pieces : List Bytes} {out : Bytes}
    (h : collect expected bytes pieces = .ok out) : out = bytes ++ pieces.flatten := by
  induction pieces generalizing bytes with
  | nil =>
    cases h
    simp
  | cons piece rest ih =>
    unfold collect at h
    split at h
    · cases h
    · rw [ih h]
      simp

theorem request_honest {object : Bytes} {start last : Nat} {total : Option Nat} {r : Reply}
    {length : Nat} {bytes : { bytes : Bytes // bytes.length = last - start + 1 }}
    (hhonest : r.Honest object) (h : request start last total r = .ok (length,bytes)) :
    length = object.length ∧ bytes.1 = (object.drop start).take (last - start + 1) := by
  cases r with
  | lost => cases h
  | timedOut => cases h
  | response status header body cut =>
    obtain ⟨⟨actualStart,actualLast,actualTotal⟩,hrange,hrest⟩ := bind_ok h
    obtain ⟨htotal,hbody⟩ := hhonest _ _ _ hrange
    dsimp only at hrest
    split at hrest
    · cases hrest
    · rename_i hsame
      simp only [not_or,not_not] at hsame
      obtain ⟨rfl,rfl,-⟩ := hsame
      obtain ⟨collected,hcollect,hchecked⟩ := bind_ok hrest
      have hflatten : collected = body.flatten := by simpa using collect_flatten hcollect
      split at hchecked
      · cases hchecked
      · split at hchecked
        · rename_i hlength
          cases hchecked
          subst hflatten
          exact ⟨htotal,hbody hlength⟩
        · cases hchecked

/-- A request with its bounds in order, whose bytes are the object's if it has them. -/
def Fetch.Sound (object : Bytes) (f : Fetch) : Prop :=
  f.start ≤ f.last ∧ ∀ bytes, f.state = .done bytes → Slice object f.start bytes.1

theorem Fetch.reply_sound {object : Bytes} {f next : Fetch} {total : Nat} {r : Reply}
    (hsound : f.Sound object) (hhonest : r.Honest object) (h : f.reply total r = some next) :
    next.Sound object ∧ next.start = f.start ∧ next.last = f.last := by
  unfold Fetch.reply at h
  cases hstate : f.state with
  | running attempt =>
    simp only [hstate] at h
    cases h
    refine ⟨⟨hsound.1,fun bytes hdone => ?_⟩,rfl,rfl⟩
    cases hrequest : request f.start f.last (some total) r with
    | ok answer =>
      obtain ⟨length,answered⟩ := answer
      simp only [hrequest,FetchState.done.injEq] at hdone
      subst hdone
      obtain ⟨-,hbytes⟩ := request_honest hhonest hrequest
      have hlength := answered.2
      refine ⟨fun hempty => ?_,by rw [hlength]; exact hbytes⟩
      rw [hempty,List.length_nil] at hlength
      omega
    | error err =>
      simp only [hrequest] at hdone
      split at hdone <;> cases hdone
  | done bytes => simp [hstate] at h
  | failed err => simp [hstate] at h

def Requested (object : Bytes) : Nat → List Fetch → Nat → Prop
  | start, [], next => start = next
  | start, f :: rest, next =>
    f.start = start ∧ f.Sound object ∧ Requested object (f.last+1) rest next

/-- The results follow one another from `start`; what comes after an error does not matter, and what
comes after the last is up to `rest`. -/
def Carries (object : Bytes) : Nat → List (Except IoError Bytes) → (Nat → Prop) → Prop
  | start, [], rest => rest start
  | start, .ok bytes :: results, rest =>
    Slice object start bytes ∧ Carries object (start+bytes.length) results rest
  | _, .error _ :: _, _ => True

section

variable {object : Bytes} {start next : Nat}

theorem requested_append {fetches : List Fetch} {f : Fetch}
    (h : Requested object start fetches next)
    (hstart : f.start = next) (hsound : f.Sound object) :
    Requested object start (fetches ++ [f]) (f.last+1) := by
  induction fetches generalizing start with
  | nil =>
    cases h
    exact ⟨hstart,hsound,rfl⟩
  | cons first fetches ih => exact ⟨h.1,h.2.1,ih h.2.2⟩

theorem Requested.sound {fetches : List Fetch} {f : Fetch} (h : Requested object start fetches next)
    (hf : f ∈ fetches) : f.Sound object := by
  induction fetches generalizing start with
  | nil => cases hf
  | cons first fetches ih =>
    rcases List.mem_cons.mp hf with rfl | hf
    · exact h.2.1
    · exact ih h.2.2 hf

theorem Requested.set {fetches : List Fetch} {f answered : Fetch} {k : Nat}
    (h : Requested object start fetches next) (hf : fetches[k]? = some f)
    (hsound : answered.Sound object) (hstart : answered.start = f.start)
    (hlast : answered.last = f.last) : Requested object start (fetches.set k answered) next := by
  induction fetches generalizing start k with
  | nil => exact h
  | cons first fetches ih =>
    cases k with
    | zero =>
      cases hf
      exact ⟨hstart.trans h.1,hsound,hlast ▸ h.2.2⟩
    | succ k => exact ⟨h.1,h.2.1,ih h.2.2 (by simpa using hf)⟩

variable {results : List (Except IoError Bytes)} {rest rest' : Nat → Prop}

theorem Carries.mono (h : Carries object start results rest) (himp : ∀ q, rest q → rest' q) :
    Carries object start results rest' := by
  induction results generalizing start with
  | nil => exact himp start h
  | cons result results ih =>
    cases result with
    | ok bytes => exact ⟨h.1,ih h.2⟩
    | error err => trivial

theorem Carries.append {more : List (Except IoError Bytes)}
    (h : Carries object start results rest) (himp : ∀ q, rest q → Carries object q more rest') :
    Carries object start (results ++ more) rest' := by
  induction results generalizing start with
  | nil => exact himp start h
  | cons result results ih =>
    cases result with
    | ok bytes => exact ⟨h.1,ih h.2⟩
    | error err => trivial

end

namespace Pipeline

def hand (p : Pipeline) : List (Except IoError Bytes) :=
  match p.phase with
  | .sending result => [result]
  | _ => []

def Feeds (object : Bytes) (start : Nat) (p : Pipeline) : Prop :=
  p.total = object.length ∧ Carries object start (p.channel ++ p.hand) fun q =>
    p.phase = .ended ∨ Requested object q p.pending p.next

variable {config : Config} {budget after : Semaphore} {p next : Pipeline} {w : Work}
  {object : Bytes} {start : Nat}

theorem launch_feeds (hfeeds : p.Feeds object start) (hhand : p.hand = [])
    (hphase : p.phase ≠ .ended) (hnext : p.next < p.total) :
    (p.launch config).Feeds object start := by
  have hpos : 0 < p.nextSize config := nextSize_pos hnext
  refine ⟨hfeeds.1,?_⟩
  have hcarries := hfeeds.2
  rw [hhand] at hcarries
  refine hcarries.mono fun q hq => .inr ?_
  refine requested_append (hq.resolve_left hphase) rfl ⟨?_,nofun⟩
  dsimp only
  omega

theorem Worked.feeds (h : Worked config budget p w after next) (hwf : p.Wf)
    (hopen : p.receiving = true) (hhonest : ∀ k r, w = .reply k r → r.Honest object)
    (hfeeds : p.Feeds object start) : next.Feeds object start := by
  have hcarries := hfeeds.2
  cases h with
  | launched hphase hnext h =>
    exact launch_feeds hfeeds (by simp [hand,hphase]) (by simp [hphase]) hnext
  | granted ticket hphase h =>
    exact launch_feeds hfeeds (by simp [hand,hphase]) (by simp [hphase])
      (hwf.waiting ticket hphase).1
  | queued hphase hnext hpending | full hphase =>
    refine ⟨hfeeds.1,?_⟩
    simp only [hand,hphase] at hcarries ⊢
    exact hcarries.mono fun q hq => .inr (hq.resolve_left nofun)
  | returned hphase hpending =>
    refine ⟨hfeeds.1,?_⟩
    simp only [hand,hphase] at hcarries ⊢
    exact hcarries.mono fun q _ => .inl trivial
  | taken f rest result hphase hpending hresult =>
    refine ⟨hfeeds.1,?_⟩
    simp only [hand,hphase,List.append_nil,hpending] at hcarries ⊢
    refine hcarries.append fun q hq => ?_
    obtain ⟨rfl,hsound,hrest⟩ := hq.resolve_left nofun
    unfold Fetch.result at hresult
    cases hstate : f.state with
    | running attempt => simp [hstate] at hresult
    | done bytes =>
      simp only [hstate] at hresult
      cases hresult
      have hlast : f.start + bytes.1.length = f.last + 1 := by
        have := bytes.2
        have := hsound.1
        omega
      refine ⟨hsound.2 bytes hstate,.inr ?_⟩
      rw [hlast]
      exact hrest
    | failed err =>
      simp only [hstate] at hresult
      cases hresult
      trivial
  | refused _ _ hclosed | reclaimed hclosed _ | left _ hclosed _ | dropped _ hclosed _ =>
    simp [hopen] at hclosed
  | sent bytes hphase _ =>
    refine ⟨hfeeds.1,?_⟩
    simp only [hand,hphase,List.append_nil] at hcarries ⊢
    exact hcarries.mono fun q hq => .inr (hq.resolve_left nofun)
  | sentError err hphase _ =>
    refine ⟨hfeeds.1,?_⟩
    simp only [hand,hphase,List.append_nil] at hcarries ⊢
    exact hcarries.mono fun q _ => .inl trivial
  | replied k r f answered hphase hpending hreply =>
    refine ⟨hfeeds.1,hcarries.mono fun q hq => .inr ?_⟩
    have hrequested := hq.resolve_left hphase
    obtain ⟨hsound,hstart,hlast⟩ := Fetch.reply_sound
      (hrequested.sound (List.mem_of_getElem? hpending)) (hhonest k r rfl) hreply
    exact hrequested.set hpending hsound hstart hlast
  | cleared k f hphase hpending =>
    exact ⟨hfeeds.1,hcarries.mono fun q _ => .inl hphase⟩

end Pipeline

namespace Reader

/-- A reader of the object: what it has and what its pipeline feeds stands in the object from its
position on. -/
structure Follows (object : Bytes) (r : Reader) : Prop where
  len : r.len = object.length
  idle : r.pipeline = none → r.current = none
  between : ∀ p, r.pipeline = some p → r.current = none → p.Feeds object r.position
  within : ∀ p chunk, r.pipeline = some p → r.current = some chunk →
    r.offset < chunk.length ∧ ∃ start, r.position = start + r.offset ∧
      Slice object start chunk ∧ p.Feeds object (start + chunk.length)

variable {remaining : Nat} {budget : Semaphore} {r : Reader} {object : Bytes}

theorem open_follows {reply : Reply} (hhonest : reply.Honest object)
    (h : open_ reply = .ok r) : r.Follows object := by
  obtain ⟨⟨len,bytes⟩,hrequest,heq⟩ := bind_ok h
  cases heq
  exact ⟨(request_honest hhonest hrequest).1,fun _ => rfl,nofun,nofun⟩

theorem Follows.started (h : r.Follows object) (hcurrent : r.current = none) :
    r.started.Feeds object r.position := by
  cases hpipeline : r.pipeline with
  | none =>
    simp only [Reader.started,hpipeline,Option.getD_none]
    exact ⟨h.len,.inr rfl⟩
  | some p => simpa [Reader.started,hpipeline] using h.between p hpipeline hcurrent

/-- What a read may answer at a position, and where it leaves it: only the end of the object and a
full buffer give no bytes. -/
def Answers (object : Bytes) (remaining position : Nat) : Poll × Left → Prop
  | (.pending,left) => left.reader.position = position
  | (.ready (.error _),left) => left.reader.position = position
  | (.ready (.ok bytes),left) =>
    bytes = (object.drop position).take bytes.length ∧
      left.reader.position = position + bytes.length ∧
      (bytes = [] → remaining = 0 ∨ object.length ≤ position)

theorem slice_drop {start offset count : Nat} {chunk : Bytes} (h : Slice object start chunk)
    (hfits : offset + count ≤ chunk.length) :
    (chunk.drop offset).take count = (object.drop (start+offset)).take count := by
  rw [h.2,List.drop_take,List.take_take,List.drop_drop]
  congr 1
  omega

theorem copy_answers {p : Pipeline} {start : Nat} {chunk : Bytes} (hlen : r.len = object.length)
    (hpipeline : r.pipeline = some p) (hpos : 0 < remaining) (hoffset : r.offset < chunk.length)
    (hposition : r.position = start + r.offset) (hslice : Slice object start chunk)
    (hfeeds : p.Feeds object (start + chunk.length)) :
    (r.copy remaining budget chunk).2.reader.Follows object ∧
      Answers object remaining r.position (r.copy remaining budget chunk) := by
  have hcount : 0 < min remaining (chunk.length - r.offset) := by omega
  have hfits : r.offset + min remaining (chunk.length - r.offset) ≤ chunk.length := by omega
  have hbytes := slice_drop hslice hfits
  have hlength : ((chunk.drop r.offset).take (min remaining (chunk.length - r.offset))).length =
      min remaining (chunk.length - r.offset) := by
    rw [List.length_take,List.length_drop]
    omega
  unfold copy
  dsimp only
  split
  · rename_i hdone
    refine ⟨⟨hlen,fun _ => rfl,?_,nofun⟩,?_⟩
    · rintro p' hp' -
      obtain rfl : p' = p := by simpa [hpipeline] using hp'.symm
      have hend : r.position + min remaining (chunk.length - r.offset) = start + chunk.length := by
        omega
      simpa only [hend] using hfeeds
    · refine ⟨?_,by simp [hlength],fun hempty => ?_⟩
      · rw [hlength,hbytes,hposition]
      · rw [hempty,List.length_nil] at hlength
        omega
  · rename_i hmore
    refine ⟨⟨hlen,?_,nofun,?_⟩,?_⟩
    · simp [hpipeline]
    · rintro p' chunk' hp' ⟨⟩
      obtain rfl : p' = p := by simpa [hpipeline] using hp'.symm
      refine ⟨?_,start,?_,hslice,hfeeds⟩
      · dsimp only at hmore ⊢
        omega
      · dsimp only
        omega
    · refine ⟨?_,by simp [hlength],fun hempty => ?_⟩
      · rw [hlength,hbytes,hposition]
      · rw [hempty,List.length_nil] at hlength
        omega

theorem Follows.pollRead (h : r.Follows object) (remaining : Nat) (budget : Semaphore) :
    (r.pollRead remaining budget).2.reader.Follows object ∧
      Answers object remaining r.position (r.pollRead remaining budget) := by
  have hcases := pollRead_cases remaining budget r
  generalize r.pollRead remaining budget = polled at hcases
  cases hcases with
  | nothing hnothing => exact ⟨h,by simp,rfl,fun _ => h.len ▸ hnothing⟩
  | current chunk hpos hleft hcurrent =>
    obtain ⟨p,hp⟩ : ∃ p, r.pipeline = some p := by
      cases hpipeline : r.pipeline with
      | none => simp [h.idle hpipeline] at hcurrent
      | some p => exact ⟨p,rfl⟩
    obtain ⟨hoffset,start,hposition,hslice,hfeeds⟩ := h.within p chunk hp hcurrent
    have hstarted : r.started = p := by simp [Reader.started,hp]
    rw [hstarted]
    exact copy_answers h.len rfl hpos hoffset hposition hslice hfeeds
  | received chunk rest hpos hleft hcurrent hchannel =>
    obtain ⟨htotal,hcarries⟩ := h.started hcurrent
    rw [hchannel] at hcarries
    obtain ⟨hslice,hrest⟩ := hcarries
    exact copy_answers h.len rfl hpos (List.length_pos_of_ne_nil hslice.1) rfl hslice
      ⟨htotal,hrest⟩
  | failed err rest hcurrent hchannel =>
    exact ⟨⟨h.len,fun _ => rfl,by simp [cancel],by simp [cancel]⟩,rfl⟩
  | finished hcurrent hchannel hphase =>
    exact ⟨⟨h.len,fun _ => rfl,by simp [cancel],by simp [cancel]⟩,rfl⟩
  | pending hpos hleft hcurrent hchannel =>
    refine ⟨⟨h.len,by simp,?_,?_⟩,rfl⟩
    · rintro p ⟨⟩ -
      exact h.started hcurrent
    · rintro p chunk - hchunk
      simp [hcurrent] at hchunk

theorem slice_lt {start offset : Nat} {chunk : Bytes} (h : Slice object start chunk)
    (hoffset : offset < chunk.length) : start + offset < object.length := by
  have hlength := congrArg List.length h.2
  rw [List.length_take,List.length_drop] at hlength
  omega

theorem copy_ready (remaining : Nat) (budget : Semaphore) (r : Reader) (chunk : Bytes) :
    ∃ bytes left, r.copy remaining budget chunk = (.ready (.ok bytes),left) := by
  unfold copy
  dsimp only
  split <;> exact ⟨_,_,rfl⟩

theorem HoldsReceived.cases (hholds : r.HoldsReceived) (hwf : r.Wf) :
    (∃ chunk, r.current = some chunk) ∨
      ∃ p chunk rest, r.current = none ∧ r.pipeline = some p ∧ p.channel = .ok chunk :: rest := by
  cases hcurrent : r.current with
  | some chunk => exact .inl ⟨chunk,rfl⟩
  | none =>
    obtain ⟨p,bytes,hp,hmem⟩ := hholds.resolve_left (by simp [hcurrent])
    obtain ⟨chunk,rest,hchannel⟩ := (hwf p hp).1.head_ok hmem
    exact .inr ⟨p,chunk,rest,rfl,hp,hchannel⟩

theorem Follows.position_lt (h : r.Follows object) (hwf : r.Wf) (hholds : r.HoldsReceived) :
    r.position < object.length := by
  obtain ⟨chunk,hcurrent⟩ | ⟨p,chunk,rest,hcurrent,hp,hchannel⟩ := hholds.cases hwf
  · cases hp : r.pipeline with
    | none => simp [h.idle hp] at hcurrent
    | some p =>
      obtain ⟨hoffset,start,hposition,hslice,-⟩ := h.within p chunk hp hcurrent
      rw [hposition]
      exact slice_lt hslice hoffset
  · have hcarries := (h.between p hp hcurrent).2
    rw [hchannel] at hcarries
    exact slice_lt hcarries.1 (List.length_pos_of_ne_nil hcarries.1.1)

theorem Follows.read_ready (h : r.Follows object) (hwf : r.Wf) (hholds : r.HoldsReceived)
    (hpos : 0 < remaining) (budget : Semaphore) :
    ∃ bytes left, r.pollRead remaining budget = (.ready (.ok bytes),left) ∧ bytes ≠ [] := by
  have hleft := h.position_lt hwf hholds
  obtain ⟨bytes,left,hpoll⟩ :
      ∃ bytes left, r.pollRead remaining budget = (.ready (.ok bytes),left) := by
    have hmore : ¬(remaining = 0 ∨ r.len ≤ r.position) := by
      rw [h.len]
      omega
    unfold Reader.pollRead
    rw [if_neg hmore]
    obtain ⟨chunk,hcurrent⟩ | ⟨p,chunk,rest,hcurrent,hp,hchannel⟩ := hholds.cases hwf
    · simp only [hcurrent]
      exact copy_ready _ _ _ _
    · have hstarted : r.started = p := by simp [Reader.started,hp]
      simp only [hcurrent,hstarted,hchannel]
      exact copy_ready _ _ _ _
  refine ⟨bytes,left,hpoll,fun hempty => ?_⟩
  have hanswers := (h.pollRead remaining budget).2
  rw [hpoll] at hanswers
  have := hanswers.2.2 hempty
  omega

end Reader

def System.Faithful {ι : Type} (objects : ι → Bytes) (s : System ι) : Prop :=
  ∀ i r, s.readers i = some r → r.Follows (objects i)

theorem System.Faithful.update {ι : Type} [DecidableEq ι] {objects : ι → Bytes} {s : System ι}
    (h : s.Faithful objects) {i : ι} {after : Option Reader}
    (hafter : ∀ r, after = some r → r.Follows (objects i)) {budget : Semaphore}
    {aborted : List Pipeline} :
    System.Faithful objects ⟨budget,Function.update s.readers i after,aborted⟩ := by
  intro j r hj
  by_cases hji : j = i
  · subst hji
    exact hafter r (by simpa using hj)
  · exact h j r (by simpa [hji] using hj)

theorem System.Faithful.step {ι : Type} [Fintype ι] [DecidableEq ι] {config : Config}
    {objects : ι → Bytes} {s next : System ι} {action : Action ι} (h : s.Faithful objects)
    (haccount : s.Accounted config) (hhonest : action.Honest objects)
    (hstep : s.step config action = some next) : next.Faithful objects := by
  obtain ⟨i,reply,reader,rfl,hnone,hopen,rfl⟩ | ⟨i,remaining,r,-,hr,rfl⟩ | ⟨i,origin,r,-,hr,rfl⟩ |
    ⟨i,r,-,hr,rfl⟩ | ⟨i,w,r,p,budget,after,rfl,hr,hp,hwork,rfl⟩ |
    ⟨k,w,p,budget,after,-,hp,hwork,rfl⟩ := System.step_cases hstep
  · refine h.update ?_
    rintro _ ⟨⟩
    exact Reader.open_follows hhonest hopen
  · refine h.update ?_
    rintro _ ⟨⟩
    exact ((h i r hr).pollRead remaining s.budget).1
  · refine h.update ?_
    rintro _ ⟨⟩
    rcases Reader.startSeek_cases s.budget r origin with ⟨result,hseek⟩ | ⟨position,hseek⟩
    · rw [hseek]
      exact h i r hr
    · rw [hseek]
      exact ⟨(h i r hr).len,fun _ => rfl,nofun,nofun⟩
  · refine h.update ?_
    rintro _ ⟨⟩
  · refine h.update ?_
    rintro _ ⟨⟩
    obtain ⟨hwf,hreceiving⟩ := haccount.readers i r hr p hp
    have hworked : ∀ start, p.Feeds (objects i) start → after.Feeds (objects i) start := by
      intro start
      refine (Pipeline.work_cases hwork).feeds hwf hreceiving ?_
      rintro k reply rfl
      exact hhonest
    refine ⟨(h i r hr).len,nofun,?_,?_⟩
    · rintro _ ⟨⟩ hcurrent
      exact hworked _ ((h i r hr).between p hp hcurrent)
    · rintro _ chunk ⟨⟩ hcurrent
      obtain ⟨hoffset,start,hposition,hslice,hfeeds⟩ := (h i r hr).within p chunk hp hcurrent
      exact ⟨hoffset,start,hposition,hslice,hworked _ hfeeds⟩
  · exact h

theorem Reachable.faithful {ι : Type} [Fintype ι] [DecidableEq ι] {config : Config}
    {objects : ι → Bytes} {s : System ι} (h : Reachable config objects s) :
    s.Faithful objects := by
  induction h with
  | new => exact nofun
  | step action hreachable hhonest hstep ih => exact ih.step hreachable.accounted hhonest hstep

/-- The position an origin names: from the front, from where the reader is, or from the end. -/
def SeekFrom.target (object : Bytes) (position : Nat) : SeekFrom → Int
  | .start target => target
  | .current delta => position + delta
  | .fromEnd delta => object.length + delta

/-- A seek to a position is taken, and one to none is refused and changes nothing. -/
structure Reader.Seeks (object : Bytes) (budget : Semaphore) (origin : SeekFrom) (r : Reader) :
    Prop where
  valid : ∀ position : Nat, position < 2^64 → origin.target object r.position = position →
    (r.startSeek budget origin).1 = .ok () ∧
    (r.startSeek budget origin).2.reader.position = position
  invalid : origin.target object r.position < 0 ∨ 2^64 ≤ origin.target object r.position →
    r.startSeek budget origin = (.error .invalidSeek,⟨budget,r,[]⟩)

theorem Reader.Follows.seeks {object : Bytes} {r : Reader} (h : r.Follows object)
    (budget : Semaphore) (origin : SeekFrom) : r.Seeks object budget origin := by
  have htarget : r.seekTarget origin = origin.target object r.position := by
    cases origin with
    | start target => rfl
    | current delta => rfl
    | fromEnd delta => rw [seekTarget,SeekFrom.target,h.len]
  refine ⟨fun position hlt heq => ?_,fun hout => ?_⟩
  · rw [startSeek,htarget,heq,if_pos (by omega),Int.toNat_natCast]
    by_cases hsame : position = r.position
    · simp [hsame]
    · simp [hsame]
  · rw [startSeek,htarget,if_neg (by omega)]

/-- What readers that share a budget are to be, at one moment of a run. -/
structure System.Correct {ι : Type} [Fintype ι] [DecidableEq ι] (config : Config)
    (objects : ι → Bytes) (s : System ι) : Prop where
  reads : ∀ i r remaining, s.readers i = some r →
    Reader.Answers (objects i) remaining r.position (r.pollRead remaining s.budget)
  seeks : ∀ i r origin, s.readers i = some r → r.Seeks (objects i) s.budget origin
  within : s.holding.1 ≤ config.budgetBytes
  rests : ∀ next, Internal config objects s next → next.weight < s.weight
  returned : (∀ i, s.readers i = none) → (∀ next, ¬Internal config objects s next) →
    s.budget.available = config.budgetBytes
  moves : ∀ i r p ticket, s.readers i = some r → r.pipeline = some p →
    p.phase = .waiting ticket → (∃ next, Internal config objects s next) ∨
      ∃ j r, s.readers j = some r ∧ r.HoldsReceived ∧ ∀ remaining, 0 < remaining →
        ∃ bytes left, r.pollRead remaining s.budget = (.ready (.ok bytes),left) ∧ bytes ≠ []
  fair : ∀ action next, s.step config action = some next → s.budget.Fair next.budget

/-- In every run a read gives the object's bytes at the position or leaves it, a seek sets it or is
refused, what is requested or held keeps within the budget, and a reader waits for permits only
while others still move or hold a chunk they can read. -/
theorem Reachable.correct {ι : Type} [Fintype ι] [DecidableEq ι] {config : Config}
    {objects : ι → Bytes} {s : System ι} (h : Reachable config objects s) :
    s.Correct config objects where
  reads := fun i r remaining hr => ((h.faithful i r hr).pollRead remaining s.budget).2
  seeks := fun i r origin hr => (h.faithful i r hr).seeks s.budget origin
  within := by
    have := h.accounted.balanced.permits
    omega
  rests := fun next => h.accounted.internal_weight_lt
  returned := fun hdropped hrest => (h.accounted.permits_back hdropped hrest).1
  moves := by
    intro i r p ticket hr hp hphase
    have hqueue : s.budget.queue ≠ [] :=
      List.ne_nil_of_mem (h.accounted.waiting_mem hr hp hphase)
    rcases h.accounted.progress hqueue with hmove | ⟨j,reader,hreader,hholds⟩
    · exact .inl hmove
    · exact .inr ⟨j,reader,hreader,hholds,fun remaining hpos =>
        (h.faithful j reader hreader).read_ready (h.accounted.readers j reader hreader) hholds
          hpos s.budget⟩
  fair := fun action next => System.step_fair

theorem Reachable.run {ι : Type} [DecidableEq ι] {config : Config} {objects : ι → Bytes}
    {s last : System ι} {actions : List (Action ι)} (h : Reachable config objects s)
    (hhonest : ∀ action ∈ actions, action.Honest objects)
    (hrun : actions.foldlM (System.step config) s = some last) :
    Reachable config objects last := by
  induction actions generalizing s with
  | nil =>
    cases hrun
    exact h
  | cons action actions ih =>
    obtain ⟨next,hstep,hrest⟩ := Option.bind_eq_some_iff.mp hrun
    exact ih (h.step action (hhonest action (by simp)) hstep)
      (fun other hother => hhonest other (by simp [hother])) hrest

theorem honest_of_range {object : Bytes} {status start last : Nat} {header : Option (List Char)}
    {body : List Bytes} (cut : Bool)
    (hrange : contentRange status header = .ok (start,last,object.length))
    (hbody : body.flatten = (object.drop start).take (last - start + 1)) :
    (Reply.response status header body cut).Honest object := by
  intro start' last' total' hother
  rw [hrange] at hother
  cases hother
  exact ⟨rfl,fun _ => hbody⟩

def tightConfig : Config := ⟨1,2,2,by decide,by decide,by decide⟩

def tightObject : Fin 1 → Bytes := fun _ => [7,8,9]

/-- The reader turns to the last byte while its producer waits for room. -/
def tightRun : List (Action (Fin 1)) :=
  [.open_ 0 (.response 206 (some "bytes 0-0/3".toList) [[7]] false),.read 0 5,
    .live 0 .advance,.live 0 .advance,
    .live 0 (.reply 0 (.response 206 (some "bytes 0-1/3".toList) [[7],[8]] false)),
    .live 0 .advance,.live 0 .advance,.live 0 .advance,.seek 0 (.fromEnd (-1))]

theorem correct_tightRun : ∃ s r, Reachable tightConfig tightObject s ∧ s.budget.queue = [0] ∧
    s.readers 0 = some r ∧ r.position = 2 ∧ s.Correct tightConfig tightObject := by
  have hrun : (tightRun.foldlM (System.step tightConfig) (System.new (Fin 1) tightConfig)).map
      (fun s => (s.budget.queue,(s.readers 0).map Reader.position)) = some ([0],some 2) := by
    decide +kernel
  obtain ⟨s,hs,hstate⟩ := Option.map_eq_some_iff.mp hrun
  obtain ⟨hqueue,hreader⟩ := Prod.mk.inj hstate
  obtain ⟨r,hr,hposition⟩ := Option.map_eq_some_iff.mp hreader
  have hreachable : Reachable tightConfig tightObject s := by
    have hprobe : contentRange 206 (some "bytes 0-0/3".toList) = .ok (0,0,3) := by decide +kernel
    have hchunk : contentRange 206 (some "bytes 0-1/3".toList) = .ok (0,1,3) := by decide +kernel
    refine Reachable.new.run ?_ hs
    simp only [tightRun,List.forall_mem_cons]
    exact ⟨honest_of_range false hprobe rfl,trivial,trivial,trivial,
      honest_of_range false hchunk rfl,trivial,trivial,trivial,trivial,nofun⟩
  exact ⟨s,r,hreachable,hqueue,hr,hposition,hreachable.correct⟩

end Jetstreamer.Firehose.Prefetch
