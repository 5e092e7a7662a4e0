import Jetstreamer.Firehose.Dataframes
import Jetstreamer.Lib.Iteration
set_option autoImplicit false

namespace Jetstreamer.Firehose.Car
open Lib

variable {Cid Other : Type}

namespace NodesWithCids

variable (self : NodesWithCids Cid Other)

/-! The links as they stand in the collection, apart from the loop that follows them. -/

def frameAt (cid : Cid) : Option (DataFrame Cid) :=
  self.getByCid cid >>= fun node => node.node.getDataframe

/-- The frames a next-list names, up to the first that is not there. -/
def framesOf : List Cid → List (DataFrame Cid)
  | [] => []
  | cid :: rest => match self.frameAt cid with
    | none => []
    | some frame => frame :: framesOf rest

def follow (cids : List Cid) : Option (List Cid) :=
  if (self.framesOf cids).length = cids.length then
    (self.framesOf cids).getLast?.bind DataFrame.next
  else none

def frameBytes (frames : List (DataFrame Cid)) : Nat := (frames.map (·.data.length)).sum

/-- The bytes of the frames that a next-list and the `n-1` that follow it name, a frame counted
as often as it is named. -/
def linkedBytes : Nat → List Cid → Nat
  | 0, _ => 0
  | n+1, cids => frameBytes (self.framesOf cids) + match self.follow cids with
    | none => 0
    | some next => linkedBytes n next

def dataBytes : Nat :=
  (self.nodes.map fun node => (node.node.getDataframe.map (·.data.length)).getD 0).sum

/-- The loops of the reassembly between two frames: the bytes so far, the CIDs of the segment
that are still to come, and the links of the frame before them. -/
structure LoopState (Cid : Type) where
  data : Bytes
  pending : List Cid
  nextSegment : Option (List Cid)

def LoopState.start (firstDataframe : DataFrame Cid) : LoopState Cid :=
  ⟨firstDataframe.data,[],firstDataframe.next⟩

/-- One frame, or the start of the next segment. Nothing follows the end or an error. -/
def advance (state : LoopState Cid) : Option (LoopState Cid) :=
  match state.pending with
  | cid :: rest =>
    match self.appendFrame (state.data,state.nextSegment) cid with
    | .error _ => none
    | .ok (data,nextSegment) => some ⟨data,rest,nextSegment⟩
  | [] => state.nextSegment.map fun cids => ⟨state.data,cids,none⟩

variable {self}

variable {cid : Cid} {frame : DataFrame Cid} {rest : List Cid}

theorem appendFrame_frameAt (h : self.frameAt cid = some frame)
    (state : Bytes × Option (List Cid)) :
    self.appendFrame state cid = .ok (state.1 ++ frame.data,frame.next) := by
  unfold frameAt at h
  obtain ⟨node,hnode,hframe⟩ := Option.bind_eq_some_iff.mp h
  simp only [appendFrame,hnode,hframe]

theorem appendFrame_frameAt_none (h : self.frameAt cid = none)
    (state : Bytes × Option (List Cid)) : ∃ err, self.appendFrame state cid = .error err := by
  unfold frameAt at h
  cases hnode : self.getByCid cid with
  | none => exact ⟨.missingCid cid,by simp only [appendFrame,hnode]⟩
  | some node =>
    simp only [hnode,Option.bind_eq_bind,Option.bind_some] at h
    exact ⟨.expectedDataFrame node.node,by simp only [appendFrame,hnode,h]⟩

theorem framesOf_cons (h : self.frameAt cid = some frame)
    (rest : List Cid) : self.framesOf (cid :: rest) = frame :: self.framesOf rest := by
  simp [framesOf,h]

theorem framesOf_cons_none (h : self.frameAt cid = none) (rest : List Cid) :
    self.framesOf (cid :: rest) = [] := by
  simp [framesOf,h]

/-- Where a segment whose last links were `nextSegment` leads once `cids` are done. -/
def leadsTo (self : NodesWithCids Cid Other) (cids : List Cid) (nextSegment : Option (List Cid)) :
    Option (List Cid) :=
  if (self.framesOf cids).length = cids.length then
    ((self.framesOf cids).getLast?.map DataFrame.next).getD nextSegment
  else none

@[simp] theorem leadsTo_nil (nextSegment : Option (List Cid)) :
    self.leadsTo [] nextSegment = nextSegment := rfl

theorem leadsTo_none (cids : List Cid) : self.leadsTo cids none = self.follow cids := by
  unfold leadsTo follow
  cases (self.framesOf cids).getLast? <;> rfl

theorem leadsTo_cons (h : self.frameAt cid = some frame)
    (rest : List Cid) (nextSegment : Option (List Cid)) :
    self.leadsTo (cid :: rest) nextSegment = self.leadsTo rest frame.next := by
  unfold leadsTo
  simp only [framesOf_cons h,List.length_cons,Nat.add_right_cancel_iff,List.getLast?_cons]
  cases (self.framesOf rest).getLast? <;> rfl

theorem leadsTo_cons_none (h : self.frameAt cid = none) (rest : List Cid)
    (nextSegment : Option (List Cid)) : self.leadsTo (cid :: rest) nextSegment = none := by
  simp [leadsTo,framesOf_cons_none h]

theorem foldlM_appendFrame (self : NodesWithCids Cid Other) (cids : List Cid) (data : Bytes)
    (nextSegment : Option (List Cid)) :
    (∃ out, cids.foldlM self.appendFrame (data,nextSegment) =
        .ok (out,self.leadsTo cids nextSegment)) ∨
      (self.leadsTo cids nextSegment = none ∧
        ∃ err, cids.foldlM self.appendFrame (data,nextSegment) = .error err) := by
  induction cids generalizing data nextSegment with
  | nil => exact .inl ⟨data,rfl⟩
  | cons cid rest ih =>
    rw [List.foldlM_cons]
    cases hframe : self.frameAt cid with
    | none =>
      obtain ⟨err,herr⟩ := appendFrame_frameAt_none hframe (data,nextSegment)
      exact .inr ⟨leadsTo_cons_none hframe rest nextSegment,err,by rw [herr]; rfl⟩
    | some frame =>
      rw [appendFrame_frameAt hframe,ok_bind,leadsTo_cons hframe]
      exact ih (data ++ frame.data) frame.next

theorem appendSegments_isSome_iff (data : Bytes) (cids : List Cid) :
    (∃ fuel, (self.appendSegments fuel data (some cids)).isSome) ↔ Stops self.follow cids := by
  constructor
  · rintro ⟨fuel,h⟩
    induction fuel generalizing data cids with
    | zero => cases h
    | succ fuel ih =>
      cases hfollow : self.follow cids with
      | none => exact stops_of_none hfollow
      | some next =>
        rcases foldlM_appendFrame self cids data none with ⟨out,hout⟩ | ⟨hnone,-⟩
        · rw [leadsTo_none,hfollow] at hout
          simp only [appendSegments,hout] at h
          exact (stops_iff_of_some hfollow).mpr (ih out next h)
        · rw [leadsTo_none,hfollow] at hnone
          cases hnone
  · rintro ⟨n,hn⟩
    induction n generalizing data cids with
    | zero => cases hn
    | succ n ih =>
      rcases foldlM_appendFrame self cids data none with ⟨out,hout⟩ | ⟨-,err,herr⟩
      · rw [leadsTo_none] at hout
        cases hfollow : self.follow cids with
        | none =>
          rw [hfollow] at hout
          exact ⟨1,by simp [appendSegments,hout]⟩
        | some next =>
          rw [hfollow] at hout
          rw [after_succ_some hfollow] at hn
          obtain ⟨fuel,hfuel⟩ := ih out next hn
          exact ⟨fuel+1,by simpa [appendSegments,hout] using hfuel⟩
      · exact ⟨1,by simp [appendSegments,herr]⟩

theorem reassembleDataframesBorrowed_ends_iff (sums : Checksums) (firstDataframe : DataFrame Cid) :
    (∃ fuel result, self.reassembleDataframesBorrowed sums fuel firstDataframe = some result) ↔
      Stops self.follow (firstDataframe.next.getD []) := by
  by_cases hnext : firstDataframe.next.getD [] = []
  · have hstops : Stops self.follow (firstDataframe.next.getD []) := by
      rw [hnext]
      exact stops_of_none rfl
    refine iff_of_true ⟨0,?_⟩ hstops
    rw [reassembleDataframesBorrowed,if_pos hnext]
    exact ⟨_,rfl⟩
  · obtain ⟨cids,hcids⟩ : ∃ cids, firstDataframe.next = some cids := by
      cases h : firstDataframe.next with
      | none => simp [h] at hnext
      | some cids => exact ⟨cids,rfl⟩
    rw [hcids,Option.getD_some,← appendSegments_isSome_iff firstDataframe.data cids]
    rw [hcids,Option.getD_some] at hnext
    refine exists_congr fun fuel => ?_
    rw [Option.isSome_iff_exists]
    simp only [reassembleDataframesBorrowed,hcids,Option.getD_some,hnext,if_false]
    cases self.appendSegments fuel firstDataframe.data (some cids) <;> simp

variable {state : LoopState Cid}

theorem advance_cons (hpending : state.pending = cid :: rest) (h : self.frameAt cid = some frame) :
    self.advance state = some ⟨state.data ++ frame.data,rest,frame.next⟩ := by
  simp only [advance,hpending,appendFrame_frameAt h]

theorem advance_cons_none (hpending : state.pending = cid :: rest) (h : self.frameAt cid = none) :
    self.advance state = none := by
  obtain ⟨err,herr⟩ := appendFrame_frameAt_none h (state.data,state.nextSegment)
  simp only [advance,hpending,herr]

theorem advance_nil (hpending : state.pending = []) :
    self.advance state = state.nextSegment.map fun cids => ⟨state.data,cids,none⟩ := by
  simp only [advance,hpending]

theorem after_advance_pending {cids : List Cid} {data out : Bytes}
    {nextSegment last : Option (List Cid)}
    (h : cids.foldlM self.appendFrame (data,nextSegment) = .ok (out,last)) :
    after self.advance cids.length ⟨data,cids,nextSegment⟩ = some ⟨out,[],last⟩ := by
  induction cids generalizing data nextSegment with
  | nil =>
    cases h
    rfl
  | cons cid rest ih =>
    rw [List.foldlM_cons] at h
    obtain ⟨⟨middle,links⟩,hfirst,hrest⟩ := bind_ok h
    have hstep : self.advance ⟨data,cid :: rest,nextSegment⟩ = some ⟨middle,rest,links⟩ := by
      simp only [advance,hfirst]
    rw [List.length_cons,after_succ_some hstep]
    exact ih hrest

theorem after_advance_of_appendSegments {fuel : Nat} {data out : Bytes} {next : Option (List Cid)}
    (h : self.appendSegments fuel data next = some (.ok out)) :
    ∃ n, after self.advance n ⟨data,[],next⟩ = some ⟨out,[],none⟩ := by
  induction fuel generalizing data next with
  | zero =>
    cases next with
    | none =>
      cases h
      exact ⟨0,rfl⟩
    | some cids => cases h
  | succ fuel ih =>
    cases next with
    | none =>
      cases h
      exact ⟨0,rfl⟩
    | some cids =>
      cases hfold : cids.foldlM self.appendFrame (data,none) with
      | error err =>
        simp only [appendSegments,hfold] at h
        cases h
      | ok result =>
        simp only [appendSegments,hfold] at h
        obtain ⟨n,hn⟩ := ih h
        refine ⟨cids.length + n + 1,?_⟩
        rw [after_succ_some (advance_nil rfl),after_add,after_advance_pending hfold]
        exact hn

/-- The bytes still to come from a state, `n` more segments counted. -/
def ahead (self : NodesWithCids Cid Other) (n : Nat) (state : LoopState Cid) : Nat :=
  frameBytes (self.framesOf state.pending) +
    match self.leadsTo state.pending state.nextSegment with
    | none => 0
    | some cids => self.linkedBytes n cids

theorem ahead_cons
    (hpending : state.pending = cid :: rest) (h : self.frameAt cid = some frame) (n : Nat) :
    self.ahead n state =
      frame.data.length + self.ahead n ⟨state.data ++ frame.data,rest,frame.next⟩ := by
  simp only [ahead,hpending,framesOf_cons h,leadsTo_cons h,frameBytes,List.map_cons,List.sum_cons]
  omega

theorem ahead_cons_none
    (hpending : state.pending = cid :: rest) (h : self.frameAt cid = none) (n : Nat) :
    self.ahead n state = 0 := by
  simp [ahead,hpending,framesOf_cons_none h,leadsTo_cons_none h,frameBytes]

theorem ahead_nil {cids : List Cid} (hpending : state.pending = [])
    (hnext : state.nextSegment = some cids) (n : Nat) :
    self.ahead (n+1) state = self.ahead n ⟨state.data,cids,none⟩ := by
  simp only [ahead,hpending,hnext,framesOf,leadsTo_nil,leadsTo_none,linkedBytes,frameBytes,
    List.map_nil,List.sum_nil,Nat.zero_add]

theorem advance_ahead {next : LoopState Cid} (h : self.advance state = some next) (n : Nat) :
    ∃ m, next.data.length + self.ahead n next = state.data.length + self.ahead m state := by
  cases hpending : state.pending with
  | nil =>
    rw [advance_nil hpending] at h
    obtain ⟨cids,hcids,rfl⟩ := Option.map_eq_some_iff.mp h
    exact ⟨n+1,by rw [ahead_nil hpending hcids]⟩
  | cons cid rest =>
    cases hframe : self.frameAt cid with
    | none =>
      rw [advance_cons_none hpending hframe] at h
      cases h
    | some frame =>
      rw [advance_cons hpending hframe] at h
      cases h
      refine ⟨n,?_⟩
      rw [ahead_cons hpending hframe,List.length_append]
      omega

theorem after_advance_le {n : Nat} {reached : LoopState Cid}
    (h : after self.advance n state = some reached) :
    ∃ m, reached.data.length ≤ state.data.length + self.ahead m state := by
  induction n generalizing state with
  | zero =>
    cases h
    exact ⟨0,Nat.le_add_right _ _⟩
  | succ n ih =>
    cases hstep : self.advance state with
    | none =>
      rw [after_succ_none hstep] at h
      cases h
    | some next =>
      rw [after_succ_some hstep] at h
      obtain ⟨m,hm⟩ := ih h
      obtain ⟨k,hk⟩ := advance_ahead hstep m
      exact ⟨k,by omega⟩

theorem exists_after_pending {n : Nat}
    (hbase : ∀ data nextSegment, ∃ k reached,
      after self.advance k ⟨data,[],nextSegment⟩ = some reached ∧
        reached.data.length = data.length + self.ahead n ⟨data,[],nextSegment⟩)
    (data : Bytes) (pending : List Cid) (nextSegment : Option (List Cid)) :
    ∃ k reached, after self.advance k ⟨data,pending,nextSegment⟩ = some reached ∧
      reached.data.length = data.length + self.ahead n ⟨data,pending,nextSegment⟩ := by
  induction pending generalizing data nextSegment with
  | nil => exact hbase data nextSegment
  | cons cid rest ih =>
    cases hframe : self.frameAt cid with
    | none => exact ⟨0,_,rfl,by rw [ahead_cons_none rfl hframe,Nat.add_zero]⟩
    | some frame =>
      obtain ⟨k,reached,hk,hlen⟩ := ih (data ++ frame.data) frame.next
      refine ⟨k+1,reached,?_,?_⟩
      · rw [after_succ_some (advance_cons rfl hframe)]
        exact hk
      · rw [ahead_cons rfl hframe,hlen,List.length_append,Nat.add_assoc]

theorem exists_after_advance (self : NodesWithCids Cid Other) (n : Nat) (data : Bytes)
    (pending : List Cid) (nextSegment : Option (List Cid)) :
    ∃ k reached, after self.advance k ⟨data,pending,nextSegment⟩ = some reached ∧
      reached.data.length = data.length + self.ahead n ⟨data,pending,nextSegment⟩ := by
  induction n generalizing data pending nextSegment with
  | zero =>
    refine exists_after_pending (fun data nextSegment => ⟨0,_,rfl,?_⟩) data pending nextSegment
    cases nextSegment <;> simp [ahead,framesOf,frameBytes,linkedBytes]
  | succ n ih =>
    refine exists_after_pending (fun data nextSegment => ?_) data pending nextSegment
    cases nextSegment with
    | none => exact ⟨0,_,rfl,by simp [ahead,framesOf,frameBytes]⟩
    | some cids =>
      obtain ⟨k,reached,hk,hlen⟩ := ih data cids none
      exact ⟨k+1,reached,hk,by rw [ahead_nil rfl rfl]; exact hlen⟩

theorem ahead_start (self : NodesWithCids Cid Other) (n : Nat) (firstDataframe : DataFrame Cid) :
    self.ahead n (.start firstDataframe) = self.linkedBytes n (firstDataframe.next.getD []) := by
  cases hnext : firstDataframe.next with
  | none => cases n <;> simp [ahead,LoopState.start,hnext,framesOf,frameBytes,linkedBytes,follow]
  | some cids => simp [ahead,LoopState.start,hnext,framesOf,frameBytes]

theorem exists_node_of_mem_framesOf {cids : List Cid} (h : frame ∈ self.framesOf cids) :
    ∃ node ∈ self.nodes, node.node.getDataframe = some frame := by
  induction cids with
  | nil => cases h
  | cons cid rest ih =>
    cases hframe : self.frameAt cid with
    | none =>
      rw [framesOf_cons_none hframe] at h
      cases h
    | some first =>
      rw [framesOf_cons hframe] at h
      rcases List.mem_cons.mp h with rfl | h
      · obtain ⟨node,hnode,hdata⟩ := Option.bind_eq_some_iff.mp hframe
        exact ⟨node,(getByCid_some hnode).1,hdata⟩
      · exact ih h

theorem follow_finite : {links | ∃ cids, self.follow cids = some links}.Finite := by
  have hnexts := (self.nodes.filterMap fun node =>
    node.node.getDataframe.bind DataFrame.next).finite_toSet
  refine hnexts.subset ?_
  rintro links ⟨cids,h⟩
  unfold follow at h
  split at h
  · obtain ⟨frame,hlast,hnext⟩ := Option.bind_eq_some_iff.mp h
    obtain ⟨node,hmem,hframe⟩ := exists_node_of_mem_framesOf (List.mem_of_getLast? hlast)
    exact List.mem_filterMap.mpr ⟨node,hmem,by rw [hframe]; exact hnext⟩
  · cases h

/-- Reassembly comes to an end and never holds more bytes than there are in the first frame and
the collection. -/
def Bounded (self : NodesWithCids Cid Other) (sums : Checksums) (firstDataframe : DataFrame Cid) :
    Prop :=
  (∃ fuel result, self.reassembleDataframesBorrowed sums fuel firstDataframe = some result) ∧
    ∀ n state, after self.advance n (.start firstDataframe) = some state →
      state.data.length ≤ firstDataframe.data.length + self.dataBytes

/-- Reassembly is bounded exactly when no next-list leads back to itself and the frames named on
the way, counted as often as they are named, have no more bytes than the collection. -/
theorem bounded_iff (sums : Checksums) (self : NodesWithCids Cid Other)
    (firstDataframe : DataFrame Cid) :
    self.Bounded sums firstDataframe ↔
      (¬∃ links, Reaches self.follow (firstDataframe.next.getD []) links ∧
        Returns self.follow links) ∧
      ∀ n, self.linkedBytes n (firstDataframe.next.getD []) ≤ self.dataBytes := by
  unfold Bounded
  rw [reassembleDataframesBorrowed_ends_iff,stops_iff_not_returns follow_finite]
  refine and_congr_right fun _ => ?_
  constructor
  · intro h n
    obtain ⟨k,reached,hk,hlen⟩ := exists_after_advance self n firstDataframe.data []
      firstDataframe.next
    have hle := h k reached hk
    have hstart := ahead_start self n firstDataframe
    rw [LoopState.start] at hstart
    omega
  · intro h n state hstate
    obtain ⟨m,hm⟩ := after_advance_le hstate
    have hbound := h m
    rw [ahead_start] at hm
    exact le_trans hm (Nat.add_le_add_left hbound _)

def circularNodes : NodesWithCids Nat Unit :=
  new.push ⟨1,.dataFrame ⟨6,none,none,none,[7],some [1]⟩⟩

def circularFirst : DataFrame Nat := ⟨6,none,none,none,[],some [1]⟩

theorem not_bounded_circularNodes : ¬circularNodes.Bounded byLength circularFirst := by
  rintro ⟨hends,-⟩
  rw [reassembleDataframesBorrowed_ends_iff,stops_iff_not_returns follow_finite] at hends
  exact hends ⟨[1],⟨0,rfl⟩,0,by decide⟩

end NodesWithCids

end Jetstreamer.Firehose.Car
