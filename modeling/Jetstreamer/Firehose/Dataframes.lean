import Jetstreamer.Lib.Codec
import Jetstreamer.Lib.Runs
set_option autoImplicit false

namespace Jetstreamer.Firehose.Car
open Lib

structure DataFrame (Cid : Type) where
  kind : UInt64
  hash : Option UInt64
  index : Option UInt64
  total : Option UInt64
  data : Bytes
  next : Option (List Cid)
  deriving DecidableEq

/-- A decoded node; the six kinds that are not dataframes are kept as they were decoded. -/
inductive Node (Cid Other : Type) where
  | dataFrame (dataframe : DataFrame Cid)
  | other (node : Other)
  deriving DecidableEq

structure NodeWithCid (Cid Other : Type) where
  cid : Cid
  node : Node Cid Other
  deriving DecidableEq

variable {Cid Other : Type}

def Node.getDataframe : Node Cid Other → Option (DataFrame Cid)
  | .dataFrame dataframe => some dataframe
  | .other _ => none

/-- The nodes in arrival order and the position last pushed under each CID. -/
structure NodesWithCids (Cid Other : Type) where
  nodes : List (NodeWithCid Cid Other)
  positions : Cid → Option Nat
  sound : ∀ cid index, positions cid = some index →
    ∃ node, nodes[index]? = some node ∧ node.cid = cid
  complete : ∀ node ∈ nodes, positions node.cid ≠ none

namespace NodesWithCids

def new : NodesWithCids Cid Other where
  nodes := []
  positions := fun _ => none
  sound := by
    intro cid index h
    cases h
  complete := by simp

section

variable [DecidableEq Cid]

def push (self : NodesWithCids Cid Other) (pushed : NodeWithCid Cid Other) :
    NodesWithCids Cid Other where
  nodes := self.nodes ++ [pushed]
  positions := fun cid => if cid = pushed.cid then some self.nodes.length else self.positions cid
  sound := by
    intro cid index h
    split at h
    · rename_i hcid
      cases h
      exact ⟨pushed,by simp,hcid.symm⟩
    · obtain ⟨node,hget,hcid⟩ := self.sound cid index h
      have hlt := (List.getElem?_eq_some_iff.mp hget).1
      exact ⟨node,by rw [List.getElem?_append_left hlt,hget],hcid⟩
  complete := by
    intro node hmem
    split
    · simp
    · rename_i hne
      rcases List.mem_append.mp hmem with hmem | hmem
      · exact self.complete node hmem
      · exact absurd (congrArg NodeWithCid.cid (List.mem_singleton.mp hmem)) hne

end

def getByCid (self : NodesWithCids Cid Other) (cid : Cid) : Option (NodeWithCid Cid Other) :=
  self.positions cid >>= fun index => self.nodes[index]?

variable {self : NodesWithCids Cid Other}

theorem getByCid_some {cid : Cid} {node : NodeWithCid Cid Other}
    (h : self.getByCid cid = some node) : node ∈ self.nodes ∧ node.cid = cid := by
  cases hpos : self.positions cid with
  | none => simp [getByCid,hpos] at h
  | some index =>
    obtain ⟨found,hget,hcid⟩ := self.sound cid index hpos
    simp only [getByCid,hpos,Option.bind_eq_bind,Option.bind_some,hget] at h
    cases h
    exact ⟨List.mem_of_getElem? hget,hcid⟩

theorem getByCid_of_mem {node : NodeWithCid Cid Other} (hmem : node ∈ self.nodes)
    (halone : ∀ other ∈ self.nodes, other.cid = node.cid → other = node) :
    self.getByCid node.cid = some node := by
  cases hpos : self.positions node.cid with
  | none => exact absurd hpos (self.complete node hmem)
  | some index =>
    obtain ⟨found,hget,hcid⟩ := self.sound node.cid index hpos
    have hsame := halone found (List.mem_of_getElem? hget) hcid
    simp only [getByCid,hpos,Option.bind_eq_bind,Option.bind_some,hget,hsame]

end NodesWithCids

structure Checksums where
  crc64 : Bytes → UInt64
  fnv : Bytes → UInt64

inductive ReassemblyError (Cid Other : Type) where
  | missingCid (cid : Cid)
  | expectedDataFrame (node : Node Cid Other)
  | dataHashMismatch (wanted crc64 fnv : UInt64)
  deriving DecidableEq

/-- A complete frame's bytes are borrowed, those of a continued one are owned. -/
inductive Cow where
  | borrowed (data : Bytes)
  | owned (data : Bytes)
  deriving DecidableEq

def Cow.intoOwned : Cow → Bytes
  | .borrowed data => data
  | .owned data => data

def verifyHash (sums : Checksums) (data : Bytes) (hash : UInt64) :
    Except (ReassemblyError Cid Other) Unit :=
  let crc64 := sums.crc64 data
  if crc64 ≠ hash then
    let fnv := sums.fnv data
    if fnv ≠ hash then .error (.dataHashMismatch hash crc64 fnv) else .ok ()
  else .ok ()

def verifyWanted (sums : Checksums) (data : Bytes) :
    Option UInt64 → Except (ReassemblyError Cid Other) Unit
  | some wantedHash => verifyHash sums data wantedHash
  | none => .ok ()

namespace NodesWithCids

/-- One round of the inner loop: the frame's bytes are appended, and its own links replace those
of the frame before it. -/
def appendFrame (self : NodesWithCids Cid Other) (state : Bytes × Option (List Cid))
    (nextCid : Cid) : Except (ReassemblyError Cid Other) (Bytes × Option (List Cid)) :=
  match self.getByCid nextCid with
  | none => .error (.missingCid nextCid)
  | some nextNode =>
    match nextNode.node.getDataframe with
    | none => .error (.expectedDataFrame nextNode.node)
    | some nextDataframe => .ok (state.1 ++ nextDataframe.data,nextDataframe.next)

/-- The outer loop. Nothing in the source bounds it: frames that link back to themselves keep it
going, so running out of fuel is `none`. -/
def appendSegments (self : NodesWithCids Cid Other) :
    Nat → Bytes → Option (List Cid) → Option (Except (ReassemblyError Cid Other) Bytes)
  | _, data, none => some (.ok data)
  | 0, _, some _ => none
  | fuel+1, data, some nextCids =>
    match nextCids.foldlM self.appendFrame (data,none) with
    | .error err => some (.error err)
    | .ok (data,nextSegment) => self.appendSegments fuel data nextSegment

def reassembleDataframesBorrowed (sums : Checksums) (self : NodesWithCids Cid Other) (fuel : Nat)
    (firstDataframe : DataFrame Cid) : Option (Except (ReassemblyError Cid Other) Cow) :=
  if firstDataframe.next.getD [] = [] then
    some (do
      verifyWanted sums firstDataframe.data firstDataframe.hash
      return .borrowed firstDataframe.data)
  else do
    let appended ← self.appendSegments fuel firstDataframe.data firstDataframe.next
    return (do
      let data ← appended
      verifyWanted sums data firstDataframe.hash
      return .owned data)

def reassembleDataframes (sums : Checksums) (self : NodesWithCids Cid Other) (fuel : Nat)
    (firstDataframe : DataFrame Cid) : Option (Except (ReassemblyError Cid Other) Bytes) :=
  (self.reassembleDataframesBorrowed sums fuel firstDataframe).map fun result =>
    result.map Cow.intoOwned

end NodesWithCids

structure Part (Cid : Type) where
  cid : Cid
  frame : DataFrame Cid
  deriving DecidableEq

/-- The segments a next-list leads to: it names the frames of the first one in order, and only the
last frame of a segment leads on. -/
def Linked : Option (List Cid) → List (List (Part Cid)) → Prop
  | next, [] => next.getD [] = []
  | next, segment :: rest => ∃ leading last, segment = leading ++ [last] ∧
      next = some (segment.map Part.cid) ∧
      (∀ part ∈ leading, part.frame.next.getD [] = []) ∧ Linked last.frame.next rest

def chunks (parts : List (Part Cid)) : Bytes := parts.flatMap fun part => part.frame.data

def payload (firstDataframe : DataFrame Cid) (segments : List (List (Part Cid))) : Bytes :=
  firstDataframe.data ++ chunks segments.flatten

@[simp] theorem chunks_nil : chunks ([] : List (Part Cid)) = [] := rfl

@[simp] theorem chunks_cons (part : Part Cid) (rest : List (Part Cid)) :
    chunks (part :: rest) = part.frame.data ++ chunks rest := rfl

@[simp] theorem chunks_append (leading rest : List (Part Cid)) :
    chunks (leading ++ rest) = chunks leading ++ chunks rest := by
  simp [chunks]

variable {next : Option (List Cid)} {segments : List (List (Part Cid))}

theorem Linked.eq_nil
    (h : Linked next segments) (hnext : next.getD [] = []) : segments = [] := by
  cases segments with
  | nil => rfl
  | cons segment rest =>
    obtain ⟨leading,last,rfl,rfl,-⟩ := h
    simp at hnext

def HashMatches (sums : Checksums) (wanted : Option UInt64) (data : Bytes) : Prop :=
  wanted = none ∨ wanted = some (sums.crc64 data) ∨ wanted = some (sums.fnv data)

instance (sums : Checksums) (wanted : Option UInt64) (data : Bytes) :
    Decidable (HashMatches sums wanted data) :=
  inferInstanceAs (Decidable (_ ∨ _ ∨ _))

theorem verifyWanted_of_matches {sums : Checksums} {wanted : Option UInt64} {data : Bytes}
    (h : HashMatches sums wanted data) :
    (verifyWanted sums data wanted : Except (ReassemblyError Cid Other) Unit) = .ok () := by
  rcases h with rfl | rfl | rfl
  · rfl
  · simp [verifyWanted,verifyHash]
  · simp [verifyWanted,verifyHash]

theorem verifyWanted_of_mismatch {sums : Checksums} {wanted : Option UInt64} {data : Bytes}
    (h : ¬HashMatches sums wanted data) :
    ∃ hash, wanted = some hash ∧
      (verifyWanted sums data wanted : Except (ReassemblyError Cid Other) Unit) =
        .error (.dataHashMismatch hash (sums.crc64 data) (sums.fnv data)) := by
  cases wanted with
  | none => exact absurd (.inl rfl) h
  | some hash =>
    have hcrc : sums.crc64 data ≠ hash := by
      rintro rfl
      exact h (.inr (.inl rfl))
    have hfnv : sums.fnv data ≠ hash := by
      rintro rfl
      exact h (.inr (.inr rfl))
    exact ⟨hash,rfl,by simp [verifyWanted,verifyHash,hcrc,hfnv]⟩

namespace NodesWithCids

variable {self : NodesWithCids Cid Other}

/-- The part is in the collection and nothing else is under its CID. -/
def Stored (self : NodesWithCids Cid Other) (part : Part Cid) : Prop :=
  ⟨part.cid,.dataFrame part.frame⟩ ∈ self.nodes ∧
    ∀ node ∈ self.nodes, node.cid = part.cid → node = ⟨part.cid,.dataFrame part.frame⟩

/-- No dataframe is under the CID: it is missing, or names a node of another kind. -/
def Unavailable (self : NodesWithCids Cid Other) (cid : Cid) : Prop :=
  ∀ node ∈ self.nodes, node.cid = cid → node.node.getDataframe = none

theorem appendFrame_stored {part : Part Cid} (h : self.Stored part)
    (state : Bytes × Option (List Cid)) :
    self.appendFrame state part.cid = .ok (state.1 ++ part.frame.data,part.frame.next) := by
  have hfound := getByCid_of_mem h.1 h.2
  simp only [appendFrame,hfound,Node.getDataframe]

theorem appendFrame_unavailable {cid : Cid} (h : self.Unavailable cid)
    (state : Bytes × Option (List Cid)) : ∃ err, self.appendFrame state cid = .error err := by
  cases hfound : self.getByCid cid with
  | none => exact ⟨.missingCid cid,by simp only [appendFrame,hfound]⟩
  | some node =>
    obtain ⟨hmem,hcid⟩ := getByCid_some hfound
    exact ⟨.expectedDataFrame node.node,by simp only [appendFrame,hfound,h node hmem hcid]⟩

theorem foldlM_stored {parts : List (Part Cid)} (h : ∀ part ∈ parts, self.Stored part)
    (state : Bytes × Option (List Cid)) :
    ∃ next, (parts.map Part.cid).foldlM self.appendFrame state =
      .ok (state.1 ++ chunks parts,next) := by
  induction parts generalizing state with
  | nil => exact ⟨state.2,by simp [pure,Except.pure]⟩
  | cons part rest ih =>
    obtain ⟨hpart,hrest⟩ := List.forall_mem_cons.mp h
    obtain ⟨next,htail⟩ := ih hrest (state.1 ++ part.frame.data,part.frame.next)
    refine ⟨next,?_⟩
    rw [List.map_cons,List.foldlM_cons,appendFrame_stored hpart,ok_bind,htail,chunks_cons,
      List.append_assoc]

theorem foldlM_segment {leading : List (Part Cid)} {last : Part Cid}
    (h : ∀ part ∈ leading ++ [last], self.Stored part) (state : Bytes × Option (List Cid)) :
    ((leading ++ [last]).map Part.cid).foldlM self.appendFrame state =
      .ok (state.1 ++ chunks (leading ++ [last]),last.frame.next) := by
  obtain ⟨hleading,hlast⟩ := List.forall_mem_append.mp h
  obtain ⟨next,hfold⟩ := foldlM_stored hleading state
  rw [List.map_append,List.map_singleton]
  refine foldlM_concat hfold ?_
  rw [appendFrame_stored (hlast last (List.mem_singleton_self last))]
  simp

theorem foldlM_unavailable {parts : List (Part Cid)}
    (h : ∀ part ∈ parts, self.Stored part ∨ self.Unavailable part.cid)
    (hgap : ∃ part ∈ parts, self.Unavailable part.cid) (state : Bytes × Option (List Cid)) :
    ∃ err, (parts.map Part.cid).foldlM self.appendFrame state = .error err := by
  induction parts generalizing state with
  | nil => simp at hgap
  | cons part rest ih =>
    obtain ⟨hpart,hrest⟩ := List.forall_mem_cons.mp h
    rw [List.map_cons,List.foldlM_cons]
    rcases hpart with hstored | hmissing
    · obtain ⟨missing,hmem,hmissing⟩ := hgap
      rw [appendFrame_stored hstored,ok_bind]
      rcases List.mem_cons.mp hmem with rfl | hmem
      · -- a stored frame is available
        have hnone := hmissing _ hstored.1 rfl
        cases hnone
      · exact ih hrest ⟨missing,hmem,hmissing⟩ _
    · obtain ⟨err,hfail⟩ := appendFrame_unavailable hmissing state
      exact ⟨err,by rw [hfail]; rfl⟩

theorem appendSegments_stored
    {fuel : Nat} (hlinked : Linked next segments) (hfuel : segments.length < fuel)
    (h : ∀ part ∈ segments.flatten, self.Stored part) (data : Bytes) :
    self.appendSegments fuel data next = some (.ok (data ++ chunks segments.flatten)) := by
  induction segments generalizing next fuel data with
  | nil =>
    obtain ⟨fuel,rfl⟩ := Nat.exists_eq_succ_of_ne_zero (Nat.ne_zero_of_lt hfuel)
    -- the last frame has no links, or an empty list of them that takes one more round
    cases next with
    | none => simp [appendSegments]
    | some nextCids =>
      have hnil : nextCids = [] := hlinked
      subst hnil
      simp [appendSegments,pure,Except.pure]
  | cons segment rest ih =>
    obtain ⟨fuel,rfl⟩ := Nat.exists_eq_succ_of_ne_zero (Nat.ne_zero_of_lt hfuel)
    obtain ⟨leading,last,rfl,rfl,-,hrest⟩ := hlinked
    rw [List.flatten_cons] at h
    obtain ⟨hsegment,htail⟩ := List.forall_mem_append.mp h
    have hlater := ih hrest (by simpa using hfuel) htail (data ++ chunks (leading ++ [last]))
    simp only [appendSegments,foldlM_segment hsegment]
    rw [hlater,List.flatten_cons,chunks_append (leading ++ [last]),List.append_assoc]

theorem appendSegments_unavailable {fuel : Nat} (hlinked : Linked next segments)
    (hfuel : segments.length < fuel)
    (h : ∀ part ∈ segments.flatten, self.Stored part ∨ self.Unavailable part.cid)
    (hgap : ∃ part ∈ segments.flatten, self.Unavailable part.cid) (data : Bytes) :
    ∃ err, self.appendSegments fuel data next = some (.error err) := by
  induction segments generalizing next fuel data with
  | nil => simp at hgap
  | cons segment rest ih =>
    obtain ⟨fuel,rfl⟩ := Nat.exists_eq_succ_of_ne_zero (Nat.ne_zero_of_lt hfuel)
    obtain ⟨leading,last,rfl,rfl,-,hrest⟩ := hlinked
    rw [List.flatten_cons] at h hgap
    obtain ⟨hsegment,htail⟩ := List.forall_mem_append.mp h
    by_cases hfirst : ∃ part ∈ leading ++ [last], self.Unavailable part.cid
    · obtain ⟨err,hfail⟩ := foldlM_unavailable hsegment hfirst (data,none)
      exact ⟨err,by simp only [appendSegments,hfail]⟩
    · have hstored : ∀ part ∈ leading ++ [last], self.Stored part := fun part hmem =>
        (hsegment part hmem).resolve_right fun hmissing => hfirst ⟨part,hmem,hmissing⟩
      obtain ⟨part,hmem,hmissing⟩ := hgap
      have hlater : part ∈ rest.flatten :=
        (List.mem_append.mp hmem).resolve_left fun hmem => hfirst ⟨part,hmem,hmissing⟩
      obtain ⟨err,hfail⟩ := ih hrest (by simpa using hfuel) htail ⟨part,hlater,hmissing⟩
        (data ++ chunks (leading ++ [last]))
      exact ⟨err,by simp only [appendSegments,foldlM_segment hstored,hfail]⟩

theorem reassembleDataframesBorrowed_stored (sums : Checksums) {firstDataframe : DataFrame Cid}
    {fuel : Nat}
    (hlinked : Linked firstDataframe.next segments) (hfuel : segments.length < fuel)
    (h : ∀ part ∈ segments.flatten, self.Stored part) :
    ∃ cow : Cow, cow.intoOwned = payload firstDataframe segments ∧
      self.reassembleDataframesBorrowed sums fuel firstDataframe = some (do
        verifyWanted sums (payload firstDataframe segments) firstDataframe.hash
        return cow) := by
  by_cases hnext : firstDataframe.next.getD [] = []
  · obtain rfl := hlinked.eq_nil hnext
    refine ⟨.borrowed firstDataframe.data,by simp [Cow.intoOwned,payload],?_⟩
    simp [reassembleDataframesBorrowed,hnext,payload]
  · refine ⟨.owned (payload firstDataframe segments),rfl,?_⟩
    have happended := appendSegments_stored hlinked hfuel h firstDataframe.data
    simp only [reassembleDataframesBorrowed,hnext,if_false,happended]
    rfl

/-- Reassembly gives the payload of frames linked segment by segment, or an error when the
payload does not have the wanted checksum or a linked frame is not there. -/
theorem reassembleDataframesBorrowed_correct (sums : Checksums) (self : NodesWithCids Cid Other)
    (firstDataframe : DataFrame Cid) (segments : List (List (Part Cid)))
    (hlinked : Linked firstDataframe.next segments) (fuel : Nat) (hfuel : segments.length < fuel) :
    ((∀ part ∈ segments.flatten, self.Stored part) →
      (HashMatches sums firstDataframe.hash (payload firstDataframe segments) →
        ∃ cow : Cow, cow.intoOwned = payload firstDataframe segments ∧
          self.reassembleDataframesBorrowed sums fuel firstDataframe = some (.ok cow)) ∧
      (¬HashMatches sums firstDataframe.hash (payload firstDataframe segments) →
        ∃ err, self.reassembleDataframesBorrowed sums fuel firstDataframe = some (.error err))) ∧
    ((∀ part ∈ segments.flatten, self.Stored part ∨ self.Unavailable part.cid) →
      (∃ part ∈ segments.flatten, self.Unavailable part.cid) →
        ∃ err, self.reassembleDataframesBorrowed sums fuel firstDataframe =
          some (.error err)) := by
  refine ⟨fun hstored => ?_,fun hparts hgap => ?_⟩
  · obtain ⟨cow,hcow,hresult⟩ := reassembleDataframesBorrowed_stored sums hlinked hfuel hstored
    refine ⟨fun hmatches => ⟨cow,hcow,?_⟩,fun hmismatch => ?_⟩
    · rw [hresult,verifyWanted_of_matches hmatches]
      rfl
    · obtain ⟨hash,-,hfail⟩ := verifyWanted_of_mismatch hmismatch
      exact ⟨_,by rw [hresult,hfail]; rfl⟩
  · obtain ⟨err,hfail⟩ := appendSegments_unavailable hlinked hfuel hparts hgap firstDataframe.data
    have hnext : firstDataframe.next.getD [] ≠ [] := by
      intro hnext
      obtain rfl := hlinked.eq_nil hnext
      simp at hgap
    refine ⟨err,?_⟩
    simp only [reassembleDataframesBorrowed,hnext,if_false,hfail]
    rfl

def smallParts : List (List (Part Nat)) :=
  [[⟨1,⟨6,none,none,none,[2],none⟩⟩,⟨2,⟨6,none,none,none,[3,4],some [3]⟩⟩],
    [⟨3,⟨6,none,none,none,[5],some []⟩⟩]]

def smallFirst : DataFrame Nat := ⟨6,some 5,none,some 4,[1],some [1,2]⟩

def smallNodes : NodesWithCids Nat Unit :=
  ((new.push ⟨3,.dataFrame ⟨6,none,none,none,[5],some []⟩⟩).push
    ⟨2,.dataFrame ⟨6,none,none,none,[3,4],some [3]⟩⟩).push
      ⟨1,.dataFrame ⟨6,none,none,none,[2],none⟩⟩

def byLength : Checksums := ⟨fun data => UInt64.ofNat data.length,fun _ => 0⟩

theorem linked_smallParts : Linked smallFirst.next smallParts :=
  ⟨[_],_,rfl,rfl,by simp,[],_,rfl,rfl,by simp,rfl⟩

theorem stored_smallParts : ∀ part ∈ smallParts.flatten, smallNodes.Stored part := by
  unfold Stored
  decide

theorem reassembleDataframesBorrowed_smallParts : ∃ cow : Cow, cow.intoOwned = [1,2,3,4,5] ∧
    smallNodes.reassembleDataframesBorrowed byLength 3 smallFirst = some (.ok cow) :=
  ((reassembleDataframesBorrowed_correct byLength smallNodes smallFirst smallParts
    linked_smallParts 3 (by decide)).1 stored_smallParts).1 (by decide)

end NodesWithCids

end Jetstreamer.Firehose.Car
