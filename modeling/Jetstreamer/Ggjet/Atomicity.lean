import Jetstreamer.Ggjet.RoundTrip
set_option autoImplicit false

namespace Jetstreamer.Ggjet
open Lib Lencode Horizon Archive

namespace GgjetWriter

/-- How a call ends and the writer it leaves behind. Nothing is said about a writer whose sink has
failed or whose program has stopped. -/
inductive Attempt where
  | done (w : GgjetWriter)
  | refused (err : GgjetError) (w : GgjetWriter)
  | broken (failure : GgjetFailure)

def Attempt.ofExcept : Except GgjetFailure GgjetWriter → Attempt
  | .ok w => .done w
  | .error failure => .broken failure

def Attempt.next (a : Attempt) (f : GgjetWriter → Attempt) : Attempt :=
  match a with
  | .done w => f w
  | .refused err w => .refused err w
  | .broken failure => .broken failure

section Attempts

variable (env : GgjetEnv)

def attemptCheckpoint (w : GgjetWriter) (account : Option CheckpointAccount) : Attempt :=
  if w.checkpointFinished ∨ w.header.accountCount ≤ w.stats.checkpointAccounts then
    .refused (.checkpointCount (w.stats.checkpointAccounts + 1) w.header.accountCount) w
  else .ofExcept (w.writeCheckpointAccount env account)

def attemptFinishCheckpoint (w : GgjetWriter) : Attempt :=
  if w.checkpointFinished then .done w
  else if w.stats.checkpointAccounts ≠ w.header.accountCount then
    .refused (.checkpointCount w.stats.checkpointAccounts w.header.accountCount) w
  else .ofExcept (w.finishCheckpoint env)

/-- The updates of a frame, one behind the other. The one whose account is unknown stops the loop,
and what the others have put into the bucket stays there. -/
def attemptUpdates (w : GgjetWriter) : List AccountUpdate → Attempt
  | [] => .done w
  | u :: rest =>
    match w.manifest.indexOf u.pubkey with
    | none => .refused (.accountNotInManifest u.pubkey) w
    | some _ =>
      match encodeUpdate env w.manifest u w.enc with
      | .error failure => .broken failure
      | .ok (bytes,enc) =>
        match extendBuf w.bucketBuf bytes with
        | .error failure => .broken failure
        | .ok bucketBuf => attemptUpdates { w with
            enc, bucketBuf
            stats := { w.stats with
              updateDataBytes := w.stats.updateDataBytes + UInt64.ofNat u.data.length } } rest

def countFrame (w : GgjetWriter) (count : UInt64) : GgjetWriter := { w with
  bucketSlotCount := w.bucketSlotCount + 1
  bucketUpdateCount := w.bucketUpdateCount + count
  stats := { w.stats with slots := w.stats.slots + 1, updates := w.stats.updates + count } }

def attemptFrame (w : GgjetWriter) (slot : UInt64) (updates : List AccountUpdate) : Attempt :=
  match (Put.all [encodeU64 slot,encodeLen updates.length] : Put GgjetFailure EncoderContext)
      w.enc with
  | .error failure => .broken failure
  | .ok (bytes,enc) =>
    match extendBuf w.bucketBuf bytes with
    | .error failure => .broken failure
    | .ok bucketBuf => (attemptUpdates env { w with enc, bucketBuf } updates).next fun w =>
        .done (w.countFrame (UInt64.ofNat updates.length))

def attemptBucket (w : GgjetWriter) (slot : UInt64) (updates : List AccountUpdate) : Attempt :=
  (Attempt.ofExcept (w.enterBucket env slot)).next fun w =>
    match firstDisorder (sortUpdates updates) with
    | some (previous,got) => .refused (.nonMonotonicWriteVersion slot previous got) w
    | none => w.attemptFrame env slot (sortUpdates updates)

def attemptSlot (w : GgjetWriter) (slot : UInt64) (updates : List AccountUpdate) : Attempt :=
  (w.attemptFinishCheckpoint env).next fun w =>
    match checkedAdd w.header.updateStartSlot w.stats.slots with
    | .error _ => .refused .rangeOverflow w
    | .ok expected =>
      if slot ≠ expected ∨ w.header.updateSlotCount ≤ w.stats.slots then
        .refused (.slotSequence slot expected) w
      else w.attemptBucket env slot updates

def attempt (w : GgjetWriter) : Call → Attempt
  | .checkpoint account => w.attemptCheckpoint env account
  | .finishCheckpoint => w.attemptFinishCheckpoint env
  | .slot slot updates => w.attemptSlot env slot updates

/-- The answers to some calls, none of which ends the run by being refused. -/
def attemptAll (w : GgjetWriter) :
    List Call → Except GgjetFailure (List (Option GgjetError) × GgjetWriter)
  | [] => .ok ([],w)
  | c :: rest =>
    match w.attempt env c with
    | .broken failure => .error failure
    | .done w => do
      let (answers,w) ← w.attemptAll rest
      return (none :: answers,w)
    | .refused err w => do
      let (answers,w) ← w.attemptAll rest
      return (some err :: answers,w)

def finishAfter (w : GgjetWriter) (calls : List Call) :
    Except GgjetFailure (List (Option GgjetError) × Bytes × GgjetStats) := do
  let (answers,w) ← w.attemptAll env calls
  let file ← w.finish env
  return (answers,file)

end Attempts

/-- An attempt ends as the call does that forgets the writer when it fails. -/
def Attempt.Agrees (a : Attempt) (x : Except GgjetFailure GgjetWriter) : Prop :=
  match a with
  | .done w => x = .ok w
  | .refused err _ => x = .error (.error err)
  | .broken _ => ∃ failure, x = .error failure

theorem Attempt.agrees_ofExcept (x : Except GgjetFailure GgjetWriter) :
    (Attempt.ofExcept x).Agrees x := by
  cases x with
  | ok w => rfl
  | error failure => exact ⟨failure,rfl⟩

theorem Attempt.Agrees.next {a : Attempt} {x : Except GgjetFailure GgjetWriter}
    {f : GgjetWriter → Attempt} {g : GgjetWriter → Except GgjetFailure GgjetWriter}
    (h : a.Agrees x) (hnext : ∀ w, (f w).Agrees (g w)) : (a.next f).Agrees (x >>= g) := by
  cases a with
  | done w =>
    cases h
    exact hnext w
  | refused err w =>
    cases h
    rfl
  | broken failure =>
    obtain ⟨failure',rfl⟩ := h
    exact ⟨failure',rfl⟩

variable {w' : GgjetWriter} {err : GgjetError}

theorem Attempt.refused_of_next {a : Attempt} {f : GgjetWriter → Attempt}
    (h : a.next f = .refused err w')
    (hlater : ∀ w, a = .done w → f w ≠ .refused err w') : ∃ w1, a = .refused err w1 := by
  cases a with
  | done w => exact absurd h (hlater w rfl)
  | refused err' w1 =>
    cases h
    exact ⟨w',rfl⟩
  | broken failure => cases h

section Agreement

variable {env : GgjetEnv}

theorem extendBuf_append {buf first rest middle : Bytes} (h : extendBuf buf first = .ok middle) :
    extendBuf middle rest = extendBuf buf (first ++ rest) := by
  unfold extendBuf at h
  split at h
  · cases h
    rw [extendBuf,extendBuf,List.append_assoc]
  · cases h

theorem extendBuf_append_error {buf first : Bytes} {failure : GgjetFailure}
    (h : extendBuf buf first = .error failure) (rest : Bytes) :
    extendBuf buf (first ++ rest) = .error .panics := by
  unfold extendBuf at h
  split at h
  · cases h
  · rename_i hlong
    refine if_neg fun hshort => hlong ?_
    simp only [List.length_append] at hshort ⊢
    omega

def appendUpdates (env : GgjetEnv) (w : GgjetWriter) (updates : List AccountUpdate) :
    Except GgjetFailure GgjetWriter := do
  let (bytes,enc) ← Put.each (encodeUpdate env w.manifest) updates w.enc
  let bucketBuf ← extendBuf w.bucketBuf bytes
  return { w with
    enc, bucketBuf
    stats := { w.stats with
      updateDataBytes := w.stats.updateDataBytes + UInt64.ofNat (dataLen updates) } }

variable {bytes : Bytes} {enc : EncoderContext}

theorem each_encodeUpdate_cons {m : AccountManifest} {u : AccountUpdate}
    {start : EncoderContext} (h : encodeUpdate env m u start = .ok (bytes,enc))
    (rest : List AccountUpdate) :
    Put.each (encodeUpdate env m) (u :: rest) start =
      (Put.each (encodeUpdate env m) rest enc).map fun others => (bytes ++ others.1,others.2) := by
  simp only [Put.each,List.map_cons,Put.all,h,ok_bind]
  cases Put.all (rest.map (encodeUpdate env m)) enc <;> rfl

theorem appendUpdates_cons {w : GgjetWriter} {u : AccountUpdate} {bucketBuf : Bytes}
    (henc : encodeUpdate env w.manifest u w.enc = .ok (bytes,enc))
    (hext : extendBuf w.bucketBuf bytes = .ok bucketBuf) (rest : List AccountUpdate) :
    appendUpdates env w (u :: rest) = appendUpdates env { w with
      enc, bucketBuf
      stats := { w.stats with
        updateDataBytes := w.stats.updateDataBytes + UInt64.ofNat u.data.length } } rest := by
  have hlen : UInt64.ofNat (dataLen (u :: rest)) =
      UInt64.ofNat u.data.length + UInt64.ofNat (dataLen rest) := by
    simp [dataLen]
  unfold appendUpdates
  rw [each_encodeUpdate_cons henc]
  cases Put.each (encodeUpdate env w.manifest) rest enc with
  | error failure => rfl
  | ok others => simp only [Except.map,ok_bind,extendBuf_append hext,hlen,UInt64.add_assoc]

theorem appendUpdates_too_long {w : GgjetWriter} {u : AccountUpdate} {failure : GgjetFailure}
    (henc : encodeUpdate env w.manifest u w.enc = .ok (bytes,enc))
    (hext : extendBuf w.bucketBuf bytes = .error failure) (rest : List AccountUpdate) :
    ∃ failure, appendUpdates env w (u :: rest) = .error failure := by
  unfold appendUpdates
  rw [each_encodeUpdate_cons henc]
  cases Put.each (encodeUpdate env w.manifest) rest enc with
  | error failure => exact ⟨failure,rfl⟩
  | ok others =>
    refine ⟨.panics,?_⟩
    simp only [Except.map,ok_bind,extendBuf_append_error hext]
    rfl

theorem extendBuf_length {buf out : Bytes} (h : extendBuf buf bytes = .ok out) :
    out.length < 2 ^ 63 := by
  unfold extendBuf at h
  split at h
  · rename_i hlen
    cases h
    exact hlen
  · cases h

theorem attemptUpdates_agrees (w : GgjetWriter) (updates : List AccountUpdate)
    (hbuf : w.bucketBuf.length < 2 ^ 63) :
    (w.attemptUpdates env updates).Agrees (appendUpdates env w updates) := by
  induction updates generalizing w with
  | nil =>
    have hsame : extendBuf w.bucketBuf [] = .ok w.bucketBuf := by
      rw [extendBuf,List.append_nil,if_pos hbuf]
    simp [attemptUpdates,Attempt.Agrees,appendUpdates,Put.each,hsame,dataLen]
  | cons u rest ih =>
    cases hindex : w.manifest.indexOf u.pubkey with
    | none =>
      simp only [attemptUpdates,hindex,Attempt.Agrees,appendUpdates,Put.each,List.map_cons,Put.all,
        encodeUpdate]
      rfl
    | some ordinal =>
      cases henc : encodeUpdate env w.manifest u w.enc with
      | error failure =>
        simp only [attemptUpdates,hindex,henc,Attempt.Agrees,appendUpdates,Put.each,List.map_cons,
          Put.all]
        exact ⟨failure,rfl⟩
      | ok written =>
        cases hext : extendBuf w.bucketBuf written.1 with
        | error failure =>
          simp only [attemptUpdates,hindex,henc,hext]
          exact appendUpdates_too_long henc hext rest
        | ok bucketBuf =>
          simp only [attemptUpdates,hindex,henc,hext]
          rw [appendUpdates_cons henc hext]
          exact ih _ (extendBuf_length hext)

theorem encodeSlot_eq (m : AccountManifest) (slot : UInt64) (updates : List AccountUpdate)
    (enc : EncoderContext) : encodeSlot env m slot updates enc =
      ((Put.all [encodeU64 slot,encodeLen updates.length] : Put GgjetFailure EncoderContext) enc >>=
        fun front => (Put.each (encodeUpdate env m) updates front.2).map
          fun others => (front.1 ++ others.1,others.2)) := by
  change Put.all ([encodeU64 slot,encodeLen updates.length] ++
    [Put.each (encodeUpdate env m) updates]) enc = _
  rw [Put.all_append,Put.all_single]

theorem attemptFrame_agrees (w : GgjetWriter) (slot : UInt64) (updates : List AccountUpdate) :
    (w.attemptFrame env slot updates).Agrees (w.appendSlot env slot updates) := by
  unfold attemptFrame appendSlot
  rw [encodeSlot_eq]
  cases (Put.all [encodeU64 slot,encodeLen updates.length] : Put GgjetFailure EncoderContext)
      w.enc with
  | error failure => exact ⟨failure,rfl⟩
  | ok front =>
    cases hext : extendBuf w.bucketBuf front.1 with
    | error failure =>
      simp only [ok_bind,hext,Attempt.Agrees]
      cases Put.each (encodeUpdate env w.manifest) updates front.2 with
      | error failure => exact ⟨failure,rfl⟩
      | ok others =>
        simp only [Except.map,ok_bind,extendBuf_append_error hext]
        exact ⟨.panics,rfl⟩
    | ok bucketBuf =>
      let middle : GgjetWriter := { w with enc := front.2, bucketBuf }
      have hupdates : (middle.attemptUpdates env updates).Agrees
          (appendUpdates env middle updates) :=
        attemptUpdates_agrees middle updates (extendBuf_length hext)
      have hframe := hupdates.next (f := fun w =>
          .done (w.countFrame (UInt64.ofNat updates.length)))
        (g := fun w => .ok (w.countFrame (UInt64.ofNat updates.length))) fun _ => rfl
      simp only [ok_bind,hext]
      convert hframe using 1
      simp only [appendUpdates,middle]
      cases Put.each (encodeUpdate env w.manifest) updates front.2 with
      | error failure => rfl
      | ok others =>
        simp only [Except.map,ok_bind,← extendBuf_append hext]
        cases extendBuf bucketBuf others.1 <;> rfl

theorem attemptFinishCheckpoint_agrees (w : GgjetWriter) :
    (w.attemptFinishCheckpoint env).Agrees (w.finishCheckpoint env) := by
  unfold attemptFinishCheckpoint
  split
  · rename_i hfinished
    rw [finishCheckpoint,if_pos hfinished]
    rfl
  · rename_i hopen
    split
    · rename_i hcount
      rw [finishCheckpoint,if_neg hopen,if_pos hcount]
      rfl
    · exact Attempt.agrees_ofExcept _

theorem attempt_agrees (w : GgjetWriter) (c : Call) : (w.attempt env c).Agrees (call env w c) := by
  cases c with
  | checkpoint account =>
    unfold attempt attemptCheckpoint call
    dsimp only
    split
    · rename_i hfull
      rw [writeCheckpointAccount,if_pos hfull]
      rfl
    · exact Attempt.agrees_ofExcept _
  | finishCheckpoint => exact w.attemptFinishCheckpoint_agrees
  | slot slot updates =>
    refine w.attemptFinishCheckpoint_agrees.next fun w => ?_
    cases hexpected : checkedAdd w.header.updateStartSlot w.stats.slots with
    | error failure =>
      unfold checkedAdd at hexpected
      split at hexpected <;> cases hexpected
      rfl
    | ok expected =>
      simp only [ok_bind]
      split
      · rfl
      · refine (Attempt.agrees_ofExcept _).next fun w => ?_
        cases firstDisorder (sortUpdates updates) with
        | some pair => rfl
        | none => exact w.attemptFrame_agrees slot _

end Agreement

section Traces

variable {env : GgjetEnv}

variable {w ahead : GgjetWriter} {slot : UInt64} {updates : List AccountUpdate}

theorem finishCheckpoint_of_finished (h : w.checkpointFinished = true) :
    w.finishCheckpoint env = .ok w := by
  rw [finishCheckpoint,if_pos h]

theorem finishCheckpoint_frame (h : w.finishCheckpoint env = .ok w') :
    w'.checkpointFinished = true ∧ w'.header = w.header ∧ w'.manifest = w.manifest ∧
      w'.stats.slots = w.stats.slots ∧
      w'.stats.checkpointAccounts = w.stats.checkpointAccounts ∧
      (w.checkpointFinished = true ∨ w.stats.checkpointAccounts = w.header.accountCount) := by
  unfold finishCheckpoint at h
  split at h
  · rename_i hfinished
    cases h
    exact ⟨hfinished,rfl,rfl,rfl,rfl,.inl hfinished⟩
  · split at h
    · cases h
    · rename_i hcount
      obtain ⟨w1,hflush,h⟩ := bind_ok h
      obtain ⟨raw,-,h⟩ := bind_ok h
      obtain ⟨sink,-,h⟩ := bind_ok h
      cases h
      rcases flushCheckpointBucket_ok hflush with ⟨-,rfl⟩ | ⟨raw',-,-,-,rfl⟩
      · exact ⟨rfl,rfl,rfl,rfl,rfl,.inr (not_not.mp hcount)⟩
      · exact ⟨rfl,rfl,rfl,rfl,rfl,.inr (not_not.mp hcount)⟩

theorem enterBucket_frame (h : w.enterBucket env slot = .ok w') :
    w'.checkpointFinished = w.checkpointFinished ∧ w'.header = w.header ∧
      w'.manifest = w.manifest ∧ w'.config = w.config ∧ w'.stats.slots = w.stats.slots ∧
      w'.stats.checkpointAccounts = w.stats.checkpointAccounts := by
  obtain ⟨w0,rfl,⟨rfl,-⟩ | ⟨first,hfirst,-,hflush⟩⟩ := enterBucket_ok h
  · exact ⟨rfl,rfl,rfl,rfl,rfl,rfl⟩
  · obtain ⟨raw,stats,-,-,-,hslots,haccounts,rfl⟩ := flushUpdateBucket_ok hfirst hflush
    exact ⟨rfl,rfl,rfl,rfl,hslots,haccounts⟩

theorem enterBucket_again
    (h : w.enterBucket env slot = .ok w') : w'.enterBucket env slot = .ok w' := by
  have hsame : ∀ first, w'.bucketFirstSlot = some first → w'.bucketId slot = w'.bucketId first := by
    obtain ⟨-,hheader,-,hconfig,-⟩ := enterBucket_frame h
    obtain ⟨w0,rfl,⟨rfl,hfirst⟩ | ⟨first,hfirst,-,hflush⟩⟩ := enterBucket_ok h
    · intro first hsome
      cases hopen : w0.bucketFirstSlot with
      | none =>
        simp only [hopen,Option.getD_none,Option.some.injEq] at hsome
        rw [hsome]
      | some other =>
        simp only [hopen,Option.getD_some,Option.some.injEq] at hsome
        subst hsome
        exact hfirst other hopen
    · obtain ⟨raw,stats,-,-,-,-,-,rfl⟩ := flushUpdateBucket_ok hfirst hflush
      intro first hsome
      simp only [Option.getD_none,Option.some.injEq] at hsome
      rw [hsome]
  obtain ⟨w0,hw0,-⟩ := enterBucket_ok h
  have hopen : w'.bucketFirstSlot = some (w0.bucketFirstSlot.getD slot) := by rw [hw0]
  have hleave : w'.leaveBucket env slot = .ok w' := by
    simp only [leaveBucket,hopen,hsame _ hopen,ne_eq,not_true_eq_false,if_false]
  rw [enterBucket,hleave,ok_bind]
  simp only [hopen,Option.getD_some]
  rw [hw0]
  rfl

theorem attemptFinishCheckpoint_done {w1 : GgjetWriter} (h : w.finishCheckpoint env = .ok w1) :
    w.attemptFinishCheckpoint env = .done w1 := by
  have hagrees : (w.attemptFinishCheckpoint env).Agrees (w.finishCheckpoint env) :=
    w.attemptFinishCheckpoint_agrees
  rw [h] at hagrees
  cases hattempt : w.attemptFinishCheckpoint env with
  | done w2 =>
    rw [hattempt] at hagrees
    cases hagrees
    rfl
  | refused err w2 =>
    rw [hattempt] at hagrees
    cases hagrees
  | broken failure =>
    rw [hattempt] at hagrees
    obtain ⟨_,hfalse⟩ := hagrees
    cases hfalse

theorem attemptFinishCheckpoint_refused
    (h : w.attemptFinishCheckpoint env = .refused err w') : w' = w := by
  unfold attemptFinishCheckpoint at h
  split at h
  · cases h
  · split at h
    · cases h
      rfl
    · cases hfinish : w.finishCheckpoint env <;> rw [hfinish] at h <;> cases h

theorem attemptUpdates_refused (h : w.attemptUpdates env updates = .refused err w') :
    ∃ u ∈ updates, w.manifest.indexOf u.pubkey = none := by
  induction updates generalizing w with
  | nil => cases h
  | cons u rest ih =>
    unfold attemptUpdates at h
    split at h
    · rename_i hunknown
      exact ⟨u,List.mem_cons_self,hunknown⟩
    · split at h
      · cases h
      · split at h
        · cases h
        · obtain ⟨v,hv,hunknown⟩ := ih h
          exact ⟨v,List.mem_cons_of_mem u hv,hunknown⟩

theorem attemptFrame_refused (h : w.attemptFrame env slot updates = .refused err w') :
    ∃ u ∈ updates, w.manifest.indexOf u.pubkey = none := by
  unfold attemptFrame at h
  split at h
  · cases h
  · split at h
    · cases h
    · obtain ⟨w1,hupdates⟩ := Attempt.refused_of_next h fun _ _ hdone => nomatch hdone
      have hunknown := attemptUpdates_refused hupdates
      exact hunknown

/-- `ahead` has already done what the next call to `w` would do first: it has ended the checkpoint,
and perhaps entered the bucket of the slot that comes next. -/
def Ahead (env : GgjetEnv) (w ahead : GgjetWriter) : Prop :=
  ∃ w1, w.finishCheckpoint env = .ok w1 ∧
    (ahead = w1 ∨ ∃ expected,
      checkedAdd w1.header.updateStartSlot w1.stats.slots = .ok expected ∧
      ¬w1.header.updateSlotCount ≤ w1.stats.slots ∧ w1.enterBucket env expected = .ok ahead)

/-- The frame is turned away before a byte of it is written, or it names known accounts only. -/
def LeavesNothing (w : GgjetWriter) (slot : UInt64) (updates : List AccountUpdate) : Prop :=
  (w.checkpointFinished = false ∧ w.stats.checkpointAccounts ≠ w.header.accountCount) ∨
    2 ^ 64 ≤ w.header.updateStartSlot.toNat + w.stats.slots.toNat ∨
    slot ≠ w.header.updateStartSlot + w.stats.slots ∨
    w.header.updateSlotCount ≤ w.stats.slots ∨
    ¬(updates.map (·.writeVersion)).Nodup ∨
    ∀ u ∈ updates, w.manifest.indexOf u.pubkey ≠ none

theorem nodup_of_firstDisorder (h : firstDisorder (sortUpdates updates) = none) :
    (updates.map (·.writeVersion)).Nodup := by
  have hsorted : ((sortUpdates updates).map (·.writeVersion)).Nodup :=
    (firstDisorder_none h).imp UInt64.ne_of_lt
  exact ((List.perm_insertionSort _ updates).map _).nodup_iff.mp hsorted

theorem attemptSlot_refused (h : w.attemptSlot env slot updates = .refused err w')
    (hclean : w.LeavesNothing slot updates) : w' = w ∨ Ahead env w w' := by
  unfold attemptSlot at h
  cases hfinish : w.attemptFinishCheckpoint env with
  | broken failure =>
    rw [hfinish] at h
    cases h
  | refused err' w1 =>
    rw [hfinish] at h
    cases h
    exact .inl (attemptFinishCheckpoint_refused hfinish)
  | done w1 =>
    have hw1 : w.finishCheckpoint env = .ok w1 := by
      have hagrees : (w.attemptFinishCheckpoint env).Agrees (w.finishCheckpoint env) :=
        w.attemptFinishCheckpoint_agrees
      rw [hfinish] at hagrees
      exact hagrees
    rw [hfinish] at h
    dsimp only [Attempt.next] at h
    split at h
    · cases h
      exact .inr ⟨w',hw1,.inl rfl⟩
    · rename_i expected hexpected
      split at h
      · cases h
        exact .inr ⟨w',hw1,.inl rfl⟩
      · rename_i hslot
        rw [not_or,not_not] at hslot
        obtain ⟨rfl,hroom⟩ := hslot
        unfold attemptBucket at h
        cases henter : w1.enterBucket env slot with
        | error failure =>
          rw [henter] at h
          cases h
        | ok w2 =>
          rw [henter] at h
          dsimp only [Attempt.ofExcept,Attempt.next] at h
          split at h
          · cases h
            exact .inr ⟨w1,hw1,.inr ⟨slot,hexpected,hroom,henter⟩⟩
          · rename_i hordered
            obtain ⟨-,hheader,hmanifest,hslots,-,hcheckpoint⟩ := finishCheckpoint_frame hw1
            obtain ⟨u,hu,hunknown⟩ := attemptFrame_refused h
            rw [(enterBucket_frame henter).2.2.1,hmanifest] at hunknown
            rw [hheader,hslots] at hexpected hroom
            -- the frame got as far as its accounts, so nothing before them was in the way
            have hlt := checkedAdd_ok hexpected
            have hnext : slot = w.header.updateStartSlot + w.stats.slots := by
              rw [← UInt64.toNat_inj,UInt64.toNat_add,hlt,
                Nat.mod_eq_of_lt (hlt ▸ slot.toNat_lt)]
            rcases hclean with ⟨hopen,hcount⟩ | hover | hother | hfull | htwice | hknown
            · exact absurd hcheckpoint (by simp [hopen,hcount])
            · exact absurd slot.toNat_lt (by omega)
            · exact absurd hnext hother
            · exact absurd hfull hroom
            · exact absurd (nodup_of_firstDisorder hordered) htwice
            · have hmem : u ∈ updates := (List.perm_insertionSort _ updates).mem_iff.mp hu
              exact absurd hunknown (hknown u hmem)

theorem Ahead.frame (h : Ahead env w ahead) :
    ahead.checkpointFinished = true ∧ ahead.header = w.header ∧
      ahead.stats.checkpointAccounts = w.stats.checkpointAccounts ∧
      (w.checkpointFinished = true ∨ w.stats.checkpointAccounts = w.header.accountCount) := by
  obtain ⟨w1,hw1,hahead⟩ := h
  obtain ⟨hfinished,hheader,-,-,haccounts,hready⟩ := finishCheckpoint_frame hw1
  rcases hahead with rfl | ⟨expected,-,-,henter⟩
  · exact ⟨hfinished,hheader,haccounts,hready⟩
  · obtain ⟨hsame,hheader',-,-,-,haccounts'⟩ := enterBucket_frame henter
    exact ⟨hsame.trans hfinished,hheader'.trans hheader,haccounts'.trans haccounts,hready⟩

theorem Ahead.attempt (h : Ahead env w ahead) (c : Call) :
    ahead.attempt env c = w.attempt env c ∨
      (∃ w2, w.attempt env c = .done w2 ∧ ahead.attempt env c = .done ahead ∧
        Ahead env w2 ahead) ∨
      ∃ err w2, w.attempt env c = .refused err w2 ∧ ahead.attempt env c = .refused err ahead ∧
        Ahead env w2 ahead := by
  obtain ⟨hfinished,hheader,haccounts,hready⟩ := h.frame
  obtain ⟨w1,hw1,hahead⟩ := id h
  have hfinished1 := (finishCheckpoint_frame hw1).1
  have hstill : Ahead env w1 ahead := ⟨w1,finishCheckpoint_of_finished hfinished1,hahead⟩
  have hdone := attemptFinishCheckpoint_done hw1
  have hdone' := attemptFinishCheckpoint_done
    (finishCheckpoint_of_finished hfinished : ahead.finishCheckpoint env = .ok ahead)
  cases c with
  | checkpoint account =>
    have hfull : w.checkpointFinished = true ∨
        w.header.accountCount ≤ w.stats.checkpointAccounts :=
      hready.imp id fun heq => by exact heq ▸ UInt64.le_refl _
    refine .inr (.inr ⟨.checkpointCount (w.stats.checkpointAccounts + 1) w.header.accountCount,w,
      if_pos hfull,?_,h⟩)
    rw [← hheader,← haccounts]
    exact if_pos (.inl hfinished)
  | finishCheckpoint => exact .inr (.inl ⟨w1,hdone,hdone',hstill⟩)
  | slot slot updates =>
    unfold GgjetWriter.attempt attemptSlot
    simp only [hdone,hdone',Attempt.next]
    rcases hahead with rfl | ⟨expected,hexpected,hroom,henter⟩
    · exact .inl rfl
    · obtain ⟨-,hheader1,-,-,hslots1,-⟩ := enterBucket_frame henter
      simp only [hheader1,hslots1,hexpected]
      by_cases hslot : slot ≠ expected
      · refine .inr (.inr ⟨_,w1,if_pos (.inl hslot),if_pos (.inl hslot),hstill⟩)
      · refine .inl ?_
        rw [not_not] at hslot
        subst hslot
        have hpass : ¬(slot ≠ slot ∨ w1.header.updateSlotCount ≤ w1.stats.slots) := by
          rintro (hne | hfull)
          · exact hne rfl
          · exact hroom hfull
        rw [if_neg hpass,if_neg hpass,attemptBucket,attemptBucket,henter,enterBucket_again henter]

theorem Ahead.finish (h : Ahead env w ahead) :
    ahead.finish env = w.finish env := by
  have hfinished := h.frame.1
  obtain ⟨w1,hw1,hahead⟩ := h
  unfold GgjetWriter.finish
  rw [hw1,finishCheckpoint_of_finished hfinished]
  rcases hahead with rfl | ⟨expected,-,hroom,henter⟩
  · rfl
  · obtain ⟨-,hheader1,-,-,hslots1,-⟩ := enterBucket_frame henter
    have hshort : w1.stats.slots ≠ w1.header.updateSlotCount :=
      fun heq => hroom (heq ▸ UInt64.le_refl _)
    simp only [ok_bind,hheader1,hslots1,hshort,ne_eq,not_false_eq_true,if_true]

theorem finishAfter_done {w2 : GgjetWriter} {c : Call} (h : w.attempt env c = .done w2)
    (rest : List Call) : w.finishAfter env (c :: rest) =
      (w2.finishAfter env rest).map fun result => (none :: result.1,result.2) := by
  simp only [GgjetWriter.finishAfter,attemptAll,h]
  cases w2.attemptAll env rest with
  | error failure => rfl
  | ok reached =>
    simp only [ok_bind,pure,Except.pure]
    cases reached.2.finish env <;> rfl

theorem finishAfter_refused {w2 : GgjetWriter} {c : Call}
    (h : w.attempt env c = .refused err w2) (rest : List Call) :
    w.finishAfter env (c :: rest) =
      (w2.finishAfter env rest).map fun result => (some err :: result.1,result.2) := by
  simp only [GgjetWriter.finishAfter,attemptAll,h]
  cases w2.attemptAll env rest with
  | error failure => rfl
  | ok reached =>
    simp only [ok_bind,pure,Except.pure]
    cases reached.2.finish env <;> rfl

theorem Ahead.finishAfter (h : Ahead env w ahead) (calls : List Call) :
    ahead.finishAfter env calls = w.finishAfter env calls := by
  induction calls generalizing w with
  | nil => simp only [GgjetWriter.finishAfter,attemptAll,ok_bind,h.finish]
  | cons c rest ih =>
    rcases h.attempt c with hsame | ⟨w2,hw,hahead,hnext⟩ | ⟨err,w2,hw,hahead,hnext⟩
    · simp only [GgjetWriter.finishAfter,attemptAll,hsame]
    · rw [finishAfter_done hw,finishAfter_done hahead,ih hnext]
    · rw [finishAfter_refused hw,finishAfter_refused hahead,ih hnext]

end Traces

/-- A call for a slot that is refused leaves no trace in what follows, unless it was refused for an
account that is not in the manifest: whatever is asked of the writer afterwards, the answers and
the file are those of a writer that has not been called. -/
theorem finishAfter_of_refused (env : GgjetEnv) (w w' : GgjetWriter) (slot : UInt64)
    (updates : List AccountUpdate) (err : GgjetError)
    (h : w.attempt env (.slot slot updates) = .refused err w')
    (hclean : w.LeavesNothing slot updates) (later : List Call) :
    w'.finishAfter env later = w.finishAfter env later := by
  rcases attemptSlot_refused h hclean with rfl | hahead
  · rfl
  · exact hahead.finishAfter later

def smallWriter : Except GgjetFailure GgjetWriter := do
  let w ← new plainGgjetEnv 0 smallManifest 4 5 1 ⟨2,2,1000,.zstd,3⟩
  [.checkpoint none,.checkpoint none].foldlM (call plainGgjetEnv) w

def finishSmall (calls : List Call) :
    Except GgjetFailure (List (Option GgjetError) × Bytes × GgjetStats) := do
  let w ← smallWriter
  w.finishAfter plainGgjetEnv calls

def readBack (env : GgjetEnv) (file : Bytes) : Except GgjetFailure (List UpdateEvent) := do
  let r ← GgjetReader.open env file
  match r.visitSlots env r.header.updateStartSlot r.header.updateSlotCount [] with
  | .ok _ log => .ok log
  | .error failure _ => .error failure

def foreignUpdate : AccountUpdate := ⟨flatAddress 7,10,flatAddress 9,false,0,4,[1,2]⟩

def knownUpdate : AccountUpdate := ⟨flatAddress 2,12,flatAddress 9,false,0,5,[3]⟩

/-- The runs with and without the refused slot, compared. -/
def comparedRuns : Bool :=
  match finishSmall [.slot 5 [foreignUpdate],.slot 5 [knownUpdate]],
      finishSmall [.slot 5 [knownUpdate]] with
  | .ok (answers,dirty,_), .ok (answers',clean,_) =>
    decide (answers = [some (.accountNotInManifest (flatAddress 7)),none] ∧
      answers' = [none] ∧ readBack plainGgjetEnv clean = .ok [(5,knownUpdate)] ∧
      readBack plainGgjetEnv dirty ≠ readBack plainGgjetEnv clean)
  | _, _ => false

theorem not_atomic_foreignUpdate : ∃ dirty clean stats stats',
    finishSmall [.slot 5 [foreignUpdate],.slot 5 [knownUpdate]] =
      .ok ([some (.accountNotInManifest (flatAddress 7)),none],dirty,stats) ∧
    finishSmall [.slot 5 [knownUpdate]] = .ok ([none],clean,stats') ∧
    readBack plainGgjetEnv clean = .ok [(5,knownUpdate)] ∧
    readBack plainGgjetEnv dirty ≠ readBack plainGgjetEnv clean := by
  have hruns : comparedRuns = true := by decide +kernel
  unfold comparedRuns at hruns
  cases hdirty : finishSmall [.slot 5 [foreignUpdate],.slot 5 [knownUpdate]] with
  | error failure =>
    rw [hdirty] at hruns
    cases hruns
  | ok result =>
    cases hclean : finishSmall [.slot 5 [knownUpdate]] with
    | error failure =>
      rw [hdirty,hclean] at hruns
      cases hruns
    | ok result' =>
      rw [hdirty,hclean] at hruns
      obtain ⟨hanswers,hanswers',hread,hdiffer⟩ := of_decide_eq_true hruns
      refine ⟨result.2.1,result'.2.1,result.2.2,result'.2.2,?_,?_,hread,hdiffer⟩
      · rw [← hanswers]
      · rw [← hanswers']

/-- An update given twice is refused; the writer goes on as if it had not been asked. -/
theorem atomic_knownUpdate : ∃ w w', smallWriter = .ok w ∧
    w.attempt plainGgjetEnv (.slot 5 [knownUpdate,knownUpdate]) =
      .refused (.nonMonotonicWriteVersion 5 5 5) w' ∧
    w'.finishAfter plainGgjetEnv [.slot 5 [knownUpdate]] =
      w.finishAfter plainGgjetEnv [.slot 5 [knownUpdate]] := by
  have hruns : (match smallWriter with
    | .ok w => match w.attempt plainGgjetEnv (.slot 5 [knownUpdate,knownUpdate]) with
      | .refused err _ => decide (err = .nonMonotonicWriteVersion 5 5 5)
      | _ => false
    | .error _ => false) = true := by decide +kernel
  cases hw : smallWriter with
  | error failure =>
    rw [hw] at hruns
    cases hruns
  | ok w =>
    rw [hw] at hruns
    dsimp only at hruns
    cases hattempt : w.attempt plainGgjetEnv (.slot 5 [knownUpdate,knownUpdate]) with
    | done w' =>
      rw [hattempt] at hruns
      cases hruns
    | broken failure =>
      rw [hattempt] at hruns
      cases hruns
    | refused err w' =>
      rw [hattempt] at hruns
      obtain rfl := of_decide_eq_true hruns
      exact ⟨w,w',rfl,hattempt,finishAfter_of_refused plainGgjetEnv w w' 5 _ _ hattempt
        (.inr (.inr (.inr (.inr (.inl (by decide)))))) [.slot 5 [knownUpdate]]⟩

end GgjetWriter

end Jetstreamer.Ggjet
