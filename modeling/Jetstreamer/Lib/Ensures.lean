import Jetstreamer.Lib.Shadow
set_option autoImplicit false

namespace Jetstreamer.Lib

variable {ε τ υ α β : Type}

/-- From a state in `before`, a decoder that succeeds ends with a value and a state in `after`. -/
def Ensures (before : τ → Prop) (read : Get ε τ α) (after : α → τ → Prop) : Prop :=
  ∀ t bytes a next, before t → read ⟨t,bytes⟩ = .ok a next → after a next.ctx

namespace Ensures

variable {P : τ → Prop} {Q : α → τ → Prop} {R : β → τ → Prop} {read : Get ε τ α}

theorem pure {a : α} (h : ∀ t, P t → Q a t) : Ensures P (Pure.pure a : Get ε τ α) Q := by
  intro t bytes a' next hP hrun
  cases hrun
  exact h t hP

theorem top : Ensures P read fun _ _ => True := fun _ _ _ _ _ _ => trivial

theorem throw (e : ε) : Ensures P (MonadExcept.throw e : Get ε τ α) Q := by
  intro t bytes a next _ hrun
  cases hrun

theorem ofExcept (x : Except ε α) :
    Ensures P (MonadExcept.ofExcept x : Get ε τ α) fun a _ => x = .ok a := by
  intro t bytes a next _ hrun
  cases x with
  | error e => cases hrun
  | ok value =>
    cases hrun
    rfl

theorem bind {k : α → Get ε τ β} (h : Ensures P read Q) (hk : ∀ a, Ensures (Q a) (k a) R) :
    Ensures P (read >>= k) R := by
  intro t bytes b next hP hrun
  cases hread : read ⟨t,bytes⟩ with
  | error e middle =>
    rw [Get.bind_of_error hread] at hrun
    cases hrun
  | ok a middle =>
    rw [Get.bind_of_ok hread] at hrun
    exact hk a middle.ctx middle.bytes b next (h t bytes a middle hP hread) hrun

theorem ite {c : Prop} [Decidable c] {other : Get ε τ α} (h : Ensures P read Q)
    (hother : Ensures P other Q) : Ensures P (if c then read else other) Q := by
  split
  · exact h
  · exact hother

theorem modifyCtx {f : τ → τ} {Q : Unit → τ → Prop} (h : ∀ t, P t → Q () (f t)) :
    Ensures P (Get.modifyCtx f : Get ε τ Unit) Q := by
  intro t bytes a next hP hrun
  cases hrun
  exact h t hP

theorem tally {add : Nat → τ → τ} (h : Ensures P read Q) (hadd : ∀ n a t, Q a t → Q a (add n t)) :
    Ensures P (Get.tally add read) Q := by
  intro t bytes a next hP hrun
  unfold Get.tally at hrun
  cases hread : read ⟨t,bytes⟩ with
  | error e middle =>
    rw [hread] at hrun
    cases hrun
  | ok a' middle =>
    rw [hread] at hrun
    cases hrun
    exact hadd _ _ _ (h t bytes _ middle hP hread)

theorem onPart {part : υ → τ} {put : τ → υ → υ} {S : υ → Prop} (hput : ∀ t u, S u → S (put t u)) :
    Ensures S (Get.onPart part put read) fun _ => S := by
  intro u bytes a next hS hrun
  unfold Get.onPart at hrun
  cases hread : read ⟨part u,bytes⟩ with
  | error e middle =>
    simp only [hread] at hrun
    cases hrun
  | ok a' middle =>
    simp only [hread] at hrun
    cases hrun
    exact hput _ _ hS

theorem loop {body : β → Get ε τ β} (h : ∀ b, Ensures P (body b) fun _ => P) (n : Nat) (b : β) :
    Ensures P (Get.loop n body b) fun _ => P := by
  induction n generalizing b with
  | zero => exact pure fun _ hP => hP
  | succ n ih => exact (h b).bind ih

theorem of_shadows (h : ∀ f : τ → τ, Shadows (fun _ => False) f id read read) :
    Ensures P read fun _ => P := by
  intro t bytes a next hP hrun
  have hsame := (h fun _ => t).of_ok hrun
  rw [hrun] at hsame
  have hnext := (EStateM.Result.ok.inj hsame).2
  have hctx : next.ctx = t := congrArg Input.ctx hnext
  rwa [hctx]

end Ensures

/-- A decoder that succeeds on some bytes does so on more of them, leaving those. -/
def Extends (read : Get ε τ α) : Prop :=
  ∀ t bytes a next, read ⟨t,bytes⟩ = .ok a next →
    ∀ rest, read ⟨t,bytes ++ rest⟩ = .ok a ⟨next.ctx,next.bytes ++ rest⟩

namespace Extends

theorem pure (a : α) : Extends (Pure.pure a : Get ε τ α) := by
  intro t bytes a' next hrun rest
  cases hrun
  rfl

theorem throw (e : ε) : Extends (MonadExcept.throw e : Get ε τ α) := by
  intro t bytes a next hrun
  cases hrun

theorem take (short : ε) (n : Nat) : Extends (Get.take short n : Get ε τ _) := by
  intro t bytes a next hrun rest
  unfold Get.take at hrun ⊢
  dsimp only at hrun ⊢
  by_cases hlen : n ≤ bytes.length
  · rw [dif_pos hlen] at hrun
    have hlen' : n ≤ (bytes ++ rest).length := by
      rw [List.length_append]
      omega
    rw [dif_pos hlen']
    cases hrun
    simp only [List.take_append_of_le_length hlen,List.drop_append_of_le_length hlen]
  · rw [dif_neg hlen] at hrun
    cases hrun

theorem bind {read : Get ε τ α} {k : α → Get ε τ β} (h : Extends read) (hk : ∀ a, Extends (k a)) :
    Extends (read >>= k) := by
  intro t bytes b next hrun rest
  cases hread : read ⟨t,bytes⟩ with
  | error e middle =>
    rw [Get.bind_of_error hread] at hrun
    cases hrun
  | ok a middle =>
    rw [Get.bind_of_ok hread] at hrun
    rw [Get.bind_of_ok (h t bytes a middle hread rest)]
    exact hk a middle.ctx middle.bytes b next hrun rest

end Extends

end Jetstreamer.Lib
