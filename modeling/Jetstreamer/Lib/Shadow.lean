import Jetstreamer.Lib.Codec
set_option autoImplicit false

namespace Jetstreamer.Lib

variable {ε τ υ α β γ δ : Type}

/-- `second`, run on the state `f` makes of a state, does what `first` does on the state itself:
where `first` succeeds it succeeds with the value `g` makes of the value, and where `first`
fails with one of the `kept` failures it fails alike. -/
def Shadows (kept : ε → Prop) (f : τ → υ) (g : α → β) (first : Get ε τ α) (second : Get ε υ β) :
    Prop :=
  ∀ t bytes,
    match first ⟨t,bytes⟩ with
    | .ok a next => second ⟨f t,bytes⟩ = .ok (g a) ⟨f next.ctx,next.bytes⟩
    | .error e next => kept e → second ⟨f t,bytes⟩ = .error e ⟨f next.ctx,next.bytes⟩

namespace Shadows

variable {kept : ε → Prop} {f : τ → υ} {g : α → β} {h : γ → δ} {first : Get ε τ α}
  {second : Get ε υ β}

theorem of_ok (hs : Shadows kept f g first second) {t : τ} {bytes : Bytes} {a : α}
    {next : Input τ} (hfirst : first ⟨t,bytes⟩ = .ok a next) :
    second ⟨f t,bytes⟩ = .ok (g a) ⟨f next.ctx,next.bytes⟩ := by
  have hrun := hs t bytes
  rwa [hfirst] at hrun

theorem of_error (hs : Shadows kept f g first second) {t : τ} {bytes : Bytes} {e : ε}
    {next : Input τ} (hfirst : first ⟨t,bytes⟩ = .error e next) (he : kept e) :
    second ⟨f t,bytes⟩ = .error e ⟨f next.ctx,next.bytes⟩ := by
  have hrun := hs t bytes
  rw [hfirst] at hrun
  exact hrun he

theorem refl (read : Get ε τ α) : Shadows kept id id read read := by
  intro t bytes
  simp only [id]
  cases read ⟨t,bytes⟩ with
  | ok a next => rfl
  | error e next => exact fun _ => rfl

theorem pure (a : α) : Shadows kept f g (Pure.pure a) (Pure.pure (g a)) := fun _ _ => rfl

theorem throw (e : ε) : Shadows kept f g (MonadExcept.throw e) (MonadExcept.throw e) :=
  fun _ _ _ => rfl

theorem throw_dropped (e : ε) (other : Get ε υ β) :
    Shadows (fun _ => False) f g (MonadExcept.throw e : Get ε τ α) other := fun _ _ => False.elim

theorem bind {k : α → Get ε τ γ} {k' : β → Get ε υ δ} (hs : Shadows kept f g first second)
    (hk : ∀ a, Shadows kept f h (k a) (k' (g a))) :
    Shadows kept f h (first >>= k) (second >>= k') := by
  intro t bytes
  cases hfirst : first ⟨t,bytes⟩ with
  | ok a next =>
    rw [Get.bind_of_ok hfirst,Get.bind_of_ok (hs.of_ok hfirst)]
    exact hk a next.ctx next.bytes
  | error e next =>
    rw [Get.bind_of_error hfirst]
    exact fun he => Get.bind_of_error (hs.of_error hfirst he)

theorem map {k : α → γ} {k' : β → δ} (hs : Shadows kept f g first second)
    (hk : ∀ a, k' (g a) = h (k a)) : Shadows kept f h (k <$> first) (k' <$> second) := by
  intro t bytes
  have hrun := hs t bytes
  change match EStateM.map k first ⟨t,bytes⟩ with
    | .ok a next => EStateM.map k' second ⟨f t,bytes⟩ = .ok (h a) ⟨f next.ctx,next.bytes⟩
    | .error e next => kept e →
        EStateM.map k' second ⟨f t,bytes⟩ = .error e ⟨f next.ctx,next.bytes⟩
  cases hfirst : first ⟨t,bytes⟩ with
  | ok a next =>
    rw [hfirst] at hrun
    simp only [EStateM.map,hfirst,hrun,hk]
  | error e next =>
    rw [hfirst] at hrun
    simp only [EStateM.map,hfirst]
    intro he
    simp only [hrun he]

theorem silent {k : α → Get ε τ γ} {other : Get ε υ δ}
    (hstep : ∀ t bytes a next, first ⟨t,bytes⟩ = .ok a next → next.bytes = bytes ∧ f next.ctx = f t)
    (hk : ∀ a, Shadows (fun _ => False) f h (k a) other) :
    Shadows (fun _ => False) f h (first >>= k) other := by
  intro t bytes
  cases hfirst : first ⟨t,bytes⟩ with
  | ok a next =>
    obtain ⟨hbytes,hctx⟩ := hstep t bytes a next hfirst
    rw [Get.bind_of_ok hfirst,← hctx,← hbytes]
    exact hk a next.ctx next.bytes
  | error e next =>
    rw [Get.bind_of_error hfirst]
    exact False.elim

theorem take (short : ε) (n : Nat) : Shadows kept f id (Get.take short n) (Get.take short n) := by
  intro t bytes
  unfold Get.take
  by_cases hn : n ≤ bytes.length <;> simp [hn]

theorem modifyCtx {k : τ → τ} {k' : υ → υ} (hk : ∀ t, k' (f t) = f (k t)) :
    Shadows kept f id (Get.modifyCtx k : Get ε τ Unit) (Get.modifyCtx k') := by
  intro t bytes
  change (EStateM.Result.ok () ⟨k' (f t),bytes⟩ : EStateM.Result ε (Input υ) Unit) =
    .ok () ⟨f (k t),bytes⟩
  rw [hk]

theorem ctx {k : τ → Get ε τ γ} {k' : υ → Get ε υ δ} (hk : ∀ t, Shadows kept f h (k t) (k' (f t))) :
    Shadows kept f h (Get.ctx >>= k) (Get.ctx >>= k') := fun t bytes => hk t t bytes

theorem loop {n : Nat} {body : α → Get ε τ α} {body' : β → Get ε υ β} (start : α)
    (hbody : ∀ a, Shadows kept f g (body a) (body' (g a))) :
    Shadows kept f g (Get.loop n body start) (Get.loop n body' (g start)) := by
  induction n generalizing start with
  | zero => exact pure start
  | succ n ih => exact (hbody start).bind ih

theorem times {read : Get ε τ α} {read' : Get ε υ α} (n : Nat)
    (hread : Shadows kept f id read read') :
    Shadows kept f id (Get.times n read) (Get.times n read') := by
  induction n with
  | zero => exact pure _
  | succ n ih => exact hread.bind fun a => ih.bind fun rest => pure _

theorem tally {add : Nat → τ → τ} {add' : Nat → υ → υ} (hs : Shadows kept f g first second)
    (hadd : ∀ n t, add' n (f t) = f (add n t)) :
    Shadows kept f g (Get.tally add first) (Get.tally add' second) := by
  intro t bytes
  simp only [Get.tally]
  cases hfirst : first ⟨t,bytes⟩ with
  | ok a next => simp only [hs.of_ok hfirst,hadd]
  | error e next =>
    intro he
    simp only [hs.of_error hfirst he]

theorem onPart {τ' υ' : Type} {f' : τ' → υ'} {part : τ' → τ} {put : τ → τ' → τ'}
    {part' : υ' → υ} {put' : υ → υ' → υ'} (hs : Shadows kept f g first second)
    (hpart : ∀ t, part' (f' t) = f (part t)) (hput : ∀ t u, put' (f t) (f' u) = f' (put t u)) :
    Shadows kept f' g (Get.onPart part put first) (Get.onPart part' put' second) := by
  intro t bytes
  simp only [Get.onPart,hpart]
  cases hfirst : first ⟨part t,bytes⟩ with
  | ok a next => simp only [hs.of_ok hfirst,hput]
  | error e next =>
    intro he
    simp only [hs.of_error hfirst he,hput]

end Shadows

end Jetstreamer.Lib
