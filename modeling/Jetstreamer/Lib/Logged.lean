import Jetstreamer.Lib.Codec
set_option autoImplicit false

namespace Jetstreamer.Lib

/-- A decoder state together with what has been told to a listener. -/
structure Logged (τ E : Type) where
  state : τ
  log : List E

namespace Get

variable {ε τ E α β : Type}

/-- `n` rounds that pass on a state, and what each of them yields. -/
def collect (n : Nat) (round : β → Get ε τ (α × β)) (start : β) : Get ε τ (List α × β) :=
  match n with
  | 0 => pure ([],start)
  | n+1 => do
    let first ← round start
    let rest ← collect n round first.2
    return (first.1 :: rest.1,rest.2)

theorem collect_induction {round : β → Get ε τ (α × β)} {P : β → List α → β → Prop}
    (hnil : ∀ b, P b [] b)
    (hcons : ∀ b first middle rest last input next, round b input = .ok (first,middle) next →
      P middle rest last → P b (first :: rest) last)
    {n : Nat} {b last : β} {items : List α} {input final : Input τ}
    (h : collect n round b input = .ok (items,last) final) : P b items last ∧ items.length = n := by
  induction n generalizing b items input with
  | zero =>
    cases h
    exact ⟨hnil _,rfl⟩
  | succ n ih =>
    rw [collect] at h
    cases hround : round b input with
    | error e next =>
      rw [bind_of_error hround] at h
      cases h
    | ok first next =>
      rw [bind_of_ok hround] at h
      cases hrest : collect n round first.2 next with
      | error e stop =>
        rw [bind_of_error hrest] at h
        cases h
      | ok rest stop =>
        rw [bind_of_ok hrest] at h
        cases h
        obtain ⟨hP,hlen⟩ := ih hrest
        exact ⟨hcons b first.1 first.2 rest.1 _ input next hround hP,by rw [List.length_cons,hlen]⟩

/-- A decoder that tells the listener nothing. -/
def quiet (read : Get ε τ α) : Get ε (Logged τ E) α :=
  onPart (·.state) (fun state ctx => { ctx with state }) read

def tell (wanted : Bool) (event : E) : Get ε (Logged τ E) Unit :=
  modifyCtx fun ctx => if wanted then { ctx with log := ctx.log ++ [event] } else ctx

end Get

theorem Reads.collect {ε σ τ α β : Type} {write : α → Put ε σ} {items : List α}
    {round : β → Get ε τ (α × β)} {f : List α → β} {I : List α → σ → τ → Prop}
    (h : ∀ seen item rest, items = seen ++ item :: rest →
      Reads (I seen) (write item) (round (f seen)) (item,f (seen ++ [item])) (I (seen ++ [item]))) :
    Reads (I []) (Put.each write items) (Get.collect items.length round (f [])) (items,f items)
      (I items) := by
  have hall : ∀ seen rest, items = seen ++ rest →
      Reads (I seen) (Put.each write rest) (Get.collect rest.length round (f seen))
        (rest,f items) (I items) := by
    intro seen rest heq
    induction rest generalizing seen with
    | nil =>
      rw [List.append_nil] at heq
      rw [heq]
      exact Reads.nil _
    | cons item rest ih =>
      refine (h seen item rest heq).cons ?_
      refine Reads.single ((ih (seen ++ [item]) (by simp [heq])).cons ?_)
      exact Reads.nil (item :: rest,f items)
  exact hall [] items rfl

/-- `read` does what `silent` does, and in addition tells the listener `out` of the value: all of
it when it succeeds, and something when it fails. -/
def Tells {ε τ E α β : Type} (out : β → List E) (value : β → α) (read : Get ε (Logged τ E) α)
    (silent : Get ε τ β) : Prop :=
  ∀ t log bytes,
    match silent ⟨t,bytes⟩ with
    | .ok b next => read ⟨⟨t,log⟩,bytes⟩ = .ok (value b) ⟨⟨next.ctx,log ++ out b⟩,next.bytes⟩
    | .error e next =>
      ∃ told, read ⟨⟨t,log⟩,bytes⟩ = .error e ⟨⟨next.ctx,log ++ told⟩,next.bytes⟩

namespace Tells

variable {ε τ υ E α β γ δ : Type} {out : β → List E} {value : β → α} {read : Get ε (Logged τ E) α}
  {silent : Get ε τ β}

theorem of_ok (h : Tells out value read silent) {t : τ} {bytes : Bytes} {b : β} {next : Input τ}
    (hrun : silent ⟨t,bytes⟩ = .ok b next) (log : List E) :
    read ⟨⟨t,log⟩,bytes⟩ = .ok (value b) ⟨⟨next.ctx,log ++ out b⟩,next.bytes⟩ := by
  have hboth := h t log bytes
  rwa [hrun] at hboth

theorem of_error (h : Tells out value read silent) {t : τ} {bytes : Bytes} {e : ε} {next : Input τ}
    (hrun : silent ⟨t,bytes⟩ = .error e next) (log : List E) :
    ∃ told, read ⟨⟨t,log⟩,bytes⟩ = .error e ⟨⟨next.ctx,log ++ told⟩,next.bytes⟩ := by
  have hboth := h t log bytes
  rwa [hrun] at hboth

theorem pure {a : α} {b : β} (hout : out b = []) (hvalue : value b = a) :
    Tells out value (Pure.pure a) (Pure.pure b : Get ε τ β) := by
  intro t log bytes
  change (EStateM.Result.ok a ⟨⟨t,log⟩,bytes⟩ : EStateM.Result ε (Input (Logged τ E)) α) =
    .ok (value b) ⟨⟨t,log ++ out b⟩,bytes⟩
  rw [hout,hvalue,List.append_nil]

theorem quiet {a : Get ε τ α} {k : α → Get ε (Logged τ E) γ} {next : α → Get ε τ δ}
    {out : δ → List E} {value : δ → γ} (h : ∀ x, Tells out value (k x) (next x)) :
    Tells out value (Get.quiet a >>= k) (a >>= next) := by
  intro t log bytes
  cases hrun : a ⟨t,bytes⟩ with
  | ok x middle =>
    have hquiet : (Get.quiet a : Get ε (Logged τ E) α) ⟨⟨t,log⟩,bytes⟩ =
        .ok x ⟨⟨middle.ctx,log⟩,middle.bytes⟩ := by
      simp only [Get.quiet,Get.onPart,hrun]
    rw [Get.bind_of_ok hrun,Get.bind_of_ok hquiet]
    exact h x middle.ctx log middle.bytes
  | error e middle =>
    have hquiet : (Get.quiet a : Get ε (Logged τ E) α) ⟨⟨t,log⟩,bytes⟩ =
        .error e ⟨⟨middle.ctx,log⟩,middle.bytes⟩ := by
      simp only [Get.quiet,Get.onPart,hrun]
    rw [Get.bind_of_error hrun]
    exact ⟨[],by rw [Get.bind_of_error hquiet,List.append_nil]⟩

theorem tell {wanted : Bool} {event : E} {a : α} {b : β}
    (hout : out b = if wanted then [event] else []) (hvalue : value b = a) :
    Tells out value (Get.tell wanted event >>= fun _ => Pure.pure a) (Pure.pure b : Get ε τ β) := by
  intro t log bytes
  change (EStateM.Result.ok a ⟨if wanted then ⟨t,log ++ [event]⟩ else ⟨t,log⟩,bytes⟩ :
      EStateM.Result ε (Input (Logged τ E)) α) = .ok (value b) ⟨⟨t,log ++ out b⟩,bytes⟩
  rw [hout,hvalue]
  cases wanted <;> simp

theorem map {f : β → δ} {g : α → γ} {out' : δ → List E} {value' : δ → γ}
    (h : Tells out value read silent) (hout : ∀ b, out' (f b) = out b)
    (hvalue : ∀ b, value' (f b) = g (value b)) :
    Tells out' value' (read >>= fun a => Pure.pure (g a))
      (silent >>= fun b => Pure.pure (f b)) := by
  intro t log bytes
  cases hrun : silent ⟨t,bytes⟩ with
  | ok b next =>
    rw [Get.bind_of_ok hrun,Get.bind_of_ok (h.of_ok hrun log)]
    change (EStateM.Result.ok (g (value b)) ⟨⟨next.ctx,log ++ out b⟩,next.bytes⟩ :
      EStateM.Result ε (Input (Logged τ E)) γ) = _
    rw [hout,hvalue]
  | error e next =>
    obtain ⟨told,hfail⟩ := h.of_error hrun log
    rw [Get.bind_of_error hrun]
    exact ⟨told,Get.bind_of_error hfail⟩

theorem loop {body : γ → Get ε (Logged τ E) γ} {round : β → Get ε τ (α × β)} (out : α → List E)
    (state : List α → β → γ)
    (h : ∀ seen b, Tells (fun r => out r.1) (fun r => state (seen ++ [r.1]) r.2)
      (body (state seen b)) (round b)) (n : Nat) (seen : List α) (b : β) :
    Tells (fun r => r.1.flatMap out) (fun r => state (seen ++ r.1) r.2)
      (Get.loop n body (state seen b)) (Get.collect n round b) := by
  induction n generalizing seen b with
  | zero =>
    refine pure rfl ?_
    rw [List.append_nil]
  | succ n ih =>
    intro t log bytes
    rw [Get.loop,Get.collect]
    cases hround : round b ⟨t,bytes⟩ with
    | error e middle =>
      obtain ⟨told,hfail⟩ := (h seen b).of_error hround log
      rw [Get.bind_of_error hround]
      exact ⟨told,Get.bind_of_error hfail⟩
    | ok r middle =>
      rw [Get.bind_of_ok hround,Get.bind_of_ok ((h seen b).of_ok hround log)]
      have hrest := ih (seen ++ [r.1]) r.2
      cases hnext : Get.collect n round r.2 middle with
      | error e final =>
        obtain ⟨told,hfail⟩ := hrest.of_error hnext (log ++ out r.1)
        rw [Get.bind_of_error hnext]
        exact ⟨out r.1 ++ told,by rw [hfail,List.append_assoc]⟩
      | ok others final =>
        have hdone := hrest.of_ok hnext (log ++ out r.1)
        rw [Get.bind_of_ok hnext,hdone]
        change (EStateM.Result.ok (state (seen ++ [r.1] ++ others.1) others.2)
          ⟨⟨final.ctx,log ++ out r.1 ++ others.1.flatMap out⟩,final.bytes⟩ :
            EStateM.Result ε (Input (Logged τ E)) γ) =
          .ok (state (seen ++ r.1 :: others.1) others.2)
            ⟨⟨final.ctx,log ++ (r.1 :: others.1).flatMap out⟩,final.bytes⟩
        simp

end Tells

end Jetstreamer.Lib
