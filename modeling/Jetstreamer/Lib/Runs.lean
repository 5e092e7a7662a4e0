import Mathlib
set_option autoImplicit false

namespace Jetstreamer.Lib

theorem bind_ok {ε α β : Type} {x : Except ε α} {f : α → Except ε β} {b : β}
    (h : (x >>= f) = .ok b) : ∃ a, x = .ok a ∧ f a = .ok b := by
  cases x with
  | error e => cases h
  | ok a => exact ⟨a,rfl,h⟩

theorem bind_error {ε α β : Type} {x : Except ε α} {f : α → Except ε β} {e : ε}
    (h : (x >>= f) = .error e) : x = .error e ∨ ∃ a, x = .ok a ∧ f a = .error e := by
  cases x with
  | error e' =>
    cases h
    exact .inl rfl
  | ok a => exact .inr ⟨a,rfl,h⟩

theorem mapError_ok {ε ε' α : Type} {x : Except ε α} {f : ε → ε'} {a : α}
    (h : x.mapError f = .ok a) : x = .ok a := by
  cases x with
  | error e => cases h
  | ok b => exact congrArg Except.ok (Except.ok.inj h)

@[simp] theorem ok_bind {ε α β : Type} (a : α) (f : α → Except ε β) :
    ((.ok a : Except ε α) >>= f) = f a := rfl

/-- A computation that gives a value. -/
def Succeeds {ε α : Type} (x : Except ε α) : Prop := ∃ a, x = .ok a

@[simp] theorem succeeds_ok {ε α : Type} (a : α) : Succeeds (.ok a : Except ε α) := ⟨a,rfl⟩

@[simp] theorem succeeds_pure {ε α : Type} (a : α) : Succeeds (pure a : Except ε α) := ⟨a,rfl⟩

@[simp] theorem succeeds_error {ε α : Type} (e : ε) : ¬Succeeds (.error e : Except ε α) := by
  rintro ⟨a,h⟩
  cases h

theorem succeeds_bind {ε α β : Type} {x : Except ε α} {f : α → Except ε β} :
    Succeeds (x >>= f) ↔ ∃ a, x = .ok a ∧ Succeeds (f a) := by
  cases x with
  | error e =>
    constructor
    · rintro ⟨b,h⟩
      cases h
    · rintro ⟨a,h,-⟩
      cases h
  | ok a => simp

theorem succeeds_bind_iff {ε α β : Type} {x : Except ε α} {f : α → Except ε β} {P Q : Prop}
    (hx : Succeeds x ↔ Q) (hf : ∀ a, x = .ok a → (Succeeds (f a) ↔ P)) :
    Succeeds (x >>= f) ↔ Q ∧ P := by
  rw [succeeds_bind,← hx]
  constructor
  · rintro ⟨a,hok,hrest⟩
    exact ⟨⟨a,hok⟩,(hf a hok).mp hrest⟩
  · rintro ⟨⟨a,hok⟩,hP⟩
    exact ⟨a,hok,(hf a hok).mpr hP⟩

theorem succeeds_bind_pure {ε α β : Type} {x : Except ε α} {g : α → β} :
    Succeeds (x >>= fun a => pure (g a)) ↔ Succeeds x := by
  cases x with
  | error e => exact iff_of_false (succeeds_error e) (succeeds_error e)
  | ok a => simp

/-- A value in `P` or an error in `E`. -/
def Ends {ε α : Type} (P : α → Prop) (E : ε → Prop) : Except ε α → Prop
  | .ok a => P a
  | .error e => E e

theorem Ends.imp {ε α : Type} {P Q : α → Prop} {E F : ε → Prop} {x : Except ε α} (h : Ends P E x)
    (hok : ∀ a, P a → Q a) (herror : ∀ e, E e → F e) : Ends Q F x := by
  cases x with
  | error e => exact herror e h
  | ok a => exact hok a h

theorem Ends.bind {ε α β : Type} {P : α → Prop} {Q : β → Prop} {E : ε → Prop} {x : Except ε α}
    {k : α → Except ε β} (h : Ends P E x) (hk : ∀ a, P a → Ends Q E (k a)) :
    Ends Q E (x >>= k) := by
  cases x with
  | error e => exact h
  | ok a => exact hk a h

theorem forM_ok {ε α : Type} {f : α → Except ε Unit} {items : List α}
    (h : items.forM f = .ok ()) : ∀ item ∈ items, f item = .ok () := by
  induction items with
  | nil => simp
  | cons first rest ih =>
    obtain ⟨_,hfirst,hrest⟩ := bind_ok h
    intro item hmem
    cases hmem with
    | head => exact hfirst
    | tail _ hmem => exact ih hrest item hmem

section Fold

variable {ε σ ι : Type} {step : σ → ι → Except ε σ}

theorem foldlM_concat_ok {start final : σ} {inputs : List ι} {input : ι}
    (h : (inputs ++ [input]).foldlM step start = .ok final) :
    ∃ middle, inputs.foldlM step start = .ok middle ∧ step middle input = .ok final := by
  rw [List.foldlM_append] at h
  obtain ⟨middle,hm,hstep⟩ := bind_ok h
  simp only [List.foldlM_cons,List.foldlM_nil,bind_pure] at hstep
  exact ⟨middle,hm,hstep⟩

theorem foldlM_concat {start middle final : σ} {inputs : List ι} {input : ι}
    (h : inputs.foldlM step start = .ok middle) (hstep : step middle input = .ok final) :
    (inputs ++ [input]).foldlM step start = .ok final := by
  rw [List.foldlM_append,h]
  simp only [List.foldlM_cons,List.foldlM_nil,bind_pure]
  exact hstep

theorem foldlM_invariant {I : σ → Prop} (hstep : ∀ s input t, I s → step s input = .ok t → I t)
    {start final : σ} {inputs : List ι} (hstart : I start)
    (h : inputs.foldlM step start = .ok final) : I final := by
  induction inputs generalizing start with
  | nil =>
    simp only [List.foldlM_nil] at h
    cases h
    exact hstart
  | cons input rest ih =>
    rw [List.foldlM_cons] at h
    obtain ⟨middle,hm,hrest⟩ := bind_ok h
    exact ih (hstep start input middle hstart hm) hrest

end Fold

/-- Every event was allowed by the events before it. -/
def Justified {E : Type} (allowed : List E → E → Prop) (events : List E) : Prop :=
  ∀ before event after, events = before ++ event :: after → allowed before event

variable {E : Type} {allowed : List E → E → Prop}

theorem Justified.nil : Justified allowed [] := by
  intro before event after h
  simp at h

theorem Justified.of_append {events new : List E} (h : Justified allowed (events ++ new)) :
    Justified allowed events := by
  intro before event after heq
  exact h before event (after ++ new) (by simp [heq])

theorem Justified.last {events : List E} {event : E} (h : Justified allowed (events ++ [event])) :
    allowed events event :=
  h events event [] rfl

theorem Justified.append {events new : List E} (h : Justified allowed events)
    (hnew : ∀ before event after, new = before ++ event :: after →
      allowed (events ++ before) event) :
    Justified allowed (events ++ new) := by
  intro before event after heq
  rcases List.append_eq_append_iff.mp heq with ⟨middle,hbefore,hafter⟩ | ⟨middle,hevents,hrest⟩
  · rw [hbefore]
    exact hnew middle event after hafter
  · cases middle with
    | nil =>
      rw [List.append_nil] at hevents
      have hfirst := hnew [] event after hrest.symm
      rwa [List.append_nil,hevents] at hfirst
    | cons head tail =>
      rw [List.cons_append] at hrest
      obtain ⟨rfl,_⟩ := List.cons.inj hrest
      exact h before event tail hevents

theorem Justified.snoc {events : List E} {event : E} (h : Justified allowed events)
    (hevent : allowed events event) : Justified allowed (events ++ [event]) := by
  refine h.append fun before new after heq => ?_
  cases before with
  | nil =>
    obtain ⟨rfl,_⟩ := List.cons.inj heq
    rw [List.append_nil]
    exact hevent
  | cons first rest =>
    obtain ⟨_,hrest⟩ := List.cons.inj heq
    simp at hrest

end Jetstreamer.Lib
