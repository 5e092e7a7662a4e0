import Jetstreamer.Lib.Runs
set_option autoImplicit false

namespace Jetstreamer.Lib

abbrev Bytes := List UInt8

/-- The `w` little-endian bytes of a number below `256 ^ w`. -/
def leBytes : Nat → Nat → Bytes
  | 0, _ => []
  | w+1, v => UInt8.ofNat (v % 256) :: leBytes w (v / 256)

def leValue : Bytes → Nat
  | [] => 0
  | b :: rest => b.toNat + 256 * leValue rest

@[simp] theorem leBytes_length (w v : Nat) : (leBytes w v).length = w := by
  induction w generalizing v with
  | zero => rfl
  | succ w ih => simp [leBytes,ih]

theorem leBytes_take {n w : Nat} (h : n ≤ w) (v : Nat) : (leBytes w v).take n = leBytes n v := by
  induction n generalizing w v with
  | zero => simp [leBytes]
  | succ n ih =>
    obtain ⟨w,rfl⟩ : ∃ k, w = k+1 := ⟨w-1,by omega⟩
    simp only [leBytes,List.take_succ_cons,List.cons.injEq,true_and]
    exact ih (by omega) (v / 256)

theorem leValue_lt (bytes : Bytes) : leValue bytes < 256 ^ bytes.length := by
  induction bytes with
  | nil => simp [leValue]
  | cons b rest ih =>
    have hb := b.toNat_lt
    rw [leValue,List.length_cons,pow_succ]
    omega

theorem leValue_leBytes {w v : Nat} (h : v < 256 ^ w) : leValue (leBytes w v) = v := by
  induction w generalizing v with
  | zero =>
    simp only [pow_zero] at h
    simp only [leBytes,leValue]
    omega
  | succ w ih =>
    have hdiv : v / 256 < 256 ^ w := by
      rw [Nat.div_lt_iff_lt_mul (by decide)]
      simpa only [pow_succ] using h
    simp only [leBytes,leValue,ih hdiv,UInt8.toNat_ofNat']
    omega

/-- An encoder yields the bytes it writes and the state it leaves behind, or fails. -/
def Put (ε σ : Type) := σ → Except ε (Bytes × σ)

namespace Put

variable {ε σ υ α : Type}

def raw (bytes : Bytes) : Put ε σ := fun s => .ok (bytes,s)

def all : List (Put ε σ) → Put ε σ
  | [] => raw []
  | p :: rest => fun s => do
    let first ← p s
    let others ← all rest first.2
    return (first.1 ++ others.1,others.2)

def each (write : α → Put ε σ) (items : List α) : Put ε σ := all (items.map write)

/-- An encoder over one part of a larger state. -/
def onPart (part : υ → σ) (put : σ → υ → υ) (p : Put ε σ) : Put ε υ := fun u => do
  let result ← p (part u)
  return (result.1,put result.2 u)

@[simp] theorem raw_apply (bytes : Bytes) (s : σ) : (raw bytes : Put ε σ) s = .ok (bytes,s) := rfl

@[simp] theorem all_nil (s : σ) : (all [] : Put ε σ) s = .ok ([],s) := rfl

variable {bytes : Bytes}

theorem all_cons_ok {p : Put ε σ} {rest : List (Put ε σ)} {s s' : σ} :
    all (p :: rest) s = .ok (bytes,s') ↔
      ∃ first middle others, p s = .ok (first,middle) ∧ all rest middle = .ok (others,s') ∧
        bytes = first ++ others := by
  constructor
  · intro h
    obtain ⟨⟨first,middle⟩,hp,h⟩ := bind_ok h
    obtain ⟨⟨others,final⟩,hrest,h⟩ := bind_ok h
    cases h
    exact ⟨first,middle,others,hp,hrest,rfl⟩
  · rintro ⟨first,middle,others,hp,hrest,rfl⟩
    simp only [all,hp,hrest,ok_bind]
    rfl

theorem all_cons_of_ok {p : Put ε σ} {rest : List (Put ε σ)} {s middle s' : σ}
    {first others : Bytes} (hp : p s = .ok (first,middle))
    (hrest : all rest middle = .ok (others,s')) : all (p :: rest) s = .ok (first ++ others,s') :=
  all_cons_ok.mpr ⟨first,middle,others,hp,hrest,rfl⟩

theorem all_append_ok {ps qs : List (Put ε σ)} {s s' : σ} :
    all (ps ++ qs) s = .ok (bytes,s') ↔
      ∃ first middle others, all ps s = .ok (first,middle) ∧ all qs middle = .ok (others,s') ∧
        bytes = first ++ others := by
  induction ps generalizing s bytes with
  | nil => simp
  | cons p rest ih =>
    simp only [List.cons_append,all_cons_ok,ih]
    constructor
    · rintro ⟨a,s1,b,hp,⟨c,s2,d,hc,hd,rfl⟩,rfl⟩
      exact ⟨a ++ c,s2,d,⟨a,s1,c,hp,hc,rfl⟩,hd,by simp⟩
    · rintro ⟨a,s1,b,⟨c,s2,d,hp,hd,rfl⟩,hqs,rfl⟩
      exact ⟨c,s2,d ++ b,hp,⟨d,s1,b,hd,hqs,rfl⟩,by simp⟩

theorem all_single (p : Put ε σ) : all [p] = p := by
  funext s
  simp only [all]
  cases p s with
  | error e => rfl
  | ok first => simp [raw,pure,Except.pure]

theorem all_append (ps qs : List (Put ε σ)) (s : σ) :
    all (ps ++ qs) s =
      (all ps s >>= fun first => (all qs first.2).map fun others =>
        (first.1 ++ others.1,others.2)) := by
  induction ps generalizing s with
  | nil =>
    simp only [List.nil_append,all_nil,ok_bind]
    cases all qs s <;> rfl
  | cons p rest ih =>
    simp only [List.cons_append,all]
    cases p s with
    | error e => rfl
    | ok first =>
      simp only [ok_bind,ih]
      cases all rest first.2 with
      | error e => rfl
      | ok middle =>
        simp only [ok_bind,pure,Except.pure]
        cases all qs middle.2 with
        | error e => rfl
        | ok others => simp [Except.map]

variable {write : α → Put ε σ}

theorem each_concat_ok {items : List α} {item : α} {s middle s' : σ}
    {last : Bytes} (h : each write items s = .ok (bytes,middle))
    (hlast : write item middle = .ok (last,s')) :
    each write (items ++ [item]) s = .ok (bytes ++ last,s') := by
  rw [each,List.map_append]
  refine all_append_ok.mpr ⟨bytes,middle,last,h,?_,rfl⟩
  exact all_cons_ok.mpr ⟨last,s',[],hlast,rfl,by simp⟩

theorem sum_le_length_each {size : α → Nat} {items : List α} {s s' : σ}
    (hsize : ∀ item s bytes s', write item s = .ok (bytes,s') → size item ≤ bytes.length)
    (h : each write items s = .ok (bytes,s')) : (items.map size).sum ≤ bytes.length := by
  induction items generalizing s bytes with
  | nil =>
    cases h
    exact Nat.le_refl 0
  | cons item rest ih =>
    obtain ⟨first,middle,others,hfirst,hothers,rfl⟩ := all_cons_ok.mp h
    have := hsize item s first middle hfirst
    have := ih hothers
    rw [List.map_cons,List.sum_cons,List.length_append]
    omega

/-- An encoder that writes its bytes from any state. -/
def Total (p : Put ε σ) : Prop := ∀ s, ∃ bytes s', p s = .ok (bytes,s')

@[simp] theorem total_raw (bytes : Bytes) : (raw bytes : Put ε σ).Total :=
  fun s => ⟨bytes,s,rfl⟩

theorem total_all {ps : List (Put ε σ)} (h : ∀ p ∈ ps, p.Total) : (all ps).Total := by
  induction ps with
  | nil => exact total_raw []
  | cons p rest ih =>
    intro s
    obtain ⟨first,middle,hfirst⟩ := h p List.mem_cons_self s
    obtain ⟨others,s',hothers⟩ := ih (fun q hq => h q (List.mem_cons_of_mem _ hq)) middle
    exact ⟨first ++ others,s',all_cons_of_ok hfirst hothers⟩

theorem total_each (h : ∀ item, (write item).Total) (items : List α) :
    (each write items).Total := by
  refine total_all fun p hp => ?_
  obtain ⟨item,-,rfl⟩ := List.mem_map.mp hp
  exact h item

end Put

/-- What a decoder works on: its own state and the bytes it has not read yet. -/
structure Input (τ : Type) where
  ctx : τ
  bytes : Bytes

/-- A decoder keeps the state it had reached when it fails. -/
abbrev Get (ε τ : Type) := EStateM ε (Input τ)

namespace Get

variable {ε τ υ α β : Type}

/-- The next `n` bytes, or `short` when fewer are left. -/
def take (short : ε) (n : Nat) : Get ε τ {bytes : Bytes // bytes.length = n} := fun input =>
  if h : n ≤ input.bytes.length then
    .ok ⟨input.bytes.take n,by simp [h]⟩ ⟨input.ctx,input.bytes.drop n⟩
  else .error short input

theorem length_cons_val {n : Nat} (first : α) (rest : {items : List α // items.length = n}) :
    (first :: rest.1).length = n + 1 := by
  simp [rest.2]

def times (n : Nat) (read : Get ε τ α) : Get ε τ {items : List α // items.length = n} :=
  match n with
  | 0 => pure ⟨[],rfl⟩
  | n+1 => do
    let first ← read
    let rest ← times n read
    return ⟨first :: rest.1,length_cons_val first rest⟩

/-- `n` rounds of a loop whose body updates an accumulator. -/
def loop (n : Nat) (body : β → Get ε τ β) (start : β) : Get ε τ β :=
  match n with
  | 0 => pure start
  | n+1 => do
    let next ← body start
    loop n body next

def ctx : Get ε τ τ := fun input => .ok input.ctx input

def modifyCtx (f : τ → τ) : Get ε τ Unit := modify fun input => ⟨f input.ctx,input.bytes⟩

/-- A decoder over one part of a larger state. -/
def onPart (part : υ → τ) (put : τ → υ → υ) (read : Get ε τ α) : Get ε υ α := fun input =>
  match read ⟨part input.ctx,input.bytes⟩ with
  | .ok a next => .ok a ⟨put next.ctx input.ctx,next.bytes⟩
  | .error e next => .error e ⟨put next.ctx input.ctx,next.bytes⟩

/-- Reads other bytes on the way, and what it leaves of them. -/
def inside (bytes : Bytes) (read : Get ε τ α) : Get ε τ (α × Bytes) := fun input =>
  match read ⟨input.ctx,bytes⟩ with
  | .ok a next => .ok (a,next.bytes) ⟨next.ctx,input.bytes⟩
  | .error e next => .error e ⟨next.ctx,input.bytes⟩

/-- Reads a value off the front of some bytes. -/
def parse (read : Get ε Unit α) (bytes : Bytes) : Except ε α :=
  match read ⟨(),bytes⟩ with
  | .ok a _ => .ok a
  | .error e _ => .error e

/-- Runs a decoder and books the number of bytes it consumed. -/
def tally (add : Nat → τ → τ) (read : Get ε τ α) : Get ε τ α := fun input =>
  match read input with
  | .ok a next => .ok a ⟨add (input.bytes.length - next.bytes.length) next.ctx,next.bytes⟩
  | .error e next => .error e next

theorem bind_of_ok {read : Get ε τ α} {next : α → Get ε τ β} {input middle : Input τ} {a : α}
    (h : read input = .ok a middle) : (read >>= next) input = next a middle := by
  change EStateM.bind read next input = next a middle
  simp only [EStateM.bind,h]

theorem bind_eq_ok {read : Get ε τ α} {next : α → Get ε τ β} {input left : Input τ} {b : β}
    (h : (read >>= next) input = .ok b left) :
    ∃ a middle, read input = .ok a middle ∧ next a middle = .ok b left := by
  change EStateM.bind read next input = .ok b left at h
  simp only [EStateM.bind] at h
  split at h
  · rename_i a middle hread
    exact ⟨a,middle,hread,h⟩
  · cases h

theorem bind_of_error {read : Get ε τ α} {next : α → Get ε τ β} {input middle : Input τ} {e : ε}
    (h : read input = .error e middle) : (read >>= next) input = .error e middle := by
  change EStateM.bind read next input = .error e middle
  simp only [EStateM.bind,h]

theorem loop_add (m n : Nat) (body : β → Get ε τ β) (start : β) :
    loop (m + n) body start = loop m body start >>= loop n body := by
  induction m generalizing start with
  | zero => rw [Nat.zero_add,loop,pure_bind]
  | succ m ih =>
    rw [Nat.succ_add,loop,loop,bind_assoc]
    congr 1
    funext next
    exact ih next

theorem ofExcept_ok (a : α) : (MonadExcept.ofExcept (.ok a) : Get ε τ α) = pure a := rfl

theorem ctx_bind (next : τ → Get ε τ β) (t : τ) (bytes : Bytes) :
    ((ctx : Get ε τ τ) >>= next) ⟨t,bytes⟩ = next t ⟨t,bytes⟩ := rfl

@[simp] theorem take_append (short : ε) (ctx : τ) (bytes rest : Bytes) :
    take short bytes.length ⟨ctx,bytes ++ rest⟩ = .ok ⟨bytes,rfl⟩ ⟨ctx,rest⟩ := by
  simp [take]

theorem take_of_length {n : Nat} {bytes : Bytes} (short : ε) (ctx : τ) (h : bytes.length = n)
    (rest : Bytes) : take short n ⟨ctx,bytes ++ rest⟩ = .ok ⟨bytes,h⟩ ⟨ctx,rest⟩ := by
  subst h
  exact take_append short ctx bytes rest

end Get

/-- From related states, whatever the encoder writes the decoder reads back as `a`, leaving
what follows untouched, and both end in related states again. -/
def Reads {ε σ τ α : Type} (before : σ → τ → Prop) (p : Put ε σ) (g : Get ε τ α) (a : α)
    (after : σ → τ → Prop) : Prop :=
  ∀ s t bytes s' rest, before s t → p s = .ok (bytes,s') →
    ∃ t', g ⟨t,bytes ++ rest⟩ = .ok a ⟨t',rest⟩ ∧ after s' t'

namespace Reads

variable {ε σ τ υ α β : Type} {P Q R : σ → τ → Prop} {p : Put ε σ} {ps : List (Put ε σ)}
  {g : Get ε τ α} {a : α}

theorem of_raw {bytes : Bytes} (h : ∀ t rest, g ⟨t,bytes ++ rest⟩ = .ok a ⟨t,rest⟩) :
    Reads P (Put.raw bytes : Put ε σ) g a P := by
  intro s t written s' rest hP hp
  cases hp
  exact ⟨t,h t rest,hP⟩

theorem nil (a : α) : Reads P (Put.all [] : Put ε σ) (pure a : Get ε τ α) a P := by
  intro s t written s' rest hP hp
  cases hp
  exact ⟨t,rfl,hP⟩

variable {k : α → Get ε τ β}

theorem cons {b : β} (h : Reads P p g a Q)
    (hrest : Reads Q (Put.all ps) (k a) b R) : Reads P (Put.all (p :: ps)) (g >>= k) b R := by
  intro s t written s' rest hP hp
  obtain ⟨first,middle,others,hfirst,hothers,rfl⟩ := Put.all_cons_ok.mp hp
  obtain ⟨t1,hg,hQ⟩ := h s t first middle (others ++ rest) hP hfirst
  obtain ⟨t2,hk,hR⟩ := hrest middle t1 others s' rest hQ hothers
  refine ⟨t2,?_,hR⟩
  rw [List.append_assoc,Get.bind_of_ok hg,hk]

theorem append {qs : List (Put ε σ)} {b : β} (h : Reads P (Put.all ps) g a Q)
    (hrest : Reads Q (Put.all qs) (k a) b R) : Reads P (Put.all (ps ++ qs)) (g >>= k) b R := by
  intro s t written s' rest hP hp
  obtain ⟨first,middle,others,hfirst,hothers,rfl⟩ := Put.all_append_ok.mp hp
  obtain ⟨t1,hg,hQ⟩ := h s t first middle (others ++ rest) hP hfirst
  obtain ⟨t2,hk,hR⟩ := hrest middle t1 others s' rest hQ hothers
  refine ⟨t2,?_,hR⟩
  rw [List.append_assoc,Get.bind_of_ok hg,hk]

theorem silent {b : β} (h : Reads P (Put.all [] : Put ε σ) g a Q)
    (hrest : Reads Q p (k a) b R) : Reads P p (g >>= k) b R := by
  intro s t written s' rest hP hp
  obtain ⟨t1,hg,hQ⟩ := h s t [] s (written ++ rest) hP rfl
  obtain ⟨t2,hk,hR⟩ := hrest s t1 written s' rest hQ hp
  refine ⟨t2,?_,hR⟩
  rw [List.nil_append] at hg
  rw [Get.bind_of_ok hg,hk]

theorem of_ok {read : Get ε τ α} (h : Reads P p g a Q)
    (hsame : ∀ input a left, g input = .ok a left → read input = .ok a left) :
    Reads P p read a Q := by
  intro s t written s' rest hP hp
  obtain ⟨t',hg,hQ⟩ := h s t written s' rest hP hp
  exact ⟨t',hsame _ _ _ hg,hQ⟩

theorem single (h : Reads P (Put.all [p]) g a Q) : Reads P p g a Q := by
  intro s t written s' rest hP hp
  exact h s t written s' rest hP (Put.all_cons_ok.mpr ⟨written,s',[],hp,rfl,by simp⟩)

theorem all_single (h : Reads P p g a Q) : Reads P (Put.all [p]) g a Q := by
  intro s t written s' rest hP hp
  obtain ⟨first,middle,others,hfirst,hothers,rfl⟩ := Put.all_cons_ok.mp hp
  cases hothers
  simpa using h s t first _ rest hP hfirst

theorem map {f : α → β} (h : Reads P p g a Q) : Reads P p (f <$> g) (f a) Q := by
  intro s t written s' rest hP hp
  obtain ⟨t1,hg,hQ⟩ := h s t written s' rest hP hp
  refine ⟨t1,?_,hQ⟩
  change EStateM.map f g _ = _
  simp only [EStateM.map,hg]

theorem modifyCtx {f : τ → τ} {k : Unit → Get ε τ β} {b : β} (h : ∀ s t, P s t → Q s (f t))
    (hrest : Reads Q p (k ()) b R) : Reads P p (Get.modifyCtx f >>= k) b R := by
  intro s t written s' rest hP hp
  exact hrest s (f t) written s' rest (h s t hP) hp

theorem ctx {k : τ → Get ε τ β} {b : β} (h : ∀ s t, P s t → Reads P p (k t) b Q) :
    Reads P p (Get.ctx >>= k) b Q := by
  intro s t written s' rest hP hp
  exact h s t hP s t written s' rest hP hp

theorem tally {add : Nat → τ → τ} (h : Reads P p g a Q) (hadd : ∀ n s t, Q s t → Q s (add n t)) :
    Reads P p (Get.tally add g) a Q := by
  intro s t written s' rest hP hp
  obtain ⟨t1,hg,hQ⟩ := h s t written s' rest hP hp
  refine ⟨add written.length t1,?_,hadd _ s' t1 hQ⟩
  simp only [Get.tally,hg,List.length_append,Nat.add_sub_cancel_right]

theorem onPart {σ' : Type} {part : υ → τ} {put : τ → υ → υ} {part' : σ' → σ}
    {put' : σ → σ' → σ'} {P' Q' : σ' → υ → Prop} (h : Reads P p g a Q)
    (hP : ∀ s u, P' s u → P (part' s) (part u))
    (hQ : ∀ s u s' t, P' s u → Q s' t → Q' (put' s' s) (put t u)) :
    Reads P' (Put.onPart part' put' p) (Get.onPart part put g) a Q' := by
  intro s u written final rest hP' hp
  obtain ⟨⟨bytes,s'⟩,hput,heq⟩ := bind_ok hp
  cases heq
  obtain ⟨t,hg,hQt⟩ := h (part' s) (part u) bytes s' rest (hP s u hP') hput
  refine ⟨put t u,?_,hQ s u s' t hP' hQt⟩
  simp only [Get.onPart,hg]

theorem each {write : α → Put ε σ} {items : List α}
    (h : ∀ item ∈ items, Reads P (write item) g item P) :
    Reads P (Put.each write items) (Get.times items.length g) ⟨items,rfl⟩ P := by
  induction items with
  | nil => exact nil _
  | cons first rest ih =>
    have hrest := ih fun item hmem => h item (List.mem_cons_of_mem _ hmem)
    refine cons (h first List.mem_cons_self) (single ?_)
    exact cons hrest (nil _)

theorem loop {write : α → Put ε σ} {items : List α} {body : β → Get ε τ β} {f : List α → β}
    {I : List α → σ → τ → Prop}
    (h : ∀ seen item rest, items = seen ++ item :: rest →
      Reads (I seen) (write item) (body (f seen)) (f (seen ++ [item])) (I (seen ++ [item]))) :
    Reads (I []) (Put.each write items) (Get.loop items.length body (f [])) (f items)
      (I items) := by
  have hall : ∀ seen rest, items = seen ++ rest →
      Reads (I seen) (Put.each write rest) (Get.loop rest.length body (f seen)) (f items)
        (I items) := by
    intro seen rest heq
    induction rest generalizing seen with
    | nil =>
      rw [List.append_nil] at heq
      rw [heq]
      exact nil _
    | cons item rest ih =>
      exact cons (h seen item rest heq) (ih (seen ++ [item]) (by simp [heq]))
  exact hall [] items rfl

end Reads

/-- From related states, the decoder refuses whatever the encoder writes, and says why. -/
def Fails {ε σ τ α : Type} (before : σ → τ → Prop) (p : Put ε σ) (g : Get ε τ α) (e : ε) : Prop :=
  ∀ s t bytes s' rest, before s t → p s = .ok (bytes,s') →
    ∃ next, g ⟨t,bytes ++ rest⟩ = .error e next

namespace Fails

variable {ε σ τ α β : Type} {P Q : σ → τ → Prop} {p : Put ε σ} {ps : List (Put ε σ)}
  {g : Get ε τ α} {a : α} {e : ε}

theorem bind {k : α → Get ε τ β} (h : Fails P p g e) : Fails P p (g >>= k) e := by
  intro s t written s' rest hP hp
  obtain ⟨next,hg⟩ := h s t written s' rest hP hp
  exact ⟨next,Get.bind_of_error hg⟩

theorem head (h : Fails P p g e) : Fails P (Put.all (p :: ps)) g e := by
  intro s t written s' rest hP hp
  obtain ⟨first,middle,others,hfirst,-,rfl⟩ := Put.all_cons_ok.mp hp
  rw [List.append_assoc]
  exact h s t first middle (others ++ rest) hP hfirst

theorem cons {k : α → Get ε τ β} (h : Reads P p g a Q) (hrest : Fails Q (Put.all ps) (k a) e) :
    Fails P (Put.all (p :: ps)) (g >>= k) e := by
  intro s t written s' rest hP hp
  obtain ⟨first,middle,others,hfirst,hothers,rfl⟩ := Put.all_cons_ok.mp hp
  obtain ⟨t1,hg,hQ⟩ := h s t first middle (others ++ rest) hP hfirst
  rw [List.append_assoc,Get.bind_of_ok hg]
  exact hrest middle t1 others s' rest hQ hothers

theorem tally {add : Nat → τ → τ} (h : Fails P p g e) : Fails P p (Get.tally add g) e := by
  intro s t written s' rest hP hp
  obtain ⟨next,hg⟩ := h s t written s' rest hP hp
  exact ⟨next,by simp only [Get.tally,hg]⟩

theorem loop {write : α → Put ε σ} {seen rest : List α} {bad : α} {body : β → Get ε τ β}
    {start b : β} (hseen : Reads P (Put.each write seen) (Get.loop seen.length body start) b Q)
    (hbad : Fails Q (write bad) (body b) e) :
    Fails P (Put.each write (seen ++ bad :: rest))
      (Get.loop (seen ++ bad :: rest).length body start) e := by
  intro s t written s' tail hP hp
  rw [Put.each,List.map_append] at hp
  obtain ⟨first,middle,others,hfirst,hothers,rfl⟩ := Put.all_append_ok.mp hp
  obtain ⟨t1,hg,hQ⟩ := hseen s t first middle (others ++ tail) hP hfirst
  obtain ⟨next,hfail⟩ := (head hbad).bind middle t1 others s' tail hQ hothers
  refine ⟨next,?_⟩
  rw [List.length_append,List.length_cons,Get.loop_add,List.append_assoc,Get.bind_of_ok hg]
  exact hfail

end Fails

end Jetstreamer.Lib
