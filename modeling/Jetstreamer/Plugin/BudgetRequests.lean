import Jetstreamer.Plugin.TxMetadata
set_option autoImplicit false

namespace Jetstreamer.Plugin
open Lib Horizon

section Saturating

@[simp] theorem toNat_satAdd (a b : UInt64) :
    (satAdd a b).toNat = min (2 ^ 64 - 1) (a.toNat + b.toNat) := by
  unfold satAdd
  split
  · rename_i h
    rw [UInt64.toNat_add,Nat.mod_eq_of_lt h]
    omega
  · rw [UInt64.toNat_ofNat_of_lt' (by decide)]
    omega

@[simp] theorem toNat_satMul (a b : UInt64) :
    (satMul a b).toNat = min (2 ^ 64 - 1) (a.toNat * b.toNat) := by
  unfold satMul
  split
  · rename_i h
    rw [UInt64.toNat_mul,Nat.mod_eq_of_lt h]
    omega
  · rw [UInt64.toNat_ofNat_of_lt' (by decide)]
    omega

@[simp] theorem toNat_satSub (a b : UInt64) : (satSub a b).toNat = a.toNat - b.toNat := by
  unfold satSub
  split
  · rename_i h
    exact UInt64.toNat_sub_of_le a b h
  · rename_i h
    have : a.toNat < b.toNat := by simpa [UInt64.le_iff_toNat_le] using h
    rw [UInt64.toNat_zero]
    omega

@[simp] theorem toNat_satAdd32 (a b : UInt32) :
    (satAdd32 a b).toNat = min (2 ^ 32 - 1) (a.toNat + b.toNat) := by
  unfold satAdd32
  split
  · rename_i h
    rw [UInt32.toNat_add,Nat.mod_eq_of_lt h]
    omega
  · rw [UInt32.toNat_ofNat_of_lt' (by decide)]
    omega

@[simp] theorem toNat_satMul32 (a b : UInt32) :
    (satMul32 a b).toNat = min (2 ^ 32 - 1) (a.toNat * b.toNat) := by
  unfold satMul32
  split
  · rename_i h
    rw [UInt32.toNat_mul,Nat.mod_eq_of_lt h]
    omega
  · rw [UInt32.toNat_ofNat_of_lt' (by decide)]
    omega

theorem min_add_min (a b : Nat) :
    min (2 ^ 64 - 1) (min (2 ^ 64 - 1) a + b) = min (2 ^ 64 - 1) (a + b) := by
  omega

theorem add_min_min (a b c d e : Nat) :
    min (2 ^ 64 - 1) (a + min (2 ^ 64 - 1) b + c + d + e) =
      min (2 ^ 64 - 1) (a + b + c + d + e) := by
  omega

theorem min_pages {size : Nat} (h : size ≤ 67108864) :
    min (2 ^ 64 - 1) (min (2 ^ 64 - 1) (size + 32767) / 32768 * 8) =
      8 * ((size + 32767) / 32768) := by
  rw [min_eq_right (by omega),min_eq_right (by omega),Nat.mul_comm]

theorem toNat_min32 (a b : UInt32) : (min a b).toNat = min a.toNat b.toNat := by
  change (if a ≤ b then a else b).toNat = _
  split
  · rename_i h
    exact (min_eq_left (UInt32.le_iff_toNat_le.mp h)).symm
  · rename_i h
    have : b.toNat < a.toNat := by simpa [UInt32.le_iff_toNat_le] using h
    exact (min_eq_right (le_of_lt this)).symm

end Saturating

namespace SchedulerMetrics

/-- What an instruction of the compute budget asks for. -/
inductive BudgetRequest where
  | heapFrame
  | computeUnitLimit
  | computeUnitPrice
  | loadedAccountsDataSizeLimit
  deriving DecidableEq

def BudgetRequest.tag : BudgetRequest → UInt8
  | .heapFrame => 1
  | .computeUnitLimit => 2
  | .computeUnitPrice => 3
  | .loadedAccountsDataSizeLimit => 4

def BudgetRequest.decode : BudgetRequest → Bytes → Option Nat
  | .computeUnitPrice, data => (decodeComputeBudgetU64 data).map UInt64.toNat
  | _, data => (decodeComputeBudgetU32 data).map UInt32.toNat

theorem BudgetRequest.tag_injective {k l : BudgetRequest} (h : k.tag = l.tag) : k = l := by
  cases k <;> cases l <;> first | rfl | cases h

def Requested.asked (r : Requested) : BudgetRequest → Option Nat
  | .heapFrame => r.heapSize.map UInt32.toNat
  | .computeUnitLimit => r.computeUnitLimit.map UInt32.toNat
  | .computeUnitPrice => r.computeUnitPrice.map UInt64.toNat
  | .loadedAccountsDataSizeLimit => r.loadedAccountsDataSizeLimit.map UInt32.toNat

theorem setOnce_eq_some {α : Type} {target next : Option α} {value : α} :
    setOnce target value = some next ↔ target = none ∧ next = some value := by
  cases target <;> simp [setOnce,eq_comm]

variable {r' r : Requested} {ix : InstructionView} {instructions : List InstructionView}

theorem request_eq_some (h : request r ix = some r') :
    ∃ kind value, ix.data.head? = some kind.tag ∧ kind.decode ix.data = some value ∧
      (∀ k, (r'.asked k).toList = (r.asked k).toList ++ if k = kind then [value] else []) ∧
      r'.builtinInstructions = r.builtinInstructions ∧
      r'.nonBuiltinInstructions = r.nonBuiltinInstructions := by
  unfold request at h
  obtain ⟨tag,htag,h⟩ := Option.bind_eq_some_iff.mp h
  -- each tag has its own field; the four branches differ in nothing else
  split at h
  case h_5 => cases h
  all_goals
    obtain ⟨value,hvalue,h⟩ := Option.bind_eq_some_iff.mp h
    obtain ⟨next,hnext,h⟩ := Option.bind_eq_some_iff.mp h
    obtain ⟨hfree,rfl⟩ := setOnce_eq_some.mp hnext
    cases h
  · exact ⟨.heapFrame,value.toNat,htag,by simp [BudgetRequest.decode,hvalue],
      fun k => by cases k <;> simp [Requested.asked,hfree],rfl,rfl⟩
  · exact ⟨.computeUnitLimit,value.toNat,htag,by simp [BudgetRequest.decode,hvalue],
      fun k => by cases k <;> simp [Requested.asked,hfree],rfl,rfl⟩
  · exact ⟨.computeUnitPrice,value.toNat,htag,by simp [BudgetRequest.decode,hvalue],
      fun k => by cases k <;> simp [Requested.asked,hfree],rfl,rfl⟩
  · exact ⟨.loadedAccountsDataSizeLimit,value.toNat,htag,by simp [BudgetRequest.decode,hvalue],
      fun k => by cases k <;> simp [Requested.asked,hfree],rfl,rfl⟩

theorem request_succeeds {kind : BudgetRequest} {value : Nat}
    (htag : ix.data.head? = some kind.tag) (hvalue : kind.decode ix.data = some value)
    (hfree : r.asked kind = none) : ∃ r', request r ix = some r' := by
  cases kind <;>
  · simp only [Requested.asked,Option.map_eq_none_iff] at hfree
    simp only [BudgetRequest.decode,Option.map_eq_some_iff] at hvalue
    obtain ⟨v,hv,-⟩ := hvalue
    simp [request,htag,BudgetRequest.tag,hv,hfree,setOnce]

variable (ids : SdkIds) (accounts : ResolvedAccounts)

def program (ix : InstructionView) : Option Address := accounts.get ix.programIdIndex.toNat

/-- The value an instruction asks for, if it asks for one of this kind. -/
def requestOf (kind : BudgetRequest) (ix : InstructionView) : Option Nat :=
  if program accounts ix = some ids.computeBudget ∧ ix.data.head? = some kind.tag then
    kind.decode ix.data
  else none

def requests (kind : BudgetRequest) (instructions : List InstructionView) : List Nat :=
  instructions.filterMap (requestOf ids accounts kind)

def callsBuiltin (ix : InstructionView) : Bool := (program accounts ix).any (isAgave42Builtin ids)

def callsOther (ix : InstructionView) : Bool :=
  (program accounts ix).any fun p => !isAgave42Builtin ids p

/-- The program is known, and a call of the compute budget asks for something. -/
def Admissible (ix : InstructionView) : Prop :=
  ∃ p, program accounts ix = some p ∧
    (p = ids.computeBudget → ∃ kind value, requestOf ids accounts kind ix = some value)

/-- What one instruction adds to the requests and counts before it. -/
structure Added (r : Requested) (ix : InstructionView) (r' : Requested) : Prop where
  asked : ∀ kind, (r'.asked kind).toList =
    (r.asked kind).toList ++ (requestOf ids accounts kind ix).toList
  builtin : r'.builtinInstructions =
    if callsBuiltin ids accounts ix then satAdd32 r.builtinInstructions 1
    else r.builtinInstructions
  nonBuiltin : r'.nonBuiltinInstructions =
    if callsOther ids accounts ix then satAdd32 r.nonBuiltinInstructions 1
    else r.nonBuiltinInstructions

variable {ids accounts}

theorem isAgave42Builtin_computeBudget : isAgave42Builtin ids ids.computeBudget = true := by
  simp [isAgave42Builtin]

theorem requestOf_eq {kind : BudgetRequest} {value : Nat}
    (hprogram : program accounts ix = some ids.computeBudget)
    (htag : ix.data.head? = some kind.tag) (hvalue : kind.decode ix.data = some value)
    (k : BudgetRequest) :
    (requestOf ids accounts k ix).toList = if k = kind then [value] else [] := by
  by_cases hk : k = kind
  · subst hk
    simp [requestOf,hprogram,htag,hvalue]
  · have hne : kind.tag ≠ k.tag := fun h => hk (BudgetRequest.tag_injective h).symm
    simp [requestOf,htag,hk,hne]

theorem requestOf_other {p : Address} (hprogram : program accounts ix = some p)
    (hp : p ≠ ids.computeBudget) (kind : BudgetRequest) :
    requestOf ids accounts kind ix = none := by
  simp [requestOf,hprogram,hp]

theorem addInstruction_eq_some (h : addInstruction ids accounts r ix = some r') :
    Admissible ids accounts ix ∧ Added ids accounts r ix r' := by
  unfold addInstruction at h
  obtain ⟨p,hget,h⟩ := Option.bind_eq_some_iff.mp h
  have hprogram : program accounts ix = some p := hget
  split at h
  · rename_i hp
    subst hp
    obtain ⟨r1,hr1,h⟩ := Option.bind_eq_some_iff.mp h
    cases h
    obtain ⟨kind,value,htag,hvalue,hasked,hbuiltin,hother⟩ := request_eq_some hr1
    have hlist := requestOf_eq hprogram htag hvalue
    have hsome : requestOf ids accounts kind ix = some value := by
      simp [requestOf,hprogram,htag,hvalue]
    refine ⟨⟨_,hprogram,fun _ => ⟨kind,value,hsome⟩⟩,?_,?_,?_⟩
    · intro k
      rw [hlist]
      exact hasked k
    · simp [callsBuiltin,hprogram,isAgave42Builtin_computeBudget,hbuiltin]
    · simp [callsOther,hprogram,isAgave42Builtin_computeBudget,hother]
  · rename_i hp
    refine ⟨⟨p,hprogram,fun h => absurd h hp⟩,?_⟩
    split at h
    all_goals
      rename_i hbuiltin
      cases h
      refine ⟨fun k => ?_,?_,?_⟩
      · rw [requestOf_other hprogram hp,Option.toList_none,List.append_nil]
        cases k <;> rfl
      · simp [callsBuiltin,hprogram,hbuiltin]
      · simp [callsOther,hprogram,hbuiltin]

theorem addInstruction_succeeds (h : Admissible ids accounts ix)
    (hfree : ∀ kind value, requestOf ids accounts kind ix = some value → r.asked kind = none) :
    ∃ r', addInstruction ids accounts r ix = some r' := by
  obtain ⟨p,hprogram,hask⟩ := h
  have hget : accounts.get ix.programIdIndex.toNat = some p := hprogram
  by_cases hp : p = ids.computeBudget
  · obtain ⟨kind,value,hvalue⟩ := hask hp
    have hnone := hfree kind value hvalue
    unfold requestOf at hvalue
    split at hvalue
    · rename_i hcall
      obtain ⟨r',hr'⟩ := request_succeeds hcall.2 hvalue hnone
      simp [addInstruction,hget,hp,hr']
    · cases hvalue
  · by_cases hbuiltin : isAgave42Builtin ids p <;> simp [addInstruction,hget,hp,hbuiltin]

variable (ids accounts)

/-- The requests and counts of a whole list, in numbers that do not overflow. -/
structure Collected (instructions : List InstructionView) (r : Requested) : Prop where
  asked : ∀ kind, (r.asked kind).toList = requests ids accounts kind instructions
  builtin : r.builtinInstructions.toNat =
    min (2 ^ 32 - 1) (instructions.countP (callsBuiltin ids accounts))
  nonBuiltin : r.nonBuiltinInstructions.toNat =
    min (2 ^ 32 - 1) (instructions.countP (callsOther ids accounts))

variable {ids accounts}

theorem requests_append (kind : BudgetRequest) (instructions : List InstructionView)
    (ix : InstructionView) : requests ids accounts kind (instructions ++ [ix]) =
      requests ids accounts kind instructions ++ (requestOf ids accounts kind ix).toList := by
  rw [requests,List.filterMap_append]
  cases h : requestOf ids accounts kind ix <;> simp [requests,h]

theorem Collected.add (h : Collected ids accounts instructions r)
    (hadd : Added ids accounts r ix r') :
    Collected ids accounts (instructions ++ [ix]) r' := by
  refine ⟨fun kind => ?_,?_,?_⟩
  · rw [hadd.asked,h.asked,requests_append]
  · rw [hadd.builtin,List.countP_append,List.countP_singleton]
    split
    · rw [toNat_satAdd32,h.builtin,UInt32.toNat_one]
      omega
    · exact h.builtin
  · rw [hadd.nonBuiltin,List.countP_append,List.countP_singleton]
    split
    · rw [toNat_satAdd32,h.nonBuiltin,UInt32.toNat_one]
      omega
    · exact h.nonBuiltin

theorem Requested.ext_asked (hasked : ∀ kind, r.asked kind = r'.asked kind)
    (hbuiltin : r.builtinInstructions = r'.builtinInstructions)
    (hother : r.nonBuiltinInstructions = r'.nonBuiltinInstructions) : r = r' := by
  have hinj32 : Function.Injective (Option.map UInt32.toNat) :=
    Option.map_injective fun _ _ => UInt32.toNat_inj.mp
  have hinj64 : Function.Injective (Option.map UInt64.toNat) :=
    Option.map_injective fun _ _ => UInt64.toNat_inj.mp
  have h1 := hinj32 (hasked .heapFrame)
  have h2 := hinj32 (hasked .computeUnitLimit)
  have h3 := hinj64 (hasked .computeUnitPrice)
  have h4 := hinj32 (hasked .loadedAccountsDataSizeLimit)
  cases r
  cases r'
  simp_all

theorem toList_injective {α : Type} {o o' : Option α} (h : o.toList = o'.toList) : o = o' := by
  cases o <;> cases o' <;> simp_all

theorem Collected.unique
    (h : Collected ids accounts instructions r) (h' : Collected ids accounts instructions r') :
    r = r' := by
  refine Requested.ext_asked (fun kind => ?_) (UInt32.toNat_inj.mp ?_) (UInt32.toNat_inj.mp ?_)
  · exact toList_injective ((h.asked kind).trans (h'.asked kind).symm)
  · exact h.builtin.trans h'.builtin.symm
  · exact h.nonBuiltin.trans h'.nonBuiltin.symm

theorem collect_succeeds (hall : ∀ ix ∈ instructions, Admissible ids accounts ix)
    (honce : ∀ kind, (requests ids accounts kind instructions).length ≤ 1) :
    ∃ r, instructions.foldlM (addInstruction ids accounts) {} = some r ∧
      Collected ids accounts instructions r := by
  induction instructions using List.reverseRecOn with
  | nil => exact ⟨{},rfl,fun kind => by cases kind <;> rfl,rfl,rfl⟩
  | append_singleton rest ix ih =>
    have hbefore (kind : BudgetRequest) : (requests ids accounts kind rest).length ≤ 1 := by
      have := honce kind
      rw [requests_append,List.length_append] at this
      omega
    obtain ⟨r,hr,hcollected⟩ := ih (fun x hx => hall x (by simp [hx])) hbefore
    have hfree (kind : BudgetRequest) (value : Nat)
        (hvalue : requestOf ids accounts kind ix = some value) : r.asked kind = none := by
      have hlen := honce kind
      rw [requests_append,hvalue,← hcollected.asked] at hlen
      cases hasked : r.asked kind with
      | none => rfl
      | some v => simp [hasked] at hlen
    obtain ⟨r',hr'⟩ := addInstruction_succeeds (hall ix (by simp)) hfree
    refine ⟨r',?_,hcollected.add (addInstruction_eq_some hr').2⟩
    simp [List.foldlM_append,hr,hr']

theorem collect_eq_some (h : instructions.foldlM (addInstruction ids accounts) {} = some r) :
    (∀ ix ∈ instructions, Admissible ids accounts ix) ∧ Collected ids accounts instructions r := by
  induction instructions using List.reverseRecOn generalizing r with
  | nil =>
    cases h
    exact ⟨by simp,fun kind => by cases kind <;> rfl,rfl,rfl⟩
  | append_singleton rest ix ih =>
    rw [List.foldlM_append] at h
    obtain ⟨r1,hr1,h⟩ := Option.bind_eq_some_iff.mp h
    simp only [List.foldlM_cons,List.foldlM_nil] at h
    obtain ⟨r2,hr2,h⟩ := Option.bind_eq_some_iff.mp h
    cases h
    obtain ⟨hall,hcollected⟩ := ih hr1
    obtain ⟨hix,hadded⟩ := addInstruction_eq_some hr2
    refine ⟨fun x hx => ?_,hcollected.add hadded⟩
    rcases List.mem_append.mp hx with hx | hx
    · exact hall x hx
    · rw [List.mem_singleton.mp hx]
      exact hix

theorem toList_of_perm {o : Option Nat} {l : List Nat} (h : o.toList.Perm l) : l = o.toList := by
  cases o with
  | none => exact List.nil_perm.mp h
  | some v => exact (List.singleton_perm.mp h).symm

theorem Collected.perm {other : List InstructionView}
    (h : Collected ids accounts instructions r) (hperm : instructions.Perm other) :
    Collected ids accounts other r := by
  refine ⟨fun kind => ?_,?_,?_⟩
  · have hrequests : (requests ids accounts kind instructions).Perm
        (requests ids accounts kind other) := hperm.filterMap _
    rw [← h.asked kind] at hrequests
    exact (toList_of_perm hrequests).symm
  · rw [h.builtin,hperm.countP_eq]
  · rw [h.nonBuiltin,hperm.countP_eq]

theorem collect_perm {other : List InstructionView} (h : instructions.Perm other) :
    instructions.foldlM (addInstruction ids accounts) {} =
      other.foldlM (addInstruction ids accounts) {} := by
  have hforward {a b : List InstructionView} (hab : a.Perm b) {r : Requested}
      (hr : a.foldlM (addInstruction ids accounts) {} = some r) :
      b.foldlM (addInstruction ids accounts) {} = some r := by
    obtain ⟨hall,hcollected⟩ := collect_eq_some hr
    have hb := hcollected.perm hab
    have honce (kind : BudgetRequest) : (requests ids accounts kind b).length ≤ 1 := by
      rw [← hb.asked]
      cases r.asked kind <;> simp
    obtain ⟨r',hr',hcollected'⟩ := collect_succeeds
        (fun ix hix => hall ix (hab.mem_iff.mpr hix)) honce
    rw [hr',hcollected'.unique hb]
  exact Option.ext fun r => ⟨hforward h,hforward h.symm⟩

end SchedulerMetrics

end Jetstreamer.Plugin
