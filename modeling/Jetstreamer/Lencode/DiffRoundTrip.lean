import Jetstreamer.Lencode.Diff
set_option autoImplicit false

namespace Jetstreamer.Lencode
open Lib

/-- The two blobs agree from `a` up to `b`. -/
def Agree (old new : Bytes) (a b : Nat) : Prop := ∀ j, a ≤ j → j < b → old[j]? = new[j]?

/-- Past `cursor`, the patches say everything in which `new` differs from `old`. -/
inductive Covers (old new : Bytes) : Nat → List Patch → Prop where
  | nil {cursor : Nat} (agree : Agree old new cursor new.length) : Covers old new cursor []
  | cons {cursor : Nat} {p : Patch} {rest : List Patch} (start : cursor ≤ p.offset)
      (agree : Agree old new cursor p.offset) (inside : p.offset ≤ old.length)
      (filled : p.data ≠ []) (data : (new.drop p.offset).take p.data.length = p.data)
      (others : Covers old new (p.offset + p.data.length) rest) :
      Covers old new cursor (p :: rest)

variable {old new : Bytes} {cursor : Nat} {rest : List Patch}

theorem Covers.fits {p : Patch} (h : Covers old new cursor (p :: rest)) :
    p.offset < new.length ∧ p.offset + p.data.length ≤ new.length := by
  cases h with
  | cons hle hagree hin hne hdata hrest =>
    have hpos := List.length_pos_iff.mpr hne
    have hlen := congrArg List.length hdata
    simp only [List.length_take,List.length_drop] at hlen
    omega

theorem tailPatch_covers (h : cursor ≤ old.length)
    (hagree : Agree old new cursor (min old.length new.length)) :
    Covers old new cursor (tailPatch old new) := by
  unfold tailPatch
  split
  · rename_i hlt
    refine .cons h ?_ le_rfl ?_ ?_ (.nil ?_)
    · rwa [Nat.min_eq_left (by omega)] at hagree
    · exact List.ne_nil_of_length_pos (by simp; omega)
    · simp
    · intro j hj hlt'
      simp only [List.length_drop] at hj
      omega
  · rename_i hge
    refine .nil ?_
    rwa [Nat.min_eq_right (by omega)] at hagree

theorem take_drop_succ {k len : Nat} {n : UInt8} {ns data : Bytes}
    (hns : n :: ns = new.drop (k + len)) (hlen : data.length = len)
    (hdata : (new.drop k).take len = data) :
    (new.drop k).take (data ++ [n]).length = data ++ [n] := by
  have hget : (new.drop k)[len]? = some n := by
    have := congrArg List.head? hns
    simpa [List.getElem?_drop] using this.symm
  rw [List.length_append,List.length_singleton,hlen,List.take_add_one,hdata,hget]
  rfl

/-- What the scan knows of the region it is in when it has compared `i` bytes. -/
def OpenRun (old new : Bytes) (cursor i : Nat) : Option Patch → Prop
  | none => cursor ≤ i ∧ Agree old new cursor i
  | some p => cursor ≤ p.offset ∧ Agree old new cursor p.offset ∧ p.data ≠ [] ∧
      p.offset + p.data.length = i ∧ (new.drop p.offset).take p.data.length = p.data

theorem OpenRun.close {i : Nat} {run : Option Patch}
    (h : OpenRun old new cursor i run) (hi : i ≤ old.length)
    (hrest : ∀ cursor', cursor' ≤ i → Agree old new cursor' i → Covers old new cursor' rest) :
    Covers old new cursor (run.toList ++ rest) := by
  cases run with
  | none => exact hrest cursor h.1 h.2
  | some p =>
    obtain ⟨hle,hagree,hne,hend,hdata⟩ := h
    refine .cons hle hagree (by omega) hne hdata (hrest _ hend.le ?_)
    intro j hj hlt
    omega

theorem OpenRun.extend {i : Nat} {run : Option Patch} {n : UInt8}
    {ns : Bytes} (h : OpenRun old new cursor i run) (hns : n :: ns = new.drop i) :
    OpenRun old new cursor (i+1)
      (some (run.elim ⟨i,[n]⟩ fun p => ⟨p.offset,p.data ++ [n]⟩)) := by
  cases run with
  | none => exact ⟨h.1,h.2,by simp,rfl,by simp [← hns]⟩
  | some p =>
    obtain ⟨hle,hagree,-,hend,hdata⟩ := h
    refine ⟨hle,hagree,by simp,by simp [← hend,Nat.add_assoc],?_⟩
    have hns' : n :: ns = new.drop (p.offset + p.data.length) := by rw [hend,hns]
    exact take_drop_succ hns' rfl hdata

theorem scan_covers (os ns : Bytes) {i : Nat} {run : Option Patch}
    (hos : os = old.drop i) (hns : ns = new.drop i) (hi : i ≤ old.length) (hn : i ≤ new.length)
    (hrun : OpenRun old new cursor i run) :
    Covers old new cursor (scan i run os ns ++ tailPatch old new) := by
  induction os generalizing ns i cursor run with
  | nil =>
    have hlen := congrArg List.length hos
    simp only [List.length_nil,List.length_drop] at hlen
    refine hrun.close hi fun cursor' hle hagree => tailPatch_covers (by omega) ?_
    rwa [show min old.length new.length = i by omega]
  | cons o os ih =>
    have hlen := congrArg List.length hos
    simp only [List.length_cons,List.length_drop] at hlen
    cases ns with
    | nil =>
      have hlen' := congrArg List.length hns
      simp only [List.length_nil,List.length_drop] at hlen'
      refine hrun.close hi fun cursor' hle hagree => tailPatch_covers (by omega) ?_
      rwa [show min old.length new.length = i by omega]
    | cons n ns =>
      have hlen' := congrArg List.length hns
      simp only [List.length_cons,List.length_drop] at hlen'
      have hos' : os = old.drop (i+1) := by rw [← List.drop_drop,← hos]; rfl
      have hns' : ns = new.drop (i+1) := by rw [← List.drop_drop,← hns]; rfl
      by_cases hne : o ≠ n
      · simp only [scan,if_pos hne]
        exact ih ns hos' hns' (by omega) (by omega) (hrun.extend hns)
      · simp only [scan,if_neg hne,List.append_assoc]
        refine hrun.close hi fun cursor' hle hagree => ?_
        refine ih ns hos' hns' (by omega) (by omega) ⟨by omega,?_⟩
        intro j hj hlt
        rcases Nat.lt_succ_iff_lt_or_eq.mp hlt with hlt | rfl
        · exact hagree j hj hlt
        · have ho := congrArg List.head? hos
          have hn' := congrArg List.head? hns
          simp only [List.head?_cons,List.head?_drop] at ho hn'
          rw [← ho,← hn',not_not.mp hne]

theorem Covers.join {p q : Patch} (h : Covers old new cursor (p :: q :: rest)) :
    Covers old new cursor
      (⟨p.offset,p.data ++ (new.take q.offset).drop (p.offset + p.data.length) ++ q.data⟩ ::
        rest) := by
  cases h with
  | cons hle hagree hin hne hdata hq =>
  obtain ⟨hlt,-⟩ := hq.fits
  cases hq with
  | cons hle' hagree' hin' hne' hdata' hrest =>
  have hlen : ((new.take q.offset).drop (p.offset + p.data.length)).length =
      q.offset - (p.offset + p.data.length) := by
    simp only [List.length_drop,List.length_take]
    omega
  have hend : p.offset + (p.data ++ (new.take q.offset).drop (p.offset + p.data.length) ++
      q.data).length = q.offset + q.data.length := by
    simp only [List.length_append,hlen]
    omega
  refine .cons hle hagree hin (by simp [hne]) ?_ (by rw [hend]; exact hrest)
  have hsplit : (p.data ++ (new.take q.offset).drop (p.offset + p.data.length) ++
      q.data).length = p.data.length + ((q.offset - (p.offset + p.data.length)) +
        q.data.length) := by
    simp only [List.length_append,hlen]
    omega
  simp only [hsplit]
  rw [List.take_add,List.take_add,hdata,List.drop_drop,List.drop_drop,List.append_assoc]
  rw [show p.offset + p.data.length + (q.offset - (p.offset + p.data.length)) = q.offset by omega,
    hdata',List.drop_take]

theorem coalesce_covers {last : Patch} (h : Covers old new cursor (last :: rest)) :
    Covers old new cursor (coalesce new last rest) := by
  induction rest generalizing cursor last with
  | nil => exact h
  | cons p rest ih =>
    simp only [coalesce]
    split
    · exact ih h.join
    · cases h with
      | cons hle hagree hin hne hdata hrest => exact .cons hle hagree hin hne hdata (ih hrest)

theorem computePatches_covers {patches : List Patch}
    (h : computePatches old new = some patches) : Covers old new 0 patches := by
  have hscan : Covers old new 0 (scan 0 none old new ++ tailPatch old new) := by
    refine scan_covers old new rfl rfl (Nat.zero_le _) (Nat.zero_le _) ⟨le_rfl,?_⟩
    intro j hj hlt
    omega
  unfold computePatches at h
  cases hlist : scan 0 none old new ++ tailPatch old new with
  | nil =>
    rw [hlist] at h hscan
    simp only [List.map_nil,List.sum_nil,Nat.not_lt_zero,if_false] at h
    cases h
    exact hscan
  | cons first rest =>
    rw [hlist] at h hscan
    simp only [Option.ite_none_left_eq_some] at h
    obtain ⟨-,h⟩ := h
    cases h
    exact coalesce_covers hscan

theorem Agree.drop_eq {a b : Nat} (h : Agree old new a b) :
    (old.take b).drop a = (new.take b).drop a := by
  apply List.ext_getElem?
  intro j
  simp only [List.getElem?_drop,List.getElem?_take]
  split
  · exact h (a + j) (by omega) (by assumption)
  · rfl

theorem withTail_eq (hle : cursor ≤ new.length) (h : Agree old new cursor new.length) :
    withTail old new.length (new.take cursor,cursor) = new := by
  rcases hle.lt_or_eq with hlt | rfl
  · have hold : new.length ≤ old.length := by
      have hlast := h (new.length - 1) (by omega) (by omega)
      rw [List.getElem?_eq_getElem (l := new) (by omega)] at hlast
      have := (List.getElem?_eq_some_iff.mp hlast).1
      omega
    have hmin : min (cursor + (new.length - min cursor new.length)) old.length = new.length := by
      omega
    simp only [withTail,Nat.min_eq_right hold,hmin]
    rw [if_pos (by omega),Agree.drop_eq h,List.take_length]
    exact List.take_append_drop cursor new
  · simp [withTail]

section RoundTrip

variable {ε σ τ : Type} [Raises ε] {P : σ → τ → Prop}

theorem readPatch_append {data : Bytes} (hne : data ≠ []) (t : τ) (rest : Bytes) :
    (readPatch data.length : Get ε τ Bytes) ⟨t,data ++ rest⟩ = .ok data ⟨t,rest⟩ := by
  simp only [readPatch,List.append_eq_nil_iff,hne,false_and,if_false]
  change EStateM.map _ _ _ = _
  simp only [EStateM.map,Get.take_append]

theorem reads_patch {p : Patch}
    (h : Covers old new cursor (p :: rest)) (hnew : ¬tooLarge new.length) :
    Reads P (writePatch cursor p : Put ε σ)
      (applyPatch old (new.take cursor,cursor) : Get ε τ (Bytes × Nat))
      (new.take (p.offset + p.data.length),p.offset + p.data.length) P := by
  obtain ⟨hlt,hle⟩ := h.fits
  rw [tooLarge] at hnew
  cases h with
  | cons hstart hagree hin hne hdata hrest =>
  have hcopy : (cursor + (p.offset - cursor)) % 2 ^ 64 = p.offset := by
    rw [Nat.add_sub_cancel' hstart]
    exact Nat.mod_eq_of_lt (by omega)
  have hout : new.take cursor ++ (old.take p.offset).drop cursor ++ p.data =
      new.take (p.offset + p.data.length) := by
    rw [Agree.drop_eq hagree,List.take_add,hdata]
    congr 1
    rw [List.drop_take]
    conv_rhs => rw [show p.offset = cursor + (p.offset - cursor) by omega,List.take_add]
  refine (reads_len _).cons ((reads_len _).cons ?_)
  have hroom : ¬tooLarge ((new.take cursor ++ (old.take p.offset).drop cursor).length +
      p.data.length) := by
    have hlen := congrArg List.length hout
    rw [List.length_append,List.length_take] at hlen
    rw [hlen,tooLarge]
    omega
  simp only [hcopy,Nat.not_lt.mpr hin,Nat.not_lt.mpr hstart,if_false]
  rw [reserve_of_fits hroom,pure_bind]
  refine (Reads.of_raw (readPatch_append hne)).cons ?_
  rw [hout]
  exact Reads.nil _

theorem reads_patches {patches : List Patch}
    (h : Covers old new cursor patches) (hnew : ¬tooLarge new.length) (hle : cursor ≤ new.length) :
    ∃ last, last ≤ new.length ∧ Agree old new last new.length ∧
      Reads P (writePatches cursor patches : Put ε σ)
        (Get.loop patches.length (applyPatch old) (new.take cursor,cursor) : Get ε τ (Bytes × Nat))
        (new.take last,last) P := by
  induction patches generalizing cursor with
  | nil =>
    cases h with
    | nil hagree => exact ⟨cursor,hle,hagree,Reads.nil _⟩
  | cons p rest ih =>
    have hp : Reads P (writePatch cursor p : Put ε σ) _ _ P := reads_patch h hnew
    obtain ⟨-,hfits⟩ := h.fits
    cases h with
    | cons hstart hagree hin hne hdata hrest =>
      obtain ⟨last,hlast,hagree,hreads⟩ := ih hrest hfits
      exact ⟨last,hlast,hagree,hp.cons hreads.all_single⟩

theorem reads_exact {data : Bytes} (hdata : ¬tooLarge data.length) :
    Reads P (Put.raw data : Put ε σ) (readExactInto data.length : Get ε τ Bytes) data P := by
  refine Reads.of_raw fun t rest => ?_
  cases data with
  | nil => rfl
  | cons b bs =>
    rw [readExactInto,if_neg (by simp),reserve_of_fits hdata,pure_bind]
    change EStateM.map _ _ _ = _
    simp only [EStateM.map,Get.take_append]

end RoundTrip

theorem computeXor_length (old new : Bytes) :
    (computeXor old new).length = max old.length new.length := by
  simp only [computeXor,List.length_append,List.length_zipWith,List.length_drop]
  omega

theorem applyXor_computeXor (old new : Bytes) :
    applyXor old (computeXor old new) new.length = new := by
  induction old generalizing new with
  | nil => simp [applyXor,computeXor]
  | cons o os ih =>
    cases new with
    | nil => simp [applyXor,computeXor]
    | cons n ns =>
      have hcons : o ^^^ (o ^^^ n) = n := by
        rw [← UInt8.xor_assoc,UInt8.xor_self,UInt8.zero_xor]
      simpa [applyXor,computeXor,hcons] using ih ns

section Blob

variable {ε σ : Type} [Raises ε] {z : Zstd} {s : DiffStore} {key : UInt64} {old data : Bytes}
  {R : σ → Prop}

theorem DiffStore.insert_insert (a b : Bytes) : (s.insert key a).insert key b = s.insert key b := by
  simp [DiffStore.insert]

theorem reads_full (hdata : ¬tooLarge data.length) (hkey : s.currentKey = none) :
    Reads (fun u t => R u ∧ t = s) (encodeFull data : Put ε σ) (decodeBlob z) data
      (fun u t => R u ∧ t = s) := by
  refine (reads_len 0).cons ?_
  simp only [if_true]
  refine (reads_len data.length).cons (Reads.ctx ?_)
  rintro u t ⟨-,rfl⟩
  simp only [hkey]
  exact (reads_exact hdata).all_single

theorem reads_full_keyed (hdata : ¬tooLarge data.length) (hkey : s.currentKey = some key) :
    Reads (fun u t => R u ∧ t = s) (encodeFull data : Put ε σ) (decodeBlob z) data
      (fun u t => R u ∧ t = s.insert key data) := by
  refine (reads_len 0).cons ?_
  simp only [if_true]
  refine (reads_len data.length).cons (Reads.ctx ?_)
  rintro u t ⟨-,rfl⟩
  simp only [hkey]
  refine Reads.modifyCtx (Q := fun u t' => R u ∧ t' = t.insert key [])
    (fun u t' h => ⟨h.1,by rw [h.2]⟩) ((reads_exact hdata).cons ?_)
  exact Reads.modifyCtx (fun u t' h => ⟨h.1,by rw [h.2,DiffStore.insert_insert]⟩) (Reads.nil data)

theorem reads_known {p : Put ε σ} {k : UInt64 → Bytes → Get ε DiffStore Bytes}
    {Q : σ → DiffStore → Prop} (hkey : s.currentKey = some key) (hold : s.store key = some old)
    (h : Reads (fun u t => R u ∧ t = s) p (k key old) data Q) :
    Reads (fun u t => R u ∧ t = s) p
      (do let key ← activeKey; let old ← oldBlob key; k key old) data Q := by
  have hactive : Reads (fun u t => R u ∧ t = s) (Put.all [] : Put ε σ) activeKey key
      (fun u t => R u ∧ t = s) := by
    refine Reads.ctx ?_
    rintro u t ⟨-,rfl⟩
    simp only [hkey]
    exact Reads.nil key
  have hblob : Reads (fun u t => R u ∧ t = s) (Put.all [] : Put ε σ) (oldBlob key) old
      (fun u t => R u ∧ t = s) := by
    refine Reads.ctx ?_
    rintro u t ⟨-,rfl⟩
    simp only [hold]
    exact Reads.nil old
  exact hactive.silent (hblob.silent h)

theorem reads_store {newLen : Nat} (hlen : data.length = newLen) :
    Reads (fun u t => R u ∧ t = s) (Put.all [] : Put ε σ) (storeBlob key newLen data) data
      (fun u t => R u ∧ t = s.insert key data) := by
  simp only [storeBlob,hlen,ne_eq,not_true_eq_false,if_false]
  exact Reads.modifyCtx (fun u t h => ⟨h.1,by rw [h.2]⟩) (Reads.nil data)

theorem reads_rle (hdata : ¬tooLarge data.length) (hkey : s.currentKey = some key)
    (hold : s.store key = some old) {p : Put ε σ} (hp : encodeRleToBuf old data = some p) :
    Reads (fun u t => R u ∧ t = s) p (decodeBlob z) data
      (fun u t => R u ∧ t = s.insert key data) := by
  obtain ⟨patches,hpatches,rfl⟩ := Option.map_eq_some_iff.mp hp
  refine (reads_len 1).cons ?_
  simp only [one_ne_zero,if_false,if_true]
  refine (reads_len _).cons ((reads_len _).cons (reads_known hkey hold ?_))
  rw [reserve_of_fits hdata,pure_bind]
  obtain ⟨last,hle,hagree,hreads⟩ := reads_patches (ε := ε) (P := fun (u : σ) t => R u ∧ t = s)
    (computePatches_covers hpatches) hdata (Nat.zero_le _)
  refine hreads.cons ?_
  rw [withTail_eq hle hagree]
  exact reads_store rfl

theorem reads_xor (hz : z.Inverts) (hroom : ¬tooLarge (max old.length data.length))
    (hkey : s.currentKey = some key) (hold : s.store key = some old)
    {p : Put ε σ} (hp : encodeXorToBuf z old data = some p) :
    Reads (fun u t => R u ∧ t = s) p (decodeBlob z) data
      (fun u t => R u ∧ t = s.insert key data) := by
  obtain ⟨compressed,hc,rfl⟩ := Option.map_eq_some_iff.mp hp
  obtain ⟨hinv,hshort⟩ : z.decompress compressed = some (computeXor old data) ∧
      compressed.length < data.length := by
    unfold tryXorCompress at hc
    split at hc
    · rename_i out hout
      rw [Option.ite_none_right_eq_some] at hc
      obtain ⟨hshort,hc⟩ := hc
      cases hc
      exact ⟨hz _ _ _ hout,hshort⟩
    · cases hc
  have hfits : ¬tooLarge compressed.length := by
    rw [tooLarge] at hroom ⊢
    omega
  have hunzip : (zstdDecompressInto z compressed (max old.length data.length) :
      Get ε DiffStore Bytes) = pure (computeXor old data) := by
    rw [zstdDecompressInto,reserve_of_fits hroom,pure_bind]
    simp [hinv,computeXor_length]
  refine (reads_len 2).cons ?_
  simp only [OfNat.ofNat_ne_zero,OfNat.ofNat_ne_one,if_false,if_true]
  refine (reads_len _).cons ((reads_len _).cons (reads_known hkey hold ?_))
  refine (reads_exact hfits).cons ?_
  rw [hunzip,pure_bind,applyXor_computeXor]
  exact reads_store rfl

theorem encodeDiff_ok {buf : Bytes} (h : (encodeDiff z old data : Except ε _) = .ok (some buf)) :
    (∃ p : Put ε Unit, encodeRleToBuf old data = some p ∧ p () = .ok (buf,())) ∨
      ¬tooLarge (max old.length data.length) ∧
        ∃ p : Put ε Unit, encodeXorToBuf z old data = some p ∧ p () = .ok (buf,()) := by
  have hcandidate : ∀ {c : Option (Put ε Unit)} {out : Bytes}, candidate c = .ok (some out) →
      ∃ p, c = some p ∧ p () = .ok (out,()) := by
    intro c out hc
    cases c with
    | none => cases hc
    | some p =>
      obtain ⟨⟨bytes,u⟩,hp,hc⟩ := bind_ok hc
      cases hc
      exact ⟨p,rfl,hp⟩
  obtain ⟨rle,hrle,h⟩ := bind_ok h
  obtain ⟨xor,hxor,h⟩ := bind_ok h
  have hwin : rle = some buf ∨ xor = some buf := by
    have hsome := Except.ok.inj h
    unfold winner at hsome
    grind
  rcases hwin with rfl | rfl
  · exact .inl (hcandidate hrle)
  · unfold xorCandidate at hxor
    split at hxor
    · cases hxor
    · split at hxor
      · cases hxor
      · rename_i hroom
        exact .inr ⟨hroom,hcandidate hxor⟩

theorem reads_blob (hz : z.Inverts) (data : Bytes) :
    Reads Eq (encodeBlob z data : Put ε DiffStore) (decodeBlob z) data Eq := by
  intro s t bytes s' rest hst hp
  subst hst
  unfold encodeBlob at hp
  by_cases hdata : tooLarge data.length
  · rw [if_pos hdata] at hp
    cases hp
  rw [if_neg hdata] at hp
  cases hkey : s.currentKey with
  | none =>
    simp only [hkey] at hp
    obtain ⟨t',hg,hs,ht⟩ := reads_full (R := (· = s)) hdata hkey s s bytes s' rest ⟨rfl,rfl⟩ hp
    exact ⟨t',hg,by rw [hs,ht]⟩
  | some key =>
    have hfull : (encodeFull data : Put ε DiffStore) (s.insert key data) = .ok (bytes,s') → ∃ t',
        (decodeBlob z : Get ε _ _) ⟨s,bytes ++ rest⟩ = .ok data ⟨t',rest⟩ ∧ s' = t' := by
      intro hput
      obtain ⟨t',hg,hs,ht⟩ := reads_full_keyed (R := (· = s.insert key data)) hdata hkey
        (s.insert key data) s bytes s' rest ⟨rfl,rfl⟩ hput
      exact ⟨t',hg,by rw [hs,ht]⟩
    simp only [hkey] at hp
    cases hold : s.store key with
    | none =>
      simp only [hold] at hp
      exact hfull hp
    | some old =>
      simp only [hold] at hp
      obtain ⟨diff,hdiff,hp⟩ := bind_ok hp
      cases diff with
      | none => exact hfull hp
      | some buf =>
        cases hp
        have hreads : ∃ t', (decodeBlob z : Get ε _ _) ⟨s,bytes ++ rest⟩ = .ok data ⟨t',rest⟩ ∧
            True ∧ t' = s.insert key data := by
          rcases encodeDiff_ok hdiff with ⟨p,hp,hbuf⟩ | ⟨hroom,p,hp,hbuf⟩
          · exact reads_rle (R := fun _ => True) hdata hkey hold hp () s bytes () rest
              ⟨trivial,rfl⟩ hbuf
          · exact reads_xor (R := fun _ => True) hz hroom hkey hold hp () s bytes () rest
              ⟨trivial,rfl⟩ hbuf
        obtain ⟨t',hg,-,ht⟩ := hreads
        exact ⟨t',hg,ht.symm⟩

end Blob

end Jetstreamer.Lencode
