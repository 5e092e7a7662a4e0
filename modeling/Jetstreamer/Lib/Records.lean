import Jetstreamer.Lib.Codec
set_option autoImplicit false

namespace Jetstreamer.Lib

variable {α β : Type} {file part first second : List α} {offset : Nat}

/-- The part stands at the offset of the file. -/
def At (file : List α) (offset : Nat) (part : List α) : Prop :=
  ∃ before after, file = before ++ part ++ after ∧ before.length = offset

theorem At.self (part : List α) : At part 0 part := ⟨[],[],by simp,rfl⟩

theorem At.le (h : At file offset part) : offset + part.length ≤ file.length := by
  obtain ⟨before,after,rfl,rfl⟩ := h
  simp only [List.length_append]
  omega

theorem At.slice (h : At file offset part) : (file.drop offset).take part.length = part := by
  obtain ⟨before,after,rfl,rfl⟩ := h
  rw [List.append_assoc,List.drop_left,List.take_left]

theorem At.left (h : At file offset (first ++ second)) : At file offset first := by
  obtain ⟨before,after,rfl,rfl⟩ := h
  exact ⟨before,second ++ after,by simp,rfl⟩

theorem At.right (h : At file offset (first ++ second)) :
    At file (offset + first.length) second := by
  obtain ⟨before,after,rfl,rfl⟩ := h
  exact ⟨before ++ first,after,by simp,by simp⟩

theorem length_flatMap_of_width {records : List β} {write : β → List α} {stride : Nat}
    (h : ∀ record ∈ records, (write record).length = stride) :
    (records.flatMap write).length = records.length*stride := by
  induction records with
  | nil => simp
  | cons record rest ih =>
    obtain ⟨hrecord,hrest⟩ := List.forall_mem_cons.mp h
    rw [List.flatMap_cons,List.length_append,hrecord,ih hrest,List.length_cons]
    ring

theorem At.record {records : List β} {write : β → List α} {stride index : Nat} {record : β}
    (h : At file offset (records.flatMap write))
    (hwidth : ∀ record ∈ records, (write record).length = stride)
    (hget : records[index]? = some record) : At file (offset + index*stride) (write record) := by
  have hlt := (List.getElem?_eq_some_iff.mp hget).1
  have hrecord := (List.getElem?_eq_some_iff.mp hget).2
  rw [← List.take_append_drop index records,List.drop_eq_getElem_cons hlt,hrecord,
    List.flatMap_append,List.flatMap_cons] at h
  have htaken : ((records.take index).flatMap write).length = index*stride := by
    rw [length_flatMap_of_width fun record hmem => hwidth record (List.mem_of_mem_take hmem),
      List.length_take,Nat.min_eq_left hlt.le]
  rw [← htaken]
  exact h.right.left

end Jetstreamer.Lib
