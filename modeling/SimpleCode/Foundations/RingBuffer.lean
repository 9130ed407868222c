import Mathlib

set_option autoImplicit false

namespace SimpleCode.Foundations.RingBuffer

variable {α : Type} {size : ℤ}

def next (size i : ℤ) : ℤ := if i + 1 = size then 0 else i + 1

def contents (cells : ℤ → α) (size head : ℤ) (count : ℕ) : List α :=
  (List.range count).map fun k : ℕ => cells ((head + k) % size)

lemma next_eq {i : ℤ} (hi : 0 ≤ i) (hlt : i < size) : next size i = (i + 1) % size := by
  rw [next]
  split
  · rename_i h
    rw [h, Int.emod_self]
  · exact (Int.emod_eq_of_lt (by omega) (by omega)).symm

lemma next_bounds {i : ℤ} (hi : 0 ≤ i) (hlt : i < size) :
    0 ≤ next size i ∧ next size i < size := by
  rw [next]
  split <;> omega

lemma next_emod {i : ℤ} (hsize : 0 < size) : next size (i % size) = (i + 1) % size := by
  rw [next_eq (Int.emod_nonneg i hsize.ne') (Int.emod_lt_of_pos i hsize), Int.emod_add_emod]

@[simp] lemma length_contents (cells : ℤ → α) (head : ℤ) (count : ℕ) :
    (contents cells size head count).length = count := by
  rw [contents, List.length_map, List.length_range]

lemma emod_ne {head : ℤ} {k count : ℕ} (hk : k < count) (hcount : (count : ℤ) < size) :
    (head + k) % size ≠ (head + count) % size := by
  intro h
  have hzero : (head + count - (head + k)) % size = 0 := Int.emod_eq_emod_iff_emod_sub_eq_zero.mp h.symm
  have hsub : head + count - (head + k) = (count : ℤ) - k := by ring
  rw [hsub, Int.emod_eq_of_lt (by omega) (by omega)] at hzero
  omega

theorem contents_put (cells : ℤ → α) {head : ℤ} {count : ℕ} (hcount : (count : ℤ) < size) (x : α) :
    contents (Function.update cells ((head + count) % size) x) size head (count + 1)
      = contents cells size head count ++ [x] := by
  rw [contents, List.range_succ, List.map_append, List.map_singleton, Function.update_self, contents]
  congr 1
  apply List.map_congr_left
  intro k hk
  exact Function.update_of_ne (emod_ne (List.mem_range.mp hk) hcount) _ _

theorem contents_take (cells : ℤ → α) {head : ℤ} (hhead : 0 ≤ head) (hlt : head < size) (count : ℕ) :
    contents cells size head (count + 1) = cells head :: contents cells size (next size head) count := by
  rw [contents, List.range_succ_eq_map, List.map_cons, List.map_map, Nat.cast_zero, add_zero,
    Int.emod_eq_of_lt hhead hlt, contents]
  congr 1
  apply List.map_congr_left
  intro k _
  rw [next_eq hhead hlt, Int.emod_add_emod, Function.comp, Nat.cast_succ,
    ← add_assoc, add_right_comm head 1]

end SimpleCode.Foundations.RingBuffer
