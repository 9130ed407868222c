import Mathlib.Data.List.Nodup
import Mathlib.Data.List.Perm.Basic

set_option autoImplicit false

namespace SimpleCode.Foundations

section Buckets

variable {κ α : Type*} {is : List κ} {i : κ}

lemma flatMap_eq_of_single (hn : is.Nodup) (hi : i ∈ is) {f : κ → List α}
    (h : ∀ j ∈ is, j ≠ i → f j = []) : is.flatMap f = f i := by
  induction is with
  | nil => exact absurd hi List.not_mem_nil
  | cons j is ih =>
    rw [List.nodup_cons] at hn
    rw [List.forall_mem_cons] at h
    rw [List.flatMap_cons]
    rcases List.mem_cons.mp hi with rfl | hmem
    · have hrest : is.flatMap f = [] := by
        rw [List.flatMap_eq_nil_iff]
        exact fun k hk => h.2 k hk (ne_of_mem_of_not_mem hk hn.1)
      rw [hrest, List.append_nil]
    · rw [h.1 (ne_of_mem_of_not_mem hmem hn.1).symm, List.nil_append]
      exact ih hn.2 hmem h.2

variable [DecidableEq κ]

lemma perm_flatMap_update (hn : is.Nodup) (hi : i ∈ is) {f : κ → List α} {x : α} {ys : List α}
    (h : ys.Perm (x :: f i)) :
    (is.flatMap (Function.update f i ys)).Perm (x :: is.flatMap f) := by
  induction is with
  | nil => exact absurd hi List.not_mem_nil
  | cons j is ih =>
    rw [List.nodup_cons] at hn
    rw [List.flatMap_cons, List.flatMap_cons]
    rcases List.mem_cons.mp hi with rfl | hmem
    · have hrest : is.flatMap (Function.update f i ys) = is.flatMap f := by
        apply List.flatMap_congr
        intro k hk
        exact Function.update_of_ne (ne_of_mem_of_not_mem hk hn.1) _ _
      rw [hrest, Function.update_self, ← List.cons_append]
      exact h.append_right _
    · rw [Function.update_of_ne (ne_of_mem_of_not_mem hmem hn.1).symm]
      exact ((ih hn.2 hmem).append_left (f j)).trans List.perm_middle

end Buckets

section Grouped

variable {ι : Type*} (r : ι → ι → Bool)

-- What matches anything behind it matches its neighbour.
def Grouped : List ι → Prop
  | [] => True
  | x :: xs => Grouped xs ∧ ∀ y ys, xs = y :: ys → (∃ z ∈ xs, r x z) → r x y

variable {r} {x y : ι} {xs ys : List ι}

lemma Grouped.tail (h : Grouped r (x :: xs)) : Grouped r xs := h.1

lemma Grouped.of_append (h : Grouped r (xs ++ ys)) : Grouped r ys := by
  induction xs with
  | nil => exact h
  | cons x xs ih => exact ih h.tail

lemma Grouped.cons_of_none (h : Grouped r xs) (hnone : ∀ z ∈ xs, r x z = false) :
    Grouped r (x :: xs) := by
  refine ⟨h, fun y ys _ ⟨z, hz, hxz⟩ => ?_⟩
  rw [hnone z hz] at hxz
  cases hxz

lemma Grouped.double (h : Grouped r (x :: xs)) (hx : r x x) : Grouped r (x :: x :: xs) := by
  refine ⟨h, fun y ys heq _ => ?_⟩
  rw [← (List.cons.inj heq).1]
  exact hx

variable (he : Equivalence fun x y => r x y = true)

include he

lemma matches_congr (h : r x y) : r x = r y := by
  funext z
  rw [Bool.eq_iff_iff]
  exact ⟨he.trans (he.symm h), he.trans h⟩

lemma Grouped.drop_second (h : Grouped r (x :: y :: xs)) : Grouped r (x :: xs) := by
  refine ⟨h.1.1, fun w ws heq ⟨z, hz, hxz⟩ => ?_⟩
  have hxy := h.2 y xs rfl ⟨z, List.mem_cons_of_mem y hz, hxz⟩
  exact he.trans hxy (h.1.2 w ws heq ⟨z, hz, he.trans (he.symm hxy) hxz⟩)

lemma Grouped.takeWhile_eq_filter (h : Grouped r (x :: xs)) :
    xs.takeWhile (r x) = xs.filter (r x) := by
  induction xs with
  | nil => rfl
  | cons y xs ih =>
    by_cases hxy : r x y
    · rw [List.takeWhile_cons_of_pos hxy, List.filter_cons_of_pos hxy, ih (h.drop_second he)]
    · have hnone : ∀ z ∈ y :: xs, ¬ r x z := fun z hz hxz => hxy (h.2 y xs rfl ⟨z, hz, hxz⟩)
      rw [List.takeWhile_cons_of_neg hxy, List.filter_eq_nil_iff.mpr hnone]

lemma Grouped.insertAfter (h : Grouped r (xs ++ y :: ys)) (hxy : r x y) :
    Grouped r (xs ++ y :: x :: ys) := by
  induction xs with
  | nil =>
    refine ⟨⟨h.1, fun w ws heq ⟨z, hz, hxz⟩ => ?_⟩, fun w ws heq _ => ?_⟩
    · exact he.trans hxy (h.2 w ws heq ⟨z, hz, he.trans (he.symm hxy) hxz⟩)
    · rw [← (List.cons.inj heq).1]
      exact he.symm hxy
  | cons a xs ih =>
    refine ⟨ih h.1, fun w ws heq ⟨z, hz, haz⟩ => ?_⟩
    have hold : ∃ z ∈ xs ++ y :: ys, r a z := by
      rcases List.mem_append.mp hz with hz | hz
      · exact ⟨z, List.mem_append_left _ hz, haz⟩
      rcases List.mem_cons.mp hz with rfl | hz
      · exact ⟨z, by simp, haz⟩
      rcases List.mem_cons.mp hz with rfl | hz
      · exact ⟨y, by simp, he.trans haz hxy⟩
      · exact ⟨z, by simp [hz], haz⟩
    cases xs with
    | nil =>
      obtain rfl := (List.cons.inj heq).1
      exact h.2 _ ys rfl hold
    | cons b xs =>
      obtain rfl := (List.cons.inj heq).1
      exact h.2 _ (xs ++ y :: ys) rfl hold

end Grouped

end SimpleCode.Foundations
