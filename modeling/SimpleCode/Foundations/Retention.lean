import Mathlib

set_option autoImplicit false

/-! A bounded history: while it is too long, all its elements of lowest rank are dropped. -/

namespace SimpleCode.Foundations

variable {α ρ : Type} [LinearOrder ρ] (rank : α → ρ) (limit : ℕ)

def dropLowest (xs : List α) : List α := xs.filter fun x => xs.any fun y => rank y < rank x

lemma exists_lowest {xs : List α} (h : xs ≠ []) : ∃ x ∈ xs, ∀ y ∈ xs, rank x ≤ rank y := by
  cases hm : xs.argmin rank with
  | none => exact absurd (List.argmin_eq_none.mp hm) h
  | some x => exact ⟨x, List.argmin_mem hm, fun y hy => List.le_of_mem_argmin hy hm⟩

lemma dropLowest_length {xs : List α} (h : xs ≠ []) :
    (dropLowest rank xs).length < xs.length := by
  obtain ⟨x, hx, hmin⟩ := exists_lowest rank h
  apply List.length_filter_lt_length_iff_exists.mpr
  exact ⟨x, hx, by simpa using hmin⟩

lemma dropLowest_eq {xs : List α} {x : α} (hx : x ∈ xs) (hmin : ∀ y ∈ xs, rank x ≤ rank y) :
    dropLowest rank xs = xs.filter fun y => rank y ≠ rank x := by
  apply List.filter_congr
  intro y hy
  have hle := hmin y hy
  by_cases he : rank y = rank x
  · have hn : ∀ z ∈ xs, rank y ≤ rank z := fun z hz => he ▸ hmin z hz
    have hany : (xs.any fun z => rank z < rank y) = false := by simpa using hn
    simpa [he] using hany
  · have hlt : rank x < rank y := lt_of_le_of_ne hle (Ne.symm he)
    have ha : ∃ z ∈ xs, rank z < rank y := ⟨x, hx, hlt⟩
    simpa [he] using ha

def retain (xs : List α) : List α :=
  if _h : xs.length ≤ limit then xs else retain (dropLowest rank xs)
termination_by xs.length
decreasing_by
  have hne : xs ≠ [] := fun he => _h (by simp [he])
  exact dropLowest_length rank hne

lemma retain_of_le {xs : List α} (h : xs.length ≤ limit) : retain rank limit xs = xs := by
  rw [retain, dif_pos h]

lemma retain_of_lt {xs : List α} (h : limit < xs.length) :
    retain rank limit xs = retain rank limit (dropLowest rank xs) := by
  rw [retain, dif_neg (not_le.mpr h)]

lemma retain_length (xs : List α) : (retain rank limit xs).length ≤ limit := by
  induction xs using retain.induct rank limit with
  | case1 xs h => rwa [retain_of_le rank limit h]
  | case2 xs h ih => rwa [retain_of_lt rank limit (not_le.mp h)]

lemma retain_retain (xs : List α) :
    retain rank limit (retain rank limit xs) = retain rank limit xs :=
  retain_of_le rank limit (retain_length rank limit xs)

lemma retain_sublist (xs : List α) : (retain rank limit xs).Sublist xs := by
  induction xs using retain.induct rank limit with
  | case1 xs h => rw [retain_of_le rank limit h]
  | case2 xs h ih =>
    rw [retain_of_lt rank limit (not_le.mp h)]
    exact ih.trans List.filter_sublist

lemma filterMap_eq_self {f : α → Option α} {xs : List α} :
    xs.filterMap f = xs ↔ ∀ x ∈ xs, f x = some x := by
  induction xs with
  | nil => simp
  | cons x xs ih =>
    rw [List.forall_mem_cons, ← ih]
    cases hf : f x with
    | none =>
      have hlen := List.length_filterMap_le f xs
      rw [List.filterMap_cons_none hf]
      constructor
      · intro h
        rw [h, List.length_cons] at hlen
        omega
      · rintro ⟨h, -⟩
        cases h
    | some y => simp [List.filterMap_cons_some hf]

theorem retain_filterMap {f : α → Option α} {xs : List α} :
    retain rank limit (xs.filterMap f) = xs ↔ xs.length ≤ limit ∧ ∀ x ∈ xs, f x = some x := by
  rw [← filterMap_eq_self]
  constructor
  · intro h
    have hlen := retain_length rank limit (xs.filterMap f)
    have hsub := retain_sublist rank limit (xs.filterMap f)
    rw [h] at hlen hsub
    have heq := hsub.eq_of_length_le (List.length_filterMap_le f xs)
    exact ⟨hlen, heq.symm⟩
  · rintro ⟨hlen, h⟩
    rw [h, retain_of_le rank limit hlen]

/-- Two lists in one: the elements of either stand in their own order. -/
inductive Interleaves : List α → List α → List α → Prop
  | nil : Interleaves [] [] []
  | left (x : α) {xs ys zs : List α} : Interleaves xs ys zs → Interleaves (x :: xs) ys (x :: zs)
  | right (y : α) {xs ys zs : List α} : Interleaves xs ys zs → Interleaves xs (y :: ys) (y :: zs)

end SimpleCode.Foundations
