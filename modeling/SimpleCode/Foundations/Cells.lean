import Mathlib.Data.Nat.Notation
import Mathlib.Logic.Function.Basic

set_option autoImplicit false

namespace SimpleCode.Foundations.Cells

variable {α : Type*}

-- `memcpy(dst + p, src, n)`
def copy (dst : ℕ → α) (p : ℕ) (src : ℕ → α) (n : ℕ) : ℕ → α :=
  fun a => if p ≤ a ∧ a < p + n then src (a - p) else dst a

theorem foldl_update_eq_copy (dst : ℕ → α) (p : ℕ) (v : ℕ → α) (n : ℕ) :
    (List.range n).foldl (fun b i => Function.update b (p + i) (v i)) dst = copy dst p v n := by
  induction n with
  | zero =>
    funext a
    rw [copy, if_neg (by omega)]
    rfl
  | succ n ih =>
    rw [List.range_succ, List.foldl_append, List.foldl_cons, List.foldl_nil, ih]
    funext a
    by_cases ha : a = p + n
    · subst ha
      rw [Function.update_self, copy, if_pos (by omega), Nat.add_sub_cancel_left]
    · rw [Function.update_of_ne ha, copy, copy]
      by_cases hin : p ≤ a ∧ a < p + n
      · rw [if_pos hin, if_pos (by omega)]
      · rw [if_neg hin, if_neg (by omega)]

end SimpleCode.Foundations.Cells
