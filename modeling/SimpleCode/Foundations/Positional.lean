import Mathlib

set_option autoImplicit false

namespace SimpleCode.Foundations

namespace Positional

variable {b n m i x : ℕ} {d d' : ℕ → ℕ}

def value (b : ℕ) (d : ℕ → ℕ) : ℕ → ℕ
  | 0 => 0
  | n + 1 => value b d n + d n * b ^ n

lemma value_congr (h : ∀ i < n, d i = d' i) : value b d n = value b d' n := by
  induction n with
  | zero => rfl
  | succ n ih =>
    rw [value, value, ih fun i hi => h i (Nat.lt_succ_of_lt hi), h n (Nat.lt_succ_self n)]

lemma value_update_of_le (h : n ≤ i) : value b (Function.update d i x) n = value b d n :=
  value_congr fun _ hk => Function.update_of_ne (hk.trans_le h).ne _ _

lemma value_update (h : i < n) :
    value b (Function.update d i x) n + d i * b ^ i = value b d n + x * b ^ i := by
  induction n with
  | zero => exact absurd h (Nat.not_lt_zero i)
  | succ n ih =>
    rw [value, value]
    rcases Nat.lt_succ_iff_lt_or_eq.mp h with hlt | rfl
    · rw [Function.update_of_ne hlt.ne', Nat.add_right_comm, ih hlt, Nat.add_right_comm]
    · rw [Function.update_self, value_update_of_le le_rfl]
      omega

lemma value_lt (h : ∀ i < n, d i < b) : value b d n < b ^ n := by
  induction n with
  | zero => exact Nat.one_pos
  | succ n ih =>
    have hrest := ih fun i hi => h i (Nat.lt_succ_of_lt hi)
    have htop := h n (Nat.lt_succ_self n)
    calc value b d (n + 1)
      _ < b ^ n + d n * b ^ n := Nat.add_lt_add_right hrest _
      _ = (d n + 1) * b ^ n := by ring
      _ ≤ b * b ^ n := Nat.mul_le_mul_right _ htop
      _ = b ^ (n + 1) := (Nat.pow_succ' ..).symm

lemma value_of_zero (h : ∀ i, m ≤ i → i < n → d i = 0) (hmn : m ≤ n) :
    value b d n = value b d m := by
  induction n, hmn using Nat.le_induction with
  | base => rfl
  | succ n hmn ih =>
    rw [value, h n hmn (Nat.lt_succ_self n), Nat.zero_mul, Nat.add_zero,
      ih fun i hi hin => h i hi (Nat.lt_succ_of_lt hin)]

lemma digit_mul_le (h : i < n) : d i * b ^ i ≤ value b d n := by
  induction n with
  | zero => exact absurd h (Nat.not_lt_zero i)
  | succ n ih =>
    rw [value]
    rcases Nat.lt_succ_iff_lt_or_eq.mp h with hlt | rfl
    · exact (ih hlt).trans (Nat.le_add_right _ _)
    · exact Nat.le_add_left _ _

lemma digit_lt (hi : i < n) (h : value b d n < b ^ (i + 1)) : d i < b := by
  refine Nat.lt_of_mul_lt_mul_right (a := b ^ i) ?_
  rw [← Nat.pow_succ']
  exact (digit_mul_le hi).trans_lt h

lemma digit_eq_zero (hb : 0 < b) (hi : i < n) (h : value b d n = 0) : d i = 0 := by
  have hle := digit_mul_le (b := b) (d := d) hi
  rw [h, Nat.le_zero, Nat.mul_eq_zero] at hle
  exact hle.resolve_right (Nat.pow_pos hb).ne'

lemma pow_le_value (h : d n ≠ 0) : b ^ n ≤ value b d (n + 1) :=
  (Nat.le_mul_of_pos_left _ (Nat.pos_of_ne_zero h)).trans (Nat.le_add_left _ _)

lemma top_ne_zero (hd : ∀ i < n, d i < b) (h : b ^ n ≤ value b d (n + 1)) : d n ≠ 0 := by
  intro hzero
  rw [value, hzero, Nat.zero_mul, Nat.add_zero] at h
  exact h.not_gt (value_lt hd)

lemma pow_le_value_iff (hd : ∀ i < n, d i < b) : b ^ n ≤ value b d (n + 1) ↔ d n ≠ 0 :=
  ⟨top_ne_zero hd, pow_le_value⟩

lemma value_mod_pow (hd : ∀ i < m, d i < b) (hmn : m ≤ n) :
    value b d n % b ^ m = value b d m := by
  induction n, hmn using Nat.le_induction with
  | base => exact Nat.mod_eq_of_lt (value_lt hd)
  | succ n hmn ih =>
    rw [value, ← Nat.add_sub_of_le hmn, Nat.pow_add, Nat.mul_left_comm, Nat.add_mul_mod_self_left,
      Nat.add_sub_of_le hmn, ih]

lemma value_div_pow_mod (hd : ∀ i < n, d i < b) (hi : i < n) :
    value b d n / b ^ i % b = d i := by
  have hlow : value b d i < b ^ i := value_lt fun k hk => hd k (hk.trans hi)
  have hmod := value_mod_pow (m := i + 1) (fun k hk => hd k (by omega)) hi
  calc value b d n / b ^ i % b
    _ = value b d n % b ^ (i + 1) / b ^ i := by rw [Nat.pow_succ, Nat.mod_mul_right_div_self]
    _ = (value b d i + d i * b ^ i) / b ^ i := by rw [hmod, value]
    _ = d i := by
      rw [Nat.add_mul_div_right _ _ (Nat.zero_lt_of_lt hlow), Nat.div_eq_of_lt hlow, Nat.zero_add]

lemma value_lt_value (hd : ∀ i < n, d i < b) (h : d n < d' n) :
    value b d (n + 1) < value b d' (n + 1) := by
  calc value b d (n + 1)
    _ < b ^ n + d n * b ^ n := Nat.add_lt_add_right (value_lt hd) _
    _ = (d n + 1) * b ^ n := by ring
    _ ≤ d' n * b ^ n := Nat.mul_le_mul_right _ h
    _ ≤ value b d' (n + 1) := Nat.le_add_left _ _

-- `x` is added at place `w`, and the next place takes the carry without being reduced.
def addAt (b : ℕ) (d : ℕ → ℕ) (w x : ℕ) : ℕ → ℕ :=
  Function.update (Function.update d (w + 1) (d (w + 1) + x / b + (d w + x % b) / b)) w
    ((d w + x % b) % b)

lemma addAt_self (w : ℕ) : addAt b d w x w = (d w + x % b) % b := Function.update_self ..

lemma addAt_of_ne {k w : ℕ} (h : k ≠ w) (h' : k ≠ w + 1) : addAt b d w x k = d k := by
  rw [addAt, Function.update_of_ne h, Function.update_of_ne h']

theorem value_addAt {w : ℕ} (h : w + 1 < n) :
    value b (addAt b d w x) n = value b d n + x * b ^ w := by
  have hlow := value_update (b := b) (x := (d w + x % b) % b)
    (d := Function.update d (w + 1) (d (w + 1) + x / b + (d w + x % b) / b)) (Nat.lt_of_succ_lt h)
  have hhigh := value_update (b := b) (d := d) (x := d (w + 1) + x / b + (d w + x % b) / b) h
  rw [Function.update_of_ne (Nat.lt_succ_self w).ne] at hlow
  have hx : (x % b + b * (x / b)) * b ^ w = x * b ^ w := by rw [Nat.mod_add_div]
  have hs : ((d w + x % b) % b + b * ((d w + x % b) / b)) * b ^ w = (d w + x % b) * b ^ w := by
    rw [Nat.mod_add_div]
  rw [pow_succ'] at hhigh
  rw [addAt]
  linarith

end Positional

section Counted

variable {ε σ : Type}

-- `for (i = lo; i < lo + n; i++)`
def counted (lo : ℕ) (body : ℕ → σ → Except ε σ) : ℕ → σ → Except ε σ
  | 0, s => .ok s
  | n + 1, s => counted lo body n s >>= body (lo + n)

theorem counted_ok {lo n : ℕ} {body : ℕ → σ → Except ε σ} (Inv : ℕ → σ → Prop)
    (hstep : ∀ k < n, ∀ s, Inv k s → ∃ t, body (lo + k) s = .ok t ∧ Inv (k + 1) t) {s : σ}
    (hs : Inv 0 s) : ∃ t, counted lo body n s = .ok t ∧ Inv n t := by
  induction n with
  | zero => exact ⟨s, rfl, hs⟩
  | succ n ih =>
    obtain ⟨t, ht, hinv⟩ := ih fun k hk => hstep k (Nat.lt_succ_of_lt hk)
    obtain ⟨u, hu, hinv'⟩ := hstep n (Nat.lt_succ_self n) t hinv
    refine ⟨u, ?_, hinv'⟩
    rw [counted, ht]
    exact hu

lemma counted_first (lo n : ℕ) (body : ℕ → σ → Except ε σ) (s : σ) :
    counted lo body (n + 1) s = body lo s >>= counted (lo + 1) body n := by
  induction n with
  | zero =>
    rw [counted, counted, Nat.add_zero]
    cases hb : body lo s with
    | error e => exact hb
    | ok t => exact hb
  | succ n ih =>
    rw [counted, ih, bind_assoc]
    refine congrArg _ (funext fun t => ?_)
    rw [counted, Nat.add_right_comm, Nat.add_assoc]

lemma counted_map {lo n : ℕ} {body : ℕ → σ → Except ε σ} {f : σ → σ}
    (h : ∀ i s, body i (f s) = (body i s).map f) (s : σ) :
    counted lo body n (f s) = (counted lo body n s).map f := by
  induction n with
  | zero => rfl
  | succ n ih =>
    rw [counted, counted, ih]
    cases counted lo body n s with
    | error e => rfl
    | ok t => exact h (lo + n) t

end Counted

end SimpleCode.Foundations
