import Mathlib

set_option autoImplicit false

namespace SimpleCode.Foundations.Euclid

variable {g e n1 n2 x1 x2 : ℕ} {neg : Bool}

def coefficient (neg : Bool) (x : ℕ) : ℤ := if neg then -x else x

lemma coefficient_not (neg : Bool) (x : ℕ) : coefficient (!neg) x = -coefficient neg x := by
  cases neg
  · rfl
  · exact (neg_neg _).symm

lemma coefficient_mul (neg : Bool) (x k : ℕ) : coefficient neg (k * x) = k * coefficient neg x := by
  cases neg
  · exact Nat.cast_mul k x
  · simp only [coefficient, if_true, Nat.cast_mul, mul_neg]

lemma natAbs_coefficient (neg : Bool) (x : ℕ) : (coefficient neg x).natAbs = x := by
  cases neg
  · exact Int.natAbs_natCast x
  · exact (Int.natAbs_neg _).trans (Int.natAbs_natCast x)

lemma coefficient_neg_iff {neg : Bool} {x : ℕ} : coefficient neg x < 0 ↔ neg = true ∧ 0 < x := by
  cases neg
  · exact iff_of_false (Int.natCast_nonneg x).not_gt fun h => nomatch h.1
  · simp [coefficient]

lemma coefficient_opposite (neg : Bool) {x y : ℕ} (hx : 0 < x) (hy : 0 < y) :
    coefficient (!neg) x < 0 ↔ 0 ≤ coefficient neg y := by
  rw [← not_lt, coefficient_neg_iff, coefficient_neg_iff]
  cases neg <;> simp [hx, hy]

lemma coefficient_add_mul (neg : Bool) (x y k : ℕ) :
    coefficient neg (x + k * y) = coefficient neg x + k * coefficient neg y := by
  cases neg
  · exact_mod_cast rfl
  · simp only [coefficient, if_true, Nat.cast_add, Nat.cast_mul]
    ring

/-- `n1` and `n2` are the last two remainders, and `x1` and `x2` the sizes of their coefficients, of which
that of `n2` has the sign `neg` and that of `n1` the other one. -/
structure Round (g e n1 n2 x1 x2 : ℕ) (neg : Bool) : Prop where
  pos : 0 < n2
  lt : n2 < n1
  size_pos : 0 < x2
  gcd : n1.gcd n2 = g.gcd e
  total : n1 * x2 + n2 * x1 = g
  first : e * coefficient (!neg) x1 ≡ n1 [ZMOD g]
  second : e * coefficient neg x2 ≡ n2 [ZMOD g]

lemma round_start (he : 0 < e) (hlt : e < g) : Round g e g e 0 1 false where
  pos := he
  lt := hlt
  size_pos := Nat.one_pos
  gcd := rfl
  total := by rw [Nat.mul_one, Nat.mul_zero, Nat.add_zero]
  first := by
    have hzero : (e : ℤ) * coefficient (!false) 0 = 0 := Int.mul_zero _
    rw [hzero]
    exact (Int.modEq_zero_iff_dvd.mpr dvd_rfl).symm
  second := by
    have hone : (e : ℤ) * coefficient false 1 = e := Int.mul_one _
    rw [hone]

lemma Round.next (h : Round g e n1 n2 x1 x2 neg) (hr : n1 % n2 ≠ 0) :
    Round g e n2 (n1 % n2) x2 (x1 + n1 / n2 * x2) (!neg) where
  pos := Nat.pos_of_ne_zero hr
  lt := Nat.mod_lt _ h.pos
  size_pos := Nat.add_pos_right _ (Nat.mul_pos (Nat.div_pos h.lt.le h.pos) h.size_pos)
  gcd := by rw [← h.gcd, Nat.gcd_comm n1 n2, Nat.gcd_rec n2 n1, Nat.gcd_comm]
  total := by
    have hdiv := Nat.div_add_mod n1 n2
    calc n2 * (x1 + n1 / n2 * x2) + n1 % n2 * x2
      _ = (n2 * (n1 / n2) + n1 % n2) * x2 + n2 * x1 := by ring
      _ = g := by rw [hdiv, h.total]
  first := by
    rw [Bool.not_not]
    exact h.second
  second := by
    have hdiv : (n1 : ℤ) = n2 * (n1 / n2 : ℕ) + (n1 % n2 : ℕ) := by
      exact_mod_cast (Nat.div_add_mod n1 n2).symm
    have hsub := h.first.sub (h.second.mul_left ((n1 / n2 : ℕ) : ℤ))
    calc (e : ℤ) * coefficient (!neg) (x1 + n1 / n2 * x2)
      _ = e * coefficient (!neg) x1 - (n1 / n2 : ℕ) * (e * coefficient neg x2) := by
        rw [coefficient_add_mul, coefficient_not neg x2]
        ring
      _ ≡ n1 - (n1 / n2 : ℕ) * n2 [ZMOD g] := hsub
      _ = (n1 % n2 : ℕ) := by linarith

lemma Round.le (h : Round g e n1 n2 x1 x2 neg) : n1 ≤ g := by
  have hle := Nat.le_mul_of_pos_right n1 h.size_pos
  have htotal := h.total
  omega

lemma Round.size_lt (h : Round g e n1 n2 x1 x2 neg) : x2 < g := by
  have hmul := Nat.mul_le_mul_right x2 (Nat.succ_le_of_lt (Nat.lt_of_le_of_lt h.pos h.lt))
  have htotal := h.total
  have hpos := h.size_pos
  omega

def inverse (g x : ℕ) (neg : Bool) : ℕ := if neg then g - x else x

lemma inverse_pos (hpos : 0 < x2) (hlt : x2 < g) : 0 < inverse g x2 neg ∧ inverse g x2 neg < g := by
  cases neg
  · exact ⟨hpos, hlt⟩
  · exact ⟨Nat.sub_pos_of_lt hlt, Nat.sub_lt (Nat.zero_lt_of_lt hlt) hpos⟩

theorem Round.inverse_modEq (h : Round g e n1 n2 x1 x2 neg) (hr : n1 % n2 = 0) (hcoprime : g.gcd e = 1) :
    e * inverse g x2 neg ≡ 1 [MOD g] := by
  have hone : n2 = 1 := by
    rw [← hcoprime, ← h.gcd, Nat.gcd_eq_right (Nat.dvd_of_mod_eq_zero hr)]
  have hinverse : ((inverse g x2 neg : ℕ) : ℤ) ≡ coefficient neg x2 [ZMOD g] := by
    cases neg
    · rfl
    · have hcast : ((inverse g x2 true : ℕ) : ℤ) = g + coefficient true x2 := by
        change ((g - x2 : ℕ) : ℤ) = g + -x2
        rw [Nat.cast_sub h.size_lt.le]
        ring
      rw [hcast]
      exact Int.add_modEq_left
  have hsecond := (hinverse.mul_left (e : ℤ)).trans h.second
  rw [hone] at hsecond
  exact_mod_cast (Int.natCast_modEq_iff (a := e * inverse g x2 neg) (b := 1)).mp (by exact_mod_cast hsecond)

end SimpleCode.Foundations.Euclid
