import SimpleCode.Crypto.RSAArithmetic

set_option autoImplicit false

namespace SimpleCode.Crypto.RSA

open Foundations Foundations.Comp Positional

section Sum

variable {a a1 a2 c : BigNum} {v1 v2 i u w x y m n : ℕ}

lemma addDigit_ok {s : Chain} (hx : x < 10) (hy : y < 10) (hk : s.2 ≤ 1) (hi : i < 98) :
    ∃ z k, addDigit x y i s = .ok ({ s.1 with digit := Function.update s.1.digit i z }, k)
      ∧ z < 10 ∧ k ≤ 1 ∧ x + y + s.2 = z + 10 * k := by
  refine ⟨(x + y + s.2) % 10, (x + y + s.2) / 10, ?_, Nat.mod_lt _ (by decide), by omega,
    (Nat.mod_add_div _ _).symm⟩
  rw [addDigit, write_eq hi]
  rfl

structure Carried (c0 : BigNum) (i u : ℕ) (s : Chain) : Prop where
  value : value 10 s.1.digit i + s.2 * 10 ^ i = u
  carry : s.2 ≤ 1
  digit : ∀ k < i, s.1.digit k < 10
  sign : s.1.sign = c0.sign

lemma carried_addDigit {s : Chain} (hi : i < 98) (hx : x < 10) (hy : y < 10) (h : Carried c i u s) :
    ∃ t, addDigit x y i s = .ok t ∧ Carried c (i + 1) (u + (x + y) * 10 ^ i) t := by
  obtain ⟨z, k, ht, hz, hk, hxz⟩ := addDigit_ok hx hy h.carry hi
  refine ⟨_, ht, ?_, hk, fun j hj => ?_, h.sign⟩
  · have hvalue := h.value
    have hpow := congrArg (· * 10 ^ i) hxz
    simp only [value, Function.update_self, value_update_of_le le_rfl, pow_succ']
    simp only [Nat.add_mul] at hpow ⊢
    linarith
  · simp only
    by_cases hji : j = i
    · rw [hji, Function.update_self]
      exact hz
    · rw [Function.update_of_ne hji]
      exact h.digit j (by omega)

lemma carried_addBoth (hle1 : n ≤ a1.length) (hle2 : n ≤ a2.length) (h1 : Digits a1 v1)
    (h2 : Digits a2 v2) : ∃ s, counted 0 (addBoth a1 a2) n (c, 0) = .ok s
      ∧ Carried c n (value 10 a1.digit n + value 10 a2.digit n) s := by
  have hlength := h1.length_le
  refine counted_ok (fun k => Carried c k (value 10 a1.digit k + value 10 a2.digit k))
    (fun k hk s hs => ?_) ⟨rfl, Nat.zero_le 1, fun k hk => absurd hk (Nat.not_lt_zero k), rfl⟩
  obtain ⟨t, ht, hcarried⟩ := carried_addDigit (i := k) (by omega) (h1.digit k (by omega))
    (h2.digit k (by omega)) hs
  refine ⟨t, ?_, ?_⟩
  · rw [Nat.zero_add, addBoth, read_eq (by omega), read_eq (by omega)]
    exact ht
  · have hsum : value 10 a1.digit (k + 1) + value 10 a2.digit (k + 1)
        = value 10 a1.digit k + value 10 a2.digit k + (a1.digit k + a2.digit k) * 10 ^ k := by
      rw [value, value]
      ring
    rw [hsum]
    exact hcarried

lemma carried_addRest {s : Chain} (hle : m + n ≤ 98) (hd : ∀ k < m + n, a.digit k < 10)
    (h : Carried c m (w + value 10 a.digit m) s) : ∃ t, counted m (addRest a) n s = .ok t
      ∧ Carried c (m + n) (w + value 10 a.digit (m + n)) t := by
  refine counted_ok (fun k => Carried c (m + k) (w + value 10 a.digit (m + k)))
    (fun k hk s hs => ?_) h
  obtain ⟨t, ht, hcarried⟩ := carried_addDigit (y := 0) (by omega) (hd (m + k) (by omega)) (by decide) hs
  refine ⟨t, ?_, ?_⟩
  · rw [addRest, read_eq (by omega)]
    exact ht
  · rw [← Nat.add_assoc, value, ← Nat.add_assoc]
    exact hcarried

def finish (n : ℕ) (s : Chain) : Except Fault BigNum :=
  if s.2 ≠ 0 then do
    let c ← s.1.write n s.2
    .ok { c with length := n + 1 }
  else .ok { s.1 with length := n }

lemma addDigits_eq (h1 : Digits a1 v1) (h2 : Digits a2 v2) :
    ∃ s, addDigits a1 a2 c = finish (max a1.length a2.length) s
      ∧ Carried c (max a1.length a2.length) (v1 + v2) s := by
  have hlength1 := h1.length_le
  have hlength2 := h2.length_le
  rcases Nat.lt_or_ge a2.length a1.length with hlt | hge
  · obtain ⟨s, hs, hboth⟩ := carried_addBoth (c := c) (n := a2.length) hlt.le le_rfl h1 h2
    rw [h2.value, Nat.add_comm] at hboth
    obtain ⟨t, ht, hrest⟩ := carried_addRest (n := a1.length - a2.length) (by omega)
      (fun k hk => h1.digit k (by omega)) hboth
    rw [Nat.add_sub_of_le hlt.le, h1.value, Nat.add_comm] at hrest
    refine ⟨t, ?_, by rwa [Nat.max_eq_left hlt.le]⟩
    rw [addDigits, Nat.min_eq_right hlt.le, Nat.max_eq_left hlt.le]
    simp only [hs, ok_bind, if_pos hlt, ht]
    rfl
  · obtain ⟨s, hs, hboth⟩ := carried_addBoth (c := c) (n := a1.length) le_rfl hge h1 h2
    rw [h1.value] at hboth
    obtain ⟨t, ht, hrest⟩ := carried_addRest (n := a2.length - a1.length) (by omega)
      (fun k hk => h2.digit k (by omega)) hboth
    rw [Nat.add_sub_of_le hge, h2.value] at hrest
    refine ⟨t, ?_, by rwa [Nat.max_eq_right hge]⟩
    rw [addDigits, Nat.min_eq_left hge, Nat.max_eq_right hge]
    simp only [hs, ok_bind, if_neg (Nat.lt_irrefl _), ht]
    rfl

lemma finish_denotes {s : Chain} {t : BigNum} (h : Carried c n u s) (hpos : 0 < n) (hn : n ≤ 98)
    (htop : n = 1 ∨ 10 ^ (n - 1) ≤ u) (hfinish : finish n s = .ok t) :
    Denotes { t with sign := 0 } u ∧ t.sign = c.sign := by
  have hvalue := h.value
  by_cases hcarry : s.2 = 0
  · rw [finish, if_neg (not_not.mpr hcarry)] at hfinish
    cases hfinish
    rw [hcarry, Nat.zero_mul, Nat.add_zero] at hvalue
    have hdigits : Digits { s.1 with length := n, sign := 0 } u := ⟨hpos, hn, h.digit, hvalue, nofun⟩
    exact ⟨htop.elim (fun hone => ⟨hdigits, .inl hone⟩) fun hle => hdigits.denotes hle, h.sign⟩
  · rw [finish, if_pos hcarry] at hfinish
    by_cases hlt : n < 98
    · rw [write_eq hlt, ok_bind] at hfinish
      cases hfinish
      refine ⟨⟨⟨Nat.succ_pos n, hlt, fun k hk => ?_, ?_, nofun⟩, .inr ?_⟩, h.sign⟩
      · simp only at hk ⊢
        by_cases hkn : k = n
        · rw [hkn, Function.update_self]
          exact Nat.lt_of_le_of_lt h.carry (by decide)
        · rw [Function.update_of_ne hkn]
          exact h.digit k (by omega)
      · simp only [value, Function.update_self, value_update_of_le le_rfl]
        exact hvalue
      · simpa using hcarry
    · rw [BigNum.write, if_neg hlt] at hfinish
      cases hfinish

lemma finish_fits {s : Chain} (h : Carried c n u s) (hn : n ≤ 98) (hfit : u < 10 ^ 98) :
    ∃ t, finish n s = .ok t := by
  by_cases hcarry : s.2 = 0
  · exact ⟨_, if_neg (not_not.mpr hcarry)⟩
  · have hlt : n < 98 := by
      refine hn.lt_of_ne fun heq => ?_
      have hvalue := h.value
      have hle := Nat.mul_le_mul_right (10 ^ n) (Nat.pos_of_ne_zero hcarry)
      rw [heq] at hvalue hle
      omega
    rw [finish, if_pos hcarry, write_eq hlt]
    exact ⟨_, rfl⟩

lemma max_pow_le (h1 : Denotes a1 v1) (h2 : Denotes a2 v2) :
    max a1.length a2.length = 1 ∨ 10 ^ (max a1.length a2.length - 1) ≤ v1 + v2 := by
  rcases Nat.le_total a1.length a2.length with hle | hle
  · rw [Nat.max_eq_right hle]
    have hpos := h2.pos
    by_cases hone : a2.length = 1
    · exact .inl hone
    · exact .inr ((h2.pow_le (by omega)).trans (Nat.le_add_left ..))
  · rw [Nat.max_eq_left hle]
    have hpos := h1.pos
    by_cases hone : a1.length = 1
    · exact .inl hone
    · exact .inr ((h1.pow_le (by omega)).trans (Nat.le_add_right ..))

theorem addDigits_denotes {t : BigNum} (h1 : Denotes a1 v1) (h2 : Denotes a2 v2)
    (h : addDigits a1 a2 c = .ok t) : Denotes { t with sign := 0 } (v1 + v2) ∧ t.sign = c.sign := by
  obtain ⟨s, hs, hcarried⟩ := addDigits_eq (c := c) h1.toDigits h2.toDigits
  rw [hs] at h
  exact finish_denotes hcarried (lt_max_of_lt_left h1.pos) (max_le h1.length_le h2.length_le)
    (max_pow_le h1 h2) h

theorem addDigits_fits (h1 : Denotes a1 v1) (h2 : Denotes a2 v2) (hfit : v1 + v2 < 10 ^ 98) :
    ∃ t, addDigits a1 a2 c = .ok t ∧ Denotes { t with sign := 0 } (v1 + v2) ∧ t.sign = c.sign := by
  obtain ⟨s, hs, hcarried⟩ := addDigits_eq (c := c) h1.toDigits h2.toDigits
  obtain ⟨t, ht⟩ := finish_fits hcarried (max_le h1.length_le h2.length_le) hfit
  exact ⟨t, hs.trans ht, addDigits_denotes h1 h2 (hs.trans ht)⟩

end Sum

section Trimming

variable {a1 a2 c t : BigNum} {k l1 l2 len n v1 v2 d : ℕ}

lemma trim_sign (s : ℕ) : trim { c with sign := s } k len = trim c k len := by
  induction k generalizing len with
  | zero => rfl
  | succ k ih =>
    simp only [trim, BigNum.read]
    split
    · simp only [ok_bind, ih]
    · rfl

lemma trimmed_sign (s : ℕ) : trimmed { c with sign := s } len l1
    = (trimmed c len l1).map fun t => { t with sign := s } := by
  simp only [trimmed, BigNum.read, trim_sign]
  split
  · simp only [ok_bind]
    split
    · cases trim c (l1 - 1) (len - 1) <;> rfl
    · rfl
  · rfl

lemma trim_le (h : trim c k k = .ok len) : len ≤ k := by
  induction k generalizing len with
  | zero => cases h
  | succ k ih =>
    obtain ⟨x, -, hx⟩ := bind_eq_ok.mp h
    by_cases hzero : x = 0
    · rw [if_pos hzero] at hx
      exact (ih hx).trans (Nat.le_succ k)
    · rw [if_neg hzero] at hx
      cases hx
      exact le_rfl

/-- What is left of the larger number, with `l2` digits, after the smaller one, with `l1` digits, is
`d`. A zero in the first digit of the result is looked for in its place, but the zeros behind it are
looked for from the last digit but one of the smaller number on. -/
def FindsLength (l1 l2 d : ℕ) : Prop :=
  l1 < l2 → d < 10 ^ (l2 - 1) → 2 ≤ l1 ∧ (d / 10 ^ (l1 - 2) % 10 ≠ 0 ↔ 10 ^ (l2 - 2) ≤ d)

lemma trimmed_same (hd : ∀ i < n, c.digit i < 10) (hvalue : value 10 c.digit n = d) (hpos : 0 < d)
    (h98 : n ≤ 98) : ∃ t, trimmed c n n = .ok t ∧ Denotes { t with sign := 0 } d := by
  obtain ⟨t, ht, hden, -⟩ := trimmed_ok (c := { c with sign := 0 }) h98 hd (hvalue ▸ hpos) nofun
  rw [trimmed_sign] at ht
  cases hu : trimmed c n n with
  | error e =>
    rw [hu] at ht
    cases ht
  | ok u =>
    rw [hu] at ht
    cases ht
    exact ⟨u, rfl, hvalue ▸ hden⟩

lemma zero_ne_minus : 0 ≠ minus := by decide

lemma trimmed_given (h98 : l2 ≤ 98) (hpos : 0 < l2) (hzero : c.digit (l2 - 1) = 0) (P : BigNum → Prop) :
    (∃ t, trimmed c l2 l1 = .ok t ∧ P t)
      ↔ ∃ len, trim c (l1 - 1) (l2 - 1) = .ok len ∧ P { c with length := len } := by
  rw [trimmed, read_eq (by omega), ok_bind, if_pos hzero]
  cases trim c (l1 - 1) (l2 - 1) with
  | error e =>
    constructor
    · rintro ⟨t, ht, -⟩
      cases ht
    · rintro ⟨n, hn, -⟩
      cases hn
  | ok len =>
    constructor
    · rintro ⟨t, ht, h⟩
      cases ht
      exact ⟨len, rfl, h⟩
    · rintro ⟨n, hn, h⟩
      cases hn
      exact ⟨_, rfl, h⟩

lemma trimmed_shorter (hd : ∀ i < l2, c.digit i < 10) (hvalue : value 10 c.digit (l2 - 1) = d)
    (hpos : 0 < d) (h98 : l2 ≤ 98) (htwo : k + 2 < l2) (hzero : c.digit (l2 - 1) = 0)
    (hgap : k + 2 + 2 ≤ l2 → 10 ^ (l2 - 2) ≤ d) :
    (∃ t, trimmed c l2 (k + 2) = .ok t ∧ Denotes { t with sign := 0 } d)
      ↔ (c.digit k ≠ 0 ↔ 10 ^ (l2 - 2) ≤ d) := by
  have htrim : trim c (k + 2 - 1) (l2 - 1)
      = if c.digit k = 0 then trim c k k else .ok (l2 - 1) := by
    change trim c (k + 1) (l2 - 1) = _
    rw [trim, read_eq (by omega), ok_bind]
  rw [trimmed_given h98 (by omega) hzero, htrim]
  by_cases hk : c.digit k = 0
  · rw [if_pos hk]
    constructor
    · rintro ⟨len, hlen, hden⟩
      refine ⟨fun hne => absurd hk hne, fun hle => absurd (hden.lt.trans_le ?_) hle.not_gt⟩
      exact Nat.pow_le_pow_right (by decide) ((trim_le hlen).trans (by omega))
    · intro h
      have hfew : d < 10 ^ (l2 - 2) := not_le.mp fun hle => h.mpr hle hk
      -- the numbers differ by one in their lengths, so the zeros are looked for where they are
      obtain rfl : l2 = k + 3 := by
        by_contra hne
        exact hfew.not_ge (hgap (by omega))
      have hlow : value 10 c.digit k = d := by
        have htop := (pow_le_value_iff (b := 10) (d := c.digit) (n := k + 1)
          (fun i hi => hd i (by omega))).not.mp (hvalue ▸ hfew.not_ge)
        rw [← hvalue]
        refine (value_of_zero (fun i hi hlt => ?_) (by omega)).symm
        rcases Nat.lt_or_ge i (k + 1) with hik | hik
        · obtain rfl : i = k := by omega
          exact hk
        · obtain rfl : i = k + 1 := by
            simp only [Nat.reduceSubDiff] at hlt
            omega
          exact not_not.mp htop
      obtain ⟨len, hlen, hlpos, hle, htop, hrest⟩ := trim_ok (c := c) (k := k) (by omega) (by omega)
      refine ⟨len, hlen, ⟨hlpos, by simp only; omega, fun i hi => hd i (by simp only at hi; omega), ?_,
        zero_ne_minus⟩,
        .inr htop⟩
      rw [← hlow]
      exact (value_of_zero hrest hle).symm
  · rw [if_neg hk]
    have hsucc : l2 - 2 + 1 = l2 - 1 := by omega
    have htop := pow_le_value_iff (b := 10) (d := c.digit) (n := l2 - 2) fun i hi => hd i (by omega)
    rw [hsucc, hvalue] at htop
    have hdigits : Digits { c with length := l2 - 1, sign := 0 } d :=
      ⟨by simp only; omega, by simp only; omega, fun i hi => hd i (by simp only at hi; omega), hvalue,
        zero_ne_minus⟩
    constructor
    · rintro ⟨len, hlen, hden⟩
      cases hlen
      exact ⟨fun _ => hden.pow_le (by simp only; omega), fun _ => hk⟩
    · exact fun h => ⟨l2 - 1, rfl, hdigits, .inr (htop.mp (h.mp hk))⟩

theorem trimmed_iff (hd : ∀ i < l2, c.digit i < 10) (hvalue : value 10 c.digit l2 = d) (hpos : 0 < d)
    (h98 : l2 ≤ 98) (hl1 : 0 < l1) (hle : l1 ≤ l2) (hgap : l1 + 2 ≤ l2 → 10 ^ (l2 - 2) ≤ d) :
    (∃ t, trimmed c l2 l1 = .ok t ∧ Denotes { t with sign := 0 } d) ↔ FindsLength l1 l2 d := by
  rcases hle.eq_or_lt with rfl | hlt
  · exact ⟨fun _ h => absurd h (Nat.lt_irrefl _), fun _ => trimmed_same hd hvalue hpos h98⟩
  have hsucc : l2 - 1 + 1 = l2 := by omega
  have htop := pow_le_value_iff (b := 10) (d := c.digit) (n := l2 - 1) fun i hi => hd i (by omega)
  rw [hsucc, hvalue] at htop
  by_cases hzero : c.digit (l2 - 1) = 0
  · have hfew : d < 10 ^ (l2 - 1) := not_le.mp fun h => htop.mp h hzero
    have hlow : value 10 c.digit (l2 - 1) = d := by
      rw [← hvalue]
      refine (value_of_zero (fun i hi hlt => ?_) (Nat.sub_le l2 1)).symm
      obtain rfl : i = l2 - 1 := by omega
      exact hzero
    rcases Nat.lt_or_ge 1 l1 with htwo | hone
    · obtain ⟨k, rfl⟩ : ∃ k, l1 = k + 2 := ⟨l1 - 2, by omega⟩
      rw [trimmed_shorter hd hlow hpos h98 hlt hzero hgap, FindsLength, Nat.add_sub_cancel, ← hvalue,
        value_div_pow_mod hd (by omega)]
      exact ⟨fun h _ _ => ⟨htwo, h⟩, fun h => (h hlt (by rwa [hvalue])).2⟩
    · obtain rfl : l1 = 1 := by omega
      rw [trimmed_given h98 (by omega) hzero]
      refine ⟨?_, fun h => absurd (h hlt hfew).1 (by decide)⟩
      rintro ⟨n, hn, -⟩
      cases hn
  · have hend : trimmed c l2 l1 = .ok { c with length := l2 } := by
      rw [trimmed, read_eq (by omega), ok_bind, if_neg hzero]
    exact ⟨fun _ _ hfew => absurd (htop.mpr hzero) hfew.not_ge, fun _ => ⟨_, hend,
      ⟨by simp only; omega, h98, hd, hvalue, zero_ne_minus⟩, .inr hzero⟩⟩

lemma trimmed_keeps_sign (h : trimmed c len l1 = .ok t) : t.sign = c.sign := by
  have hsign : Except.ok t = (trimmed c len l1).map fun t => { t with sign := c.sign } :=
    h.symm.trans (trimmed_sign c.sign)
  rw [h] at hsign
  have heq : t = { t with sign := c.sign } := Except.ok.inj hsign
  rw [heq]

end Trimming

section SignedNumbers

/-- The digits are those of the absolute value of `z`, and the sign is that of `z`. -/
structure Signed (a : BigNum) (z : ℤ) : Prop where
  size : Denotes { a with sign := 0 } z.natAbs
  sign : a.sign = minus ↔ z < 0

variable {a a1 a2 b c t : BigNum} {v v1 v2 : ℕ} {z z1 z2 : ℤ}

lemma Denotes.unsigned (h : Denotes a v) : Denotes { a with sign := 0 } v :=
  ⟨⟨h.pos, h.length_le, h.digit, h.value, nofun⟩, h.top⟩

lemma Denotes.signed (h : Denotes a v) : Signed a v :=
  ⟨h.unsigned, ⟨fun hs => absurd hs h.sign, fun hlt => absurd hlt (Int.not_lt.mpr (Int.natCast_nonneg v))⟩⟩

lemma Signed.denotes (h : Signed a z) (hz : 0 ≤ z) : Denotes a z.natAbs :=
  ⟨⟨h.size.pos, h.size.length_le, h.size.digit, h.size.value, fun hs => absurd (h.sign.mp hs)
    (Int.not_lt.mpr hz)⟩, h.size.top⟩

lemma difference_ge (h1 : Denotes a1 v1) (h2 : Denotes a2 v2) (hlen : a1.length + 2 ≤ a2.length) :
    10 ^ (a2.length - 2) ≤ v2 - v1 := by
  have hlow : v1 < 10 ^ (a2.length - 2) :=
    h1.lt.trans_le (Nat.pow_le_pow_right (by decide) (by omega))
  have hhigh := h2.pow_le (by omega)
  have hsucc : 10 ^ (a2.length - 1) = 10 * 10 ^ (a2.length - 2) := by
    rw [← Nat.pow_succ']
    congr 1
    omega
  omega

theorem subDigits_iff (h1 : Denotes a1 v1) (h2 : Denotes a2 v2) (hc : c.sign ≠ minus) :
    (∃ t, subDigits a1 a2 c = .ok t ∧ Signed t (v1 - v2))
      ↔ (v1 < v2 → FindsLength a1.length a2.length (v2 - v1)) := by
  rcases Nat.lt_or_ge v1 v2 with hlt | hge
  · have hlen := length_le_of_lt h1 h2.toDigits hlt
    obtain ⟨u, hu, hdigit, hvalue, -, hsign⟩ := borrow_ok (c := { c with sign := minus }) h2.toDigits
      h1.toDigits hlen hlt.le
    have habs : ((v1 : ℤ) - v2).natAbs = v2 - v1 := by omega
    have hcmp : cmp a1 a2 = .ok (-1) := by rw [cmp_eq h1 h2, order_eq_neg_one.mpr hlt]
    have hsub : subDigits a1 a2 c = trimmed u a2.length a1.length := by
      rw [subDigits, hcmp, ok_bind, if_neg (by decide), if_pos rfl, hu, ok_bind]
    rw [hsub, forall_prop_of_true hlt, ← trimmed_iff hdigit hvalue (Nat.sub_pos_of_lt hlt) h2.length_le
      h1.pos hlen (difference_ge h1 h2)]
    constructor
    · rintro ⟨t, ht, hsigned⟩
      exact ⟨t, ht, habs ▸ hsigned.size⟩
    · rintro ⟨t, ht, hden⟩
      refine ⟨t, ht, habs.symm ▸ hden, ?_⟩
      rw [trimmed_keeps_sign ht, hsign]
      exact iff_of_true rfl (by omega)
  · obtain ⟨t, ht, hden, -⟩ := sub_ok h1 h2 hge hc
    rw [sub, if_neg (fun h => h1.sign h.1), if_neg h2.sign, if_neg h1.sign] at ht
    refine ⟨fun _ h => absurd h hge.not_gt, fun _ => ⟨t, ht, ?_⟩⟩
    rw [← Int.ofNat_sub hge]
    exact hden.signed

def Finds (a1 a2 : BigNum) (v1 v2 : ℕ) : Prop :=
  v1 < v2 → FindsLength a1.length a2.length (v2 - v1)

def AddFinds (a1 a2 : BigNum) (z1 z2 : ℤ) : Prop :=
  (z1 < 0 ∧ 0 ≤ z2 → Finds a2 a1 z2.natAbs z1.natAbs)
    ∧ (0 ≤ z1 ∧ z2 < 0 → Finds a1 a2 z1.natAbs z2.natAbs)

def SubFinds (a1 a2 : BigNum) (z1 z2 : ℤ) : Prop :=
  (0 ≤ z1 ∧ 0 ≤ z2 → Finds a1 a2 z1.natAbs z2.natAbs)
    ∧ (z1 < 0 ∧ z2 < 0 → Finds a2 a1 z2.natAbs z1.natAbs)

lemma Signed.sign_ne (h : Signed a z) (hz : 0 ≤ z) : a.sign ≠ minus :=
  h.sign.not.mpr (not_lt.mpr hz)

lemma addDigits_sign (s1 s2 : ℕ) :
    addDigits { a1 with sign := s1 } { a2 with sign := s2 } c = addDigits a1 a2 c := by
  simp only [addDigits]
  split <;> rfl

lemma addDigits_signed (h1 : Signed a1 z1) (h2 : Signed a2 z2) (habs : z.natAbs = z1.natAbs + z2.natAbs)
    (hfit : z.natAbs < 10 ^ 98) (hc : c.sign = minus ↔ z < 0) :
    ∃ t, addDigits a1 a2 c = .ok t ∧ Signed t z := by
  obtain ⟨t, ht, hden, hsign⟩ := addDigits_fits (c := c) h1.size h2.size (habs ▸ hfit)
  rw [addDigits_sign] at ht
  exact ⟨t, ht, habs.symm ▸ hden, hsign ▸ hc⟩

lemma subDigits_signed (h1 : Denotes a1 v1) (h2 : Denotes a2 v2) (hz : z = v1 - v2) :
    (∃ t, subDigits a1 a2 .zero = .ok t ∧ Signed t z) ↔ Finds a1 a2 v1 v2 := by
  rw [hz]
  exact subDigits_iff h1 h2 nofun

theorem add_iff (h1 : Signed a1 z1) (h2 : Signed a2 z2) (hfit : (z1 + z2).natAbs < 10 ^ 98) :
    (∃ t, add a1 a2 .zero = .ok t ∧ Signed t (z1 + z2)) ↔ AddFinds a1 a2 z1 z2 := by
  rcases lt_or_ge z1 0 with hz1 | hz1
  · have hs1 := h1.sign.mpr hz1
    rcases lt_or_ge z2 0 with hz2 | hz2
    · rw [add, if_pos ⟨hs1, h2.sign.mpr hz2⟩]
      refine iff_of_true (addDigits_signed h1 h2 (by omega) hfit (iff_of_true rfl (by omega))) ?_
      exact ⟨fun h => absurd hz2 (not_lt.mpr h.2), fun h => absurd hz1 (not_lt.mpr h.1)⟩
    · rw [add, if_neg (fun h => h2.sign_ne hz2 h.2), if_pos hs1,
        subDigits_signed (h2.denotes hz2) h1.size (by omega)]
      exact ⟨fun h => ⟨fun _ => h, fun h' => absurd hz1 (not_lt.mpr h'.1)⟩, fun h => h.1 ⟨hz1, hz2⟩⟩
  · have hs1 := h1.sign_ne hz1
    rcases lt_or_ge z2 0 with hz2 | hz2
    · rw [add, if_neg (fun h => hs1 h.1), if_neg hs1, if_pos (h2.sign.mpr hz2),
        subDigits_signed (h1.denotes hz1) h2.size (by omega)]
      exact ⟨fun h => ⟨fun h' => absurd h'.1 (not_lt.mpr hz1), fun _ => h⟩, fun h => h.2 ⟨hz1, hz2⟩⟩
    · rw [add, if_neg (fun h => hs1 h.1), if_neg hs1, if_neg (h2.sign_ne hz2)]
      refine iff_of_true (addDigits_signed h1 h2 (by omega) hfit (iff_of_false nofun (by omega))) ?_
      exact ⟨fun h => absurd h.1 (not_lt.mpr hz1), fun h => absurd h.2 (not_lt.mpr hz2)⟩

theorem sub_iff (h1 : Signed a1 z1) (h2 : Signed a2 z2) (hfit : (z1 - z2).natAbs < 10 ^ 98) :
    (∃ t, sub a1 a2 .zero = .ok t ∧ Signed t (z1 - z2)) ↔ SubFinds a1 a2 z1 z2 := by
  rcases lt_or_ge z1 0 with hz1 | hz1
  · have hs1 := h1.sign.mpr hz1
    rcases lt_or_ge z2 0 with hz2 | hz2
    · rw [sub, if_pos ⟨hs1, h2.sign.mpr hz2⟩, subDigits_signed h2.size h1.size (by omega)]
      exact ⟨fun h => ⟨fun h' => absurd hz1 (not_lt.mpr h'.1), fun _ => h⟩, fun h => h.2 ⟨hz1, hz2⟩⟩
    · have hs2 := h2.sign_ne hz2
      rw [sub, if_neg (fun h => hs2 h.2), if_neg hs2, if_pos hs1, add, if_pos ⟨hs1, rfl⟩,
        addDigits_sign a1.sign minus]
      refine iff_of_true (addDigits_signed h1 h2 (by omega) hfit (iff_of_true rfl (by omega))) ?_
      exact ⟨fun h => absurd hz1 (not_lt.mpr h.1), fun h => absurd h.2 (not_lt.mpr hz2)⟩
  · have hs1 := h1.sign_ne hz1
    rcases lt_or_ge z2 0 with hz2 | hz2
    · rw [sub, if_neg (fun h => hs1 h.1), if_pos (h2.sign.mpr hz2), add, if_neg (fun h => hs1 h.1),
        if_neg hs1, if_neg zero_ne_minus, addDigits_sign a1.sign 0]
      refine iff_of_true (addDigits_signed h1 h2 (by omega) hfit (iff_of_false zero_ne_minus (by omega))) ?_
      exact ⟨fun h => absurd hz2 (not_lt.mpr h.2), fun h => absurd h.1 (not_lt.mpr hz1)⟩
    · rw [sub, if_neg (fun h => hs1 h.1), if_neg (h2.sign_ne hz2), if_neg hs1,
        subDigits_signed (h1.denotes hz1) (h2.denotes hz2) (by omega)]
      exact ⟨fun h => ⟨fun _ => h, fun h' => absurd h'.1 (not_lt.mpr hz1)⟩, fun h => h.1 ⟨hz1, hz2⟩⟩

theorem add_sub_exact (h1 : Signed a1 z1) (h2 : Signed a2 z2) :
    ((z1 + z2).natAbs < 10 ^ 98 →
      ((∃ t, add a1 a2 .zero = .ok t ∧ Signed t (z1 + z2)) ↔ AddFinds a1 a2 z1 z2))
    ∧ ((z1 - z2).natAbs < 10 ^ 98 →
      ((∃ t, sub a1 a2 .zero = .ok t ∧ Signed t (z1 - z2)) ↔ SubFinds a1 a2 z1 z2)) :=
  ⟨add_iff h1 h2, sub_iff h1 h2⟩

def written (digits : List ℕ) (sign : ℕ) : BigNum := ⟨fun i => digits.getD i 0, sign, digits.length⟩

lemma signed_1003 : Signed (written [3, 0, 0, 1] minus) (-1003) :=
  ⟨⟨⟨by decide, by decide, by decide, rfl, by decide⟩, .inr (by decide)⟩, iff_of_true rfl (by decide)⟩

lemma denotes_587 : Denotes (written [7, 8, 5] 0) 587 :=
  ⟨⟨by decide, by decide, by decide, rfl, by decide⟩, .inr (by decide)⟩

theorem add_sub_exact_1003 :
    (∃ t, add (written [3, 0, 0, 1] minus) (written [7, 8, 5] 0) .zero = .ok t ∧ Signed t (-1003 + 587))
    ∧ ∃ t, sub (written [3, 0, 0, 1] minus) (written [7, 8, 5] 0) .zero = .ok t ∧ Signed t (-1003 - 587) := by
  obtain ⟨hadd, hsub⟩ := add_sub_exact signed_1003 denotes_587.signed
  refine ⟨(hadd (by decide)).mpr ⟨fun _ _ _ => ?_, ?_⟩, (hsub (by decide)).mpr ⟨?_, ?_⟩⟩
  · decide
  · exact fun h => absurd h.1 (by decide)
  · exact fun h => absurd h.1 (by decide)
  · exact fun h => absurd h.2 (by decide)

-- The first digit of the result is zero, and the next one is looked for in front of the array.
theorem sub_outOfCells : ∃ a1 a2 : BigNum, Signed a1 5 ∧ Signed a2 10 ∧ (5 - 10 : ℤ).natAbs < 10 ^ 98
    ∧ ¬ ∃ t, sub a1 a2 .zero = .ok t ∧ Signed t (5 - 10) := by
  refine ⟨⟨fun i => [5].getD i 0, 0, 1⟩, ⟨fun i => [0, 1].getD i 0, 0, 2⟩, ?_, ?_, by decide, ?_⟩
  · exact Denotes.signed (v := 5) ⟨⟨by decide, by decide, by decide, rfl, by decide⟩, .inl rfl⟩
  · exact Denotes.signed (v := 10) ⟨⟨by decide, by decide, by decide, rfl, by decide⟩, .inr (by decide)⟩
  · rintro ⟨t, ht, -⟩
    have hfault : sub ⟨fun i => [5].getD i 0, 0, 1⟩ ⟨fun i => [0, 1].getD i 0, 0, 2⟩ .zero
        = .error .outOfCells := rfl
    rw [hfault] at ht
    cases ht

end SignedNumbers

section SignedProduct

variable {a1 a2 c : BigNum} {v1 : ℕ} {z1 z2 : ℤ}

lemma mulDigit_sign (i j s : ℕ) (c : BigNum) : mulDigit a1 a2 i j { c with sign := s }
    = (mulDigit a1 a2 i j c).map fun t => { t with sign := s } := by
  simp only [mulDigit]
  rcases a1.read i with _ | x
  · rfl
  rcases a2.read j with _ | y
  · rfl
  simp only [ok_bind, BigNum.read, BigNum.write]
  by_cases hw : i + j < 98
  · by_cases hw' : i + j + 1 < 98
    · simp only [if_pos hw, if_pos hw', ok_bind]
      rfl
    · simp only [if_pos hw, if_neg hw', ok_bind]
      rfl
  · simp only [if_neg hw]
    rfl

def mulRows (a1 a2 c : BigNum) : Except Fault BigNum := do
  let c ← counted 0 (fun i => counted 0 (mulDigit a1 a2 i) a2.length) a1.length c
  let w := a1.length + a2.length
  if w = 0 then .error .outOfCells
  else
    let w := if (← c.read (w - 1)) = 0 then w - 1 else w
    .ok { c with length := w }

lemma mul_rows : mul a1 a2 c = mulRows a1 a2 (mulSign a1 a2 c) := rfl

lemma mulRows_unsigned : mulRows { a1 with sign := 0 } { a2 with sign := 0 } c = mulRows a1 a2 c := rfl

lemma mulRows_sign (s : ℕ) (c : BigNum) : mulRows a1 a2 { c with sign := s }
    = (mulRows a1 a2 c).map fun t => { t with sign := s } := by
  have hrows : counted 0 (fun i => counted 0 (mulDigit a1 a2 i) a2.length) a1.length { c with sign := s }
      = (counted 0 (fun i => counted 0 (mulDigit a1 a2 i) a2.length) a1.length c).map
        fun t => { t with sign := s } :=
    counted_map (f := fun t : BigNum => { t with sign := s })
      (fun i c => counted_map (f := fun t : BigNum => { t with sign := s })
        (fun j c => mulDigit_sign i j s c) c) c
  rw [mulRows, mulRows, hrows]
  cases counted 0 (fun i => counted 0 (mulDigit a1 a2 i) a2.length) a1.length c with
  | error e => rfl
  | ok u =>
    simp only [Except.map, ok_bind, BigNum.read]
    split
    · rfl
    split <;> rfl

lemma mulSign_zero : mulSign a1 a2 .zero
    = { BigNum.zero with sign := if a1.sign = minus ↔ a2.sign = minus then 0 else minus } := by
  rw [mulSign]
  by_cases h1 : a1.sign = minus <;> by_cases h2 : a2.sign = minus <;> simp [h1, h2, BigNum.zero]

lemma mul_digits (h1 : Signed a1 z1) (h2 : Signed a2 z2) (hle : a1.length + a2.length ≤ 98) :
    ∃ t, mul a1 a2 .zero = .ok t ∧ Digits { t with sign := 0 } (z1 * z2).natAbs
      ∧ (t.sign = minus ↔ (z1 < 0 ↔ 0 ≤ z2))
      ∧ (t.length = a1.length + a2.length ∧ t.digit (t.length - 1) ≠ 0
        ∨ t.length = a1.length + a2.length - 1) := by
  obtain ⟨t, ht, hdigits, -, -, hlen⟩ := mul_eq (c := .zero) h1.size.toDigits h2.size.toDigits hle
    (fun _ => rfl) nofun
  rw [mul_rows, mulSign_eq h1.size.sign h2.size.sign, mulRows_unsigned] at ht
  refine ⟨{ t with sign := if a1.sign = minus ↔ a2.sign = minus then 0 else minus }, ?_, ?_, ?_, hlen⟩
  · rw [mul_rows, mulSign_zero, mulRows_sign, ht]
    rfl
  · rw [Int.natAbs_mul]
    exact ⟨hdigits.pos, hdigits.length_le, hdigits.digit, hdigits.value, nofun⟩
  · have hsigns : (z1 < 0 ↔ 0 ≤ z2) ↔ ¬ (a1.sign = minus ↔ a2.sign = minus) := by
      rw [h1.sign, h2.sign, ← not_lt]
      tauto
    rw [hsigns]
    split
    · next hsame => exact iff_of_false nofun (not_not_intro hsame)
    · next hdiffer => exact iff_of_true rfl hdiffer

theorem mul_signed (h1 : Signed a1 z1) (h2 : Signed a2 z2) (hz1 : z1 ≠ 0) (hz2 : z2 ≠ 0)
    (hle : a1.length + a2.length ≤ 98) :
    ∃ t, mul a1 a2 .zero = .ok t ∧ Signed t (z1 * z2) := by
  obtain ⟨t, ht, hdigits, hsign, hlen⟩ := mul_digits h1 h2 hle
  refine ⟨t, ht, ?_, ?_⟩
  · rcases hlen with ⟨-, htop⟩ | hlen
    · exact ⟨hdigits, .inr htop⟩
    · refine hdigits.denotes ?_
      have hpos1 := h1.size.pos
      have hpos2 := h2.size.pos
      have hsum : t.length - 1 = a1.length - 1 + (a2.length - 1) := by
        simp only at hpos1 hpos2
        omega
      calc 10 ^ (t.length - 1)
        _ = 10 ^ (a1.length - 1) * 10 ^ (a2.length - 1) := by rw [hsum, Nat.pow_add]
        _ ≤ z1.natAbs * z2.natAbs :=
          Nat.mul_le_mul (h1.size.pow_le_of_ne_zero (Int.natAbs_ne_zero.mpr hz1))
            (h2.size.pow_le_of_ne_zero (Int.natAbs_ne_zero.mpr hz2))
        _ = (z1 * z2).natAbs := (Int.natAbs_mul z1 z2).symm
  · rw [hsign, mul_neg_iff]
    omega

lemma mul_zero_iff (h1 : Signed a1 z1) (h2 : Signed a2 z2) (hle : a1.length + a2.length ≤ 98)
    (hz : z1 * z2 = 0) : (∃ t, mul a1 a2 .zero = .ok t ∧ Signed t (z1 * z2))
      ↔ ¬ (z1 < 0 ↔ 0 ≤ z2) ∧ a1.length = 1 ∧ a2.length = 1 := by
  have hpos1 : 0 < a1.length := h1.size.pos
  have hpos2 : 0 < a2.length := h2.size.pos
  obtain ⟨t, ht, hdigits, hsign, hlen⟩ := mul_digits h1 h2 hle
  rw [hz] at hdigits ⊢
  constructor
  · rintro ⟨t', ht', hsigned⟩
    obtain rfl := Except.ok.inj (ht.symm.trans ht')
    have hone : t.length = 1 := hsigned.size.length_eq_one
    exact ⟨hsign.not.mp (hsigned.sign.not.mpr (lt_irrefl 0)), by omega, by omega⟩
  · rintro ⟨hnonneg, hone1, hone2⟩
    refine ⟨t, ht, ⟨hdigits, ?_⟩, iff_of_false (hsign.not.mpr hnonneg) (lt_irrefl 0)⟩
    rcases hlen with ⟨-, htop⟩ | hlen
    · exact .inr htop
    · exact .inl (by simp only; omega)

lemma Denotes.length_eq_one_iff (h : Denotes a1 v1) : a1.length = 1 ↔ v1 < 10 := by
  constructor
  · intro hone
    simpa only [hone, pow_one] using h.lt
  · intro hlt
    by_contra hne
    have hpos := h.pos
    have hle := h.pow_le (by omega)
    have hten : 10 ^ 1 ≤ 10 ^ (a1.length - 1) := Nat.pow_le_pow_right (by decide) (by omega)
    omega

/-- With a factor that is zero the other one has to be a digit. -/
theorem mul_exact_iff (h1 : Signed a1 z1) (h2 : Signed a2 z2) (hle : a1.length + a2.length ≤ 98) :
    (∃ t, mul a1 a2 .zero = .ok t ∧ Signed t (z1 * z2))
      ↔ (z1 = 0 → 0 ≤ z2 ∧ z2 < 10) ∧ (z2 = 0 → 0 ≤ z1 ∧ z1 < 10) := by
  have hone1 := h1.size.length_eq_one_iff
  have hone2 := h2.size.length_eq_one_iff
  by_cases hz : z1 * z2 = 0
  · rw [mul_zero_iff h1 h2 hle hz, hone1, hone2]
    rcases mul_eq_zero.mp hz with rfl | rfl <;> omega
  · obtain ⟨hz1, hz2⟩ := mul_ne_zero_iff.mp hz
    exact iff_of_true (mul_signed h1 h2 hz1 hz2 hle) ⟨fun h => absurd h hz1, fun h => absurd h hz2⟩

theorem mul_exact_iff_1003 :
    ∃ t, mul (written [3, 0, 0, 1] minus) (written [7, 8, 5] 0) .zero = .ok t ∧ Signed t (-1003 * 587) :=
  (mul_exact_iff signed_1003 denotes_587.signed (by decide)).mpr
    ⟨fun h => absurd h (by decide), fun h => absurd h (by decide)⟩

-- Of the three zeros one is taken away.
theorem mul_leading_zero : ∃ a1 a2 : BigNum, Signed a1 0 ∧ Signed a2 12 ∧ a1.length + a2.length ≤ 98
    ∧ ¬ ∃ t, mul a1 a2 .zero = .ok t ∧ Signed t (0 * 12) := by
  refine ⟨⟨fun i => [0].getD i 0, 0, 1⟩, ⟨fun i => [2, 1].getD i 0, 0, 2⟩, ?_, ?_, by decide, ?_⟩
  · exact Denotes.signed (v := 0) ⟨⟨by decide, by decide, by decide, rfl, by decide⟩, .inl rfl⟩
  · exact Denotes.signed (v := 12) ⟨⟨by decide, by decide, by decide, rfl, by decide⟩, .inr (by decide)⟩
  · rintro ⟨t, ht, hsigned⟩
    have hlen : (mul ⟨fun i => [0].getD i 0, 0, 1⟩ ⟨fun i => [2, 1].getD i 0, 0, 2⟩ .zero).map
        BigNum.length = .ok 2 := rfl
    rw [ht] at hlen
    exact absurd (hsigned.size.length_eq_one.symm.trans (Except.ok.inj hlen)) (by decide)

end SignedProduct

section Remainder

variable {a b c d q t w : BigNum} {A B V v : ℕ}

def BigNum.number (a : BigNum) : ℤ :=
  if a.sign = minus then -(value 10 a.digit a.length : ℤ) else value 10 a.digit a.length

lemma Denotes.number (h : Denotes a v) : a.number = v := by
  rw [BigNum.number, if_neg h.sign, h.value]

lemma cmpDigits_sign (s n : ℕ) : cmpDigits { a with sign := s } b n = cmpDigits a b n := by
  induction n with
  | zero => rfl
  | succ n ih => simp only [cmpDigits, BigNum.read, ih]

lemma cmp_sign (s : ℕ) : cmp { a with sign := s } b = cmp a b := by
  simp only [cmp, cmpDigits_sign]

lemma divt_number (ha : Denotes a A) (hb : Denotes b B) (hB : 0 < B) (hlen : a.length ≤ 97) :
    ∃ p r, (divt a b q w).Returns (p, r) ∧ r.number = (A % B : ℕ) := by
  by_cases heq : A = B
  · subst heq
    refine ⟨{ q with digit := Function.update q.digit 0 1, length := 1 },
      { w with digit := Function.update w.digit 0 0, length := 1 }, ?_, ?_⟩
    · refine returns_bind.mpr ⟨0, yields_ofExcept.mpr ?_, ?_⟩
      · rw [cmp_eq ha hb, order_eq_zero.mpr rfl]
      · rw [if_neg (by decide), if_pos rfl, write_eq (by decide), write_eq (by decide)]
        exact returns_bind.mpr ⟨_, yields_ofExcept.mpr rfl,
          returns_bind.mpr ⟨_, yields_ofExcept.mpr rfl, yields_pure.mpr rfl⟩⟩
    · simp [BigNum.number, value]
  · have hsame : divt a b q w = divt a b q .zero := by
      have hne : order A B ≠ 0 := order_eq_zero.not.mpr heq
      simp only [divt, cmp_eq ha hb]
      change (pure (order A B) >>= _) = (pure (order A B) >>= _)
      rw [pure_bind, pure_bind]
      by_cases hlt : order A B = -1
      · rw [if_pos hlt, if_pos hlt]
      · rw [if_neg hlt, if_neg hlt, if_neg hne, if_neg hne]
    obtain ⟨p, r, hr, hdiv⟩ := divt_returns (c := q) (w := .zero) ha.toDigits hb hB hlen (.inl ha) (by decide)
    rw [hsame]
    exact ⟨p, r, hr, (hdiv.normal ha).number⟩

lemma subDigits_ge (ha : Denotes a A) (hb : Denotes b B) (hle : B ≤ A) :
    ∃ t, subDigits a b c = .ok t ∧ Denotes { t with sign := 0 } (A - B) ∧ t.sign = c.sign := by
  rcases hle.eq_or_lt with rfl | hlt
  · refine ⟨{ c with digit := Function.update c.digit 0 0, length := 1 }, ?_, ?_, rfl⟩
    · rw [subDigits, cmp_eq ha hb, ok_bind, order_eq_zero.mpr rfl, if_neg (by decide),
        if_neg (by decide), write_eq (by decide), ok_bind]
    · rw [Nat.sub_self]
      exact denotes_digit (c := { c with sign := 0 }) (by decide) zero_ne_minus
  · obtain ⟨u, hu, hdigit, hvalue, -, hsign⟩ := borrow_ok (c := c) ha.toDigits hb.toDigits
      (length_le_of_lt hb ha.toDigits hlt) hle
    obtain ⟨t, ht, hden⟩ := trimmed_same hdigit hvalue (Nat.sub_pos_of_lt hlt) ha.length_le
    refine ⟨t, ?_, hden, (trimmed_keeps_sign ht).trans hsign⟩
    have hone : order A B = 1 := if_pos hlt
    rw [subDigits, cmp_eq ha hb, ok_bind, hone, if_pos rfl, hu, ok_bind, ht]

lemma step_ge (ha : Denotes a A) (hb : Denotes b B) (hle : B ≤ A) (o : ℤ) :
    ∃ t, Subtraction.step b ⟨a, c, o⟩ = .ok ⟨t, t, order (A - B) B⟩
      ∧ Denotes { t with sign := 0 } (A - B) ∧ t.sign = c.sign := by
  obtain ⟨t, ht, hden, hsign⟩ := subDigits_ge (c := c) ha hb hle
  refine ⟨t, ?_, hden, hsign⟩
  have hsub : sub a b c = .ok t := by
    rw [sub, if_neg (fun h => ha.sign h.1), if_neg hb.sign, if_neg ha.sign, ht]
  rw [Subtraction.step, hsub, ok_bind, ← cmp_sign 0, cmp_eq hden hb, ok_bind]

lemma Denotes.of_unsigned (h : Denotes { a with sign := 0 } v) (hsign : a.sign ≠ minus) : Denotes a v :=
  ⟨⟨h.pos, h.length_le, h.digit, h.value, hsign⟩, h.top⟩

theorem mod_returns (ha : Denotes a A) (hb : Denotes b B) (hB : 0 < B) (hle : B ≤ A)
    (hc : c.sign ≠ minus) : ∃ t, (mod a b c).Returns t ∧ Denotes t (A % B) := by
  obtain ⟨s, hs, ⟨V, hden, ho, hmod, hsign, hlast⟩, hend⟩ := @loop_returns _ _
    (fun s : Subtraction => s.order != -1) (fun s => ofExcept (s.step b))
    (fun s => ∃ V, Denotes s.d V ∧ s.order = order V B ∧ V % B = A % B ∧ s.c.sign ≠ minus
      ∧ (V < B → s.c = s.d))
    (fun s => value 10 s.d.digit s.d.length) (fun s hinv hcond => by
      obtain ⟨V, hden, ho, hmod, hsign, -⟩ := hinv
      have hVB : B ≤ V := by
        rw [bne_iff_ne, Ne, ho, order_eq_neg_one] at hcond
        exact not_lt.mp hcond
      obtain ⟨t, ht, hdt, hst⟩ := step_ge (c := s.c) hden hb hVB s.order
      have hdt := hdt.of_unsigned (hst ▸ hsign)
      refine ⟨_, yields_ofExcept.mpr ht.symm, ⟨V - B, hdt, rfl, ?_, hst ▸ hsign, fun _ => rfl⟩, ?_⟩
      · rw [← hmod, ← Nat.mod_eq_sub_mod hVB]
      · simp only [hdt.value, hden.value]
        omega)
    ⟨a, c, order A B⟩ ⟨A, ha, rfl, rfl, hc, fun hlt => absurd hlt hle.not_gt⟩
  have hlt : V < B := by
    rwa [bne_eq_false_iff_eq, ho, order_eq_neg_one] at hend
  refine ⟨s.c, returns_bind.mpr ⟨order A B, yields_ofExcept.mpr (cmp_eq ha hb).symm,
    returns_bind.mpr ⟨s, hs, yields_pure.mpr rfl⟩⟩, ?_⟩
  rw [hlast hlt, ← hmod, Nat.mod_eq_of_lt hlt]
  exact hden

structure Negative (B V : ℕ) (s : Subtraction) : Prop where
  size : Denotes { s.d with sign := 0 } V
  sign : s.d.sign = minus
  last : s.c = s.d
  order : s.order = order V B

lemma Negative.number {s : Subtraction} (h : Negative B V s) : s.c.number = -V := by
  have hvalue := h.size.value
  rw [BigNum.number, h.last, if_pos h.sign, hvalue]

lemma negative_step {s u : Subtraction} (hb : Denotes b B) (h : Negative B V s)
    (hstep : s.step b = .ok u) : Negative B (V + B) u := by
  obtain ⟨t, ht, hu⟩ := bind_eq_ok.mp hstep
  rw [sub, if_neg (fun h => hb.sign h.2), if_neg hb.sign, if_pos h.sign, add, if_pos ⟨h.sign, rfl⟩,
    addDigits_sign s.d.sign minus, ← addDigits_sign 0 0] at ht
  obtain ⟨hden, hsign⟩ := addDigits_denotes h.size hb.unsigned ht
  rw [← cmp_sign 0, cmp_eq hden hb, ok_bind] at hu
  cases hu
  exact ⟨hden, hsign, rfl, rfl⟩

lemma mod_minus (ha : Denotes a A) (hb : Denotes b B) (hle : B ≤ A) (hc : c.sign = minus) :
    ∃ s, Negative B (A - B) s ∧ ∀ t, (mod a b c).Returns t ↔
      ∃ u, (loop (fun s : Subtraction => s.order != -1) (fun s => ofExcept (s.step b)) s).Returns u
        ∧ t = u.c := by
  obtain ⟨t, ht, hden, hsign⟩ := step_ge (c := c) ha hb hle (order A B)
  refine ⟨⟨t, t, order (A - B) B⟩, ⟨hden, hsign.trans hc, rfl, rfl⟩, fun r => ?_⟩
  have hcond : (order A B != -1) = true := by
    rw [bne_iff_ne, Ne, order_eq_neg_one]
    exact not_lt.mpr hle
  have hmod : ∀ r, (mod a b c).Returns r ↔ ∃ u, (loop (fun s : Subtraction => s.order != -1)
      (fun s => ofExcept (s.step b)) ⟨a, c, order A B⟩).Returns u ∧ r = u.c := fun r => by
    rw [mod, cmp_eq ha hb, returns_bind]
    simp only [Returns, yields_ofExcept, Except.ok.injEq, exists_eq_left, yields_bind, yields_pure]
    simp
  rw [hmod]
  refine exists_congr fun u => and_congr_left fun _ => ?_
  refine Iff.trans (returns_loop_more hcond) ?_
  simp only [Returns, yields_ofExcept, ht, Except.ok.injEq, exists_eq_left]

lemma mod_minus_eq (ha : Denotes a A) (hb : Denotes b B) (hB : 0 < B) (heq : A = B)
    (hc : c.sign = minus) : ∃ t, (mod a b c).Returns t ∧ t.number = 0 := by
  obtain ⟨s, hs, hreturns⟩ := mod_minus ha hb heq.ge hc
  have hend : (s.order != -1) = false := by
    rw [bne_eq_false_iff_eq, hs.order, order_eq_neg_one]
    omega
  refine ⟨s.c, (hreturns s.c).mpr ⟨s, loop_end hend, rfl⟩, ?_⟩
  rw [hs.number, heq, Nat.sub_self]
  rfl

lemma mod_minus_lt (ha : Denotes a A) (hb : Denotes b B) (hlt : B < A) (hc : c.sign = minus)
    (ht : (mod a b c).Returns t) : t.number < 0 := by
  obtain ⟨s, hs, hreturns⟩ := mod_minus ha hb hlt.le hc
  obtain ⟨u, hu, rfl⟩ := (hreturns t).mp ht
  have hloop := loop_invariant (fun s => ∃ V, 0 < V ∧ Negative B V s)
    (fun s t ⟨V, hpos, hneg⟩ _ hstep => ⟨V + B, Nat.add_pos_left hpos B,
      negative_step hb hneg (yields_ofExcept.mp hstep).symm⟩) ⟨A - B, Nat.sub_pos_of_lt hlt, hs⟩ hu
  obtain ⟨V, hpos, hneg⟩ := hloop
  rw [hneg.number]
  omega

theorem mod_less (ha : Denotes a A) (hb : Denotes b B) (hlt : A < B) : (mod a b c).Returns c := by
  have hend : (order A B != -1) = false := by rw [order_eq_neg_one.mpr hlt, bne_self_eq_false]
  exact returns_bind.mpr ⟨order A B, yields_ofExcept.mpr (cmp_eq ha hb).symm,
    returns_bind.mpr ⟨⟨a, c, order A B⟩, loop_end hend, yields_pure.mpr rfl⟩⟩

end Remainder

end SimpleCode.Crypto.RSA
