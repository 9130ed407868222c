import SimpleCode.Crypto.RSANumber

set_option autoImplicit false

namespace SimpleCode.Crypto.RSA

open Foundations Foundations.Comp Positional

section Numbers

variable {a b c : BigNum} {v w i x : ℕ}

lemma read_eq (h : i < 98) : a.read i = .ok (a.digit i) := if_pos h

lemma write_eq (h : i < 98) :
    a.write i x = .ok { a with digit := Function.update a.digit i x } := if_pos h

structure Digits (a : BigNum) (v : ℕ) : Prop where
  pos : 0 < a.length
  length_le : a.length ≤ 98
  digit : ∀ i < a.length, a.digit i < 10
  value : value 10 a.digit a.length = v
  sign : a.sign ≠ minus

structure Denotes (a : BigNum) (v : ℕ) : Prop extends Digits a v where
  top : a.length = 1 ∨ a.digit (a.length - 1) ≠ 0

def Padded (a : BigNum) : Prop := ∀ k, a.length ≤ k → a.digit k = 0

lemma Digits.lt (h : Digits a v) : v < 10 ^ a.length := h.value ▸ value_lt h.digit

lemma Denotes.pow_le (h : Denotes a v) (hlen : 1 < a.length) : 10 ^ (a.length - 1) ≤ v := by
  have hle := pow_le_value (b := 10) (h.top.resolve_left hlen.ne')
  rwa [Nat.sub_add_cancel h.pos, h.value] at hle

lemma Denotes.pow_le_of_ne_zero (h : Denotes a v) (hv : v ≠ 0) : 10 ^ (a.length - 1) ≤ v := by
  rcases Nat.lt_or_ge 1 a.length with hlen | hlen
  · exact h.pow_le hlen
  · rw [Nat.sub_eq_zero_of_le hlen]
    exact Nat.pos_of_ne_zero hv

lemma Denotes.length_eq_one (h : Denotes a 0) : a.length = 1 := by
  by_contra hlen
  have hpos := h.pos
  exact (h.pow_le (by omega)).not_gt (Nat.pow_pos (by decide))

lemma Digits.denotes (h : Digits a v) (hle : 10 ^ (a.length - 1) ≤ v) : Denotes a v := by
  refine ⟨h, .inr (top_ne_zero (b := 10) (fun i hi => h.digit i (by omega)) ?_)⟩
  rwa [Nat.sub_add_cancel h.pos, h.value]

lemma lt_of_length_lt (ha : Digits a v) (hb : Denotes b w) (h : a.length < b.length) : v < w := by
  have hpos := ha.pos
  calc v
    _ < 10 ^ a.length := ha.lt
    _ ≤ 10 ^ (b.length - 1) := Nat.pow_le_pow_right (by decide) (by omega)
    _ ≤ w := hb.pow_le (by omega)

lemma length_le_of_lt (ha : Denotes a v) (hb : Digits b w) (h : v < w) : a.length ≤ b.length :=
  not_lt.mp fun hlt => (h.trans (lt_of_length_lt hb ha hlt)).false

def order (v w : ℕ) : ℤ := if w < v then 1 else if v < w then -1 else 0

lemma order_eq_neg_one : order v w = -1 ↔ v < w := by
  rw [order]
  split
  · simp
    omega
  · simp

lemma order_eq_zero : order v w = 0 ↔ v = w := by
  rw [order]
  split
  · simp
    omega
  · simp
    omega

lemma order_add (v w x : ℕ) : order (v + x) (w + x) = order v w := by
  simp only [order, Nat.add_lt_add_iff_right]

lemma cmpDigits_eq {n : ℕ} (hn : n ≤ 98) (ha : ∀ i < n, a.digit i < 10)
    (hb : ∀ i < n, b.digit i < 10) :
    cmpDigits a b n = .ok (order (value 10 a.digit n) (value 10 b.digit n)) := by
  induction n with
  | zero => rfl
  | succ n ih =>
    have ha' : ∀ i < n, a.digit i < 10 := fun i hi => ha i (Nat.lt_succ_of_lt hi)
    have hb' : ∀ i < n, b.digit i < 10 := fun i hi => hb i (Nat.lt_succ_of_lt hi)
    rw [cmpDigits, read_eq (Nat.lt_of_succ_le hn), read_eq (Nat.lt_of_succ_le hn), ok_bind, ok_bind]
    rcases Nat.lt_trichotomy (a.digit n) (b.digit n) with hlt | heq | hgt
    · have hval := value_lt_value ha' hlt
      rw [if_neg hlt.not_gt, if_pos hlt, order, if_neg hval.not_gt, if_pos hval]
    · rw [if_neg (by omega), if_neg (by omega), ih (Nat.le_of_succ_le hn) ha' hb', value, value,
        heq, order_add]
    · have hval := value_lt_value hb' hgt
      rw [if_pos hgt, order, if_pos hval]

theorem cmp_eq (ha : Denotes a v) (hb : Denotes b w) : cmp a b = .ok (order v w) := by
  rcases Nat.lt_trichotomy a.length b.length with hlt | heq | hgt
  · have hval := lt_of_length_lt ha.toDigits hb hlt
    rw [cmp, if_neg hlt.not_gt, if_pos hlt, order, if_neg hval.not_gt, if_pos hval]
  · rw [cmp, if_neg (by omega), if_neg (by omega),
      cmpDigits_eq ha.length_le ha.digit (heq ▸ hb.digit), ha.value, heq, hb.value]
  · have hval := lt_of_length_lt hb.toDigits ha hgt
    rw [cmp, if_pos hgt, order, if_pos hval]

lemma cmp_zero (ha : Digits a 0) (hb : Denotes b w) (hw : 0 < w) (hle : a.length ≤ b.length) :
    cmp a b = .ok (-1) := by
  rcases hle.lt_or_eq with hlt | heq
  · rw [cmp, if_neg hlt.not_gt, if_pos hlt]
  · rw [cmp, if_neg (by omega), if_neg (by omega),
      cmpDigits_eq ha.length_le ha.digit (heq ▸ hb.digit), ha.value, heq, hb.value, order,
      if_neg (Nat.not_lt_zero w), if_pos hw]

end Numbers

section Product

variable {a1 a2 c : BigNum} {v1 v2 i j : ℕ}

lemma mulDigit_eq (hi : i < 98) (hj : j < 98) (hw : i + j + 1 < 98) :
    mulDigit a1 a2 i j c
      = .ok { c with digit := addAt 10 c.digit (i + j) (a1.digit i * a2.digit j) } := by
  have hw' : i + j < 98 := by omega
  have hne : i + j ≠ i + j + 1 := by omega
  simp only [mulDigit, read_eq hi, read_eq hj, read_eq hw, read_eq hw', write_eq hw, write_eq hw',
    ok_bind, Function.update_self, Function.update_of_ne hne, Function.update_of_ne hne.symm]
  rw [addAt, Function.update_comm hne, Function.update_idem]

structure InRow (a1 a2 : BigNum) (v2 : ℕ) (sign : ℕ) (i j : ℕ) (c : BigNum) : Prop where
  low : ∀ k, k ≠ i + j → c.digit k < 10
  high : ∀ k, i + a2.length ≤ k → k ≠ i + j → c.digit k = 0
  value : value 10 c.digit (a1.length + a2.length)
    = value 10 a1.digit i * v2 + a1.digit i * 10 ^ i * value 10 a2.digit j
  sign : c.sign = sign

lemma inRow_mulDigit {sign : ℕ} (hle : a1.length + a2.length ≤ 98) (hi : i < a1.length)
    (hj : j < a2.length) (h : InRow a1 a2 v2 sign i j c) :
    ∃ t, mulDigit a1 a2 i j c = .ok t ∧ InRow a1 a2 v2 sign i (j + 1) t := by
  refine ⟨_, mulDigit_eq (by omega) (by omega) (by omega), fun k hk => ?_, fun k hk hne => ?_, ?_,
    h.sign⟩
  · by_cases hkw : k = i + j
    · rw [hkw]
      exact (addAt_self _).trans_lt (Nat.mod_lt _ (by decide))
    · exact (addAt_of_ne hkw hk).trans_lt (h.low k hkw)
  · exact (addAt_of_ne (w := i + j) (by omega) hne).trans (h.high k hk (by omega))
  · rw [value_addAt (by omega), h.value, value, pow_add]
    ring

structure AtRow (a1 a2 : BigNum) (v2 : ℕ) (sign : ℕ) (i : ℕ) (c : BigNum) : Prop where
  low : ∀ k, c.digit k < 10
  high : ∀ k, i + a2.length ≤ k → c.digit k = 0
  value : value 10 c.digit (a1.length + a2.length) = value 10 a1.digit i * v2
  sign : c.sign = sign

lemma atRow_mulRow {sign : ℕ} (hle : a1.length + a2.length ≤ 98) (h2 : Digits a2 v2)
    (hd1 : ∀ i < a1.length, a1.digit i < 10) (hi : i < a1.length)
    (h : AtRow a1 a2 v2 sign i c) :
    ∃ t, counted 0 (mulDigit a1 a2 i) a2.length c = .ok t ∧ AtRow a1 a2 v2 sign (i + 1) t := by
  have hstart : InRow a1 a2 v2 sign i 0 c :=
    ⟨fun k _ => h.low k, fun k hk _ => h.high k hk, h.value, h.sign⟩
  obtain ⟨t, ht, hrow⟩ := counted_ok (InRow a1 a2 v2 sign i) (fun k hk s hs => by
    rw [Nat.zero_add]
    exact inRow_mulDigit hle hi hk hs) hstart
  have hpos := h2.pos
  have hvalue : value 10 t.digit (a1.length + a2.length) = value 10 a1.digit (i + 1) * v2 := by
    rw [hrow.value, h2.value, value]
    ring
  -- the value of the rows leaves no carry to reduce in the highest place
  have hlast : t.digit (i + a2.length) < 10 := by
    refine digit_lt (n := a1.length + a2.length) (by omega) ?_
    calc value 10 t.digit (a1.length + a2.length)
      _ = value 10 a1.digit (i + 1) * v2 := hvalue
      _ < 10 ^ (i + 1) * 10 ^ a2.length :=
        Nat.mul_lt_mul'' (value_lt fun k hk => hd1 k (by omega)) h2.lt
      _ = 10 ^ (i + a2.length + 1) := by ring
  refine ⟨t, ht, fun k => ?_, fun k hk => hrow.high k (by omega) (by omega), hvalue, hrow.sign⟩
  by_cases hkw : k = i + a2.length
  · rwa [hkw]
  · exact hrow.low k hkw

lemma mulSign_eq (h1 : a1.sign ≠ minus) (h2 : a2.sign ≠ minus) : mulSign a1 a2 c = c := by
  rw [mulSign, if_neg (fun h => h1 h.1), if_neg h1, if_neg h2]

theorem mul_eq (h1 : Digits a1 v1) (h2 : Digits a2 v2) (hle : a1.length + a2.length ≤ 98)
    (hc : ∀ k, c.digit k = 0) (hsign : c.sign ≠ minus) :
    ∃ t, mul a1 a2 c = .ok t ∧ Digits t (v1 * v2) ∧ Padded t ∧ t.sign = c.sign
      ∧ (t.length = a1.length + a2.length ∧ t.digit (t.length - 1) ≠ 0
        ∨ t.length = a1.length + a2.length - 1) := by
  have hpos1 := h1.pos
  have hpos2 := h2.pos
  have hstart : AtRow a1 a2 v2 c.sign 0 c := by
    refine ⟨fun k => by rw [hc]; decide, fun k _ => hc k, ?_, rfl⟩
    rw [value_of_zero (fun k _ _ => hc k) (Nat.zero_le _), value, value, Nat.zero_mul]
  obtain ⟨t, ht, hrow⟩ := counted_ok (AtRow a1 a2 v2 c.sign) (fun i hi s hs => by
    rw [Nat.zero_add]
    exact atRow_mulRow hle h2 h1.digit hi hs) hstart
  have hvalue := hrow.value
  rw [h1.value] at hvalue
  have hmul : mul a1 a2 c = .ok { t with
      length := if t.digit (a1.length + a2.length - 1) = 0 then a1.length + a2.length - 1
        else a1.length + a2.length } := by
    rw [mul, mulSign_eq h1.sign h2.sign]
    simp only [ht, ok_bind]
    rw [if_neg (by omega), read_eq (by omega), ok_bind]
  have hts : t.sign ≠ minus := hrow.sign ▸ hsign
  by_cases htop : t.digit (a1.length + a2.length - 1) = 0
  · rw [if_pos htop] at hmul
    refine ⟨_, hmul, ⟨?_, ?_, fun i _ => hrow.low i, ?_, hts⟩, fun k hk => ?_, hrow.sign, .inr rfl⟩
    · simp only
      omega
    · simp only
      omega
    · rw [← hvalue]
      refine (value_of_zero (fun i hi hlt => ?_) (Nat.sub_le _ _)).symm
      obtain rfl : i = a1.length + a2.length - 1 := by omega
      exact htop
    · simp only at hk ⊢
      by_cases hk' : k = a1.length + a2.length - 1
      · rw [hk', htop]
      · exact hrow.high k (by omega)
  · rw [if_neg htop] at hmul
    exact ⟨_, hmul, ⟨by simp only; omega, hle, fun i _ => hrow.low i, hvalue, hts⟩,
      fun k hk => hrow.high k hk, hrow.sign, .inl ⟨rfl, htop⟩⟩

theorem mul_denotes (h1 : Denotes a1 v1) (h2 : Denotes a2 v2)
    (hle : a1.length + a2.length ≤ 98) (hnorm : v1 ≠ 0 ∧ v2 ≠ 0 ∨ a1.length = 1 ∧ a2.length = 1)
    (hc : ∀ k, c.digit k = 0) (hsign : c.sign ≠ minus) :
    ∃ t, mul a1 a2 c = .ok t ∧ Denotes t (v1 * v2) ∧ Padded t ∧ t.sign = c.sign
      ∧ t.length ≤ a1.length + a2.length ∧ a1.length + a2.length ≤ t.length + 1 := by
  obtain ⟨t, ht, hdigits, hpadded, hs, hlen⟩ := mul_eq h1.toDigits h2.toDigits hle hc hsign
  have hpos1 := h1.pos
  have hpos2 := h2.pos
  refine ⟨t, ht, ?_, hpadded, hs, by omega, by omega⟩
  rcases hlen with ⟨hlen, htop⟩ | hlen
  · exact ⟨hdigits, .inr htop⟩
  · rcases hnorm with ⟨hv1, hv2⟩ | ⟨hl1, hl2⟩
    · refine hdigits.denotes ?_
      calc 10 ^ (t.length - 1)
        _ = 10 ^ (a1.length - 1) * 10 ^ (a2.length - 1) := by
          rw [← Nat.pow_add]
          congr 1
          omega
        _ ≤ v1 * v2 :=
          Nat.mul_le_mul (h1.pow_le_of_ne_zero hv1) (h2.pow_le_of_ne_zero hv2)
    · exact ⟨hdigits, .inl (by omega)⟩

end Product

section Difference

variable {a1 a2 c : BigNum} {v1 v2 i x y : ℕ}

lemma subDigit_ok {s : Chain} (hx : x < 10) (hy : y < 10) (hk : s.2 ≤ 1) (hi : i < 98) :
    ∃ z k, subDigit x y i s = .ok ({ s.1 with digit := Function.update s.1.digit i z }, k)
      ∧ z < 10 ∧ k ≤ 1 ∧ x + 10 * k = z + y + s.2 := by
  by_cases hlt : x < s.2 + y
  · refine ⟨(x + 10 - y - s.2) % 10, 1, ?_, Nat.mod_lt _ (by decide), le_rfl, ?_⟩
    · rw [subDigit, if_pos hlt, write_eq hi]
      rfl
    · rw [Nat.mod_eq_of_lt (by omega)]
      omega
  · refine ⟨(x - y - s.2) % 10, 0, ?_, Nat.mod_lt _ (by decide), Nat.zero_le 1, ?_⟩
    · rw [subDigit, if_neg hlt, write_eq hi]
      rfl
    · rw [Nat.mod_eq_of_lt (by omega)]
      omega

structure Borrowed (a1 c0 : BigNum) (i u : ℕ) (s : Chain) : Prop where
  value : value 10 a1.digit i + s.2 * 10 ^ i = value 10 s.1.digit i + u
  borrow : s.2 ≤ 1
  digit : ∀ k < i, s.1.digit k < 10
  rest : ∀ k, i ≤ k → s.1.digit k = c0.digit k
  sign : s.1.sign = c0.sign

lemma borrowed_subDigit {u : ℕ} {s : Chain} (hi : i < 98) (hx : a1.digit i < 10) (hy : y < 10)
    (h : Borrowed a1 c i u s) : ∃ t, subDigit (a1.digit i) y i s = .ok t
      ∧ Borrowed a1 c (i + 1) (u + y * 10 ^ i) t := by
  obtain ⟨z, k, ht, hz, hk, hxz⟩ := subDigit_ok hx hy h.borrow hi
  refine ⟨_, ht, ?_, hk, fun j hj => ?_, fun j hj => ?_, h.sign⟩
  · have hvalue := h.value
    have hpow := congrArg (· * 10 ^ i) hxz
    simp only [value, Function.update_self, value_update_of_le le_rfl, pow_succ']
    simp only [Nat.add_mul] at hpow
    linarith
  · simp only
    by_cases hji : j = i
    · rw [hji, Function.update_self]
      exact hz
    · rw [Function.update_of_ne hji]
      exact h.digit j (by omega)
  · simp only
    rw [Function.update_of_ne (by omega)]
    exact h.rest j (by omega)

theorem borrow_ok (h1 : Digits a1 v1) (h2 : Digits a2 v2) (hlen : a2.length ≤ a1.length)
    (hle : v2 ≤ v1) : ∃ t, borrow a1 a2 c = .ok t ∧ (∀ i < a1.length, t.digit i < 10)
      ∧ value 10 t.digit a1.length = v1 - v2 ∧ (∀ i, a1.length ≤ i → t.digit i = c.digit i)
      ∧ t.sign = c.sign := by
  have hle1 := h1.length_le
  have hfirst : ∃ s, counted 0 (subBoth a1 a2) a2.length (c, 0) = .ok s
      ∧ Borrowed a1 c a2.length (value 10 a2.digit a2.length) s := by
    refine counted_ok (fun k => Borrowed a1 c k (value 10 a2.digit k)) (fun k hk s hs => ?_)
      ⟨by simp [value], Nat.zero_le 1, fun k hk => absurd hk (Nat.not_lt_zero k), fun _ _ => rfl,
        rfl⟩
    rw [Nat.zero_add, subBoth, read_eq (by omega), read_eq (by omega)]
    exact borrowed_subDigit (by omega) (h1.digit k (by omega)) (h2.digit k hk) hs
  obtain ⟨s, hs, hboth⟩ := hfirst
  rw [h2.value] at hboth
  have hsecond : ∃ t, counted a2.length (subRest a1) (a1.length - a2.length) s = .ok t
      ∧ Borrowed a1 c (a2.length + (a1.length - a2.length)) v2 t := by
    refine counted_ok (fun k => Borrowed a1 c (a2.length + k) v2) (fun k hk s hs => ?_) hboth
    rw [subRest, read_eq (by omega)]
    have hstep := borrowed_subDigit (by omega) (h1.digit (a2.length + k) (by omega))
      (by decide : 0 < 10) hs
    rwa [Nat.zero_mul, Nat.add_zero] at hstep
  obtain ⟨t, ht, hrest⟩ := hsecond
  rw [Nat.add_sub_of_le hlen] at hrest
  have hvalue := hrest.value
  rw [h1.value] at hvalue
  -- the larger number has nothing left to borrow from
  have hzero : t.2 = 0 := by
    by_contra hne
    have hone : t.2 = 1 := by
      have := hrest.borrow
      omega
    have hlt := value_lt hrest.digit
    rw [hone, Nat.one_mul] at hvalue
    omega
  rw [hzero, Nat.zero_mul, Nat.add_zero] at hvalue
  refine ⟨t.1, ?_, hrest.digit, by omega, hrest.rest, hrest.sign⟩
  rw [borrow, hs, ok_bind, ht]
  rfl

lemma trim_ok {k : ℕ} (hk : k ≤ 98) (hpos : 0 < value 10 c.digit k) :
    ∃ len, trim c k k = .ok len ∧ 0 < len ∧ len ≤ k ∧ c.digit (len - 1) ≠ 0
      ∧ ∀ i, len ≤ i → i < k → c.digit i = 0 := by
  induction k with
  | zero => exact absurd hpos (Nat.lt_irrefl 0)
  | succ k ih =>
    rw [trim, read_eq (by omega), ok_bind]
    by_cases hzero : c.digit k = 0
    · rw [value, hzero, Nat.zero_mul, Nat.add_zero] at hpos
      obtain ⟨len, hlen, hlpos, hle, htop, hrest⟩ := ih (by omega) hpos
      rw [if_pos hzero]
      refine ⟨len, hlen, hlpos, by omega, htop, fun i hi hlt => ?_⟩
      rcases Nat.lt_succ_iff_lt_or_eq.mp hlt with hlt | rfl
      · exact hrest i hi hlt
      · exact hzero
    · rw [if_neg hzero]
      exact ⟨k + 1, rfl, Nat.succ_pos k, le_rfl, hzero, fun i hi hlt => by omega⟩

theorem trimmed_ok {len : ℕ} (hlen : len ≤ 98) (hdigit : ∀ i < len, c.digit i < 10)
    (hpos : 0 < value 10 c.digit len) (hsign : c.sign ≠ minus) :
    ∃ t, trimmed c len len = .ok t ∧ Denotes t (value 10 c.digit len) ∧ t.sign = c.sign
      ∧ t.length ≤ len ∧ ((∀ i, len ≤ i → c.digit i = 0) → Padded t) := by
  have hlpos : 0 < len := by
    by_contra hzero
    rw [Nat.eq_zero_of_not_pos hzero] at hpos
    exact absurd hpos (Nat.lt_irrefl 0)
  obtain ⟨m, rfl⟩ : ∃ m, len = m + 1 := ⟨len - 1, by omega⟩
  by_cases hzero : c.digit m = 0
  · rw [value, hzero, Nat.zero_mul, Nat.add_zero] at hpos ⊢
    obtain ⟨n, hn, hnpos, hle, htop, hrest⟩ := trim_ok (by omega) hpos
    refine ⟨{ c with length := n }, ?_, ⟨⟨hnpos, by simp only; omega, fun i hi => ?_, ?_, hsign⟩,
      .inr htop⟩, rfl, by simp only; omega, fun hpad i hi => ?_⟩
    · rw [trimmed, Nat.add_sub_cancel, read_eq (by omega), ok_bind, if_pos hzero, hn]
      rfl
    · simp only at hi
      exact hdigit i (by omega)
    · exact (value_of_zero hrest hle).symm
    · simp only at hi
      by_cases hlt : i < m
      · exact hrest i hi hlt
      · by_cases him : i = m
        · rw [him, hzero]
        · exact hpad i (by omega)
  · refine ⟨{ c with length := m + 1 }, ?_, ⟨⟨hlpos, hlen, hdigit, rfl, hsign⟩, .inr hzero⟩, rfl,
      le_rfl, fun hpad => hpad⟩
    rw [trimmed, Nat.add_sub_cancel, read_eq (by omega), ok_bind, if_neg hzero]

theorem sub_ok (h1 : Denotes a1 v1) (h2 : Denotes a2 v2) (hle : v2 ≤ v1) (hsign : c.sign ≠ minus) :
    ∃ t, sub a1 a2 c = .ok t ∧ Denotes t (v1 - v2) ∧ t.sign = c.sign
      ∧ (v2 < v1 → t.length ≤ a1.length
        ∧ ((∀ k, a1.length ≤ k → c.digit k = 0) → Padded t)) := by
  have hsub : sub a1 a2 c = subDigits a1 a2 c := by
    rw [sub, if_neg (fun h => h1.sign h.1), if_neg h2.sign, if_neg h1.sign]
  rw [hsub, subDigits, cmp_eq h1 h2, ok_bind]
  rcases hle.lt_or_eq with hlt | heq
  · have hlen := length_le_of_lt h2 h1.toDigits hlt
    obtain ⟨t, ht, hdigit, hvalue, hrest, hs⟩ := borrow_ok (c := c) h1.toDigits h2.toDigits hlen hle
    obtain ⟨u, hu, hdenotes, hsu, hlenu, hpad⟩ := trimmed_ok h1.length_le hdigit
      (by rw [hvalue]; omega) (by rwa [hs])
    rw [hvalue] at hdenotes
    rw [order, if_pos hlt, if_pos rfl, ht, ok_bind]
    exact ⟨u, hu, hdenotes, hsu.trans hs, fun _ => ⟨hlenu, fun hzero =>
      hpad fun i hi => (hrest i hi).trans (hzero i hi)⟩⟩
  · subst heq
    rw [order, if_neg (Nat.lt_irrefl _), if_neg (Nat.lt_irrefl _), if_neg (by decide),
      if_neg (by decide), write_eq (by decide), ok_bind]
    refine ⟨_, rfl, ⟨⟨Nat.one_pos, by simp, fun i hi => ?_, ?_, hsign⟩, .inl rfl⟩, rfl,
      fun hlt => absurd hlt (Nat.lt_irrefl _)⟩
    · obtain rfl : i = 0 := by simpa using hi
      simp
    · simp [value]

end Difference

section Quotient

variable {b c e : BigNum} {u i : ℕ}

def power (i : ℕ) : BigNum := ⟨Function.update (fun _ => 0) i 1, 0, i + 1⟩

lemma denotes_power (hi : i < 98) : Denotes (power i) (10 ^ i) := by
  have hself : (power i).digit i = 1 := by simp [power]
  have hother : ∀ k, k ≠ i → (power i).digit k = 0 := fun k hk => by simp [power, hk]
  refine ⟨⟨Nat.succ_pos i, Nat.succ_le_of_lt hi, fun k hk => ?_, ?_, nofun⟩, .inr ?_⟩
  · by_cases hki : k = i
    · rw [hki, hself]
      decide
    · rw [hother k hki]
      decide
  · have hlow : value 10 (power i).digit i = 0 :=
      value_of_zero (fun k _ hk => hother k hk.ne) (Nat.zero_le i)
    exact (congrArg₂ (· + · * 10 ^ i) hlow hself).trans (by rw [Nat.zero_add, Nat.one_mul])
  · exact hself.trans_ne Nat.one_ne_zero

lemma shifted_ok {s : Division} (hb : Denotes b u) (hu : 0 < u) (hle : b.length + i ≤ 97)
    (he : ∀ k, s.e.digit k = 0) (hsign : s.e.sign ≠ minus) :
    ∃ e, s.shifted b i = .ok { s with e := e } ∧ Denotes e (u * 10 ^ i)
      ∧ (∀ k, (e.clearFrom i).digit k = 0) := by
  have hpos := hb.pos
  obtain ⟨e, hmul, hdenotes, hpad, hs, hlen, hlen'⟩ := mul_denotes hb (denotes_power (i := i) (by omega))
    (by simp only [power]; omega) (.inl ⟨hu.ne', (Nat.pow_pos (by decide)).ne'⟩) he hsign
  refine ⟨e, ?_, hdenotes, fun k => ?_⟩
  · rw [Division.shifted, write_eq (by omega), ok_bind]
    exact (congrArg (· >>= _) hmul).trans (ok_bind _ _)
  · simp only [BigNum.clearFrom]
    split
    · rfl
    · simp only [power] at hlen'
      have hmod := value_mod_pow (b := 10) (d := e.digit) (m := i) (n := e.length)
        (fun k hk => hdenotes.digit k (by omega)) (by omega)
      rw [hdenotes.value, Nat.mul_mod_left] at hmod
      exact digit_eq_zero (by decide) (by omega) hmod.symm

structure Subtracting (P : Prop) (s0 : Division) (A0 E i : ℕ) (A n : ℕ) (s : Division) : Prop where
  a : Denotes s.a A
  left : A + n * E = A0
  c : s.c = { s0.c with digit := Function.update s0.c.digit i (s0.c.digit i + n) }
  e : s.e = s0.e
  f : s.f.sign ≠ minus
  padded : P → A ≠ 0 → ∀ k, s.a.length ≤ k → s.a.digit k = 0 ∧ s.f.digit k = 0

lemma subtracting_subtract {P : Prop} {s0 s : Division} {A0 E A n : ℕ} (he : Denotes s0.e E)
    (hE : 0 < E) (hi : i < 98) (h : Subtracting P s0 A0 E i A n s) (hle : E ≤ A) :
    ∃ t, s.subtract i = .ok t ∧ Subtracting P s0 A0 E i (A - E) (n + 1) t := by
  obtain ⟨f, hf, hdenotes, hsign, hpad⟩ := sub_ok h.a (h.e ▸ he) hle h.f
  refine ⟨⟨f, { s.c with digit := Function.update s.c.digit i (s.c.digit i + 1) }, s.e, f⟩, ?_,
    hdenotes, ?_, ?_, h.e, hsign ▸ h.f, fun hP hne k hk => ?_⟩
  · rw [Division.subtract, read_eq hi, ok_bind, write_eq hi, ok_bind, hf]
    rfl
  · have hleft := h.left
    rw [Nat.add_mul, Nat.one_mul]
    omega
  · simp only [h.c, Function.update_self, Function.update_idem, Nat.add_assoc]
  · have hzero : ∀ k, s.a.length ≤ k → s.f.digit k = 0 := fun k hk =>
      (h.padded hP (by omega) k hk).2
    have hf := (hpad (by omega)).2 hzero k hk
    exact ⟨hf, hf⟩

theorem digit_returns {P : Prop} {s : Division} {A0 E : ℕ} (ha : Denotes s.a A0)
    (he : Denotes s.e E) (hE : 0 < E) (hi : i < 98) (hf : s.f.sign ≠ minus)
    (hpad : P → A0 ≠ 0 → ∀ k, s.a.length ≤ k → s.a.digit k = 0 ∧ s.f.digit k = 0) :
    ∃ t A n, (s.digit i).Returns t ∧ Subtracting P s A0 E i A n t ∧ A < E := by
  have hstart : Subtracting P s A0 E i A0 0 s := by
    refine ⟨ha, by omega, ?_, rfl, hf, hpad⟩
    rw [Nat.add_zero, Function.update_eq_self]
  have hloop : ∃ t, (loop (fun s : Division × ℤ => s.2 != -1) (fun s => ofExcept do
      let t ← s.1.subtract i
      .ok (t, ← cmp t.a t.e)) (s, order A0 E)).Returns t
      ∧ (∃ A n, Subtracting P s A0 E i A n t.1 ∧ t.2 = order A E) ∧ (t.2 != -1) = false := by
    refine loop_returns
      (fun t : Division × ℤ => ∃ A n, Subtracting P s A0 E i A n t.1 ∧ t.2 = order A E)
      (fun t => value 10 t.1.a.digit t.1.a.length) ?_ _ ⟨A0, 0, hstart, rfl⟩
    rintro ⟨t, o⟩ ⟨A, n, hsub, ho⟩ hcond
    have hle : E ≤ A := by
      rw [bne_iff_ne, Ne, ho, order_eq_neg_one] at hcond
      exact not_lt.mp hcond
    obtain ⟨t', ht', hsub'⟩ := subtracting_subtract he hE hi hsub hle
    refine ⟨(t', order (A - E) E), yields_ofExcept.mpr ?_, ⟨_, _, hsub', rfl⟩, ?_⟩
    · simp only [ht', ok_bind, cmp_eq hsub'.a (hsub'.e ▸ he)]
    · simp only [hsub'.a.value, hsub.a.value]
      omega
  obtain ⟨⟨t, o⟩, ht, ⟨A, n, hsub, ho⟩, hend⟩ := hloop
  refine ⟨t, A, n, ?_, hsub, ?_⟩
  · exact returns_bind.mpr ⟨_, yields_ofExcept.mpr (cmp_eq ha he).symm,
      returns_bind.mpr ⟨_, ht, yields_pure.mpr rfl⟩⟩
  · rw [bne_eq_false_iff_eq, ho] at hend
    exact order_eq_neg_one.mp hend

structure Dividing (P : Prop) (u T : ℕ) (c0 : BigNum) (m i A : ℕ) (s : Division) : Prop where
  a : Denotes s.a A
  lt : A < u * 10 ^ i
  quotient : T + u * value 10 c0.digit (m + 1) = A + u * value 10 s.c.digit (m + 1)
  below : ∀ k < i, s.c.digit k = c0.digit k
  grown : ∀ k, s.c.digit k < c0.digit k + 10
  cSign : s.c.sign = c0.sign
  e : ∀ k, s.e.digit k = 0
  eSign : s.e.sign ≠ minus
  fSign : s.f.sign ≠ minus
  padded : P → A ≠ 0 → ∀ k, s.a.length ≤ k → s.a.digit k = 0 ∧ s.f.digit k = 0

theorem digits_returns {P : Prop} {T m A : ℕ} {c0 : BigNum} {s : Division} (hb : Denotes b u)
    (hu : 0 < u) (hm : b.length + m ≤ 97) (him : i ≤ m + 1)
    (h : Dividing P u T c0 m i A s) :
    ∃ t A', (Division.digits b i s).Returns t ∧ Dividing P u T c0 m 0 A' t := by
  induction i generalizing s A with
  | zero => exact ⟨s, A, yields_pure.mpr rfl, h⟩
  | succ i ih =>
    have hpos := hb.pos
    obtain ⟨e, he, hdenotes, hclear⟩ := shifted_ok (i := i) hb hu (by omega) h.e h.eSign
    obtain ⟨t, A', n, ht, hsub, hlt⟩ := digit_returns (P := P) (s := { s with e := e }) (i := i)
      h.a hdenotes (Nat.mul_pos hu (Nat.pow_pos (by decide))) (by omega) h.fSign h.padded
    have hleft := hsub.left
    have hn : n < 10 := by
      have hlt' := h.lt
      rw [pow_succ, ← Nat.mul_assoc] at hlt'
      by_contra hge
      have := Nat.mul_le_mul_right (u * 10 ^ i) (not_lt.mp hge)
      omega
    have hstep : Dividing P u T c0 m i A' { t with e := t.e.clearFrom i } := by
      refine ⟨hsub.a, hlt, ?_, fun k hk => ?_, fun k => ?_, ?_, ?_, nofun, hsub.f, hsub.padded⟩
      · have hupdate := value_update (b := 10) (d := s.c.digit) (x := s.c.digit i + n)
          (show i < m + 1 by omega)
        have hquotient := h.quotient
        simp only [hsub.c]
        have hmul := congrArg (u * ·) hupdate
        simp only [Nat.mul_add, Nat.add_mul] at hmul
        have hcomm : u * (n * 10 ^ i) = n * (u * 10 ^ i) := Nat.mul_left_comm ..
        omega
      · simp only [hsub.c]
        rw [Function.update_of_ne hk.ne]
        exact h.below k (by omega)
      · simp only [hsub.c]
        by_cases hki : k = i
        · rw [hki, Function.update_self, h.below i (Nat.lt_succ_self i)]
          omega
        · rw [Function.update_of_ne hki]
          exact h.grown k
      · simp only [hsub.c]
        exact h.cSign
      · simp only [hsub.e]
        exact hclear
    obtain ⟨w, A'', hw, hdiv⟩ := ih (by omega) hstep
    exact ⟨w, A'', returns_bind.mpr ⟨_, yields_ofExcept.mpr he.symm,
      returns_bind.mpr ⟨t, ht, hw⟩⟩, hdiv⟩

lemma denotes_digit {x : ℕ} (hx : x < 10) (hsign : c.sign ≠ minus) :
    Denotes { c with digit := Function.update c.digit 0 x, length := 1 } x := by
  refine ⟨⟨Nat.one_pos, by simp, fun k hk => ?_, ?_, hsign⟩, .inl rfl⟩
  · obtain rfl : k = 0 := Nat.lt_one_iff.mp hk
    simpa using hx
  · simp [value]

-- What is left of a division is a number below the divisor, which is normalised where the dividend
-- was, and a quotient that counts only where the cells for it were zero.
structure Divided (t b c q r : BigNum) (T u : ℕ) : Prop where
  remainder : Digits r (T % u)
  length_le : r.length ≤ b.length
  normal : Denotes t T → Denotes r (T % u)
  padded : Padded t → T % u ≠ 0 → Padded r
  quotient : (∀ k, c.digit k = 0) → c.sign ≠ minus → Denotes t T → Denotes q (T / u)

section

variable {t w : BigNum} {T : ℕ}

lemma divt_less {q : BigNum} (ht : Digits t T) (hlt : T < u) (hle : t.length ≤ b.length)
    (hq : c.sign ≠ minus → Denotes q 0) : Divided t b c q t T u := by
  have hmod : T % u = T := Nat.mod_eq_of_lt hlt
  refine ⟨hmod.symm ▸ ht, hle, fun h => hmod.symm ▸ h, fun h _ => h, fun _ hs _ => ?_⟩
  rw [Nat.div_eq_of_lt hlt]
  exact hq hs

lemma dividing_quotient {m A : ℕ} {P : Prop} {s : Division} (ht : Denotes t T) (hb : Denotes b u)
    (hlt : u < T) (hm : m = t.length - b.length) (hdiv : Dividing P u T c m 0 A s)
    (hc : ∀ k, c.digit k = 0) (hsign : c.sign ≠ minus) :
    Denotes { s.c with length := if s.c.digit m = 0 then m else m + 1 } (T / u) := by
  have hlen := length_le_of_lt hb ht.toDigits hlt
  have hposb := hb.pos
  have hletot := ht.length_le
  have hA : A < u := by simpa using hdiv.lt
  have hvalue : value 10 s.c.digit (m + 1) = T / u := by
    have hquotient := hdiv.quotient
    rw [value_of_zero (fun k _ _ => hc k) (Nat.zero_le _), value, Nat.mul_zero, Nat.add_zero]
      at hquotient
    rw [hquotient, Nat.add_mul_div_left _ _ (Nat.zero_lt_of_lt hA), Nat.div_eq_of_lt hA,
      Nat.zero_add]
  have hdigit : ∀ k, s.c.digit k < 10 := fun k => by
    have hgrown := hdiv.grown k
    rwa [hc, Nat.zero_add] at hgrown
  have hs : s.c.sign ≠ minus := hdiv.cSign ▸ hsign
  by_cases htop : s.c.digit m = 0
  · rw [if_pos htop]
    rw [value, htop, Nat.zero_mul, Nat.add_zero] at hvalue
    have hone : 1 ≤ T / u := (Nat.one_le_div_iff (Nat.zero_lt_of_lt hA)).mpr hlt.le
    have hmpos : 0 < m := Nat.pos_of_ne_zero fun hzero => by
      rw [← hvalue, hzero, value] at hone
      exact absurd hone (by decide)
    refine Digits.denotes ⟨hmpos, by simp only; omega, fun k _ => hdigit k, hvalue, hs⟩ ?_
    rw [Nat.le_div_iff_mul_le (Nat.zero_lt_of_lt hA)]
    calc 10 ^ (m - 1) * u
      _ ≤ 10 ^ (m - 1) * 10 ^ b.length := Nat.mul_le_mul_left _ hb.lt.le
      _ = 10 ^ (t.length - 1) := by
        rw [← Nat.pow_add]
        congr 1
        omega
      _ ≤ T := ht.pow_le_of_ne_zero (Nat.ne_of_gt (Nat.zero_lt_of_lt hlt))
  · rw [if_neg htop]
    exact ⟨⟨Nat.succ_pos m, by simp only; omega, fun k _ => hdigit k, hvalue, hs⟩, .inr htop⟩

theorem divt_returns (ht : Digits t T) (hb : Denotes b u) (hu : 0 < u) (hlen : t.length ≤ 97)
    (hnorm : Denotes t T ∨ T = 0 ∧ t.length ≤ b.length) (hw : w.sign ≠ minus) :
    ∃ q r, (divt t b c w).Returns (q, r) ∧ Divided t b c q r T u := by
  have hless : cmp t b = .ok (-1) → (divt t b c w).Returns
      ({ c with digit := Function.update c.digit 0 0, length := 1 }, t) := fun hcmp => by
    refine returns_bind.mpr ⟨-1, yields_ofExcept.mpr hcmp.symm, ?_⟩
    rw [if_pos rfl, write_eq (by decide)]
    exact returns_bind.mpr ⟨_, yields_ofExcept.mpr rfl, yields_pure.mpr rfl⟩
  rcases hnorm with hden | ⟨rfl, hle⟩
  · have hcmp := cmp_eq hden hb
    rcases Nat.lt_trichotomy T u with hlt | heq | hgt
    · rw [order_eq_neg_one.mpr hlt] at hcmp
      exact ⟨_, _, hless hcmp, divt_less ht hlt (length_le_of_lt hden hb.toDigits hlt)
        (denotes_digit (by decide))⟩
    · subst heq
      rw [order_eq_zero.mpr rfl] at hcmp
      have hr : Denotes { w with digit := Function.update w.digit 0 0, length := 1 } (T % T) := by
        rw [Nat.mod_self]
        exact denotes_digit (by decide) hw
      refine ⟨{ c with digit := Function.update c.digit 0 1, length := 1 }, _,
        returns_bind.mpr ⟨0, yields_ofExcept.mpr hcmp.symm, ?_⟩, hr.toDigits, hb.pos, fun _ => hr,
        fun _ hne => absurd (Nat.mod_self T) hne, fun _ hs _ => ?_⟩
      · rw [if_neg (by decide), if_pos rfl, write_eq (by decide), write_eq (by decide)]
        exact returns_bind.mpr ⟨_, yields_ofExcept.mpr rfl,
          returns_bind.mpr ⟨_, yields_ofExcept.mpr rfl, yields_pure.mpr rfl⟩⟩
      · rw [Nat.div_self hu]
        exact denotes_digit (by decide) hs
    · have hlenb := length_le_of_lt hb ht hgt
      have hposb := hb.pos
      have hone : order T u = 1 := if_pos hgt
      rw [hone] at hcmp
      have hstart : Dividing (Padded t) u T c (t.length - b.length) (t.length - b.length + 1) T
          ⟨t, c, .zero, .zero⟩ := by
        refine ⟨hden, ?_, rfl, fun _ _ => rfl, fun _ => by simp only; omega, rfl, fun _ => rfl,
          nofun, nofun, fun hpad _ k hk => ⟨hpad k hk, rfl⟩⟩
        calc T
          _ < 10 ^ t.length := ht.lt
          _ = 10 ^ (b.length - 1) * 10 ^ (t.length - b.length + 1) := by
            rw [← Nat.pow_add]
            congr 1
            omega
          _ ≤ u * 10 ^ (t.length - b.length + 1) :=
            Nat.mul_le_mul_right _ (hb.pow_le_of_ne_zero hu.ne')
      obtain ⟨s, A, hs, hdiv⟩ := digits_returns hb hu (by omega) le_rfl hstart
      have hA : A < u := by simpa using hdiv.lt
      have hmod : T % u = A := by
        have hquotient := congrArg (· % u) hdiv.quotient
        simp only [Nat.add_mul_mod_self_left] at hquotient
        rw [hquotient, Nat.mod_eq_of_lt hA]
      refine ⟨_, s.a, returns_bind.mpr ⟨1, yields_ofExcept.mpr hcmp.symm, ?_⟩, hmod ▸ hdiv.a.toDigits,
        length_le_of_lt hdiv.a hb.toDigits hA, fun _ => hmod ▸ hdiv.a, fun hpad hne k hk =>
          (hdiv.padded hpad (hmod ▸ hne) k hk).1, fun hc hs _ =>
          dividing_quotient hden hb hgt rfl hdiv hc hs⟩
      rw [if_neg (by decide), if_neg (by decide)]
      refine returns_bind.mpr ⟨s, hs, ?_⟩
      rw [read_eq (by omega)]
      exact returns_bind.mpr ⟨_, yields_ofExcept.mpr rfl, yields_pure.mpr rfl⟩
  · exact ⟨_, _, hless (cmp_zero ht hb hu hle), divt_less ht hu hle (denotes_digit (by decide))⟩

theorem divt_quotient_remainder (ht : Denotes t T) (hb : Denotes b u) (hu : 0 < u)
    (hlen : t.length ≤ 97) :
    ∃ c w Q R, (divt t b .zero .zero).Returns (c, w) ∧ Denotes c Q ∧ Denotes w R ∧ T = Q * u + R
      ∧ R < u := by
  have hsign : BigNum.zero.sign ≠ minus := nofun
  obtain ⟨c, w, hcw, hdiv⟩ := divt_returns (c := .zero) (w := .zero) ht.toDigits hb hu hlen (.inl ht)
    hsign
  refine ⟨c, w, T / u, T % u, hcw, hdiv.quotient (fun _ => rfl) hsign ht, hdiv.normal ht, ?_,
    Nat.mod_lt _ hu⟩
  rw [Nat.mul_comm, Nat.div_add_mod]

theorem divt_quotient_remainder_143 : ∃ c w Q R,
    (divt ⟨fun i => [3, 4, 1].getD i 0, 0, 3⟩ ⟨fun i => [2, 1].getD i 0, 0, 2⟩ .zero .zero).Returns
      (c, w) ∧ Denotes c Q ∧ Denotes w R ∧ 143 = Q * 12 + R ∧ R < 12 :=
  divt_quotient_remainder ⟨⟨by decide, by decide, by decide, rfl, by decide⟩, .inr (by decide)⟩
    ⟨⟨by decide, by decide, by decide, rfl, by decide⟩, .inr (by decide)⟩ (by decide) (by decide)

end

end Quotient

section Exponent

variable {n : BigNum} {N A : ℕ}

lemma zero_sign : BigNum.zero.sign ≠ minus := nofun

structure Residue (n a : BigNum) (v : ℕ) : Prop where
  digits : Digits a v
  length_le : a.length ≤ n.length
  normal : v ≠ 0 → Denotes a v

lemma mulDivt_returns {x y c : BigNum} {X Y : ℕ} (hn : Denotes n N) (hN : 0 < N)
    (hx : Digits x X) (hy : Digits y Y) (hx48 : x.length ≤ 48) (hy48 : y.length ≤ 48)
    (hxn : X ≠ 0 → Denotes x X) (hyn : Y ≠ 0 → Denotes y Y)
    (hzero : X * Y = 0 → x.length + y.length ≤ n.length + 1) :
    ∃ p q r, mul x y .zero = .ok p ∧ (divt p n c .zero).Returns (q, r) ∧ Residue n r (X * Y % N)
      ∧ (x.length + y.length = 2 ∨ X * Y ≠ 0 → Denotes r (X * Y % N))
      ∧ (X * Y % N ≠ 0 → Padded r) := by
  have hposx := hx.pos
  have hposy := hy.pos
  obtain ⟨p, hp, hdigits, hpadded, -, hlen⟩ := mul_eq (c := .zero) hx hy (by omega)
    (fun _ => rfl) zero_sign
  have hden : x.length + y.length = 2 ∨ X * Y ≠ 0 → Denotes p (X * Y) := by
    rintro htwo
    by_cases hXY : X * Y = 0
    · have htwo := htwo.resolve_right (fun hne => hne hXY)
      rcases hlen with ⟨-, htop⟩ | hlen
      · exact ⟨hdigits, .inr htop⟩
      · exact ⟨hdigits, .inl (by omega)⟩
    · obtain ⟨hX, hY⟩ := Nat.mul_ne_zero_iff.mp hXY
      obtain ⟨p', hp', hden, -⟩ := mul_denotes (c := .zero) (hxn hX) (hyn hY) (by omega)
        (.inl ⟨hX, hY⟩) (fun _ => rfl) zero_sign
      rw [hp] at hp'
      cases hp'
      exact hden
  have hnorm : Denotes p (X * Y) ∨ X * Y = 0 ∧ p.length ≤ n.length := by
    by_cases hXY : X * Y = 0
    · refine .inr ⟨hXY, ?_⟩
      have hbound := hzero hXY
      rcases hlen with ⟨hlen, htop⟩ | hlen
      · have hvalue := hdigits.value
        rw [hXY] at hvalue
        exact absurd (digit_eq_zero (by decide) (Nat.sub_one_lt hdigits.pos.ne') hvalue) htop
      · omega
    · exact .inl (hden (.inr hXY))
  obtain ⟨q, r, hqr, hdiv⟩ := divt_returns (c := c) (w := .zero) hdigits hn hN (by omega) hnorm
    zero_sign
  refine ⟨p, q, r, hp, hqr, ⟨hdiv.remainder, hdiv.length_le, fun hne => ?_⟩,
    fun h => hdiv.normal (hden h), hdiv.padded hpadded⟩
  refine hdiv.normal (hnorm.resolve_right fun hzero => hne ?_)
  rw [hzero.1, Nat.zero_mod]

-- `temp` is the power for the digits of the exponent that are done, `m` the one for the next digit.
structure Squared (n : BigNum) (N A P M T B r e : ℕ) (s : Power) : Prop where
  m : Denotes s.m M
  m_le : s.m.length ≤ 48
  temp : Residue n s.temp T
  zero : T = 0 → M = 0
  b : Denotes s.b B
  b_pos : 0 < B
  b_le : s.b.length ≤ 48
  lt : r < e
  temp_mod : T ≡ A ^ r [MOD N]
  m_mod : M ≡ A ^ e [MOD N]
  exponent : r + e * B = P

lemma denotes_one : Denotes one 1 := denotes_digit (c := .zero) (by decide) zero_sign

lemma denotes_two : Denotes two 2 := denotes_digit (c := .zero) (by decide) zero_sign

lemma power_dvd {X k l : ℕ} (h : X ≡ A ^ k [MOD N]) (hX : X % N = 0) (hkl : k ≤ l) :
    A ^ l % N = 0 := by
  have hdvd : N ∣ A ^ k := Nat.dvd_of_mod_eq_zero (Eq.trans (Eq.symm h) hX)
  exact Nat.mod_eq_zero_of_dvd (hdvd.trans (Nat.pow_dvd_pow A hkl))

lemma Squared.product {P M T B r e : ℕ} {s : Power} (h : Squared n N A P M T B r e s) :
    T * M ≡ A ^ (r + e) [MOD N] := by
  rw [Nat.pow_add]
  exact h.temp_mod.mul h.m_mod

lemma Squared.square {P M T B r e : ℕ} {s : Power} (h : Squared n N A P M T B r e s) :
    M * M ≡ A ^ (2 * e) [MOD N] := by
  rw [Nat.two_mul, Nat.pow_add]
  exact h.m_mod.mul h.m_mod

lemma Squared.zero_length {P M T B r e : ℕ} {s : Power} (h : Squared n N A P M T B r e s)
    (hzero : T * M = 0) : s.temp.length + s.m.length ≤ n.length + 1 := by
  have hM : M = 0 := (Nat.mul_eq_zero.mp hzero).elim h.zero id
  have hm := h.m
  rw [hM] at hm
  rw [hm.length_eq_one]
  exact Nat.add_le_add_right h.temp.length_le 1

theorem step_returns {P M T B r e : ℕ} {s : Power} (hn : Denotes n N) (hN : 0 < N)
    (hn48 : n.length ≤ 48) (h : Squared n N A P M T B r e s) (hB : B ≠ 1) :
    ∃ t M' T' r', (s.step n).Returns t ∧ Squared n N A P M' T' (B / 2) r' (2 * e) t := by
  have hble := h.b_le
  have hBpos := h.b_pos
  have hlt := h.lt
  obtain ⟨q, c, hqc, hhalf⟩ := divt_returns (c := .zero) (w := .zero) h.b.toDigits denotes_two
    Nat.two_pos (by omega) (.inl h.b) zero_sign
  have hq := hhalf.quotient (fun _ => rfl) zero_sign h.b
  have hqle := length_le_of_lt hq h.b.toDigits (Nat.div_lt_self hBpos (by decide))
  have hcmp := cmp_eq (hhalf.normal h.b) denotes_one
  have htemp48 : s.temp.length ≤ 48 := h.temp.length_le.trans hn48
  -- the square is divided with whatever is left in `w`
  have hsquare : ∀ w, ∃ p q' m, mul s.m s.m .zero = .ok p ∧ (divt p n w .zero).Returns (q', m)
      ∧ Denotes m (M * M % N) ∧ m.length ≤ 48 := fun w => by
    obtain ⟨p, q', m, hp, hqm, hres, hnormal, -⟩ := mulDivt_returns (c := w) hn hN h.m.toDigits
      h.m.toDigits h.m_le h.m_le (fun _ => h.m) (fun _ => h.m) (fun hzero => by
        have hm := h.m
        rw [mul_self_eq_zero.mp hzero] at hm
        have := hn.pos
        rw [hm.length_eq_one]
        omega)
    refine ⟨p, q', m, hp, hqm, hnormal ?_, hres.length_le.trans hn48⟩
    by_cases hM : M = 0
    · have hm := h.m
      rw [hM] at hm
      exact .inl (by rw [hm.length_eq_one])
    · exact .inr (Nat.mul_ne_zero hM hM)
  by_cases hodd : B % 2 = 1
  · obtain ⟨p, q', temp, hp, hqt, hres, -, -⟩ := mulDivt_returns (c := .zero) hn hN
      h.temp.digits h.m.toDigits htemp48 h.m_le h.temp.normal (fun _ => h.m) h.zero_length
    obtain ⟨p', w, m, hp', hwm, hm, hm48⟩ := hsquare q'
    have htimes : (s.timesBase n c q).Returns (temp, q') := by
      rw [hodd] at hcmp
      refine returns_bind.mpr ⟨0, yields_ofExcept.mpr hcmp.symm, ?_⟩
      rw [if_pos rfl]
      exact returns_bind.mpr ⟨p, yields_ofExcept.mpr hp.symm,
        returns_bind.mpr ⟨_, hqt, yields_pure.mpr rfl⟩⟩
    refine ⟨⟨m, temp, q, w⟩, M * M % N, T * M % N, r + e, ?_, hm, hm48, hres, fun hzero => ?_, hq,
      by omega, hqle.trans hble, by omega, ?_, ?_, ?_⟩
    · exact returns_bind.mpr ⟨(q, c), hqc, returns_bind.mpr ⟨(temp, q'), htimes,
        returns_bind.mpr ⟨p', yields_ofExcept.mpr hp'.symm,
          returns_bind.mpr ⟨_, hwm, yields_pure.mpr rfl⟩⟩⟩⟩
    · exact Eq.trans h.square (power_dvd h.product hzero (by omega))
    · exact (Nat.mod_modEq _ _).trans h.product
    · exact (Nat.mod_modEq _ _).trans h.square
    · have hdiv := Nat.div_add_mod B 2
      rw [hodd] at hdiv
      calc r + e + 2 * e * (B / 2)
        _ = r + e * (2 * (B / 2) + 1) := by ring
        _ = P := by rw [hdiv, h.exponent]
  · obtain ⟨p', w, m, hp', hwm, hm, hm48⟩ := hsquare q
    have heven : B % 2 = 0 := by omega
    have htimes : (s.timesBase n c q).Returns (s.temp, q) := by
      rw [heven] at hcmp
      refine returns_bind.mpr ⟨-1, yields_ofExcept.mpr hcmp.symm, ?_⟩
      rw [if_neg (by decide)]
      exact yields_pure.mpr rfl
    refine ⟨⟨m, s.temp, q, w⟩, M * M % N, T, r, ?_, hm, hm48, h.temp, fun hzero => ?_, hq, by omega,
      hqle.trans hble, by omega, h.temp_mod, ?_, ?_⟩
    · exact returns_bind.mpr ⟨(q, c), hqc, returns_bind.mpr ⟨(s.temp, q), htimes,
        returns_bind.mpr ⟨p', yields_ofExcept.mpr hp'.symm,
          returns_bind.mpr ⟨_, hwm, yields_pure.mpr rfl⟩⟩⟩⟩
    · rw [h.zero hzero, Nat.zero_mul, Nat.zero_mod]
    · exact (Nat.mod_modEq _ _).trans h.square
    · have hdiv := Nat.div_add_mod B 2
      rw [heven, Nat.add_zero] at hdiv
      calc r + 2 * e * (B / 2)
        _ = r + e * (2 * (B / 2)) := by ring
        _ = P := by rw [hdiv, h.exponent]

theorem expmod_returns {a p : BigNum} {P : ℕ} (ha : Denotes a A) (hp : Denotes p P)
    (hn : Denotes n N) (hP : 0 < P) (hN : 0 < N) (ha48 : a.length ≤ 48) (hp48 : p.length ≤ 48)
    (hn48 : n.length ≤ 48) : ∃ m, (expmod a p n).Returns m ∧ Residue n m (A ^ P % N)
      ∧ (A ^ P % N ≠ 0 → Padded m) ∧ m.sign = a.sign := by
  have hstart : Squared n N A P A 1 P 0 1 ⟨a, one, p, .zero⟩ :=
    ⟨ha, ha48, ⟨denotes_one.toDigits, hn.pos, fun _ => denotes_one⟩, fun h => absurd h Nat.one_ne_zero,
      hp, hP, hp48, Nat.one_pos, rfl, by rw [Nat.pow_one], by omega⟩
  have hloop : ∃ t, (loop (fun s : Power × ℤ => s.2 != 0) (fun s => do
      let t ← s.1.step n
      pure (t, ← ofExcept (cmp t.b one))) (⟨a, one, p, .zero⟩, order P 1)).Returns t
      ∧ (∃ M T B r e, Squared n N A P M T B r e t.1 ∧ t.2 = order B 1) ∧ (t.2 != 0) = false := by
    refine loop_returns (fun t : Power × ℤ => ∃ M T B r e, Squared n N A P M T B r e t.1
      ∧ t.2 = order B 1) (fun t => value 10 t.1.b.digit t.1.b.length) ?_ _
      ⟨A, 1, P, 0, 1, hstart, rfl⟩
    rintro ⟨s, o⟩ ⟨M, T, B, r, e, hs, ho⟩ hcond
    have hB : B ≠ 1 := by
      rwa [bne_iff_ne, Ne, ho, order_eq_zero] at hcond
    obtain ⟨t, M', T', r', ht, hs'⟩ := step_returns hn hN hn48 hs hB
    refine ⟨(t, order (B / 2) 1), ?_, ⟨M', T', B / 2, r', 2 * e, hs', rfl⟩, ?_⟩
    · exact returns_bind.mpr ⟨t, ht, returns_bind.mpr ⟨_, yields_ofExcept.mpr
        (cmp_eq hs'.b denotes_one).symm, yields_pure.mpr rfl⟩⟩
    · simp only [hs'.b.value, hs.b.value]
      exact Nat.div_lt_self hs.b_pos (by decide)
  obtain ⟨⟨s, o⟩, hs, ⟨M, T, B, r, e, hsq, ho⟩, hend⟩ := hloop
  have hB : B = 1 := by
    rwa [bne_eq_false_iff_eq, ho, order_eq_zero] at hend
  have hmod : M * T % N = A ^ P % N := by
    rw [Nat.mul_comm, ← hsq.exponent, hB, Nat.mul_one]
    exact hsq.product
  obtain ⟨prod, q, c, hprod, hqc, hres, -, hpad⟩ := mulDivt_returns (c := s.w) hn hN hsq.m.toDigits
    hsq.temp.digits hsq.m_le (hsq.temp.length_le.trans hn48) (fun _ => hsq.m) hsq.temp.normal
    (fun hzero => by
      rw [Nat.add_comm]
      exact hsq.zero_length (by rwa [Nat.mul_comm]))
  rw [hmod] at hres hpad
  have hsign : ∀ {v}, Digits c v → Digits { c with sign := a.sign } v :=
    fun h => ⟨h.pos, h.length_le, h.digit, h.value, ha.sign⟩
  refine ⟨{ c with sign := a.sign }, ?_, ⟨hsign hres.digits, hres.length_le, fun hne =>
    ⟨hsign hres.digits, (hres.normal hne).top⟩⟩, hpad, rfl⟩
  exact returns_bind.mpr ⟨order P 1, yields_ofExcept.mpr (cmp_eq hp denotes_one).symm,
    returns_bind.mpr ⟨(s, o), hs, returns_bind.mpr ⟨prod, yields_ofExcept.mpr hprod.symm,
      returns_bind.mpr ⟨(q, c), hqc, yields_pure.mpr rfl⟩⟩⟩⟩

theorem expmod_power {a p : BigNum} {P : ℕ} (ha : Denotes a A) (hp : Denotes p P) (hn : Denotes n N)
    (hP : 1 ≤ P) (hN : 1 ≤ N) (ha48 : a.length ≤ 48) (hp48 : p.length ≤ 48) (hn48 : n.length ≤ 48) :
    ∃ m, (expmod a p n).Returns m ∧ Digits m (A ^ P % N) := by
  obtain ⟨m, hm, hres, -⟩ := expmod_returns ha hp hn hP hN ha48 hp48 hn48
  exact ⟨m, hm, hres.digits⟩

theorem expmod_power_143 : ∃ m,
    (expmod ⟨fun i => [7, 1].getD i 0, 0, 2⟩ ⟨fun i => [3, 0, 1].getD i 0, 0, 3⟩
      ⟨fun i => [3, 4, 1].getD i 0, 0, 3⟩).Returns m ∧ Digits m (17 ^ 103 % 143) :=
  expmod_power ⟨⟨by decide, by decide, by decide, rfl, by decide⟩, .inr (by decide)⟩
    ⟨⟨by decide, by decide, by decide, rfl, by decide⟩, .inr (by decide)⟩
    ⟨⟨by decide, by decide, by decide, rfl, by decide⟩, .inr (by decide)⟩ (by decide) (by decide)
    (by decide) (by decide) (by decide)

end Exponent

end SimpleCode.Crypto.RSA
