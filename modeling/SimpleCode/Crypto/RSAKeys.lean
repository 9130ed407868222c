import SimpleCode.Crypto.RSASigned
import SimpleCode.Foundations.ExtendedEuclid

set_option autoImplicit false

namespace SimpleCode.Crypto.RSA

open Foundations Foundations.Comp Foundations.Euclid Positional

inductive Trap
  | divisionByZero
deriving DecidableEq, Repr

structure Words where
  n1 : UInt64
  n2 : UInt64
  b1 : UInt64
  b2 : UInt64
  found : Bool

def Words.round (s : Words) : Except Trap Words :=
  if s.n2 = 0 then .error .divisionByZero
  else
    let k := s.n1 / s.n2
    let r := s.n1 - k * s.n2
    if r ≠ 0 then .ok ⟨s.n2, r, s.b2, s.b1 - k * s.b2, false⟩ else .ok { s with found := true }

def rsa (p q e : UInt64) : Comp Trap UInt64 := do
  let g := (p - 1) * (q - 1)
  let s ← loop (fun s : Words => !s.found) (fun s => ofExcept s.round) ⟨g, e, 0, 1, false⟩
  ofExcept (if g = 0 then .error .divisionByZero else .ok ((g + s.b2) % g))

section MachineWords

variable {g e p q : UInt64} {N1 N2 x1 x2 : ℕ} {neg : Bool} {s : Words}

structure Held (g e : UInt64) (N1 N2 x1 x2 : ℕ) (neg : Bool) (s : Words) : Prop where
  round : Round g.toNat e.toNat N1 N2 x1 x2 neg
  n1 : s.n1.toNat = N1
  n2 : s.n2.toNat = N2
  b1 : s.b1 = UInt64.ofInt (coefficient (!neg) x1)
  b2 : s.b2 = UInt64.ofInt (coefficient neg x2)
  found : s.found = true → N1 % N2 = 0

lemma ofInt_natCast (n : ℕ) : UInt64.ofInt (n : ℤ) = UInt64.ofNat n := by
  have hmod : ((n : ℤ) % 2 ^ 64).toNat = n % 2 ^ 64 := by omega
  rw [UInt64.ofInt, hmod, ← UInt64.toNat_inj, UInt64.toNat_ofNat', UInt64.toNat_ofNat', Nat.mod_mod]

lemma ofInt_toNat (x : UInt64) : UInt64.ofInt (x.toNat : ℤ) = x := by
  rw [ofInt_natCast, UInt64.ofNat_toNat]

lemma toNat_remainder (x y : UInt64) : (x - x / y * y).toNat = x.toNat % y.toNat := by
  have hmul : (x / y * y).toNat = x.toNat / y.toNat * y.toNat := by
    rw [UInt64.toNat_mul, UInt64.toNat_div]
    exact Nat.mod_eq_of_lt ((Nat.div_mul_le_self _ _).trans_lt x.toNat_lt)
  have hle : x / y * y ≤ x := by
    rw [UInt64.le_iff_toNat_le, hmul]
    exact Nat.div_mul_le_self _ _
  rw [UInt64.toNat_sub_of_le _ _ hle, hmul, ← Nat.mod_eq_sub_div_mul]

lemma round_held (h : Held g e N1 N2 x1 x2 neg s) : ∃ t N1' N2' x1' x2' neg', s.round = .ok t
    ∧ Held g e N1' N2' x1' x2' neg' t
    ∧ (t.found = true ∧ t.n2 = s.n2 ∨ t.found = false ∧ t.n2.toNat < s.n2.toNat) := by
  have hn2 : s.n2 ≠ 0 := fun hzero => by
    have hpos := h.round.pos
    rw [← h.n2, hzero] at hpos
    exact absurd hpos (by decide)
  have hr : (s.n1 - s.n1 / s.n2 * s.n2).toNat = N1 % N2 := by
    rw [toNat_remainder, h.n1, h.n2]
  have hzero : s.n1 - s.n1 / s.n2 * s.n2 = 0 ↔ N1 % N2 = 0 := by
    rw [← hr, ← UInt64.toNat_inj]
    rfl
  by_cases hdvd : N1 % N2 = 0
  · refine ⟨{ s with found := true }, N1, N2, x1, x2, neg, ?_,
      ⟨h.round, h.n1, h.n2, h.b1, h.b2, fun _ => hdvd⟩, .inl ⟨rfl, rfl⟩⟩
    rw [Words.round, if_neg hn2, if_neg (not_not.mpr (hzero.mpr hdvd))]
  · refine ⟨_, N2, N1 % N2, x2, x1 + N1 / N2 * x2, !neg, by rw [Words.round, if_neg hn2,
      if_pos (hzero.not.mpr hdvd)], ⟨h.round.next hdvd, h.n2, hr, ?_, ?_, fun h => absurd h (by simp)⟩, .inr ⟨rfl, ?_⟩⟩
    · rw [Bool.not_not]
      exact h.b2
    · have hk : s.n1 / s.n2 = UInt64.ofInt ((N1 / N2 : ℕ) : ℤ) := by
        rw [← h.n1, ← h.n2, ← UInt64.toNat_div]
        exact (ofInt_toNat _).symm
      have hnext : coefficient (!neg) (x1 + N1 / N2 * x2)
          = coefficient (!neg) x1 + -(((N1 / N2 : ℕ) : ℤ) * coefficient neg x2) := by
        rw [coefficient_add_mul, coefficient_not neg x2, Int.mul_neg]
      rw [hnext, UInt64.ofInt_add, UInt64.ofInt_neg, UInt64.ofInt_mul, ← hk, ← h.b1, ← h.b2]
      exact UInt64.sub_eq_add_neg _ _
    · simp only [hr, h.n2]
      exact Nat.mod_lt _ h.round.pos

lemma toNat_corrected {x : ℕ} (hg : g.toNat < 2 ^ 63) (hpos : 0 < x) (hx : x < g.toNat) (neg : Bool) :
    ((g + UInt64.ofInt (coefficient neg x)) % g).toNat = inverse g.toNat x neg := by
  have hsum : ∀ {m : ℕ}, (g.toNat : ℤ) + coefficient neg x = m → m < 2 ^ 64 →
      ((g + UInt64.ofInt (coefficient neg x)) % g).toNat = m % g.toNat := fun {m} hm hlt => by
    have hword : g + UInt64.ofInt (coefficient neg x) = UInt64.ofNat m := by
      rw [← ofInt_natCast, ← hm, UInt64.ofInt_add, ofInt_toNat]
    rw [hword, UInt64.toNat_mod, UInt64.toNat_ofNat', Nat.mod_eq_of_lt hlt]
  cases neg
  · rw [hsum (m := x + g.toNat) (by simp only [coefficient]; push_cast; ring_nf) (by omega),
      Nat.add_mod_right, Nat.mod_eq_of_lt hx]
    rfl
  · rw [hsum (m := g.toNat - x) (by simp only [coefficient, if_true]; omega) (by omega),
      Nat.mod_eq_of_lt (by omega)]
    rfl

theorem rsa_returns (he : 0 < e.toNat) (hlt : e.toNat < ((p - 1) * (q - 1)).toNat)
    (hg : ((p - 1) * (q - 1)).toNat < 2 ^ 63) (hcoprime : ((p - 1) * (q - 1)).toNat.gcd e.toNat = 1) :
    ∃ r, (rsa p q e).Returns r ∧ e.toNat * r.toNat ≡ 1 [MOD ((p - 1) * (q - 1)).toNat]
      ∧ r.toNat < ((p - 1) * (q - 1)).toNat := by
  have hne : (p - 1) * (q - 1) ≠ 0 := fun hzero => by
    rw [hzero] at hlt
    exact absurd hlt (Nat.not_lt_zero _)
  obtain ⟨s, hs, ⟨N1, N2, x1, x2, neg, hheld⟩, hend⟩ := @loop_returns _ _
    (fun s : Words => !s.found) (fun s => ofExcept s.round)
    (fun s => ∃ N1 N2 x1 x2 neg, Held ((p - 1) * (q - 1)) e N1 N2 x1 x2 neg s)
    (fun s => s.n2.toNat + if s.found then 0 else 1) (fun s ⟨_, _, _, _, _, hs⟩ hopen => by
      have hopen : s.found = false := by simpa using hopen
      obtain ⟨t, N1, N2, x1, x2, neg, ht, hheld, hless⟩ := round_held hs
      refine ⟨t, yields_ofExcept.mpr ht.symm, ⟨N1, N2, x1, x2, neg, hheld⟩, ?_⟩
      simp only [hopen]
      rcases hless with ⟨hfound, hn2⟩ | ⟨hfound, hn2⟩
      · rw [hfound, hn2]
        simp
      · rw [hfound]
        simpa using hn2)
    ⟨(p - 1) * (q - 1), e, 0, 1, false⟩
    ⟨_, _, _, _, _, round_start he hlt, rfl, rfl, rfl, rfl, nofun⟩
  have hfound : s.found = true := by simpa using hend
  have hround := hheld.round
  have hvalue := toNat_corrected hg hround.size_pos hround.size_lt neg
  rw [← hheld.b2] at hvalue
  refine ⟨((p - 1) * (q - 1) + s.b2) % ((p - 1) * (q - 1)), returns_bind.mpr ⟨s, hs, ?_⟩, ?_, ?_⟩
  · rw [if_neg hne]
    exact yields_ofExcept.mpr rfl
  · rw [hvalue]
    exact hround.inverse_modEq (hheld.found hfound) hcoprime
  · rw [hvalue]
    exact (inverse_pos hround.size_pos hround.size_lt).2

lemma toNat_order (h1 : 1 < (p.toNat - 1) * (q.toNat - 1))
    (h63 : (p.toNat - 1) * (q.toNat - 1) < 2 ^ 63) :
    ((p - 1) * (q - 1)).toNat = (p.toNat - 1) * (q.toNat - 1) := by
  have hpred : ∀ x : UInt64, x.toNat - 1 ≠ 0 → (x - 1).toNat = x.toNat - 1 := fun x hx =>
    UInt64.toNat_sub_of_le x 1 (by
      rw [UInt64.le_iff_toNat_le]
      exact Nat.pos_of_ne_zero fun hzero => hx (by rw [hzero]))
  obtain ⟨hp, hq⟩ := Nat.mul_ne_zero_iff.mp (Nat.ne_of_gt (Nat.zero_lt_of_lt h1))
  rw [UInt64.toNat_mul, hpred p hp, hpred q hq]
  exact Nat.mod_eq_of_lt (h63.trans (by decide))

theorem rsa_inverse (h1 : 1 < (p.toNat - 1) * (q.toNat - 1))
    (h63 : (p.toNat - 1) * (q.toNat - 1) < 2 ^ 63)
    (hcoprime : e.toNat.Coprime ((p.toNat - 1) * (q.toNat - 1)))
    (hlt : e.toNat < (p.toNat - 1) * (q.toNat - 1)) :
    ∃ r, (rsa p q e).Returns r ∧ r.toNat * e.toNat ≡ 1 [MOD (p.toNat - 1) * (q.toNat - 1)]
      ∧ r.toNat < (p.toNat - 1) * (q.toNat - 1) := by
  have hg := toNat_order h1 h63
  have he : 0 < e.toNat := Nat.pos_of_ne_zero fun hzero => by
    rw [hzero, Nat.coprime_zero_left] at hcoprime
    omega
  obtain ⟨r, hr, hmod, hle⟩ := rsa_returns (p := p) (q := q) he (by rwa [hg]) (by rwa [hg])
    (by rw [hg, Nat.gcd_comm]; exact hcoprime)
  rw [hg] at hmod hle
  rw [Nat.mul_comm e.toNat] at hmod
  exact ⟨r, hr, hmod, hle⟩

theorem rsa_inverse_143 : ∃ r, (rsa 11 13 7).Returns r
    ∧ r.toNat * (7 : UInt64).toNat ≡ 1 [MOD ((11 : UInt64).toNat - 1) * ((13 : UInt64).toNat - 1)]
    ∧ r.toNat < ((11 : UInt64).toNat - 1) * ((13 : UInt64).toNat - 1) :=
  rsa_inverse (by decide) (by decide) (by decide) (by decide)

end MachineWords

section BigNumbers

variable {a1 a2 c t e g : BigNum} {v1 E G N1 N2 x1 x2 : ℕ} {neg : Bool} {s : Euclid}

lemma Denotes.length_le_of_lt_pow (h : Denotes a1 v1) {n : ℕ} (hn : 0 < n) (hlt : v1 < 10 ^ n) :
    a1.length ≤ n := by
  by_contra hlen
  have hle := h.pow_le (by omega)
  exact (hle.trans_lt hlt).not_ge (Nat.pow_le_pow_right (by decide) (by omega))

lemma Denotes.eq_zero_iff (h : Denotes a1 v1) : v1 = 0 ↔ a1.length = 1 ∧ a1.digit 0 = 0 := by
  constructor
  · rintro rfl
    exact ⟨h.length_eq_one, digit_eq_zero (by decide) h.pos h.value⟩
  · rintro ⟨hlen, hdigit⟩
    rw [← h.value, hlen]
    simp [value, hdigit]

lemma denotes_nought : Denotes nought 0 :=
  ⟨⟨Nat.one_pos, by decide, fun _ _ => Nat.succ_pos 9, rfl, nofun⟩, .inl rfl⟩

lemma borrow_zero (h : Denotes a1 v1) : borrow a1 .zero c = borrow a1 nought c := by
  have hpos := h.pos
  obtain ⟨n, hn⟩ : ∃ n, a1.length = n + 1 := ⟨a1.length - 1, by omega⟩
  have hfirst : counted 0 (subBoth a1 nought) 1 (c, 0) = subRest a1 0 (c, 0) := by
    change subBoth a1 nought 0 (c, 0) = subRest a1 0 (c, 0)
    rw [subBoth, subRest]
    cases a1.read 0 <;> rfl
  rw [borrow, borrow, hn]
  change (counted 0 (subRest a1) (n + 1) (c, 0) >>= _) = (counted 0 (subBoth a1 nought) 1 (c, 0) >>= _)
  rw [counted_first, hfirst, bind_assoc]
  rfl

lemma sub_zero_ok (h : Denotes a1 v1) (hpos : 0 < v1) :
    ∃ t, sub .zero a1 .zero = .ok t ∧ Signed t (-v1) := by
  have hlpos := h.pos
  obtain ⟨u, hu, hdigit, hvalue, -, hsign⟩ := borrow_ok (c := ⟨fun _ => 0, minus, 0⟩)
    h.toDigits denotes_nought.toDigits (Nat.succ_le_of_lt hlpos) (Nat.zero_le v1)
  rw [← borrow_zero h] at hu
  have hborrow : borrow a1 .zero { BigNum.zero with sign := minus } = .ok u := hu
  have hcmp : cmp .zero a1 = .ok (-1) :=
    (if_neg (Nat.not_lt_zero a1.length)).trans (if_pos hlpos)
  have htop : u.digit (a1.length - 1) ≠ 0 := by
    refine top_ne_zero (b := 10) (fun i hi => hdigit i (by omega)) ?_
    rw [Nat.sub_add_cancel hlpos, hvalue]
    exact h.pow_le_of_ne_zero hpos.ne'
  have hend : trimmed u a1.length BigNum.zero.length = .ok { u with length := a1.length } := by
    rw [trimmed, read_eq (by have := h.length_le; omega), ok_bind, if_neg htop]
  refine ⟨{ u with length := a1.length }, ?_, ?_, ?_⟩
  · rw [sub, if_neg (fun h => absurd h.1 (by decide)), if_neg h.sign, if_neg (by decide), subDigits, hcmp, ok_bind,
      if_neg (by decide), if_pos rfl, hborrow, ok_bind, hend]
  · rw [Int.natAbs_neg, Int.natAbs_natCast]
    exact ⟨⟨hlpos, h.length_le, hdigit, hvalue, zero_ne_minus⟩, .inr htop⟩
  · exact iff_of_true hsign (by omega)

-- The signs of the coefficients alternate, so their sizes are only added up.
structure Bezout (E G N1 N2 x1 x2 : ℕ) (neg : Bool) (s : Euclid) : Prop where
  round : Round G E N1 N2 x1 x2 neg
  n1 : Denotes s.n1 N1
  n2 : Denotes s.n2 N2
  b1 : s.b1 = .zero ∧ x1 = 0 ∧ neg = false ∨ 0 < x1 ∧ Signed s.b1 (coefficient (!neg) x1)
  b2 : Signed s.b2 (coefficient neg x2)
  found : s.found = true → N1 % N2 = 0

lemma Bezout.quotient_pos (h : Bezout E G N1 N2 x1 x2 neg s) : 0 < N1 / N2 :=
  Nat.div_pos h.round.lt.le h.round.pos

lemma bezout_sub {x : ℕ} (h : Bezout E G N1 N2 x1 x2 neg s) (hx : 0 < x)
    (ht : Signed t (coefficient neg x)) (hfit : x1 + x < 10 ^ 98) :
    ∃ u, sub s.b1 t .zero = .ok u ∧ Signed u (coefficient (!neg) (x1 + x)) := by
  rcases h.b1 with ⟨hzero, rfl, rfl⟩ | ⟨hpos, hb1⟩
  · obtain ⟨u, hu, hsigned⟩ := sub_zero_ok (ht.denotes (Int.natCast_nonneg x)) hx
    rw [hzero, Nat.zero_add]
    exact ⟨u, hu, hsigned⟩
  · have hnext : coefficient (!neg) (x1 + x) = coefficient (!neg) x1 - coefficient neg x := by
      have hmul := coefficient_add_mul (!neg) x1 x 1
      rw [Nat.one_mul, Nat.cast_one, Int.one_mul, coefficient_not neg x] at hmul
      rw [hmul, Int.sub_eq_add_neg]
    have hopposite := coefficient_opposite neg hpos hx
    rw [hnext]
    refine (sub_iff hb1 ht ?_).mpr ⟨fun h => ?_, fun h => ?_⟩
    · rwa [← hnext, natAbs_coefficient]
    · exact absurd (hopposite.mpr h.2) h.1.not_gt
    · exact absurd (hopposite.mp h.1) h.2.not_ge

lemma bezout_round (h : Bezout E G N1 N2 x1 x2 neg s) (hG : G < 10 ^ 48) :
    ∃ t N1' N2' x1' x2' neg', s.round.Returns t ∧ Bezout E G N1' N2' x1' x2' neg' t
      ∧ (t.found = true ∧ N2' = N2 ∨ t.found = false ∧ N2' < N2) := by
  have hround := h.round
  have hK := h.quotient_pos
  have hN1 : N1 < 10 ^ 48 := hround.le.trans_lt hG
  have hlen1 := h.n1.length_le_of_lt_pow (by decide) hN1
  have hlen2 := h.n2.length_le_of_lt_pow (by decide) (hround.lt.trans hN1)
  obtain ⟨k, w, hkw, hdiv⟩ := divt_returns (c := .zero) (w := .zero) h.n1.toDigits h.n2 hround.pos
    (by omega) (.inl h.n1) nofun
  have hk := hdiv.quotient (fun _ => rfl) nofun h.n1
  have hlenk := hk.length_le_of_lt_pow (by decide) ((Nat.div_le_self N1 N2).trans_lt hN1)
  obtain ⟨temp, htemp, hden, -⟩ := mul_denotes (c := .zero) hk h.n2 (by omega)
    (.inl ⟨hK.ne', hround.pos.ne'⟩) (fun _ => rfl) nofun
  obtain ⟨r, hr, hrden, -⟩ := sub_ok (c := .zero) h.n1 hden (Nat.div_mul_le_self N1 N2) nofun
  rw [← Nat.mod_eq_sub_div_mul] at hrden
  by_cases hdvd : N1 % N2 = 0
  · refine ⟨{ s with found := true }, N1, N2, x1, x2, neg, ?_,
      ⟨hround, h.n1, h.n2, h.b1, h.b2, fun _ => hdvd⟩, .inl ⟨rfl, rfl⟩⟩
    refine returns_bind.mpr ⟨(k, w), hkw, returns_bind.mpr ⟨temp, yields_ofExcept.mpr htemp.symm,
      returns_bind.mpr ⟨r, yields_ofExcept.mpr hr.symm, ?_⟩⟩⟩
    rw [if_pos (hrden.eq_zero_iff.mp hdvd)]
    exact yields_pure.mpr rfl
  · have hnext := hround.next hdvd
    have hb2len := h.b2.size.length_le_of_lt_pow (n := 48) (by decide) (by
      rw [natAbs_coefficient]
      exact hround.size_lt.trans hG)
    obtain ⟨temp', htemp', hsigned⟩ := mul_signed hk.signed h.b2 (Int.natCast_ne_zero.mpr hK.ne') (by
      rw [← Int.natAbs_ne_zero, natAbs_coefficient]
      exact hround.size_pos.ne') (by simp only at hb2len; omega)
    rw [← coefficient_mul] at hsigned
    obtain ⟨b2, hb2, hb2signed⟩ := bezout_sub h (Nat.mul_pos hK hround.size_pos) hsigned
      (hnext.size_lt.trans (hG.trans (by decide)))
    refine ⟨⟨s.n2, r, s.b2, b2, false⟩, N2, N1 % N2, x2, x1 + N1 / N2 * x2, !neg, ?_,
      ⟨hnext, h.n2, hrden, .inr ⟨hround.size_pos, ?_⟩, hb2signed, nofun⟩, .inr ⟨rfl, hnext.lt⟩⟩
    · refine returns_bind.mpr ⟨(k, w), hkw, returns_bind.mpr ⟨temp, yields_ofExcept.mpr htemp.symm,
        returns_bind.mpr ⟨r, yields_ofExcept.mpr hr.symm, ?_⟩⟩⟩
      rw [if_neg (hrden.eq_zero_iff.not.mp hdvd)]
      exact returns_bind.mpr ⟨temp', yields_ofExcept.mpr htemp'.symm,
        returns_bind.mpr ⟨b2, yields_ofExcept.mpr hb2.symm, yields_pure.mpr rfl⟩⟩
    · rw [Bool.not_not]
      exact h.b2

lemma corrected_ok (hg : Denotes g G) (hG : G < 10 ^ 48) (hb2 : Signed a2 (coefficient neg x2))
    (hpos : 0 < x2) (hlt : x2 < G) : ∃ t k d, add a2 g .zero = .ok t
      ∧ (divt t g .zero .zero).Returns (k, d) ∧ Denotes d (inverse G x2 neg) := by
  have hsize := natAbs_coefficient neg x2
  have hfit : (coefficient neg x2 + G).natAbs < 10 ^ 97 := by
    have hpow : 2 * 10 ^ 48 < 10 ^ 97 := by decide
    omega
  obtain ⟨t, ht, hsigned⟩ := (add_iff hb2 hg.signed (hfit.trans (by decide))).mpr
    ⟨fun _ hless => by rw [hsize] at hless; exact absurd hlt (not_lt.mpr hless.le),
      fun h => absurd h.2 (Int.natCast_nonneg G).not_gt⟩
  have hden := hsigned.denotes (by omega)
  obtain ⟨k, d, hd, hdiv⟩ := divt_returns (c := .zero) (w := .zero) hden.toDigits hg
    (Nat.zero_lt_of_lt hlt) (hden.length_le_of_lt_pow (by decide) hfit) (.inl hden) nofun
  refine ⟨t, k, d, ht, hd, ?_⟩
  have hmod : (coefficient neg x2 + G).natAbs % G = inverse G x2 neg := by
    cases neg
    · have hsum : (coefficient false x2 + G).natAbs = x2 + G := Int.natAbs_natCast (x2 + G)
      rw [hsum, Nat.add_mod_right, Nat.mod_eq_of_lt hlt]
      rfl
    · have hsum : (coefficient true x2 + G).natAbs = G - x2 := by
        simp only [coefficient, if_true]
        omega
      rw [hsum, Nat.mod_eq_of_lt (by omega)]
      rfl
  rw [← hmod]
  exact hdiv.normal hden

theorem rsad_returns (he : Denotes e E) (hg : Denotes g G) (hpos : 0 < E) (hlt : E < G)
    (hG : G < 10 ^ 48) (hcoprime : G.gcd E = 1) :
    ∃ d D, (rsad e g).Returns d ∧ Denotes d D ∧ E * D ≡ 1 [MOD G] ∧ 0 < D ∧ D < G := by
  obtain ⟨s, hs, ⟨N1, N2, x1, x2, neg, hbez⟩, hend⟩ := @loop_returns _ _
    (fun s : Euclid => !s.found) Euclid.round
    (fun s => ∃ N1 N2 x1 x2 neg, Bezout E G N1 N2 x1 x2 neg s)
    (fun s => value 10 s.n2.digit s.n2.length + if s.found then 0 else 1)
    (fun s ⟨N1, N2, _, _, _, hs⟩ hopen => by
      have hopen : s.found = false := by simpa using hopen
      obtain ⟨t, N1', N2', x1, x2, neg, ht, hbez, hless⟩ := bezout_round hs hG
      refine ⟨t, ht, ⟨N1', N2', x1, x2, neg, hbez⟩, ?_⟩
      simp only [hopen, hs.n2.value, hbez.n2.value]
      rcases hless with ⟨hfound, rfl⟩ | ⟨hfound, hn2⟩
      · rw [hfound]
        simp
      · rw [hfound]
        simpa using hn2)
    ⟨g, e, .zero, one, false⟩ ⟨_, _, _, _, _, round_start hpos hlt, hg, he, .inl ⟨rfl, rfl, rfl⟩,
      denotes_one.signed, nofun⟩
  have hfound : s.found = true := by simpa using hend
  have hround := hbez.round
  obtain ⟨t, k, d, ht, hd, hden⟩ := corrected_ok hg hG hbez.b2 hround.size_pos hround.size_lt
  refine ⟨d, inverse G x2 neg, ?_, hden, hround.inverse_modEq (hbez.found hfound) hcoprime,
    inverse_pos hround.size_pos hround.size_lt⟩
  exact returns_bind.mpr ⟨s, hs, returns_bind.mpr ⟨t, yields_ofExcept.mpr ht.symm,
    returns_bind.mpr ⟨(k, d), hd, yields_pure.mpr rfl⟩⟩⟩

structure Dividends (D A B : ℕ) (s : Common) : Prop where
  a : Denotes s.a A
  b : Denotes s.b B
  pos : 0 < B
  gcd : A.gcd B = D
  a_le : s.a.length ≤ 97
  b_le : s.b.length ≤ 97

def Answers (D : ℕ) (s : Common) : Prop :=
  (s.answer = none ∧ ∃ A B, Dividends D A B s) ∨ ∃ r, s.answer = some r ∧ (r = 1 ↔ D = 1)

lemma common_round {D A B : ℕ} {s : Common} (h : Dividends D A B s) :
    ∃ t, s.round.Returns t ∧ Answers D t ∧ (t.answer.isSome = true ∧ value 10 t.b.digit t.b.length ≤ B
      ∨ t.answer = none ∧ value 10 t.b.digit t.b.length < B) := by
  have hcmp : cmp s.b one = .ok (order B 1) := cmp_eq h.b denotes_one
  by_cases hone : B = 1
  · refine ⟨{ s with answer := some 1 }, returns_bind.mpr ⟨order B 1, yields_ofExcept.mpr hcmp.symm, ?_⟩,
      .inr ⟨1, rfl, iff_of_true rfl ?_⟩, .inl ⟨rfl, h.b.value.le⟩⟩
    · rw [if_pos (order_eq_zero.mpr hone)]
      exact yields_pure.mpr rfl
    · rw [← h.gcd, hone, Nat.gcd_one_right]
  · obtain ⟨d, c, hdc, hdiv⟩ := divt_returns (c := s.d) (w := .zero) h.a.toDigits h.b h.pos h.a_le
      (.inl h.a) nofun
    have hc := hdiv.normal h.a
    have hlt := Nat.mod_lt A h.pos
    have hgcd : B.gcd (A % B) = D := by
      rw [← h.gcd, Nat.gcd_comm A B, Nat.gcd_rec B A, Nat.gcd_comm]
    have hround : s.round.Returns ⟨s.b, c, d, if order (A % B) 0 = 0 then some 0 else none⟩ := by
      refine returns_bind.mpr ⟨order B 1, yields_ofExcept.mpr hcmp.symm, ?_⟩
      rw [if_neg (order_eq_zero.not.mpr hone)]
      exact returns_bind.mpr ⟨(d, c), hdc, returns_bind.mpr ⟨order (A % B) 0,
        yields_ofExcept.mpr (cmp_eq hc denotes_nought).symm, yields_pure.mpr rfl⟩⟩
    refine ⟨_, hround, ?_⟩
    by_cases hzero : A % B = 0
    · rw [if_pos (order_eq_zero.mpr hzero)]
      refine ⟨.inr ⟨0, rfl, iff_of_false Int.zero_ne_one ?_⟩, .inl ⟨rfl, hc.value.le.trans hlt.le⟩⟩
      rwa [← hgcd, hzero, Nat.gcd_zero_right]
    · rw [if_neg (order_eq_zero.not.mpr hzero)]
      exact ⟨.inl ⟨rfl, B, A % B, h.b, hc, Nat.pos_of_ne_zero hzero, hgcd, h.b_le,
        hdiv.length_le.trans h.b_le⟩, .inr ⟨rfl, hc.value.trans_lt hlt⟩⟩

theorem coprime_returns (he : Denotes e E) (hg : Denotes g G) (hpos : 0 < E) (he97 : e.length ≤ 97)
    (hg97 : g.length ≤ 97) : ∃ r, (coprime e g).Returns r ∧ (r = 1 ↔ E.gcd G = 1) := by
  obtain ⟨s, hs, hinv, hend⟩ := @loop_returns _ _
    (fun t : Common => t.answer.isNone) Common.round (Answers (E.gcd G))
    (fun t => value 10 t.b.digit t.b.length + if t.answer.isNone then 1 else 0)
    (fun s hs hopen => by
      rcases hs with ⟨hnone, A, B, hdiv⟩ | ⟨r, hsome, -⟩
      · obtain ⟨t, ht, hans, hless⟩ := common_round hdiv
        refine ⟨t, ht, hans, ?_⟩
        simp only [hnone, hdiv.b.value]
        rcases hless with ⟨hsome, hle⟩ | ⟨hnone, hlt⟩
        · rw [Option.isNone_eq_false_iff.mpr hsome]
          simpa using Nat.lt_succ_of_le hle
        · rw [hnone]
          simpa using hlt
      · rw [hsome] at hopen
        cases hopen)
    ⟨g, e, .zero, none⟩ (.inl ⟨rfl, G, E, hg, he, hpos, Nat.gcd_comm G E, hg97, he97⟩)
  rcases hinv with ⟨hnone, -⟩ | ⟨r, hr, hiff⟩
  · rw [hnone] at hend
    cases hend
  · refine ⟨r, returns_bind.mpr ⟨s, hs, yields_pure.mpr ?_⟩, hiff⟩
    rw [hr, Option.getD_some]

theorem coprime_rsad (he : Denotes e E) (hg : Denotes g G) (h1 : 1 < E) (hlt : E < G)
    (he48 : e.length ≤ 48) (hg48 : g.length ≤ 48) :
    (∃ r, (coprime e g).Returns r ∧ (r = 1 ↔ E.gcd G = 1))
    ∧ (E.gcd G = 1 → ∃ d D, (rsad e g).Returns d ∧ Denotes d D ∧ E * D ≡ 1 [MOD G] ∧ 0 < D ∧ D < G) := by
  have hpos := Nat.zero_lt_of_lt h1
  have hG : G < 10 ^ 48 := hg.lt.trans_le (Nat.pow_le_pow_right (by decide) hg48)
  exact ⟨coprime_returns he hg hpos (by omega) (by omega), fun hcoprime =>
    rsad_returns he hg hpos hlt hG ((Nat.gcd_comm G E).trans hcoprime)⟩

theorem coprime_rsad_7 :
    (∃ r, (coprime ⟨fun i => [7].getD i 0, 0, 1⟩ ⟨fun i => [0, 2, 1].getD i 0, 0, 3⟩).Returns r
      ∧ (r = 1 ↔ Nat.gcd 7 120 = 1))
    ∧ (Nat.gcd 7 120 = 1 → ∃ d D,
      (rsad ⟨fun i => [7].getD i 0, 0, 1⟩ ⟨fun i => [0, 2, 1].getD i 0, 0, 3⟩).Returns d
        ∧ Denotes d D ∧ 7 * D ≡ 1 [MOD 120] ∧ 0 < D ∧ D < 120) :=
  coprime_rsad ⟨⟨by decide, by decide, by decide, rfl, by decide⟩, .inl rfl⟩
    ⟨⟨by decide, by decide, by decide, rfl, by decide⟩, .inr (by decide)⟩ (by decide) (by decide)
    (by decide) (by decide)

end BigNumbers

end SimpleCode.Crypto.RSA
