import SimpleCode.Crypto.RSAArithmetic
import SimpleCode.Foundations.Bytes

set_option autoImplicit false

namespace SimpleCode.Crypto.RSA

open Foundations Foundations.Comp Positional

-- The value of a signed `char`, and the `char` with that value.
def charValue (ch : UInt8) : ℤ := if ch.toNat < 128 then ch.toNat else (ch.toNat : ℤ) - 256

def charOf (value : ℤ) : UInt8 := UInt8.ofNat (value % 256).toNat

def putDigits (c k : ℕ) (a : BigNum) : BigNum :=
  if c / 10 = 0 then { a with digit := Function.update a.digit k c, length := k + 1 }
  else putDigits (c / 10) (k + 1) { a with digit := Function.update a.digit k (c % 10) }
termination_by c
decreasing_by omega

def charNumber (ch : UInt8) : BigNum :=
  putDigits (charValue ch).natAbs 0 { BigNum.zero with sign := if charValue ch < 0 then 48 else 49 }

def digitChar (x : ℕ) : UInt8 := UInt8.ofNat (x + 48)

def putChar (a : BigNum) (i : ℕ) (res : Bytes) : Except Fault Bytes := do
  .ok (res ++ [digitChar (← a.read i)])

def encodeNumber (a : BigNum) : Except Fault Bytes :=
  counted 0 (putChar a) a.length
    (UInt8.ofNat a.sign ::
      if a.length / 10 = 0 then [digitChar 0, digitChar a.length]
      else [digitChar (a.length / 10), digitChar (a.length % 10)])

def tencrypto (e n : BigNum) (text : Bytes) : Comp Fault Bytes :=
  (text.map charNumber).foldlM (fun res p => do
    let m ← expmod p e n
    let chars ← ofExcept (encodeNumber m)
    pure (res ++ chars)) []

-- `j` is 3 before the sign, 2 and 1 before the characters of the length, and 0 before a digit.
structure Parser where
  i : ℕ
  j : ℕ
  temp : ℕ
  p1 : BigNum
  nodes : List BigNum

-- Characters below `'0'` would be stored as negative numbers.
def charCell (ch : UInt8) : Except Fault ℕ :=
  if 48 ≤ ch.toNat ∧ ch.toNat < 128 then .ok ch.toNat else .error .negativeCell

def Parser.step (s : Parser) (ch : UInt8) : Except Fault Parser := do
  let c ← charCell ch
  match s.j with
  | 3 => .ok { s with p1 := { s.p1 with sign := c }, j := 2 }
  | 2 => .ok { s with temp := c - 48, j := 1 }
  | 1 => .ok { s with p1 := { s.p1 with length := s.temp * 10 + c - 48 }, j := 0 }
  | 0 => do
    let p1 ← s.p1.write s.i (c - 48)
    if s.i + 1 = p1.length then .ok ⟨0, 3, s.temp, .zero, s.nodes ++ [p1]⟩
    else .ok { s with p1 := p1, i := s.i + 1 }
  | _ => .ok s

def plainChar (m : BigNum) : UInt8 :=
  let temp : ℤ := m.digit 0 + m.digit 1 * 10 + m.digit 2 * 100
  charOf (if m.sign = 48 then 0 - temp else temp)

-- Without a complete number the chain is the node that was allocated first.
def tdecrypto (d n : BigNum) (text : Bytes) : Comp Fault Bytes := do
  let s ← ofExcept (text.foldlM Parser.step ⟨0, 3, 0, .zero, []⟩)
  let nodes := if s.nodes.isEmpty then [s.p1] else s.nodes
  nodes.foldlM (fun res p1 => do
    let m ← expmod p1 d n
    pure (res ++ [plainChar m])) []

section Characters

lemma charOf_charValue (ch : UInt8) : charOf (charValue ch) = ch := by
  have hlt := ch.toNat_lt
  refine UInt8.toNat_inj.mp ?_
  rw [charOf, charValue]
  split <;> simp <;> omega

lemma charValue_natAbs {ch : UInt8} (hch : ch ≠ 0) :
    (charValue ch).natAbs ≠ 0 ∧ (charValue ch).natAbs ≤ 128 := by
  have hlt := ch.toNat_lt
  have hne : ch.toNat ≠ 0 := fun h => hch (UInt8.toNat_inj.mp h)
  rw [charValue]
  split <;> omega

lemma digitChar_toNat {x : ℕ} (hx : x < 10) : (digitChar x).toNat = x + 48 := by
  rw [digitChar, UInt8.toNat_ofNat']
  omega

lemma putDigits_denotes (c k : ℕ) (a : BigNum) {j : ℕ} (hc : c ≠ 0) (hj : c < 10 ^ (j + 1))
    (hlen : k + j < 98) (hdigit : ∀ i < k, a.digit i < 10) (hsign : a.sign ≠ minus) :
    Denotes (putDigits c k a) (value 10 a.digit k + c * 10 ^ k) ∧ (putDigits c k a).sign = a.sign
      ∧ (putDigits c k a).length ≤ k + j + 1 := by
  have hput : ∀ x < 10, ∀ i < k + 1, Function.update a.digit k x i < 10 := fun x hx i hi => by
    by_cases hik : i = k
    · rwa [hik, Function.update_self]
    · rw [Function.update_of_ne hik]
      exact hdigit i (by omega)
  induction c, k, a using putDigits.induct generalizing j with
  | case1 c k a h =>
    have hvalue : value 10 (Function.update a.digit k c) (k + 1)
        = value 10 a.digit k + c * 10 ^ k := by
      rw [value, value_update_of_le le_rfl, Function.update_self]
    have htop : Function.update a.digit k c k ≠ 0 := by rwa [Function.update_self]
    rw [putDigits, if_pos h]
    exact ⟨⟨⟨Nat.succ_pos k, by simp only; omega, hput c (by omega), hvalue, hsign⟩, .inr htop⟩,
      rfl, by simp only; omega⟩
  | case2 c k a h ih =>
    obtain ⟨j, rfl⟩ : ∃ i, j = i + 1 := by
      refine ⟨j - 1, (Nat.sub_add_cancel (Nat.pos_of_ne_zero fun hzero => h ?_)).symm⟩
      rw [hzero] at hj
      omega
    have hj' : c / 10 < 10 ^ (j + 1) := by
      rw [pow_succ] at hj
      exact Nat.div_lt_of_lt_mul (by rwa [Nat.mul_comm])
    have hdigit' := hput (c % 10) (Nat.mod_lt _ (by decide))
    obtain ⟨hden, hs, hle⟩ := ih h hj' (by omega) hdigit' hsign (fun x hx i hi => by
      by_cases hik : i = k + 1
      · rwa [hik, Function.update_self]
      · rw [Function.update_of_ne hik]
        exact hdigit' i (by omega))
    have hvalue : value 10 (Function.update a.digit k (c % 10)) (k + 1) + c / 10 * 10 ^ (k + 1)
        = value 10 a.digit k + c * 10 ^ k := by
      rw [value, value_update_of_le le_rfl, Function.update_self, pow_succ']
      have hdiv := congrArg (· * 10 ^ k) (Nat.div_add_mod c 10)
      simp only [Nat.add_mul] at hdiv
      linarith
    rw [putDigits, if_neg h]
    simp only [hvalue] at hden
    exact ⟨hden, hs, by omega⟩

lemma charNumber_denotes {ch : UInt8} (hch : ch ≠ 0) :
    Denotes (charNumber ch) (charValue ch).natAbs ∧ (charNumber ch).length ≤ 48
      ∧ (charNumber ch).sign = if charValue ch < 0 then 48 else 49 := by
  obtain ⟨hne, hle⟩ := charValue_natAbs hch
  have hsign : (if charValue ch < 0 then 48 else 49) ≠ minus := by split <;> decide
  obtain ⟨hden, hs, hlen⟩ := putDigits_denotes (charValue ch).natAbs 0
    { BigNum.zero with sign := if charValue ch < 0 then 48 else 49 } (j := 2) hne (by omega)
    (by decide) (fun i hi => absurd hi (Nat.not_lt_zero i)) hsign
  rw [value, pow_zero, Nat.mul_one, Nat.zero_add] at hden
  exact ⟨hden, hlen.trans (by decide), hs⟩

lemma plainChar_eq {m : BigNum} {ch : UInt8} (hm : Denotes m (charValue ch).natAbs)
    (hpad : Padded m) (hch : ch ≠ 0) (hsign : m.sign = if charValue ch < 0 then 48 else 49) :
    plainChar m = ch := by
  obtain ⟨hne, hle⟩ := charValue_natAbs hch
  have hlen : m.length ≤ 3 := by
    by_contra hlt
    have hpow : 10 ^ 3 ≤ 10 ^ (m.length - 1) := Nat.pow_le_pow_right (by decide) (by omega)
    have := hpow.trans (hm.pow_le (by omega))
    omega
  have hthree : value 10 m.digit 3 = (charValue ch).natAbs := by
    rw [← hm.value]
    exact value_of_zero (fun i hi _ => hpad i hi) hlen
  simp only [value, Nat.zero_add, pow_zero, Nat.mul_one, pow_one] at hthree
  rw [plainChar, hsign]
  conv_rhs => rw [← charOf_charValue ch]
  congr 1
  split
  · rw [if_pos rfl]
    omega
  · rw [if_neg (by decide)]
    omega

end Characters

section Format

variable {m : BigNum} {v : ℕ}

def header (m : BigNum) : Bytes :=
  UInt8.ofNat m.sign ::
    if m.length / 10 = 0 then [digitChar 0, digitChar m.length]
    else [digitChar (m.length / 10), digitChar (m.length % 10)]

def digitChars (m : BigNum) (k : ℕ) : Bytes := (List.range k).map fun i => digitChar (m.digit i)

lemma digitChars_succ (m : BigNum) (k : ℕ) :
    digitChars m (k + 1) = digitChars m k ++ [digitChar (m.digit k)] := by
  rw [digitChars, List.range_succ, List.map_append]
  rfl

lemma encodeNumber_eq (hlen : m.length ≤ 98) :
    encodeNumber m = .ok (header m ++ digitChars m m.length) := by
  have hcount : ∃ t, counted 0 (putChar m) m.length (header m) = .ok t
      ∧ t = header m ++ digitChars m m.length := by
    refine counted_ok (fun k res => res = header m ++ digitChars m k) (fun k hk res hres => ?_)
      (List.append_nil _).symm
    refine ⟨_, by rw [putChar, read_eq (by omega)]; rfl, ?_⟩
    rw [hres, Nat.zero_add, digitChars_succ, List.append_assoc]
  obtain ⟨t, ht, hinv⟩ := hcount
  rw [encodeNumber]
  exact ht.trans (congrArg Except.ok hinv)

def received (m : BigNum) (k : ℕ) : BigNum :=
  ⟨fun i => if i < k then m.digit i else 0, m.sign, m.length⟩

lemma received_denotes (h : Denotes m v) : Denotes (received m m.length) v := by
  have hdigit : ∀ i < m.length, (received m m.length).digit i = m.digit i := fun i hi => if_pos hi
  refine ⟨⟨h.pos, h.length_le, fun i hi => ?_, (value_congr hdigit).trans h.value, h.sign⟩, ?_⟩
  · rw [hdigit i hi]
    exact h.digit i hi
  · rcases h.top with hone | htop
    · exact .inl hone
    · exact .inr ((hdigit _ (Nat.sub_one_lt h.pos.ne')).trans_ne htop)

lemma received_succ (m : BigNum) (k : ℕ) : (received m (k + 1))
    = { received m k with digit := Function.update (received m k).digit k (m.digit k) } := by
  rw [received, received]
  congr 1
  funext i
  by_cases hi : i = k
  · subst hi
    simp
  · rw [Function.update_of_ne hi]
    exact if_congr (by omega) rfl rfl

lemma charCell_digitChar {x : ℕ} (hx : x < 10) : charCell (digitChar x) = .ok (x + 48) := by
  rw [charCell, digitChar_toNat hx]
  exact if_pos ⟨by omega, by omega⟩

lemma parse_header (hsign : m.sign = 48 ∨ m.sign = 49) (hlen : m.length < 100) (temp : ℕ)
    (nodes : List BigNum) : (header m).foldlM Parser.step ⟨0, 3, temp, .zero, nodes⟩
      = .ok ⟨0, 0, m.length / 10, received m 0, nodes⟩ := by
  have hs : charCell (UInt8.ofNat m.sign) = .ok m.sign := by
    rcases hsign with h | h <;> rw [h] <;> rfl
  have hchars : (if m.length / 10 = 0 then [digitChar 0, digitChar m.length]
      else [digitChar (m.length / 10), digitChar (m.length % 10)])
      = [digitChar (m.length / 10), digitChar (m.length % 10)] := by
    split
    · rename_i h
      rw [h, Nat.mod_eq_of_lt (by omega)]
    · rfl
  have hempty : BigNum.zero.digit = (received m 0).digit := by
    funext i
    simp [received, BigNum.zero]
  have htens : charCell (digitChar (m.length / 10)) = .ok (m.length / 10 + 48) :=
    charCell_digitChar (by omega)
  have hones : charCell (digitChar (m.length % 10)) = .ok (m.length % 10 + 48) :=
    charCell_digitChar (Nat.mod_lt _ (by decide))
  have hlength : m.length / 10 * 10 + (m.length % 10 + 48) - 48 = m.length := by omega
  rw [header, hchars]
  simp only [List.foldlM_cons, List.foldlM_nil, Parser.step, ok_bind, hs, htens, hones, hempty,
    Nat.add_sub_cancel, hlength]
  rfl

lemma step_digit {k : ℕ} (hd : ∀ i < m.length, m.digit i < 10) (hlen : m.length ≤ 98)
    (hk : k < m.length) (temp : ℕ) (nodes : List BigNum) :
    Parser.step ⟨k, 0, temp, received m k, nodes⟩ (digitChar (m.digit k))
      = if k + 1 = m.length then .ok ⟨0, 3, temp, .zero, nodes ++ [received m (k + 1)]⟩
        else .ok ⟨k + 1, 0, temp, received m (k + 1), nodes⟩ := by
  simp only [Parser.step, charCell_digitChar (hd k hk), ok_bind, Nat.add_sub_cancel]
  rw [write_eq (by omega), ok_bind, ← received_succ]
  rfl

lemma parse_digits {k : ℕ} (hd : ∀ i < m.length, m.digit i < 10) (hlen : m.length ≤ 98)
    (hk : k < m.length) (temp : ℕ) (nodes : List BigNum) :
    (digitChars m k).foldlM Parser.step ⟨0, 0, temp, received m 0, nodes⟩
      = .ok ⟨k, 0, temp, received m k, nodes⟩ := by
  induction k with
  | zero => rfl
  | succ k ih =>
    rw [digitChars_succ, List.foldlM_append, ih (by omega), ok_bind, List.foldlM_cons,
      step_digit hd hlen (by omega), if_neg hk.ne, ok_bind]
    rfl

lemma parse_number (hm : Denotes m v) (hsign : m.sign = 48 ∨ m.sign = 49) (temp : ℕ) (nodes : List BigNum) :
    (header m ++ digitChars m m.length).foldlM Parser.step ⟨0, 3, temp, .zero, nodes⟩
      = .ok ⟨0, 3, m.length / 10, .zero, nodes ++ [received m m.length]⟩ := by
  have hlen := hm.length_le
  obtain ⟨k, hk⟩ : ∃ k, m.length = k + 1 := ⟨m.length - 1, (Nat.sub_add_cancel hm.pos).symm⟩
  have hchars := digitChars_succ m k
  rw [← hk] at hchars
  rw [List.foldlM_append, parse_header hsign (by omega), ok_bind, hchars, List.foldlM_append,
    parse_digits hm.digit (by omega) (by omega), ok_bind, List.foldlM_cons,
    step_digit hm.digit (by omega) (by omega), if_pos hk.symm, ← hk]
  rfl

end Format

section Keys

variable {p q e d v : ℕ}

lemma pow_modEq_self {r : ℕ} (hr : r.Prime) (hdvd : r - 1 ∣ e * d - 1) (hpos : 0 < e * d) :
    v ^ (e * d) ≡ v [MOD r] := by
  by_cases hv : r ∣ v
  · have hzero := (Nat.modEq_zero_iff_dvd.mpr hv)
    exact ((Nat.modEq_zero_iff_dvd.mpr (dvd_pow hv hpos.ne'))).trans hzero.symm
  · obtain ⟨k, hk⟩ := hdvd
    have hone : v ^ (r - 1) ≡ 1 [MOD r] := by
      have hcop : v.Coprime r := ((hr.coprime_iff_not_dvd).mpr hv).symm
      rw [← Nat.totient_prime hr]
      exact Nat.ModEq.pow_totient hcop
    have hexp : e * d = (r - 1) * k + 1 := by omega
    rw [hexp, pow_succ, pow_mul]
    have hpow := (hone.pow k).mul_right v
    rwa [one_pow, one_mul] at hpow

lemma exponents_pos (hp : p.Prime) (hq : q.Prime) (hpq : p ≠ q)
    (hed : e * d ≡ 1 [MOD (p - 1) * (q - 1)]) : 0 < e * d := by
  have hp2 := hp.two_le
  have hq2 := hq.two_le
  have hphi : (p - 1) * (q - 1) ≠ 1 := fun h => by
    obtain ⟨hp1, hq1⟩ := mul_eq_one.mp h
    omega
  refine Nat.pos_of_ne_zero fun hzero => hphi ?_
  rw [hzero] at hed
  exact Nat.dvd_one.mp (Nat.modEq_zero_iff_dvd.mp hed.symm)

lemma pow_mod_eq_self (hp : p.Prime) (hq : q.Prime) (hpq : p ≠ q)
    (hed : e * d ≡ 1 [MOD (p - 1) * (q - 1)]) (hv : v < p * q) : v ^ (e * d) % (p * q) = v := by
  have hpos := exponents_pos hp hq hpq hed
  have hdvd : (p - 1) * (q - 1) ∣ e * d - 1 := (Nat.modEq_iff_dvd' hpos).mp hed.symm
  have hmod : v ^ (e * d) ≡ v [MOD p * q] :=
    (Nat.modEq_and_modEq_iff_modEq_mul ((Nat.coprime_primes hp hq).mpr hpq)).mp
      ⟨pow_modEq_self hp (dvd_of_mul_right_dvd hdvd) hpos,
        pow_modEq_self hq (dvd_of_mul_left_dvd hdvd) hpos⟩
  rw [hmod, Nat.mod_eq_of_lt hv]

end Keys

section RoundTrip

structure KeyPair (p q e d : ℕ) (E D N : BigNum) : Prop where
  prime_p : p.Prime
  prime_q : q.Prime
  ne : p ≠ q
  large : 128 < p * q
  inverse : e * d ≡ 1 [MOD (p - 1) * (q - 1)]
  denotes_E : Denotes E e
  denotes_D : Denotes D d
  denotes_N : Denotes N (p * q)
  E_length : E.length ≤ 48
  D_length : D.length ≤ 48
  N_length : N.length ≤ 48

variable {p q e d : ℕ} {E D N : BigNum}

def cipherValue (p q e : ℕ) (ch : UInt8) : ℕ := (charValue ch).natAbs ^ e % (p * q)

structure Enciphers (p q e : ℕ) (N : BigNum) (ch : UInt8) (m : BigNum) : Prop where
  denotes : Denotes m (cipherValue p q e ch)
  length_le : m.length ≤ N.length
  sign : m.sign = if charValue ch < 0 then 48 else 49

lemma KeyPair.exponents (h : KeyPair p q e d E D N) : 0 < e ∧ 0 < d := by
  have hpos := exponents_pos h.prime_p h.prime_q h.ne h.inverse
  exact ⟨Nat.pos_of_mul_pos_right hpos, Nat.pos_of_mul_pos_left hpos⟩

lemma KeyPair.cipherValue_pow (h : KeyPair p q e d E D N) {ch : UInt8} (hch : ch ≠ 0) :
    cipherValue p q e ch ^ d % (p * q) = (charValue ch).natAbs := by
  obtain ⟨-, hle⟩ := charValue_natAbs hch
  rw [cipherValue, ← Nat.pow_mod, ← pow_mul]
  exact pow_mod_eq_self h.prime_p h.prime_q h.ne h.inverse (hle.trans_lt h.large)

lemma KeyPair.cipherValue_ne_zero (h : KeyPair p q e d E D N) {ch : UInt8} (hch : ch ≠ 0) :
    cipherValue p q e ch ≠ 0 := by
  intro hzero
  have hpow := h.cipherValue_pow hch
  rw [hzero, zero_pow h.exponents.2.ne', Nat.zero_mod] at hpow
  exact (charValue_natAbs hch).1 hpow.symm

lemma encrypt_char (h : KeyPair p q e d E D N) {ch : UInt8} (hch : ch ≠ 0) :
    ∃ m, (expmod (charNumber ch) E N).Returns m ∧ Enciphers p q e N ch m := by
  obtain ⟨hden, hlen, hsign⟩ := charNumber_denotes hch
  have hn : 0 < p * q := Nat.zero_lt_of_lt h.large
  obtain ⟨m, hm, hres, -, hms⟩ :=
    expmod_returns hden h.denotes_E h.denotes_N h.exponents.1 hn hlen h.E_length h.N_length
  exact ⟨m, hm, hres.normal (h.cipherValue_ne_zero hch), hres.length_le, hms.trans hsign⟩

lemma decrypt_char (h : KeyPair p q e d E D N) {ch : UInt8} {m : BigNum} (hch : ch ≠ 0)
    (hm : Enciphers p q e N ch m) :
    ∃ r, (expmod (received m m.length) D N).Returns r ∧ plainChar r = ch := by
  have hn : 0 < p * q := Nat.zero_lt_of_lt h.large
  obtain ⟨r, hr, hres, hpad, hrs⟩ := expmod_returns (received_denotes hm.denotes) h.denotes_D h.denotes_N
    h.exponents.2 hn (hm.length_le.trans h.N_length) h.D_length h.N_length
  have hplain := h.cipherValue_pow hch
  have hne := (charValue_natAbs hch).1
  rw [hplain] at hres hpad
  exact ⟨r, hr, plainChar_eq (hres.normal hne) (hpad hne) hch (hrs.trans hm.sign)⟩

lemma encrypt_chars (h : KeyPair p q e d E D N) {text : Bytes} (htext : 0 ∉ text) (res : Bytes) :
    ∃ ms, List.Forall₂ (Enciphers p q e N) text ms
      ∧ ((text.map charNumber).foldlM (fun res p => do
          let m ← expmod p E N
          let chars ← ofExcept (encodeNumber m)
          pure (res ++ chars)) res).Returns
        (res ++ ms.flatMap fun m => header m ++ digitChars m m.length) := by
  induction text generalizing res with
  | nil => exact ⟨[], .nil, yields_pure.mpr (by rw [List.flatMap_nil, List.append_nil])⟩
  | cons ch text ih =>
    obtain ⟨m, hm, hcipher⟩ := encrypt_char h (List.ne_of_not_mem_cons htext).symm
    have hlen : m.length ≤ 98 := by
      have hle := hcipher.length_le.trans h.N_length
      omega
    obtain ⟨ms, hms, hrest⟩ := ih (List.not_mem_of_not_mem_cons htext)
      (res ++ (header m ++ digitChars m m.length))
    refine ⟨m :: ms, .cons hcipher hms, ?_⟩
    rw [List.map_cons, List.foldlM_cons, List.flatMap_cons, ← List.append_assoc]
    exact returns_bind.mpr ⟨_, returns_bind.mpr ⟨m, hm, returns_bind.mpr ⟨_,
      yields_ofExcept.mpr (encodeNumber_eq hlen).symm, yields_pure.mpr rfl⟩⟩, hrest⟩

lemma parse_numbers {text : Bytes} {ms : List BigNum}
    (hms : List.Forall₂ (Enciphers p q e N) text ms) (temp : ℕ) (nodes : List BigNum) :
    ∃ temp', (ms.flatMap fun m => header m ++ digitChars m m.length).foldlM Parser.step
        ⟨0, 3, temp, .zero, nodes⟩
      = .ok ⟨0, 3, temp', .zero, nodes ++ ms.map fun m => received m m.length⟩ := by
  induction hms generalizing temp nodes with
  | nil => exact ⟨temp, by rw [List.map_nil, List.append_nil]; rfl⟩
  | @cons ch m text ms hm _ ih =>
    obtain ⟨temp', hrest⟩ := ih (m.length / 10) (nodes ++ [received m m.length])
    have hsign : m.sign = 48 ∨ m.sign = 49 := by
      rw [hm.sign]
      exact ite_eq_or_eq _ _ _
    refine ⟨temp', ?_⟩
    rw [List.flatMap_cons, List.foldlM_append, parse_number hm.denotes hsign, ok_bind, hrest,
      List.map_cons, List.append_assoc, List.singleton_append]

lemma decrypt_chars (h : KeyPair p q e d E D N) {text : Bytes} {ms : List BigNum}
    (hms : List.Forall₂ (Enciphers p q e N) text ms) (htext : 0 ∉ text) (res : Bytes) :
    ((ms.map fun m => received m m.length).foldlM (fun res p1 => do
        let m ← expmod p1 D N
        pure (res ++ [plainChar m])) res).Returns (res ++ text) := by
  induction hms generalizing res with
  | nil => exact yields_pure.mpr (by rw [List.append_nil])
  | @cons ch m text ms hm _ ih =>
    obtain ⟨r, hr, hplain⟩ := decrypt_char h (List.ne_of_not_mem_cons htext).symm hm
    have hrest := ih (List.not_mem_of_not_mem_cons htext) (res ++ [ch])
    rw [List.append_assoc, List.singleton_append] at hrest
    rw [List.map_cons, List.foldlM_cons]
    exact returns_bind.mpr ⟨_, returns_bind.mpr ⟨r, hr, yields_pure.mpr rfl⟩, by rwa [hplain]⟩

theorem text_round_trip (h : KeyPair p q e d E D N) {text : Bytes} (hne : text ≠ [])
    (htext : 0 ∉ text) :
    ∃ cipher, (tencrypto E N text).Returns cipher ∧ (tdecrypto D N cipher).Returns text := by
  obtain ⟨ms, hms, henc⟩ := encrypt_chars h htext []
  obtain ⟨temp, hparse⟩ := parse_numbers hms 0 []
  have hnodes : (ms.map fun m => received m m.length) ≠ [] := by
    intro hnil
    rw [List.map_eq_nil_iff.mp hnil, List.forall₂_nil_right_iff] at hms
    exact hne hms
  have hdec := decrypt_chars h hms htext []
  refine ⟨_, henc, returns_bind.mpr ⟨_, yields_ofExcept.mpr hparse.symm, ?_⟩⟩
  simp only [List.nil_append, List.isEmpty_iff, if_neg hnodes]
  exact hdec

def ofDigits (ds : List ℕ) : BigNum := ⟨fun i => ds.getD i 0, 43, ds.length⟩

theorem text_round_trip_143 : ∃ cipher,
    (tencrypto (ofDigits [7]) (ofDigits [3, 4, 1]) [72, 233]).Returns cipher
      ∧ (tdecrypto (ofDigits [3, 0, 1]) (ofDigits [3, 4, 1]) cipher).Returns [72, 233] :=
  text_round_trip (p := 11) (q := 13) (e := 7) (d := 103)
    ⟨by norm_num, by norm_num, by decide, by decide, by decide,
      ⟨⟨by decide, by decide, by decide, rfl, by decide⟩, .inl rfl⟩,
      ⟨⟨by decide, by decide, by decide, rfl, by decide⟩, .inr (by decide)⟩,
      ⟨⟨by decide, by decide, by decide, rfl, by decide⟩, .inr (by decide)⟩,
      by decide, by decide, by decide⟩ (by decide) (by decide)

end RoundTrip

end SimpleCode.Crypto.RSA
