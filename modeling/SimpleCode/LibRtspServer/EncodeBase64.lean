import SimpleCode.Foundations.Base64
import SimpleCode.Foundations.Computation

set_option autoImplicit false

/-! The Base64 text of the parameter sets in a session description. The RTSP server has two encoders, one
that reads the source as `char`, which is signed, and one that reads it as `unsigned char`. -/

namespace SimpleCode.LibRtspServer.EncodeBase64

open Foundations

inductive Fault
  | overflow
deriving DecidableEq, Repr

def b64 : Bytes := bytes "ABCDEFGHIJKLMNOPQRSTUVWXYZabcdefghijklmnopqrstuvwxyz0123456789+/"

def uintMax : ℕ := 2 ^ 32 - 1

-- What a byte adds to the bits: as a `char`, and as an `unsigned char`.
def signedChar (c : UInt8) : UInt32 := ⟨c.toBitVec.signExtend 32⟩

def unsignedChar (c : UInt8) : UInt32 := c.toUInt32

/-- The bits that were not written yet are the last `shift` ones. -/
structure Encoder where
  bits : UInt32
  shift : ℤ
  dst : Bytes
deriving DecidableEq, Repr

def put (room : ℕ) (dst : Bytes) (c : UInt8) : Except Fault Bytes :=
  if dst.length < room then .ok (dst ++ [c]) else .error .overflow

/-- `do ... while (shift > 6 || (left == 0 && shift > 0));` -/
def putBits (room : ℕ) (last : Bool) (s : Encoder) : Except Fault Encoder := do
  let dst ← put room s.dst
    (b64.getD (s.bits <<< 6 >>> UInt32.ofNat s.shift.toNat &&& 0x3f).toNat 0)
  let shift := s.shift - 6
  if _h : 6 < shift ∨ last ∧ 0 < shift then
    putBits room last { s with
      shift
      dst }
  else .ok { s with
    shift
    dst }
termination_by s.shift.toNat

-- `while (left)`
def putBytes (char : UInt8 → UInt32) (room : ℕ) (s : Encoder) : Bytes → Except Fault Encoder
  | [] => .ok s
  | c :: src => do
    let s ← putBits room src.isEmpty { s with
      bits := s.bits <<< 8 + char c
      shift := s.shift + 8 }
    putBytes char room s src

def padded (room : ℕ) (dst : Bytes) : Except Fault Bytes :=
  if dst.length % 4 = 0 then .ok dst
  else if dst.length < room then padded room (dst ++ [61])
  else .error .overflow
termination_by 3 - (dst.length + 3) % 4
decreasing_by
  rw [List.length_append, List.length_singleton]
  omega

def encoded (char : UInt8 → UInt32) (room : ℕ) (src : Bytes) : Except Fault Bytes := do
  let s ← putBytes char room ⟨0, 0, []⟩ src
  let dst ← padded room s.dst
  let _ ← put room dst 0
  .ok dst

/-- `none` is a `NULL`; the allocation succeeds. -/
def encodeBase64 (src : Bytes) : Except Fault (Option Bytes) := do
  if uintMax / 4 ≤ src.length then .ok none
  else
    let padded := if src.length / 3 * 3 < src.length then 1 else 0
    let resSz := 4 * (src.length / 3 + padded) % 2 ^ 32
    let res ← encoded signedChar (resSz + 1) src
    .ok (some res)

-- `buf_len >= src_len * 4 / 3 + 12`, with a product that is an `int`.
def Passes (bufLen : ℤ) (srcLen : ℕ) : Prop := (Int.bmod (srcLen * 4) (2 ^ 32)).tdiv 3 + 12 ≤ bufLen

instance (bufLen : ℤ) (srcLen : ℕ) : Decidable (Passes bufLen srcLen) :=
  inferInstanceAs (Decidable (_ ≤ _))

def rtspEncodeBase64 (bufLen : ℤ) (src : Bytes) : Except Fault (Option Bytes) := do
  if uintMax / 4 ≤ src.length ∨ ¬ Passes bufLen src.length then .ok none
  else
    let ret ← encoded unsignedChar bufLen.toNat src
    .ok (some ret)

section Bits

variable {bits w : UInt32} {k r : ℕ}

lemma sextet_eq (hk : k ≤ 26) :
    (bits <<< 6 >>> UInt32.ofNat k &&& 0x3f).toNat = bits.toNat % 2 ^ k * 64 / 2 ^ k := by
  have hpow : 2 ^ 32 = 2 ^ k * (64 * 2 ^ (26 - k)) := by
    rw [show 64 = 2 ^ 6 by rfl, ← pow_add, ← pow_add]
    congr 1
    omega
  have hlt : bits.toNat % 2 ^ k * 64 / 2 ^ k < 64 := by
    rw [Nat.div_lt_iff_lt_mul (Nat.two_pow_pos k), Nat.mul_comm 64]
    exact Nat.mul_lt_mul_of_pos_right (Nat.mod_lt _ (Nat.two_pow_pos k)) (by decide)
  have hk32 : (UInt32.ofNat k).toNat % 32 = k := by
    rw [UInt32.toNat_ofNat']
    omega
  have hvalue : (bits <<< 6 >>> UInt32.ofNat k &&& 0x3f).toNat
      = bits.toNat * 64 % 2 ^ 32 / 2 ^ k % 64 := by
    rw [UInt32.toNat_and, UInt32.toNat_shiftRight, UInt32.toNat_shiftLeft, hk32,
      Nat.shiftRight_eq_div_pow, Nat.shiftLeft_eq]
    exact Nat.and_two_pow_sub_one_eq_mod _ 6
  rw [hvalue, hpow, Nat.mod_mul_right_div_self, Nat.mod_mul_right_mod]
  calc bits.toNat * 64 / 2 ^ k % 64
    _ = (2 ^ k * (bits.toNat / 2 ^ k * 64) + bits.toNat % 2 ^ k * 64) / 2 ^ k % 64 := by
      rw [← Nat.mul_assoc, ← Nat.add_mul, Nat.div_add_mod]
    _ = bits.toNat % 2 ^ k * 64 / 2 ^ k := by
      rw [Nat.mul_add_div (Nat.two_pow_pos k), Nat.mul_add_mod', Nat.mod_eq_of_lt hlt]

lemma add_mod (hk : k ≤ 24) : (bits <<< 8 + w).toNat % 2 ^ (k + 8)
    = (bits.toNat % 2 ^ k * 256 + w.toNat) % 2 ^ (k + 8) := by
  have hdvd : 2 ^ (k + 8) ∣ 2 ^ 32 := Nat.pow_dvd_pow 2 (by omega)
  have hvalue : (bits <<< 8 + w).toNat = (bits.toNat * 256 % 2 ^ 32 + w.toNat) % 2 ^ 32 := by
    rw [UInt32.toNat_add, UInt32.toNat_shiftLeft, Nat.shiftLeft_eq]
    rfl
  have hhigh : bits.toNat * 256 ≡ bits.toNat % 2 ^ k * 256 [MOD 2 ^ (k + 8)] := by
    rw [pow_add]
    exact (Nat.mod_modEq _ _).symm.mul_right' 256
  rw [hvalue, Nat.mod_mod_of_dvd _ hdvd]
  exact (((Nat.mod_modEq _ _).of_dvd hdvd).trans hhigh).add_right _

end Bits

section Sextets

structure Pending (s : Encoder) (k r : ℕ) : Prop where
  shift : s.shift = k
  value : s.bits.toNat % 2 ^ k = r

variable {char : UInt8 → UInt32} {β : UInt8 → ℕ} {room k r : ℕ} {last : Bool} {s : Encoder} {c : UInt8}

lemma put_eq {dst : Bytes} (h : dst.length < room) : put room dst c = .ok (dst ++ [c]) := if_pos h

lemma putBits_eq (h : Pending s k r) (hk : k ≤ 26) (hroom : s.dst.length < room) :
    putBits room last s = if 6 < (k - 6 : ℤ) ∨ last ∧ 0 < (k - 6 : ℤ) then
        putBits room last { s with
          shift := k - 6
          dst := s.dst ++ [Base64.digit (r * 64 / 2 ^ k)] }
      else .ok { s with
        shift := k - 6
        dst := s.dst ++ [Base64.digit (r * 64 / 2 ^ k)] } := by
  rw [putBits, h.shift, Int.toNat_natCast, sextet_eq hk, h.value, put_eq hroom]
  rfl

lemma Pending.next (h : Pending s k r) (hk : 6 ≤ k) (dst : Bytes) :
    Pending { s with
      shift := k - 6
      dst } (k - 6) (r % 2 ^ (k - 6)) := by
  refine ⟨?_, ?_⟩
  · simp only
    omega
  · rw [← h.value, Nat.mod_mod_of_dvd _ (Nat.pow_dvd_pow 2 (Nat.sub_le k 6))]

lemma putBits_one (h : Pending s (k + 6) r) (hk : 0 < k) (hk' : k ≤ 6) (hroom : s.dst.length < room) :
    ∃ t, putBits room false s = .ok t ∧ Pending t k (r % 2 ^ k)
      ∧ t.dst = s.dst ++ [Base64.digit (r / 2 ^ k)] := by
  have hdigit : r * 64 / 2 ^ (k + 6) = r / 2 ^ k := by
    rw [pow_add]
    exact Nat.mul_div_mul_right r (2 ^ k) (by decide)
  refine ⟨_, ?_, h.next (Nat.le_add_left 6 k) _, rfl⟩
  rw [putBits_eq h (by omega) hroom, if_neg (by simp; omega), hdigit]

lemma putBits_two (h : Pending s 14 r) (hroom : s.dst.length + 1 < room) :
    ∃ t, putBits room false s = .ok t ∧ Pending t 2 (r % 4)
      ∧ t.dst = s.dst ++ [Base64.digit (r / 256), Base64.digit (r % 256 / 4)] := by
  have hdigit : r * 64 / 2 ^ 14 = r / 256 := Nat.mul_div_mul_right r 256 (by decide : 0 < 64)
  have hnext := h.next (by decide) (s.dst ++ [Base64.digit (r / 256)])
  obtain ⟨t, ht, hpending, hdst⟩ := putBits_one hnext (by decide) (by decide) (by simpa using hroom)
  refine ⟨t, ?_, ?_, ?_⟩
  · rw [putBits_eq h (by decide) (by omega), if_pos (.inl (by decide)), hdigit]
    exact ht
  · rwa [Nat.mod_mod_of_dvd r (by decide : 2 ^ 2 ∣ 2 ^ 8)] at hpending
  · rw [hdst, List.append_assoc]
    rfl

lemma putBits_rest (h : Pending s k r) (hk : 0 < k) (hk' : k ≤ 6) (hroom : s.dst.length < room) :
    ∃ t, putBits room true s = .ok t ∧ t.dst = s.dst ++ [Base64.digit (r * 64 / 2 ^ k)] := by
  refine ⟨{ s with
    shift := k - 6
    dst := s.dst ++ [Base64.digit (r * 64 / 2 ^ k)] }, ?_, rfl⟩
  rw [putBits_eq h (by omega) hroom, if_neg (by simp; omega)]

lemma putBits_last {t : Encoder} (h : Pending s k r) (hk : 6 < k) (hk' : k ≤ 14)
    (ht : putBits room false s = .ok t) : putBits room true s = putBits room true t := by
  induction k using Nat.strong_induction_on generalizing s r with
  | _ k ih =>
    by_cases hroom : s.dst.length < room
    · rw [putBits_eq h (by omega) hroom] at ht
      rw [putBits_eq h (by omega) hroom]
      by_cases hmore : 6 < (k - 6 : ℤ)
      · rw [if_pos (.inl hmore)] at ht ⊢
        exact ih (k - 6) (by omega) (h.next (by omega) _) (by omega) (by omega) ht
      · rw [if_neg (by simpa using hmore)] at ht
        rw [if_pos (.inr ⟨rfl, by omega⟩), Except.ok.inj ht]
    · rw [putBits, put, if_neg hroom] at ht
      cases ht

structure Borrows (char : UInt8 → UInt32) (β : UInt8 → ℕ) : Prop where
  le_one : ∀ c, β c ≤ 1
  value : ∀ c, (char c).toNat + 256 * β c = c.toNat + 2 ^ 32 * β c

def less (k r b : ℕ) : ℕ := (r + 2 ^ k - b) % 2 ^ k

lemma less_lt (k r b : ℕ) : less k r b < 2 ^ k := Nat.mod_lt _ (Nat.two_pow_pos k)

lemma less_zero (hr : r < 2 ^ k) : less k r 0 = r := by
  rw [less, Nat.sub_zero, Nat.add_mod_right, Nat.mod_eq_of_lt hr]

lemma less_one_ne (hk : 0 < k) (hr : r < 2 ^ k) : less k r 1 ≠ r := by
  have hpow : 2 ^ 1 ≤ 2 ^ k := Nat.pow_le_pow_right (by decide) hk
  rw [less]
  rcases Nat.eq_zero_or_pos r with rfl | hpos
  · rw [Nat.zero_add, Nat.mod_eq_of_lt (by omega)]
    omega
  · rw [Nat.sub_add_comm hpos, Nat.add_mod_right, Nat.mod_eq_of_lt (by omega)]
    omega

lemma less_add {b : ℕ} (hb : b ≤ 1) : less k r b + b ≡ r [MOD 2 ^ k] := by
  have hpow := Nat.two_pow_pos k
  calc less k r b + b
    _ ≡ r + 2 ^ k - b + b [MOD 2 ^ k] := (Nat.mod_modEq _ _).add_right b
    _ = r + 2 ^ k := Nat.sub_add_cancel (by omega)
    _ ≡ r [MOD 2 ^ k] := Nat.add_mod_right r (2 ^ k)

def Encoder.add (s : Encoder) (char : UInt8 → UInt32) (c : UInt8) : Encoder :=
  { s with
    bits := s.bits <<< 8 + char c
    shift := s.shift + 8 }

lemma Pending.add (h : Pending s k r) (hchar : Borrows char β) (hk : k ≤ 24) (c : UInt8) :
    Pending (s.add char c) (k + 8) (less k r (β c) * 256 + c.toNat) := by
  refine ⟨?_, ?_⟩
  · change s.shift + 8 = _
    rw [h.shift]
    rfl
  have hlt : less k r (β c) * 256 + c.toNat < 2 ^ (k + 8) := by
    have hless := less_lt k r (β c)
    have hc := c.toNat_lt
    rw [pow_add]
    omega
  have hdvd : 2 ^ (k + 8) ∣ 2 ^ 32 := Nat.pow_dvd_pow 2 (by omega)
  have hhigh : (less k r (β c) + β c) * 256 ≡ r * 256 [MOD 2 ^ (k + 8)] := by
    rw [pow_add]
    exact (less_add (hchar.le_one c)).mul_right' 256
  have hzero : 2 ^ 32 * β c ≡ 0 [MOD 2 ^ (k + 8)] :=
    (Nat.modEq_zero_iff_dvd.mpr (hdvd.mul_right _))
  have hvalue := hchar.value c
  have hcancel : r * 256 + (char c).toNat + 256 * β c
      ≡ less k r (β c) * 256 + c.toNat + 256 * β c [MOD 2 ^ (k + 8)] := by
    calc r * 256 + (char c).toNat + 256 * β c
      _ = r * 256 + (c.toNat + 2 ^ 32 * β c) := by rw [Nat.add_assoc, hvalue]
      _ ≡ (less k r (β c) + β c) * 256 + (c.toNat + 0) [MOD 2 ^ (k + 8)] :=
        hhigh.symm.add (hzero.add_left _)
      _ = less k r (β c) * 256 + c.toNat + 256 * β c := by ring
  change (s.bits <<< 8 + char c).toNat % 2 ^ (k + 8) = _
  rw [add_mod hk, h.value, Nat.ModEq.add_right_cancel' _ hcancel, Nat.mod_eq_of_lt hlt]

-- What is still to be written of the bytes before, when `k` is 6.
def carry (k r : ℕ) : List ℕ := if k = 6 then [r] else []

def sextets (β : UInt8 → ℕ) (k r : ℕ) : Bytes → List ℕ
  | [] => carry k r
  | [a] => carry k (less 6 r (β a)) ++ [a.toNat / 4, a.toNat % 4 * 16]
  | [a, b] => carry k (less 6 r (β a))
      ++ [a.toNat / 4, less 2 (a.toNat % 4) (β b) * 16 + b.toNat / 16, b.toNat % 16 * 4]
  | a :: b :: c :: src => carry k (less 6 r (β a))
      ++ a.toNat / 4 :: (less 2 (a.toNat % 4) (β b) * 16 + b.toNat / 16)
        :: (less 4 (b.toNat % 16) (β c) * 4 + c.toNat / 64) :: sextets β 6 (c.toNat % 64) src

lemma first_byte (hchar : Borrows char β) (h : Pending s k r) (hk : k = 0 ∨ k = 6)
    (hroom : s.dst.length + 1 < room) : ∃ t, putBits room false (s.add char c) = .ok t
      ∧ Pending t 2 (c.toNat % 4) ∧ t.dst = s.dst
        ++ (carry k (less 6 r (β c)) ++ [c.toNat / 4]).map Base64.digit := by
  have hadd := h.add hchar (by omega) c
  have hc := c.toNat_lt
  rcases hk with rfl | rfl
  · have hless := less_lt 0 r (β c)
    rw [Nat.lt_one_iff.mp hless, Nat.zero_mul, Nat.zero_add, Nat.zero_add] at hadd
    obtain ⟨t, ht, hpending, hdst⟩ := putBits_one (k := 2) hadd (by decide) (by decide) (Nat.lt_of_succ_lt hroom)
    exact ⟨t, ht, hpending, hdst⟩
  · obtain ⟨t, ht, hpending, hdst⟩ := putBits_two hadd hroom
    have hfirst : (less 6 r (β c) * 256 + c.toNat) / 256 = less 6 r (β c) := by omega
    have hsecond : (less 6 r (β c) * 256 + c.toNat) % 256 / 4 = c.toNat / 4 := by omega
    have hrest : (less 6 r (β c) * 256 + c.toNat) % 4 = c.toNat % 4 := by omega
    rw [hfirst, hsecond] at hdst
    exact ⟨t, ht, hrest ▸ hpending, hdst⟩

lemma second_byte (hchar : Borrows char β) (h : Pending s 2 r) (hroom : s.dst.length < room) :
    ∃ t, putBits room false (s.add char c) = .ok t ∧ Pending t 4 (c.toNat % 16)
      ∧ t.dst = s.dst ++ [Base64.digit (less 2 r (β c) * 16 + c.toNat / 16)] := by
  obtain ⟨t, ht, hpending, hdst⟩ := putBits_one (k := 4) (h.add hchar (by decide) c) (by decide) (by decide) hroom
  have hdigit : (less 2 r (β c) * 256 + c.toNat) / 2 ^ 4 = less 2 r (β c) * 16 + c.toNat / 16 := by omega
  have hrest : (less 2 r (β c) * 256 + c.toNat) % 2 ^ 4 = c.toNat % 16 := by omega
  exact ⟨t, ht, hrest ▸ hpending, hdigit ▸ hdst⟩

lemma third_byte (hchar : Borrows char β) (h : Pending s 4 r) (hroom : s.dst.length < room) :
    ∃ t, putBits room false (s.add char c) = .ok t ∧ Pending t 6 (c.toNat % 64)
      ∧ t.dst = s.dst ++ [Base64.digit (less 4 r (β c) * 4 + c.toNat / 64)] := by
  obtain ⟨t, ht, hpending, hdst⟩ := putBits_one (k := 6) (h.add hchar (by decide) c) (by decide) (by decide) hroom
  have hdigit : (less 4 r (β c) * 256 + c.toNat) / 2 ^ 6 = less 4 r (β c) * 4 + c.toNat / 64 := by omega
  have hrest : (less 4 r (β c) * 256 + c.toNat) % 2 ^ 6 = c.toNat % 64 := by omega
  exact ⟨t, ht, hrest ▸ hpending, hdigit ▸ hdst⟩

lemma putBytes_nil : putBytes char room s [] = .ok s := rfl

lemma putBytes_cons (src : Bytes) : putBytes char room s (c :: src)
    = putBits room src.isEmpty (s.add char c) >>= fun t => putBytes char room t src := rfl

lemma putBytes_last {t : Encoder} (hs : Pending (s.add char c) k r) (hk : 6 < k) (hk' : k ≤ 14)
    (ht : putBits room false (s.add char c) = .ok t) {j q : ℕ} (hpending : Pending t j q) (hj : 0 < j)
    (hj' : j ≤ 6) (hroom : t.dst.length < room) :
    ∃ u, putBytes char room s [c] = .ok u ∧ u.dst = t.dst ++ [Base64.digit (q * 64 / 2 ^ j)] := by
  obtain ⟨u, hu, hdst⟩ := putBits_rest hpending hj hj' hroom
  refine ⟨u, ?_, hdst⟩
  rw [putBytes_cons, List.isEmpty_nil, putBits_last hs hk hk' ht, hu, ok_bind, putBytes_nil]

theorem putBytes_eq (hchar : Borrows char β) (src : Bytes) (hsrc : src ≠ []) (hk : k = 0 ∨ k = 6)
    (h : Pending s k r) (hroom : s.dst.length + (sextets β k r src).length ≤ room) :
    ∃ t, putBytes char room s src = .ok t
      ∧ t.dst = s.dst ++ (sextets β k r src).map Base64.digit := by
  fun_induction sextets β k r src generalizing s with
  | case1 => exact absurd rfl hsrc
  | case2 k r a =>
    simp only [List.length_append, List.length_cons, List.length_nil] at hroom
    obtain ⟨t, ht, hpending, hdst⟩ := first_byte (c := a) hchar h hk (show _ + 1 < room by omega)
    obtain ⟨u, hu, hudst⟩ := putBytes_last (h.add hchar (by omega) a) (by omega) (by omega) ht hpending
      (by decide) (by decide) (by
        rw [hdst, List.length_append, List.length_map, List.length_append, List.length_singleton]
        omega)
    refine ⟨u, hu, ?_⟩
    have hdigit : a.toNat % 4 * 64 / 2 ^ 2 = a.toNat % 4 * 16 := by omega
    rw [hudst, hdst, hdigit]
    simp only [List.map_append, List.map_cons, List.map_nil, List.append_assoc, List.cons_append,
      List.nil_append]
  | case3 k r a b =>
    simp only [List.length_append, List.length_cons, List.length_nil] at hroom
    obtain ⟨t, ht, hpending, hdst⟩ := first_byte (c := a) hchar h hk (show _ + 1 < room by omega)
    have hlen : t.dst.length + 2 ≤ room := by
      rw [hdst, List.length_append, List.length_map, List.length_append, List.length_singleton]
      omega
    obtain ⟨u, hu, hupending, hudst⟩ := second_byte (c := b) hchar hpending (show _ < room by omega)
    obtain ⟨v, hv, hvdst⟩ := putBytes_last (hpending.add hchar (by decide) b) (by decide) (by decide) hu
      hupending (by decide) (by decide) (by
        rw [hudst, List.length_append, List.length_singleton]
        omega)
    refine ⟨v, ?_, ?_⟩
    · rw [putBytes_cons]
      change putBits room false _ >>= _ = _
      rw [ht, ok_bind, hv]
    · have hdigit : b.toNat % 16 * 64 / 2 ^ 4 = b.toNat % 16 * 4 := by omega
      rw [hvdst, hudst, hdst, hdigit]
      simp only [List.map_append, List.map_cons, List.map_nil, List.append_assoc, List.cons_append,
        List.nil_append]
  | case4 k r a b c src ih =>
    simp only [List.length_append, List.length_cons] at hroom
    obtain ⟨t, ht, hpending, hdst⟩ := first_byte (c := a) hchar h hk (show _ + 1 < room by omega)
    have hlen : t.dst.length = s.dst.length
        + ((carry k (less 6 r (β a))).length + 1) := by
      rw [hdst, List.length_append, List.length_map, List.length_append, List.length_singleton]
    obtain ⟨u, hu, hupending, hudst⟩ := second_byte (c := b) hchar hpending (show _ < room by omega)
    have hulen : u.dst.length = t.dst.length + 1 := by rw [hudst, List.length_append, List.length_singleton]
    obtain ⟨v, hv, hvpending, hvdst⟩ := third_byte (c := c) hchar hupending (show _ < room by omega)
    have hvlen : v.dst.length = u.dst.length + 1 := by rw [hvdst, List.length_append, List.length_singleton]
    have hrest : ∃ w, putBytes char room u (c :: src) = .ok w
        ∧ w.dst = v.dst ++ (sextets β 6 (c.toNat % 64) src).map Base64.digit := by
      by_cases hnil : src = []
      · subst hnil
        have hone : (sextets β 6 (c.toNat % 64) []).length = 1 := rfl
        obtain ⟨w, hw, hwdst⟩ := putBytes_last (hupending.add hchar (by decide) c) (by decide) (by decide)
          hv hvpending (by decide) (by decide) (by omega)
        have hdigit : c.toNat % 64 * 64 / 2 ^ 6 = c.toNat % 64 := Nat.mul_div_cancel _ (by decide)
        exact ⟨w, hw, hdigit ▸ hwdst⟩
      · obtain ⟨w, hw, hwdst⟩ := ih hnil (.inr rfl) hvpending (by omega)
        refine ⟨w, ?_, hwdst⟩
        rw [putBytes_cons, List.isEmpty_eq_false_iff.mpr hnil, hv, ok_bind, hw]
    obtain ⟨w, hw, hwdst⟩ := hrest
    refine ⟨w, ?_, ?_⟩
    · rw [putBytes_cons]
      change putBits room false _ >>= _ = _
      rw [ht, ok_bind, putBytes_cons]
      change putBits room false _ >>= _ = _
      rw [hu, ok_bind, hw]
    · rw [hwdst, hvdst, hudst, hdst]
      simp only [List.map_append, List.map_cons, List.map_nil, List.append_assoc, List.cons_append,
        List.nil_append]

end Sextets

section Text

variable {β : UInt8 → ℕ} {k r room : ℕ} {src : Bytes}

def plain : Bytes → List ℕ
  | [] => []
  | [a] => [a.toNat / 4, a.toNat % 4 * 16]
  | [a, b] => [a.toNat / 4, a.toNat % 4 * 16 + b.toNat / 16, b.toNat % 16 * 4]
  | a :: b :: c :: src => a.toNat / 4 :: (a.toNat % 4 * 16 + b.toNat / 16)
      :: (b.toNat % 16 * 4 + c.toNat / 64) :: c.toNat % 64 :: plain src

def pads (src : Bytes) : Bytes := List.replicate ((3 - src.length % 3) % 3) Base64.pad

lemma length_carry (v : ℕ) : (carry k v).length = (carry k r).length := by
  rw [carry, carry]
  split_ifs <;> rfl

lemma length_plain (src : Bytes) : (plain src).length = (4 * src.length + 2) / 3 := by
  fun_induction plain src with
  | case1 | case2 | case3 => simp
  | case4 a b c src ih =>
    simp only [List.length_cons, ih]
    omega

lemma length_sextets (src : Bytes) :
    (sextets β k r src).length = (carry k r).length + (plain src).length := by
  fun_induction sextets β k r src with
  | case1 k r => rfl
  | case2 k r a | case3 k r a b =>
    rw [List.length_append, length_carry (r := r)]
    rfl
  | case4 k r a b c src ih =>
    have hcarry : (carry 6 (c.toNat % 64)).length = 1 := rfl
    simp only [List.length_append, List.length_cons, plain, ih, length_carry (k := k) (r := r) (less 6 r (β a)),
      hcarry]
    omega

lemma carry_lt {v : ℕ} (hr : r < 64) (hv : v ∈ carry k r) : v < 64 := by
  rw [carry] at hv
  split_ifs at hv
  · rwa [List.mem_singleton.mp hv]
  · cases hv

lemma sextets_lt (src : Bytes) (hr : r < 64) : ∀ v ∈ sextets β k r src, v < 64 := by
  intro v hv
  fun_induction sextets β k r src with
  | case1 k r => exact carry_lt hr hv
  | case2 k r a =>
    have ha := a.toNat_lt
    simp only [List.mem_append, List.mem_cons, List.not_mem_nil, or_false] at hv
    rcases hv with hv | rfl | rfl
    · exact carry_lt (less_lt 6 r (β a)) hv
    · omega
    · omega
  | case3 k r a b =>
    have ha := a.toNat_lt
    have hb := b.toNat_lt
    have hless := less_lt 2 (a.toNat % 4) (β b)
    simp only [List.mem_append, List.mem_cons, List.not_mem_nil, or_false] at hv
    rcases hv with hv | rfl | rfl | rfl
    · exact carry_lt (less_lt 6 r (β a)) hv
    · omega
    · omega
    · omega
  | case4 k r a b c src ih =>
    have ha := a.toNat_lt
    have hb := b.toNat_lt
    have hc := c.toNat_lt
    have hless := less_lt 2 (a.toNat % 4) (β b)
    have hless' := less_lt 4 (b.toNat % 16) (β c)
    simp only [List.mem_append, List.mem_cons] at hv
    rcases hv with hv | rfl | rfl | rfl | hv
    · exact carry_lt (less_lt 6 r (β a)) hv
    · omega
    · omega
    · omega
    · exact ih (Nat.mod_lt _ (by decide)) hv

lemma less_eq_iff (hk : 0 < k) (hr : r < 2 ^ k) {b : ℕ} (hb : b ≤ 1) : less k r b = r ↔ b = 0 := by
  refine ⟨fun h => ?_, fun h => h ▸ less_zero hr⟩
  rcases Nat.le_one_iff_eq_zero_or_eq_one.mp hb with rfl | rfl
  · rfl
  · exact absurd h (less_one_ne hk hr)

lemma carry_eq_iff (hr : r < 64) {b : ℕ} (hb : b ≤ 1) :
    carry k (less 6 r b) = carry k r ↔ (k = 6 → b = 0) := by
  rw [carry, carry]
  split_ifs with hk
  · rw [List.singleton_inj, less_eq_iff (by decide) hr hb]
    exact (forall_prop_of_true (q := fun _ => b = 0) hk).symm
  · exact iff_of_true rfl (fun h => absurd h hk)

lemma second_eq_iff (hβ : ∀ c, β c ≤ 1) (a b : UInt8) :
    less 2 (a.toNat % 4) (β b) * 16 + b.toNat / 16 = a.toNat % 4 * 16 + b.toNat / 16 ↔ β b = 0 := by
  rw [Nat.add_right_cancel_iff, Nat.mul_left_inj (by decide)]
  exact less_eq_iff (by decide) (Nat.mod_lt _ (by decide)) (hβ b)

lemma third_eq_iff (hβ : ∀ c, β c ≤ 1) (b c : UInt8) :
    less 4 (b.toNat % 16) (β c) * 4 + c.toNat / 64 = b.toNat % 16 * 4 + c.toNat / 64 ↔ β c = 0 := by
  rw [Nat.add_right_cancel_iff, Nat.mul_left_inj (by decide)]
  exact less_eq_iff (by decide) (Nat.mod_lt _ (by decide)) (hβ c)

-- A borrow shows of each byte that bits are left before: all but a first one that nothing precedes.
lemma sextets_eq_iff (hβ : ∀ c, β c ≤ 1) (src : Bytes) (hr : r < 64) :
    sextets β k r src = carry k r ++ plain src
      ↔ (∀ c ∈ src.head?, k = 6 → β c = 0) ∧ ∀ c ∈ src.tail, β c = 0 := by
  fun_induction sextets β k r src with
  | case1 k r => simp [plain]
  | case2 k r a =>
    rw [plain, List.append_left_inj, carry_eq_iff hr (hβ a)]
    simp
  | case3 k r a b =>
    rw [plain, List.append_eq_append_iff_of_size_eq_left (length_carry _), carry_eq_iff hr (hβ a),
      List.cons_inj_right, List.cons_eq_cons, second_eq_iff hβ]
    simp
  | case4 k r a b c src ih =>
    have hrest : c.toNat % 64 :: plain src = carry 6 (c.toNat % 64) ++ plain src := rfl
    rw [plain, List.append_eq_append_iff_of_size_eq_left (length_carry _), carry_eq_iff hr (hβ a),
      List.cons_inj_right, List.cons_eq_cons, List.cons_eq_cons, second_eq_iff hβ, third_eq_iff hβ, hrest,
      ih (Nat.mod_lt _ (by decide))]
    cases src <;> simp

lemma sextets_zero_eq_iff (hβ : ∀ c, β c ≤ 1) (src : Bytes) :
    sextets β 0 0 src = plain src ↔ ∀ c ∈ src.tail, β c = 0 := by
  have h := sextets_eq_iff (k := 0) (r := 0) hβ src (by decide)
  simpa [carry] using h

lemma plain_lt (src : Bytes) : ∀ v ∈ plain src, v < 64 := by
  have h := (sextets_zero_eq_iff (β := fun _ => 0) (fun _ => Nat.zero_le 1) src).mpr (fun _ _ => rfl)
  exact h ▸ sextets_lt src (by decide)

lemma encode_eq (src : Bytes) : Base64.encode src = (plain src).map Base64.digit ++ pads src := by
  fun_induction Base64.encode src with
  | case1 a b c src ih =>
    have ha := a.toNat_lt
    have hb := b.toNat_lt
    have hc := c.toNat_lt
    have hpads : pads (a :: b :: c :: src) = pads src := by
      rw [pads, pads, List.length_cons, List.length_cons, List.length_cons, Nat.add_assoc, Nat.add_assoc,
        Nat.add_mod_right]
    have h1 : Base64.group a b c / 262144 = a.toNat / 4 := by
      rw [Base64.group]
      omega
    have h2 : Base64.group a b c / 4096 % 64 = a.toNat % 4 * 16 + b.toNat / 16 := by
      rw [Base64.group]
      omega
    have h3 : Base64.group a b c / 64 % 64 = b.toNat % 16 * 4 + c.toNat / 64 := by
      rw [Base64.group]
      omega
    have h4 : Base64.group a b c % 64 = c.toNat % 64 := by
      rw [Base64.group]
      omega
    rw [ih, hpads, h1, h2, h3, h4, plain]
    simp only [List.map_cons, List.cons_append]
  | case2 a b =>
    have ha := a.toNat_lt
    have hb := b.toNat_lt
    have h1 : Base64.group a b 0 / 262144 = a.toNat / 4 := by
      rw [Base64.group, UInt8.toNat_zero]
      omega
    have h2 : Base64.group a b 0 / 4096 % 64 = a.toNat % 4 * 16 + b.toNat / 16 := by
      rw [Base64.group, UInt8.toNat_zero]
      omega
    have h3 : Base64.group a b 0 / 64 % 64 = b.toNat % 16 * 4 := by
      rw [Base64.group, UInt8.toNat_zero]
      omega
    rw [h1, h2, h3]
    rfl
  | case3 a =>
    have ha := a.toNat_lt
    have h1 : Base64.group a 0 0 / 262144 = a.toNat / 4 := by
      rw [Base64.group, UInt8.toNat_zero]
      omega
    have h2 : Base64.group a 0 0 / 4096 % 64 = a.toNat % 4 * 16 := by
      rw [Base64.group, UInt8.toNat_zero]
      omega
    rw [h1, h2]
    rfl
  | case4 => rfl

lemma map_digit_inj {l m : List ℕ} (hl : ∀ v ∈ l, v < 64) (hm : ∀ v ∈ m, v < 64) :
    l.map Base64.digit = m.map Base64.digit ↔ l = m := by
  have hvalue : ∀ v < 64, Base64.alphabet.idxOf (Base64.digit v) = v := by decide +kernel
  have hleft {n : List ℕ} (hn : ∀ v ∈ n, v < 64) : (n.map Base64.digit).map Base64.alphabet.idxOf = n := by
    rw [List.map_map]
    exact (List.map_congr_left (fun v hv => hvalue v (hn v hv))).trans (List.map_id' n)
  refine ⟨fun h => ?_, congrArg _⟩
  rw [← hleft hl, h, hleft hm]

lemma padded_eq (dst : Bytes) (hroom : (dst.length + 3) / 4 * 4 ≤ room) :
    padded room dst = .ok (dst ++ List.replicate ((4 - dst.length % 4) % 4) Base64.pad) := by
  fun_induction padded room dst with
  | case1 dst h => rw [h, Nat.sub_zero, Nat.mod_self, List.replicate_zero, List.append_nil]
  | case2 dst h hlt ih =>
    have hcount : (4 - dst.length % 4) % 4 = (4 - (dst.length + 1) % 4) % 4 + 1 := by omega
    rw [ih (by rw [List.length_append, List.length_singleton]; omega), List.length_append,
      List.length_singleton, hcount, List.replicate_succ, List.append_assoc]
    rfl
  | case3 dst h hlt => omega

lemma count_pads (n : ℕ) : (4 - (4 * n + 2) / 3 % 4) % 4 = (3 - n % 3) % 3
    ∧ (4 * n + 2) / 3 + (3 - n % 3) % 3 = 4 * ((n + 2) / 3) := by
  obtain ⟨q, rfl | rfl | rfl⟩ : ∃ q, n = 3 * q ∨ n = 3 * q + 1 ∨ n = 3 * q + 2 := ⟨n / 3, by omega⟩
  · rw [show (4 * (3 * q) + 2) / 3 = 4 * q by omega, Nat.mul_mod_right, Nat.mul_mod_right]
    omega
  · rw [show (4 * (3 * q + 1) + 2) / 3 = 4 * q + 2 by omega, Nat.mul_add_mod, Nat.mul_add_mod]
    omega
  · rw [show (4 * (3 * q + 2) + 2) / 3 = 4 * q + 3 by omega, Nat.mul_add_mod, Nat.mul_add_mod]
    omega

theorem encoded_eq {char : UInt8 → UInt32} (hchar : Borrows char β) (hroom : 4 * ((src.length + 2) / 3) < room) :
    encoded char room src = .ok ((sextets β 0 0 src).map Base64.digit ++ pads src) := by
  have hlen : (sextets β 0 0 src).length = (4 * src.length + 2) / 3 := by
    rw [length_sextets, length_plain]
    exact Nat.zero_add _
  obtain ⟨t, ht, hdst⟩ : ∃ t, putBytes char room ⟨0, 0, []⟩ src = .ok t
      ∧ t.dst = (sextets β 0 0 src).map Base64.digit := by
    by_cases hnil : src = []
    · subst hnil
      exact ⟨_, rfl, rfl⟩
    · exact putBytes_eq hchar src hnil (.inl rfl) ⟨rfl, rfl⟩ (by rw [hlen, List.length_nil]; omega)
  have hdstLen : t.dst.length = (4 * src.length + 2) / 3 := by rw [hdst, List.length_map, hlen]
  have hpads : List.replicate ((4 - t.dst.length % 4) % 4) Base64.pad = pads src := by
    rw [hdstLen, (count_pads src.length).1, pads]
  have hput : put room (t.dst ++ pads src) 0 = .ok (t.dst ++ pads src ++ [0]) := by
    refine put_eq ?_
    rwa [List.length_append, hdstLen, pads, List.length_replicate, (count_pads src.length).2]
  rw [encoded, ht, ok_bind, padded_eq t.dst (by omega), ok_bind, hpads, hput, ok_bind, hdst]

lemma encoded_lt {char : UInt8 → UInt32} {dst : Bytes} (h : encoded char room src = .ok dst) :
    dst.length < room := by
  rw [encoded] at h
  obtain ⟨s, -, h⟩ := bind_eq_ok.mp h
  obtain ⟨t, -, h⟩ := bind_eq_ok.mp h
  obtain ⟨u, hu, h⟩ := bind_eq_ok.mp h
  rw [← Except.ok.inj h]
  by_contra hroom
  rw [put, if_neg hroom] at hu
  cases hu

theorem encoded_standard_iff {char : UInt8 → UInt32} (hchar : Borrows char β)
    (hroom : 4 * ((src.length + 2) / 3) < room) :
    encoded char room src = .ok (Base64.encode src) ↔ ∀ c ∈ src.tail, β c = 0 := by
  rw [encoded_eq hchar hroom, encode_eq, Except.ok.injEq, List.append_left_inj,
    map_digit_inj (sextets_lt src (by decide)) (plain_lt src), sextets_zero_eq_iff hchar.le_one]

end Text

section Encoders

variable {src : Bytes}

lemma borrows_unsignedChar : Borrows unsignedChar (fun _ => 0) where
  le_one _ := Nat.zero_le 1
  value _ := UInt8.toNat_toUInt32 _

lemma borrows_signedChar : Borrows signedChar (fun c => if 128 ≤ c then 1 else 0) where
  le_one c := by split_ifs <;> decide
  value c := by
    have h : ∀ n < 256, (signedChar (UInt8.ofNat n)).toNat + 256 * (if 128 ≤ UInt8.ofNat n then 1 else 0)
        = n + 2 ^ 32 * (if 128 ≤ UInt8.ofNat n then 1 else 0) := by decide +kernel
    simpa only [UInt8.ofNat_toNat] using h c.toNat c.toNat_lt

lemma encodeBase64_eq (h : src.length < uintMax / 4) : encodeBase64 src
    = encoded signedChar (4 * ((src.length + 2) / 3) + 1) src >>= fun res => .ok (some res) := by
  have hlt : src.length < 1073741823 := h
  have hres : 4 * (src.length / 3 + if src.length / 3 * 3 < src.length then 1 else 0) % 2 ^ 32
      = 4 * ((src.length + 2) / 3) := by
    split_ifs <;> omega
  rw [encodeBase64, if_neg h.not_ge]
  simp only [hres]

theorem encodeBase64_standard_iff (h : src.length < uintMax / 4) :
    encodeBase64 src = .ok (some (Base64.encode src)) ↔ ∀ c ∈ src.tail, c < 128 := by
  have hborrow : (∀ c ∈ src.tail, (if 128 ≤ c then 1 else 0) = 0) ↔ ∀ c ∈ src.tail, c < 128 := by
    simp
  rw [encodeBase64_eq h, ← hborrow, ← encoded_standard_iff borrows_signedChar (Nat.lt_succ_self _)]
  refine ⟨fun h => ?_, fun h => by rw [h, ok_bind]⟩
  obtain ⟨t, ht, hres⟩ := bind_eq_ok.mp h
  rw [ht, Option.some.inj (Except.ok.inj hres)]

theorem rtspEncodeBase64_standard (h : src.length < 2 ^ 29) {bufLen : ℤ} (hpasses : Passes bufLen src.length) :
    rtspEncodeBase64 bufLen src = .ok (some (Base64.encode src)) := by
  have hlt : src.length < uintMax / 4 := h.trans (by decide)
  have hmul : Int.bmod ((src.length : ℤ) * 4) (2 ^ 32) = src.length * 4 := by
    refine Int.bmod_eq_of_le ?_ ?_ <;> omega
  have hroom : 4 * ((src.length + 2) / 3) < bufLen.toNat := by
    rw [Passes, hmul, Int.tdiv_eq_ediv_of_nonneg (by omega)] at hpasses
    omega
  rw [rtspEncodeBase64, if_neg (by
    rintro (hle | hnot)
    · exact hlt.not_ge hle
    · exact hnot hpasses),
    (encoded_standard_iff borrows_unsignedChar hroom).mpr (fun _ _ => rfl), ok_bind]

lemma rtspEncodeBase64_twelve (h : 2 ^ 29 ≤ src.length) (h' : src.length < 2 ^ 30) : Passes 12 src.length
    ∧ rtspEncodeBase64 12 src ≠ .ok (some (Base64.encode src)) := by
  refine ⟨?_, fun hok => ?_⟩
  · have hmul : Int.bmod ((src.length : ℤ) * 4) (2 ^ 32) = src.length * 4 - 2 ^ 32 := by
      rw [Int.bmod_def]
      omega
    rw [Passes, hmul]
    have hdiv : ((src.length : ℤ) * 4 - 2 ^ 32).tdiv 3 ≤ 0 := by
      have hneg := Int.tdiv_nonneg (a := 2 ^ 32 - (src.length : ℤ) * 4) (b := 3) (by omega) (by decide)
      rw [← Int.neg_sub, Int.neg_tdiv]
      omega
    omega
  · rw [rtspEncodeBase64] at hok
    split_ifs at hok with hnone
    · cases hok
    · obtain ⟨t, ht, hres⟩ := bind_eq_ok.mp hok
      have hlt := encoded_lt ht
      rw [Option.some.inj (Except.ok.inj hres), Base64.length_encode] at hlt
      have htwelve : (12 : ℤ).toNat = 12 := rfl
      omega

/-- The text that `encode_base64` returns is the standard one, and the one of `rtsp_encodeBase64`. -/
def Encodes (src : Bytes) : Prop :=
  encodeBase64 src = .ok (some (Base64.encode src))
    ∧ ∀ bufLen : ℤ, 0 ≤ bufLen → bufLen < 2 ^ 31 → Passes bufLen src.length
      → rtspEncodeBase64 bufLen src = encodeBase64 src

theorem encodes_iff (h : src.length < 2 ^ 30) :
    Encodes src ↔ src.length < 2 ^ 29 ∧ ∀ c ∈ src.tail, c < 128 := by
  constructor
  · rintro ⟨hstandard, hsame⟩
    have hlt : src.length < 2 ^ 29 := by
      by_contra hge
      obtain ⟨hpasses, hne⟩ := rtspEncodeBase64_twelve (not_lt.mp hge) h
      exact hne (hstandard ▸ hsame 12 (by decide) (by decide) hpasses)
    exact ⟨hlt, (encodeBase64_standard_iff (hlt.trans (by decide))).mp hstandard⟩
  · rintro ⟨hlt, hsmall⟩
    have hstandard := (encodeBase64_standard_iff (hlt.trans (by decide))).mpr hsmall
    exact ⟨hstandard, fun bufLen _ _ hpasses => hstandard ▸ rtspEncodeBase64_standard hlt hpasses⟩

theorem encodes_iff_two : [0x67, 0x42].length < 2 ^ 30
    ∧ (Encodes [0x67, 0x42] ↔ [0x67, 0x42].length < 2 ^ 29 ∧ ∀ c ∈ [0x67, 0x42].tail, c < (128 : UInt8)) :=
  ⟨by decide, encodes_iff (by decide)⟩

-- The second byte is taken as -128.
theorem encode_high_byte : ¬ Encodes [0, 128]
    ∧ encodeBase64 [0, 128] = .ok (some (bytes "A4A="))
    ∧ rtspEncodeBase64 100 [0, 128] = .ok (some (bytes "AIA=")) := by
  have hrun : encodeBase64 [0, 128] = .ok (some (bytes "A4A=")) := by
    rw [encodeBase64_eq (by decide), encoded_eq borrows_signedChar (Nat.lt_succ_self _)]
    rfl
  refine ⟨fun h => ?_, hrun, @rtspEncodeBase64_standard [0, 128] (by decide) 100 (by decide)⟩
  exact absurd (hrun.symm.trans h.1) (by decide)

end Encoders

end SimpleCode.LibRtspServer.EncodeBase64
