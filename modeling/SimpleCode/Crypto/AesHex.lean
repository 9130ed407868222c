import SimpleCode.Crypto.AesRoundTrip
import SimpleCode.Foundations.Positional

set_option autoImplicit false

namespace SimpleCode.Crypto.Aes

open Foundations

inductive HexFault
  | outOfBuffer
  | overflow
deriving DecidableEq, Repr

def int (x : ℤ) : Except HexFault ℤ :=
  if -2 ^ 31 ≤ x ∧ x < 2 ^ 31 then .ok x else .error .overflow

def put (size : ℤ) (b : Buffer) (p : ℤ) (v : UInt8) : Except HexFault Buffer :=
  if 0 ≤ p ∧ p < size then .ok (Function.update b p.toNat v) else .error .outOfBuffer

-- `sprintf` ends the digits with a zero.
def sprintHex (size : ℤ) (v : UInt8) (b : Buffer) (p : ℤ) : Except HexFault Buffer := do
  let b ← put size b p (hexDigit (v / 16))
  let b ← put size b (p + 1) (hexDigit (v % 16))
  put size b (p + 2) 0

def charGetFromHexIn (hex : Buffer) (hexLen : ℤ) (outBuf : Buffer) (outBufLen : ℤ) :
    Except HexFault (ℤ × Buffer) := do
  let last ← int (hexLen * 2 + 1)
  if last > outBufLen then .ok (-1, outBuf)
  else
    let b ← counted 0 (fun i b => sprintHex outBufLen (hex i) b (2 * i)) hexLen.toNat outBuf
    let b ← put outBufLen b last 0
    .ok (0, b)

def hexGetFromCharIn (In : Buffer) (inLen : ℤ) (hexOutBuf : Buffer) (hexOutBufLen : ℤ) :
    Except HexFault (ℤ × Buffer) := do
  if inLen.tdiv 2 > hexOutBufLen then .ok (-1, hexOutBuf)
  else
    let b ← counted 0 (fun i b => put hexOutBufLen b i (hexGetFromBcd (In (i * 2)) (In (i * 2 + 1))))
      (inLen.tdiv 2).toNat hexOutBuf
    .ok (0, b)

section Bounds

variable {hex b out In : Buffer} {size p outLen : ℤ} {v : UInt8} {L n : ℕ}

lemma put_ok (h : 0 ≤ p ∧ p < size) : put size b p v = .ok (Function.update b p.toNat v) := if_pos h

lemma sprintHex_ok (h : (n : ℤ) + 2 < size) : sprintHex size v b n = .ok (printHex v b n) := by
  rw [sprintHex, put_ok (by omega), ok_bind, put_ok (by omega), ok_bind, put_ok (by omega)]
  rfl

lemma sprintHex_loop (h : 2 * (L : ℤ) < size) :
    counted 0 (fun i b => sprintHex size (hex i) b (2 * i)) L out
      = .ok ((List.range L).foldl (fun b i => printHex (hex i) b (2 * i)) out) := by
  have hloop : ∃ b, counted 0 (fun i b => sprintHex size (hex i) b (2 * i)) L out = .ok b
      ∧ b = (List.range L).foldl (fun b i => printHex (hex i) b (2 * i)) out := by
    refine counted_ok (fun k b => b = (List.range k).foldl (fun b i => printHex (hex i) b (2 * i)) out)
      (fun k hk s hs => ⟨_, ?_, rfl⟩) rfl
    rw [List.range_succ, List.foldl_append, ← hs, Nat.zero_add]
    exact sprintHex_ok (n := 2 * k) (by push_cast; omega)
  obtain ⟨b, hb, rfl⟩ := hloop
  exact hb

lemma charGetFromHexIn_passed (hL : L < 2 ^ 30) (h : 2 * (L : ℤ) + 1 ≤ outLen) :
    charGetFromHexIn hex L out outLen
      = if 2 * (L : ℤ) + 1 < outLen then .ok (charGetFromHex hex L out outLen)
        else .error .outOfBuffer := by
  have hint : int ((L : ℤ) * 2 + 1) = .ok (L * 2 + 1) := if_pos (by omega)
  rw [charGetFromHexIn, hint, ok_bind, if_neg (by omega), Int.toNat_natCast, sprintHex_loop (by omega),
    ok_bind]
  by_cases hlt : 2 * (L : ℤ) + 1 < outLen
  · rw [if_pos hlt, put_ok (by omega), charGetFromHex, if_neg (by omega)]
    rfl
  · rw [if_neg hlt, put, if_neg (by omega)]
    rfl

lemma charGetFromHexIn_refused (hL : L < 2 ^ 30) (h : outLen < 2 * (L : ℤ) + 1) :
    charGetFromHexIn hex L out outLen = .ok (-1, out) := by
  have hint : int ((L : ℤ) * 2 + 1) = .ok (L * 2 + 1) := if_pos (by omega)
  rw [charGetFromHexIn, hint, ok_bind, if_pos (by omega)]

lemma charGetFromHexIn_overflow (hL : 2 ^ 30 ≤ L) :
    charGetFromHexIn hex L out outLen = .error .overflow := by
  have hint : int ((L : ℤ) * 2 + 1) = .error .overflow := if_neg (by omega)
  rw [charGetFromHexIn, hint]
  rfl

lemma hexGetFromCharIn_ok (n : ℕ) (size : ℤ) :
    hexGetFromCharIn In n out size = .ok (hexGetFromChar In n out size) := by
  have hdiv : (n : ℤ).tdiv 2 = (n : ℤ) / 2 := Int.tdiv_eq_ediv_of_nonneg (Int.natCast_nonneg n)
  rw [hexGetFromCharIn, hexGetFromChar, hdiv]
  by_cases h : (n : ℤ) / 2 > size
  · rw [if_pos h, if_pos h]
  · rw [if_neg h, if_neg h]
    have hloop : ∃ b, counted 0 (fun i b => put size b i (hexGetFromBcd (In (i * 2)) (In (i * 2 + 1))))
        ((n : ℤ) / 2).toNat out = .ok b
        ∧ b = (List.range ((n : ℤ) / 2).toNat).foldl
          (fun b i => Function.update b (0 + i) (hexGetFromBcd (In (i * 2)) (In (i * 2 + 1)))) out := by
      refine counted_ok (fun k b => b = (List.range k).foldl
        (fun b i => Function.update b (0 + i) (hexGetFromBcd (In (i * 2)) (In (i * 2 + 1)))) out)
        (fun k hk s hs => ⟨_, ?_, rfl⟩) rfl
      rw [List.range_succ, List.foldl_append, ← hs, put_ok (by omega), Int.toNat_natCast]
      simp only [List.foldl_cons, List.foldl_nil, Nat.zero_add]
    obtain ⟨b, hb, rfl⟩ := hloop
    rw [hb, ok_bind]

lemma hexGetFromChar_text (h : 2 * (L : ℤ) + 1 ≤ outLen) {n : ℤ} (hn : L ≤ n) (out' : Buffer) {i : ℕ}
    (hi : i < L) :
    (hexGetFromChar (charGetFromHex hex L out outLen).2 (L * 2) out' n).2 i = hex i := by
  have hsame : hexGetFromChar (charGetFromHex hex L out outLen).2 (L * 2) out' n
      = hexGetFromChar (charGetFromHex hex L out outLen).2 (L * 2) out' (L * 2 / 2) := by
    rw [hexGetFromChar, hexGetFromChar, if_neg (by omega), if_neg (by omega)]
  rw [hsame]
  exact hexGetFromChar_charGetFromHex hex out out' (by omega) hi

theorem hex_helpers_iff (hex out : Buffer) (L : ℕ) (outLen : ℤ) :
    (∀ (In buf : Buffer) (n : ℕ) (size : ℤ), ∃ r, hexGetFromCharIn In n buf size = .ok r)
      ∧ (∃ r, charGetFromHexIn hex L out outLen = .ok r ∧ (r.1 = 0 → ∀ (out' : Buffer) (n : ℤ), L ≤ n →
        ∃ s, hexGetFromCharIn r.2 (L * 2) out' n = .ok s ∧ ∀ i < L, s.2 i = hex i))
      ↔ L < 2 ^ 30 ∧ (outLen < 2 * (L : ℤ) + 1 ∨ 2 * (L : ℤ) + 2 ≤ outLen) := by
  have hwrites : ∀ (In buf : Buffer) (n : ℕ) (size : ℤ), ∃ r, hexGetFromCharIn In n buf size = .ok r :=
    fun In buf n size => ⟨_, hexGetFromCharIn_ok n size⟩
  rw [and_iff_right hwrites]
  rcases Nat.lt_or_ge L (2 ^ 30) with hL | hL
  · rcases lt_or_ge outLen (2 * (L : ℤ) + 1) with hless | hge
    · rw [charGetFromHexIn_refused hL hless]
      exact iff_of_true ⟨_, rfl, fun h => absurd h (by simp)⟩ ⟨hL, .inl hless⟩
    · rw [charGetFromHexIn_passed hL hge]
      by_cases hlt : 2 * (L : ℤ) + 1 < outLen
      · rw [if_pos hlt]
        exact iff_of_true ⟨_, rfl, fun _ out' n hn => ⟨_, hexGetFromCharIn_ok (L * 2) n, fun i hi =>
          hexGetFromChar_text hge hn out' hi⟩⟩ ⟨hL, .inr (by omega)⟩
      · rw [if_neg hlt]
        exact iff_of_false (fun ⟨_, h, _⟩ => nomatch h) (by omega)
  · rw [charGetFromHexIn_overflow hL]
    exact iff_of_false (fun ⟨_, h, _⟩ => nomatch h) (by omega)

-- The zero behind the digits is written once more, one byte too far.
theorem charGetFromHex_writes_behind : ¬ ∀ (hex out : Buffer) (L : ℕ) (outLen : ℤ), L < 2 ^ 30 →
    2 * (L : ℤ) + 1 ≤ outLen → ∃ r, charGetFromHexIn hex L out outLen = .ok r := by
  intro h
  obtain ⟨r, hr⟩ := h (fun _ => 65) (fun _ => 0) 1 3 (by decide) (by decide)
  rw [charGetFromHexIn_passed (by decide) (by decide), if_neg (by decide)] at hr
  cases hr

end Bounds

end SimpleCode.Crypto.Aes
