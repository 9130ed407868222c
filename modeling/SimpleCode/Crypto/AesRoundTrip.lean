import Mathlib.Logic.Equiv.Basic
import SimpleCode.Crypto.Aes

set_option autoImplicit false

/-! When deciphering gives the enciphered text back: the remover looks for up to eight padding
bytes, while the writer puts up to fifteen and none after a text of whole blocks. -/

namespace SimpleCode.Crypto.Aes

open Foundations

lemma getD_of_lt {n : ℕ} (v : Vector UInt8 n) {i : ℕ} (hi : i < n) : v.getD i 0 = v[i] := by
  have hs : i < v.toArray.size := by simpa using hi
  rw [Vector.getD, Array.getD, dif_pos hs]
  rfl

lemma ecb_apply (f : Vector UInt8 16 → Vector UInt8 16) (src dst : Buffer) (len a : ℕ) :
    ecb f src dst len a
      = if a < 16 * ((len + 15) / 16) then (f (readBlock src (16 * (a / 16)))).getD (a % 16) 0
        else dst a := by
  rw [ecb]
  generalize (len + 15) / 16 = n
  induction n with
  | zero => rfl
  | succ n ih =>
    rw [List.range_succ, List.foldl_append, List.foldl_cons, List.foldl_nil, Cells.copy]
    by_cases hin : 16 * n ≤ a ∧ a < 16 * n + 16
    · rw [if_pos hin, if_pos (by omega), show a / 16 = n by omega, show a % 16 = a - 16 * n by omega]
    · rw [if_neg hin, ih]
      by_cases hlt : a < 16 * n
      · rw [if_pos hlt, if_pos (by omega)]
      · rw [if_neg hlt, if_neg (by omega)]

lemma ecb_ecb {f g : Vector UInt8 16 → Vector UInt8 16} (h : ∀ block, g (f block) = block) {L : ℕ}
    (hL : 16 ∣ L) (src mid dst dst' : Buffer) (hmid : ∀ a < L, mid a = ecb f src dst L a) (a : ℕ) :
    ecb g mid dst' L a = if a < L then src a else dst' a := by
  have hN : 16 * ((L + 15) / 16) = L := by omega
  rw [ecb_apply, hN]
  by_cases ha : a < L
  · have hblock : readBlock mid (16 * (a / 16)) = f (readBlock src (16 * (a / 16))) := by
      apply Vector.ext
      intro i hi
      rw [readBlock, Vector.getElem_ofFn, hmid _ (by omega), ecb_apply, hN, if_pos (by omega),
        show (16 * (a / 16) + i) / 16 = a / 16 by omega, show (16 * (a / 16) + i) % 16 = i by omega,
        getD_of_lt _ hi]
    rw [if_pos ha, if_pos ha, hblock, h, getD_of_lt _ (Nat.mod_lt a (by decide)), readBlock,
      Vector.getElem_ofFn, Nat.div_add_mod]
  · rw [if_neg ha, if_neg ha]

lemma hexGetFromBcd_hexDigit (v : UInt8) :
    hexGetFromBcd (hexDigit (v / 16)) (hexDigit (v % 16)) = v := by
  have h : ∀ n < 256, hexGetFromBcd (hexDigit (UInt8.ofNat n / 16)) (hexDigit (UInt8.ofNat n % 16))
      = UInt8.ofNat n := by
    decide +kernel
  have hv := h v.toNat v.toNat_lt
  rwa [UInt8.ofNat_toNat] at hv

lemma printHex_loop (hex out : Buffer) (n : ℕ) {i : ℕ} (hi : i < n) :
    (List.range n).foldl (fun b i => printHex (hex i) b (2 * i)) out (2 * i) = hexDigit (hex i / 16)
      ∧ (List.range n).foldl (fun b i => printHex (hex i) b (2 * i)) out (2 * i + 1)
        = hexDigit (hex i % 16) := by
  induction n with
  | zero => exact absurd hi (Nat.not_lt_zero i)
  | succ n ih =>
    rw [List.range_succ, List.foldl_append, List.foldl_cons, List.foldl_nil, printHex]
    rcases Nat.lt_succ_iff_lt_or_eq.mp hi with hlt | rfl
    · obtain ⟨h₀, h₁⟩ := ih hlt
      constructor
      · rw [Function.update_of_ne (by omega), Function.update_of_ne (by omega),
          Function.update_of_ne (by omega), h₀]
      · rw [Function.update_of_ne (by omega), Function.update_of_ne (by omega),
          Function.update_of_ne (by omega), h₁]
    · constructor
      · rw [Function.update_of_ne (by omega), Function.update_of_ne (by omega), Function.update_self]
      · rw [Function.update_of_ne (by omega), Function.update_self]

theorem hexGetFromChar_charGetFromHex (hex out out' : Buffer) {L : ℕ} {outLen : ℤ}
    (hout : (L * 2 + 1 : ℤ) ≤ outLen) {i : ℕ} (hi : i < L) :
    (hexGetFromChar (charGetFromHex hex L out outLen).2 (L * 2) out' (L * 2 / 2)).2 i = hex i := by
  obtain ⟨h₀, h₁⟩ := printHex_loop hex out L hi
  have hlen : ((L * 2 / 2 : ℤ)).toNat = L := by omega
  have hend : ((L * 2 + 1 : ℤ)).toNat = 2 * L + 1 := by omega
  rw [charGetFromHex, if_neg (by omega), hexGetFromChar, if_neg (by omega), hlen]
  simp only [Int.toNat_natCast, hend]
  rw [Cells.foldl_update_eq_copy, Cells.copy, if_pos (by omega), Nat.sub_zero, Nat.mul_comm i 2,
    Function.update_of_ne (by omega), Function.update_of_ne (by omega), h₀, h₁,
    hexGetFromBcd_hexDigit]

def paddedLength (n : ℕ) : ℕ := if n % 16 = 0 then n else n + (16 - n % 16)

def padded (plain : Buffer) (n : ℕ) : Buffer :=
  fun a => if a < n then plain a else if a < paddedLength n then UInt8.ofNat (16 - n % 16) else 0

lemma paddedLength_dvd (n : ℕ) : 16 ∣ paddedLength n := by
  rw [paddedLength]
  split <;> omega

lemma pkcs5Padding_eq (plain : Buffer) (n : ℕ) :
    pkcs5Padding plain n (fun _ => 0) (n + 9) 16 = ((paddedLength n : ℤ), padded plain n) := by
  have hmod : (n : ℤ).tmod 16 = (n % 16 : ℕ) := rfl
  rw [pkcs5Padding, if_neg (by omega), hmod, Int.toNat_natCast]
  by_cases h : n % 16 = 0
  · rw [if_neg (by omega)]
    refine Prod.ext ?_ (funext fun a => ?_)
    · simp only [paddedLength, if_pos h]
      omega
    · simp only [padded, paddedLength, if_pos h, Cells.copy, Nat.zero_le, true_and, Nat.zero_add,
        Nat.sub_zero]
      split
      · rfl
      · rfl
  · have hpad : ((16 : ℤ) - (n % 16 : ℕ)).toNat = 16 - n % 16 := by omega
    rw [if_pos (by omega)]
    refine Prod.ext ?_ (funext fun a => ?_)
    · simp only [paddedLength, if_neg h]
      omega
    · simp only [hpad, Cells.foldl_update_eq_copy, Cells.copy, padded, paddedLength, if_neg h,
        Nat.zero_le, true_and, Nat.zero_add, Nat.sub_zero]
      by_cases ha : a < n
      · rw [if_neg (by omega), if_pos ha, if_pos ha]
      · rw [if_neg ha, if_neg ha]
        split <;> split <;> first | rfl | omega

lemma paddingMatches_iff (b : Buffer) (len v : ℕ) :
    paddingMatches b len v = true ↔ ∀ k, 1 ≤ k → k ≤ v → b (len - k) = b (len - 1) := by
  induction v with
  | zero => exact ⟨fun _ k h₁ h₂ => absurd h₂ (by omega), fun _ => rfl⟩
  | succ v ih =>
    rw [paddingMatches]
    by_cases h : b (len - (v + 1)) = b (len - 1)
    · rw [if_neg (not_not.mpr h), ih]
      constructor
      · intro hall k h₁ h₂
        rcases Nat.le_succ_iff.mp h₂ with hle | rfl
        · exact hall k h₁ hle
        · exact h
      · intro hall k h₁ h₂
        exact hall k h₁ (by omega)
    · rw [if_pos h]
      exact ⟨fun hf => absurd hf (by decide), fun hall => absurd (hall _ (by omega) le_rfl) h⟩

lemma signed_le_eight (x : UInt8) :
    (x.toInt8.toInt ≤ 8 ∧ x.toInt8.toInt ≥ 0 ↔ x.toNat ≤ 8)
      ∧ (x.toNat ≤ 8 → x.toInt8.toInt.toNat = x.toNat) := by
  have h : ∀ n < 256, ((UInt8.ofNat n).toInt8.toInt ≤ 8 ∧ (UInt8.ofNat n).toInt8.toInt ≥ 0
        ↔ (UInt8.ofNat n).toNat ≤ 8)
      ∧ ((UInt8.ofNat n).toNat ≤ 8 → (UInt8.ofNat n).toInt8.toInt.toNat = (UInt8.ofNat n).toNat) := by
    decide +kernel
  have hx := h x.toNat x.toNat_lt
  rwa [UInt8.ofNat_toNat] at hx

lemma pkcs5PaddingRemove_eq (b : Buffer) (len : ℕ) :
    (pkcs5PaddingRemove b len).2
      = if (b (len - 1)).toNat ≤ 8 then
          if paddingMatches b len (b (len - 1)).toNat then
            Function.update b (len - (b (len - 1)).toNat) 0
          else b
        else Function.update b len 0 := by
  obtain ⟨hiff, htoNat⟩ := signed_le_eight (b (len - 1))
  simp only [pkcs5PaddingRemove, hiff]
  split
  · next h =>
    rw [htoNat h]
    split <;> rfl
  · rfl

def Recovered (b : Buffer) (s : Bytes) : Prop :=
  (∀ i < s.length, b i = s.getD i 0) ∧ b s.length = 0

def lastByte (s : Bytes) : UInt8 := s.getD (s.length - 1) 0

/-- The texts that come back, `plain` being what the output buffer held before: with at most eight
bytes of padding, or without padding and with an end that the remover does not take for one. When
the end only starts like padding the remover stores no NUL. -/
def Returns (s : Bytes) (plain : Buffer) : Prop :=
  8 ≤ s.length % 16
    ∨ s.length % 16 = 0 ∧ (8 < (lastByte s).toNat
      ∨ ¬ List.replicate (lastByte s).toNat (lastByte s) <:+ s ∧ plain s.length = 0)

lemma replicate_suffix_iff {s : Bytes} {v : ℕ} {x : UInt8} (hv : v ≤ s.length) :
    List.replicate v x <:+ s ↔ ∀ k, 1 ≤ k → k ≤ v → s.getD (s.length - k) 0 = x := by
  rw [List.suffix_iff_eq_drop, List.length_replicate, eq_comm, List.eq_replicate_iff]
  constructor
  · rintro ⟨-, h⟩ k h₁ h₂
    apply h
    rw [List.getD_eq_getElem _ _ (by omega), List.mem_iff_getElem]
    refine ⟨v - k, by rw [List.length_drop]; omega, ?_⟩
    rw [List.getElem_drop]
    congr 1
    omega
  · intro h
    refine ⟨by rw [List.length_drop]; omega, fun y hy => ?_⟩
    obtain ⟨i, hi, rfl⟩ := List.mem_iff_getElem.mp hy
    rw [List.length_drop] at hi
    have hk := h (v - i) (by omega) (by omega)
    rw [List.getD_eq_getElem _ _ (by omega)] at hk
    rw [List.getElem_drop, ← hk]
    congr 1
    omega

lemma getD_ne_zero {s : Bytes} (h0 : (0 : UInt8) ∉ s) {i : ℕ} (hi : i < s.length) :
    s.getD i 0 ≠ 0 := by
  rw [List.getD_eq_getElem _ _ hi]
  exact fun h => h0 (h ▸ List.getElem_mem hi)

lemma toNat_ne_zero {x : UInt8} (h : x ≠ 0) : x.toNat ≠ 0 :=
  fun h' => h (UInt8.toNat_inj.mp h')

lemma recovered_of_padded {s : Bytes} (hr : s.length % 16 ≠ 0) {b : Buffer}
    (hb : ∀ a < paddedLength s.length, b a = padded (s.getD · 0) s.length a) :
    Recovered (pkcs5PaddingRemove b (paddedLength s.length)).2 s ↔ 8 ≤ s.length % 16 := by
  have hL : paddedLength s.length = s.length + (16 - s.length % 16) := if_neg hr
  have hpad (a : ℕ) (h₁ : s.length ≤ a) (h₂ : a < paddedLength s.length) :
      b a = UInt8.ofNat (16 - s.length % 16) := by
    rw [hb a h₂, padded, if_neg (by omega), if_pos h₂]
  have htext (a : ℕ) (ha : a < s.length) : b a = s.getD a 0 := by
    rw [hb a (by omega), padded, if_pos ha]
  have hlast := hpad (paddedLength s.length - 1) (by omega) (by omega)
  have hnat : (UInt8.ofNat (16 - s.length % 16)).toNat = 16 - s.length % 16 := by
    rw [UInt8.toNat_ofNat', Nat.mod_eq_of_lt (by omega)]
  rw [pkcs5PaddingRemove_eq, hlast, hnat]
  by_cases h8 : 8 ≤ s.length % 16
  · rw [if_pos (by omega), if_pos]
    · refine ⟨fun _ => h8, fun _ => ⟨fun i hi => ?_, ?_⟩⟩
      · rw [Function.update_of_ne (by omega), htext i hi]
      · rw [show paddedLength s.length - (16 - s.length % 16) = s.length by omega,
          Function.update_self]
    · rw [paddingMatches_iff]
      intro k h₁ h₂
      rw [hlast, hpad _ (by omega) (by omega)]
  · rw [if_neg (by omega)]
    refine ⟨fun h => ?_, fun h => absurd h h8⟩
    have hend := h.2
    rw [Function.update_of_ne (by omega), hpad _ le_rfl (by omega)] at hend
    have := congrArg UInt8.toNat hend
    rw [hnat] at this
    exact absurd this (by simp; omega)

lemma recovered_of_whole {s : Bytes} (hs : s ≠ []) (h0 : (0 : UInt8) ∉ s) (hr : s.length % 16 = 0)
    {b plain : Buffer} (hb : ∀ a, b a = if a < s.length then s.getD a 0 else plain a) :
    Recovered (pkcs5PaddingRemove b s.length).2 s
      ↔ 8 < (lastByte s).toNat
        ∨ ¬ List.replicate (lastByte s).toNat (lastByte s) <:+ s ∧ plain s.length = 0 := by
  have hpos : 0 < s.length := List.length_pos_iff.mpr hs
  have htext (a : ℕ) (ha : a < s.length) : b a = s.getD a 0 := by
    rw [hb a, if_pos ha]
  have hlast : b (s.length - 1) = lastByte s := htext _ (by omega)
  have hne : (lastByte s).toNat ≠ 0 := toNat_ne_zero (getD_ne_zero h0 (by omega))
  rw [pkcs5PaddingRemove_eq, hlast]
  by_cases h8 : (lastByte s).toNat ≤ 8
  · have hmatch : paddingMatches b s.length (lastByte s).toNat = true
        ↔ List.replicate (lastByte s).toNat (lastByte s) <:+ s := by
      rw [paddingMatches_iff, replicate_suffix_iff (by omega), hlast]
      refine forall_congr' fun k => forall_congr' fun h₁ => forall_congr' fun h₂ => ?_
      rw [htext _ (by omega)]
    rw [if_pos h8]
    by_cases hm : List.replicate (lastByte s).toNat (lastByte s) <:+ s
    · rw [if_pos (hmatch.mpr hm)]
      refine ⟨fun h => ?_, fun h => by rcases h with h | ⟨h, -⟩; omega; exact absurd hm h⟩
      have hcut := h.1 (s.length - (lastByte s).toNat) (by omega)
      rw [Function.update_self] at hcut
      exact absurd hcut.symm (getD_ne_zero h0 (by omega))
    · rw [if_neg (mt hmatch.mp hm)]
      constructor
      · intro h
        have hend := h.2
        rw [hb, if_neg (Nat.lt_irrefl _)] at hend
        exact .inr ⟨hm, hend⟩
      · rintro (h | ⟨-, hend⟩)
        · omega
        · refine ⟨htext, ?_⟩
          rw [hb, if_neg (Nat.lt_irrefl _), hend]
  · rw [if_neg h8]
    refine ⟨fun _ => .inl (by omega), fun _ => ⟨fun i hi => ?_, Function.update_self _ _ _⟩⟩
    rw [Function.update_of_ne (by omega), htext i hi]

theorem recovered_iff {s : Bytes} (hs : s ≠ []) (h0 : (0 : UInt8) ∉ s) {b plain : Buffer}
    (hb : ∀ a, b a = if a < paddedLength s.length then padded (s.getD · 0) s.length a
      else plain a) :
    Recovered (pkcs5PaddingRemove b (paddedLength s.length)).2 s ↔ Returns s plain := by
  rw [Returns]
  by_cases hr : s.length % 16 = 0
  · have hL : paddedLength s.length = s.length := if_pos hr
    rw [hL] at hb ⊢
    have hb' (a : ℕ) : b a = if a < s.length then s.getD a 0 else plain a := by
      rw [hb a]
      split
      · next ha => rw [padded, if_pos ha]
      · rfl
    rw [recovered_of_whole hs h0 hr hb']
    simp [hr]
  · rw [recovered_of_padded hr fun a ha => (hb a).trans (if_pos ha)]
    simp [hr]

section RoundTrip

variable {ssl : OpenSsl} (hssl : ssl.Inverse) (key : Vector UInt8 16) {s : Bytes}
  (hlen : s.length ≤ 4080) (cipherTxt plainTxt : Buffer) {cipherLen plainLen : ℤ}
include hssl hlen

lemma yxAesEcbDecrypt_encrypt (hcipher : (paddedLength s.length * 2 + 1 : ℤ) ≤ cipherLen)
    (hplain : (paddedLength s.length : ℤ) ≤ plainLen) :
    let e := yxAesEcbEncrypt ssl (s.getD · 0) s.length key cipherTxt cipherLen
    ∃ b : Buffer, (yxAesEcbDecrypt ssl e.txt e.len key plainTxt plainLen).txt
        = (pkcs5PaddingRemove b (paddedLength s.length)).2
      ∧ ∀ a, b a = if a < paddedLength s.length then padded (s.getD · 0) s.length a
        else plainTxt a := by
  have hdvd := paddedLength_dvd s.length
  have hmax : paddedLength s.length ≤ 4096 := by
    rw [paddedLength]
    split <;> omega
  have hhalf : (paddedLength s.length * 2 / 2 : ℤ) = paddedLength s.length := by omega
  intro e
  have he : e = ⟨0, (charGetFromHex (ecb (ssl.encrypt · (ssl.setEncryptKey key))
      (padded (s.getD · 0) s.length) (fun _ => 0) (paddedLength s.length)) (paddedLength s.length)
      cipherTxt cipherLen).2, paddedLength s.length * 2⟩ := by
    simp only [e, yxAesEcbEncrypt, pkcs5Padding_eq]
    rw [if_neg (by rw [maxLen]; omega), if_neg (by omega), Int.toNat_natCast]
  rw [he]
  simp only [yxAesEcbDecrypt]
  rw [if_neg (by omega), if_neg (by rw [maxLen]; omega)]
  refine ⟨_, by rw [hhalf, Int.toNat_natCast], fun a => ?_⟩
  refine ecb_ecb (hssl key) hdvd _ _ (fun _ => 0) plainTxt (fun a ha => ?_) a
  have hhex := hexGetFromChar_charGetFromHex (ecb (ssl.encrypt · (ssl.setEncryptKey key))
    (padded (s.getD · 0) s.length) (fun _ => 0) (paddedLength s.length)) cipherTxt (fun _ => 0)
    hcipher ha
  rwa [hhalf] at hhex

lemma appAesEcbDecrypt_encrypt (hcipher : (paddedLength s.length + 1 : ℤ) ≤ cipherLen)
    (hplain : (paddedLength s.length : ℤ) < plainLen) :
    let e := appAesEcbEncrypt ssl (s.getD · 0) s.length key cipherTxt cipherLen
    ∃ b : Buffer, (appAesEcbDecrypt ssl e.txt e.len key plainTxt plainLen).txt
        = (pkcs5PaddingRemove b (paddedLength s.length)).2
      ∧ ∀ a, b a = if a < paddedLength s.length then padded (s.getD · 0) s.length a
        else plainTxt a := by
  have hdvd := paddedLength_dvd s.length
  intro e
  have he : e = ⟨0, Cells.copy cipherTxt 0 (ecb (ssl.encrypt · (ssl.setEncryptKey key))
      (padded (s.getD · 0) s.length) (fun _ => 0) (paddedLength s.length)) (paddedLength s.length),
      paddedLength s.length⟩ := by
    simp only [e, appAesEcbEncrypt, pkcs5Padding_eq]
    rw [if_neg (by rw [maxLen]; omega), if_neg (by omega), Int.toNat_natCast]
  rw [he]
  simp only [appAesEcbDecrypt]
  rw [if_neg (by omega)]
  refine ⟨_, by rw [Int.toNat_natCast], fun a => ?_⟩
  refine ecb_ecb (hssl key) hdvd _ _ (fun _ => 0) plainTxt (fun a ha => ?_) a
  rw [Cells.copy, if_pos (by omega), Nat.sub_zero]

end RoundTrip

theorem decrypt_encrypt_iff {ssl : OpenSsl} (hssl : ssl.Inverse) (key : Vector UInt8 16) {s : Bytes}
    (hs : s ≠ []) (h0 : (0 : UInt8) ∉ s) (hlen : s.length ≤ 4080) (cipherTxt plainTxt : Buffer)
    (cipherLen plainLen : ℤ) :
    ((paddedLength s.length * 2 + 1 : ℤ) ≤ cipherLen → (paddedLength s.length : ℤ) ≤ plainLen →
        let e := yxAesEcbEncrypt ssl (s.getD · 0) s.length key cipherTxt cipherLen
        (Recovered (yxAesEcbDecrypt ssl e.txt e.len key plainTxt plainLen).txt s
          ↔ Returns s plainTxt))
      ∧ ((paddedLength s.length + 1 : ℤ) ≤ cipherLen → (paddedLength s.length : ℤ) < plainLen →
        let e := appAesEcbEncrypt ssl (s.getD · 0) s.length key cipherTxt cipherLen
        (Recovered (appAesEcbDecrypt ssl e.txt e.len key plainTxt plainLen).txt s
          ↔ Returns s plainTxt)) := by
  constructor
  · intro hcipher hplain
    obtain ⟨b, hdec, hb⟩ := yxAesEcbDecrypt_encrypt hssl key hlen cipherTxt plainTxt hcipher hplain
    dsimp only at hdec ⊢
    rw [hdec, recovered_iff hs h0 hb]
  · intro hcipher hplain
    obtain ⟨b, hdec, hb⟩ := appAesEcbDecrypt_encrypt hssl key hlen cipherTxt plainTxt hcipher hplain
    dsimp only at hdec ⊢
    rw [hdec, recovered_iff hs h0 hb]

-- A published example of AES-128; the other blocks do not matter here.
def exampleKey : Vector UInt8 16 :=
  #v[0x2b, 0x7e, 0x15, 0x16, 0x28, 0xae, 0xd2, 0xa6, 0xab, 0xf7, 0x15, 0x88, 0x09, 0xcf, 0x4f, 0x3c]

def examplePlain : Vector UInt8 16 :=
  #v[0x6b, 0xc1, 0xbe, 0xe2, 0x2e, 0x40, 0x9f, 0x96, 0xe9, 0x3d, 0x7e, 0x11, 0x73, 0x93, 0x17, 0x2a]

def exampleCipher : Vector UInt8 16 :=
  #v[0x3a, 0xd7, 0x7b, 0xb4, 0x0d, 0x7a, 0x36, 0x60, 0xa8, 0x9e, 0xca, 0xf3, 0x24, 0x66, 0xef, 0x97]

def exampleSwap (block key : Vector UInt8 16) : Vector UInt8 16 :=
  if key = exampleKey then Equiv.swap examplePlain exampleCipher block else block

def exampleSsl : OpenSsl where
  Key := Vector UInt8 16
  setEncryptKey := id
  setDecryptKey := id
  encrypt := exampleSwap
  decrypt := exampleSwap

lemma exampleSsl_inverse : exampleSsl.Inverse := by
  intro key block
  change exampleSwap (exampleSwap block key) key = block
  rw [exampleSwap, exampleSwap]
  split
  · exact Equiv.swap_apply_self _ _ _
  · rfl

theorem decrypt_encrypt_example :
    let e := yxAesEcbEncrypt exampleSsl (examplePlain.toList.getD · 0) 16 exampleKey (fun _ => 255) 33
    Recovered (yxAesEcbDecrypt exampleSsl e.txt e.len exampleKey (fun _ => 255) 16).txt
      examplePlain.toList :=
  ((decrypt_encrypt_iff exampleSsl_inverse exampleKey (s := examplePlain.toList) (by decide)
    (by decide) (by decide) (fun _ => 255) (fun _ => 255) 33 16).1 (by decide) (by decide)).mpr
    (.inr ⟨by decide, .inl (by decide)⟩)

theorem decrypt_encrypt_short :
    let e := yxAesEcbEncrypt exampleSsl ((bytes "a").getD · 0) 1 exampleKey (fun _ => 0) 33
    ¬ Recovered (yxAesEcbDecrypt exampleSsl e.txt e.len exampleKey (fun _ => 0) 16).txt
      (bytes "a") := by
  obtain ⟨b, hdec, hb⟩ := yxAesEcbDecrypt_encrypt exampleSsl_inverse exampleKey
    (show (bytes "a").length ≤ 4080 by decide) (fun _ => 0) (fun _ => 0)
    (show (paddedLength (bytes "a").length * 2 + 1 : ℤ) ≤ 33 by decide)
    (show (paddedLength (bytes "a").length : ℤ) ≤ 16 by decide)
  have hiff := recovered_iff (by decide) (by decide) hb
  rw [← hdec] at hiff
  refine fun h => absurd (hiff.mp h) ?_
  rintro (h | ⟨h, -⟩)
  · exact absurd h (by decide)
  · exact absurd h (by decide)

end SimpleCode.Crypto.Aes
