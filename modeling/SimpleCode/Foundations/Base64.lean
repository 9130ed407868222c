import Mathlib.Tactic.Ring
import SimpleCode.Foundations.Bytes

set_option autoImplicit false

namespace SimpleCode.Foundations.Base64

def alphabet : Bytes :=
  bytes "ABCDEFGHIJKLMNOPQRSTUVWXYZabcdefghijklmnopqrstuvwxyz0123456789+/"

def digit (v : ℕ) : UInt8 := alphabet.getD v 0

def pad : UInt8 := 61

def group (a b c : UInt8) : ℕ := a.toNat * 65536 + b.toNat * 256 + c.toNat

def encode : Bytes → Bytes
  | a :: b :: c :: s =>
    digit (group a b c / 262144) :: digit (group a b c / 4096 % 64) ::
      digit (group a b c / 64 % 64) :: digit (group a b c % 64) :: encode s
  | [a, b] =>
    [digit (group a b 0 / 262144), digit (group a b 0 / 4096 % 64), digit (group a b 0 / 64 % 64),
      pad]
  | [a] => [digit (group a 0 0 / 262144), digit (group a 0 0 / 4096 % 64), pad, pad]
  | [] => []

lemma length_encode (s : Bytes) : (encode s).length = 4 * ((s.length + 2) / 3) := by
  fun_induction encode s with
  | case1 a b c s ih =>
    simp only [List.length_cons, ih]
    omega
  | case2 | case3 | case4 => simp

lemma digit_ne_zero {v : ℕ} (hv : v < 64) : digit v ≠ 0 := by
  have h : ∀ v < 64, digit v ≠ 0 := by decide +kernel
  exact h v hv

lemma group_lt (a b c : UInt8) : group a b c < 16777216 := by
  have := a.toNat_lt
  have := b.toNat_lt
  have := c.toNat_lt
  rw [group]
  omega

lemma ne_zero_of_mem_encode {s : Bytes} {x : UInt8} (h : x ∈ encode s) : x ≠ 0 := by
  fun_induction encode s with
  | case1 a b c s ih =>
    have := group_lt a b c
    simp only [List.mem_cons] at h
    rcases h with rfl | rfl | rfl | rfl | h
    · exact digit_ne_zero (by omega)
    · exact digit_ne_zero (by omega)
    · exact digit_ne_zero (by omega)
    · exact digit_ne_zero (by omega)
    · exact ih h
  | case2 a b =>
    have := group_lt a b 0
    simp only [List.mem_cons, List.not_mem_nil, or_false] at h
    rcases h with rfl | rfl | rfl | rfl
    · exact digit_ne_zero (by omega)
    · exact digit_ne_zero (by omega)
    · exact digit_ne_zero (by omega)
    · decide
  | case3 a =>
    have := group_lt a 0 0
    simp only [List.mem_cons, List.not_mem_nil, or_false] at h
    rcases h with rfl | rfl | rfl | rfl
    · exact digit_ne_zero (by omega)
    · exact digit_ne_zero (by omega)
    · decide
    · decide
  | case4 => cases h

lemma zero_notMem_encode (s : Bytes) : (0 : UInt8) ∉ encode s :=
  fun h => ne_zero_of_mem_encode h rfl

def digits (n : ℕ) : Bytes :=
  [digit (n / 262144), digit (n / 4096 % 64), digit (n / 64 % 64), digit (n % 64)]

lemma encode_whole_group {s : Bytes} {i : ℕ} (hi : 3 * i + 2 < s.length) :
    ((encode s).drop (4 * i)).take 4
      = digits (group (s.getD (3 * i) 0) (s.getD (3 * i + 1) 0) (s.getD (3 * i + 2) 0)) := by
  induction i generalizing s with
  | zero =>
    match s, hi with
    | a :: b :: c :: s, _ => simp [encode, digits]
  | succ i ih =>
    match s, hi with
    | a :: b :: c :: s, hi =>
      rw [encode, show 4 * (i + 1) = 4 * i + 4 by omega, show 3 * (i + 1) = 3 * i + 3 by omega]
      simp only [List.getD_cons_succ, List.drop_succ_cons, Nat.add_right_comm _ 3]
      exact ih (by simp only [List.length_cons] at hi; omega)

end SimpleCode.Foundations.Base64
