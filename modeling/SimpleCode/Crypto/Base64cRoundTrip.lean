import Mathlib.Data.List.Basic
import SimpleCode.Crypto.Base64c

set_option autoImplicit false

/-! `base64en` writes the padded text within its block, and `base64de` reads it back, exactly for
the lengths that leave no rest of one or two bytes and whose text an `int` can count. -/

namespace SimpleCode.Crypto.Base64c

open Foundations Base64

def Block.storeList (b : Block) (p : ℕ) : Bytes → Block
  | [] => b
  | v :: vs => (b.store p v).storeList (p + 1) vs

namespace Block

variable (b : Block) (p : ℕ) (vs ws : Bytes)

lemma storeList_append : b.storeList p (vs ++ ws) = (b.storeList p vs).storeList (p + vs.length) ws := by
  induction vs generalizing b p with
  | nil => rfl
  | cons v vs ih =>
    rw [List.cons_append, storeList, storeList, ih, List.length_cons]
    congr 1
    omega

lemma storeList_cells (a : ℕ) :
    (b.storeList p vs).cells a
      = if p ≤ a ∧ a < p + vs.length then vs.getD (a - p) 0 else b.cells a := by
  induction vs generalizing b p with
  | nil => rw [storeList, if_neg (by simp)]
  | cons v vs ih =>
    rw [storeList, ih, List.length_cons]
    by_cases ha : a = p
    · subst ha
      rw [if_neg (by omega), if_pos (by omega)]
      simp [store]
    · by_cases hin : p + 1 ≤ a ∧ a < p + 1 + vs.length
      · rw [if_pos hin, if_pos (by omega), show a - p = a - (p + 1) + 1 by omega,
          List.getD_cons_succ]
      · rw [if_neg hin, if_neg (by omega)]
        simp [store, Function.update_of_ne ha]

lemma storeList_size : (b.storeList p vs).size = b.size := by
  induction vs generalizing b p with
  | nil => rfl
  | cons v vs ih => exact ih (b.store p v) (p + 1)

lemma storeList_overrun (h : p + vs.length ≤ b.size) :
    (b.storeList p vs).overrun = b.overrun := by
  induction vs generalizing b p with
  | nil => rfl
  | cons v vs ih =>
    rw [List.length_cons] at h
    refine (ih (b.store p v) (p + 1) (by simp only [store]; omega)).trans ?_
    simp only [store, decide_eq_false (show ¬ b.size ≤ p by omega), Bool.or_false]

end Block

lemma take_succ_mul (l : Bytes) (w i : ℕ) :
    l.take (w * (i + 1)) = l.take (w * i) ++ (l.drop (w * i)).take w := by
  rw [Nat.mul_succ, List.take_add]

lemma foldl_eq_storeList {step : Block → ℕ → Block} {l : Bytes} {w n : ℕ} (hn : w * n ≤ l.length)
    (hstep : ∀ b, ∀ i < n, step b i = b.storeList (w * i) ((l.drop (w * i)).take w)) (b : Block) :
    (List.range n).foldl step b = b.storeList 0 (l.take (w * n)) := by
  suffices h : ∀ i ≤ n, (List.range i).foldl step b = b.storeList 0 (l.take (w * i)) from h n le_rfl
  intro i hi
  induction i with
  | zero => simp [Block.storeList]
  | succ i ih =>
    have hle : w * i ≤ w * n := Nat.mul_le_mul_left w (by omega)
    rw [List.range_succ, List.foldl_append, List.foldl_cons, List.foldl_nil, ih (by omega),
      hstep _ i (by omega), take_succ_mul, Block.storeList_append, List.length_take_of_le (by omega),
      Nat.zero_add]

lemma text_of_storeList (heap : ℕ → UInt8) (size : ℕ) {t : Bytes} (ht : (0 : UInt8) ∉ t)
    (ret : ℤ) :
    strlen ((malloc heap size).storeList 0 (t ++ [0])).cells t.length = t.length
      ∧ (Result.mk ret ((malloc heap size).storeList 0 (t ++ [0])) t.length).text = t := by
  have hcell : ∀ i < t.length,
      ((malloc heap size).storeList 0 (t ++ [0])).cells i = t.getD i 0 := by
    intro i hi
    rw [Block.storeList_cells, if_pos (by simp; omega), Nat.sub_zero, List.getD_append _ _ _ _ hi]
  have hlen : strlen ((malloc heap size).storeList 0 (t ++ [0])).cells t.length = t.length := by
    rw [strlen, List.takeWhile_eq_self_iff.mpr, List.length_range]
    intro i hi
    have hi' := List.mem_range.mp hi
    rw [hcell i hi', bne_iff_ne, List.getD_eq_getElem _ _ hi']
    exact fun h => ht (h ▸ List.getElem_mem hi')
  refine ⟨hlen, ?_⟩
  rw [Result.text, hlen]
  apply List.ext_getElem
  · simp
  · intro i hi hi'
    rw [List.getElem_map, List.getElem_range, hcell i hi', List.getD_eq_getElem _ _ hi']

lemma table_eq_digit : table = digit := rfl

lemma base64Index_digit {v : ℕ} (hv : v < 64) : base64Index (digit v) = v := by
  have h : ∀ v < 64, base64Index (digit v) = v := by decide +kernel
  exact h v hv

lemma code_digit {v : ℕ} (hv : v < 64) : code (digit v) = v := by
  rw [code, base64Index_digit hv]
  omega

lemma digit_ne_pad {v : ℕ} (hv : v < 64) : digit v ≠ '='.toUInt8 := by
  have h : ∀ v < 64, digit v ≠ '='.toUInt8 := by decide +kernel
  exact h v hv

lemma u32_of_lt {n : ℕ} (h : n < 2 ^ 32) : u32 n = n := Nat.mod_eq_of_lt h

lemma encodeGroup_eq {s : Bytes} {i : ℕ} (hi : 3 * i + 2 < s.length) (hs : 4 * i + 3 < 2 ^ 32)
    (b : Block) :
    encodeGroup s b i = b.storeList (4 * i) (((encode s).drop (4 * i)).take 4) := by
  have hstore (v₀ v₁ v₂ v₃ : UInt8) :
      (((b.store (u32 (i * 4 + 0)) v₀).store (u32 (i * 4 + 1)) v₁).store (u32 (i * 4 + 2)) v₂).store
          (u32 (i * 4 + 3)) v₃ = b.storeList (4 * i) [v₀, v₁, v₂, v₃] := by
    rw [u32_of_lt (by omega), u32_of_lt (by omega), u32_of_lt (by omega), u32_of_lt (by omega),
      Nat.mul_comm i 4]
    rfl
  rw [encodeGroup, hstore, encode_whole_group hi, u32_of_lt (by omega), u32_of_lt (by omega),
    u32_of_lt (by omega), Nat.mul_comm i 3, table_eq_digit, Nat.add_zero]
  generalize s.getD (3 * i) 0 = x, s.getD (3 * i + 1) 0 = y, s.getD (3 * i + 2) 0 = z
  have := x.toNat_lt
  have := y.toNat_lt
  have := z.toNat_lt
  simp only [digits, group, Nat.shiftRight_eq_div_pow, Nat.shiftLeft_eq,
    show ∀ n, n &&& 0x03 = n % 4 from fun n => Nat.and_two_pow_sub_one_eq_mod n 2,
    show ∀ n, n &&& 0x0f = n % 16 from fun n => Nat.and_two_pow_sub_one_eq_mod n 4,
    show ∀ n, n &&& 0x3f = n % 64 from fun n => Nat.and_two_pow_sub_one_eq_mod n 6]
  rw [show x.toNat / 2 ^ 2 = (x.toNat * 65536 + y.toNat * 256 + z.toNat) / 262144 by omega,
    show x.toNat % 4 * 2 ^ 4 + y.toNat / 2 ^ 4
      = (x.toNat * 65536 + y.toNat * 256 + z.toNat) / 4096 % 64 by omega,
    show y.toNat % 16 * 2 ^ 2 + z.toNat / 2 ^ 6
      = (x.toNat * 65536 + y.toNat * 256 + z.toNat) / 64 % 64 by omega,
    show z.toNat % 64 = (x.toNat * 65536 + y.toNat * 256 + z.toNat) % 64 by omega]

lemma encode_getD {s : Bytes} {i : ℕ} (hi : 3 * i + 2 < s.length) {k : ℕ} (hk : k < 4) :
    (encode s).getD (4 * i + k) 0
      = (digits (group (s.getD (3 * i) 0) (s.getD (3 * i + 1) 0) (s.getD (3 * i + 2) 0))).getD k 0 := by
  rw [← encode_whole_group hi]
  simp [List.getD_eq_getElem?_getD, hk]

lemma digits_getD (n : ℕ) :
    (digits n).getD 0 0 = digit (n / 262144) ∧ (digits n).getD 1 0 = digit (n / 4096 % 64)
      ∧ (digits n).getD 2 0 = digit (n / 64 % 64) ∧ (digits n).getD 3 0 = digit (n % 64) :=
  ⟨rfl, rfl, rfl, rfl⟩

lemma drop_take_three {s : Bytes} {i : ℕ} (hi : 3 * i + 2 < s.length) :
    (s.drop (3 * i)).take 3 = [s.getD (3 * i) 0, s.getD (3 * i + 1) 0, s.getD (3 * i + 2) 0] := by
  rw [List.getD_eq_getElem _ _ (by omega), List.getD_eq_getElem _ _ (by omega),
    List.getD_eq_getElem _ _ hi, List.drop_eq_getElem_cons (by omega),
    List.drop_eq_getElem_cons (by omega), List.drop_eq_getElem_cons (by omega)]
  rfl

lemma decode_codes (x y z : UInt8) :
    UInt8.ofNat ((group x y z / 262144) <<< 2 + (group x y z / 4096 % 64) >>> 4) = x
      ∧ UInt8.ofNat ((group x y z / 4096 % 64) <<< 4 + (group x y z / 64 % 64) >>> 2) = y
      ∧ UInt8.ofNat ((group x y z / 64 % 64 &&& 0x03) <<< 6 + group x y z % 64) = z := by
  have := x.toNat_lt
  have := y.toNat_lt
  have := z.toNat_lt
  simp only [group, Nat.shiftRight_eq_div_pow, Nat.shiftLeft_eq,
    show ∀ n, n &&& 0x03 = n % 4 from fun n => Nat.and_two_pow_sub_one_eq_mod n 2]
  refine ⟨UInt8.toNat_inj.mp ?_, UInt8.toNat_inj.mp ?_, UInt8.toNat_inj.mp ?_⟩
  · rw [UInt8.toNat_ofNat']
    omega
  · rw [UInt8.toNat_ofNat']
    omega
  · rw [UInt8.toNat_ofNat']
    omega

lemma group_codes {s : Bytes} {i : ℕ} (hi : 3 * i + 2 < s.length) (hs : 4 * i + 3 < 2 ^ 32) :
    let n := group (s.getD (3 * i) 0) (s.getD (3 * i + 1) 0) (s.getD (3 * i + 2) 0)
    code ((encode s).getD (u32 (i * 4 + 0)) 0) = n / 262144
      ∧ code ((encode s).getD (u32 (i * 4 + 1)) 0) = n / 4096 % 64
      ∧ code ((encode s).getD (u32 (i * 4 + 2)) 0) = n / 64 % 64
      ∧ code ((encode s).getD (u32 (i * 4 + 3)) 0) = n % 64 := by
  intro n
  have hn : n < 16777216 := group_lt _ _ _
  obtain ⟨h₀, h₁, h₂, h₃⟩ := digits_getD n
  rw [u32_of_lt (by omega), u32_of_lt (by omega), u32_of_lt (by omega), u32_of_lt (by omega),
    Nat.mul_comm i 4, encode_getD hi (by decide), encode_getD hi (by decide),
    encode_getD hi (by decide), encode_getD hi (by decide), h₀, h₁, h₂, h₃]
  exact ⟨code_digit (by omega), code_digit (by omega), code_digit (by omega),
    code_digit (by omega)⟩

lemma decodeGroup_eq {s : Bytes} {i : ℕ} (hi : 3 * i + 2 < s.length) (hs : 4 * i + 3 < 2 ^ 32)
    (b : Block) :
    decodeGroup (encode s) b i = b.storeList (3 * i) ((s.drop (3 * i)).take 3) := by
  obtain ⟨h₀, h₁, h₂, h₃⟩ := group_codes hi hs
  obtain ⟨hx, hy, hz⟩ := decode_codes (s.getD (3 * i) 0) (s.getD (3 * i + 1) 0) (s.getD (3 * i + 2) 0)
  rw [decodeGroup, drop_take_three hi]
  simp only [h₀, h₁, h₂, h₃, hx, hy, hz]
  rw [u32_of_lt (by omega), u32_of_lt (by omega), u32_of_lt (by omega), Nat.mul_comm i 3]
  rfl

lemma decodeTail_eq {s : Bytes} {i : ℕ} (hi : 3 * i + 3 = s.length) (hs : 4 * i + 3 < 2 ^ 32)
    (b : Block) :
    decodeTail (encode s) b i
      = (b.storeList (3 * i) ((s.drop (3 * i)).take 3 ++ [0]), s.length) := by
  have hi' : 3 * i + 2 < s.length := by omega
  obtain ⟨h₀, h₁, h₂, h₃⟩ := group_codes hi' hs
  obtain ⟨hx, hy, hz⟩ := decode_codes (s.getD (3 * i) 0) (s.getD (3 * i + 1) 0) (s.getD (3 * i + 2) 0)
  have hn := group_lt (s.getD (3 * i) 0) (s.getD (3 * i + 1) 0) (s.getD (3 * i + 2) 0)
  have h2 : (encode s).getD (u32 (i * 4 + 2)) 0 ≠ '='.toUInt8 := by
    rw [u32_of_lt (by omega), Nat.mul_comm i 4, encode_getD hi' (by decide), (digits_getD _).2.2.1]
    exact digit_ne_pad (by omega)
  have h3 : (encode s).getD (u32 (i * 4 + 3)) 0 ≠ '='.toUInt8 := by
    rw [u32_of_lt (by omega), Nat.mul_comm i 4, encode_getD hi' (by decide), (digits_getD _).2.2.2]
    exact digit_ne_pad (by omega)
  rw [decodeTail, drop_take_three hi']
  simp only [if_neg h2, if_neg h3, h₀, h₁, h₂, h₃, hx, hy, hz]
  rw [u32_of_lt (by omega), u32_of_lt (by omega), u32_of_lt (by omega), u32_of_lt (by omega),
    Nat.mul_comm i 3, hi]
  rw [← hi]
  rfl

lemma base64Index_encode {s : Bytes} (h3 : 3 ∣ s.length) {i : ℕ} (hi : i < (encode s).length) :
    0 ≤ base64Index ((encode s).getD i 0) := by
  rw [length_encode] at hi
  have hgroup : 3 * (i / 4) + 2 < s.length := by omega
  have hn := group_lt (s.getD (3 * (i / 4)) 0) (s.getD (3 * (i / 4) + 1) 0) (s.getD (3 * (i / 4) + 2) 0)
  obtain ⟨h₀, h₁, h₂, h₃⟩ := digits_getD
    (group (s.getD (3 * (i / 4)) 0) (s.getD (3 * (i / 4) + 1) 0) (s.getD (3 * (i / 4) + 2) 0))
  rw [← Nat.div_add_mod i 4, encode_getD hgroup (Nat.mod_lt i (by decide))]
  have hk : i % 4 = 0 ∨ i % 4 = 1 ∨ i % 4 = 2 ∨ i % 4 = 3 := by omega
  rcases hk with hk | hk | hk | hk
  · rw [hk, h₀, base64Index_digit (by omega)]
    omega
  · rw [hk, h₁, base64Index_digit (by omega)]
    omega
  · rw [hk, h₂, base64Index_digit (by omega)]
    omega
  · rw [hk, h₃, base64Index_digit (by omega)]
    omega

lemma toInt_of_lt {n : ℕ} (h : n < 2 ^ 31) : toInt n = n := by
  rw [toInt, BitVec.toInt_eq_toNat_of_lt (by rw [BitVec.toNat_ofNat]; omega), BitVec.toNat_ofNat,
    Nat.mod_eq_of_lt (by omega)]

lemma toInt_neg {n : ℕ} (h : 2 ^ 31 ≤ n) (h' : n < 2 ^ 32) : toInt n < 0 := by
  rw [toInt, BitVec.toInt_eq_toNat_cond, BitVec.toNat_ofNat, Nat.mod_eq_of_lt h', if_neg (by omega)]
  omega

lemma base64en_of_dvd (heap : ℕ → UInt8) {s : Bytes} (hs : s ≠ []) (h3 : 3 ∣ s.length)
    (hlen : 4 * (s.length / 3) < 2 ^ 32) :
    base64en heap s = ⟨toInt (encode s).length,
      (malloc heap ((encode s).length + 1)).storeList 0 (encode s ++ [0]), (encode s).length⟩ := by
  have hpos : 0 < s.length := List.length_pos_iff.mpr hs
  have htext := length_encode s
  have hloop (b : Block) : (List.range (s.length / 3)).foldl (encodeGroup s) b
      = b.storeList 0 (encode s) := by
    rw [foldl_eq_storeList (w := 4) (by omega)
      (fun b i hi => encodeGroup_eq (by omega) (by omega) b), List.take_of_length_le (by omega)]
  have hstore (b : Block) : (b.storeList 0 (encode s)).store (encode s).length 0
      = b.storeList 0 (encode s ++ [0]) := by
    rw [Block.storeList_append, Nat.zero_add]
    rfl
  have hn := (text_of_storeList heap ((encode s).length + 1) (zero_notMem_encode s) 0).1
  have hcheck : ((List.range (((encode s).length + (2 ^ 64 - 1)) % 2 ^ 64)).any fun i =>
      decide (base64Index (((malloc heap ((encode s).length + 1)).storeList 0
        (encode s ++ [0])).cells i) < 0)) = false := by
    rw [List.any_eq_false]
    intro i hi
    have hi' := List.mem_range.mp hi
    have hlt : i < (encode s).length := by omega
    have hix := base64Index_encode h3 hlt
    rw [Block.storeList_cells, if_pos (by simp; omega), Nat.sub_zero, List.getD_append _ _ _ _ hlt]
    simpa using hix
  have hlenth : u32 s.length = s.length := u32_of_lt (by omega)
  have hrest : u32 (s.length - s.length / 3 * 3) = 0 := by
    rw [u32_of_lt (by omega)]
    omega
  have hlen4 : u32 (s.length / 3 * 4) = (encode s).length := by
    rw [u32_of_lt (by omega)]
    omega
  simp only [base64en, hlenth, hrest, Nat.lt_irrefl, if_false, hlen4, hloop, hstore, hn, hcheck,
    Bool.false_eq_true]

lemma base64de_of_dvd (heap : ℕ → UInt8) {s : Bytes} (hs : s ≠ []) (h0 : (0 : UInt8) ∉ s)
    (h3 : 3 ∣ s.length) (hlen : 4 * (s.length / 3) < 2 ^ 32) :
    base64de heap (encode s) = ⟨toInt s.length,
      (malloc heap (s.length + 1)).storeList 0 (s ++ [0]), s.length⟩ := by
  have hpos : 0 < s.length := List.length_pos_iff.mpr hs
  have htext := length_encode s
  have hlenth : u32 (encode s).length = (encode s).length := u32_of_lt (by omega)
  have hgroups : u32 ((encode s).length / 4 + (2 ^ 32 - 1)) = s.length / 3 - 1 := by
    rw [u32]
    omega
  have hsize : u32 (s.length / 3 - 1 + 1) * 3 + 1 = s.length + 1 := by
    rw [u32_of_lt (by omega)]
    omega
  have hlast : u32 ((encode s).length + (2 ^ 32 - 1)) = (encode s).length - 1 := by
    rw [u32]
    omega
  have hcheck : ((List.range ((encode s).length - 1)).any fun i =>
      decide (base64Index ((encode s).getD i 0) < 0)) = false := by
    rw [List.any_eq_false]
    intro i hi
    have hi' := List.mem_range.mp hi
    have hix := base64Index_encode h3 (show i < (encode s).length by omega)
    simpa using hix
  have hloop (b : Block) : (List.range (s.length / 3 - 1)).foldl (decodeGroup (encode s)) b
      = b.storeList 0 (s.take (3 * (s.length / 3 - 1))) :=
    foldl_eq_storeList (by omega) (fun b i hi => decodeGroup_eq (by omega) (by omega) b) b
  have htail (b : Block) : decodeTail (encode s) (b.storeList 0 (s.take (3 * (s.length / 3 - 1))))
      (s.length / 3 - 1) = (b.storeList 0 (s ++ [0]), s.length) := by
    rw [decodeTail_eq (by omega) (by omega)]
    have hwhole : s = s.take (3 * (s.length / 3 - 1)) ++ (s.drop (3 * (s.length / 3 - 1))).take 3 := by
      rw [← take_succ_mul, List.take_of_length_le (by omega)]
    refine Prod.ext ?_ rfl
    conv_rhs => rw [hwhole, List.append_assoc, Block.storeList_append,
      List.length_take_of_le (by omega), Nat.zero_add]
  have hn := (text_of_storeList heap (s.length + 1) h0 0).1
  simp only [base64de, hlenth, hgroups, hsize, hlast, hcheck, Bool.false_eq_true, if_false, hloop,
    htail, hn]

/-- What is asked of the two functions for the string `s`, whatever the two blocks held. -/
structure RoundTrip (heap heap' : ℕ → UInt8) (s : Bytes) : Prop where
  encodes : 0 ≤ (base64en heap s).ret
  text : (base64en heap s).text = encode s
  room : (encode s).length < (base64en heap s).block.size
  within : (base64en heap s).block.overrun = false
  decodes : 0 ≤ (base64de heap' (base64en heap s).text).ret
  back : (base64de heap' (base64en heap s).text).text = s

lemma base64en_size (heap : ℕ → UInt8) (s : Bytes) :
    (base64en heap s).block.size = u32 (u32 s.length / 3 * 4) + 1 := by
  have hstore (b : Block) (i : ℕ) (v : UInt8) : (b.store i v).size = b.size := rfl
  have hgroup (b : Block) (i : ℕ) : (encodeGroup s b i).size = b.size := by
    simp only [encodeGroup, hstore]
  have hloop (b : Block) (n : ℕ) : ((List.range n).foldl (encodeGroup s) b).size = b.size := by
    induction n with
    | zero => rfl
    | succ n ih =>
      rw [List.range_succ, List.foldl_append, List.foldl_cons, List.foldl_nil, hgroup, ih]
  simp only [base64en]
  split <;> split <;> simp only [hstore, encodeTail, hloop] <;> rfl

lemma base64en_ret {heap : ℕ → UInt8} {s : Bytes} (h : 0 ≤ (base64en heap s).ret) :
    (base64en heap s).ret = toInt (base64en heap s).text.length := by
  have htext : (base64en heap s).text.length
      = strlen (base64en heap s).block.cells (base64en heap s).nul := by
    rw [Result.text, List.length_map, List.length_range]
  rw [htext]
  revert h
  simp only [base64en]
  split <;> split <;> intro h
  · exact absurd h (show ¬ (0 : ℤ) ≤ -1 by decide)
  · rfl
  · exact absurd h (show ¬ (0 : ℤ) ≤ -1 by decide)
  · rfl

theorem roundTrip_iff (heap heap' : ℕ → UInt8) {s : Bytes} (hs : s ≠ []) (h0 : (0 : UInt8) ∉ s) :
    RoundTrip heap heap' s ↔ 3 ∣ s.length ∧ s.length < 3 * 2 ^ 29 := by
  have htext := length_encode s
  constructor
  · rintro ⟨hret, ht, hroom, -, -, -⟩
    rw [base64en_size, u32, u32] at hroom
    rw [base64en_ret hret, ht] at hret
    have hshort : (encode s).length < 2 ^ 31 := by
      by_contra hlong
      exact absurd hret (not_le.mpr (toInt_neg (not_lt.mp hlong) (by omega)))
    have hmod := Nat.mod_le (s.length % 2 ^ 32 / 3 * 4) (2 ^ 32)
    have hdiv : s.length % 2 ^ 32 / 3 ≤ s.length / 3 := Nat.div_le_div_right (Nat.mod_le _ _)
    omega
  · rintro ⟨h3, hlen⟩
    have hen := base64en_of_dvd heap hs h3 (by omega)
    have hread := (text_of_storeList heap ((encode s).length + 1) (zero_notMem_encode s)
      (toInt (encode s).length)).2
    have hde := base64de_of_dvd heap' hs h0 h3 (by omega)
    have hback := (text_of_storeList heap' (s.length + 1) h0 (toInt s.length)).2
    constructor
    · rw [hen, toInt_of_lt (by omega)]
      exact Int.natCast_nonneg _
    · rw [hen, hread]
    · rw [hen, Block.storeList_size]
      simp [malloc]
    · rw [hen, Block.storeList_overrun _ _ _ (by simp [malloc])]
      rfl
    · rw [hen, hread, hde, toInt_of_lt (by omega)]
      exact Int.natCast_nonneg _
    · rw [hen, hread, hde, hback]

theorem roundTrip_iff_groups : RoundTrip (fun _ => 255) (fun _ => 255) (bytes "Many hands. Light.") :=
  (roundTrip_iff _ _ (by decide +kernel) (by decide +kernel)).mpr (by decide +kernel)

theorem not_roundTrip_a : ¬ RoundTrip (fun _ => 255) (fun _ => 255) (bytes "a") := by
  intro h
  exact absurd h.encodes (by decide +kernel)

end SimpleCode.Crypto.Base64c
