import Mathlib

set_option autoImplicit false

namespace SimpleCode.Foundations

-- A selection table counts the cells of its source from one.
structure SelectionTable (m n : ℕ) where
  entries : Vector ℕ n
  inRange : ∀ i : Fin n, 1 ≤ entries[i] ∧ entries[i] ≤ m

namespace SelectionTable

variable {m n : ℕ}

def index (t : SelectionTable m n) (i : Fin n) : Fin m :=
  ⟨t.entries.get i - 1, by
    have hrange : 1 ≤ t.entries.get i ∧ t.entries.get i ≤ m := t.inRange i
    omega⟩

def permute (t : SelectionTable m n) (x : BitVec m) : BitVec n :=
  BitVec.ofFnLE fun i => x.getLsb (t.index i)

lemma getLsbD_permute (t : SelectionTable m n) (x : BitVec m) (i : Fin n) :
    (t.permute x).getLsbD i = x.getLsbD (t.index i) := by
  rw [permute, BitVec.getLsbD_ofFnLE, dif_pos i.isLt]
  rfl

def InverseOf (u : SelectionTable n m) (t : SelectionTable m n) : Prop :=
  ∀ i, t.index (u.index i) = i

instance (u : SelectionTable n m) (t : SelectionTable m n) : Decidable (u.InverseOf t) :=
  inferInstanceAs (Decidable (∀ i, t.index (u.index i) = i))

theorem permute_permute {u : SelectionTable n m} {t : SelectionTable m n} (h : u.InverseOf t)
    (x : BitVec m) : u.permute (t.permute x) = x := by
  apply BitVec.eq_of_getLsbD_eq
  intro i hi
  have ht := getLsbD_permute t x (u.index ⟨i, hi⟩)
  rw [h ⟨i, hi⟩] at ht
  exact (getLsbD_permute u _ ⟨i, hi⟩).trans ht

theorem permute_injective {t : SelectionTable m n} (h : ∀ j, ∃ i, t.index i = j) :
    Function.Injective t.permute := by
  intro x y hxy
  apply BitVec.eq_of_getLsbD_eq
  intro j hj
  obtain ⟨i, hi⟩ := h ⟨j, hj⟩
  have hbit := congrArg (fun z => z.getLsbD i) hxy
  simp only [getLsbD_permute, hi] at hbit
  exact hbit

end SelectionTable

namespace BitArray

variable {n m : ℕ}

lemma getD_ofFn {α : Type*} (f : Fin n → α) (d : α) {i : ℕ} (hi : i < n) :
    (Vector.ofFn f).getD i d = f ⟨i, hi⟩ := by
  have hs : i < (Vector.ofFn f).toArray.size := by simpa using hi
  rw [Vector.getD, Array.getD, dif_pos hs]
  simp

-- `memcpy(x + o, y, m)`
def put (x : BitVec n) (o : ℕ) (y : BitVec m) : BitVec n :=
  BitVec.ofFnLE fun i => if o ≤ i ∧ i < o + m then y.getLsbD (i - o) else x.getLsbD i

lemma getLsbD_put (x : BitVec n) (o : ℕ) (y : BitVec m) {i : ℕ} (hi : i < n) :
    (put x o y).getLsbD i = if o ≤ i ∧ i < o + m then y.getLsbD (i - o) else x.getLsbD i := by
  rw [put, BitVec.getLsbD_ofFnLE, dif_pos hi]

lemma extract_put (x : BitVec n) {o : ℕ} (y : BitVec m) (h : o + m ≤ n) :
    (put x o y).extractLsb' o m = y := by
  apply BitVec.eq_of_getLsbD_eq
  intro i hi
  rw [BitVec.getLsbD_extractLsb', getLsbD_put x o y (by omega), if_pos (by omega)]
  simp [hi]

lemma extract_put_of_disjoint (x : BitVec n) {o p k : ℕ} (y : BitVec m) (hp : p + k ≤ n)
    (h : p + k ≤ o ∨ o + m ≤ p) : (put x o y).extractLsb' p k = x.extractLsb' p k := by
  apply BitVec.eq_of_getLsbD_eq
  intro i hi
  rw [BitVec.getLsbD_extractLsb', BitVec.getLsbD_extractLsb', getLsbD_put x o y (by omega),
    if_neg (by omega)]

lemma extract_append (x : BitVec n) (o k l : ℕ) :
    x.extractLsb' (o + k) l ++ x.extractLsb' o k = x.extractLsb' o (l + k) := by
  apply BitVec.eq_of_getLsbD_eq
  intro i hi
  simp only [BitVec.getLsbD_append, BitVec.getLsbD_extractLsb']
  split
  · next h => simp [h, hi]
  · next h => simp [show i - k < l by omega, show o + k + (i - k) = o + i by omega, hi]

lemma shift_and_one (x k : ℕ) : (x >>> k &&& 1 == 1) = x.testBit k := by
  rw [Nat.testBit, Nat.and_comm 1]
  rcases Nat.mod_two_eq_zero_or_one (x >>> k) with h | h <;> simp [Nat.and_one_is_mod, h]

-- Bit `i` of an array of bytes is bit `i % 8` of byte `i / 8`.
def ofBytes (n : ℕ) (b : ℕ → UInt8) : BitVec n :=
  BitVec.ofFnLE fun i => (b (i / 8)).toNat.testBit (i % 8)

def byte (x : BitVec n) (k : ℕ) : UInt8 := UInt8.ofBitVec (x.extractLsb' (8 * k) 8)

lemma getLsbD_ofBytes (b : ℕ → UInt8) {i : ℕ} (hi : i < n) :
    (ofBytes n b).getLsbD i = (b (i / 8)).toNat.testBit (i % 8) := by
  rw [ofBytes, BitVec.getLsbD_ofFnLE, dif_pos hi]

lemma testBit_byte (x : BitVec n) (k : ℕ) {t : ℕ} (ht : t < 8) :
    (byte x k).toNat.testBit t = x.getLsbD (8 * k + t) := by
  change (x.extractLsb' (8 * k) 8).getLsbD t = _
  rw [BitVec.getLsbD_extractLsb', decide_eq_true ht, Bool.true_and]

lemma byte_ext {a b : UInt8} (h : ∀ t < 8, a.toNat.testBit t = b.toNat.testBit t) : a = b := by
  apply UInt8.toBitVec_inj.mp
  exact BitVec.eq_of_getLsbD_eq h

lemma ofBytes_congr {a b : ℕ → UInt8} (h : ∀ k, 8 * k < n → a k = b k) :
    ofBytes n a = ofBytes n b := by
  apply BitVec.eq_of_getLsbD_eq
  intro i hi
  rw [getLsbD_ofBytes a hi, getLsbD_ofBytes b hi, h (i / 8) (by omega)]

theorem ofBytes_byte (x : BitVec n) : ofBytes n (byte x) = x := by
  apply BitVec.eq_of_getLsbD_eq
  intro i hi
  rw [getLsbD_ofBytes _ hi, testBit_byte x _ (Nat.mod_lt i (by decide)), Nat.div_add_mod]

theorem byte_ofBytes (b : ℕ → UInt8) {k : ℕ} (hk : 8 * k + 8 ≤ n) :
    byte (ofBytes n b) k = b k := by
  apply byte_ext
  intro t ht
  rw [testBit_byte _ _ ht, getLsbD_ofBytes b (by omega), show (8 * k + t) / 8 = k by omega,
    show (8 * k + t) % 8 = t by omega]

lemma put_pieces {w k : ℕ} (g : Fin k → BitVec w) (l : List (Fin k)) (x : BitVec n)
    (i : Fin k) {t : ℕ} (ht : t < w) (hn : w * i + t < n) :
    (l.foldl (fun x (i : Fin k) => put x (w * i) (g i)) x).getLsbD (w * i + t)
      = if i ∈ l then (g i).getLsbD t else x.getLsbD (w * i + t) := by
  induction l generalizing x with
  | nil => simp
  | cons j l ih =>
    rw [List.foldl_cons, ih, getLsbD_put _ _ _ hn]
    rcases eq_or_ne i j with rfl | hij
    · rw [if_pos (by omega : w * i ≤ w * i + t ∧ w * i + t < w * i + w), if_pos List.mem_cons_self,
        Nat.add_sub_cancel_left, ite_self]
    · have hout : ¬ (w * j ≤ w * i + t ∧ w * i + t < w * j + w) := by
        rintro ⟨h₁, h₂⟩
        have hle : j.val ≤ i := by
          by_contra hlt
          have := Nat.mul_le_mul_left w (by omega : i.val + 1 ≤ j)
          rw [Nat.mul_add] at this
          omega
        have hge : i.val ≤ j := by
          by_contra hlt
          have := Nat.mul_le_mul_left w (by omega : j.val + 1 ≤ i)
          rw [Nat.mul_add] at this
          omega
        exact hij (Fin.ext (Nat.le_antisymm hge hle))
      simp only [if_neg hout, List.mem_cons, hij, false_or]

lemma rotate_eq_rotateRight (x : BitVec n) {k : ℕ} (hk : k < n) :
    put (put x 0 (x.extractLsb' k (n - k))) (n - k) (x.extractLsb' 0 k) = x.rotateRight k := by
  apply BitVec.eq_of_getLsbD_eq
  intro i hi
  rw [getLsbD_put _ _ _ hi, getLsbD_put _ _ _ hi, BitVec.getLsbD_rotateRight_of_lt hk]
  rcases Nat.lt_or_ge i (n - k) with hlt | hge
  · rw [if_neg (by omega), if_pos (by omega), Bool.cond_eq_ite, if_pos (by simpa using hlt)]
    simp [hlt]
  · rw [if_pos (by omega), Bool.cond_eq_ite, if_neg (by simpa using hge)]
    simp [hi, show i - (n - k) < k by omega]

lemma testBit_or_shift (a : UInt8) (b : Bool) {s t : ℕ} (hs : s < 8) (ht : t < 8) :
    (a ||| b.toUInt8 <<< UInt8.ofNat s).toNat.testBit t
      = (a.toNat.testBit t || (b && decide (s = t))) := by
  rw [UInt8.toNat_or, Nat.testBit_or]
  congr 1
  cases b
  · simp [Bool.toUInt8]
  · simp only [Bool.toUInt8, if_true, UInt8.toNat_shiftLeft, UInt8.toNat_ofNat']
    rw [Nat.testBit_mod_two_pow]
    simp [ht, Nat.mod_eq_of_lt hs, Nat.shiftLeft_eq, Nat.testBit_two_pow]

-- `Out[i / 8] |= In[i] << (i % 8)` at the address `Out = p`
def orBit (p : ℕ) (x : BitVec n) (mem : ℕ → UInt8) (i : ℕ) : ℕ → UInt8 :=
  Function.update mem (p + i / 8)
    (mem (p + i / 8) ||| (x.getLsbD i).toUInt8 <<< UInt8.ofNat (i % 8))

def store (mem : ℕ → UInt8) (p : ℕ) (x : BitVec n) : ℕ → UInt8 :=
  fun a => if p ≤ a ∧ a < p + n / 8 then byte x (a - p) else mem a

lemma testBit_orBit_loop (p : ℕ) (x : BitVec n) (mem : ℕ → UInt8) (j a : ℕ) {t : ℕ} (ht : t < 8) :
    ((List.range j).foldl (orBit p x) mem a).toNat.testBit t
      = ((mem a).toNat.testBit t
        || (decide (p ≤ a ∧ 8 * (a - p) + t < j) && x.getLsbD (8 * (a - p) + t))) := by
  induction j with
  | zero => simp
  | succ j ih =>
    rw [List.range_succ, List.foldl_append, List.foldl_cons, List.foldl_nil, orBit]
    rcases eq_or_ne a (p + j / 8) with rfl | ha
    · rw [Function.update_self, testBit_or_shift _ _ (Nat.mod_lt j (by decide)) ht, ih]
      rcases eq_or_ne (j % 8) t with rfl | hj
      · have hi : 8 * (p + j / 8 - p) + j % 8 = j := by omega
        rw [hi]
        simp
      · have hiff : 8 * (p + j / 8 - p) + t < j + 1 ↔ 8 * (p + j / 8 - p) + t < j := by omega
        simp only [hj, decide_false, Bool.and_false, Bool.or_false, hiff]
    · have hiff : p ≤ a ∧ 8 * (a - p) + t < j + 1 ↔ p ≤ a ∧ 8 * (a - p) + t < j := by
        omega
      rw [Function.update_of_ne ha, ih]
      simp only [hiff]

theorem orBit_loop_eq_store (p : ℕ) (x : BitVec n) (hn : 8 ∣ n) (mem : ℕ → UInt8) :
    (List.range n).foldl (orBit p x) (fun a => if p ≤ a ∧ a < p + n / 8 then 0 else mem a)
      = store mem p x := by
  funext a
  apply byte_ext
  intro t ht
  rw [testBit_orBit_loop p x _ n a ht, store]
  by_cases ha : p ≤ a ∧ a < p + n / 8
  · rw [if_pos ha, if_pos ha, testBit_byte x _ ht]
    simp [show p ≤ a ∧ 8 * (a - p) + t < n by omega]
  · rw [if_neg ha, if_neg ha]
    simp only [show ¬ (p ≤ a ∧ 8 * (a - p) + t < n) by omega, decide_false, Bool.false_and,
      Bool.or_false]

end BitArray

end SimpleCode.Foundations
