import SimpleCode.Crypto.DEScppCipher

set_option autoImplicit false

namespace SimpleCode.Crypto.DEScpp

open Foundations BitArray

def keyByte (mem : Memory) (Key len k : ℕ) : UInt8 :=
  if k < (if len > 16 then 16 else len) then mem (Key + k) else 0

def keySchedule (key : ℕ → UInt8) (o : ℕ) : Vector (BitVec 48) 16 :=
  tables.schedule (ofBytes 64 fun k => key (o + k))

def cipher (key : ℕ → UInt8) (triple : Bool) (type : Mode) (x : BitVec 64) : BitVec 64 :=
  if triple then
    crypt (keySchedule key 0) type
      (crypt (keySchedule key 8) type.not (crypt (keySchedule key 0) type x))
  else
    crypt (keySchedule key 0) type x

lemma crypt_not (ks : Vector (BitVec 48) 16) (type : Mode) (x : BitVec 64) :
    crypt ks type.not (crypt ks type x) = x := by
  cases type with
  | encrypt => exact tables.decrypt_encrypt _ x
  | decrypt => exact tables.encrypt_decrypt _ x

theorem cipher_not (key : ℕ → UInt8) (triple : Bool) (type : Mode) (x : BitVec 64) :
    cipher key triple type.not (cipher key triple type x) = x := by
  cases triple
  · exact crypt_not _ type x
  · have h (y : BitVec 64) := crypt_not (keySchedule key 8) type.not y
    simp only [cipher, if_true, crypt_not, h]

structure Keys.Holds (keys : Keys) (key : ℕ → UInt8) (triple : Bool) : Prop where
  is3DES : keys.is3DES = triple
  first : keys.subKey[(0 : Fin 2)] = keySchedule key 0
  second : triple = true → keys.subKey[(1 : Fin 2)] = keySchedule key 8

lemma setKey_mem (st : Des) (Key len : ℕ) : (setKey st Key len).mem = st.mem := by
  simp only [setKey]
  split <;> rfl

lemma setKey_holds (st : Des) (Key len : ℕ) :
    (setKey st Key len).keys.Holds (keyByte st.mem Key len) (decide (8 < len)) := by
  have hget (k : ℕ) : (Vector.ofFn fun i : Fin 16 =>
      if i < (if len > 16 then 16 else len) then st.mem (Key + i) else 0).getD k 0
        = keyByte st.mem Key len k := by
    by_cases hk : k < 16
    · rw [Vector.getD, Array.getD, dif_pos (by simpa using hk)]
      simp [keyByte]
    · rw [Vector.getD, Array.getD, dif_neg (by simpa using hk), keyByte, if_neg]
      split <;> omega
  simp only [setKey, hget, setSubKey_snd]
  split
  · next h =>
    refine ⟨(decide_eq_true h).symm, ?_, fun _ => ?_⟩
    · simp [keySchedule]
    · simp [keySchedule]
  · next h =>
    refine ⟨(decide_eq_false h).symm, ?_, fun h' => absurd (of_decide_eq_true h') h⟩
    simp [keySchedule]

def SameOrApart (n p q : ℕ) : Prop := q = p ∨ q + n ≤ p ∨ p + n ≤ q

lemma block_store (mem : Memory) (p : ℕ) (x : BitVec 64) : block (store mem p x) p = x := by
  rw [← ofBytes_byte x]
  apply ofBytes_congr
  intro k hk
  rw [ofBytes_byte, store, if_pos (by omega), Nat.add_sub_cancel_left]

lemma block_store_of_apart (mem : Memory) {p q : ℕ} (x : BitVec 64) (h : q + 8 ≤ p ∨ p + 8 ≤ q) :
    block (store mem p x) q = block mem q := by
  apply ofBytes_congr
  intro k hk
  rw [store, if_neg (by omega)]

lemma store_store (mem : Memory) (p : ℕ) (x y : BitVec 64) :
    store (store mem p x) p y = store mem p y := by
  funext a
  simp only [store]
  split <;> rfl

lemma desBlock_spec {st : Des} {key : ℕ → UInt8} {triple : Bool} (h : st.keys.Holds key triple)
    (Out In : ℕ) (type : Mode) :
    (desBlock st Out In type).keys = st.keys
      ∧ (desBlock st Out In type).mem
        = store st.mem Out (cipher key triple type (block st.mem In)) := by
  obtain ⟨h3, h0, h1⟩ := h
  replace h0 : st.keys.subKey[0] = keySchedule key 0 := h0
  replace h1 : triple = true → st.keys.subKey[1] = keySchedule key 8 := h1
  cases triple with
  | false => simp only [desBlock, h3, des_snd, h0, cipher, Bool.false_eq_true, if_false, and_self]
  | true =>
    simp only [desBlock, h3, des_snd, h0, h1 rfl, cipher, if_true, block_store, store_store, and_self]

lemma desBlocks_spec {st : Des} {key : ℕ → UInt8} {triple : Bool} (h : st.keys.Holds key triple)
    {Out In : ℕ} (type : Mode) {j : ℕ} (hd : SameOrApart (8 * j) In Out) :
    let st' := (List.range j).foldl (fun st i => desBlock st (Out + 8 * i) (In + 8 * i) type) st
    (∀ k < j, block st'.mem (Out + 8 * k) = cipher key triple type (block st.mem (In + 8 * k)))
      ∧ ∀ a, a < Out ∨ Out + 8 * j ≤ a → st'.mem a = st.mem a := by
  suffices hrun : ∀ i ≤ j,
      let st' := (List.range i).foldl (fun st i => desBlock st (Out + 8 * i) (In + 8 * i) type) st
      st'.keys = st.keys
        ∧ (∀ k < i, block st'.mem (Out + 8 * k) = cipher key triple type (block st.mem (In + 8 * k)))
        ∧ ∀ a, a < Out ∨ Out + 8 * i ≤ a → st'.mem a = st.mem a from (hrun j le_rfl).2
  intro i hi
  induction i with
  | zero => exact ⟨rfl, fun k hk => absurd hk (Nat.not_lt_zero k), fun a _ => rfl⟩
  | succ i ih =>
    obtain ⟨hkeys, hblocks, hframe⟩ := ih (by omega)
    simp only [List.range_succ, List.foldl_append, List.foldl_cons, List.foldl_nil]
    obtain ⟨hkeys', hmem⟩ := desBlock_spec (hkeys ▸ h) (Out + 8 * i) (In + 8 * i) type
    refine ⟨hkeys'.trans hkeys, fun k hk => ?_, fun a ha => ?_⟩
    · rw [hmem]
      rcases Nat.lt_succ_iff_lt_or_eq.mp hk with hlt | rfl
      · rw [block_store_of_apart _ _ (by omega), hblocks k hlt]
      · rw [block_store]
        congr 1
        apply ofBytes_congr
        intro b hb
        apply hframe
        rcases hd with rfl | hd <;> omega
    · rw [hmem, store, if_neg (by omega), hframe a (by omega)]

def maskedLength (n : ℕ) : ℕ := ((BitVec.ofNat 64 n + 7) &&& 0xfffffff8).toNat

lemma and_mask (x : ℕ) : x &&& 0xfffffff8 = x / 8 % 2 ^ 29 * 8 := by
  apply Nat.eq_of_testBit_eq
  intro i
  rw [show (0xfffffff8 : ℕ) = (2 ^ 29 - 1) * 2 ^ 3 by decide, Nat.testBit_and,
    Nat.testBit_mul_two_pow, Nat.testBit_two_pow_sub_one, show (8 : ℕ) = 2 ^ 3 by rfl,
    Nat.testBit_mul_two_pow, Nat.testBit_mod_two_pow, Nat.testBit_div_two_pow]
  by_cases hi : 3 ≤ i
  · rw [Nat.sub_add_cancel hi]
    simp [hi, Bool.and_comm]
  · simp [hi]

lemma maskedLength_eq {n : ℕ} (h8 : 8 ∣ n) (hn : n < 2 ^ 63) : maskedLength n = n % 2 ^ 32 := by
  obtain ⟨m, rfl⟩ := h8
  have hsum : (BitVec.ofNat 64 (8 * m) + 7).toNat = 8 * m + 7 := by
    rw [BitVec.toNat_add, BitVec.toNat_ofNat]
    simp
    omega
  rw [maskedLength, BitVec.toNat_and, hsum]
  refine (and_mask _).trans ?_
  omega

theorem desGo_spec (st : Des) {n Out In Key : ℕ} (keylen : ℕ) (type : Mode) (h8 : 8 ∣ n)
    (hn : n < 2 ^ 63) (hOut : Out ≠ 0) (hIn : In ≠ 0) (hKey : Key ≠ 0)
    (hd : SameOrApart n In Out) :
    let mem := (desGo st Out In (BitVec.ofNat 64 n) Key keylen type).2.mem
    (∀ k < n % 2 ^ 32 / 8, block mem (Out + 8 * k)
        = cipher (keyByte st.mem Key keylen) (decide (8 < keylen)) type (block st.mem (In + 8 * k)))
      ∧ ∀ a, a < Out ∨ Out + n % 2 ^ 32 ≤ a → mem a = st.mem a := by
  have hmask : ((BitVec.ofNat 64 n + 7) &&& 0xfffffff8 : BitVec 64).toNat = n % 2 ^ 32 :=
    maskedLength_eq h8 hn
  have hle := Nat.mod_le n (2 ^ 32)
  have h8' : 8 ∣ n % 2 ^ 32 := (Nat.dvd_mod_iff (by decide)).mpr h8
  have hj : (((BitVec.ofNat 64 n + 7) &&& 0xfffffff8 : BitVec 64) >>> 3).toNat
      = n % 2 ^ 32 / 8 := by
    rw [BitVec.toNat_ushiftRight, hmask, Nat.shiftRight_eq_div_pow]
  have height : 8 * (n % 2 ^ 32 / 8) = n % 2 ^ 32 := Nat.mul_div_cancel' h8'
  have hd' : SameOrApart (8 * (n % 2 ^ 32 / 8)) In Out := by
    rcases hd with rfl | hd
    · exact .inl rfl
    · exact .inr (by omega)
  simp only [desGo, hj]
  split
  · have hkeys := setKey_holds st Key keylen
    obtain ⟨hblocks, hframe⟩ := desBlocks_spec hkeys type hd'
    rw [setKey_mem] at hblocks hframe
    rw [height] at hframe
    exact ⟨hblocks, hframe⟩
  · next h =>
    have hzero : n % 2 ^ 32 = 0 := by
      rw [← hmask]
      by_contra hne
      exact h ⟨hOut, hIn, hKey, fun h0 => hne (by rw [h0]; rfl)⟩
    rw [hzero]
    exact ⟨fun k hk => absurd hk (Nat.not_lt_zero _), fun a _ => rfl⟩

lemma mem_eq_of_block_eq {mem mem' : Memory} {p q k : ℕ} (h : block mem p = block mem' q)
    (hk : k < 8) : mem (p + k) = mem' (q + k) := by
  have h₁ := byte_ofBytes (fun k => mem (p + k)) (show 8 * k + 8 ≤ 64 by omega)
  have h₂ := byte_ofBytes (fun k => mem' (q + k)) (show 8 * k + 8 ≤ 64 by omega)
  calc mem (p + k) = byte (block mem p) k := h₁.symm
    _ = byte (block mem' q) k := by rw [h]
    _ = mem' (q + k) := h₂

lemma keyByte_congr {mem mem' : Memory} {Key Key' len : ℕ}
    (h : ∀ i < len, mem' (Key' + i) = mem (Key + i)) :
    keyByte mem' Key' len = keyByte mem Key len := by
  funext k
  rw [keyByte, keyByte]
  by_cases hk : k < (if len > 16 then 16 else len)
  · rw [if_pos hk, if_pos hk]
    exact h k (by split at hk <;> omega)
  · rw [if_neg hk, if_neg hk]

lemma desGo_desGo (st st' : Des) {n P C Q Key Key' keylen : ℕ} (h8 : 8 ∣ n) (hn : n < 2 ^ 63)
    (hP : P ≠ 0) (hC : C ≠ 0) (hQ : Q ≠ 0) (hKey : Key ≠ 0) (hKey' : Key' ≠ 0)
    (hPC : SameOrApart n P C) (hCQ : SameOrApart n C Q)
    (hcipher : ∀ i < n, st'.mem (C + i)
      = (desGo st C P (BitVec.ofNat 64 n) Key keylen .encrypt).2.mem (C + i))
    (hkey : ∀ i < keylen, st'.mem (Key' + i) = st.mem (Key + i)) {i : ℕ} (hi : i < n) :
    (desGo st' Q C (BitVec.ofNat 64 n) Key' keylen .decrypt).2.mem (Q + i)
      = if i < n % 2 ^ 32 then st.mem (P + i) else st'.mem (Q + i) := by
  obtain ⟨hblock, -⟩ := desGo_spec st keylen .encrypt h8 hn hC hP hKey hPC
  obtain ⟨hblock', hframe'⟩ := desGo_spec st' keylen .decrypt h8 hn hQ hC hKey' hCQ
  have hle := Nat.mod_le n (2 ^ 32)
  have h8' : 8 ∣ n % 2 ^ 32 := (Nat.dvd_mod_iff (by decide)).mpr h8
  split
  · next hlt =>
    have hk : i / 8 < n % 2 ^ 32 / 8 := by omega
    have hback : block (desGo st' Q C (BitVec.ofNat 64 n) Key' keylen .decrypt).2.mem
        (Q + 8 * (i / 8)) = block st.mem (P + 8 * (i / 8)) := by
      have hsame : block st'.mem (C + 8 * (i / 8))
          = block (desGo st C P (BitVec.ofNat 64 n) Key keylen .encrypt).2.mem
              (C + 8 * (i / 8)) := by
        apply ofBytes_congr
        intro b hb
        rw [Nat.add_assoc]
        exact hcipher _ (by omega)
      rw [hblock' _ hk, hsame, hblock _ hk, keyByte_congr hkey]
      exact cipher_not _ _ .encrypt _
    have hbyte := mem_eq_of_block_eq hback (Nat.mod_lt i (by decide : 8 > 0))
    rwa [Nat.add_assoc, Nat.add_assoc, Nat.div_add_mod] at hbyte
  · next hge => exact hframe' _ (.inr (by omega))

/-- `DECRYPT` undoes `ENCRYPT` exactly when the output buffer already holds the plain text beyond
the length that `Des_Go` keeps, `n % 2 ^ 32`; for shorter buffers there is no such byte. -/
theorem desGo_undoes_iff (st st' : Des) {n P C Q Key Key' keylen : ℕ} (h8 : 8 ∣ n)
    (hn : n < 2 ^ 63) (hP : P ≠ 0) (hC : C ≠ 0) (hQ : Q ≠ 0) (hKey : Key ≠ 0) (hKey' : Key' ≠ 0)
    (hPC : SameOrApart n P C) (hCQ : SameOrApart n C Q)
    (hcipher : ∀ i < n, st'.mem (C + i)
      = (desGo st C P (BitVec.ofNat 64 n) Key keylen .encrypt).2.mem (C + i))
    (hkey : ∀ i < keylen, st'.mem (Key' + i) = st.mem (Key + i)) :
    (∀ i < n, (desGo st' Q C (BitVec.ofNat 64 n) Key' keylen .decrypt).2.mem (Q + i)
        = st.mem (P + i))
      ↔ ∀ i < n, n % 2 ^ 32 ≤ i → st'.mem (Q + i) = st.mem (P + i) := by
  have hback {i : ℕ} (hi : i < n) :=
    desGo_desGo st st' h8 hn hP hC hQ hKey hKey' hPC hCQ hcipher hkey hi
  constructor
  · intro h i hi hge
    rw [← h i hi, hback hi, if_neg (by omega)]
  · intro h i hi
    rw [hback hi]
    split
    · rfl
    · next hge => exact h i hi (by omega)

def oneByteSet : Des where
  mem a := if a = 2 ^ 33 then 1 else 0
  scratch := ⟨0, 0, 0, 0, 0⟩
  keys := ⟨Vector.replicate 2 (Vector.replicate 16 0), false, Vector.replicate 16 0⟩

lemma desGo_of_masked_zero (st : Des) (Out In Key keylen : ℕ) (type : Mode) :
    desGo st Out In (BitVec.ofNat 64 (2 ^ 32)) Key keylen type = (false, st) := by
  have hmask : (BitVec.ofNat 64 (2 ^ 32) + 7) &&& 0xfffffff8 = 0 := by decide
  simp only [desGo, hmask, ne_eq, not_true_eq_false, and_false, if_false]

def twoBlocks : Des :=
  { oneByteSet with
    mem := fun a => if a < 16 then
        [0x13, 0x74, 0x57, 0x21, 0xab, 0xac, 0xdf, 0xf1].getD (a - 1) 0
      else
        [0x01, 0x23, 0x45, 0x67, 0x89, 0xab, 0xcd, 0xe0, 0x4e, 0x6f, 0x77, 0x20, 0x69, 0x73, 0x20, 0x74].getD (a - 16) 0 }

theorem desGo_undoes_iff_two_blocks :
    (List.range 16).map (fun i => (desGo (desGo twoBlocks 48 16 (BitVec.ofNat 64 16) 1 8 .encrypt).2 80 48
        (BitVec.ofNat 64 16) 1 8 .decrypt).2.mem (80 + i))
      = (List.range 16).map fun i => twoBlocks.mem (16 + i) := by
  obtain ⟨-, hframe⟩ := desGo_spec twoBlocks 8 .encrypt (by decide : 8 ∣ 16) (by decide)
    (by decide : 48 ≠ 0) (by decide : 16 ≠ 0) (by decide : 1 ≠ 0) (.inr (.inr (by decide)))
  have hkey (i : ℕ) (hi : i < 8) := hframe (1 + i) (.inl (by omega))
  have hundoes := (desGo_undoes_iff (Q := 80) twoBlocks _ (by decide) (by decide) (by decide) (by decide) (by decide) (by decide)
    (by decide) (.inr (.inr (by decide))) (.inr (.inr (by decide))) (fun _ _ => rfl) hkey).mpr
  refine List.map_congr_left fun i hi => hundoes (fun i hi hge => absurd hge ?_) i (List.mem_range.mp hi)
  omega

theorem desGo_loses_long_buffer :
    ¬ ∀ i < 2 ^ 32, (desGo (desGo oneByteSet (2 ^ 34) (2 ^ 33) (BitVec.ofNat 64 (2 ^ 32)) 1 8
        .encrypt).2 (2 ^ 35) (2 ^ 34) (BitVec.ofNat 64 (2 ^ 32)) 1 8 .decrypt).2.mem (2 ^ 35 + i)
      = oneByteSet.mem (2 ^ 33 + i) := by
  intro h
  have h₀ := h 0 (by decide)
  rw [desGo_of_masked_zero, desGo_of_masked_zero] at h₀
  exact absurd h₀ (by decide)

/-- Within one buffer the bytes beyond the masked length are never touched, so that the round
trip holds for every length. -/
theorem desGo_undoes_inPlace (st : Des) {n P Key keylen : ℕ} (h8 : 8 ∣ n) (hn : n < 2 ^ 63)
    (hP : P ≠ 0) (hKey : Key ≠ 0) (hapart : Key + keylen ≤ P ∨ P + n ≤ Key) :
    let st' := (desGo st P P (BitVec.ofNat 64 n) Key keylen .encrypt).2
    ∀ i < n, (desGo st' P P (BitVec.ofNat 64 n) Key keylen .decrypt).2.mem (P + i)
      = st.mem (P + i) := by
  intro st' i hi
  have hsame : SameOrApart n P P := .inl rfl
  have hle := Nat.mod_le n (2 ^ 32)
  obtain ⟨-, hframe⟩ := desGo_spec st keylen .encrypt h8 hn hP hP hKey hsame
  have hkey : ∀ i < keylen, st'.mem (Key + i) = st.mem (Key + i) := by
    intro i hi
    exact hframe _ (by omega)
  rw [desGo_desGo st st' h8 hn hP hP hP hKey hKey hsame hsame (fun _ _ => rfl) hkey hi]
  split
  · rfl
  · next hge => exact hframe _ (by omega)

end SimpleCode.Crypto.DEScpp
