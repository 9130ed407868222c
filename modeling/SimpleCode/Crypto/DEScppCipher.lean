import SimpleCode.Crypto.Des

set_option autoImplicit false

namespace SimpleCode.Crypto.DEScpp

open Foundations BitArray

lemma and_seven (i : ℕ) : i &&& 7 = i % 8 := Nat.and_two_pow_sub_one_eq_mod i 3

lemma shiftRight_three (i : ℕ) : i >>> 3 = i / 8 := Nat.shiftRight_eq_div_pow i 3

lemma byteToBit_eq (In : ℕ → UInt8) (bits : ℕ) : byteToBit In bits = ofBytes bits In := by
  simp only [byteToBit, ofBytes, shift_and_one, shiftRight_three, and_seven]

lemma bitToByte_eq {bits : ℕ} (hb : 8 ∣ bits) (mem : Memory) (Out : ℕ) (In : BitVec bits) :
    bitToByte mem Out In = store mem Out In := by
  have hstep : bitToByteStep Out In = orBit Out In := by
    funext mem i
    rw [bitToByteStep, orBit, shiftRight_three, and_seven]
  rw [bitToByte, hstep, ← orBit_loop_eq_store Out In hb, shiftRight_three]
  rfl

section Scratch

variable (s : Scratch)

lemma transform_snd {m n : ℕ} (In : BitVec m) (t : SelectionTable m n) (hn : n ≤ 256) :
    (transform s In t).2 = t.permute In :=
  extract_put s.Tmp _ (by omega)

lemma rotateL_snd {len : ℕ} (In : BitVec len) {loop : ℕ} (hl : loop < len) (ht : loop ≤ 256) :
    (rotateL s In loop).2 = In.rotateRight loop := by
  rw [← rotate_eq_rotateRight In hl]
  exact congrArg (put _ _) (extract_put s.Tmp _ (by omega))

lemma sFunc_eq (Out : BitVec 32) (In : BitVec 48) : sFunc Out In = tables.substitute In := by
  simp only [sFunc, byteToBit_eq]
  exact tables.foldl_put_eq_substitute Out In

lemma fFunc_snd (In : BitVec 32) (Ki : BitVec 48) :
    (fFunc s In Ki).2 = tables.roundFunction In Ki := by
  simp only [fFunc, transform_snd _ _ _ (show 32 ≤ 256 by decide),
    transform_snd _ _ _ (show 48 ≤ 256 by decide), sFunc_eq]
  rfl

lemma transform_K {m n : ℕ} (In : BitVec m) (t : SelectionTable m n) :
    (transform s In t).1.K = s.K := by
  simp only [transform]

lemma fFunc_M (In : BitVec 32) (Ki : BitVec 48) : (fFunc s In Ki).1.M = s.M := by
  simp only [fFunc, transform]

lemma fFunc_tmp (In : BitVec 32) (Ki : BitVec 48) : (fFunc s In Ki).1.tmp = s.tmp := by
  simp only [fFunc, transform]

lemma halves_encryptRound (ks : Vector (BitVec 48) 16) (i : ℕ) :
    halves (encryptRound ks s i).M
      = Feistel.encRound (· ^^^ ·) tables.roundFunction (halves s.M) (ks.getD i 0) := by
  simp only [encryptRound, fFunc_M, fFunc_tmp, fFunc_snd, halves_encRound]
  rfl

lemma halves_decryptRound (ks : Vector (BitVec 48) 16) (i : ℕ) :
    halves (decryptRound ks s i).M
      = Feistel.decRound (· ^^^ ·) tables.roundFunction (halves s.M) (ks.getD i 0) := by
  simp only [decryptRound, fFunc_M, fFunc_tmp, fFunc_snd, halves_decRound]
  rfl

end Scratch

def crypt (ks : Vector (BitVec 48) 16) : Mode → BitVec 64 → BitVec 64
  | .encrypt => tables.encrypt (ks.getD · 0)
  | .decrypt => tables.decrypt (ks.getD · 0)

def block (mem : Memory) (p : ℕ) : BitVec 64 := ofBytes 64 fun k => mem (p + k)

theorem des_snd (s : Scratch) (mem : Memory) (Out In : ℕ) (ks : Vector (BitVec 48) 16)
    (type : Mode) :
    (des s mem Out In ks type).2 = store mem Out (crypt ks type (block mem In)) := by
  have hjoin (M : BitVec 64) : tables.ipr.permute M = tables.ipr.permute (join (halves M)) := by
    rw [join_halves]
  simp only [des, transform_snd _ _ _ (show 64 ≤ 256 by decide), byteToBit_eq,
    bitToByte_eq (show 8 ∣ 64 by decide)]
  congr 1
  refine (hjoin _).trans ?_
  cases type with
  | encrypt =>
    dsimp only
    rw [(Feistel.foldl_view_eq_rounds (fun _ : Scratch => True) (fun s => halves s.M)
      (fun s i _ => ⟨trivial, halves_encryptRound s ks i⟩) trivial 16).2]
    rfl
  | decrypt =>
    dsimp only
    rw [(Feistel.foldl_reverse_view_eq_unrounds (fun _ : Scratch => True) (fun s => halves s.M)
      (fun s i _ => ⟨trivial, halves_decryptRound s ks i⟩) trivial 16).2]
    rfl

lemma loopTable_le (i : ℕ) : loopTable.getD i 0 < 28 := by
  by_cases hi : i < 16
  · have h : ∀ j < 16, loopTable.getD j 0 < 28 := by decide
    exact h i hi
  · have hs : loopTable.toArray.size = 16 := rfl
    rw [Vector.getD, Array.getD, dif_neg (by omega)]
    decide

lemma rotateHalf_K (s : Scratch) (o : ℕ) {loop : ℕ} (hl : loop < 28) :
    (rotateHalf s o loop).K = put s.K o ((s.K.extractLsb' o 28).rotateRight loop) := by
  simp only [rotateHalf, rotateL_snd s _ hl (by omega)]
  rfl

lemma keyHalves_rotateHalf (s : Scratch) {loop : ℕ} (hl : loop < 28) :
    keyHalves (rotateHalf (rotateHalf s 0 loop) 28 loop).K
      = ((keyHalves s.K).1.rotateRight loop, (keyHalves s.K).2.rotateRight loop) := by
  rw [rotateHalf_K _ _ hl, rotateHalf_K _ _ hl, keyHalves_rotate]

lemma setSubKeyRound_spec {key : BitVec 64} {i : ℕ} (st : Scratch × Vector (BitVec 48) 16)
    (h : keyHalves st.1.K = tables.register key i) :
    keyHalves (setSubKeyRound st i).1.K = tables.register key (i + 1)
      ∧ (setSubKeyRound st i).2 = st.2.setIfInBounds i (tables.roundKey key i) := by
  have hloop : tables.loop = loopTable := rfl
  have hreg : keyHalves (rotateHalf (rotateHalf st.1 0 (loopTable.getD i 0)) 28
      (loopTable.getD i 0)).K = tables.register key (i + 1) := by
    rw [keyHalves_rotateHalf _ (loopTable_le i), h, DesTables.register, hloop]
  simp only [setSubKeyRound, transform_snd _ _ _ (show 48 ≤ 256 by decide), transform_K]
  refine ⟨hreg, ?_⟩
  rw [DesTables.roundKey, ← hreg, keyHalves, extract_append _ 0 28 28]
  rfl

theorem setSubKey_snd (s : Scratch) (pSubKey : Vector (BitVec 48) 16) (Key : ℕ → UInt8) :
    (setSubKey s pSubKey Key).2 = tables.schedule (ofBytes 64 Key) := by
  have hpc1 : tables.pc1 = pc1Table := rfl
  simp only [setSubKey]
  refine tables.keys_foldl_eq_schedule (fun st => keyHalves st.1.K) Prod.snd
    (fun st _ => setSubKeyRound_spec st) _ ?_
  rw [DesTables.register, hpc1]
  simp only [transform_snd _ _ _ (show 56 ≤ 256 by decide), byteToBit_eq, keyHalves_put]

end SimpleCode.Crypto.DEScpp
