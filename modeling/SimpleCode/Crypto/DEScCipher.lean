import SimpleCode.Crypto.Des

set_option autoImplicit false

namespace SimpleCode.Crypto.DESc

open Foundations BitArray

lemma byteToBit_eq (DatIn : Buffer) (Num : ℕ) : byteToBit DatIn Num = ofBytes Num DatIn := by
  simp only [byteToBit, ofBytes, shift_and_one]

lemma bitToByte_eq {Num : ℕ} (hn : 8 ∣ Num) (DatOut : Buffer) (DatIn : BitVec Num) :
    bitToByte DatOut DatIn = store DatOut 0 DatIn := by
  have hstep : bitToByteStep DatIn = orBit 0 DatIn := by
    funext DatOut i
    rw [bitToByteStep, orBit, Nat.zero_add]
  rw [bitToByte, hstep, ← orBit_loop_eq_store 0 DatIn hn]
  simp only [Nat.zero_le, true_and, Nat.zero_add]

lemma hexBit_hexDigit (b : Fin 4 → Bool) (k : Fin 4) :
    hexBit (hexDigit (b 0) (b 1) (b 2) (b 3)) k = b k := by
  revert b k
  decide

theorem hexToBit_bitToHex {Num : ℕ} (hn : 4 ∣ Num) (DatOut : Buffer) (x : BitVec Num) :
    hexToBit (bitToHex DatOut x) Num = x := by
  apply BitVec.eq_of_getLsbD_eq
  intro i hi
  have hd := hexBit_hexDigit (fun j => x.getLsbD (i / 4 * 4 + j)) ⟨i % 4, Nat.mod_lt i (by decide)⟩
  rw [Nat.div_add_mod'] at hd
  rw [hexToBit, BitVec.getLsbD_ofFnLE, dif_pos hi, bitToHex, if_pos (by omega)]
  exact hd

section Statics

variable (s : Statics)

lemma tablePermute_snd {m n : ℕ} (DatIn : BitVec m) (t : SelectionTable m n) (hn : n ≤ 256) :
    (tablePermute s DatIn t).2 = t.permute DatIn :=
  extract_put s.permuteTemp _ (by omega)

lemma loopMove_snd {Len : ℕ} (DatIn : BitVec Len) {Num : ℕ} (hl : Num < Len) (ht : Num ≤ 256) :
    (loopMove s DatIn Num).2 = DatIn.rotateRight Num := by
  rw [← rotate_eq_rotateRight DatIn hl]
  exact congrArg (put _ _) (extract_put s.moveTemp _ (by omega))

lemma sChange_eq (DatOut : BitVec 32) (DatIn : BitVec 48) :
    sChange DatOut DatIn = tables.substitute DatIn := by
  simp only [sChange, byteToBit_eq]
  exact tables.foldl_put_eq_substitute DatOut DatIn

lemma fChange_snd (DatIn : BitVec 32) (DatKi : BitVec 48) :
    (fChange s DatIn DatKi).2 = tables.roundFunction DatIn DatKi := by
  simp only [fChange, tablePermute_snd _ _ _ (show 32 ≤ 256 by decide),
    tablePermute_snd _ _ _ (show 48 ≤ 256 by decide), sChange_eq]
  rfl

lemma fChange_frame (DatIn : BitVec 32) (DatKi : BitVec 48) :
    (fChange s DatIn DatKi).1.SubKey = s.SubKey
      ∧ (fChange s DatIn DatKi).1.playMesBit = s.playMesBit
      ∧ (fChange s DatIn DatKi).1.playTemp = s.playTemp
      ∧ (fChange s DatIn DatKi).1.kickMesBit = s.kickMesBit
      ∧ (fChange s DatIn DatKi).1.kickTemp = s.kickTemp := by
  simp only [fChange, tablePermute, and_self]

lemma playRound_spec (i : ℕ) :
    (playRound s i).SubKey = s.SubKey
      ∧ halves (playRound s i).playMesBit
        = Feistel.encRound (· ^^^ ·) tables.roundFunction (halves s.playMesBit)
            (s.SubKey.getD i 0) := by
  obtain ⟨hk, hm, ht, -, -⟩ := fChange_frame { s with playTemp := s.playMesBit.extractLsb' 32 32 }
    (s.playMesBit.extractLsb' 32 32) (s.SubKey.getD i 0)
  simp only [playRound, hk, hm, ht, fChange_snd, halves_encRound]
  exact ⟨trivial, rfl⟩

lemma kickRound_spec (i : ℕ) :
    (kickRound s i).SubKey = s.SubKey
      ∧ halves (kickRound s i).kickMesBit
        = Feistel.decRound (· ^^^ ·) tables.roundFunction (halves s.kickMesBit)
            (s.SubKey.getD i 0) := by
  obtain ⟨hk, -, -, hm, ht⟩ := fChange_frame { s with kickTemp := s.kickMesBit.extractLsb' 0 32 }
    (s.kickMesBit.extractLsb' 0 32) (s.SubKey.getD i 0)
  simp only [kickRound, hk, hm, ht, fChange_snd, halves_decRound]
  exact ⟨trivial, rfl⟩

lemma tablePermute_frame {m n : ℕ} (DatIn : BitVec m) (t : SelectionTable m n) :
    (tablePermute s DatIn t).1.SubKey = s.SubKey
      ∧ (tablePermute s DatIn t).1.KeyBit = s.KeyBit := by
  simp only [tablePermute, and_self]

lemma playRounds_spec {ks : Vector (BitVec 48) 16} (hs : s.SubKey = ks) :
    ((List.range 16).foldl playRound s).SubKey = ks
      ∧ halves ((List.range 16).foldl playRound s).playMesBit
        = Feistel.rounds (· ^^^ ·) tables.roundFunction (ks.getD · 0) 16 (halves s.playMesBit) :=
  Feistel.foldl_view_eq_rounds (fun t => t.SubKey = ks) (fun t => halves t.playMesBit)
    (fun t i h => ⟨(playRound_spec t i).1.trans h, h ▸ (playRound_spec t i).2⟩) hs 16

lemma kickRounds_spec {ks : Vector (BitVec 48) 16} (hs : s.SubKey = ks) :
    ((List.range 16).reverse.foldl kickRound s).SubKey = ks
      ∧ halves ((List.range 16).reverse.foldl kickRound s).kickMesBit
        = Feistel.unrounds (· ^^^ ·) tables.roundFunction (ks.getD · 0) 16 (halves s.kickMesBit) :=
  Feistel.foldl_reverse_view_eq_unrounds (fun t => t.SubKey = ks) (fun t => halves t.kickMesBit)
    (fun t i h => ⟨(kickRound_spec t i).1.trans h, h ▸ (kickRound_spec t i).2⟩) hs 16

lemma permute_playRounds {ks : Vector (BitVec 48) 16} (hs : s.SubKey = ks) :
    iprTable.permute ((List.range 16).foldl playRound s).playMesBit
      = tables.ipr.permute (join (Feistel.rounds (· ^^^ ·) tables.roundFunction (ks.getD · 0) 16
          (halves s.playMesBit))) := by
  rw [← (playRounds_spec s hs).2, join_halves]
  rfl

theorem playDes_spec (MesOut MesIn : Buffer) :
    (playDes s MesOut MesIn).1.SubKey = s.SubKey
      ∧ (playDes s MesOut MesIn).2
        = bitToHex MesOut (tables.encrypt (s.SubKey.getD · 0) (ofBytes 64 MesIn)) := by
  simp only [playDes, tablePermute_snd _ _ _ (show 64 ≤ 256 by decide), tablePermute_frame,
    byteToBit_eq]
  exact ⟨(playRounds_spec _ rfl).1, congrArg (bitToHex MesOut) (permute_playRounds _ rfl)⟩

lemma permute_kickRounds {ks : Vector (BitVec 48) 16} (hs : s.SubKey = ks) :
    iprTable.permute ((List.range 16).reverse.foldl kickRound s).kickMesBit
      = tables.ipr.permute (join (Feistel.unrounds (· ^^^ ·) tables.roundFunction (ks.getD · 0) 16
          (halves s.kickMesBit))) := by
  rw [← (kickRounds_spec s hs).2, join_halves]
  rfl

theorem kickDes_spec (MesOut MesIn : Buffer) :
    (kickDes s MesOut MesIn).1.SubKey = s.SubKey
      ∧ (kickDes s MesOut MesIn).2
        = store MesOut 0 (tables.decrypt (s.SubKey.getD · 0) (hexToBit MesIn 64)) := by
  simp only [kickDes, tablePermute_snd _ _ _ (show 64 ≤ 256 by decide), tablePermute_frame,
    bitToByte_eq (show 8 ∣ 64 by decide)]
  exact ⟨(kickRounds_spec _ rfl).1, congrArg (store MesOut 0) (permute_kickRounds _ rfl)⟩

lemma moveTable_lt (i : ℕ) : moveTable.getD i 0 < 28 := by
  by_cases hi : i < 16
  · have h : ∀ j < 16, moveTable.getD j 0 < 28 := by decide
    exact h i hi
  · have hs : moveTable.toArray.size = 16 := rfl
    rw [Vector.getD, Array.getD, dif_neg (by omega)]
    decide

lemma moveHalf_KeyBit (o : ℕ) {Num : ℕ} (hl : Num < 28) :
    (moveHalf s o Num).KeyBit = put s.KeyBit o ((s.KeyBit.extractLsb' o 28).rotateRight Num) := by
  simp only [moveHalf, loopMove_snd s _ hl (by omega)]
  rfl

lemma moveHalf_SubKey (o Num : ℕ) : (moveHalf s o Num).SubKey = s.SubKey := by
  simp only [moveHalf, loopMove]

lemma setKeyRound_spec {key : BitVec 64} {i : ℕ} (h : keyHalves s.KeyBit = tables.register key i) :
    keyHalves (setKeyRound s i).KeyBit = tables.register key (i + 1)
      ∧ (setKeyRound s i).SubKey = s.SubKey.setIfInBounds i (tables.roundKey key i) := by
  have hloop : tables.loop = moveTable := rfl
  have hreg : keyHalves (moveHalf (moveHalf s 0 (moveTable.getD i 0)) 28
      (moveTable.getD i 0)).KeyBit = tables.register key (i + 1) := by
    rw [moveHalf_KeyBit _ _ (moveTable_lt i), moveHalf_KeyBit _ _ (moveTable_lt i),
      keyHalves_rotate, h, DesTables.register, hloop]
  simp only [setKeyRound, tablePermute_snd _ _ _ (show 48 ≤ 256 by decide), tablePermute_frame,
    moveHalf_SubKey]
  refine ⟨hreg, ?_⟩
  rw [DesTables.roundKey, ← hreg, keyHalves, extract_append _ 0 28 28]
  rfl

theorem setKey_SubKey (KeyIn : Buffer) :
    (setKey s KeyIn).SubKey = tables.schedule (ofBytes 64 KeyIn) := by
  have hpc1 : tables.pc1 = pc1Table := rfl
  simp only [setKey]
  refine tables.keys_foldl_eq_schedule (fun s => keyHalves s.KeyBit) Statics.SubKey
    (fun s _ => setKeyRound_spec s) _ ?_
  rw [DesTables.register, hpc1]
  simp only [tablePermute_snd _ _ _ (show 56 ≤ 256 by decide), byteToBit_eq, keyHalves_put]

end Statics

end SimpleCode.Crypto.DESc
