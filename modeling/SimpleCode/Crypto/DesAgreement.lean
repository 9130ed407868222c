import SimpleCode.Crypto.DEScCipher
import SimpleCode.Crypto.DEScppRoundTrip

set_option autoImplicit false

/-! Where the two DES implementations agree. Their tables differ in one entry of `PC2_Table` and
in one cell of each of the S-boxes 6 and 7; a round in which neither shows is the same in both. -/

namespace SimpleCode.Crypto

open Foundations BitArray

abbrev cppTables : DesTables := DEScpp.tables

abbrev cTables : DesTables := DESc.tables

lemma tables_common : cTables.ip = cppTables.ip ∧ cTables.ipr = cppTables.ipr
    ∧ cTables.e = cppTables.e ∧ cTables.p = cppTables.p ∧ cTables.pc1 = cppTables.pc1
    ∧ cTables.loop = cppTables.loop :=
  ⟨rfl, rfl, rfl, rfl, rfl, rfl⟩

lemma register_eq (key : BitVec 64) (n : ℕ) : cTables.register key n = cppTables.register key n := by
  induction n with
  | zero => rfl
  | succ n ih => rw [DesTables.register, DesTables.register, ih]; rfl

lemma sBox_common : ∀ i : Fin 8, i ≠ 5 → i ≠ 6 → cTables.sBox.get i = cppTables.sBox.get i := by
  decide

lemma sBox_six : ∀ (r : Fin 4) (c : Fin 16),
    cTables.sBox[(5 : Fin 8)][r][c] = cppTables.sBox[(5 : Fin 8)][r][c] ↔ ¬ (r = 1 ∧ c = 6) := by
  decide

lemma sBox_seven : ∀ (r : Fin 4) (c : Fin 16),
    cTables.sBox[(6 : Fin 8)][r][c] = cppTables.sBox[(6 : Fin 8)][r][c] ↔ ¬ (r = 1 ∧ c = 5) := by
  decide

lemma sBox_six_moved : ∀ (r : Fin 4) (c d : Fin 16), (c.val = d + 2 ∨ d.val = c + 2) →
    c.val / 4 = d / 4 → cTables.sBox[(5 : Fin 8)][r][d] ≠ cppTables.sBox[(5 : Fin 8)][r][c] := by
  decide

lemma cell_lt : ∀ (i : Fin 8) (r : Fin 4) (c : Fin 16),
    (cppTables.sBox.get i)[r][c] < 16 ∧ (cTables.sBox.get i)[r][c] < 16 := by
  decide

lemma substitute_eq_iff (x y : BitVec 48) :
    cppTables.substitute x = cTables.substitute y
      ↔ ∀ i, cTables.cell y i = cppTables.cell x i := by
  constructor
  · intro h i
    apply byte_ext
    intro t ht
    rcases Nat.lt_or_ge t 4 with ht4 | ht4
    · have hbit := congrArg (fun z => z.getLsbD (4 * i + t)) h
      simp only [DesTables.substitute, BitVec.getLsbD_ofFnLE,
        dif_pos (show 4 * i.val + t < 32 by omega), show (4 * i.val + t) / 4 = i by omega,
        show (4 * i.val + t) % 4 = t by omega] at hbit
      exact hbit.symm
    · have hsmall {v : UInt8} (hv : v < 16) : v.toNat.testBit t = false := by
        apply Nat.testBit_lt_two_pow
        calc v.toNat < 2 ^ 4 := UInt8.lt_iff_toNat_lt.mp hv
          _ ≤ 2 ^ t := Nat.pow_le_pow_right (by decide) ht4
      exact (hsmall (cell_lt i _ _).2).trans (hsmall (cell_lt i _ _).1).symm
  · intro h
    simp only [DesTables.substitute, h]

lemma p_injective : Function.Injective cppTables.p.permute :=
  SelectionTable.permute_injective (by decide)

lemma roundKey_getLsbD (key : BitVec 64) (i : ℕ) {b : ℕ} (hb : b < 48) (hne : b ≠ 33) :
    (cTables.roundKey key i).getLsbD b = (cppTables.roundKey key i).getLsbD b := by
  have hindex : ∀ j : Fin 48, j ≠ 33 → cTables.pc2.index j = cppTables.pc2.index j := by
    decide
  have h := hindex ⟨b, hb⟩ (fun h => hne (congrArg Fin.val h))
  rw [DesTables.roundKey, DesTables.roundKey, register_eq]
  refine (SelectionTable.getLsbD_permute _ _ ⟨b, hb⟩).trans ?_
  rw [h]
  exact (SelectionTable.getLsbD_permute _ _ ⟨b, hb⟩).symm

lemma roundKey_getLsbD_33 (key : BitVec 64) (i : ℕ) :
    (cppTables.roundKey key i).getLsbD 33 = (cppTables.register key (i + 1)).2.getLsbD 16
      ∧ (cTables.roundKey key i).getLsbD 33 = (cppTables.register key (i + 1)).2.getLsbD 5 := by
  rw [DesTables.roundKey, DesTables.roundKey, register_eq]
  constructor
  · refine (SelectionTable.getLsbD_permute _ _ (33 : Fin 48)).trans ?_
    rw [show cppTables.pc2.index 33 = 44 by decide, BitVec.getLsbD_append]
    rfl
  · refine (SelectionTable.getLsbD_permute _ _ (33 : Fin 48)).trans ?_
    rw [show cTables.pc2.index 33 = 33 by decide, BitVec.getLsbD_append]
    rfl

lemma row_congr {x y : BitVec 48} (h : ∀ b < 48, b ≠ 33 → x.getLsbD b = y.getLsbD b) (i : Fin 8) :
    row x i = row y i := by
  simp only [row, h (6 * i) (by omega) (by omega), h (6 * i + 5) (by omega) (by omega)]

lemma column_congr {x y : BitVec 48} (h : ∀ b < 48, b ≠ 33 → x.getLsbD b = y.getLsbD b) {i : Fin 8}
    (hi : i ≠ 5 ∨ x.getLsbD 33 = y.getLsbD 33) : column x i = column y i := by
  have hmid : x.getLsbD (6 * i + 3) = y.getLsbD (6 * i + 3) := by
    rcases hi with hi | hi
    · exact h _ (by omega) (fun h => hi (Fin.ext (by simp; omega)))
    · by_cases hb : 6 * i.val + 3 = 33
      · rw [hb, hi]
      · exact h _ (by omega) hb
  simp only [column, hmid, h (6 * i + 1) (by omega) (by omega), h (6 * i + 2) (by omega) (by omega),
    h (6 * i + 4) (by omega) (by omega)]

lemma column_moved {x y : BitVec 48} (h : ∀ b < 48, b ≠ 33 → x.getLsbD b = y.getLsbD b)
    (hne : x.getLsbD 33 ≠ y.getLsbD 33) :
    ((column x 5).val = column y 5 + 2 ∨ (column y 5).val = column x 5 + 2)
      ∧ (column x 5).val / 4 = column y 5 / 4 := by
  have h₁ := h 31 (by decide) (by decide)
  have h₂ := h 32 (by decide) (by decide)
  have h₄ := h 34 (by decide) (by decide)
  revert hne
  simp only [column, show 6 * ((5 : Fin 8) : ℕ) = 30 from rfl, Nat.reduceAdd, h₁, h₂, h₄]
  generalize x.getLsbD 33 = a, y.getLsbD 33 = b, y.getLsbD 31 = p, y.getLsbD 32 = q,
    y.getLsbD 34 = r
  revert a b p q r
  decide

/-- Whether a round of `cppTables` meets neither difference of the tables: the key register holds
the same bit at the two places that `PC2_Table` names, and neither changed cell is read. -/
def Unaffected (key : BitVec 64) (R : BitVec 32) (i : ℕ) : Prop :=
  (cppTables.register key (i + 1)).2.getLsbD 16 = (cppTables.register key (i + 1)).2.getLsbD 5
    ∧ ¬ (row (cppTables.e.permute R ^^^ cppTables.roundKey key i) 5 = 1
      ∧ column (cppTables.e.permute R ^^^ cppTables.roundKey key i) 5 = 6)
    ∧ ¬ (row (cppTables.e.permute R ^^^ cppTables.roundKey key i) 6 = 1
      ∧ column (cppTables.e.permute R ^^^ cppTables.roundKey key i) 6 = 5)

instance (key : BitVec 64) (R : BitVec 32) (i : ℕ) : Decidable (Unaffected key R i) :=
  inferInstanceAs (Decidable (_ ∧ _ ∧ _))

theorem roundFunction_eq_iff (key : BitVec 64) (R : BitVec 32) (i : ℕ) :
    cppTables.roundFunction R (cppTables.roundKey key i)
        = cTables.roundFunction R (cTables.roundKey key i)
      ↔ Unaffected key R i := by
  obtain ⟨-, -, he, hp, -⟩ := tables_common
  rw [DesTables.roundFunction, DesTables.roundFunction, he, hp, p_injective.eq_iff,
    substitute_eq_iff, Unaffected]
  set x := cppTables.e.permute R ^^^ cppTables.roundKey key i with hx
  set y := cppTables.e.permute R ^^^ cTables.roundKey key i with hy
  obtain ⟨hcpp, hc⟩ := roundKey_getLsbD_33 key i
  have hbits : ∀ b < 48, b ≠ 33 → x.getLsbD b = y.getLsbD b := by
    intro b hb hne
    rw [hx, hy, BitVec.getLsbD_xor, BitVec.getLsbD_xor, roundKey_getLsbD key i hb hne]
  have hbit : x.getLsbD 33 = y.getLsbD 33
      ↔ (cppTables.register key (i + 1)).2.getLsbD 16
        = (cppTables.register key (i + 1)).2.getLsbD 5 := by
    rw [hx, hy, BitVec.getLsbD_xor, BitVec.getLsbD_xor, hcpp, hc, Bool.xor_right_inj]
  rw [← hbit]
  constructor
  · intro h
    have hsame : x.getLsbD 33 = y.getLsbD 33 := by
      by_contra hne
      obtain ⟨hcol, hdiv⟩ := column_moved hbits hne
      have h5 := h 5
      simp only [DesTables.cell, ← row_congr hbits] at h5
      exact sBox_six_moved _ _ _ hcol hdiv h5
    have hcell (j : Fin 8) : cTables.cell y j = cTables.cell x j := by
      simp only [DesTables.cell, row_congr hbits, column_congr hbits (.inr hsame)]
    have h5 := h 5
    have h6 := h 6
    rw [hcell] at h5 h6
    exact ⟨hsame, (sBox_six _ _).mp h5, (sBox_seven _ _).mp h6⟩
  · rintro ⟨hsame, h5, h6⟩ j
    have hcell : cTables.cell y j = cTables.cell x j := by
      simp only [DesTables.cell, row_congr hbits, column_congr hbits (.inr hsame)]
    rw [hcell]
    by_cases hj5 : j = 5
    · subst hj5
      exact (sBox_six _ _).mpr h5
    · by_cases hj6 : j = 6
      · subst hj6
        exact (sBox_seven _ _).mpr h6
      · have hbox : cTables.sBox[j] = cppTables.sBox[j] := sBox_common j hj5 hj6
        simp only [DesTables.cell, hbox]

lemma schedule_getD (T : DesTables) (key : BitVec 64) {i : ℕ} (hi : i < 16) :
    (T.schedule key).getD i 0 = T.roundKey key i :=
  getD_ofFn _ _ hi

def roundInput (key x : BitVec 64) (i : ℕ) : BitVec 32 :=
  (Feistel.rounds (· ^^^ ·) cppTables.roundFunction ((cppTables.schedule key).getD · 0) i
    (halves (cppTables.ip.permute x))).2

def encryptWith (T : DesTables) (key x : BitVec 64) : BitVec 64 :=
  T.encrypt ((T.schedule key).getD · 0) x

lemma encryptWith_eq_iff (key x : BitVec 64) :
    encryptWith cppTables key x = encryptWith cTables key x
      ↔ Feistel.rounds (· ^^^ ·) cppTables.roundFunction ((cppTables.schedule key).getD · 0) 16
          (halves (cppTables.ip.permute x))
        = Feistel.rounds (· ^^^ ·) cTables.roundFunction ((cTables.schedule key).getD · 0) 16
          (halves (cppTables.ip.permute x)) := by
  obtain ⟨hip, hipr, -⟩ := tables_common
  have hperm : Function.Injective cppTables.ipr.permute :=
    Function.LeftInverse.injective (SelectionTable.permute_permute cppTables.ip_ipr)
  have hjoin : Function.Injective join := Function.LeftInverse.injective halves_join
  rw [encryptWith, encryptWith, DesTables.encrypt, DesTables.encrypt, hip, hipr, hperm.eq_iff,
    hjoin.eq_iff]

lemma round_eq_iff (key x : BitVec 64) {i : ℕ} (hi : i < 16) :
    cppTables.roundFunction (roundInput key x i) ((cppTables.schedule key).getD i 0)
        = cTables.roundFunction (roundInput key x i) ((cTables.schedule key).getD i 0)
      ↔ Unaffected key (roundInput key x i) i := by
  rw [schedule_getD _ _ hi, schedule_getD _ _ hi, roundFunction_eq_iff]

theorem encryptWith_eq (key x : BitVec 64)
    (h : ∀ i < 16, Unaffected key (roundInput key x i) i) :
    encryptWith cppTables key x = encryptWith cTables key x := by
  apply (encryptWith_eq_iff key x).mpr
  apply Feistel.rounds_congr
  intro i hi
  exact (round_eq_iff key x hi).mpr (h i hi)

theorem encryptWith_ne (key x : BitVec 64) {r : ℕ} (hr : r < 16)
    (hne : ¬ Unaffected key (roundInput key x r) r)
    (heq : ∀ i < 16, i ≠ r → Unaffected key (roundInput key x i) i) :
    encryptWith cppTables key x ≠ encryptWith cTables key x := by
  apply mt (encryptWith_eq_iff key x).mp
  apply Feistel.rounds_ne_of_one _ _ hr
  · exact mt (round_eq_iff key x hr).mp hne
  · intro i hi hir
    exact (round_eq_iff key x hi).mpr (heq i hi hir)
  · intro a b c h
    exact (BitVec.xor_left_inj c).mp h
  · intro a b c h
    exact (BitVec.xor_right_inj a).mp h

def hexChar (v : ℕ) : UInt8 :=
  if v < 10 then '0'.toUInt8 + UInt8.ofNat v else 'A'.toUInt8 + UInt8.ofNat (v - 10)

-- Two digits for each byte, the low nibble first.
def hexText (b : ℕ → UInt8) (i : ℕ) : UInt8 :=
  hexChar (if i % 2 = 0 then (b (i / 2)).toNat % 16 else (b (i / 2)).toNat / 16)

lemma hexChar_eq : ∀ v < 16, hexChar v
    = DESc.hexDigit (v.testBit 0) (v.testBit 1) (v.testBit 2) (v.testBit 3) := by
  decide

lemma hexText_byte (MesOut : DESc.Buffer) (x : BitVec 64) {i : ℕ} (hi : i < 16) :
    hexText (byte x) i = DESc.bitToHex MesOut x i := by
  have hlt := (byte x (i / 2)).toNat_lt
  rw [hexText, DESc.bitToHex, if_pos hi]
  split
  · next h =>
    rw [hexChar_eq _ (Nat.mod_lt _ (by decide)), show 16 = 2 ^ 4 from rfl]
    simp only [Nat.testBit_mod_two_pow, testBit_byte, Nat.reduceLT, decide_true, Bool.true_and,
      show 8 * (i / 2) = i * 4 by omega, Nat.add_zero]
  · next h =>
    rw [hexChar_eq _ (by omega), show 16 = 2 ^ 4 from rfl]
    simp only [Nat.testBit_div_two_pow, testBit_byte, Nat.reduceLT, Nat.reduceAdd]
    simp only [show 8 * (i / 2) + 4 = i * 4 by omega, show 8 * (i / 2) + 5 = i * 4 + 1 by omega,
      show 8 * (i / 2) + 6 = i * 4 + 2 by omega, show 8 * (i / 2) + 7 = i * 4 + 3 by omega]

lemma bitToHex_inj {MesOut : DESc.Buffer} {x y : BitVec 64}
    (h : ∀ i < 16, DESc.bitToHex MesOut x i = DESc.bitToHex MesOut y i) : x = y := by
  rw [← DESc.hexToBit_bitToHex (by decide) MesOut x, ← DESc.hexToBit_bitToHex (by decide) MesOut y]
  apply BitVec.eq_of_getLsbD_eq
  intro i hi
  rw [DESc.hexToBit, DESc.hexToBit, BitVec.getLsbD_ofFnLE, BitVec.getLsbD_ofFnLE, dif_pos hi,
    dif_pos hi, h (i / 4) (by omega)]

/-- `PlayDes` writes the digits of the bytes that `Des_Go` writes for the same block and key. -/
def Agree (st : DEScpp.Des) (s : DESc.Statics) (Out In Key : ℕ) (MesOut : DESc.Buffer) : Prop :=
  ∀ i < 16,
    (DESc.playDes (DESc.setKey s fun k => st.mem (Key + k)) MesOut fun k => st.mem (In + k)).2 i
      = hexText (fun k =>
          (DEScpp.desGo st Out In (BitVec.ofNat 64 8) Key 8 .encrypt).2.mem (Out + k)) i

lemma agree_iff (st : DEScpp.Des) (s : DESc.Statics) {Out In Key : ℕ} (MesOut : DESc.Buffer)
    (hOut : Out ≠ 0) (hIn : In ≠ 0) (hKey : Key ≠ 0) (hd : DEScpp.SameOrApart 8 In Out) :
    Agree st s Out In Key MesOut
      ↔ encryptWith cppTables (ofBytes 64 fun k => st.mem (Key + k)) (DEScpp.block st.mem In)
        = encryptWith cTables (ofBytes 64 fun k => st.mem (Key + k)) (DEScpp.block st.mem In) := by
  obtain ⟨hblock, -⟩ := DEScpp.desGo_spec st 8 .encrypt (by decide : 8 ∣ 8) (by decide) hOut hIn
    hKey hd
  have hkey : (ofBytes 64 fun k => DEScpp.keyByte st.mem Key 8 (0 + k))
      = ofBytes 64 fun k => st.mem (Key + k) := by
    apply ofBytes_congr
    intro k hk
    rw [Nat.zero_add, DEScpp.keyByte, if_pos (by simp; omega)]
  have hout : DEScpp.block (DEScpp.desGo st Out In (BitVec.ofNat 64 8) Key 8 .encrypt).2.mem Out
      = encryptWith cppTables (ofBytes 64 fun k => st.mem (Key + k)) (DEScpp.block st.mem In) := by
    refine (hblock 0 (by decide)).trans ?_
    rw [← hkey]
    rfl
  have htext (i : ℕ) (hi : i < 16) : hexText (fun k =>
        (DEScpp.desGo st Out In (BitVec.ofNat 64 8) Key 8 .encrypt).2.mem (Out + k)) i
      = DESc.bitToHex MesOut (encryptWith cppTables (ofBytes 64 fun k => st.mem (Key + k))
          (DEScpp.block st.mem In)) i := by
    rw [← hexText_byte MesOut _ hi, ← hout, hexText, hexText, DEScpp.block,
      byte_ofBytes _ (by omega)]
  have hplay := (DESc.playDes_spec (DESc.setKey s fun k => st.mem (Key + k)) MesOut
    fun k => st.mem (In + k)).2
  rw [DESc.setKey_SubKey] at hplay
  rw [Agree]
  constructor
  · intro h
    apply (bitToHex_inj (?_ : ∀ i < 16, DESc.bitToHex MesOut _ i = _))
    intro i hi
    rw [← htext i hi, ← h i hi, hplay]
    rfl
  · intro h i hi
    rw [htext i hi, h, hplay]
    rfl

/-- The two implementations agree on a block if no round of its encryption meets a difference of
the tables, and they disagree if exactly one round does. -/
theorem playDes_agrees (st : DEScpp.Des) (s : DESc.Statics) {Out In Key : ℕ}
    (MesOut : DESc.Buffer) (hOut : Out ≠ 0) (hIn : In ≠ 0) (hKey : Key ≠ 0)
    (hd : DEScpp.SameOrApart 8 In Out) :
    let key := ofBytes 64 fun k => st.mem (Key + k)
    let Clean i := Unaffected key (roundInput key (DEScpp.block st.mem In) i) i
    ((∀ i < 16, Clean i) → Agree st s Out In Key MesOut)
      ∧ ∀ r < 16, ¬ Clean r → (∀ i < 16, i ≠ r → Clean i) → ¬ Agree st s Out In Key MesOut := by
  intro key Clean
  rw [agree_iff st s MesOut hOut hIn hKey hd]
  exact ⟨encryptWith_eq _ _, fun r hr hne heq => encryptWith_ne _ _ hr hne heq⟩

def zeroStatics : DESc.Statics := ⟨Vector.replicate 16 0, 0, 0, 0, 0, 0, 0, 0, 0⟩

def blockOne : DEScpp.Des := { DEScpp.oneByteSet with mem := fun a => if a = 16 then 1 else 0 }

theorem playDes_agrees_block : Agree DEScpp.twoBlocks zeroStatics 48 16 1 fun _ => 0 :=
  (playDes_agrees DEScpp.twoBlocks zeroStatics (fun _ => 0) (by decide : 48 ≠ 0) (by decide : 16 ≠ 0)
    (by decide : 1 ≠ 0) (.inr (.inr (by decide)))).1 (by decide +kernel)

theorem playDes_disagrees : ¬ Agree blockOne zeroStatics 16 16 32 fun _ => 0 := by
  rw [agree_iff _ _ _ (by decide) (by decide) (by decide) (.inl rfl)]
  decide +kernel

end SimpleCode.Crypto
