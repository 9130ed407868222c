import SimpleCode.Foundations.BitArray
import SimpleCode.Foundations.Feistel

set_option autoImplicit false

namespace SimpleCode.Crypto

open Foundations BitArray

/-- The tables of a DES implementation. Nothing is asked of the S-boxes, the expansion and the
key choices; the two block permutations undo one another. -/
structure DesTables where
  ip : SelectionTable 64 64
  ipr : SelectionTable 64 64
  e : SelectionTable 32 48
  p : SelectionTable 32 32
  pc1 : SelectionTable 64 56
  pc2 : SelectionTable 56 48
  loop : Vector ℕ 16
  sBox : Vector (Vector (Vector UInt8 16) 4) 8
  ipr_ip : ipr.InverseOf ip
  ip_ipr : ip.InverseOf ipr

def row (x : BitVec 48) (i : Fin 8) : Fin 4 :=
  ⟨2 * (x.getLsbD (6 * i)).toNat + (x.getLsbD (6 * i + 5)).toNat, by
    have := (x.getLsbD (6 * i)).toNat_le
    have := (x.getLsbD (6 * i + 5)).toNat_le
    omega⟩

def column (x : BitVec 48) (i : Fin 8) : Fin 16 :=
  ⟨8 * (x.getLsbD (6 * i + 1)).toNat + 4 * (x.getLsbD (6 * i + 2)).toNat
      + 2 * (x.getLsbD (6 * i + 3)).toNat + (x.getLsbD (6 * i + 4)).toNat, by
    have := (x.getLsbD (6 * i + 1)).toNat_le
    have := (x.getLsbD (6 * i + 2)).toNat_le
    have := (x.getLsbD (6 * i + 3)).toNat_le
    have := (x.getLsbD (6 * i + 4)).toNat_le
    omega⟩

def halves (x : BitVec 64) : BitVec 32 × BitVec 32 := (x.extractLsb' 0 32, x.extractLsb' 32 32)

def join (s : BitVec 32 × BitVec 32) : BitVec 64 := s.2 ++ s.1

lemma join_halves (x : BitVec 64) : join (halves x) = x := by
  apply BitVec.eq_of_getLsbD_eq
  intro i hi
  simp only [join, halves, BitVec.getLsbD_append, BitVec.getLsbD_extractLsb', Nat.zero_add]
  split
  · next h => simp [h]
  · next h => rw [Nat.add_sub_cancel' (by omega)]
              simp [show i - 32 < 32 by omega]

lemma halves_join (s : BitVec 32 × BitVec 32) : halves (join s) = s := by
  refine Prod.ext ?_ ?_
  · apply BitVec.eq_of_getLsbD_eq
    intro i hi
    simp only [halves, join, BitVec.getLsbD_extractLsb', BitVec.getLsbD_append, Nat.zero_add]
    simp [hi]
  · apply BitVec.eq_of_getLsbD_eq
    intro i hi
    simp only [halves, join, BitVec.getLsbD_extractLsb', BitVec.getLsbD_append]
    simp [hi]

lemma halves_encRound (M : BitVec 64) (r : BitVec 32) :
    halves (put (put (put M 32 r) 32
        ((put M 32 r).extractLsb' 32 32 ^^^ (put M 32 r).extractLsb' 0 32)) 0
        (M.extractLsb' 32 32)) = ((halves M).2, r ^^^ (halves M).1) := by
  simp only [halves]
  rw [extract_put _ _ (by decide), extract_put_of_disjoint _ _ (by decide) (by decide),
    extract_put _ _ (by decide), extract_put _ _ (by decide),
    extract_put_of_disjoint _ _ (by decide) (by decide)]

lemma halves_decRound (M : BitVec 64) (l : BitVec 32) :
    halves (put (put (put M 0 l) 0
        ((put M 0 l).extractLsb' 0 32 ^^^ (put M 0 l).extractLsb' 32 32)) 32
        (M.extractLsb' 0 32)) = (l ^^^ (halves M).2, (halves M).1) := by
  simp only [halves]
  rw [extract_put _ _ (by decide), extract_put_of_disjoint _ _ (by decide) (by decide),
    extract_put _ _ (by decide), extract_put _ _ (by decide),
    extract_put_of_disjoint _ _ (by decide) (by decide)]

def keyHalves (K : BitVec 64) : BitVec 28 × BitVec 28 := (K.extractLsb' 0 28, K.extractLsb' 28 28)

lemma keyHalves_put (K : BitVec 64) (x : BitVec 56) :
    keyHalves (put K 0 x) = (x.extractLsb' 0 28, x.extractLsb' 28 28) := by
  refine Prod.ext ?_ ?_ <;>
  · apply BitVec.eq_of_getLsbD_eq
    intro i hi
    simp only [keyHalves, BitVec.getLsbD_extractLsb']
    rw [getLsbD_put _ _ _ (by omega), if_pos (by omega), Nat.sub_zero]

lemma keyHalves_rotate (K : BitVec 64) (loop : ℕ) :
    keyHalves (put (put K 0 ((K.extractLsb' 0 28).rotateRight loop)) 28
        (((put K 0 ((K.extractLsb' 0 28).rotateRight loop)).extractLsb' 28 28).rotateRight loop))
      = ((keyHalves K).1.rotateRight loop, (keyHalves K).2.rotateRight loop) := by
  simp only [keyHalves]
  rw [extract_put _ _ (by decide), extract_put_of_disjoint _ _ (by decide) (by decide),
    extract_put _ _ (by decide), extract_put_of_disjoint _ _ (by decide) (by decide)]

namespace DesTables

variable (T : DesTables)

def cell (x : BitVec 48) (i : Fin 8) : UInt8 := T.sBox[i][row x i][column x i]

def substitute (x : BitVec 48) : BitVec 32 :=
  BitVec.ofFnLE fun b => (T.cell x ⟨b / 4, by omega⟩).toNat.testBit (b % 4)

lemma foldl_put_eq_substitute (Out : BitVec 32) (x : BitVec 48) :
    (List.finRange 8).foldl
      (fun Out (i : Fin 8) => put Out (4 * i) (ofBytes 4 fun _ => T.cell x i)) Out
      = T.substitute x := by
  apply BitVec.eq_of_getLsbD_eq
  intro b hb
  have hp := put_pieces (fun i : Fin 8 => ofBytes 4 fun _ => T.cell x i)
    (List.finRange 8) Out ⟨b / 4, by omega⟩ (Nat.mod_lt b (by decide : 4 > 0))
    (by rw [Nat.div_add_mod]; exact hb)
  rw [Nat.div_add_mod, if_pos (List.mem_finRange _), getLsbD_ofBytes _ (Nat.mod_lt b (by decide)),
    Nat.mod_eq_of_lt (show b % 4 < 8 by omega)] at hp
  rw [substitute, BitVec.getLsbD_ofFnLE, dif_pos hb]
  exact hp

def roundFunction (R : BitVec 32) (k : BitVec 48) : BitVec 32 :=
  T.p.permute (T.substitute (T.e.permute R ^^^ k))

-- The two halves of the key register after `n` rounds: cell `j` takes the value of cell
-- `j + loop`, which turns the vector to the right.
def register (key : BitVec 64) : ℕ → BitVec 28 × BitVec 28
  | 0 => ((T.pc1.permute key).extractLsb' 0 28, (T.pc1.permute key).extractLsb' 28 28)
  | n + 1 =>
    ((register key n).1.rotateRight (T.loop.getD n 0),
      (register key n).2.rotateRight (T.loop.getD n 0))

def roundKey (key : BitVec 64) (n : ℕ) : BitVec 48 :=
  T.pc2.permute ((T.register key (n + 1)).2 ++ (T.register key (n + 1)).1)

def schedule (key : BitVec 64) : Vector (BitVec 48) 16 := Vector.ofFn fun i => T.roundKey key i

def encrypt (ks : ℕ → BitVec 48) (x : BitVec 64) : BitVec 64 :=
  T.ipr.permute (join
    (Feistel.rounds (· ^^^ ·) T.roundFunction ks 16 (halves (T.ip.permute x))))

def decrypt (ks : ℕ → BitVec 48) (x : BitVec 64) : BitVec 64 :=
  T.ipr.permute (join
    (Feistel.unrounds (· ^^^ ·) T.roundFunction ks 16 (halves (T.ip.permute x))))

lemma keys_foldl_eq_schedule {σ : Type*} {key : BitVec 64} (view : σ → BitVec 28 × BitVec 28)
    (keys : σ → Vector (BitVec 48) 16) {step : σ → ℕ → σ}
    (h : ∀ s i, view s = T.register key i → view (step s i) = T.register key (i + 1)
      ∧ keys (step s i) = (keys s).setIfInBounds i (T.roundKey key i))
    (s : σ) (h₀ : view s = T.register key 0) :
    keys ((List.range 16).foldl step s) = T.schedule key := by
  have hrun (n : ℕ) (hn : n ≤ 16) : view ((List.range n).foldl step s) = T.register key n
      ∧ ∀ i (hi : i < n), (keys ((List.range n).foldl step s))[i] = T.roundKey key i := by
    induction n with
    | zero => exact ⟨h₀, fun i hi => absurd hi (Nat.not_lt_zero i)⟩
    | succ n ih =>
      obtain ⟨hview, hks⟩ := ih (by omega)
      rw [List.range_succ, List.foldl_append, List.foldl_cons, List.foldl_nil]
      obtain ⟨hview', hks'⟩ := h _ _ hview
      refine ⟨hview', fun i hi => ?_⟩
      simp only [hks']
      rcases Nat.lt_succ_iff_lt_or_eq.mp hi with hlt | rfl
      · rw [Vector.getElem_setIfInBounds_ne _ (by omega)]
        exact hks i hlt
      · rw [Vector.getElem_setIfInBounds_self]
  apply Vector.ext
  intro i hi
  rw [schedule, Vector.getElem_ofFn]
  exact (hrun 16 le_rfl).2 i hi

lemma xor_xor_self (a b : BitVec 32) : a ^^^ (a ^^^ b) = b := by
  rw [← BitVec.xor_assoc, BitVec.xor_self, BitVec.zero_xor]

theorem decrypt_encrypt (ks : ℕ → BitVec 48) (x : BitVec 64) :
    T.decrypt ks (T.encrypt ks x) = x := by
  rw [decrypt, encrypt, SelectionTable.permute_permute T.ip_ipr, halves_join,
    Feistel.unrounds_rounds (· ^^^ ·) _ _ xor_xor_self, join_halves, SelectionTable.permute_permute T.ipr_ip]

theorem encrypt_decrypt (ks : ℕ → BitVec 48) (x : BitVec 64) :
    T.encrypt ks (T.decrypt ks x) = x := by
  rw [encrypt, decrypt, SelectionTable.permute_permute T.ip_ipr, halves_join,
    Feistel.rounds_unrounds (· ^^^ ·) _ _ xor_xor_self, join_halves, SelectionTable.permute_permute T.ipr_ip]

end DesTables

end SimpleCode.Crypto

/-! The class `Des` of `DEScpp_own` with its tables, its static scratch arrays and its buffers in
memory. `long` has 64 bits, as on the 64-bit Linux that the repository targets. -/

namespace SimpleCode.Crypto.DEScpp

open Foundations BitArray

def ipTable : SelectionTable 64 64 :=
  ⟨#v[
    58, 50, 42, 34, 26, 18, 10, 2, 60, 52, 44, 36, 28, 20, 12, 4,
    62, 54, 46, 38, 30, 22, 14, 6, 64, 56, 48, 40, 32, 24, 16, 8,
    57, 49, 41, 33, 25, 17, 9, 1, 59, 51, 43, 35, 27, 19, 11, 3,
    61, 53, 45, 37, 29, 21, 13, 5, 63, 55, 47, 39, 31, 23, 15, 7], by decide⟩

def iprTable : SelectionTable 64 64 :=
  ⟨#v[
    40, 8, 48, 16, 56, 24, 64, 32, 39, 7, 47, 15, 55, 23, 63, 31,
    38, 6, 46, 14, 54, 22, 62, 30, 37, 5, 45, 13, 53, 21, 61, 29,
    36, 4, 44, 12, 52, 20, 60, 28, 35, 3, 43, 11, 51, 19, 59, 27,
    34, 2, 42, 10, 50, 18, 58, 26, 33, 1, 41, 9, 49, 17, 57, 25], by decide⟩

def eTable : SelectionTable 32 48 :=
  ⟨#v[
    32, 1, 2, 3, 4, 5, 4, 5, 6, 7, 8, 9,
    8, 9, 10, 11, 12, 13, 12, 13, 14, 15, 16, 17,
    16, 17, 18, 19, 20, 21, 20, 21, 22, 23, 24, 25,
    24, 25, 26, 27, 28, 29, 28, 29, 30, 31, 32, 1], by decide⟩

def pTable : SelectionTable 32 32 :=
  ⟨#v[
    16, 7, 20, 21, 29, 12, 28, 17, 1, 15, 23, 26, 5, 18, 31, 10,
    2, 8, 24, 14, 32, 27, 3, 9, 19, 13, 30, 6, 22, 11, 4, 25], by decide⟩

def pc1Table : SelectionTable 64 56 :=
  ⟨#v[
    57, 49, 41, 33, 25, 17, 9, 1, 58, 50, 42, 34, 26, 18,
    10, 2, 59, 51, 43, 35, 27, 19, 11, 3, 60, 52, 44, 36,
    63, 55, 47, 39, 31, 23, 15, 7, 62, 54, 46, 38, 30, 22,
    14, 6, 61, 53, 45, 37, 29, 21, 13, 5, 28, 20, 12, 4], by decide⟩

def pc2Table : SelectionTable 56 48 :=
  ⟨#v[
    14, 17, 11, 24, 1, 5, 3, 28, 15, 6, 21, 10,
    23, 19, 12, 4, 26, 8, 16, 7, 27, 20, 13, 2,
    41, 52, 31, 37, 47, 55, 30, 40, 51, 45, 33, 48,
    44, 49, 39, 56, 34, 53, 46, 42, 50, 36, 29, 32], by decide⟩

def loopTable : Vector ℕ 16 :=
  #v[1, 1, 2, 2, 2, 2, 2, 2, 1, 2, 2, 2, 2, 2, 2, 1]

def sBox : Vector (Vector (Vector UInt8 16) 4) 8 :=
  #v[
    #v[#v[14, 4, 13, 1, 2, 15, 11, 8, 3, 10, 6, 12, 5, 9, 0, 7],
      #v[0, 15, 7, 4, 14, 2, 13, 1, 10, 6, 12, 11, 9, 5, 3, 8],
      #v[4, 1, 14, 8, 13, 6, 2, 11, 15, 12, 9, 7, 3, 10, 5, 0],
      #v[15, 12, 8, 2, 4, 9, 1, 7, 5, 11, 3, 14, 10, 0, 6, 13]],
    #v[#v[15, 1, 8, 14, 6, 11, 3, 4, 9, 7, 2, 13, 12, 0, 5, 10],
      #v[3, 13, 4, 7, 15, 2, 8, 14, 12, 0, 1, 10, 6, 9, 11, 5],
      #v[0, 14, 7, 11, 10, 4, 13, 1, 5, 8, 12, 6, 9, 3, 2, 15],
      #v[13, 8, 10, 1, 3, 15, 4, 2, 11, 6, 7, 12, 0, 5, 14, 9]],
    #v[#v[10, 0, 9, 14, 6, 3, 15, 5, 1, 13, 12, 7, 11, 4, 2, 8],
      #v[13, 7, 0, 9, 3, 4, 6, 10, 2, 8, 5, 14, 12, 11, 15, 1],
      #v[13, 6, 4, 9, 8, 15, 3, 0, 11, 1, 2, 12, 5, 10, 14, 7],
      #v[1, 10, 13, 0, 6, 9, 8, 7, 4, 15, 14, 3, 11, 5, 2, 12]],
    #v[#v[7, 13, 14, 3, 0, 6, 9, 10, 1, 2, 8, 5, 11, 12, 4, 15],
      #v[13, 8, 11, 5, 6, 15, 0, 3, 4, 7, 2, 12, 1, 10, 14, 9],
      #v[10, 6, 9, 0, 12, 11, 7, 13, 15, 1, 3, 14, 5, 2, 8, 4],
      #v[3, 15, 0, 6, 10, 1, 13, 8, 9, 4, 5, 11, 12, 7, 2, 14]],
    #v[#v[2, 12, 4, 1, 7, 10, 11, 6, 8, 5, 3, 15, 13, 0, 14, 9],
      #v[14, 11, 2, 12, 4, 7, 13, 1, 5, 0, 15, 10, 3, 9, 8, 6],
      #v[4, 2, 1, 11, 10, 13, 7, 8, 15, 9, 12, 5, 6, 3, 0, 14],
      #v[11, 8, 12, 7, 1, 14, 2, 13, 6, 15, 0, 9, 10, 4, 5, 3]],
    #v[#v[12, 1, 10, 15, 9, 2, 6, 8, 0, 13, 3, 4, 14, 7, 5, 11],
      #v[10, 15, 4, 2, 7, 12, 9, 5, 6, 1, 13, 14, 0, 11, 3, 8],
      #v[9, 14, 15, 5, 2, 8, 12, 3, 7, 0, 4, 10, 1, 13, 11, 6],
      #v[4, 3, 2, 12, 9, 5, 15, 10, 11, 14, 1, 7, 6, 0, 8, 13]],
    #v[#v[4, 11, 2, 14, 15, 0, 8, 13, 3, 12, 9, 7, 5, 10, 6, 1],
      #v[13, 0, 11, 7, 4, 9, 1, 10, 14, 3, 5, 12, 2, 15, 8, 6],
      #v[1, 4, 11, 13, 12, 3, 7, 14, 10, 15, 6, 8, 0, 5, 9, 2],
      #v[6, 11, 13, 8, 1, 4, 10, 7, 9, 5, 0, 15, 14, 2, 3, 12]],
    #v[#v[13, 2, 8, 4, 6, 15, 11, 1, 10, 9, 3, 14, 5, 0, 12, 7],
      #v[1, 15, 13, 8, 10, 3, 7, 4, 12, 5, 6, 11, 0, 14, 9, 2],
      #v[7, 11, 4, 1, 9, 12, 14, 2, 0, 6, 10, 13, 15, 3, 5, 8],
      #v[2, 1, 14, 7, 4, 10, 8, 13, 15, 12, 9, 0, 3, 5, 6, 11]]]

def tables : DesTables where
  ip := ipTable
  ipr := iprTable
  e := eTable
  p := pTable
  pc1 := pc1Table
  pc2 := pc2Table
  loop := loopTable
  sBox := sBox
  ipr_ip := by decide
  ip_ipr := by decide

inductive Mode
  | encrypt
  | decrypt
deriving DecidableEq, Repr

def Mode.not : Mode → Mode
  | .encrypt => .decrypt
  | .decrypt => .encrypt

abbrev Memory := ℕ → UInt8

-- The arrays `Tmp`, `M`, `tmp`, `K` and `MR`, which keep their cells between calls.
structure Scratch where
  Tmp : BitVec 256
  M : BitVec 64
  tmp : BitVec 32
  K : BitVec 64
  MR : BitVec 48

structure Keys where
  subKey : Vector (Vector (BitVec 48) 16) 2
  is3DES : Bool
  deskey : Vector UInt8 16

structure Des where
  mem : Memory
  scratch : Scratch
  keys : Keys

def memset (mem : Memory) (p : ℕ) (v : UInt8) (n : ℕ) : Memory :=
  fun a => if p ≤ a ∧ a < p + n then v else mem a

def byteToBit (In : ℕ → UInt8) (bits : ℕ) : BitVec bits :=
  BitVec.ofFnLE fun i => (In (i.val >>> 3)).toNat >>> (i.val &&& 7) &&& 1 == 1

def bitToByteStep {bits : ℕ} (Out : ℕ) (In : BitVec bits) (mem : Memory) (i : ℕ) : Memory :=
  Function.update mem (Out + i >>> 3)
    (mem (Out + i >>> 3) ||| (In.getLsbD i).toUInt8 <<< UInt8.ofNat (i &&& 7))

def bitToByte {bits : ℕ} (mem : Memory) (Out : ℕ) (In : BitVec bits) : Memory :=
  (List.range bits).foldl (bitToByteStep Out In) (memset mem Out 0 (bits >>> 3))

def transform {m n : ℕ} (s : Scratch) (In : BitVec m) (Table : SelectionTable m n) :
    Scratch × BitVec n :=
  let Tmp := put s.Tmp 0 (BitVec.ofFnLE fun i : Fin n => In.getLsbD (Table.entries.get i - 1))
  ({ s with Tmp := Tmp }, Tmp.extractLsb' 0 n)

def rotateL {len : ℕ} (s : Scratch) (In : BitVec len) (loop : ℕ) : Scratch × BitVec len :=
  let Tmp := put s.Tmp 0 (In.extractLsb' 0 loop)
  let In := put In 0 (In.extractLsb' loop (len - loop))
  ({ s with Tmp := Tmp }, put In (len - loop) (Tmp.extractLsb' 0 loop))

def sFunc (Out : BitVec 32) (In : BitVec 48) : BitVec 32 :=
  (List.finRange 8).foldl
    (fun Out (i : Fin 8) => put Out (4 * i) (byteToBit (fun _ => sBox[i][row In i][column In i]) 4)) Out

def fFunc (s : Scratch) (In : BitVec 32) (Ki : BitVec 48) : Scratch × BitVec 32 :=
  let (s, MR) := transform s In eTable
  let s := { s with MR := MR }
  let s := { s with MR := s.MR ^^^ Ki }
  let In := sFunc In s.MR
  transform s In pTable

def encryptRound (pSubKey : Vector (BitVec 48) 16) (s : Scratch) (i : ℕ) : Scratch :=
  let s := { s with tmp := s.M.extractLsb' 32 32 }
  let (s, Ri) := fFunc s (s.M.extractLsb' 32 32) (pSubKey.getD i 0)
  let s := { s with M := put s.M 32 Ri }
  let s := { s with M := put s.M 32 (s.M.extractLsb' 32 32 ^^^ s.M.extractLsb' 0 32) }
  { s with M := put s.M 0 s.tmp }

def decryptRound (pSubKey : Vector (BitVec 48) 16) (s : Scratch) (i : ℕ) : Scratch :=
  let s := { s with tmp := s.M.extractLsb' 0 32 }
  let (s, Li) := fFunc s (s.M.extractLsb' 0 32) (pSubKey.getD i 0)
  let s := { s with M := put s.M 0 Li }
  let s := { s with M := put s.M 0 (s.M.extractLsb' 0 32 ^^^ s.M.extractLsb' 32 32) }
  { s with M := put s.M 32 s.tmp }

def des (s : Scratch) (mem : Memory) (Out In : ℕ) (pSubKey : Vector (BitVec 48) 16)
    (type : Mode) : Scratch × Memory :=
  let s := { s with M := byteToBit (fun k => mem (In + k)) 64 }
  let (s, M) := transform s s.M ipTable
  let s := { s with M := M }
  let s := match type with
    | .encrypt => (List.range 16).foldl (encryptRound pSubKey) s
    | .decrypt => (List.range 16).reverse.foldl (decryptRound pSubKey) s
  let (s, M) := transform s s.M iprTable
  let s := { s with M := M }
  (s, bitToByte mem Out s.M)

def rotateHalf (s : Scratch) (o loop : ℕ) : Scratch :=
  let (s, half) := rotateL s (s.K.extractLsb' o 28) loop
  { s with K := put s.K o half }

def setSubKeyRound (st : Scratch × Vector (BitVec 48) 16) (i : ℕ) :
    Scratch × Vector (BitVec 48) 16 :=
  let s := rotateHalf st.1 0 (loopTable.getD i 0)
  let s := rotateHalf s 28 (loopTable.getD i 0)
  let (s, k) := transform s (s.K.extractLsb' 0 56) pc2Table
  (s, st.2.setIfInBounds i k)

def setSubKey (s : Scratch) (pSubKey : Vector (BitVec 48) 16) (Key : ℕ → UInt8) :
    Scratch × Vector (BitVec 48) 16 :=
  let s := { s with K := byteToBit Key 64 }
  let (s, K) := transform s s.K pc1Table
  let s := { s with K := put s.K 0 K }
  (List.range 16).foldl setSubKeyRound (s, pSubKey)

def setKey (st : Des) (Key len : ℕ) : Des :=
  let deskey := Vector.ofFn fun i : Fin 16 =>
    if i < (if len > 16 then 16 else len) then st.mem (Key + i) else 0
  let (s, ks) := setSubKey st.scratch st.keys.subKey[0] fun k => deskey.getD k 0
  let keys := { st.keys with deskey := deskey, subKey := st.keys.subKey.set 0 ks }
  if len > 8 then
    let (s, ks) := setSubKey s keys.subKey[1] fun k => deskey.getD (8 + k) 0
    { st with scratch := s, keys := ⟨keys.subKey.set 1 ks, true, deskey⟩ }
  else
    { st with scratch := s, keys := { keys with is3DES := false } }

def desBlock (st : Des) (Out In : ℕ) (type : Mode) : Des :=
  if st.keys.is3DES then
    let (s, mem) := des st.scratch st.mem Out In st.keys.subKey[0] type
    let (s, mem) := des s mem Out Out st.keys.subKey[1] type.not
    let (s, mem) := des s mem Out Out st.keys.subKey[0] type
    { st with scratch := s, mem := mem }
  else
    let (s, mem) := des st.scratch st.mem Out In st.keys.subKey[0] type
    { st with scratch := s, mem := mem }

-- The mask is an `unsigned int`: its conversion to `long` clears the upper 32 bits.
def desGo (st : Des) (Out In : ℕ) (datalen : BitVec 64) (Key keylen : ℕ) (type : Mode) :
    Bool × Des :=
  let datalen := (datalen + 7) &&& 0xfffffff8
  if Out ≠ 0 ∧ In ≠ 0 ∧ Key ≠ 0 ∧ datalen ≠ 0 then
    let st := setKey st Key keylen
    (true, (List.range (datalen >>> 3).toNat).foldl
      (fun st i => desBlock st (Out + 8 * i) (In + 8 * i) type) st)
  else
    (false, st)

end SimpleCode.Crypto.DEScpp

/-! The C functions of `DESc` with the tables of `tables.h` and the static arrays that survive
from call to call. A buffer of characters is a function of the offset from its pointer. -/

namespace SimpleCode.Crypto.DESc

open Foundations BitArray

def ipTable : SelectionTable 64 64 :=
  ⟨#v[
    58, 50, 42, 34, 26, 18, 10, 2, 60, 52, 44, 36, 28, 20, 12, 4,
    62, 54, 46, 38, 30, 22, 14, 6, 64, 56, 48, 40, 32, 24, 16, 8,
    57, 49, 41, 33, 25, 17, 9, 1, 59, 51, 43, 35, 27, 19, 11, 3,
    61, 53, 45, 37, 29, 21, 13, 5, 63, 55, 47, 39, 31, 23, 15, 7], by decide⟩

def iprTable : SelectionTable 64 64 :=
  ⟨#v[
    40, 8, 48, 16, 56, 24, 64, 32, 39, 7, 47, 15, 55, 23, 63, 31,
    38, 6, 46, 14, 54, 22, 62, 30, 37, 5, 45, 13, 53, 21, 61, 29,
    36, 4, 44, 12, 52, 20, 60, 28, 35, 3, 43, 11, 51, 19, 59, 27,
    34, 2, 42, 10, 50, 18, 58, 26, 33, 1, 41, 9, 49, 17, 57, 25], by decide⟩

def eTable : SelectionTable 32 48 :=
  ⟨#v[
    32, 1, 2, 3, 4, 5, 4, 5, 6, 7, 8, 9,
    8, 9, 10, 11, 12, 13, 12, 13, 14, 15, 16, 17,
    16, 17, 18, 19, 20, 21, 20, 21, 22, 23, 24, 25,
    24, 25, 26, 27, 28, 29, 28, 29, 30, 31, 32, 1], by decide⟩

def pTable : SelectionTable 32 32 :=
  ⟨#v[
    16, 7, 20, 21, 29, 12, 28, 17, 1, 15, 23, 26, 5, 18, 31, 10,
    2, 8, 24, 14, 32, 27, 3, 9, 19, 13, 30, 6, 22, 11, 4, 25], by decide⟩

def pc1Table : SelectionTable 64 56 :=
  ⟨#v[
    57, 49, 41, 33, 25, 17, 9, 1, 58, 50, 42, 34, 26, 18,
    10, 2, 59, 51, 43, 35, 27, 19, 11, 3, 60, 52, 44, 36,
    63, 55, 47, 39, 31, 23, 15, 7, 62, 54, 46, 38, 30, 22,
    14, 6, 61, 53, 45, 37, 29, 21, 13, 5, 28, 20, 12, 4], by decide⟩

def pc2Table : SelectionTable 56 48 :=
  ⟨#v[
    14, 17, 11, 24, 1, 5, 3, 28, 15, 6, 21, 10,
    23, 19, 12, 4, 26, 8, 16, 7, 27, 20, 13, 2,
    41, 52, 31, 37, 47, 55, 30, 40, 51, 34, 33, 48,
    44, 49, 39, 56, 34, 53, 46, 42, 50, 36, 29, 32], by decide⟩

def moveTable : Vector ℕ 16 :=
  #v[1, 1, 2, 2, 2, 2, 2, 2, 1, 2, 2, 2, 2, 2, 2, 1]

def sBox : Vector (Vector (Vector UInt8 16) 4) 8 :=
  #v[
    #v[#v[14, 4, 13, 1, 2, 15, 11, 8, 3, 10, 6, 12, 5, 9, 0, 7],
      #v[0, 15, 7, 4, 14, 2, 13, 1, 10, 6, 12, 11, 9, 5, 3, 8],
      #v[4, 1, 14, 8, 13, 6, 2, 11, 15, 12, 9, 7, 3, 10, 5, 0],
      #v[15, 12, 8, 2, 4, 9, 1, 7, 5, 11, 3, 14, 10, 0, 6, 13]],
    #v[#v[15, 1, 8, 14, 6, 11, 3, 4, 9, 7, 2, 13, 12, 0, 5, 10],
      #v[3, 13, 4, 7, 15, 2, 8, 14, 12, 0, 1, 10, 6, 9, 11, 5],
      #v[0, 14, 7, 11, 10, 4, 13, 1, 5, 8, 12, 6, 9, 3, 2, 15],
      #v[13, 8, 10, 1, 3, 15, 4, 2, 11, 6, 7, 12, 0, 5, 14, 9]],
    #v[#v[10, 0, 9, 14, 6, 3, 15, 5, 1, 13, 12, 7, 11, 4, 2, 8],
      #v[13, 7, 0, 9, 3, 4, 6, 10, 2, 8, 5, 14, 12, 11, 15, 1],
      #v[13, 6, 4, 9, 8, 15, 3, 0, 11, 1, 2, 12, 5, 10, 14, 7],
      #v[1, 10, 13, 0, 6, 9, 8, 7, 4, 15, 14, 3, 11, 5, 2, 12]],
    #v[#v[7, 13, 14, 3, 0, 6, 9, 10, 1, 2, 8, 5, 11, 12, 4, 15],
      #v[13, 8, 11, 5, 6, 15, 0, 3, 4, 7, 2, 12, 1, 10, 14, 9],
      #v[10, 6, 9, 0, 12, 11, 7, 13, 15, 1, 3, 14, 5, 2, 8, 4],
      #v[3, 15, 0, 6, 10, 1, 13, 8, 9, 4, 5, 11, 12, 7, 2, 14]],
    #v[#v[2, 12, 4, 1, 7, 10, 11, 6, 8, 5, 3, 15, 13, 0, 14, 9],
      #v[14, 11, 2, 12, 4, 7, 13, 1, 5, 0, 15, 10, 3, 9, 8, 6],
      #v[4, 2, 1, 11, 10, 13, 7, 8, 15, 9, 12, 5, 6, 3, 0, 14],
      #v[11, 8, 12, 7, 1, 14, 2, 13, 6, 15, 0, 9, 10, 4, 5, 3]],
    #v[#v[12, 1, 10, 15, 9, 2, 6, 8, 0, 13, 3, 4, 14, 7, 5, 11],
      #v[10, 15, 4, 2, 7, 12, 0, 5, 6, 1, 13, 14, 0, 11, 3, 8],
      #v[9, 14, 15, 5, 2, 8, 12, 3, 7, 0, 4, 10, 1, 13, 11, 6],
      #v[4, 3, 2, 12, 9, 5, 15, 10, 11, 14, 1, 7, 6, 0, 8, 13]],
    #v[#v[4, 11, 2, 14, 15, 0, 8, 13, 3, 12, 9, 7, 5, 10, 6, 1],
      #v[13, 0, 11, 7, 4, 0, 1, 10, 14, 3, 5, 12, 2, 15, 8, 6],
      #v[1, 4, 11, 13, 12, 3, 7, 14, 10, 15, 6, 8, 0, 5, 9, 2],
      #v[6, 11, 13, 8, 1, 4, 10, 7, 9, 5, 0, 15, 14, 2, 3, 12]],
    #v[#v[13, 2, 8, 4, 6, 15, 11, 1, 10, 9, 3, 14, 5, 0, 12, 7],
      #v[1, 15, 13, 8, 10, 3, 7, 4, 12, 5, 6, 11, 0, 14, 9, 2],
      #v[7, 11, 4, 1, 9, 12, 14, 2, 0, 6, 10, 13, 15, 3, 5, 8],
      #v[2, 1, 14, 7, 4, 10, 8, 13, 15, 12, 9, 0, 3, 5, 6, 11]]]

def tables : DesTables where
  ip := ipTable
  ipr := iprTable
  e := eTable
  p := pTable
  pc1 := pc1Table
  pc2 := pc2Table
  loop := moveTable
  sBox := sBox
  ipr_ip := by decide
  ip_ipr := by decide

abbrev Buffer := ℕ → UInt8

-- The static arrays, each under the name of its function where the source has several of a name.
structure Statics where
  SubKey : Vector (BitVec 48) 16
  permuteTemp : BitVec 256
  moveTemp : BitVec 256
  MiR : BitVec 48
  KeyBit : BitVec 64
  playMesBit : BitVec 64
  playTemp : BitVec 32
  kickMesBit : BitVec 64
  kickTemp : BitVec 32

def byteToBit (DatIn : Buffer) (Num : ℕ) : BitVec Num :=
  BitVec.ofFnLE fun i => (DatIn (i.val / 8)).toNat >>> (i.val % 8) &&& 0x01 == 1

def bitToByteStep {Num : ℕ} (DatIn : BitVec Num) (DatOut : Buffer) (i : ℕ) : Buffer :=
  Function.update DatOut (i / 8)
    (DatOut (i / 8) ||| (DatIn.getLsbD i).toUInt8 <<< UInt8.ofNat (i % 8))

def bitToByte {Num : ℕ} (DatOut : Buffer) (DatIn : BitVec Num) : Buffer :=
  (List.range Num).foldl (bitToByteStep DatIn) (fun i => if i < Num / 8 then 0 else DatOut i)

def hexDigit (b₀ b₁ b₂ b₃ : Bool) : UInt8 :=
  let value := b₀.toUInt8 + b₁.toUInt8 <<< 1 + b₂.toUInt8 <<< 2 + b₃.toUInt8 <<< 3
  if value % 16 > 9 then value % 16 + '7'.toUInt8 else value % 16 + '0'.toUInt8

def bitToHex {Num : ℕ} (DatOut : Buffer) (DatIn : BitVec Num) : Buffer :=
  fun i =>
    if i < Num / 4 then
      hexDigit (DatIn.getLsbD (i * 4)) (DatIn.getLsbD (i * 4 + 1)) (DatIn.getLsbD (i * 4 + 2))
        (DatIn.getLsbD (i * 4 + 3))
    else DatOut i

-- `char` is signed and the differences are of type `int`.
def hexBit (c : UInt8) (k : ℕ) : Bool :=
  let c := c.toInt8.toInt
  if c > '9'.toNat then ((c - '7'.toNat) >>> k) % 2 == 1 else ((c - '0'.toNat) >>> k) % 2 == 1

def hexToBit (DatIn : Buffer) (Num : ℕ) : BitVec Num :=
  BitVec.ofFnLE fun i => hexBit (DatIn (i.val / 4)) (i.val % 4)

def tablePermute {m n : ℕ} (s : Statics) (DatIn : BitVec m) (Table : SelectionTable m n) :
    Statics × BitVec n :=
  let Temp := put s.permuteTemp 0
    (BitVec.ofFnLE fun i : Fin n => DatIn.getLsbD (Table.entries.get i - 1))
  ({ s with permuteTemp := Temp }, Temp.extractLsb' 0 n)

def loopMove {Len : ℕ} (s : Statics) (DatIn : BitVec Len) (Num : ℕ) : Statics × BitVec Len :=
  let Temp := put s.moveTemp 0 (DatIn.extractLsb' 0 Num)
  let DatIn := put DatIn 0 (DatIn.extractLsb' Num (Len - Num))
  ({ s with moveTemp := Temp }, put DatIn (Len - Num) (Temp.extractLsb' 0 Num))

def sChange (DatOut : BitVec 32) (DatIn : BitVec 48) : BitVec 32 :=
  (List.finRange 8).foldl (fun DatOut (i : Fin 8) => put DatOut (4 * i)
    (byteToBit (fun _ => sBox[i][row DatIn i][column DatIn i]) 4)) DatOut

def fChange (s : Statics) (DatIn : BitVec 32) (DatKi : BitVec 48) : Statics × BitVec 32 :=
  let (s, MiR) := tablePermute s DatIn eTable
  let s := { s with MiR := MiR }
  let s := { s with MiR := s.MiR ^^^ DatKi }
  let DatIn := sChange DatIn s.MiR
  tablePermute s DatIn pTable

def moveHalf (s : Statics) (o Num : ℕ) : Statics :=
  let (s, half) := loopMove s (s.KeyBit.extractLsb' o 28) Num
  { s with KeyBit := put s.KeyBit o half }

def setKeyRound (s : Statics) (i : ℕ) : Statics :=
  let s := moveHalf s 0 (moveTable.getD i 0)
  let s := moveHalf s 28 (moveTable.getD i 0)
  let (s, k) := tablePermute s (s.KeyBit.extractLsb' 0 56) pc2Table
  { s with SubKey := s.SubKey.setIfInBounds i k }

def setKey (s : Statics) (KeyIn : Buffer) : Statics :=
  let s := { s with KeyBit := byteToBit KeyIn 64 }
  let (s, K) := tablePermute s s.KeyBit pc1Table
  let s := { s with KeyBit := put s.KeyBit 0 K }
  (List.range 16).foldl setKeyRound s

def playRound (s : Statics) (i : ℕ) : Statics :=
  let s := { s with playTemp := s.playMesBit.extractLsb' 32 32 }
  let (s, MiR) := fChange s (s.playMesBit.extractLsb' 32 32) (s.SubKey.getD i 0)
  let s := { s with playMesBit := put s.playMesBit 32 MiR }
  let MiR := s.playMesBit.extractLsb' 32 32 ^^^ s.playMesBit.extractLsb' 0 32
  let s := { s with playMesBit := put s.playMesBit 32 MiR }
  { s with playMesBit := put s.playMesBit 0 s.playTemp }

def playDes (s : Statics) (MesOut MesIn : Buffer) : Statics × Buffer :=
  let s := { s with playMesBit := byteToBit MesIn 64 }
  let (s, MesBit) := tablePermute s s.playMesBit ipTable
  let s := { s with playMesBit := MesBit }
  let s := (List.range 16).foldl playRound s
  let (s, MesBit) := tablePermute s s.playMesBit iprTable
  let s := { s with playMesBit := MesBit }
  (s, bitToHex MesOut s.playMesBit)

def kickRound (s : Statics) (i : ℕ) : Statics :=
  let s := { s with kickTemp := s.kickMesBit.extractLsb' 0 32 }
  let (s, MiL) := fChange s (s.kickMesBit.extractLsb' 0 32) (s.SubKey.getD i 0)
  let s := { s with kickMesBit := put s.kickMesBit 0 MiL }
  let MiL := s.kickMesBit.extractLsb' 0 32 ^^^ s.kickMesBit.extractLsb' 32 32
  let s := { s with kickMesBit := put s.kickMesBit 0 MiL }
  { s with kickMesBit := put s.kickMesBit 32 s.kickTemp }

def kickDes (s : Statics) (MesOut MesIn : Buffer) : Statics × Buffer :=
  let s := { s with kickMesBit := hexToBit MesIn 64 }
  let (s, MesBit) := tablePermute s s.kickMesBit ipTable
  let s := { s with kickMesBit := MesBit }
  let s := (List.range 16).reverse.foldl kickRound s
  let (s, MesBit) := tablePermute s s.kickMesBit iprTable
  let s := { s with kickMesBit := MesBit }
  (s, bitToByte MesOut s.kickMesBit)

end SimpleCode.Crypto.DESc
