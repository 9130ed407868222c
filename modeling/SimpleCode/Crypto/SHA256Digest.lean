import Mathlib.Data.Nat.NthRoot.Defs
import Mathlib.Data.Nat.Prime.Basic
import Mathlib.Data.Nat.Sqrt
import SimpleCode.Crypto.SHA256

set_option autoImplicit false

namespace SimpleCode.Crypto.SHA256

open Foundations Buffer

namespace Standard

def primes : List ℕ := (List.range 312).filter Nat.Prime

-- The first 32 bits of the fractional parts of the cube roots.
def constants : List ℕ := primes.map fun p => Nat.nthRoot 3 (p * 2 ^ 96) % 2 ^ 32

-- The first 64 bits of the fractional part of the square root.
def sqrtBits (p : ℕ) : ℕ := Nat.sqrt (p * 2 ^ 128) % 2 ^ 64

def initial (is224 : Bool) : Words 32 :=
  let x (i : ℕ) : BitVec 32 :=
    if is224 then .ofNat 32 (sqrtBits (primes.getD (i + 8) 0)) else .ofNat 32 (sqrtBits (primes.getD i 0) / 2 ^ 32)
  ⟨x 0, x 1, x 2, x 3, x 4, x 5, x 6, x 7⟩

variable (x y z : BitVec 32)

def ch : BitVec 32 := x &&& y ^^^ ~~~x &&& z

def maj : BitVec 32 := x &&& y ^^^ x &&& z ^^^ y &&& z

def bigSigma0 : BitVec 32 := x.rotateRight 2 ^^^ x.rotateRight 13 ^^^ x.rotateRight 22

def bigSigma1 : BitVec 32 := x.rotateRight 6 ^^^ x.rotateRight 11 ^^^ x.rotateRight 25

def smallSigma0 : BitVec 32 := x.rotateRight 7 ^^^ x.rotateRight 18 ^^^ x >>> 3

def smallSigma1 : BitVec 32 := x.rotateRight 17 ^^^ x.rotateRight 19 ^^^ x >>> 10

def word (block : Bytes) (i : ℕ) : BitVec 32 :=
  (block.getD i 0).toBitVec ++ (block.getD (i + 1) 0).toBitVec ++ (block.getD (i + 2) 0).toBitVec
    ++ (block.getD (i + 3) 0).toBitVec

def extend (W : List (BitVec 32)) : List (BitVec 32) :=
  let t := W.length
  W ++ [smallSigma1 (W.getD (t - 2) 0) + W.getD (t - 7) 0 + smallSigma0 (W.getD (t - 15) 0)
    + W.getD (t - 16) 0]

def schedule (block : Bytes) : List (BitVec 32) :=
  extend^[48] ((List.range 16).map fun i => word block (4 * i))

def round (v : Words 32) (x : BitVec 32 × ℕ) : Words 32 :=
  let temp1 := v.h + bigSigma1 v.e + ch v.e v.f v.g + .ofNat 32 x.2 + x.1
  let temp2 := bigSigma0 v.a + maj v.a v.b v.c
  ⟨temp1 + temp2, v.a, v.b, v.c, v.d + temp1, v.e, v.f, v.g⟩

def compress (state : Words 32) (block : Bytes) : Words 32 :=
  state.add (((schedule block).zip constants).foldl round state)

def lengthField (len : ℕ) : Bytes := (List.range 8).map fun i => .ofNat (8 * len / 256 ^ (7 - i))

def bytesOf (x : BitVec 32) : Bytes := (List.range 4).map fun i => .ofNat (x.toNat / 256 ^ (3 - i))

def hash (is224 : Bool) (msg : Bytes) : Bytes :=
  ((blockHash compress (initial is224) lengthField msg).toList.take (if is224 then 7 else 8)).flatMap
    bytesOf

def blockKey (is224 : Bool) (key : Bytes) : Bytes :=
  let key := if 64 < key.length then hash is224 key else key
  key ++ List.replicate (64 - key.length) 0

def hmac (is224 : Bool) (key msg : Bytes) : Bytes :=
  hash is224 ((blockKey is224 key).map (0x5C ^^^ ·) ++ hash is224 ((blockKey is224 key).map (0x36 ^^^ ·) ++ msg))

end Standard

section Words

variable {w : ℕ} {n : ℕ}

abbrev low (x : BitVec w) : BitVec 32 := x.setWidth 32

def Words.low (s : Words w) : Words 32 :=
  ⟨SHA256.low s.a, SHA256.low s.b, SHA256.low s.c, SHA256.low s.d, SHA256.low s.e, SHA256.low s.f,
    SHA256.low s.g, SHA256.low s.h⟩

lemma pow_le (hw : 32 ≤ w) : 2 ^ 32 ≤ 2 ^ w := Nat.pow_le_pow_right (by decide) hw

lemma low_add (hw : 32 ≤ w) (x y : BitVec w) : low (x + y) = low x + low y := BitVec.setWidth_add x y hw

lemma low_ofNat (hw : 32 ≤ w) (n : ℕ) : low (BitVec.ofNat w n) = BitVec.ofNat 32 n :=
  BitVec.setWidth_ofNat_of_le hw n

lemma low_shr (hw : 32 ≤ w) (x : BitVec w) (n : ℕ) : low (shr x n) = low x >>> n := by
  ext i hi
  have hmask : (0xFFFFFFFF : BitVec w).getLsbD (n + i) = (decide (n + i < w) && decide (n + i < 32)) := by
    change (BitVec.ofNat w (2 ^ 32 - 1)).getLsbD (n + i) = _
    rw [BitVec.getLsbD_ofNat, Nat.testBit_two_pow_sub_one]
  simp only [low, shr, BitVec.getElem_setWidth, BitVec.getLsbD_ushiftRight, BitVec.getLsbD_and, hmask,
    BitVec.getElem_ushiftRight, BitVec.getLsbD_setWidth]
  by_cases hlt : n + i < 32
  · simp [hlt, hlt.trans_le hw]
  · simp [hlt]

lemma low_rotr (hw : 32 ≤ w) (x : BitVec w) (hn : n < 32) : low (rotr x n) = (low x).rotateRight n := by
  rw [rotr, low, BitVec.setWidth_or, ← low, low_shr hw, BitVec.setWidth_shiftLeft_of_le hw,
    BitVec.rotateRight_def, Nat.mod_eq_of_lt hn]

lemma low_xor (x y z : BitVec w) : low (x ^^^ y ^^^ z) = low x ^^^ low y ^^^ low z := by
  rw [low, BitVec.setWidth_xor, BitVec.setWidth_xor]

lemma low_sigmas (hw : 32 ≤ w) (x : BitVec w) : low (s0 x) = Standard.smallSigma0 (low x)
    ∧ low (s1 x) = Standard.smallSigma1 (low x) ∧ low (s2 x) = Standard.bigSigma0 (low x)
    ∧ low (s3 x) = Standard.bigSigma1 (low x) := by
  refine ⟨?_, ?_, ?_, ?_⟩
  · rw [s0, low_xor, low_rotr hw x (by decide), low_rotr hw x (by decide), low_shr hw, Standard.smallSigma0]
  · rw [s1, low_xor, low_rotr hw x (by decide), low_rotr hw x (by decide), low_shr hw, Standard.smallSigma1]
  · rw [s2, low_xor, low_rotr hw x (by decide), low_rotr hw x (by decide), low_rotr hw x (by decide),
      Standard.bigSigma0]
  · rw [s3, low_xor, low_rotr hw x (by decide), low_rotr hw x (by decide), low_rotr hw x (by decide),
      Standard.bigSigma1]

lemma low_f0 (x y z : BitVec w) : low (f0 x y z) = Standard.maj (low x) (low y) (low z) := by
  rw [f0, Standard.maj]
  ext i hi
  simp only [BitVec.getElem_setWidth, BitVec.getElem_xor, BitVec.getElem_and, BitVec.getLsbD_or,
    BitVec.getLsbD_and]
  cases x.getLsbD i <;> cases y.getLsbD i <;> cases z.getLsbD i <;> rfl

lemma low_f1 (x y z : BitVec w) : low (f1 x y z) = Standard.ch (low x) (low y) (low z) := by
  rw [f1, Standard.ch]
  ext i hi
  simp only [BitVec.getElem_setWidth, BitVec.getElem_xor, BitVec.getElem_and, BitVec.getElem_not,
    BitVec.getLsbD_xor, BitVec.getLsbD_and]
  cases x.getLsbD i <;> cases y.getLsbD i <;> cases z.getLsbD i <;> rfl

lemma low_getUlongBe (hw : 32 ≤ w) (b : Bytes) (i : ℕ) : low (getUlongBe w b i) = Standard.word b i := by
  have hbyte (c : UInt8) : (ulong w c).setWidth 32 = c.toBitVec.setWidth 32 :=
    BitVec.setWidth_setWidth_of_le _ hw
  simp only [getUlongBe, low, BitVec.setWidth_or, BitVec.setWidth_shiftLeft_of_le hw, hbyte, Standard.word]
  apply BitVec.eq_of_getLsbD_eq
  intro j hj
  simp only [BitVec.getLsbD_or, BitVec.getLsbD_shiftLeft, BitVec.getLsbD_setWidth, BitVec.getLsbD_append]
  interval_cases j <;> simp

lemma low_p (hw : 32 ≤ w) (v : Words w) (x : BitVec w) (k : ℕ) :
    (p v x (.ofNat w k)).low = Standard.round v.low (low x, k) := by
  have hs2 := (low_sigmas hw v.a).2.2.1
  have hs3 := (low_sigmas hw v.e).2.2.2
  simp only [p, Words.low, Standard.round, low_add hw, hs2, hs3, low_f0, low_f1, low_ofNat hw]

lemma low_r (hw : 32 ≤ w) (W : List (BitVec w)) : (r W).map low = Standard.extend (W.map low) := by
  have hget (i : ℕ) : (W.map low).getD i 0 = low (W.getD i 0) := by
    have hzero : (0 : BitVec 32) = low (0 : BitVec w) := (low_ofNat hw 0).symm
    rw [hzero, List.getD_map]
  rw [r, Standard.extend, List.map_append, List.map_singleton, List.length_map]
  simp only [low_add hw, (low_sigmas hw _).1, (low_sigmas hw _).2.1, hget]

lemma low_schedule (hw : 32 ≤ w) (data : Bytes) : (schedule w data).map low = Standard.schedule data := by
  have hiterate (n : ℕ) (W : List (BitVec w)) : (r^[n] W).map low = Standard.extend^[n] (W.map low) := by
    induction n generalizing W with
    | zero => rfl
    | succ n ih => rw [Function.iterate_succ_apply, Function.iterate_succ_apply, ih, low_r hw]
  rw [schedule, hiterate, List.map_map, Standard.schedule]
  congr 1
  exact List.map_congr_left fun i _ => low_getUlongBe hw data (4 * i)

lemma low_rounds (hw : 32 ≤ w) (W : List (BitVec w)) (K : List ℕ) (v : Words w) :
    ((W.zip K).foldl (fun v x => p v x.1 (.ofNat w x.2)) v).low
      = ((W.map low).zip K).foldl Standard.round v.low := by
  induction W generalizing K v with
  | nil => rfl
  | cons x W ih =>
    cases K with
    | nil => rfl
    | cons k K =>
      rw [List.zip_cons_cons, List.foldl_cons, ih, low_p hw, List.map_cons, List.zip_cons_cons,
        List.foldl_cons]

lemma constants_eq : constants = Standard.constants := by decide +kernel

lemma initial_eq (is224 : Bool) : initial 32 is224 = Standard.initial is224 := by
  cases is224 <;> decide +kernel

theorem low_process (hw : 32 ≤ w) (state : Words w) (data : Bytes) :
    (process state data).low = Standard.compress state.low data := by
  rw [Standard.compress, ← constants_eq, ← low_schedule hw, ← low_rounds hw, process]
  simp only [Words.low, Words.add, low_add hw]

lemma low_initial (hw : 32 ≤ w) (is224 : Bool) : (initial w is224).low = Standard.initial is224 := by
  rw [← initial_eq]
  have hwords (a b c d e f g h : ℕ) : (Words.ofNats w a b c d e f g h).low = .ofNats 32 a b c d e f g h := by
    simp only [Words.low, Words.ofNats, low_ofNat hw]
  cases is224 with
  | false => exact hwords ..
  | true => exact hwords ..

lemma low_absorb (hw : 32 ≤ w) (s : Words w) (xs : Bytes) :
    ((absorb 64 process s xs).1.low, (absorb 64 process s xs).2) = absorb 64 Standard.compress s.low xs := by
  obtain ⟨hstate, hrest⟩ := absorb_related (R := fun (s : Words w) t => s.low = t) (f := process)
    (g := Standard.compress) (n := 64) (by decide)
    (fun s t b hst _ => by rw [low_process hw, hst]) (s := s) rfl xs
  exact Prod.ext hstate hrest

end Words

section Bytes

variable {w : ℕ}

lemma ofNat_eq_of_mod {m n : ℕ} (h : m % 256 = n % 256) : UInt8.ofNat m = UInt8.ofNat n := by
  apply UInt8.toNat_inj.mp
  rw [UInt8.toNat_ofNat', UInt8.toNat_ofNat', h]

lemma putUlongBe_eq (x : BitVec w) : putUlongBe x = Standard.bytesOf (low x) := by
  have hlow : (low x).toNat = x.toNat % 2 ^ 32 := BitVec.toNat_setWidth ..
  simp only [putUlongBe, BitVec.toNat_ushiftRight, Nat.shiftRight_eq_div_pow]
  refine congrArg₂ List.cons (ofNat_eq_of_mod ?_) (congrArg₂ List.cons (ofNat_eq_of_mod ?_)
    (congrArg₂ List.cons (ofNat_eq_of_mod ?_) (congrArg₂ List.cons (ofNat_eq_of_mod ?_) rfl)))
  all_goals
    simp only [hlow]
    omega

lemma lengthField_eq (hw : 32 ≤ w) (len : ℕ) {total0 total1 : BitVec w}
    (h0 : total0 = .ofNat w (len % 2 ^ 32)) (h1 : total1 = .ofNat w (len / 2 ^ 32)) :
    putUlongBe (total0 >>> 29 ||| total1 <<< 3) ++ putUlongBe (total0 <<< 3) = Standard.lengthField len := by
  have hpow := pow_le hw
  have hlow : (low (total0 <<< 3)).toNat = 8 * len % 2 ^ 32 := by
    rw [low, BitVec.setWidth_shiftLeft_of_le hw, h0, BitVec.setWidth_ofNat_of_le hw, BitVec.toNat_shiftLeft,
      BitVec.toNat_ofNat, Nat.shiftLeft_eq]
    omega
  have hhigh : (low (total0 >>> 29 ||| total1 <<< 3)).toNat = 8 * len / 2 ^ 32 % 2 ^ 32 := by
    have hshift : (low (total0 >>> 29)).toNat = len % 2 ^ 32 / 2 ^ 29 := by
      rw [low, BitVec.toNat_setWidth, BitVec.toNat_ushiftRight, h0, BitVec.toNat_ofNat, Nat.shiftRight_eq_div_pow,
        Nat.mod_eq_of_lt (a := len % 2 ^ 32) (by omega)]
      omega
    have htotal : (low (total1 <<< 3)).toNat = 2 ^ 3 * (len / 2 ^ 32 % 2 ^ 29) := by
      rw [low, BitVec.setWidth_shiftLeft_of_le hw, h1, BitVec.setWidth_ofNat_of_le hw, BitVec.toNat_shiftLeft,
        BitVec.toNat_ofNat, Nat.shiftLeft_eq]
      omega
    rw [low, BitVec.setWidth_or, ← low, ← low, BitVec.toNat_or, hshift, htotal, Nat.or_comm,
      ← Nat.two_pow_add_eq_or_of_lt (by omega)]
    omega
  rw [putUlongBe_eq, putUlongBe_eq, Standard.bytesOf, Standard.bytesOf, hlow, hhigh, Standard.lengthField]
  have hsplit (f : ℕ → UInt8) : (List.range 8).map f
      = (List.range 4).map f ++ (List.range 4).map fun i => f (4 + i) := rfl
  have hfield (i : ℕ) (hi : i < 4) : 8 * len / 2 ^ 32 % 2 ^ 32 / 256 ^ (3 - i) % 256 = 8 * len / 256 ^ (7 - i) % 256
      ∧ 8 * len % 2 ^ 32 / 256 ^ (3 - i) % 256 = 8 * len / 256 ^ (7 - (4 + i)) % 256 := by
    interval_cases i <;> omega
  rw [hsplit]
  refine congrArg₂ (· ++ ·) (List.map_congr_left fun i hi => ?_) (List.map_congr_left fun i hi => ?_)
  · exact ofNat_eq_of_mod (hfield i (List.mem_range.mp hi)).1
  · exact ofNat_eq_of_mod (hfield i (List.mem_range.mp hi)).2

end Bytes

section Messages

variable {w : ℕ} {ctx : Context w} {is224 : Bool} {msg input : Bytes}

structure Taken (ctx : Context w) (is224 : Bool) (msg : Bytes) : Prop where
  kind : ctx.is224 = is224
  state : ctx.state.low = (absorb 64 Standard.compress (Standard.initial is224) msg).1
  buffer : contents ctx.buffer (msg.length % 64) = (absorb 64 Standard.compress (Standard.initial is224) msg).2
  total0 : ctx.total0 = .ofNat w (msg.length % 2 ^ 32)
  total1 : ctx.total1 = .ofNat w (msg.length / 2 ^ 32)

lemma taken_starts (hw : 32 ≤ w) (ctx : Context w) (is224 : Bool) : Taken (ctx.starts is224) is224 [] := by
  refine ⟨rfl, ?_, ?_, rfl, rfl⟩
  · rw [absorb_of_lt (by decide)]
    exact low_initial hw is224
  · rw [absorb_of_lt (by decide)]
    rfl

lemma and_mask (hw : 32 ≤ w) {k : ℕ} (hk : k ≤ 32) (x : BitVec w) :
    (x &&& .ofNat w (2 ^ k - 1)).toNat = x.toNat % 2 ^ k := by
  have hpow : 2 ^ k ≤ 2 ^ w := Nat.pow_le_pow_right (by decide) (hk.trans hw)
  have hpos := Nat.two_pow_pos k
  rw [BitVec.toNat_and, BitVec.toNat_ofNat, Nat.mod_eq_of_lt (a := 2 ^ k - 1) (by omega),
    Nat.and_two_pow_sub_one_eq_mod]

lemma Taken.left (hw : 32 ≤ w) (h : Taken ctx is224 msg) : (ctx.total0 &&& 0x3F).toNat = msg.length % 64 := by
  have hpow := pow_le hw
  have hmask := and_mask hw (k := 6) (by decide) ctx.total0
  rw [h.total0, BitVec.toNat_ofNat, Nat.mod_eq_of_lt (a := msg.length % 2 ^ 32) (by omega)] at hmask
  rw [h.total0]
  exact hmask.trans (by omega)

lemma Taken.totals (hw : 32 ≤ w) (h : Taken ctx is224 msg) (hlt : input.length < 2 ^ 31) :
    (ctx.total0 + .ofNat w input.length) &&& 0xFFFFFFFF = .ofNat w ((msg ++ input).length % 2 ^ 32)
      ∧ (if (ctx.total0 + .ofNat w input.length) &&& 0xFFFFFFFF < .ofNat w input.length then ctx.total1 + 1
          else ctx.total1) = .ofNat w ((msg ++ input).length / 2 ^ 32) := by
  have hpow := pow_le hw
  have htotal : (ctx.total0 + .ofNat w input.length) &&& 0xFFFFFFFF = .ofNat w ((msg ++ input).length % 2 ^ 32) := by
    apply BitVec.eq_of_toNat_eq
    refine (and_mask hw le_rfl _).trans ?_
    rw [BitVec.toNat_add, h.total0, BitVec.toNat_ofNat, BitVec.toNat_ofNat, BitVec.toNat_ofNat,
      Nat.mod_eq_of_lt (a := msg.length % 2 ^ 32) (by omega), Nat.mod_eq_of_lt (a := input.length) (by omega),
      Nat.mod_mod_of_dvd _ (Nat.pow_dvd_pow 2 hw), List.length_append,
      Nat.mod_eq_of_lt (a := (msg.length + input.length) % 2 ^ 32) (by omega)]
    omega
  have hcarry : (ctx.total0 + .ofNat w input.length) &&& 0xFFFFFFFF < .ofNat w input.length
      ↔ (msg.length + input.length) % 2 ^ 32 < input.length := by
    rw [htotal, BitVec.lt_def, BitVec.toNat_ofNat, BitVec.toNat_ofNat, List.length_append,
      Nat.mod_eq_of_lt (a := (msg.length + input.length) % 2 ^ 32) (by omega),
      Nat.mod_eq_of_lt (a := input.length) (by omega)]
  refine ⟨htotal, ?_⟩
  rw [h.total1, List.length_append]
  split_ifs with hlow
  · have hnext : (msg.length + input.length) / 2 ^ 32 = msg.length / 2 ^ 32 + 1 := by
      have := hcarry.mp hlow
      omega
    rw [hnext, BitVec.ofNat_add]
    rfl
  · have hsame : (msg.length + input.length) / 2 ^ 32 = msg.length / 2 ^ 32 := by
      have := hcarry.not.mp hlow
      omega
    rw [hsame]

lemma update_blocks (ctx : Context w) (input : Bytes) {left : ℕ} (hleft : (ctx.total0 &&& 0x3F).toNat = left)
    (hlt : left < 64) :
    (ctx.update input).state = (absorb 64 process ctx.state (contents ctx.buffer left ++ input)).1
      ∧ contents (ctx.update input).buffer ((left + input.length) % 64)
        = (absorb 64 process ctx.state (contents ctx.buffer left ++ input)).2 := by
  rw [Context.update]
  by_cases hnil : input.length = 0
  · rw [if_pos hnil, List.length_eq_zero_iff.mp hnil, List.append_nil, List.length_nil, Nat.add_zero,
      Nat.mod_eq_of_lt hlt, absorb_of_lt (by rwa [length_contents])]
    exact ⟨rfl, rfl⟩
  rw [if_neg hnil]
  dsimp only
  rw [hleft]
  by_cases hfill : left ≠ 0 ∧ 64 - left ≤ input.length
  · rw [if_pos hfill, absorb_put_of_le (by decide) hlt.le (by omega)]
    have hrest := length_absorb (by decide : 0 < 64) process
      (process ctx.state (contents (put ctx.buffer left (input.take (64 - left))) 64)) (input.drop (64 - left))
    rw [List.length_drop] at hrest
    refine ⟨rfl, ?_⟩
    rw [show (left + input.length) % 64 = (input.length - (64 - left)) % 64 by omega, ← hrest]
    exact contents_put_zero _ _
  · rw [if_neg hfill]
    by_cases hzero : left = 0
    · subst hzero
      have hrest := length_absorb (by decide : 0 < 64) process ctx.state input
      rw [contents_zero, List.nil_append, Nat.zero_add, ← hrest]
      exact ⟨rfl, contents_put_zero _ _⟩
    · have hshort : left + input.length < 64 := by omega
      rw [absorb_put_of_lt hshort, absorb_of_lt (by omega), Nat.mod_eq_of_lt hshort]
      exact ⟨rfl, rfl⟩

lemma update_of_ne (ctx : Context w) (hne : input.length ≠ 0) : ∃ state buffer, ctx.update input = { ctx with
    total0 := (ctx.total0 + .ofNat w input.length) &&& 0xFFFFFFFF
    total1 := if (ctx.total0 + .ofNat w input.length) &&& 0xFFFFFFFF < .ofNat w input.length then ctx.total1 + 1
      else ctx.total1
    state
    buffer } := by
  rw [Context.update, if_neg hne]
  dsimp only
  by_cases hfill : (ctx.total0 &&& 0x3F).toNat ≠ 0 ∧ 64 - (ctx.total0 &&& 0x3F).toNat ≤ input.length
  · rw [if_pos hfill]
    exact ⟨_, _, rfl⟩
  · rw [if_neg hfill]
    exact ⟨_, _, rfl⟩

lemma update_rest (ctx : Context w) (hne : input.length ≠ 0) :
    (ctx.update input).total0 = (ctx.total0 + .ofNat w input.length) &&& 0xFFFFFFFF
      ∧ (ctx.update input).total1 = (if (ctx.total0 + .ofNat w input.length) &&& 0xFFFFFFFF < .ofNat w input.length
        then ctx.total1 + 1 else ctx.total1) := by
  obtain ⟨state, buffer, hupdate⟩ := update_of_ne ctx hne
  rw [hupdate]
  exact ⟨rfl, rfl⟩

lemma update_keeps (ctx : Context w) (input : Bytes) : (ctx.update input).is224 = ctx.is224
    ∧ (ctx.update input).ipad = ctx.ipad ∧ (ctx.update input).opad = ctx.opad := by
  by_cases hnil : input.length = 0
  · rw [Context.update, if_pos hnil]
    exact ⟨rfl, rfl, rfl⟩
  · obtain ⟨state, buffer, hupdate⟩ := update_of_ne ctx hnil
    rw [hupdate]
    exact ⟨rfl, rfl, rfl⟩

theorem taken_update (hw : 32 ≤ w) (h : Taken ctx is224 msg) (input : Bytes) (hlt : input.length < 2 ^ 31) :
    Taken (ctx.update input) is224 (msg ++ input) := by
  by_cases hnil : input.length = 0
  · rwa [Context.update, if_pos hnil, List.length_eq_zero_iff.mp hnil, List.append_nil]
  obtain ⟨htotal0, htotal1⟩ := h.totals hw hlt
  obtain ⟨hcount0, hcount1⟩ := update_rest ctx hnil
  obtain ⟨hstate, hbuffer⟩ := update_blocks ctx input (h.left hw) (Nat.mod_lt _ (by decide))
  have hblocks : absorb 64 Standard.compress (Standard.initial is224) (msg ++ input)
      = ((ctx.update input).state.low, contents (ctx.update input).buffer ((msg ++ input).length % 64)) := by
    rw [absorb_append (by decide), ← h.state, ← h.buffer, ← low_absorb hw, hstate, List.length_append,
      ← Nat.mod_add_mod, hbuffer]
  exact ⟨(update_keeps ctx input).1.trans h.kind, (congrArg Prod.fst hblocks).symm,
    (congrArg Prod.snd hblocks).symm, hcount0.trans htotal0, hcount1.trans htotal1⟩

lemma take_sha2Padding {k : ℕ} (hk : k ≤ 63) :
    Context.sha2Padding.take (k + 1) = 0x80 :: List.replicate k 0 := by
  rw [Context.sha2Padding, List.take_succ_cons, List.take_replicate, Nat.min_eq_left hk]

lemma padding_eq (len : ℕ) :
    Context.sha2Padding.take (if len % 64 < 56 then 56 - len % 64 else 120 - len % 64) ++ Standard.lengthField len
      = padding Standard.lengthField len := by
  have hlt : len % 64 < 64 := Nat.mod_lt _ (by decide)
  have hpadn : (if len % 64 < 56 then 56 - len % 64 else 120 - len % 64) = (119 - len % 64) % 64 + 1 := by
    split_ifs <;> omega
  rw [hpadn, take_sha2Padding (by omega), padding]
  rfl

lemma flatMap_putUlongBe (s : Words w) (n : ℕ) :
    (s.toList.take n).flatMap putUlongBe = (s.low.toList.take n).flatMap Standard.bytesOf := by
  have hmap : s.low.toList = s.toList.map low := rfl
  rw [hmap, ← List.map_take, List.flatMap_map]
  exact congrArg (List.flatMap · _) (funext putUlongBe_eq)

theorem finish_eq (hw : 32 ≤ w) (h : Taken ctx is224 msg) : ctx.finish.1 = Standard.hash is224 msg := by
  have hshort : (Context.sha2Padding.take
      (if msg.length % 64 < 56 then 56 - msg.length % 64 else 120 - msg.length % 64)).length < 2 ^ 31 :=
    (List.length_take_le' _ _).trans_lt (by decide)
  have hpadded := taken_update hw (taken_update hw h _ hshort)
    (putUlongBe (ctx.total0 >>> 29 ||| ctx.total1 <<< 3) ++ putUlongBe (ctx.total0 <<< 3))
    (by rw [List.length_append]; exact (by decide : 4 + 4 < 2 ^ 31))
  have hmsg := lengthField_eq hw msg.length h.total0 h.total1
  rw [List.append_assoc, hmsg, padding_eq] at hpadded
  have hfinish : ctx.finish.1 = ((((ctx.update (Context.sha2Padding.take
      (if msg.length % 64 < 56 then 56 - msg.length % 64 else 120 - msg.length % 64))).update
        (Standard.lengthField msg.length)).state.toList.take (if is224 then 7 else 8)).flatMap putUlongBe) := by
    rw [Context.finish]
    dsimp only
    rw [h.left hw, hmsg, (update_keeps _ _).1, (update_keeps _ _).1, h.kind]
  rw [hfinish, flatMap_putUlongBe, hpadded.state, Standard.hash, blockHash]

lemma taken_updates (hw : 32 ≤ w) {chunks : List Bytes} (h : Taken ctx is224 msg)
    (hlt : ∀ c ∈ chunks, c.length < 2 ^ 31) :
    Taken (chunks.foldl Context.update ctx) is224 (msg ++ chunks.flatten) := by
  induction chunks generalizing ctx msg with
  | nil => rwa [List.flatten_nil, List.append_nil]
  | cons c chunks ih =>
    obtain ⟨hc, hrest⟩ := List.forall_mem_cons.mp hlt
    rw [List.foldl_cons, List.flatten_cons, ← List.append_assoc]
    exact ih (taken_update hw h c hc) hrest

def blank (w : ℕ) : Context w := ⟨0, 0, initial w false, fun _ => 0, [], [], false⟩

/-- The digest does not depend on how the message is cut, nor on the width of a word. -/
theorem digest_eq (hw : 32 ≤ w) (ctx : Context w) (is224 : Bool) {chunks : List Bytes}
    (hlt : ∀ c ∈ chunks, c.length < 2 ^ 31) :
    (chunks.foldl Context.update (ctx.starts is224)).finish.1 = Standard.hash is224 chunks.flatten :=
  finish_eq hw (taken_updates hw (taken_starts hw ctx is224) hlt)

def pieces : List Bytes := [List.replicate 40 97, List.replicate 100 98, List.replicate 3 99]

theorem digest_eq_pieces : (pieces.foldl Context.update ((blank 64).starts false)).finish.1
    = Standard.hash false pieces.flatten :=
  digest_eq (by decide) (blank 64) false (by simp [pieces])

theorem sha2_eq (hw : 32 ≤ w) (ctx : Context w) (hlt : input.length < 2 ^ 31) (is224 : Bool) :
    sha2 ctx input is224 = Standard.hash is224 input :=
  finish_eq hw (taken_update hw (taken_starts hw ctx is224) input hlt)

lemma sha2File_eq (hw : 32 ≤ w) (ctx : Context w) {reads : List Bytes} (hbuf : ∀ r ∈ reads, r.length ≤ 1024)
    (ferror is224 : Bool) : sha2File ctx (some reads) ferror is224
      = (if ferror then 2 else 0, some (Standard.hash is224 reads.flatten)) := by
  have htaken := taken_updates hw (taken_starts hw ctx is224) fun r hr => (hbuf r hr).trans_lt (by decide)
  rw [sha2File, finish_eq hw htaken]
  rfl

end Messages

section Hmac

variable {w : ℕ} {ctx : Context w} {is224 : Bool} {key msg : Bytes}

lemma length_hash (is224 : Bool) (msg : Bytes) : (Standard.hash is224 msg).length ≤ 32 := by
  rw [Standard.hash, List.length_flatMap]
  cases is224 with
  | false => exact le_rfl
  | true => exact (by decide : 28 ≤ 32)

lemma length_blockKey (is224 : Bool) (key : Bytes) : (Standard.blockKey is224 key).length = 64 := by
  have hle : (if 64 < key.length then Standard.hash is224 key else key).length ≤ 64 := by
    split_ifs with hlong
    · exact (length_hash is224 key).trans (by decide)
    · exact Nat.le_of_not_lt hlong
  rw [Standard.blockKey, List.length_append, List.length_replicate]
  omega

structure Keyed (ctx : Context w) (is224 : Bool) (key msg : Bytes) : Prop where
  ipad : ctx.ipad = (Standard.blockKey is224 key).map (0x36 ^^^ ·)
  opad : ctx.opad = (Standard.blockKey is224 key).map (0x5C ^^^ ·)
  taken : Taken ctx is224 ((Standard.blockKey is224 key).map (0x36 ^^^ ·) ++ msg)

lemma pad_eq (byte : UInt8) (is224 : Bool) (key : Bytes) :
    Context.pad byte (if 64 < key.length then Standard.hash is224 key else key)
      = (Standard.blockKey is224 key).map (byte ^^^ ·) := by
  rw [Context.pad, Standard.blockKey, List.map_append, List.map_replicate, UInt8.xor_zero]

lemma keyed_restart (hw : 32 ≤ w) (hipad : ctx.ipad = (Standard.blockKey is224 key).map (0x36 ^^^ ·))
    (hopad : ctx.opad = (Standard.blockKey is224 key).map (0x5C ^^^ ·)) :
    Keyed ((ctx.starts is224).update ctx.ipad) is224 key [] := by
  obtain ⟨-, hi, ho⟩ := update_keeps (ctx.starts is224) ctx.ipad
  have htaken := taken_update hw (taken_starts hw ctx is224) ctx.ipad (by
    rw [hipad, List.length_map, length_blockKey]
    decide)
  refine ⟨hi.trans hipad, ho.trans hopad, ?_⟩
  rw [List.append_nil, ← hipad]
  exact htaken

lemma keyed_starts (hw : 32 ≤ w) (ctx : Context w) (hkey : key.length < 2 ^ 31) (is224 : Bool) :
    Keyed (ctx.hmacStarts key is224) is224 key [] := by
  rw [Context.hmacStarts, sha2_eq hw ctx hkey]
  exact keyed_restart hw (pad_eq 0x36 is224 key) (pad_eq 0x5C is224 key)

lemma keyed_updates (hw : 32 ≤ w) (h : Keyed ctx is224 key msg) {chunks : List Bytes}
    (hlt : ∀ c ∈ chunks, c.length < 2 ^ 31) :
    Keyed (chunks.foldl Context.hmacUpdate ctx) is224 key (msg ++ chunks.flatten) := by
  have hpads : ∀ (cs : List Bytes) (c : Context w), (cs.foldl Context.update c).ipad = c.ipad
      ∧ (cs.foldl Context.update c).opad = c.opad := by
    intro cs
    induction cs with
    | nil => exact fun c => ⟨rfl, rfl⟩
    | cons x cs ih =>
      intro c
      obtain ⟨-, hi, ho⟩ := update_keeps c x
      exact ⟨(ih _).1.trans hi, (ih _).2.trans ho⟩
  refine ⟨(hpads chunks ctx).1.trans h.ipad, (hpads chunks ctx).2.trans h.opad, ?_⟩
  rw [← List.append_assoc]
  exact taken_updates hw h.taken hlt

lemma finish_keeps (ctx : Context w) : ctx.finish.2.is224 = ctx.is224 ∧ ctx.finish.2.ipad = ctx.ipad
    ∧ ctx.finish.2.opad = ctx.opad := by
  rw [Context.finish]
  dsimp only
  obtain ⟨hkind, hipad, hopad⟩ := update_keeps ctx (Context.sha2Padding.take
    (if (ctx.total0 &&& 0x3F).toNat < 56 then 56 - (ctx.total0 &&& 0x3F).toNat
      else 120 - (ctx.total0 &&& 0x3F).toNat))
  exact ⟨(update_keeps _ _).1.trans hkind, (update_keeps _ _).2.1.trans hipad,
    (update_keeps _ _).2.2.trans hopad⟩

lemma keyed_finish (hw : 32 ≤ w) (h : Keyed ctx is224 key msg) :
    ctx.hmacFinish.1 = Standard.hmac is224 key msg ∧ Keyed ctx.hmacFinish.2.hmacReset is224 key [] := by
  obtain ⟨hkind, hipad, hopad⟩ := finish_keeps ctx
  rw [h.taken.kind] at hkind
  rw [h.ipad] at hipad
  rw [h.opad] at hopad
  have hinner := finish_eq hw h.taken
  have houter := taken_update hw
    (taken_update hw (taken_starts hw ctx.finish.2 is224) ctx.finish.2.opad (by
      rw [hopad, List.length_map, length_blockKey]
      decide)) ctx.finish.1 (by
    rw [hinner]
    exact (length_hash is224 _).trans_lt (by decide))
  have hout : ctx.hmacFinish
      = (((ctx.finish.2.starts is224).update ctx.finish.2.opad).update ctx.finish.1).finish := by
    rw [← hkind]
    rfl
  rw [hout]
  constructor
  · rw [finish_eq hw houter, List.nil_append, hopad, hinner]
    rfl
  · obtain ⟨hk, hi, ho⟩ :=
      finish_keeps (((ctx.finish.2.starts is224).update ctx.finish.2.opad).update ctx.finish.1)
    have hi' := hi.trans ((update_keeps _ _).2.1.trans ((update_keeps _ _).2.1.trans hipad))
    have ho' := ho.trans ((update_keeps _ _).2.2.trans ((update_keeps _ _).2.2.trans hopad))
    have hk' := hk.trans houter.kind
    rw [Context.hmacReset, hk']
    exact keyed_restart hw hi' ho'

lemma sha2Hmac_eq (hw : 32 ≤ w) (ctx : Context w) (hkey : key.length < 2 ^ 31) (hlt : msg.length < 2 ^ 31)
    (is224 : Bool) : sha2Hmac ctx key msg is224 = Standard.hmac is224 key msg := by
  have hkeyed := keyed_updates hw (keyed_starts hw ctx hkey is224)
    (List.forall_mem_singleton.mpr hlt : ∀ c ∈ [msg], c.length < 2 ^ 31)
  rw [List.flatten_singleton, List.nil_append] at hkeyed
  exact (keyed_finish hw hkeyed).1

-- `sha2_hmac_finish` and `sha2_hmac_reset` after each message, which is given in pieces.
def hmacMessages (ctx : Context w) : List (List Bytes) → List Bytes
  | [] => []
  | chunks :: messages =>
    let (output, ctx) := (chunks.foldl Context.hmacUpdate ctx).hmacFinish
    output :: hmacMessages ctx.hmacReset messages

lemma hmacMessages_keyed (hw : 32 ≤ w) (h : Keyed ctx is224 key []) {messages : List (List Bytes)}
    (hlt : ∀ chunks ∈ messages, ∀ c ∈ chunks, c.length < 2 ^ 31) :
    hmacMessages ctx messages = messages.map fun chunks => Standard.hmac is224 key chunks.flatten := by
  induction messages generalizing ctx with
  | nil => rfl
  | cons chunks messages ih =>
    obtain ⟨hchunks, hrest⟩ := List.forall_mem_cons.mp hlt
    have hkeyed := keyed_updates hw h hchunks
    rw [List.nil_append] at hkeyed
    obtain ⟨hout, hreset⟩ := keyed_finish hw hkeyed
    rw [hmacMessages, List.map_cons, ← hout, ← ih hreset hrest]

/-- Every message under a key that was set once has the code of the standard. -/
theorem hmac_eq (hw : 32 ≤ w) (ctx : Context w) (hkey : key.length < 2 ^ 31) (is224 : Bool)
    {messages : List (List Bytes)} (hlt : ∀ chunks ∈ messages, ∀ c ∈ chunks, c.length < 2 ^ 31) :
    hmacMessages (ctx.hmacStarts key is224) messages
      = messages.map fun chunks => Standard.hmac is224 key chunks.flatten :=
  hmacMessages_keyed hw (keyed_starts hw ctx hkey is224) hlt

theorem hmac_eq_long_key :
    hmacMessages ((blank 64).hmacStarts (List.replicate 80 107) true) [pieces, [bytes "b", bytes "c"]]
      = [pieces, [bytes "b", bytes "c"]].map fun chunks =>
        Standard.hmac true (List.replicate 80 107) chunks.flatten :=
  hmac_eq (by decide) (blank 64) (by simp) true (by simp [pieces, bytes])

end Hmac

end SimpleCode.Crypto.SHA256
