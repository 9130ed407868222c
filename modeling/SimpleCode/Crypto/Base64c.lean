import SimpleCode.Foundations.Base64

set_option autoImplicit false

/-! The Base64 functions of `Base64c`. A string is the list of its bytes before the terminating
NUL; a block from `malloc` has a size, arbitrary contents and a mark for stores beyond its end.
`malloc` succeeds, `unsigned int` has 32 bits and `size_t` 64. -/

namespace SimpleCode.Crypto.Base64c

open Foundations

structure Block where
  cells : ℕ → UInt8
  size : ℕ
  overrun : Bool

def malloc (heap : ℕ → UInt8) (size : ℕ) : Block := ⟨heap, size, false⟩

def Block.store (b : Block) (i : ℕ) (v : UInt8) : Block :=
  ⟨Function.update b.cells i v, b.size, b.overrun || decide (b.size ≤ i)⟩

def u32 (n : ℕ) : ℕ := n % 2 ^ 32

def toInt (n : ℕ) : ℤ := (BitVec.ofNat 32 n).toInt

def strlen (cells : ℕ → UInt8) (nul : ℕ) : ℕ :=
  ((List.range nul).takeWhile fun i => cells i != 0).length

structure Result where
  ret : ℤ
  block : Block
  nul : ℕ

def Result.text (r : Result) : Bytes :=
  (List.range (strlen r.block.cells r.nul)).map r.block.cells

def base64Table : Bytes :=
  bytes "ABCDEFGHIJKLMNOPQRSTUVWXYZabcdefghijklmnopqrstuvwxyz0123456789+/"

def table (v : ℕ) : UInt8 := base64Table.getD v 0

def base64Index (ch : UInt8) : ℤ :=
  if 'A'.toUInt8 ≤ ch ∧ ch ≤ 'Z'.toUInt8 then ch.toNat - 'A'.toNat
  else if 'a'.toUInt8 ≤ ch ∧ ch ≤ 'z'.toUInt8 then ch.toNat - 'a'.toNat + 26
  else if '0'.toUInt8 ≤ ch ∧ ch ≤ '9'.toUInt8 then ch.toNat - '0'.toNat + 52
  else if ch = '+'.toUInt8 then 62
  else if ch = '/'.toUInt8 then 63
  else -1

def encodeGroup (srcStr : Bytes) (b : Block) (i : ℕ) : Block :=
  let c₀ := (srcStr.getD (u32 (i * 3 + 0)) 0).toNat
  let c₁ := (srcStr.getD (u32 (i * 3 + 1)) 0).toNat
  let c₂ := (srcStr.getD (u32 (i * 3 + 2)) 0).toNat
  let b := b.store (u32 (i * 4 + 0)) (table (c₀ >>> 2))
  let b := b.store (u32 (i * 4 + 1)) (table ((c₀ &&& 0x03) <<< 4 + c₁ >>> 4))
  let b := b.store (u32 (i * 4 + 2)) (table ((c₁ &&& 0x0f) <<< 2 + c₂ >>> 6))
  b.store (u32 (i * 4 + 3)) (table (c₂ &&& 0x3f))

def encodeTail (srcStr : Bytes) (b : Block) (i j : ℕ) : Block :=
  let c₀ := (srcStr.getD (u32 (i * 3 + 0)) 0).toNat
  let c₁ := if j > 1 then (srcStr.getD (u32 (i * 3 + 1)) 0).toNat else 0
  let b := b.store (u32 (i * 4 + 0)) (table (c₀ >>> 2))
  let b := b.store (u32 (i * 4 + 1)) (table ((c₀ &&& 0x03) <<< 4 + c₁ >>> 4))
  let b := b.store (u32 (i * 4 + 2))
    (if c₁ = 0 then '='.toUInt8 else table ((c₁ &&& 0x0f) <<< 2))
  b.store (u32 (i * 4 + 3)) '='.toUInt8

-- The check stops before the last character; `strlen(des) - 1` is a `size_t`.
def base64en (heap : ℕ → UInt8) (srcStr : Bytes) : Result :=
  let lenth := u32 srcStr.length
  let len := lenth / 3
  let b := malloc heap (u32 (len * 4) + 1)
  let b := (List.range len).foldl (encodeGroup srcStr) b
  let j := u32 (srcStr.length - len * 3)
  let (b, i) := if j > 0 then (encodeTail srcStr b len j, len + 1) else (b, len)
  let nul := u32 (i * 4)
  let b := b.store nul 0
  let n := strlen b.cells nul
  if (List.range ((n + (2 ^ 64 - 1)) % 2 ^ 64)).any fun i => decide (base64Index (b.cells i) < 0)
  then ⟨-1, b, nul⟩
  else ⟨toInt n, b, nul⟩

-- `base64_index` stored into an `unsigned char`
def code (ch : UInt8) : ℕ := (base64Index ch % 256).toNat

def decodeGroup (srcStr : Bytes) (b : Block) (i : ℕ) : Block :=
  let c₀ := code (srcStr.getD (u32 (i * 4 + 0)) 0)
  let c₁ := code (srcStr.getD (u32 (i * 4 + 1)) 0)
  let c₂ := code (srcStr.getD (u32 (i * 4 + 2)) 0)
  let c₃ := code (srcStr.getD (u32 (i * 4 + 3)) 0)
  let b := b.store (u32 (i * 3 + 0)) (UInt8.ofNat (c₀ <<< 2 + c₁ >>> 4))
  let b := b.store (u32 (i * 3 + 1)) (UInt8.ofNat (c₁ <<< 4 + c₂ >>> 2))
  b.store (u32 (i * 3 + 2)) (UInt8.ofNat ((c₂ &&& 0x03) <<< 6 + c₃))

def decodeTail (srcStr : Bytes) (b : Block) (i : ℕ) : Block × ℕ :=
  let ch k := srcStr.getD (u32 (i * 4 + k)) 0
  let b := b.store (u32 (i * 3 + 0)) (UInt8.ofNat (code (ch 0) <<< 2 + code (ch 1) >>> 4))
  if ch 2 = '='.toUInt8 then
    (b.store (u32 (i * 3 + 1)) 0, u32 (i * 3 + 1))
  else if ch 3 = '='.toUInt8 then
    let b := b.store (u32 (i * 3 + 1)) (UInt8.ofNat (code (ch 1) <<< 4 + code (ch 2) >>> 2))
    (b.store (u32 (i * 3 + 2)) 0, u32 (i * 3 + 2))
  else
    let b := b.store (u32 (i * 3 + 1)) (UInt8.ofNat (code (ch 1) <<< 4 + code (ch 2) >>> 2))
    let b := b.store (u32 (i * 3 + 2)) (UInt8.ofNat ((code (ch 2) &&& 0x03) <<< 6 + code (ch 3)))
    (b.store (u32 (i * 3 + 3)) 0, u32 (i * 3 + 3))

def base64de (heap : ℕ → UInt8) (srcStr : Bytes) : Result :=
  let lenth := u32 srcStr.length
  let len := u32 (lenth / 4 + (2 ^ 32 - 1))
  let b := malloc heap (u32 (len + 1) * 3 + 1)
  if (List.range (u32 (lenth + (2 ^ 32 - 1)))).any
      fun i => decide (base64Index (srcStr.getD i 0) < 0)
  then ⟨-32, b, 0⟩
  else
    let b := (List.range len).foldl (decodeGroup srcStr) b
    let (b, nul) := decodeTail srcStr b len
    ⟨toInt (strlen b.cells nul), b, nul⟩

end SimpleCode.Crypto.Base64c
