import SimpleCode.Foundations.BlockHash

set_option autoImplicit false

namespace SimpleCode.Crypto.SHA256

open Foundations Buffer

structure Words (w : ℕ) where
  a : BitVec w
  b : BitVec w
  c : BitVec w
  d : BitVec w
  e : BitVec w
  f : BitVec w
  g : BitVec w
  h : BitVec w
deriving DecidableEq

def Words.toList {w : ℕ} (s : Words w) : List (BitVec w) := [s.a, s.b, s.c, s.d, s.e, s.f, s.g, s.h]

def Words.add {w : ℕ} (s r : Words w) : Words w :=
  ⟨s.a + r.a, s.b + r.b, s.c + r.c, s.d + r.d, s.e + r.e, s.f + r.f, s.g + r.g, s.h + r.h⟩

def Words.ofNats (w : ℕ) (a b c d e f g h : ℕ) : Words w :=
  ⟨.ofNat w a, .ofNat w b, .ofNat w c, .ofNat w d, .ofNat w e, .ofNat w f, .ofNat w g, .ofNat w h⟩

def constants : List ℕ :=
  [0x428A2F98, 0x71374491, 0xB5C0FBCF, 0xE9B5DBA5, 0x3956C25B, 0x59F111F1, 0x923F82A4, 0xAB1C5ED5,
    0xD807AA98, 0x12835B01, 0x243185BE, 0x550C7DC3, 0x72BE5D74, 0x80DEB1FE, 0x9BDC06A7, 0xC19BF174,
    0xE49B69C1, 0xEFBE4786, 0x0FC19DC6, 0x240CA1CC, 0x2DE92C6F, 0x4A7484AA, 0x5CB0A9DC, 0x76F988DA,
    0x983E5152, 0xA831C66D, 0xB00327C8, 0xBF597FC7, 0xC6E00BF3, 0xD5A79147, 0x06CA6351, 0x14292967,
    0x27B70A85, 0x2E1B2138, 0x4D2C6DFC, 0x53380D13, 0x650A7354, 0x766A0ABB, 0x81C2C92E, 0x92722C85,
    0xA2BFE8A1, 0xA81A664B, 0xC24B8B70, 0xC76C51A3, 0xD192E819, 0xD6990624, 0xF40E3585, 0x106AA070,
    0x19A4C116, 0x1E376C08, 0x2748774C, 0x34B0BCB5, 0x391C0CB3, 0x4ED8AA4A, 0x5B9CCA4F, 0x682E6FF3,
    0x748F82EE, 0x78A5636F, 0x84C87814, 0x8CC70208, 0x90BEFFFA, 0xA4506CEB, 0xBEF9A3F7, 0xC67178F2]

def initial (w : ℕ) (is224 : Bool) : Words w :=
  if is224 then
    .ofNats w 0xC1059ED8 0x367CD507 0x3070DD17 0xF70E5939 0xFFC00B31 0x68581511 0x64F98FA7 0xBEFA4FA4
  else
    .ofNats w 0x6A09E667 0xBB67AE85 0x3C6EF372 0xA54FF53A 0x510E527F 0x9B05688C 0x1F83D9AB 0x5BE0CD19

variable {w : ℕ}

def ulong (w : ℕ) (b : UInt8) : BitVec w := b.toBitVec.setWidth w

def getUlongBe (w : ℕ) (b : Bytes) (i : ℕ) : BitVec w :=
  ulong w (b.getD i 0) <<< 24 ||| ulong w (b.getD (i + 1) 0) <<< 16 ||| ulong w (b.getD (i + 2) 0) <<< 8
    ||| ulong w (b.getD (i + 3) 0)

def putUlongBe (n : BitVec w) : Bytes :=
  [.ofNat (n >>> 24).toNat, .ofNat (n >>> 16).toNat, .ofNat (n >>> 8).toNat, .ofNat n.toNat]

section Process

variable (x y z : BitVec w) (n : ℕ)

def shr : BitVec w := (x &&& 0xFFFFFFFF) >>> n

def rotr : BitVec w := shr x n ||| x <<< (32 - n)

def s0 : BitVec w := rotr x 7 ^^^ rotr x 18 ^^^ shr x 3

def s1 : BitVec w := rotr x 17 ^^^ rotr x 19 ^^^ shr x 10

def s2 : BitVec w := rotr x 2 ^^^ rotr x 13 ^^^ rotr x 22

def s3 : BitVec w := rotr x 6 ^^^ rotr x 11 ^^^ rotr x 25

def f0 : BitVec w := x &&& y ||| z &&& (x ||| y)

def f1 : BitVec w := z ^^^ x &&& (y ^^^ z)

-- `R(t)`, where `W` holds the words before `W[t]`.
def r (W : List (BitVec w)) : List (BitVec w) :=
  let t := W.length
  W ++ [s1 (W.getD (t - 2) 0) + W.getD (t - 7) 0 + s0 (W.getD (t - 15) 0) + W.getD (t - 16) 0]

-- `P`, after which the variables stand one place on.
def p (v : Words w) (x K : BitVec w) : Words w :=
  let temp1 := v.h + s3 v.e + f1 v.e v.f v.g + K + x
  let temp2 := s2 v.a + f0 v.a v.b v.c
  ⟨temp1 + temp2, v.a, v.b, v.c, v.d + temp1, v.e, v.f, v.g⟩

def schedule (w : ℕ) (data : Bytes) : List (BitVec w) :=
  r^[48] ((List.range 16).map fun i => getUlongBe w data (4 * i))

def process (state : Words w) (data : Bytes) : Words w :=
  state.add (((schedule w data).zip constants).foldl (fun v x => p v x.1 (.ofNat w x.2)) state)

end Process

-- `buffer` keeps what was last written to it.
structure Context (w : ℕ) where
  total0 : BitVec w
  total1 : BitVec w
  state : Words w
  buffer : ℕ → UInt8
  ipad : Bytes
  opad : Bytes
  is224 : Bool

namespace Context

variable (ctx : Context w)

def starts (is224 : Bool) : Context w := { ctx with total0 := 0, total1 := 0, state := initial w is224, is224 }

def update (input : Bytes) : Context w :=
  if input.length = 0 then ctx
  else
    let left := (ctx.total0 &&& 0x3F).toNat
    let fill := 64 - left
    let total0 := (ctx.total0 + .ofNat w input.length) &&& 0xFFFFFFFF
    let total1 := if total0 < .ofNat w input.length then ctx.total1 + 1 else ctx.total1
    if left ≠ 0 ∧ fill ≤ input.length then
      let buffer := put ctx.buffer left (input.take fill)
      let blocks := absorb 64 process (process ctx.state (contents buffer 64)) (input.drop fill)
      { ctx with total0, total1, state := blocks.1, buffer := put buffer 0 blocks.2 }
    else
      let blocks := absorb 64 process ctx.state input
      { ctx with total0, total1, state := blocks.1, buffer := put ctx.buffer left blocks.2 }

def sha2Padding : Bytes := 0x80 :: List.replicate 63 0

def finish : Bytes × Context w :=
  let high := ctx.total0 >>> 29 ||| ctx.total1 <<< 3
  let low := ctx.total0 <<< 3
  let last := (ctx.total0 &&& 0x3F).toNat
  let padn := if last < 56 then 56 - last else 120 - last
  let ctx := (ctx.update (sha2Padding.take padn)).update (putUlongBe high ++ putUlongBe low)
  ((ctx.state.toList.take (if ctx.is224 then 7 else 8)).flatMap putUlongBe, ctx)

end Context

def sha2 (ctx : Context w) (input : Bytes) (is224 : Bool) : Bytes :=
  ((ctx.starts is224).update input).finish.1

-- `fread` returns the parts in `reads` until it returns nothing; without them the file is not opened.
def sha2File (ctx : Context w) (reads : Option (List Bytes)) (ferror is224 : Bool) : ℤ × Option Bytes :=
  match reads with
  | none => (1, none)
  | some reads => (if ferror then 2 else 0, some (reads.foldl Context.update (ctx.starts is224)).finish.1)

namespace Context

variable (ctx : Context w)

def pad (byte : UInt8) (key : Bytes) : Bytes :=
  key.map (byte ^^^ ·) ++ List.replicate (64 - key.length) byte

def hmacStarts (key : Bytes) (is224 : Bool) : Context w :=
  let key := if 64 < key.length then sha2 ctx key is224 else key
  let ctx := { ctx with ipad := pad 0x36 key, opad := pad 0x5C key }
  (ctx.starts is224).update ctx.ipad

def hmacUpdate (input : Bytes) : Context w := ctx.update input

def hmacFinish : Bytes × Context w :=
  let (tmpbuf, ctx) := ctx.finish
  (((ctx.starts ctx.is224).update ctx.opad).update tmpbuf).finish

def hmacReset : Context w := (ctx.starts ctx.is224).update ctx.ipad

end Context

def sha2Hmac (ctx : Context w) (key input : Bytes) (is224 : Bool) : Bytes :=
  ((ctx.hmacStarts key is224).hmacUpdate input).hmacFinish.1

end SimpleCode.Crypto.SHA256
