import SimpleCode.Foundations.Bytes
import SimpleCode.Foundations.Cells

set_option autoImplicit false

/-! The hexadecimal helpers, the padding and the ECB wrappers of `aes.c` over the block functions
of OpenSSL, which are a parameter. A buffer is a function of the offset, `char` is signed and no
length is negative. -/

namespace SimpleCode.Crypto.Aes

open Foundations

abbrev Buffer := ℕ → UInt8

-- The functions of OpenSSL that `aes.c` calls.
structure OpenSsl where
  Key : Type
  setEncryptKey : Vector UInt8 16 → Key
  setDecryptKey : Vector UInt8 16 → Key
  encrypt : Vector UInt8 16 → Key → Vector UInt8 16
  decrypt : Vector UInt8 16 → Key → Vector UInt8 16

def OpenSsl.Inverse (ssl : OpenSsl) : Prop :=
  ∀ key block, ssl.decrypt (ssl.encrypt block (ssl.setEncryptKey key)) (ssl.setDecryptKey key) = block

def maxLen : ℤ := 4096

def hexGet (data : UInt8) : UInt8 :=
  if data ≥ '0'.toUInt8 ∧ data ≤ '9'.toUInt8 then data - '0'.toUInt8
  else if data ≥ 'A'.toUInt8 ∧ data ≤ 'F'.toUInt8 then data - 'A'.toUInt8 + 10
  else 0

def hexGetFromBcd (d₀ d₁ : UInt8) : UInt8 := hexGet d₀ <<< 4 + hexGet d₁

def hexDigit (v : UInt8) : UInt8 := if v < 10 then '0'.toUInt8 + v else 'A'.toUInt8 + (v - 10)

def printHex (v : UInt8) (b : Buffer) (p : ℕ) : Buffer :=
  Function.update (Function.update (Function.update b p (hexDigit (v / 16))) (p + 1)
    (hexDigit (v % 16))) (p + 2) 0

def charGetFromHex (hex : Buffer) (hexLen : ℤ) (outBuf : Buffer) (outBufLen : ℤ) : ℤ × Buffer :=
  if hexLen * 2 + 1 > outBufLen then (-1, outBuf)
  else
    let b := (List.range hexLen.toNat).foldl (fun b i => printHex (hex i) b (2 * i)) outBuf
    (0, Function.update b (hexLen * 2 + 1).toNat 0)

def hexGetFromChar (In : Buffer) (inLen : ℤ) (hexOutBuf : Buffer) (hexOutBufLen : ℤ) : ℤ × Buffer :=
  if inLen / 2 > hexOutBufLen then (-1, hexOutBuf)
  else
    (0, (List.range (inLen / 2).toNat).foldl
      (fun b i => Function.update b (0 + i) (hexGetFromBcd (In (i * 2)) (In (i * 2 + 1)))) hexOutBuf)

def pkcs5Padding (plainData : Buffer) (plainDataLen : ℤ) (paddedData : Buffer)
    (paddedDataLen blockSize : ℤ) : ℤ × Buffer :=
  let padLen := plainDataLen.tmod blockSize
  if plainDataLen > paddedDataLen then (-1, paddedData)
  else
    let b := Cells.copy paddedData 0 plainData plainDataLen.toNat
    if padLen ≠ 0 then
      let padLen := blockSize - padLen
      let b := (List.range padLen.toNat).foldl
        (fun b i => Function.update b (plainDataLen.toNat + i) (UInt8.ofNat padLen.toNat)) b
      (padLen + plainDataLen, b)
    else (padLen + plainDataLen, b)

def paddingMatches (b : Buffer) (len : ℕ) : ℕ → Bool
  | 0 => true
  | v + 1 => if b (len - (v + 1)) ≠ b (len - 1) then false else paddingMatches b len v

def pkcs5PaddingRemove (b : Buffer) (len : ℕ) : ℤ × Buffer :=
  let last := (b (len - 1)).toInt8.toInt
  if last ≤ 8 ∧ last ≥ 0 then
    if paddingMatches b len last.toNat then (0, Function.update b (len - last.toNat) 0)
    else (-1, b)
  else (-1, Function.update b len 0)

def readBlock (b : Buffer) (p : ℕ) : Vector UInt8 16 := Vector.ofFn fun i => b (p + i)

-- `inc_len` takes the multiples of 16 below `len`.
def ecb (f : Vector UInt8 16 → Vector UInt8 16) (src dst : Buffer) (len : ℕ) : Buffer :=
  (List.range ((len + 15) / 16)).foldl
    (fun dst i => Cells.copy dst (16 * i) (fun k => (f (readBlock src (16 * i))).getD k 0) 16) dst

structure Encrypted where
  ret : ℤ
  txt : Buffer
  len : ℤ

structure Decrypted where
  ret : ℤ
  txt : Buffer

variable (ssl : OpenSsl)

def yxAesEcbEncrypt (plainTxt : Buffer) (plainTxtLen : ℤ) (key : Vector UInt8 16)
    (encryptedTxt : Buffer) (encryptedTxtLen : ℤ) : Encrypted :=
  if plainTxtLen > maxLen then ⟨-1, encryptedTxt, encryptedTxtLen⟩
  else
    let (encryptLen, input) :=
      pkcs5Padding plainTxt plainTxtLen (fun _ => 0) (plainTxtLen + 9) 16
    if encryptedTxtLen < encryptLen * 2 + 1 then ⟨-1, encryptedTxt, encryptedTxtLen⟩
    else
      let output := ecb (ssl.encrypt · (ssl.setEncryptKey key)) input (fun _ => 0) encryptLen.toNat
      ⟨0, (charGetFromHex output encryptLen encryptedTxt encryptedTxtLen).2, encryptLen * 2⟩

def yxAesEcbDecrypt (encryptedTxt : Buffer) (encryptedTxtLen : ℤ) (key : Vector UInt8 16)
    (plainTxt : Buffer) (plainTxtLen : ℤ) : Decrypted :=
  if plainTxtLen < encryptedTxtLen / 2 then ⟨-1, plainTxt⟩
  else if encryptedTxtLen / 2 > maxLen then ⟨-1, plainTxt⟩
  else
    let hex := (hexGetFromChar encryptedTxt encryptedTxtLen (fun _ => 0) (encryptedTxtLen / 2)).2
    let encryptLen := encryptedTxtLen / 2
    let plain := ecb (ssl.decrypt · (ssl.setDecryptKey key)) hex plainTxt encryptLen.toNat
    ⟨0, (pkcs5PaddingRemove plain encryptLen.toNat).2⟩

def appAesEcbEncrypt (plainTxt : Buffer) (plainTxtLen : ℤ) (key : Vector UInt8 16)
    (encryptedTxt : Buffer) (encryptedTxtLen : ℤ) : Encrypted :=
  if plainTxtLen > maxLen then ⟨-1, encryptedTxt, encryptedTxtLen⟩
  else
    let (encryptLen, input) :=
      pkcs5Padding plainTxt plainTxtLen (fun _ => 0) (plainTxtLen + 9) 16
    if encryptedTxtLen < encryptLen + 1 ∨ encryptLen < 0 then ⟨-1, encryptedTxt, encryptedTxtLen⟩
    else
      let output := ecb (ssl.encrypt · (ssl.setEncryptKey key)) input (fun _ => 0) encryptLen.toNat
      ⟨0, Cells.copy encryptedTxt 0 output encryptLen.toNat, encryptLen⟩

def appAesEcbDecrypt (encryptedTxt : Buffer) (encryptedTxtLen : ℤ) (key : Vector UInt8 16)
    (plainTxt : Buffer) (plainTxtLen : ℤ) : Decrypted :=
  if plainTxtLen ≤ encryptedTxtLen then ⟨-1, plainTxt⟩
  else
    let plain := ecb (ssl.decrypt · (ssl.setDecryptKey key)) encryptedTxt plainTxt
      encryptedTxtLen.toNat
    ⟨0, (pkcs5PaddingRemove plain encryptedTxtLen.toNat).2⟩

end SimpleCode.Crypto.Aes
