import Mathlib.Data.Nat.Digits.Defs
import SimpleCode.Foundations.CString
import SimpleCode.Foundations.Computation

set_option autoImplicit false

/-! A formatted output whose characters go to a function of the caller. The lengths of the fields are
of type `short`, and are narrowed to it. -/

namespace SimpleCode.Debug.GeneralPrintf

open Foundations Foundations.Comp

inductive Stop
  | arguments
  | overflow
  | outOfBounds
deriving DecidableEq

inductive Argument
  | int (n : BitVec 32)
  | long (x : BitVec 64)
  | string (s : CString)

def short (n : ℤ) : ℤ := n.bmod (2 ^ 16)

def int (n : ℤ) : Except Stop ℤ := if -2 ^ 31 ≤ n ∧ n < 2 ^ 31 then .ok n else .error .overflow

def long (n : ℤ) : Except Stop ℤ := if -2 ^ 63 ≤ n ∧ n < 2 ^ 63 then .ok n else .error .overflow

structure Options where
  minusSign : Bool
  rightJustify : Bool
  zeroPad : Bool
  capitalHex : Bool

structure Field where
  minimumFieldWidth : ℤ
  options : Options
  editedStringLength : ℤ
  leadingZeros : ℤ

structure Parameters (σ : Type) where
  numberOfOutputChars : ℤ
  outputPointer : σ

section Output

variable {σ : Type} (outputFunction : σ → UInt8 → σ × ℤ)

def outputAndCount (p : Parameters σ) (c : UInt8) : Except Stop (Parameters σ) :=
  if 0 ≤ p.numberOfOutputChars then
    let (outputPointer, n) := outputFunction p.outputPointer c
    if 0 ≤ n then do
      let numberOfOutputChars ← int (p.numberOfOutputChars + 1)
      .ok ⟨numberOfOutputChars, outputPointer⟩
    else .ok ⟨n, outputPointer⟩
  else .ok p

def outputAll (text : Bytes) (p : Parameters σ) : Except Stop (Parameters σ) :=
  text.foldlM (outputAndCount outputFunction) p

def outputIf (b : Bool) (c : UInt8) (p : Parameters σ) : Except Stop (Parameters σ) :=
  if b then outputAndCount outputFunction p c else .ok p

-- `while (--n >= 0)`: how many rounds there are, and what `n` is behind them.
def countdown (n : ℤ) : ℕ × ℤ :=
  if 0 ≤ short (n - 1) then ((short (n - 1)).toNat + 1, -1) else (0, short (n - 1))

def outputField (p : Parameters σ) (f : Field) (s : Bytes) : Except Stop (Parameters σ) := do
  let minusSign := f.options.minusSign
  let zeroPad := f.options.zeroPad
  let justificationLength := short (f.minimumFieldWidth - f.leadingZeros - f.editedStringLength)
  let p ← outputIf outputFunction (minusSign && zeroPad) 45 p
  let justificationLength :=
    if minusSign then short (justificationLength - 1) else justificationLength
  let padding :=
    if f.options.rightJustify then countdown justificationLength else (0, justificationLength)
  let p ← outputAll outputFunction (List.replicate padding.1 (if zeroPad then 48 else 32)) p
  let p ← outputIf outputFunction (minusSign && !zeroPad) 45 p
  let p ← outputAll outputFunction (List.replicate (countdown f.leadingZeros).1 48) p
  let p ← outputAll outputFunction (s.take (countdown f.editedStringLength).1) p
  outputAll outputFunction (List.replicate (countdown padding.2).1 32) p

end Output

section Directives

-- A field up to its conversion type. The precision is `-1` where none is given.
structure Directive where
  options : Options
  minimumFieldWidth : ℤ
  precision : ℤ
  longArgument : Bool

def flag (c : UInt8) : Bytes → Bool × Bytes
  | controlChar :: control => if controlChar = c then (true, control) else (false, controlChar :: control)
  | [] => (false, [])

def digits (narrow : ℤ → ℤ) : ℤ → Bytes → ℤ × Bytes
  | n, controlChar :: control =>
    if 48 ≤ controlChar ∧ controlChar ≤ 57 then
      digits narrow (narrow (n * 10 + controlChar.toNat - 48)) control
    else (n, controlChar :: control)
  | n, [] => (n, [])

-- `*` takes the number from the arguments.
def number (narrow : ℤ → ℤ) (control : Bytes) (arguments : List Argument) :
    Except Stop (ℤ × Bytes × List Argument) :=
  let star := flag 42 control
  if star.1 then
    match arguments with
    | .int n :: arguments => .ok (narrow n.toInt, star.2, arguments)
    | _ => .error .arguments
  else
    let n := digits narrow 0 star.2
    .ok (n.1, n.2, arguments)

def precision (narrow : ℤ → ℤ) (control : Bytes) (arguments : List Argument) :
    Except Stop (ℤ × Bytes × List Argument) :=
  let dot := flag 46 control
  if dot.1 then number narrow dot.2 arguments else .ok (-1, dot.2, arguments)

def directive (narrow : ℤ → ℤ) (control : Bytes) (arguments : List Argument) :
    Except Stop (Directive × Bytes × List Argument) := do
  let minus := flag 45 control
  let zero := flag 48 minus.2
  let width ← number narrow zero.2 arguments
  let limit ← precision narrow width.2.1 width.2.2
  let long := flag 108 limit.2.1
  .ok (⟨⟨false, !minus.1, zero.1, false⟩, width.1, limit.1, long.1⟩, long.2, limit.2.2)

end Directives

section Conversions

inductive Conversion
  | number (base : ℕ) (signed capital : Bool)
  | character
  | string

def conversion (controlChar : UInt8) : Option Conversion :=
  if controlChar = 100 then some (.number 10 true false)
  else if controlChar = 120 then some (.number 16 false false)
  else if controlChar = 88 then some (.number 16 false true)
  else if controlChar = 117 then some (.number 10 false false)
  else if controlChar = 111 then some (.number 8 false false)
  else if controlChar = 98 then some (.number 2 false false)
  else if controlChar = 99 then some .character
  else if controlChar = 115 then some .string
  else none

def digitChar (capitalHex : Bool) (d : ℕ) : UInt8 :=
  let c := d + 48
  UInt8.ofNat (if 57 < c then if capitalHex then c + (65 - 57 - 1) else c + (97 - 57 - 1) else c)

def editNumber (base : ℕ) (capitalHex : Bool) : ℕ → ℕ → Bytes → Except Stop Bytes
  | 0, _, _ => .error .outOfBounds
  | room + 1, x, buffer =>
    let buffer := digitChar capitalHex (x % base) :: buffer
    if x / base ≠ 0 then editNumber base capitalHex room (x / base) buffer else .ok buffer

-- A length that has become negative is the index of a character in front of the string.
def stringLength : ℤ → Bytes → Except Stop ℤ
  | n, [] => .ok n
  | n, _ :: s =>
    let n := short (n + 1)
    if n < 0 then .error .outOfBounds else stringLength n s

def unsignedLong (longArgument signed : Bool) :
    List Argument → Except Stop (BitVec 64 × List Argument)
  | .long x :: arguments => if longArgument then .ok (x, arguments) else .error .arguments
  | .int n :: arguments =>
    if longArgument then .error .arguments
    else .ok (if signed then n.signExtend 64 else n.setWidth 64, arguments)
  | _ => .error .arguments

def magnitude (minusSign : Bool) (x : BitVec 64) : Except Stop ℤ :=
  if minusSign then long (-x.toInt) else .ok x.toNat

def Conversion.edit (d : Directive) (arguments : List Argument) :
    Conversion → Except Stop (Field × Bytes × List Argument)
  | .character =>
    match arguments with
    | .int n :: arguments =>
      .ok (⟨d.minimumFieldWidth, { d.options with zeroPad := false }, 1, 0⟩,
        [UInt8.ofBitVec (n.setWidth 8)], arguments)
    | _ => .error .arguments
  | .string =>
    match arguments with
    | .string s :: arguments => do
      let n ← stringLength 0 s.chars
      let n := if 0 ≤ d.precision ∧ d.precision < n then d.precision else n
      .ok (⟨d.minimumFieldWidth, { d.options with zeroPad := false }, n, 0⟩, s.chars, arguments)
    | _ => .error .arguments
  | .number base signed capital => do
    let (x, arguments) ← unsignedLong d.longArgument signed arguments
    let minusSign := signed && decide (x.toInt < 0)
    let x ← magnitude minusSign x
    let buffer ← editNumber base capital (8 * 8 + 1) x.toNat []
    let n : ℤ := buffer.length
    let leadingZeros := if 0 ≤ d.precision ∧ n < d.precision then short (d.precision - n) else 0
    .ok (⟨d.minimumFieldWidth, { d.options with minusSign := minusSign, capitalHex := capital }, n,
      leadingZeros⟩, buffer, arguments)

end Conversions

section Printing

variable {σ : Type} (outputFunction : σ → UInt8 → σ × ℤ)

structure Printing (σ : Type) where
  control : Bytes
  arguments : List Argument
  p : Parameters σ

-- A round of the loop. An invalid conversion type is put out as it is.
def Printing.step (s : Printing σ) : Except Stop (Printing σ) :=
  match s.control with
  | [] => .ok s
  | controlChar :: control =>
    if controlChar = 37 then do
      let (d, control, arguments) ← directive short control s.arguments
      match control with
      | [] => .ok ⟨[], arguments, s.p⟩
      | controlChar :: control =>
        match conversion controlChar with
        | none => do
          let p ← outputAndCount outputFunction s.p controlChar
          .ok ⟨control, arguments, p⟩
        | some c => do
          let (f, text, arguments) ← c.edit d arguments
          let p ← outputField outputFunction s.p f text
          .ok ⟨control, arguments, p⟩
    else do
      let p ← outputAndCount outputFunction s.p controlChar
      .ok ⟨control, s.arguments, p⟩

def generalPrintf (outputPointer : σ) (controlString : CString) (arguments : List Argument) :
    Comp Stop (σ × ℤ) := do
  let s ← loop (fun s : Printing σ => !s.control.isEmpty) (fun s => ofExcept (s.step outputFunction))
    ⟨controlString.chars, arguments, ⟨0, outputPointer⟩⟩
  pure (s.p.outputPointer, s.p.numberOfOutputChars)

end Printing

end SimpleCode.Debug.GeneralPrintf
