import SimpleCode.Foundations.Computation
import SimpleCode.Foundations.Positional

set_option autoImplicit false

/-! The big numbers of the RSA class. Element 99 of an array is the number of its digits and element
98 the sign; the cells are natural numbers, and what is left uninitialised is zero. -/

namespace SimpleCode.Crypto.RSA

open Foundations Foundations.Comp

structure BigNum where
  digit : ℕ → ℕ
  sign : ℕ
  length : ℕ

inductive Fault
  | outOfCells
  | negativeCell
deriving DecidableEq, Repr

def minus : ℕ := 45

namespace BigNum

def zero : BigNum := ⟨fun _ => 0, 0, 0⟩

def read (a : BigNum) (i : ℕ) : Except Fault ℕ :=
  if i < 98 then .ok (a.digit i) else .error .outOfCells

def write (a : BigNum) (i x : ℕ) : Except Fault BigNum :=
  if i < 98 then .ok { a with digit := Function.update a.digit i x } else .error .outOfCells

def clearFrom (a : BigNum) (i : ℕ) : BigNum := ⟨fun k => if i ≤ k then 0 else a.digit k, 0, 0⟩

end BigNum

def cmpDigits (a1 a2 : BigNum) : ℕ → Except Fault ℤ
  | 0 => .ok 0
  | n + 1 => do
    let x ← a1.read n
    let y ← a2.read n
    if y < x then .ok 1
    else if x < y then .ok (-1)
    else cmpDigits a1 a2 n

def cmp (a1 a2 : BigNum) : Except Fault ℤ :=
  if a2.length < a1.length then .ok 1
  else if a1.length < a2.length then .ok (-1)
  else cmpDigits a1 a2 a1.length

def mulDigit (a1 a2 : BigNum) (i j : ℕ) (c : BigNum) : Except Fault BigNum := do
  let x := (← a1.read i) * (← a2.read j)
  let y := x / 10
  let z := x % 10
  let w := i + j
  let c ← c.write w ((← c.read w) + z)
  let c ← c.write (w + 1) ((← c.read (w + 1)) + y + (← c.read w) / 10)
  c.write w ((← c.read w) % 10)

def mulSign (a1 a2 c : BigNum) : BigNum :=
  if a1.sign = minus ∧ a2.sign = minus then { c with sign := 0 }
  else if a1.sign = minus then { c with sign := minus }
  else if a2.sign = minus then { c with sign := minus }
  else c

def mul (a1 a2 c : BigNum) : Except Fault BigNum := do
  let c := mulSign a1 a2 c
  let c ← counted 0 (fun i => counted 0 (mulDigit a1 a2 i) a2.length) a1.length c
  let w := a1.length + a2.length
  if w = 0 then .error .outOfCells
  else
    let w := if (← c.read (w - 1)) = 0 then w - 1 else w
    .ok { c with length := w }

abbrev Chain := BigNum × ℕ

def addDigit (x y : ℕ) (i : ℕ) (s : Chain) : Except Fault Chain := do
  let c ← s.1.write i ((x + y + s.2) % 10)
  .ok (c, (x + y + s.2) / 10)

def addBoth (a1 a2 : BigNum) (i : ℕ) (s : Chain) : Except Fault Chain := do
  addDigit (← a1.read i) (← a2.read i) i s

def addRest (a : BigNum) (i : ℕ) (s : Chain) : Except Fault Chain := do
  addDigit (← a.read i) 0 i s

def addDigits (a1 a2 c : BigNum) : Except Fault BigNum := do
  let l1 := a1.length
  let l2 := a2.length
  let len := min l1 l2
  let s ← counted 0 (addBoth a1 a2) len (c, 0)
  let longer := if len < l1 then a1 else a2
  let (c, k) ← counted len (addRest longer) (longer.length - len) s
  if k ≠ 0 then
    let c ← c.write longer.length k
    .ok { c with length := longer.length + 1 }
  else .ok { c with length := longer.length }

def subDigit (x y : ℕ) (i : ℕ) (s : Chain) : Except Fault Chain := do
  if x < s.2 + y then
    let c ← s.1.write i ((x + 10 - y - s.2) % 10)
    .ok (c, 1)
  else
    let c ← s.1.write i ((x - y - s.2) % 10)
    .ok (c, 0)

def subBoth (a1 a2 : BigNum) (i : ℕ) (s : Chain) : Except Fault Chain := do
  subDigit (← a1.read i) (← a2.read i) i s

def subRest (a : BigNum) (i : ℕ) (s : Chain) : Except Fault Chain := do
  subDigit (← a.read i) 0 i s

def borrow (a1 a2 c : BigNum) : Except Fault BigNum := do
  let s ← counted 0 (subBoth a1 a2) a2.length (c, 0)
  let s ← counted a2.length (subRest a1) (a1.length - a2.length) s
  .ok s.1

def trim (c : BigNum) : ℕ → ℕ → Except Fault ℕ
  | 0, _ => .error .outOfCells
  | k + 1, len => do if (← c.read k) = 0 then trim c k k else .ok len

-- Both branches trim from the length of the first number.
def trimmed (c : BigNum) (len l1 : ℕ) : Except Fault BigNum := do
  if (← c.read (len - 1)) = 0 then
    let len ← trim c (l1 - 1) (len - 1)
    .ok { c with length := len }
  else .ok { c with length := len }

def subDigits (a1 a2 c : BigNum) : Except Fault BigNum := do
  let order ← cmp a1 a2
  if order = 1 then
    trimmed (← borrow a1 a2 c) a1.length a1.length
  else if order = -1 then
    trimmed (← borrow a2 a1 { c with sign := minus }) a2.length a1.length
  else
    let c ← c.write 0 0
    .ok { c with length := 1 }

-- The recursive calls of `add` and `sub` reach numbers that are both positive or both negative.
def add (a1 a2 c : BigNum) : Except Fault BigNum :=
  if a1.sign = minus ∧ a2.sign = minus then addDigits a1 a2 { c with sign := minus }
  else if a1.sign = minus then subDigits a2 { a1 with sign := 0 } c
  else if a2.sign = minus then subDigits a1 { a2 with sign := 0 } c
  else addDigits a1 a2 c

def sub (a1 a2 c : BigNum) : Except Fault BigNum :=
  if a1.sign = minus ∧ a2.sign = minus then
    subDigits { a2 with sign := 0 } { a1 with sign := 0 } c
  else if a2.sign = minus then add a1 { a2 with sign := 0 } c
  else if a1.sign = minus then add a1 { a2 with sign := minus } c
  else subDigits a1 a2 c

structure Subtraction where
  d : BigNum
  c : BigNum
  order : ℤ

def Subtraction.step (b : BigNum) (s : Subtraction) : Except Fault Subtraction := do
  let c ← sub s.d b s.c
  .ok ⟨c, c, ← cmp c b⟩

-- `while (cmp(d, b) != (-1))`; the array for the result keeps what was in it where there is no round.
def mod (a b c : BigNum) : Comp Fault BigNum := do
  let order ← ofExcept (cmp a b)
  let s ← loop (fun s : Subtraction => s.order != -1) (fun s => ofExcept (s.step b)) ⟨a, c, order⟩
  pure s.c

structure Division where
  a : BigNum
  c : BigNum
  e : BigNum
  f : BigNum

def Division.subtract (i : ℕ) (s : Division) : Except Fault Division := do
  let c ← s.c.write i ((← s.c.read i) + 1)
  let f ← sub s.a s.e s.f
  .ok { s with a := f, c := c, f := f }

-- `while (cmp(a, e) != (-1))`, with the answer of the comparison in the state of the loop.
def Division.digit (i : ℕ) (s : Division) : Comp Fault Division := do
  let order ← ofExcept (cmp s.a s.e)
  let s ← loop (fun s : Division × ℤ => s.2 != -1) (fun s => ofExcept do
    let t ← s.1.subtract i
    .ok (t, ← cmp t.a t.e)) (s, order)
  pure s.1

def Division.shifted (b : BigNum) (i : ℕ) (s : Division) : Except Fault Division := do
  let d ← BigNum.zero.write i 1
  let e ← mul b { d with length := i + 1 } s.e
  .ok { s with e := e }

def Division.digits (b : BigNum) : ℕ → Division → Comp Fault Division
  | 0, s => pure s
  | i + 1, s => do
    let s ← ofExcept (s.shifted b i)
    let s ← s.digit i
    Division.digits b i { s with e := s.e.clearFrom i }

def divt (t b c w : BigNum) : Comp Fault (BigNum × BigNum) := do
  let order ← ofExcept (cmp t b)
  if order = -1 then
    let c ← ofExcept (c.write 0 0)
    pure ({ c with length := 1 }, t)
  else if order = 0 then
    let c ← ofExcept (c.write 0 1)
    let w ← ofExcept (w.write 0 0)
    pure ({ c with length := 1 }, { w with length := 1 })
  else
    let m := t.length - b.length
    let s ← Division.digits b (m + 1) ⟨t, c, .zero, .zero⟩
    let top ← ofExcept (s.c.read m)
    pure ({ s.c with length := if top = 0 then m else m + 1 }, s.a)

structure Power where
  m : BigNum
  temp : BigNum
  b : BigNum
  w : BigNum

def one : BigNum := ⟨Function.update (fun _ => 0) 0 1, 0, 1⟩

def two : BigNum := ⟨Function.update (fun _ => 0) 0 2, 0, 1⟩

def Power.timesBase (n c w : BigNum) (s : Power) : Comp Fault (BigNum × BigNum) := do
  let order ← ofExcept (cmp c one)
  if order = 0 then
    let product ← ofExcept (mul s.temp s.m .zero)
    let (w, c) ← divt product n .zero .zero
    pure (c, w)
  else pure (s.temp, w)

def Power.step (n : BigNum) (s : Power) : Comp Fault Power := do
  let (b, c) ← divt s.b two .zero .zero
  let (temp, w) ← s.timesBase n c b
  let square ← ofExcept (mul s.m s.m .zero)
  let (w, c) ← divt square n w .zero
  pure ⟨c, temp, b, w⟩

def expmod (a p n : BigNum) : Comp Fault BigNum := do
  let order ← ofExcept (cmp p one)
  let (s, _) ← loop (fun s : Power × ℤ => s.2 != 0) (fun s => do
    let t ← s.1.step n
    pure (t, ← ofExcept (cmp t.b one))) (⟨a, one, p, .zero⟩, order)
  let product ← ofExcept (mul s.m s.temp .zero)
  let (_, c) ← divt product n s.w .zero
  pure { c with sign := a.sign }

def nought : BigNum := ⟨fun _ => 0, 0, 1⟩

structure Common where
  a : BigNum
  b : BigNum
  d : BigNum
  answer : Option ℤ

-- `d` is not cleared between the divisions.
def Common.round (s : Common) : Comp Fault Common := do
  let order ← ofExcept (cmp s.b one)
  if order = 0 then pure { s with answer := some 1 }
  else
    let (d, c) ← divt s.a s.b s.d .zero
    let order ← ofExcept (cmp c nought)
    pure ⟨s.b, c, d, if order = 0 then some 0 else none⟩

def coprime (e s : BigNum) : Comp Fault ℤ := do
  let t ← loop (fun t : Common => t.answer.isNone) Common.round ⟨s, e, .zero, none⟩
  pure (t.answer.getD 0)

structure Euclid where
  n1 : BigNum
  n2 : BigNum
  b1 : BigNum
  b2 : BigNum
  found : Bool

def Euclid.round (s : Euclid) : Comp Fault Euclid := do
  let (k, _) ← divt s.n1 s.n2 .zero .zero
  let temp ← ofExcept (mul k s.n2 .zero)
  let r ← ofExcept (sub s.n1 temp .zero)
  if r.length = 1 ∧ r.digit 0 = 0 then pure { s with found := true }
  else
    let temp ← ofExcept (mul k s.b2 .zero)
    let b2 ← ofExcept (sub s.b1 temp .zero)
    pure ⟨s.n2, r, s.b2, b2, false⟩

-- The zero that `b1` starts as has no digits.
def rsad (e g : BigNum) : Comp Fault BigNum := do
  let s ← loop (fun s : Euclid => !s.found) Euclid.round ⟨g, e, .zero, one, false⟩
  let t ← ofExcept (add s.b2 g .zero)
  let (_, d) ← divt t g .zero .zero
  pure d

end SimpleCode.Crypto.RSA
