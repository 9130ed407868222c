import Mathlib.Data.Int.Notation
import Mathlib.Data.Nat.Notation
import Mathlib.Logic.Function.Basic

set_option autoImplicit false

/-! The recorder of `FunctionsStatistics`: the stack of open calls that every thread keeps in its
local storage, the list of its results, and the two hooks that the compiler inserts. A function is
its address, `NULL` is 0. -/

namespace SimpleCode.Debug.Statistics

structure Data where
  func : ℕ
  tm : ℤ
deriving DecidableEq, Repr

-- The newest entry first: `last` is the head.
abbrev Stack := List Data

structure Recorder where
  enableRecord : Bool
  threshold : ℤ
  tls : ℕ → Option Stack
  results : ℕ → List Data
  links : List ℕ
  exited : Bool

namespace Stack

def push (s : Stack) (func : ℕ) (tm : ℤ) : Stack := ⟨func, tm⟩ :: s

-- With an empty stack the two outputs keep what the caller put there.
def pop (s : Stack) (func : ℕ) (tm : ℤ) : Data × Stack :=
  match s with
  | [] => (⟨func, tm⟩, [])
  | data :: rest => (data, rest)

end Stack

namespace Recorder

variable (r : Recorder) (t thisFunc : ℕ) (now : ℤ)

def addResult (func : ℕ) (tm : ℤ) : Recorder :=
  if tm ≤ r.threshold then r
  else
    { r with
      results := Function.update r.results t (r.results t ++ [⟨func, tm⟩])
      links := if r.results t = [] then r.links ++ [t] else r.links }

def enter : Recorder :=
  if thisFunc = 0 then r
  else if r.enableRecord then
    { r with
      tls := Function.update r.tls t (some (((r.tls t).getD []).push thisFunc now)) }
  else r

def exit : Recorder :=
  if thisFunc = 0 then r
  else if r.enableRecord then
    match r.tls t with
    | none => r
    | some p =>
      let (popped, rest) := p.pop 0 0
      let r := { r with tls := Function.update r.tls t (some rest) }
      if popped.func ≠ thisFunc then { r with exited := true }
      else r.addResult t popped.func (now - popped.tm)
  else r

def disable : Recorder := { r with enableRecord := false }

def enable : Recorder := { r with enableRecord := true }

def initial (threshold : ℤ) : Recorder := ⟨true, threshold, fun _ => none, fun _ => [], [], false⟩

end Recorder

end SimpleCode.Debug.Statistics
