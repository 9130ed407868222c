import SimpleCode.Foundations.Computation

set_option autoImplicit false

/-! ThreadMutex: a default pthread mutex, for which its own holder waits in vain. A mutex that
could not be created is a null pointer, and locking it only reports an error. -/

namespace SimpleCode.Threads

open Foundations

inductive ThreadMutex
  | null
  | free
  | locked
deriving DecidableEq

def threadMutexCreate (created : Bool) : ThreadMutex := if created then .free else .null

def threadMutexLock {ε : Type} : ThreadMutex → Comp ε (ℤ × ThreadMutex)
  | .null => pure (-1, .null)
  | .free => pure (0, .locked)
  | .locked => .diverge

def threadMutexUnLock : ThreadMutex → ℤ × ThreadMutex
  | .null => (-1, .null)
  | _ => (0, .free)

end SimpleCode.Threads
