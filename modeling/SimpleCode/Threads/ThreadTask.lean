import SimpleCode.Foundations.Bytes
import SimpleCode.Threads.ThreadMutex

set_option autoImplicit false

namespace SimpleCode.Threads

open Foundations

def threadTaskNumberMax : ℕ := 64
def threadNameLength : ℕ := 64

structure Slot where
  threadNo : UInt64 := 0
  threadName : Bytes := []
deriving DecidableEq

structure ThreadTask where
  gThreadsPool : Vector Slot threadTaskNumberMax
  gThreadMutex : ThreadMutex
  gThreadIndex : ℕ

namespace ThreadTask

def zero : ThreadTask := ⟨.replicate threadTaskNumberMax {}, .null, 0⟩

def threadTaskInit (s : ThreadTask) (mutexCreated : Bool) : ThreadTask :=
  if s.gThreadMutex ≠ .null then s
  else {
    gThreadMutex := threadMutexCreate mutexCreated
    gThreadsPool := s.gThreadsPool.map fun slot => { slot with threadNo := -1 }
    gThreadIndex := 0 }

/-- `sprintf` ran over the end of `threadName`. -/
inductive Undefined
  | overflow
deriving DecidableEq

inductive Attr
  | default
  | detachedFifo
deriving DecidableEq

/-- The answer of `pthread_create`. A failure leaves the thread number undefined. -/
inductive Outcome
  | created (threadNo : UInt64)
  | failed (threadNo : UInt64)
deriving DecidableEq

structure Created where
  threadNo : UInt64
  threadName : Bytes
  attr : Attr
deriving DecidableEq

/-- What the two creation functions share; the last component is the thread that was created. -/
def threadTaskCreate (attr : Attr) (s : ThreadTask) (threadName : Bytes) (outcome : Outcome) :
    Comp Undefined (ℤ × ThreadTask × Option Created) :=
  if s.gThreadMutex = .null then pure (-1, s, none)
  else do
    let (_, mutex) ← threadMutexLock s.gThreadMutex
    if h : s.gThreadIndex < threadTaskNumberMax then
      let gThreadMutex := (threadMutexUnLock mutex).2
      let gThreadIndex := s.gThreadIndex + 1
      let slot := s.gThreadsPool.get ⟨s.gThreadIndex, h⟩
      match outcome with
      | .failed threadNo =>
        let gThreadsPool := s.gThreadsPool.set s.gThreadIndex { slot with threadNo } h
        return (-1, { gThreadsPool, gThreadMutex, gThreadIndex }, none)
      | .created threadNo =>
        if threadName.length < threadNameLength then
          let gThreadsPool := s.gThreadsPool.set s.gThreadIndex { threadNo, threadName } h
          return (0, { gThreadsPool, gThreadMutex, gThreadIndex },
            some { threadNo, threadName, attr })
        else Comp.ofExcept (.error .overflow)
    else return (-1, { s with gThreadMutex := (threadMutexUnLock mutex).2 }, none)

def threadTaskCreateCommon : ThreadTask → Bytes → Outcome →
    Comp Undefined (ℤ × ThreadTask × Option Created) := threadTaskCreate .default

def threadTaskCreateAdvanced : ThreadTask → Bytes → Outcome →
    Comp Undefined (ℤ × ThreadTask × Option Created) := threadTaskCreate .detachedFifo

-- the last component is what the loop `for (i = 0; i <= tIndex; i++)` prints
def threadPoolShow (s : ThreadTask) : Comp Undefined (ℤ × ThreadTask × List Slot) :=
  if s.gThreadMutex = .null then pure (-1, s, [])
  else do
    let (_, mutex) ← threadMutexLock s.gThreadMutex
    let s' := { s with gThreadMutex := (threadMutexUnLock mutex).2 }
    if s.gThreadIndex ≥ threadTaskNumberMax ∨ s.gThreadIndex = 0 then return (-1, s', [])
    return (0, s', s.gThreadsPool.toList.take (s.gThreadIndex + 1))

end ThreadTask

end SimpleCode.Threads
