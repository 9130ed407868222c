import Mathlib.Data.Prod.Lex
import SimpleCode.Foundations.DeltaQueue
import SimpleCode.Foundations.Runs
import SimpleCode.LibRtspServer.RtspMethod

set_option autoImplicit false

namespace SimpleCode.LibRtspServer

open Foundations

def intMax : ℕ := 2 ^ 31 - 1

-- A `struct delay_task` without its `delta_time`. `due` and `serial` tell the time for which it was last
-- put into the queue, and as the how manyeth.
structure DelayTask where
  addr : ℕ
  proc : Task
  arg : ℕ
  due : ℕ
  serial : ℕ
deriving DecidableEq, Repr

structure DelayQueue where
  delayTaskQueue : List (DelayTask × ℕ)
  lastSyncTime : ℕ
  -- The task whose callback has not returned.
  running : Option DelayTask
  ran : List DelayTask
  serial : ℕ
  -- Something was written that is not a task of the queue.
  wild : Bool
deriving DecidableEq, Repr

namespace DelayQueue

variable (s : DelayQueue)

def tasks : List DelayTask := s.delayTaskQueue.map Prod.fst

def task (addr : ℕ) : Option DelayTask := s.tasks.find? (·.addr == addr)

def syncDelayTime (now : ℕ) : DelayQueue :=
  if now < s.lastSyncTime then { s with lastSyncTime := now }
  else
    let elapsed := if intMax ≤ now - s.lastSyncTime then 0 else now - s.lastSyncTime
    { s with
      delayTaskQueue := DeltaQueue.elapse elapsed s.delayTaskQueue
      lastSyncTime := now }

def getMinDelayTime (now : ℕ) : Option ℕ × DelayQueue :=
  if s.delayTaskQueue = [] then (none, s)
  else
    let s := s.syncDelayTime now
    (s.delayTaskQueue.head?.map Prod.snd, s)

def addDelayTask (addr : ℕ) (proc : Task) (arg delay now : ℕ) : DelayQueue :=
  let s := s.syncDelayTime now
  { s with
    delayTaskQueue := DeltaQueue.insert ⟨addr, proc, arg, now + delay, s.serial⟩ delay s.delayTaskQueue
    serial := s.serial + 1 }

/-- The last of several tasks, behind which the head of the list stands. -/
def LastOfMany (addr : ℕ) : Prop := 1 < s.tasks.length ∧ ∃ t ∈ s.tasks.getLast?, t.addr = addr

instance (addr : ℕ) : Decidable (s.LastOfMany addr) := inferInstanceAs (Decidable (_ ∧ _))

-- The task behind it gets its `delta_time`, also where that is the head of the list.
def delDelayTask (addr : ℕ) : DelayQueue :=
  { s with
    delayTaskQueue := DeltaQueue.remove (·.addr == addr) s.delayTaskQueue
    wild := s.wild || s.LastOfMany addr }

def createDelayTask (mem : Option ℕ) (proc : Task) (arg delay now : ℕ) : DelayQueue :=
  match mem with
  | none => s
  | some addr => s.addDelayTask addr proc arg delay now

def destroyDelayTask (addr : ℕ) : DelayQueue :=
  match s.task addr with
  | none => s
  | some _ => s.delDelayTask addr

-- The task may have been freed; what is linked then is not a task of the queue.
def updateDelayTime (addr delay now : ℕ) : DelayQueue :=
  match s.task addr with
  | none => { s with wild := true }
  | some t => (s.delDelayTask addr).addDelayTask addr t.proc t.arg delay now

def destroySessTask (arg : ℕ) : DelayQueue :=
  (s.tasks.filter (·.arg == arg)).foldl (fun s t => s.destroyDelayTask t.addr) s

def beginDelayTask (now : ℕ) : DelayQueue :=
  match s.delayTaskQueue with
  | [] => s
  | (_, delta) :: _ =>
    let s := if delta ≠ 0 then s.syncDelayTime now else s
    match s.delayTaskQueue with
    | (t, 0) :: _ => { s with running := some t, ran := s.ran ++ [t] }
    | _ => s

-- `do_delay_task` after the callback; without a next delay the task is finished or has failed.
def endDelayTask (t : DelayTask) (nextDelay : Option ℕ) (now : ℕ) : DelayQueue :=
  let s := { s with running := none }
  match nextDelay with
  | none => s.destroyDelayTask t.addr
  | some delay => s.updateDelayTime t.addr delay now

inductive Event
  | create (mem : Option ℕ) (proc : Task) (arg delay now : ℕ)
  | destroy (addr : ℕ)
  | destroySess (arg : ℕ)
  | getMin (now : ℕ)
  | begin (now : ℕ)
  | done (nextDelay : Option ℕ) (now : ℕ)
deriving DecidableEq, Repr

-- The delays are of type `int`. The callbacks do not call `do_delay_task` themselves.
def step (s : DelayQueue) : Event → Option DelayQueue
  | .create mem proc arg delay now =>
    if (∀ addr ∈ mem, s.task addr = none) ∧ delay ≤ intMax then some (s.createDelayTask mem proc arg delay now)
    else none
  | .destroy addr => some (s.destroyDelayTask addr)
  | .destroySess arg => some (s.destroySessTask arg)
  | .getMin now => some (s.getMinDelayTime now).2
  | .begin now => if s.running = none then some (s.beginDelayTask now) else none
  | .done nextDelay now =>
    if ∀ delay ∈ nextDelay, delay ≤ intMax then s.running.map fun t => s.endDelayTask t nextDelay now
    else none

def start (now : ℕ) : DelayQueue := ⟨[], now, none, [], 0, false⟩

end DelayQueue

end SimpleCode.LibRtspServer
