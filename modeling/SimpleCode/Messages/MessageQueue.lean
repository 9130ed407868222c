import SimpleCode.Foundations.Bytes
import SimpleCode.Foundations.Fifo

set_option autoImplicit false

/-! MessageQueue over a non-blocking pipe: the calls as the system calls they make, and the system of
any number of threads that call them on one queue. -/

namespace SimpleCode.Messages

open Foundations Fifo

structure MessageQueue where
  size : Int32

def messageQueueCreate (messageSize : Int32) (malloc pipe : Bool) : Option MessageQueue :=
  if !malloc then none
  else if !pipe then none
  else some ⟨messageSize⟩

/-- What is left of a call: its next system call, with what the code does on each answer. -/
inductive Call
  | ret (value : Int32)
  | select (next : ℤ → Call)
  | write (data : Bytes) (next : ℤ → Call)
  | read (count : ℕ) (next : ℤ → Call)

/-- An `int` passed where a `size_t` is asked for. -/
def sizeT (size : Int32) : ℕ := (size.toInt % 2 ^ 64).toNat

def afterWrite (queue : MessageQueue) (ret : ℤ) : Call :=
  if Int32.ofInt ret ≠ queue.size then .ret (-1) else .ret 0

def enqueueWrite (queue : MessageQueue) (message : Bytes) : Call :=
  .write (message.take (sizeT queue.size)) (afterWrite queue)

def messageQueueEnqueue (messageQueue : Option MessageQueue) (message : Bytes) (usec : ℕ) : Call :=
  match messageQueue with
  | none => .ret (-1)
  | some queue =>
    if usec ≠ 0 then
      .select fun ret => if Int32.ofInt ret < 0 then .ret (-1) else enqueueWrite queue message
    else enqueueWrite queue message

def afterRead (queue : MessageQueue) (ret : ℤ) : Call :=
  if Int32.ofInt ret ≠ queue.size then .ret (-1) else .ret queue.size

def dequeueRead (queue : MessageQueue) : Call := .read (sizeT queue.size) (afterRead queue)

def messageQueueDequeue (messageQueue : Option MessageQueue) (usec : ℕ) : Call :=
  match messageQueue with
  | none => .ret (-1)
  | some queue =>
    if usec ≠ 0 then
      .select fun ret => if Int32.ofInt ret < 0 then .ret (-1) else dequeueRead queue
    else dequeueRead queue

/-! The pipe and the threads. A write of at most `pipeBuf` bytes goes in as a whole or not at all; a
longer one goes in piece by piece and may stop anywhere. -/

structure PipeLimits where
  pipeBuf : ℕ
  capacity : ℕ
  pipeBuf_pos : 0 < pipeBuf
  pipeBuf_le : pipeBuf ≤ capacity
  pipeBuf_lt : pipeBuf < 2 ^ 31

inductive Job
  | enqueue (message : Bytes)
  | dequeue

inductive Thread
  | idle
  | running (job : Job) (call : Call)
  | writing (job : Job) (data : Bytes) (done : ℕ) (next : ℤ → Call)

structure Event where
  job : Job
  moved : Bytes
  result : Int32

structure System where
  pipe : Bytes
  threads : ℕ → Thread
  log : List Event

namespace System

def start : System := ⟨[], fun _ => .idle, []⟩

/-- The thread runs on to its next system call; no other thread sees the code in between. -/
def resume (s : System) (t : ℕ) (job : Job) (moved : Bytes) : Call → System
  | .ret value => { s with
      threads := Function.update s.threads t .idle
      log := s.log ++ [⟨job, moved, value⟩] }
  | call => { s with threads := Function.update s.threads t (.running job call) }

end System

inductive Step (limits : PipeLimits) (queue : MessageQueue) : System → System → Prop
  | callEnqueue {s : System} {t : ℕ} (message : Bytes) (usec : ℕ) : s.threads t = .idle →
      sizeT queue.size ≤ message.length →
      Step limits queue s (s.resume t (.enqueue (message.take (sizeT queue.size))) []
        (messageQueueEnqueue (some queue) message usec))
  | callDequeue {s : System} {t : ℕ} (usec : ℕ) : s.threads t = .idle →
      Step limits queue s (s.resume t .dequeue [] (messageQueueDequeue (some queue) usec))
  | select {s : System} {t : ℕ} {job : Job} {next : ℤ → Call} (ret : ℤ) :
      s.threads t = .running job (.select next) →
      Step limits queue s (s.resume t job [] (next ret))
  | writeAll {s : System} {t : ℕ} {job : Job} {data : Bytes} {next : ℤ → Call} :
      s.threads t = .running job (.write data next) → data.length ≤ limits.pipeBuf →
      s.pipe.length + data.length ≤ limits.capacity →
      Step limits queue s
        ({ s with pipe := s.pipe ++ data }.resume t job data (next data.length))
  | writeNone {s : System} {t : ℕ} {job : Job} {data : Bytes} {next : ℤ → Call} :
      s.threads t = .running job (.write data next) →
      Step limits queue s (s.resume t job [] (next (-1)))
  | writeBegin {s : System} {t : ℕ} {job : Job} {data : Bytes} {next : ℤ → Call} :
      s.threads t = .running job (.write data next) → limits.pipeBuf < data.length →
      Step limits queue s
        { s with threads := Function.update s.threads t (.writing job data 0 next) }
  | writeSome {s : System} {t : ℕ} {job : Job} {data : Bytes} {done : ℕ} {next : ℤ → Call} (k : ℕ) :
      s.threads t = .writing job data done next → done + k ≤ data.length →
      s.pipe.length + k ≤ limits.capacity →
      Step limits queue s { s with
        pipe := s.pipe ++ (data.drop done).take k
        threads := Function.update s.threads t (.writing job data (done + k) next) }
  | writeEnd {s : System} {t : ℕ} {job : Job} {data : Bytes} {done : ℕ} {next : ℤ → Call} :
      s.threads t = .writing job data done next →
      Step limits queue s
        (s.resume t job (data.take done) (next (if done = 0 then -1 else done)))
  | readSome {s : System} {t : ℕ} {job : Job} {count : ℕ} {next : ℤ → Call} :
      s.threads t = .running job (.read count next) → s.pipe ≠ [] ∨ count = 0 →
      Step limits queue s ({ s with pipe := s.pipe.drop count }.resume t job (s.pipe.take count)
        (next (s.pipe.take count).length))
  | readNone {s : System} {t : ℕ} {job : Job} {count : ℕ} {next : ℤ → Call} :
      s.threads t = .running job (.read count next) →
      Step limits queue s (s.resume t job [] (next (-1)))

def Reachable (limits : PipeLimits) (queue : MessageQueue) (s : System) : Prop :=
  Relation.ReflTransGen (Step limits queue) .start s

def Event.action (e : Event) : Option (Action Bytes) :=
  match e.job with
  | .enqueue message => if e.result = 0 then some (.put message) else none
  | .dequeue => if e.result ≠ -1 then some (.take e.moved) else none

/-- The successful calls are those of a queue whose waiting messages fill the pipe, and an enqueue
that reports a failure has put nothing in. -/
structure Faithful (s : System) : Prop where
  fifo : ∃ waiting, replay (s.log.filterMap Event.action) = some waiting ∧ s.pipe = waiting.flatten
  failed : ∀ e ∈ s.log, ∀ message, e.job = .enqueue message → e.result ≠ 0 → e.moved = []

end SimpleCode.Messages
