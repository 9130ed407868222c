import SimpleCode.Foundations.RingBuffer

set_option autoImplicit false

/-! ThreadPool: the sections of the calls that run under the pool's mutex, and the system of the worker
threads and of any callers. -/

namespace SimpleCode.Event

open Foundations RingBuffer

structure Task where
  function : ℕ
  argument : ℕ
deriving DecidableEq, Repr

inductive Shutdown
  | immediate
  | graceful
deriving DecidableEq, Repr

structure ThreadPool where
  -- A call has returned and left the mutex locked.
  locked : Bool
  queue : ℤ → Task
  threadCount : ℕ
  queueSize : ℤ
  head : ℤ
  tail : ℤ
  count : ℤ
  shutdown : Option Shutdown
  started : ℤ

structure Answers where
  lock : Bool
  notify : Bool
  unlock : Bool
deriving DecidableEq, Repr

def threadpoolInvalid : ℤ := -1
def threadpoolLockFailure : ℤ := -2
def threadpoolQueueFull : ℤ := -3
def threadpoolShutdown : ℤ := -4

namespace ThreadPool

def threadpoolCreate (threadCount queueSize : ℕ) (queue : ℤ → Task) : ThreadPool :=
  ⟨false, queue, threadCount, queueSize, 0, 0, 0, none, threadCount⟩

def enqueue (pool : ThreadPool) (task : Task) (notify : Bool) : ℤ × ThreadPool :=
  if pool.count = pool.queueSize then (threadpoolQueueFull, pool)
  else if pool.shutdown ≠ none then (threadpoolShutdown, pool)
  else (if notify then 0 else threadpoolLockFailure, { pool with
    queue := Function.update pool.queue pool.tail task
    tail := next pool.queueSize pool.tail
    count := pool.count + 1 })

def threadpoolAdd (pool : ThreadPool) (task : Task) (answers : Answers) : ℤ × ThreadPool :=
  if task.function = 0 then (threadpoolInvalid, pool)
  else if !answers.lock then (threadpoolLockFailure, pool)
  else
    let (err, pool) := pool.enqueue task answers.notify
    if answers.unlock then (err, pool) else (threadpoolLockFailure, { pool with locked := true })

-- Until the mutex is left. The second call of all leaves it locked.
def threadpoolDestroy (pool : ThreadPool) (graceful : Bool) (answers : Answers) : ℤ × ThreadPool :=
  if !answers.lock then (threadpoolLockFailure, pool)
  else if pool.shutdown ≠ none then (threadpoolShutdown, { pool with locked := true })
  else
    let pool := { pool with shutdown := some (if graceful then .graceful else .immediate) }
    if answers.notify && answers.unlock then (0, pool)
    else (threadpoolLockFailure, { pool with locked := true })

def threadpoolFree (pool : ThreadPool) : Bool := !(0 < pool.started)

inductive Worker
  | idle
  | waiting
  | running (task : Task)
  | left
deriving DecidableEq, Repr

-- From the locked mutex, at the top of the loop or after a wake-up, to the unlocked one.
def threadpoolThread (pool : ThreadPool) : Worker × ThreadPool :=
  if pool.count = 0 ∧ pool.shutdown = none then (.waiting, pool)
  else if pool.shutdown = some .immediate ∨ pool.shutdown = some .graceful ∧ pool.count = 0 then
    (.left, { pool with started := pool.started - 1 })
  else (.running (pool.queue pool.head), { pool with
    head := next pool.queueSize pool.head
    count := pool.count - 1 })

end ThreadPool

open ThreadPool

structure System where
  pool : ThreadPool
  workers : ℕ → Worker
  accepted : List Task
  taken : List Task
  joining : Bool
  freed : Bool

namespace System

def start (threadCount queueSize : ℕ) (queue : ℤ → Task) : System :=
  ⟨threadpoolCreate threadCount queueSize queue, fun _ => .idle, [], [], false, false⟩

def add (s : System) (task : Task) (answers : Answers) : System :=
  let pool := (threadpoolAdd s.pool task answers).2
  { s with
    pool := pool
    accepted := if s.pool.count < pool.count then s.accepted ++ [task] else s.accepted }

def destroy (s : System) (graceful : Bool) (answers : Answers) : System :=
  let result := threadpoolDestroy s.pool graceful answers
  { s with pool := result.2, joining := s.joining || result.1 = 0 }

def work (s : System) (w : ℕ) : System :=
  let result := threadpoolThread s.pool
  { s with
    pool := result.2
    workers := Function.update s.workers w result.1
    taken := match result.1 with
      | .running task => s.taken ++ [task]
      | _ => s.taken }

end System

/-- A caller adds or destroys, a worker comes to the mutex (at the top of its loop, or woken up at
any time), or a worker comes back from its task. -/
inductive Step : System → System → Prop
  | add {s : System} (task : Task) (answers : Answers) : s.freed = false → s.pool.locked = false →
      Step s (s.add task answers)
  | destroy {s : System} (graceful : Bool) (answers : Answers) : s.freed = false →
      s.pool.locked = false → Step s (s.destroy graceful answers)
  | work {s : System} {w : ℕ} : w < s.pool.threadCount → s.workers w = .idle ∨ s.workers w = .waiting →
      s.pool.locked = false → Step s (s.work w)
  | finish {s : System} {w : ℕ} {task : Task} : w < s.pool.threadCount →
      s.workers w = .running task →
      Step s { s with workers := Function.update s.workers w .idle }
  | joined {s : System} (join : Bool) : s.joining = true →
      (∀ w < s.pool.threadCount, s.workers w = .left) →
      Step s { s with freed := join && s.pool.threadpoolFree, joining := false }

def Reachable (threadCount queueSize : ℕ) (queue : ℤ → Task) (s : System) : Prop :=
  Relation.ReflTransGen Step (.start threadCount queueSize queue) s

structure System.Holds (s : System) : Prop where
  count : 0 ≤ s.pool.count ∧ s.pool.count ≤ s.pool.queueSize
  tail : s.pool.tail = (s.pool.head + s.pool.count) % s.pool.queueSize
  -- The task taken as the k-th is the one accepted as the k-th.
  order : s.taken <+: s.accepted
  once : s.taken.length + s.pool.count = s.accepted.length
  graceful : s.pool.shutdown = some .graceful → ∀ w, s.workers w = .left → s.taken = s.accepted
  answered : ∀ task answers, (threadpoolAdd s.pool task answers).1 = 0 →
    (s.add task answers).accepted = s.accepted ++ [task]
  refused : ∀ task answers,
    (threadpoolAdd s.pool task answers).1 ∈ [threadpoolInvalid, threadpoolQueueFull, threadpoolShutdown] →
    (s.add task answers).accepted = s.accepted ∧ (s.add task answers).pool = s.pool

structure System.Inv (s : System) : Prop where
  count_nonneg : 0 ≤ s.pool.count
  count_le : s.pool.count ≤ s.pool.queueSize
  head_nonneg : 0 ≤ s.pool.head
  head_lt : s.pool.head < s.pool.queueSize ∨ s.pool.head = 0
  tail : s.pool.tail = (s.pool.head + s.pool.count) % s.pool.queueSize
  accepted : s.accepted
    = s.taken ++ contents s.pool.queue s.pool.queueSize s.pool.head s.pool.count.toNat
  left : ∀ w, s.workers w = .left → s.pool.shutdown = some .immediate
    ∨ s.pool.shutdown = some .graceful ∧ s.pool.count = 0

namespace ThreadPool

variable (pool : ThreadPool) (task : Task) (answers : Answers)

lemma add_cases : ((threadpoolAdd pool task answers).1 ≠ 0 ∧ (threadpoolAdd pool task answers).2 = pool)
    ∨ ((threadpoolAdd pool task answers).1 = threadpoolLockFailure
      ∧ (threadpoolAdd pool task answers).2 = { pool with locked := true })
    ∨ pool.count ≠ pool.queueSize ∧ pool.shutdown = none
      ∧ ((threadpoolAdd pool task answers).1 = 0
        ∨ (threadpoolAdd pool task answers).1 = threadpoolLockFailure)
      ∧ ∃ locked, (threadpoolAdd pool task answers).2 = { pool with
          locked := locked
          queue := Function.update pool.queue pool.tail task
          tail := next pool.queueSize pool.tail
          count := pool.count + 1 } := by
  rw [threadpoolAdd]
  split
  · exact .inl ⟨by simp [threadpoolInvalid], rfl⟩
  split
  · exact .inl ⟨by simp [threadpoolLockFailure], rfl⟩
  by_cases hfull : pool.count = pool.queueSize
  · rw [enqueue, if_pos hfull]
    cases answers.unlock
    · exact .inr (.inl ⟨rfl, rfl⟩)
    · exact .inl ⟨by simp [threadpoolQueueFull], rfl⟩
  by_cases hshut : pool.shutdown = none
  · rw [enqueue, if_neg hfull, if_neg (not_not_intro hshut)]
    refine .inr (.inr ⟨hfull, hshut, ?_⟩)
    cases answers.unlock
    · exact ⟨.inr rfl, true, rfl⟩
    · refine ⟨?_, pool.locked, rfl⟩
      cases answers.notify
      · exact .inr rfl
      · exact .inl rfl
  · rw [enqueue, if_neg hfull, if_pos hshut]
    cases answers.unlock
    · exact .inr (.inl ⟨rfl, rfl⟩)
    · exact .inl ⟨by simp [threadpoolShutdown], rfl⟩

lemma add_answered (h : (threadpoolAdd pool task answers).1 = 0) :
    (threadpoolAdd pool task answers).2.count = pool.count + 1 := by
  rcases add_cases pool task answers with ⟨hne, -⟩ | ⟨hfailure, -⟩ | ⟨-, -, -, locked, hput⟩
  · exact absurd h hne
  · exact absurd (h.symm.trans hfailure) (by decide)
  · rw [hput]

lemma add_refused (h : (threadpoolAdd pool task answers).1
    ∈ [threadpoolInvalid, threadpoolQueueFull, threadpoolShutdown]) :
    (threadpoolAdd pool task answers).2 = pool := by
  rcases add_cases pool task answers with ⟨-, hsame⟩ | ⟨hfailure, -⟩ | ⟨-, -, hput | hput, -⟩
  · exact hsame
  · exact absurd (hfailure ▸ h) (by decide)
  · exact absurd (hput ▸ h) (by decide)
  · exact absurd (hput ▸ h) (by decide)

lemma destroy_cases (graceful : Bool) : (threadpoolDestroy pool graceful answers).2 = pool
    ∨ (threadpoolDestroy pool graceful answers).2 = { pool with locked := true }
    ∨ pool.shutdown = none ∧ ∃ locked mode, (threadpoolDestroy pool graceful answers).2
      = { pool with locked := locked, shutdown := some mode } := by
  rw [threadpoolDestroy]
  split
  · exact .inl rfl
  by_cases hshut : pool.shutdown = none
  · rw [if_neg (not_not_intro hshut)]
    refine .inr (.inr ⟨hshut, ?_⟩)
    dsimp only
    split
    · exact ⟨_, _, rfl⟩
    · exact ⟨true, _, rfl⟩
  · rw [if_pos hshut]
    exact .inr (.inl rfl)

lemma thread_cases : (threadpoolThread pool = (.waiting, pool))
    ∨ (pool.shutdown = some .immediate ∨ pool.shutdown = some .graceful ∧ pool.count = 0)
      ∧ threadpoolThread pool = (.left, { pool with started := pool.started - 1 })
    ∨ pool.count ≠ 0 ∧ threadpoolThread pool = (.running (pool.queue pool.head), { pool with
        head := next pool.queueSize pool.head
        count := pool.count - 1 }) := by
  rw [threadpoolThread]
  split
  · exact .inl rfl
  rename_i hwait
  split
  · rename_i hleft
    exact .inr (.inl ⟨hleft, rfl⟩)
  · rename_i hleft
    refine .inr (.inr ⟨fun hzero => ?_, rfl⟩)
    cases hshut : pool.shutdown with
    | none => exact hwait ⟨hzero, hshut⟩
    | some mode =>
      cases mode with
      | immediate => exact hleft (.inl hshut)
      | graceful => exact hleft (.inr ⟨hshut, hzero⟩)

end ThreadPool

namespace System.Inv

variable {s : System}

lemma start (threadCount queueSize : ℕ) (queue : ℤ → Task) :
    (System.start threadCount queueSize queue).Inv :=
  ⟨le_rfl, Int.natCast_nonneg _, le_rfl, .inr rfl, rfl, rfl, fun _ h => Worker.noConfusion h⟩

lemma congr {t : System} (h : s.Inv) (locked : Bool) (started : ℤ)
    (hpool : t.pool = { s.pool with locked := locked, started := started })
    (hworkers : ∀ w, t.workers w = .left → s.workers w = .left) (haccepted : t.accepted = s.accepted)
    (htaken : t.taken = s.taken) : t.Inv := by
  constructor <;> simp only [hpool, haccepted, htaken]
  · exact h.count_nonneg
  · exact h.count_le
  · exact h.head_nonneg
  · exact h.head_lt
  · exact h.tail
  · exact h.accepted
  · exact fun w hw => h.left w (hworkers w hw)

lemma head_lt_of_ne (h : s.Inv) (hne : s.pool.count ≠ s.pool.queueSize) :
    s.pool.head < s.pool.queueSize := by
  have := h.count_nonneg
  have := h.count_le
  rcases h.head_lt with hlt | hzero
  · exact hlt
  · omega

lemma add (h : s.Inv) (task : Task) (answers : Answers) : (s.add task answers).Inv := by
  have hnonneg := h.count_nonneg
  have hle := h.count_le
  rcases add_cases s.pool task answers with
    ⟨-, hsame⟩ | ⟨-, hlocked⟩ | ⟨hfull, hshut, -, locked, hput⟩
  · refine h.congr s.pool.locked s.pool.started hsame (fun w hw => hw) ?_ rfl
    rw [System.add, hsame]
    exact if_neg (lt_irrefl _)
  · refine h.congr true s.pool.started hlocked (fun w hw => hw) ?_ rfl
    rw [System.add, hlocked]
    exact if_neg (lt_irrefl _)
  · have hhead := h.head_lt_of_ne hfull
    have hcount : ((s.pool.count.toNat : ℕ) : ℤ) = s.pool.count := Int.toNat_of_nonneg hnonneg
    rw [System.add, hput]
    refine ⟨?_, ?_, h.head_nonneg, h.head_lt, ?_, ?_, ?_⟩
    · exact Int.add_nonneg hnonneg Int.one_nonneg
    · exact Int.add_one_le_of_lt (lt_of_le_of_ne hle hfull)
    · simp only [h.tail]
      rw [next_emod (hnonneg.trans_lt (lt_of_le_of_ne hle hfull)), add_assoc]
    · have hnat : (s.pool.count + 1).toNat = s.pool.count.toNat + 1 := by omega
      have hlt : ((s.pool.count.toNat : ℕ) : ℤ) < s.pool.queueSize := by omega
      simp only [if_pos (Int.lt_succ s.pool.count), hnat, h.tail]
      rw [← hcount, Int.toNat_natCast, contents_put s.pool.queue hlt task, h.accepted,
        List.append_assoc]
    · intro w hw
      rcases h.left w hw with himm | ⟨hgr, -⟩
      · exact absurd (hshut.symm.trans himm) nofun
      · exact absurd (hshut.symm.trans hgr) nofun

lemma destroy (h : s.Inv) (graceful : Bool) (answers : Answers) :
    (s.destroy graceful answers).Inv := by
  rcases destroy_cases s.pool answers graceful with hsame | hlocked | ⟨hshut, locked, mode, hset⟩
  · exact h.congr s.pool.locked s.pool.started hsame (fun w hw => hw) rfl rfl
  · exact h.congr true s.pool.started hlocked (fun w hw => hw) rfl rfl
  · rw [System.destroy, hset]
    refine ⟨h.count_nonneg, h.count_le, h.head_nonneg, h.head_lt, h.tail, h.accepted, ?_⟩
    intro w hw
    rcases h.left w hw with himm | ⟨hgr, -⟩
    · exact absurd (hshut.symm.trans himm) nofun
    · exact absurd (hshut.symm.trans hgr) nofun

lemma left_of_work {w v : ℕ} {worker : Worker}
    (hv : Function.update s.workers w worker v = .left) : worker = .left ∨ s.workers v = .left := by
  by_cases hvw : v = w
  · subst hvw
    rw [Function.update_self] at hv
    exact .inl hv
  · rw [Function.update_of_ne hvw] at hv
    exact .inr hv

lemma work (h : s.Inv) (w : ℕ) : (s.work w).Inv := by
  have hnonneg := h.count_nonneg
  have hle := h.count_le
  rw [System.work]
  rcases thread_cases s.pool with hwait | ⟨hleft, hleave⟩ | ⟨hcount, htake⟩
  · rw [hwait]
    refine h.congr s.pool.locked s.pool.started rfl (fun v hv => ?_) rfl rfl
    exact (left_of_work hv).resolve_left nofun
  · rw [hleave]
    refine ⟨hnonneg, hle, h.head_nonneg, h.head_lt, h.tail, h.accepted, fun v hv => hleft⟩
  · have hlt := lt_of_le_of_ne hnonneg hcount.symm
    have hhead : s.pool.head < s.pool.queueSize := by
      rcases h.head_lt with hlt | hzero <;> omega
    obtain ⟨hnext, hnext_lt⟩ := next_bounds h.head_nonneg hhead
    have hnat : s.pool.count.toNat = (s.pool.count - 1).toNat + 1 := by omega
    rw [htake]
    refine ⟨Int.sub_nonneg_of_le hlt, (sub_le_self _ Int.one_nonneg).trans hle, hnext, .inl hnext_lt,
      ?_, ?_, fun v hv => ?_⟩
    · simp only [h.tail]
      rw [next_eq h.head_nonneg hhead, Int.emod_add_emod, add_add_sub_cancel]
    · simp only [h.accepted, hnat]
      rw [contents_take _ h.head_nonneg hhead, List.append_assoc]
      rfl
    · rcases h.left v ((left_of_work hv).resolve_left nofun) with himm | ⟨hgr, hzero⟩
      · exact .inl himm
      · exact absurd hzero hcount

lemma step {t : System} (h : s.Inv) (hstep : Step s t) : t.Inv := by
  cases hstep with
  | add task answers _ _ => exact h.add task answers
  | destroy graceful answers _ _ => exact h.destroy graceful answers
  | work _ _ _ => exact h.work _
  | finish _ _ =>
    exact h.congr s.pool.locked s.pool.started rfl
      (fun v hv => (left_of_work hv).resolve_left nofun) rfl rfl
  | joined join _ _ => exact h.congr s.pool.locked s.pool.started rfl (fun v hv => hv) rfl rfl

lemma reachable {threadCount queueSize : ℕ} {queue : ℤ → Task}
    (h : Reachable threadCount queueSize queue s) : s.Inv := by
  induction h with
  | refl => exact start threadCount queueSize queue
  | tail _ hstep ih => exact ih.step hstep

lemma holds (h : s.Inv) : s.Holds := by
  have hlength := congrArg List.length h.accepted
  rw [List.length_append, length_contents] at hlength
  have hnonneg := h.count_nonneg
  refine ⟨⟨hnonneg, h.count_le⟩, h.tail, ⟨_, h.accepted.symm⟩, by omega, fun hgr w hw => ?_,
    fun task answers hanswer => ?_, fun task answers hanswer => ?_⟩
  · rcases h.left w hw with himm | ⟨-, hzero⟩
    · exact absurd (hgr.symm.trans himm) nofun
    · rw [h.accepted, hzero]
      exact (List.append_nil _).symm
  · rw [System.add, add_answered s.pool task answers hanswer]
    exact if_pos (Int.lt_succ _)
  · rw [System.add, add_refused s.pool task answers hanswer]
    exact ⟨if_neg (lt_irrefl _), rfl⟩

end System.Inv

theorem threadPool_holds {threadCount queueSize : ℕ} {queue : ℤ → Task} {s : System}
    (h : Reachable threadCount queueSize queue s) : s.Holds :=
  (System.Inv.reachable h).holds

theorem threadPool_holds_taken :
    let ok : Answers := ⟨true, true, true⟩
    let s := ((((System.start 1 2 fun _ => ⟨0, 0⟩).add ⟨1, 7⟩ ok).add ⟨1, 8⟩ ok).add ⟨1, 9⟩ ok).work 0
    s.Holds ∧ s.accepted = [⟨1, 7⟩, ⟨1, 8⟩] ∧ s.taken = [⟨1, 7⟩] ∧ s.workers 0 = .running ⟨1, 7⟩ :=
  ⟨threadPool_holds (.tail (.tail (.tail (.tail .refl (.add _ _ rfl rfl)) (.add _ _ rfl rfl))
    (.add _ _ rfl rfl)) (.work (by decide) (.inl rfl) (by decide))), by decide, by decide, by decide⟩

end SimpleCode.Event
