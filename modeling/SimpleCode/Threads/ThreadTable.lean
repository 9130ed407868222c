import SimpleCode.Threads.ThreadTask

set_option autoImplicit false

namespace SimpleCode.Threads

open Foundations ThreadTask

inductive Call
  | createCommon (threadName : Bytes) (outcome : Outcome)
  | createAdvanced (threadName : Bytes) (outcome : Outcome)
  | show
deriving DecidableEq

/-- The table, with the threads that were really created, in order. -/
structure Pool where
  task : ThreadTask
  created : List Created

structure Answer where
  result : ℤ
  shown : List Slot

namespace Pool

def start (mutexCreated : Bool) : Pool := ⟨ThreadTask.zero.threadTaskInit mutexCreated, []⟩

def create (p : Pool) (call : Comp Undefined (ℤ × ThreadTask × Option Created)) :
    Comp Undefined (Answer × Pool) := do
  let (result, task, thread) ← call
  return (⟨result, []⟩, ⟨task, p.created ++ thread.toList⟩)

def step (p : Pool) : Call → Comp Undefined (Answer × Pool)
  | .createCommon threadName outcome =>
    p.create (p.task.threadTaskCreateCommon threadName outcome)
  | .createAdvanced threadName outcome =>
    p.create (p.task.threadTaskCreateAdvanced threadName outcome)
  | .show => do
    let (result, task, shown) ← p.task.threadPoolShow
    return (⟨result, shown⟩, ⟨task, p.created⟩)

def slots (p : Pool) : List Slot := p.created.map fun thread => ⟨thread.threadNo, thread.threadName⟩

def Describes (p : Pool) : Prop :=
  p.task.gThreadsPool.toList.take p.task.gThreadIndex = p.slots

/-- What is asked of one call: it returns, the table describes the threads, a failure changes neither
the table nor the index, and the listing shows the created threads and nothing else. -/
def CallHolds (p : Pool) (call : Call) : Prop :=
  ∃ answer q, (p.step call).Returns (answer, q) ∧ q.Describes ∧
    match call with
    | .show => answer.shown = p.slots
    | _ => answer.result ≠ 0 → q.task.gThreadsPool = p.task.gThreadsPool ∧
        q.task.gThreadIndex = p.task.gThreadIndex

def RunHolds (p : Pool) : List Call → Prop
  | [] => p.Describes
  | call :: calls => p.CallHolds call ∧
      ∀ answer q, (p.step call).Returns (answer, q) → q.RunHolds calls

def CallOk (p : Pool) : Call → Prop
  | .createCommon threadName outcome | .createAdvanced threadName outcome =>
    p.task.gThreadMutex ≠ .null → p.task.gThreadIndex < threadTaskNumberMax →
      (∃ threadNo, outcome = .created threadNo) ∧ threadName.length < threadNameLength
  | .show => p.task.gThreadMutex ≠ .null → p.task.gThreadIndex = 0

def RunOk (p : Pool) : List Call → Prop
  | [] => True
  | call :: calls => p.CallOk call ∧ ∀ answer q, (p.step call).Returns (answer, q) → q.RunOk calls

structure Ready (p : Pool) : Prop where
  describes : p.Describes
  index_le : p.task.gThreadIndex ≤ threadTaskNumberMax
  unlocked : p.task.gThreadMutex ≠ .locked
  uninitialised : p.task.gThreadMutex = .null → p.task.gThreadIndex = 0

end Pool

namespace ThreadTask

variable {s : ThreadTask} {attr : Attr} {threadName : Bytes} {outcome : Outcome}
  {threadNo : UInt64}

lemma create_null (h : s.gThreadMutex = .null) :
    threadTaskCreate attr s threadName outcome = pure (-1, s, none) := by
  simp [threadTaskCreate, h]

lemma create_full (h : s.gThreadMutex = .free) (hi : ¬ s.gThreadIndex < threadTaskNumberMax) :
    threadTaskCreate attr s threadName outcome = pure (-1, s, none) := by
  obtain ⟨pool, mutex, index⟩ := s
  obtain rfl : mutex = .free := h
  simp only at hi
  simp [threadTaskCreate, hi, threadMutexLock, threadMutexUnLock]

lemma create_failed (h : s.gThreadMutex = .free) (hi : s.gThreadIndex < threadTaskNumberMax) :
    threadTaskCreate attr s threadName (.failed threadNo) = pure (-1, { s with
      gThreadsPool := s.gThreadsPool.set s.gThreadIndex
        { s.gThreadsPool.get ⟨s.gThreadIndex, hi⟩ with threadNo } hi
      gThreadIndex := s.gThreadIndex + 1 }, none) := by
  simp [threadTaskCreate, h, hi, threadMutexLock, threadMutexUnLock]

lemma create_created (h : s.gThreadMutex = .free) (hi : s.gThreadIndex < threadTaskNumberMax)
    (hn : threadName.length < threadNameLength) :
    threadTaskCreate attr s threadName (.created threadNo) = pure (0, { s with
      gThreadsPool := s.gThreadsPool.set s.gThreadIndex { threadNo, threadName } hi
      gThreadIndex := s.gThreadIndex + 1 }, some { threadNo, threadName, attr }) := by
  simp [threadTaskCreate, h, hi, hn, threadMutexLock, threadMutexUnLock]

lemma create_overflow (h : s.gThreadMutex = .free) (hi : s.gThreadIndex < threadTaskNumberMax)
    (hn : ¬ threadName.length < threadNameLength) :
    threadTaskCreate attr s threadName (.created threadNo) = Comp.ofExcept (.error .overflow) := by
  simp [threadTaskCreate, h, hi, hn, threadMutexLock]

lemma show_null (h : s.gThreadMutex = .null) : s.threadPoolShow = pure (-1, s, []) := by
  simp [threadPoolShow, h]

lemma show_refused (h : s.gThreadMutex = .free)
    (hi : s.gThreadIndex ≥ threadTaskNumberMax ∨ s.gThreadIndex = 0) :
    s.threadPoolShow = pure (-1, s, []) := by
  obtain ⟨pool, mutex, index⟩ := s
  obtain rfl : mutex = .free := h
  simp only at hi
  simp [threadPoolShow, hi, threadMutexLock, threadMutexUnLock]

lemma show_listed (h : s.gThreadMutex = .free)
    (hi : ¬ (s.gThreadIndex ≥ threadTaskNumberMax ∨ s.gThreadIndex = 0)) :
    s.threadPoolShow = pure (0, s, s.gThreadsPool.toList.take (s.gThreadIndex + 1)) := by
  obtain ⟨pool, mutex, index⟩ := s
  obtain rfl : mutex = .free := h
  simp only at hi
  simp [threadPoolShow, hi, threadMutexLock, threadMutexUnLock]

end ThreadTask

namespace Pool

variable {p q : Pool} {attr : Attr} {threadName : Bytes} {outcome : Outcome} {answer : Answer}

lemma Ready.mutex (h : p.Ready) : p.task.gThreadMutex = .null ∨ p.task.gThreadMutex = .free := by
  have hu := h.unlocked
  cases hm : p.task.gThreadMutex with
  | null => exact .inl rfl
  | free => exact .inr rfl
  | locked => exact absurd hm hu

lemma slots_length (h : p.Ready) : p.created.length = p.task.gThreadIndex := by
  have hlen := congrArg List.length h.describes
  have hle := h.index_le
  simp only [slots, List.length_map, List.length_take, Vector.length_toList] at hlen
  omega

lemma start_ready (mutexCreated : Bool) : (start mutexCreated).Ready := by
  cases mutexCreated <;> exact ⟨rfl, by decide, by decide, fun _ => rfl⟩

lemma create_eq {call : Comp Undefined (ℤ × ThreadTask × Option Created)} {r : ℤ} {task : ThreadTask}
    {thread : Option Created} (h : call = pure (r, task, thread)) :
    p.create call = pure (⟨r, []⟩, ⟨task, p.created ++ thread.toList⟩) := by
  rw [create, h, pure_bind]

lemma create_refused {call : Comp Undefined (ℤ × ThreadTask × Option Created)} {r : ℤ}
    (h : call = pure (r, p.task, none)) : p.create call = pure (⟨r, []⟩, p) := by
  rw [create_eq h]
  simp

lemma describes_create (h : p.Ready) (hi : p.task.gThreadIndex < threadTaskNumberMax)
    (thread : Created) :
    Describes ⟨{ p.task with
      gThreadsPool := p.task.gThreadsPool.set p.task.gThreadIndex
        ⟨thread.threadNo, thread.threadName⟩ hi
      gThreadIndex := p.task.gThreadIndex + 1 }, p.created ++ [thread]⟩ := by
  have hd := h.describes
  unfold Describes slots at hd ⊢
  simp only [Vector.toList_set, List.map_append, List.map_cons, List.map_nil]
  rw [← hd, List.take_succ_eq_append_getElem (by simpa using hi), List.take_set_of_le le_rfl,
    List.getElem_set_self]

lemma create_ok (h : p.Ready) (hok : p.task.gThreadMutex ≠ .null →
    p.task.gThreadIndex < threadTaskNumberMax →
    (∃ threadNo, outcome = .created threadNo) ∧ threadName.length < threadNameLength) :
    ∃ answer q, (p.create (threadTaskCreate attr p.task threadName outcome)).Returns (answer, q) ∧
      q.Ready ∧ (answer.result ≠ 0 → q = p) := by
  obtain hm | hm := h.mutex
  · rw [create_refused (create_null hm)]
    exact ⟨_, p, Comp.yields_pure.mpr rfl, h, fun _ => rfl⟩
  · by_cases hi : p.task.gThreadIndex < threadTaskNumberMax
    · obtain ⟨⟨threadNo, rfl⟩, hn⟩ := hok (by simp [hm]) hi
      rw [create_eq (create_created hm hi hn)]
      exact ⟨_, _, Comp.yields_pure.mpr rfl, ⟨describes_create h hi ⟨threadNo, threadName, attr⟩, hi,
        h.unlocked, fun hnull => by simp [hm] at hnull⟩, fun hne => absurd rfl hne⟩
    · rw [create_refused (create_full hm hi)]
      exact ⟨_, p, Comp.yields_pure.mpr rfl, h, fun _ => rfl⟩

lemma create_bad (h : p.Ready) (hm : p.task.gThreadMutex ≠ .null)
    (hi : p.task.gThreadIndex < threadTaskNumberMax)
    (hbad : ¬ ((∃ threadNo, outcome = .created threadNo) ∧ threadName.length < threadNameLength))
    (hret : (p.create (threadTaskCreate attr p.task threadName outcome)).Returns (answer, q)) :
    answer.result ≠ 0 ∧ q.task.gThreadIndex ≠ p.task.gThreadIndex := by
  have hfree := h.mutex.resolve_left hm
  cases outcome with
  | failed threadNo =>
    rw [create_eq (create_failed hfree hi)] at hret
    obtain ⟨rfl, rfl⟩ := Prod.mk.inj (Except.ok.inj (Comp.yields_pure.mp hret))
    simp
  | created threadNo =>
    have hn : ¬ threadName.length < threadNameLength := fun hn => hbad ⟨⟨threadNo, rfl⟩, hn⟩
    rw [create, create_overflow hfree hi hn] at hret
    obtain ⟨a, ha, -⟩ := Comp.returns_bind.mp hret
    cases Comp.yields_ofExcept.mp ha

lemma show_eq {r : ℤ} {shown : List Slot} (h : p.task.threadPoolShow = pure (r, p.task, shown)) :
    p.step .show = pure (⟨r, shown⟩, p) := by
  rw [step, h, pure_bind]

lemma show_ok (h : p.Ready) (hi : p.task.gThreadIndex = 0) :
    ∃ answer, (p.step .show).Returns (answer, p) ∧ answer.shown = p.slots := by
  have hslots : [] = p.slots := by
    have hlen := slots_length h
    rw [hi, List.length_eq_zero_iff] at hlen
    rw [slots, hlen, List.map_nil]
  obtain hm | hm := h.mutex
  · rw [show_eq (show_null hm)]
    exact ⟨_, Comp.yields_pure.mpr rfl, hslots⟩
  · rw [show_eq (show_refused hm (.inr hi))]
    exact ⟨_, Comp.yields_pure.mpr rfl, hslots⟩

lemma show_bad (h : p.Ready) (hm : p.task.gThreadMutex ≠ .null) (hi : p.task.gThreadIndex ≠ 0)
    (hret : (p.step .show).Returns (answer, q)) : answer.shown ≠ p.slots := by
  have hfree := h.mutex.resolve_left hm
  have hlen := slots_length h
  have hle := h.index_le
  intro hshown
  replace hshown := congrArg List.length hshown
  simp only [slots, List.length_map, hlen] at hshown
  by_cases hfull : p.task.gThreadIndex ≥ threadTaskNumberMax ∨ p.task.gThreadIndex = 0
  · rw [show_eq (show_refused hfree hfull)] at hret
    obtain ⟨rfl, rfl⟩ := Prod.mk.inj (Except.ok.inj (Comp.yields_pure.mp hret))
    simp only [List.length_nil] at hshown
    omega
  · rw [show_eq (show_listed hfree hfull)] at hret
    obtain ⟨rfl, rfl⟩ := Prod.mk.inj (Except.ok.inj (Comp.yields_pure.mp hret))
    simp only [List.length_take, Vector.length_toList] at hshown
    omega

lemma callHolds_of_ok (h : p.Ready) {call : Call} (hok : p.CallOk call) :
    p.CallHolds call ∧ ∀ answer q, (p.step call).Returns (answer, q) → q.Ready := by
  cases call with
  | createCommon threadName outcome =>
    obtain ⟨answer, q, hret, hq, hsame⟩ := create_ok h hok
    refine ⟨⟨answer, q, hret, hq.describes, fun hne => by rw [hsame hne]; exact ⟨rfl, rfl⟩⟩, ?_⟩
    intro answer' q' hret'
    obtain ⟨-, rfl⟩ := Prod.mk.inj (Comp.Returns.unique hret hret')
    exact hq
  | createAdvanced threadName outcome =>
    obtain ⟨answer, q, hret, hq, hsame⟩ := create_ok h hok
    refine ⟨⟨answer, q, hret, hq.describes, fun hne => by rw [hsame hne]; exact ⟨rfl, rfl⟩⟩, ?_⟩
    intro answer' q' hret'
    obtain ⟨-, rfl⟩ := Prod.mk.inj (Comp.Returns.unique hret hret')
    exact hq
  | «show» =>
    have hi : p.task.gThreadIndex = 0 := by
      by_cases hm : p.task.gThreadMutex = .null
      · exact h.uninitialised hm
      · exact hok hm
    obtain ⟨answer, hret, hshown⟩ := show_ok h hi
    refine ⟨⟨answer, p, hret, h.describes, hshown⟩, ?_⟩
    intro answer' q' hret'
    obtain ⟨-, rfl⟩ := Prod.mk.inj (Comp.Returns.unique hret hret')
    exact h

lemma callOk_of_holds (h : p.Ready) {call : Call} (hcall : p.CallHolds call) : p.CallOk call := by
  obtain ⟨answer, q, hret, -, hprop⟩ := hcall
  cases call with
  | createCommon threadName outcome =>
    intro hm hi
    by_contra hbad
    obtain ⟨hne, hindex⟩ := create_bad h hm hi hbad hret
    exact hindex (hprop hne).2
  | createAdvanced threadName outcome =>
    intro hm hi
    by_contra hbad
    obtain ⟨hne, hindex⟩ := create_bad h hm hi hbad hret
    exact hindex (hprop hne).2
  | «show» =>
    intro hm
    by_contra hi
    exact show_bad h hm hi hret hprop

theorem runHolds_iff_of_ready (h : p.Ready) (calls : List Call) : p.RunHolds calls ↔ p.RunOk calls := by
  induction calls generalizing p with
  | nil => exact iff_of_true h.describes trivial
  | cons call calls ih =>
    constructor
    · rintro ⟨hcall, hrest⟩
      have hok := callOk_of_holds h hcall
      have hready := (callHolds_of_ok h hok).2
      exact ⟨hok, fun answer q hret => (ih (hready answer q hret)).mp (hrest answer q hret)⟩
    · rintro ⟨hok, hrest⟩
      obtain ⟨hcall, hready⟩ := callHolds_of_ok h hok
      exact ⟨hcall, fun answer q hret => (ih (hready answer q hret)).mpr (hrest answer q hret)⟩

/-- A run keeps the table right exactly if no creation with a free slot fails or has too long a name
and the listing is only asked for while there are no threads. -/
theorem runHolds_iff (mutexCreated : Bool) (calls : List Call) :
    (start mutexCreated).RunHolds calls ↔ (start mutexCreated).RunOk calls :=
  runHolds_iff_of_ready (start_ready mutexCreated) calls

/-- The listing of one thread shows the empty slot behind it. -/
theorem runHolds_show :
    ¬ ∀ (mutexCreated : Bool) (calls : List Call), (start mutexCreated).RunHolds calls := by
  intro h
  have hrun := h true [.createCommon (bytes "a") (.created 1), .show]
  have hok := (runHolds_iff_of_ready (start_ready true) _).mp hrun
  have hcreate : threadTaskCreate .default (start true).task (bytes "a") (.created 1) = _ :=
    create_created rfl (by decide) (by decide)
  obtain ⟨⟨answer, q, hq, -⟩, -⟩ := hrun
  have hshow := (hok.2 answer q hq).1
  rw [step, threadTaskCreateCommon, create_eq hcreate] at hq
  obtain ⟨-, rfl⟩ := Prod.mk.inj (Except.ok.inj (Comp.yields_pure.mp hq))
  exact absurd (hshow (by decide)) (by decide)

end Pool

end SimpleCode.Threads
