import SimpleCode.KeepingSettingModify.ModifyRecord

set_option autoImplicit false

namespace SimpleCode.KeepingSettingModify

open Foundations Foundations.Bytes Threads

inductive Output
  | formatingParamItemOutput (sensitive : List Bytes)
  | resetModifyRecordOutput

structure OutputCall where
  output : Output
  fopen : Bool

namespace MappingSettingModifyRecord

def output (s : MappingSettingModifyRecord) (call : OutputCall) :
    Comp OutOfRange MappingSettingModifyRecord :=
  match call.output with
  | .formatingParamItemOutput sensitive => do
    let (_, s, _) ← s.formatingParamItemOutput sensitive call.fopen
    return s
  | .resetModifyRecordOutput => do
    let (_, s, _) ← s.resetModifyRecordOutput call.fopen
    return s

def runOutput (s : MappingSettingModifyRecord) (calls : List OutputCall) :
    Comp OutOfRange MappingSettingModifyRecord :=
  calls.foldlM output s

/-- Every call returns and leaves the mutex as other callers need it. -/
def NeverLocked (s : MappingSettingModifyRecord) (calls : List OutputCall) : Prop :=
  ∀ done, done <+: calls → ∃ t, (s.runOutput done).Returns t ∧ t.mutex ≠ .locked

def mutexAfter (mutex : ThreadMutex) (fopen : Bool) : ThreadMutex :=
  match mutex with
  | .null => .null
  | _ => if fopen then .free else .locked

lemma output_returns {s : MappingSettingModifyRecord} {call : OutputCall}
    (hs : s.mutex ≠ .locked) :
    (s.output call).Returns { s with mutex := mutexAfter s.mutex call.fopen } := by
  obtain ⟨output, fopen⟩ := call
  cases hm : s.mutex with
  | locked => exact absurd hm hs
  | null =>
    cases output <;> cases fopen <;>
      exact ⟨0, by simp [MappingSettingModifyRecord.output, formatingParamItemOutput,
        resetModifyRecordOutput, hm, threadMutexLock, threadMutexUnLock, mutexAfter]⟩
  | free =>
    cases output <;> cases fopen <;>
      exact ⟨0, by simp [MappingSettingModifyRecord.output, formatingParamItemOutput,
        resetModifyRecordOutput, hm, threadMutexLock, threadMutexUnLock, mutexAfter]⟩

lemma mutexAfter_ne_locked {mutex : ThreadMutex} {fopen : Bool} :
    mutexAfter mutex fopen ≠ .locked ↔ mutex = .null ∨ fopen = true := by
  cases mutex <;> cases fopen <;> simp [mutexAfter]

lemma mutexAfter_eq_null {mutex : ThreadMutex} {fopen : Bool} :
    mutexAfter mutex fopen = .null ↔ mutex = .null := by
  cases mutex <;> cases fopen <;> simp [mutexAfter]

lemma neverLocked_cons {s : MappingSettingModifyRecord} {call : OutputCall}
    {calls : List OutputCall} (hs : s.mutex ≠ .locked) :
    s.NeverLocked (call :: calls) ↔
      NeverLocked { s with mutex := mutexAfter s.mutex call.fopen } calls := by
  have hcall : (s.output call).Returns { s with mutex := mutexAfter s.mutex call.fopen } :=
    output_returns hs
  have hrun (done : List OutputCall) (t : MappingSettingModifyRecord) :
      (s.runOutput (call :: done)).Returns t ↔
        (runOutput { s with mutex := mutexAfter s.mutex call.fopen } done).Returns t := by
    rw [runOutput, List.foldlM_cons, Comp.returns_bind]
    constructor
    · rintro ⟨u, hu, ht⟩
      exact hcall.unique hu ▸ ht
    · exact fun ht => ⟨_, hcall, ht⟩
  constructor
  · intro h done hdone
    obtain ⟨t, ht, hm⟩ := h (call :: done) (by simpa using hdone)
    exact ⟨t, (hrun done t).mp ht, hm⟩
  · intro h done hdone
    cases done with
    | nil => exact ⟨s, by simp [runOutput], hs⟩
    | cons c done =>
      obtain ⟨rfl, hrest⟩ := List.cons_prefix_cons.mp hdone
      obtain ⟨t, ht, hm⟩ := h done hrest
      exact ⟨t, (hrun done t).mpr ht, hm⟩

lemma NeverLocked.start {s : MappingSettingModifyRecord} {calls : List OutputCall}
    (h : s.NeverLocked calls) : s.mutex ≠ .locked := by
  obtain ⟨t, ht, hm⟩ := h [] List.nil_prefix
  obtain rfl : t = s := by simpa [runOutput, Comp.Returns] using ht
  exact hm

theorem neverLocked_iff {s : MappingSettingModifyRecord} {calls : List OutputCall}
    (hs : s.mutex ≠ .locked) :
    s.NeverLocked calls ↔ s.mutex = .null ∨ ∀ call ∈ calls, call.fopen = true := by
  induction calls generalizing s with
  | nil =>
    simp only [List.not_mem_nil, false_implies, implies_true, or_true, iff_true]
    intro done hdone
    obtain rfl := List.prefix_nil.mp hdone
    exact ⟨s, by simp [runOutput], hs⟩
  | cons call calls ih =>
    rw [neverLocked_cons hs]
    by_cases hnext : mutexAfter s.mutex call.fopen = .locked
    · have hopen : ¬ (s.mutex = .null ∨ call.fopen = true) :=
        fun h => mutexAfter_ne_locked.mpr h hnext
      constructor
      · exact fun h => absurd hnext h.start
      · intro h
        exact absurd (h.imp_right fun hall => hall call (by simp)) hopen
    · rw [ih hnext]
      have hopen := mutexAfter_ne_locked.mp hnext
      simp only [mutexAfter_eq_null, List.forall_mem_cons]
      tauto

theorem neverLocked_opened :
    (init true).NeverLocked
      [⟨.formatingParamItemOutput [], true⟩, ⟨.resetModifyRecordOutput, true⟩] :=
  (neverLocked_iff (by decide)).mpr (.inr (by decide))

theorem unopened_locks :
    ¬ (init true).NeverLocked [⟨.resetModifyRecordOutput, false⟩] := by
  intro h
  obtain ⟨t, ⟨n, hn⟩, hm⟩ := h [⟨.resetModifyRecordOutput, false⟩] List.prefix_rfl
  have ht : (runOutput (init true) [⟨.resetModifyRecordOutput, false⟩]).run n =
    some (.ok { init true with mutex := .locked }) := rfl
  rw [ht] at hn
  obtain rfl := Except.ok.inj (Option.some.inj hn)
  exact hm rfl

end MappingSettingModifyRecord

end SimpleCode.KeepingSettingModify
