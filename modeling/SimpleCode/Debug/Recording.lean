import SimpleCode.Debug.FunctionsStatistics
import SimpleCode.Foundations.Runs

set_option autoImplicit false

/-! When the recorder's stacks stay in step with the calls of the threads, over every interleaving
of calls, returns and the two assignments of `ShowStatistics`. -/

namespace SimpleCode.Debug.Statistics

open Foundations

structure Call where
  func : ℕ
  -- Whether the hook at its entry pushed an entry.
  recorded : Bool
deriving DecidableEq, Repr

structure World where
  recorder : Recorder
  calls : ℕ → List Call

inductive Event
  | enter (t func : ℕ) (now : ℤ)
  | exit (t func : ℕ) (now : ℤ)
  | disable
  | enable
deriving DecidableEq

namespace World

def initial (threshold : ℤ) : World := ⟨.initial threshold, fun _ => []⟩

-- After `exit(0)` nothing happens any more, and an exit is possible for the innermost active
-- call of its thread only.
def step (w : World) (e : Event) : Option World :=
  if w.recorder.exited then none
  else
    match e with
    | .enter t func now =>
      some
        { recorder := w.recorder.enter t func now
          calls := Function.update w.calls t
            (⟨func, w.recorder.enableRecord && func != 0⟩ :: w.calls t) }
    | .exit t func now =>
      match w.calls t with
      | [] => none
      | call :: outer =>
        if call.func = func then
          some
            { recorder := w.recorder.exit t func now
              calls := Function.update w.calls t outer }
        else none
    | .disable => some { w with recorder := w.recorder.disable }
    | .enable => some { w with recorder := w.recorder.enable }

-- The flag is what it was when the call that returns was entered, or that call is not recorded
-- and its thread has no stack yet.
def Paired (w : World) : Event → Prop
  | .exit t _ _ => ∀ call ∈ (w.calls t).head?, call.func ≠ 0 →
      call.recorded = w.recorder.enableRecord ∨ call.recorded = false ∧ w.recorder.tls t = none
  | _ => True

def kept (calls : List Call) : List ℕ := (calls.filter Call.recorded).map Call.func

structure InStep (w : World) : Prop where
  running : w.recorder.exited = false
  callStacks : ∀ t, ((w.recorder.tls t).getD []).map Data.func = kept (w.calls t)
  named : ∀ t, ∀ call ∈ w.calls t, call.recorded = true → call.func ≠ 0

variable {w w' : World} {t func : ℕ} {now threshold : ℤ}

lemma inStep_initial : InStep (initial threshold) :=
  ⟨rfl, fun _ => rfl, fun _ _ h => absurd h List.not_mem_nil⟩

@[simp] lemma addResult_exited (r : Recorder) (tm : ℤ) :
    (r.addResult t func tm).exited = r.exited := by
  unfold Recorder.addResult
  split <;> rfl

@[simp] lemma addResult_tls (r : Recorder) (tm : ℤ) :
    (r.addResult t func tm).tls = r.tls := by
  unfold Recorder.addResult
  split <;> rfl

lemma step_enter (h : w.step (.enter t func now) = some w') :
    w' = { recorder := w.recorder.enter t func now
           calls := Function.update w.calls t
             (⟨func, w.recorder.enableRecord && func != 0⟩ :: w.calls t) } := by
  rw [step] at h
  split at h
  · exact absurd h nofun
  · exact (Option.some.inj h).symm

lemma step_exit (h : w.step (.exit t func now) = some w') :
    ∃ call outer, w.calls t = call :: outer ∧ call.func = func ∧
      w' = { recorder := w.recorder.exit t func now
             calls := Function.update w.calls t outer } := by
  rw [step] at h
  split at h
  · exact absurd h nofun
  · cases hcalls : w.calls t with
    | nil => simp [hcalls] at h
    | cons call outer =>
      simp only [hcalls] at h
      split at h
      · next hf => exact ⟨call, outer, rfl, hf, (Option.some.inj h).symm⟩
      · exact absurd h nofun

lemma inStep_enter (hw : InStep w) (h : w.step (.enter t func now) = some w') : InStep w' := by
  obtain rfl := step_enter h
  have hnamed : ∀ u, ∀ call ∈ Function.update w.calls t
      (⟨func, w.recorder.enableRecord && func != 0⟩ :: w.calls t) u,
      call.recorded = true → call.func ≠ 0 := by
    intro u call hcall hrec
    by_cases hut : u = t
    · subst hut
      rw [Function.update_self, List.mem_cons] at hcall
      rcases hcall with rfl | hcall
      · simp only [Bool.and_eq_true, bne_iff_ne] at hrec
        exact hrec.2
      · exact hw.named u call hcall hrec
    · rw [Function.update_of_ne hut] at hcall
      exact hw.named u call hcall hrec
  by_cases hpush : w.recorder.enableRecord = true ∧ func ≠ 0
  · have henter : w.recorder.enter t func now = { w.recorder with
        tls := Function.update w.recorder.tls t
          (some (((w.recorder.tls t).getD []).push func now)) } := by
      rw [Recorder.enter, if_neg hpush.2, if_pos hpush.1]
    refine ⟨by rw [henter]; exact hw.running, fun u => ?_, hnamed⟩
    by_cases hut : u = t
    · subst hut
      simp only [henter, Function.update_self, Option.getD_some, Stack.push, List.map_cons,
        hw.callStacks, kept, hpush.1, Bool.true_and, bne_iff_ne.mpr hpush.2, List.filter_cons_of_pos]
    · simp only [henter, Function.update_of_ne hut]
      exact hw.callStacks u
  · have henter : w.recorder.enter t func now = w.recorder := by
      rw [Recorder.enter]
      by_cases h0 : func = 0
      · rw [if_pos h0]
      · rw [if_neg h0, if_neg fun h => hpush ⟨h, h0⟩]
    have hskip : (w.recorder.enableRecord && func != 0) = false := by
      rw [Bool.eq_false_iff]
      intro h
      simp only [Bool.and_eq_true, bne_iff_ne] at h
      exact hpush h
    rw [henter]
    refine ⟨hw.running, fun u => ?_, hnamed⟩
    by_cases hut : u = t
    · subst hut
      simp only [Function.update_self, hskip, kept, Bool.false_eq_true, not_false_eq_true,
        List.filter_cons_of_neg]
      exact hw.callStacks u
    · simp only [Function.update_of_ne hut]
      exact hw.callStacks u

lemma exit_recorded (now : ℤ) (hw : InStep w) {call : Call} {outer : List Call}
    (hcalls : w.calls t = call :: outer) (hrec : call.recorded = true)
    (hflag : w.recorder.enableRecord = true) :
    (w.recorder.exit t call.func now).exited = false
      ∧ ∃ rest : Stack, rest.map Data.func = kept outer
        ∧ (w.recorder.exit t call.func now).tls
          = Function.update w.recorder.tls t (some rest) := by
  have hne : call.func ≠ 0 := hw.named t call (hcalls ▸ List.mem_cons_self) hrec
  have hstack := hw.callStacks t
  rw [hcalls, kept, List.filter_cons_of_pos hrec, List.map_cons] at hstack
  cases htls : w.recorder.tls t with
  | none =>
    rw [htls] at hstack
    exact absurd hstack nofun
  | some p =>
    cases p with
    | nil =>
      rw [htls] at hstack
      exact absurd hstack nofun
    | cons data rest =>
      rw [htls, Option.getD_some, List.map_cons, List.cons.injEq] at hstack
      have hexit : w.recorder.exit t call.func now = Recorder.addResult { w.recorder with
          tls := Function.update w.recorder.tls t (some rest) } t data.func (now - data.tm) := by
        simp only [Recorder.exit, if_neg hne, hflag, if_true, htls, Stack.pop, hstack.1, ne_eq,
          not_true_eq_false, if_false]
      rw [hexit, addResult_exited, addResult_tls]
      exact ⟨hw.running, rest, hstack.2, rfl⟩

lemma exit_skipped (h : func = 0 ∨ w.recorder.enableRecord = false ∨ w.recorder.tls t = none) :
    w.recorder.exit t func now = w.recorder := by
  rw [Recorder.exit]
  split
  · rfl
  · next h0 =>
    split
    · next hflag =>
      have : w.recorder.tls t = none := by simpa [h0, hflag] using h
      rw [this]
    · rfl

lemma inStep_exit (hw : InStep w) (hp : w.Paired (.exit t func now))
    (h : w.step (.exit t func now) = some w') : InStep w' := by
  obtain ⟨call, outer, hcalls, rfl, rfl⟩ := step_exit h
  have hnamed : ∀ u, ∀ c ∈ Function.update w.calls t outer u, c.recorded = true → c.func ≠ 0 := by
    intro u c hc
    by_cases hut : u = t
    · subst hut
      rw [Function.update_self] at hc
      exact hw.named u c (hcalls ▸ List.mem_cons_of_mem call hc)
    · rw [Function.update_of_ne hut] at hc
      exact hw.named u c hc
  have hpair := hp call (by rw [hcalls]; rfl)
  cases hrec : call.recorded with
  | true =>
    have hne : call.func ≠ 0 := hw.named t call (hcalls ▸ List.mem_cons_self) hrec
    have hflag : w.recorder.enableRecord = true := by
      rcases hpair hne with h | ⟨h, -⟩
      · exact h.symm.trans hrec
      · exact absurd (h.symm.trans hrec) nofun
    obtain ⟨hrun, rest, hrest, htls⟩ := exit_recorded now hw hcalls hrec hflag
    refine ⟨hrun, fun u => ?_, hnamed⟩
    simp only [htls]
    by_cases hut : u = t
    · subst hut
      rw [Function.update_self, Function.update_self]
      exact hrest
    · rw [Function.update_of_ne hut, Function.update_of_ne hut]
      exact hw.callStacks u
  | false =>
    have hskip : w.recorder.exit t call.func now = w.recorder := by
      apply exit_skipped
      by_cases hne : call.func = 0
      · exact .inl hne
      · rcases hpair hne with h | ⟨-, h⟩
        · exact .inr (.inl (h.symm.trans hrec))
        · exact .inr (.inr h)
    rw [hskip]
    refine ⟨hw.running, fun u => ?_, hnamed⟩
    by_cases hut : u = t
    · subst hut
      have hstack := hw.callStacks u
      rw [hcalls, kept, List.filter_cons_of_neg (Bool.eq_false_iff.mp hrec)] at hstack
      simp only [Function.update_self]
      exact hstack
    · simp only [Function.update_of_ne hut]
      exact hw.callStacks u

lemma inStep_step {e : Event} (hw : InStep w) (hp : w.Paired e) (h : w.step e = some w') :
    InStep w' := by
  cases e with
  | enter t func now => exact inStep_enter hw h
  | exit t func now => exact inStep_exit hw hp h
  | disable =>
    rw [step, hw.running] at h
    obtain rfl := Option.some.inj h
    exact ⟨hw.running, hw.callStacks, hw.named⟩
  | enable =>
    rw [step, hw.running] at h
    obtain rfl := Option.some.inj h
    exact ⟨hw.running, hw.callStacks, hw.named⟩

theorem run_never_exits {es : List Event} (h : RunMeets step Paired (initial threshold) es) :
    ∃ w, run step (initial threshold) es = some w ∧ w.recorder.exited = false := by
  obtain ⟨w, hrun, hw⟩ := run_invariant_of_meets (fun _ _ _ => inStep_step) inStep_initial h
  exact ⟨w, hrun, hw.running⟩

theorem run_never_exits_nested :
    ∃ w, run step (initial 0) [.enter 1 40 0, .disable, .enter 1 50 1, .exit 1 50 2, .enable,
      .exit 1 40 3] = some w ∧ w.recorder.exited = false := by
  apply run_never_exits
  refine ⟨trivial, _, rfl, trivial, _, rfl, trivial, _, rfl, ?_, _, rfl, trivial, _, rfl, ?_, _,
    rfl, trivial⟩
  · rintro call ⟨⟩ -
    exact .inl rfl
  · rintro call ⟨⟩ -
    exact .inl rfl

-- The flag is set again between the two ends of a call that was entered while it was off.
theorem run_exits_enabled_inside :
    ∃ w, run step (initial 0) [.enter 1 40 0, .disable, .enter 1 50 1, .enable, .exit 1 50 2]
      = some w ∧ w.recorder.exited = true :=
  ⟨_, rfl, rfl⟩

end World

end SimpleCode.Debug.Statistics
