import Mathlib.Data.List.Induction

set_option autoImplicit false

/-! Runs of a machine over a list of events, where an event may be impossible in a state, and the
rules that carry an invariant from the steps to the runs. -/

namespace SimpleCode.Foundations

variable {σ ε : Type*}

def run (step : σ → ε → Option σ) (s : σ) (es : List ε) : Option σ := es.foldlM step s

-- Every event of the list is possible when its turn comes and meets `C` there.
def RunMeets (step : σ → ε → Option σ) (C : σ → ε → Prop) : σ → List ε → Prop
  | _, [] => True
  | s, e :: es => C s e ∧ ∃ s', step s e = some s' ∧ RunMeets step C s' es

-- Every event meets `C` when its turn comes, as far as the machine gets.
def MeetsAlong (step : σ → ε → Option σ) (C : σ → ε → Prop) : σ → List ε → Prop
  | _, [] => True
  | s, e :: es => C s e ∧ ∀ s', step s e = some s' → MeetsAlong step C s' es

instance MeetsAlong.decidable (step : σ → ε → Option σ) (C : σ → ε → Prop) [∀ s e, Decidable (C s e)] :
    ∀ s es, Decidable (MeetsAlong step C s es)
  | _, [] => isTrue trivial
  | s, e :: es =>
    match hC : decide (C s e), hs : step s e with
    | false, _ => isFalse fun h => of_decide_eq_false hC h.1
    | true, none => isTrue ⟨of_decide_eq_true hC, fun _ h => nomatch hs.symm.trans h⟩
    | true, some s' =>
      match MeetsAlong.decidable step C s' es with
      | isTrue h => isTrue ⟨of_decide_eq_true hC, fun _ hs' => Option.some.inj (hs.symm.trans hs') ▸ h⟩
      | isFalse h => isFalse fun hall => h (hall.2 s' hs)

section

variable {step : σ → ε → Option σ} {I : σ → Prop}

lemma run_cons {s t : σ} {e : ε} {es : List ε} :
    run step s (e :: es) = some t ↔ ∃ s', step s e = some s' ∧ run step s' es = some t := by
  rw [run, List.foldlM_cons, Option.bind_eq_bind, Option.bind_eq_some_iff]
  rfl

theorem run_invariant (h : ∀ s e s', I s → step s e = some s' → I s') {s t : σ} {es : List ε}
    (hs : I s) (ht : run step s es = some t) : I t := by
  induction es generalizing s with
  | nil => exact Option.some.inj ht ▸ hs
  | cons e es ih =>
    obtain ⟨s', hstep, hrun⟩ := run_cons.mp ht
    exact ih (h s e s' hs hstep) hrun

theorem run_invariant_of_meets {C : σ → ε → Prop}
    (h : ∀ s e s', I s → C s e → step s e = some s' → I s') {s : σ} {es : List ε} (hs : I s)
    (hm : RunMeets step C s es) : ∃ t, run step s es = some t ∧ I t := by
  induction es generalizing s with
  | nil => exact ⟨s, rfl, hs⟩
  | cons e es ih =>
    obtain ⟨hC, s', hstep, hm'⟩ := hm
    obtain ⟨t, ht, hI⟩ := ih (h s e s' hs hC hstep) hm'
    exact ⟨t, run_cons.mpr ⟨s', hstep, ht⟩, hI⟩

theorem run_invariant_along {C : σ → ε → Prop}
    (h : ∀ s e s', I s → C s e → step s e = some s' → I s') {s t : σ} {es : List ε} (hs : I s)
    (hm : MeetsAlong step C s es) (ht : run step s es = some t) : I t := by
  induction es generalizing s with
  | nil => exact Option.some.inj ht ▸ hs
  | cons e es ih =>
    obtain ⟨s', hstep, hrun⟩ := run_cons.mp ht
    exact ih (h s e s' hs hm.1 hstep) (hm.2 s' hstep) hrun

theorem run_of_meetsAlong {C : σ → ε → Prop}
    (h : ∀ s e, I s → C s e → ∃ s', step s e = some s' ∧ I s') {s : σ} {es : List ε} (hs : I s)
    (hm : MeetsAlong step C s es) : ∃ t, run step s es = some t ∧ I t := by
  induction es generalizing s with
  | nil => exact ⟨s, rfl, hs⟩
  | cons e es ih =>
    obtain ⟨hC, hm'⟩ := hm
    obtain ⟨s', hstep, hI⟩ := h s e hs hC
    obtain ⟨t, ht, hIt⟩ := ih hI (hm' s' hstep)
    exact ⟨t, run_cons.mpr ⟨s', hstep, ht⟩, hIt⟩

theorem meetsAlong_mono {C K : σ → ε → Prop} (h : ∀ s e, I s → C s e → K s e)
    (hI : ∀ s e s', I s → C s e → step s e = some s' → I s') {s : σ} {es : List ε} (hs : I s)
    (hm : MeetsAlong step C s es) : MeetsAlong step K s es := by
  induction es generalizing s with
  | nil => trivial
  | cons e es ih =>
    exact ⟨h s e hs hm.1, fun s' hstep => ih (hI s e s' hs hm.1 hstep) (hm.2 s' hstep)⟩

lemma meetsAlong_of_forall {C : σ → ε → Prop} {es : List ε} (h : ∀ e ∈ es, ∀ s, C s e) (s : σ) :
    MeetsAlong step C s es := by
  induction es generalizing s with
  | nil => trivial
  | cons e es ih =>
    refine ⟨h e List.mem_cons_self s, fun s' _ => ih (fun e' he' => h e' (List.mem_cons_of_mem e he')) s'⟩

lemma meetsAlong_true (s : σ) (es : List ε) : MeetsAlong step (fun _ _ => True) s es :=
  meetsAlong_of_forall (fun _ _ _ => trivial) s

-- Two conditions that agree where the invariant holds, and the second of which keeps it, agree
-- along the runs. `R` is assumed of the events.
theorem meetsAlong_iff {R K C : σ → ε → Prop} (h : ∀ s e, I s → R s e → (K s e ↔ C s e))
    (hI : ∀ s e s', I s → R s e → C s e → step s e = some s' → I s') {s : σ} {es : List ε} (hs : I s)
    (hR : MeetsAlong step R s es) : MeetsAlong step K s es ↔ MeetsAlong step C s es := by
  induction es generalizing s with
  | nil => exact Iff.rfl
  | cons e es ih =>
    rw [MeetsAlong, MeetsAlong, h s e hs hR.1]
    refine and_congr_right fun hC => ?_
    exact forall₂_congr fun s' hstep => ih (hI s e s' hs hR.1 hC hstep) (hR.2 s' hstep)

theorem runs_iff {R C : σ → ε → Prop} (h : ∀ s e, I s → R s e → ((∃ s', step s e = some s') ↔ C s e))
    (hI : ∀ s e s', I s → R s e → step s e = some s' → I s') {s : σ} {es : List ε} (hs : I s)
    (hR : MeetsAlong step R s es) : (∃ t, run step s es = some t) ↔ MeetsAlong step C s es := by
  induction es generalizing s with
  | nil => exact iff_of_true ⟨s, rfl⟩ trivial
  | cons e es ih =>
    constructor
    · rintro ⟨t, ht⟩
      obtain ⟨s', hstep, hrun⟩ := run_cons.mp ht
      refine ⟨(h s e hs hR.1).mp ⟨s', hstep⟩, fun s'' hstep' => ?_⟩
      obtain rfl := Option.some.inj (hstep.symm.trans hstep')
      exact (ih (hI s e s' hs hR.1 hstep) (hR.2 s' hstep)).mp ⟨t, hrun⟩
    · rintro ⟨hC, hnext⟩
      obtain ⟨s', hstep⟩ := (h s e hs hR.1).mpr hC
      obtain ⟨t, hrun⟩ := (ih (hI s e s' hs hR.1 hstep) (hR.2 s' hstep)).mpr (hnext s' hstep)
      exact ⟨t, run_cons.mpr ⟨s', hstep, hrun⟩⟩

-- An event that misses `C` stops the machine or spoils `P`: a run gets through, in states with `P`
-- all along, exactly when every event of it meets `C`. `R` is assumed of the events.
theorem reaches_iff {R C : σ → ε → Prop} {P : σ → Prop} (hP : ∀ s, I s → P s)
    (hpass : ∀ s e, I s → R s e → C s e → ∃ s', step s e = some s' ∧ I s')
    (hmiss : ∀ s e s', I s → R s e → ¬ C s e → step s e = some s' → ¬ P s') {s : σ} {es : List ε}
    (hs : I s) (hR : MeetsAlong step R s es) :
    (∀ pre, pre <+: es → ∃ t, run step s pre = some t ∧ P t) ↔ MeetsAlong step C s es := by
  induction es generalizing s with
  | nil =>
    refine ⟨fun _ => trivial, fun _ pre hpre => ⟨s, ?_, hP s hs⟩⟩
    rw [List.prefix_nil.mp hpre]
    rfl
  | cons e es ih =>
    constructor
    · intro h
      have hC : C s e := by
        by_contra hC
        obtain ⟨t, ht, hPt⟩ := h [e] (List.prefix_append [e] es)
        obtain ⟨s', hstep, hrun⟩ := run_cons.mp ht
        obtain rfl := Option.some.inj hrun
        exact hmiss s e s' hs hR.1 hC hstep hPt
      refine ⟨hC, fun s' hstep => ?_⟩
      obtain ⟨s'', hstep', hI⟩ := hpass s e hs hR.1 hC
      obtain rfl := Option.some.inj (hstep.symm.trans hstep')
      refine (ih hI (hR.2 s' hstep)).mp fun pre hpre => ?_
      obtain ⟨t, ht, hPt⟩ := h (e :: pre) (List.prefix_cons_inj e |>.mpr hpre)
      obtain ⟨s'', hstep', hrun⟩ := run_cons.mp ht
      obtain rfl := Option.some.inj (hstep.symm.trans hstep')
      exact ⟨t, hrun, hPt⟩
    · rintro ⟨hC, hnext⟩ pre hpre
      obtain ⟨s', hstep, hI⟩ := hpass s e hs hR.1 hC
      rcases pre with _ | ⟨e', pre⟩
      · exact ⟨s, rfl, hP s hs⟩
      · obtain ⟨rfl, hrest⟩ := List.cons_prefix_cons.mp hpre
        obtain ⟨t, ht, hPt⟩ := (ih hI (hR.2 s' hstep)).mpr (hnext s' hstep) pre hrest
        exact ⟨t, run_cons.mpr ⟨s', hstep, ht⟩, hPt⟩

end

-- For a machine that takes every event: `I` holds in every state of a run exactly when every
-- event of it meets `C`, if that is so for one step. `J` is an invariant of the machine.
theorem always_iff {step : σ → ε → σ} {I J : σ → Prop} {C : σ → ε → Prop}
    (hJ : ∀ s e, J s → J (step s e)) (h : ∀ s e, J s → I s → (I (step s e) ↔ C s e)) {s : σ}
    {es : List ε} (hs : J s) (hI : I s) :
    (∀ pre, pre <+: es → I (pre.foldl step s))
      ↔ ∀ pre e, pre ++ [e] <+: es → C (pre.foldl step s) e := by
  have hall (pre : List ε) : J (pre.foldl step s) := by
    induction pre using List.reverseRecOn with
    | nil => exact hs
    | append_singleton pre e ih =>
      rw [List.foldl_append]
      exact hJ _ e ih
  constructor
  · intro hpre pre e he
    have hnext := hpre (pre ++ [e]) he
    rw [List.foldl_append] at hnext
    exact (h _ e (hall pre) (hpre pre ((List.prefix_append pre [e]).trans he))).mp hnext
  · intro hC pre
    induction pre using List.reverseRecOn with
    | nil => exact fun _ => hI
    | append_singleton pre e ih =>
      intro he
      rw [List.foldl_append]
      exact (h _ e (hall pre) (ih ((List.prefix_append pre [e]).trans he))).mpr (hC pre e he)

end SimpleCode.Foundations
