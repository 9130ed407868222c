import SimpleCode.Debug.SystemInstrument
import SimpleCode.Foundations.Runs

set_option autoImplicit false

/-! What the table of call traces says about the real call stacks, over every interleaving of the
calls and returns of any number of threads. -/

namespace SimpleCode.Debug

open Foundations

-- `gettid` never answers 0.
abbrev ThreadId := { t : ℕ // t ≠ 0 }

def recorded (nodes : Nodes) (t : ThreadId) : List DebugNode :=
  ((List.finRange maxTraceThreads).find? fun i => (nodes i).tid = t).elim [] fun i => (nodes i).list

structure Proper (nodes : Nodes) : Prop where
  owner : ∀ i j, (nodes i).tid = (nodes j).tid → (nodes i).tid ≠ 0 → i = j
  free : ∀ i, (nodes i).tid = 0 ↔ (nodes i).list = []

section Table

variable {nodes : Nodes} {t : ThreadId} {i : Fin maxTraceThreads}

lemma recorded_of_owner (h : Proper nodes) (hi : (nodes i).tid = t) :
    recorded nodes t = (nodes i).list := by
  rw [recorded]
  cases hf : (List.finRange maxTraceThreads).find? fun i => (nodes i).tid = t with
  | none => exact absurd hi (by simpa using List.find?_eq_none.mp hf i (List.mem_finRange i))
  | some j =>
    have hj : (nodes j).tid = t := by simpa using List.find?_some hf
    rw [h.owner j i (hj.trans hi.symm) (hj ▸ t.2)]
    rfl

lemma recorded_of_not_owned (h : ∀ i, (nodes i).tid ≠ t) : recorded nodes t = [] := by
  rw [recorded, List.find?_eq_none.mpr]
  · rfl
  · intro i _
    simpa using h i

lemma owner_or_not (nodes : Nodes) (t : ThreadId) :
    (∃ i, (nodes i).tid = t) ∨ ∀ i, (nodes i).tid ≠ t := by
  by_cases h : ∃ i, (nodes i).tid = t
  · exact .inl h
  · exact .inr fun i hi => h ⟨i, hi⟩

lemma replace (h : Proper nodes)
    (hi : (nodes i).tid = t ∨ (nodes i).tid = 0 ∧ ∀ j, (nodes j).tid ≠ t) (head : NodeHead)
    (hhead : head.tid = t ∧ head.list ≠ [] ∨ head.tid = 0 ∧ head.list = []) :
    Proper (Function.update nodes i head)
      ∧ recorded (Function.update nodes i head) t = head.list
      ∧ ∀ u ≠ t, recorded (Function.update nodes i head) u = recorded nodes u := by
  have hother : ∀ j ≠ i, (nodes j).tid ≠ t := by
    intro j hj ht
    rcases hi with hi | ⟨-, hi⟩
    · exact hj (h.owner j i (ht.trans hi.symm) (ht ▸ t.2))
    · exact hi j ht
  have hproper : Proper (Function.update nodes i head) := by
    constructor
    · intro j k hjk hne
      by_cases hj : j = i <;> by_cases hk : k = i
      · rw [hj, hk]
      · subst hj
        rw [Function.update_self] at hne
        rw [Function.update_self, Function.update_of_ne hk] at hjk
        rcases hhead with ⟨ht, -⟩ | ⟨h0, -⟩
        · exact absurd (hjk.symm.trans ht) (hother k hk)
        · exact absurd h0 hne
      · subst hk
        rw [hjk, Function.update_self] at hne
        rw [Function.update_self, Function.update_of_ne hj] at hjk
        rcases hhead with ⟨ht, -⟩ | ⟨h0, -⟩
        · exact absurd (hjk.trans ht) (hother j hj)
        · exact absurd h0 hne
      · rw [Function.update_of_ne hj, Function.update_of_ne hk] at hjk
        rw [Function.update_of_ne hj] at hne
        exact h.owner j k hjk hne
    · intro j
      by_cases hj : j = i
      · subst hj
        rw [Function.update_self]
        rcases hhead with ⟨ht, hl⟩ | ⟨h0, hl⟩
        · exact ⟨fun h0 => absurd (ht.symm.trans h0) t.2, fun h => absurd h hl⟩
        · exact ⟨fun _ => hl, fun _ => h0⟩
      · rw [Function.update_of_ne hj]
        exact h.free j
  refine ⟨hproper, ?_, fun u hu => ?_⟩
  · rcases hhead with ⟨ht, -⟩ | ⟨h0, hl⟩
    · rw [recorded_of_owner hproper (show (Function.update nodes i head i).tid = t by
        rw [Function.update_self, ht]), Function.update_self]
    · rw [hl, recorded_of_not_owned]
      intro j
      by_cases hj : j = i
      · subst hj
        rw [Function.update_self, h0]
        exact t.2.symm
      · rw [Function.update_of_ne hj]
        exact hother j hj
  · have hne : (t : ℕ) ≠ u := fun h => hu (Subtype.ext h.symm)
    rcases owner_or_not nodes u with ⟨j, hj⟩ | hnone
    · have hji : j ≠ i := by
        rintro rfl
        rcases hi with hi | ⟨hi, -⟩
        · exact hne (hi.symm.trans hj)
        · exact u.2 (hj.symm.trans hi)
      rw [recorded_of_owner h hj, recorded_of_owner hproper (show
        (Function.update nodes i head j).tid = u by rw [Function.update_of_ne hji, hj]),
        Function.update_of_ne hji]
    · rw [recorded_of_not_owned hnone, recorded_of_not_owned]
      intro j
      by_cases hj : j = i
      · subst hj
        rw [Function.update_self]
        rcases hhead with ⟨ht, -⟩ | ⟨h0, -⟩
        · rw [ht]
          exact hne
        · rw [h0]
          exact u.2.symm
      · rw [Function.update_of_ne hj]
        exact hnone j

lemma addIndex_eq (nodes : Nodes) (threadid : ℕ)
    (is : List (Fin maxTraceThreads)) (index : Option (Fin maxTraceThreads)) :
    addIndex nodes threadid is index
      = (is.find? fun i => (nodes i).tid = threadid).or
          (index.or (is.find? fun i => (nodes i).tid = 0)) := by
  induction is generalizing index with
  | nil => simp [addIndex]
  | cons i is ih =>
    rw [addIndex, List.find?_cons, List.find?_cons]
    by_cases hi : (nodes i).tid = threadid
    · simp [hi]
    · rw [if_neg hi, ih, decide_eq_false hi]
      by_cases h0 : (nodes i).tid = 0
      · cases index <;> simp [h0]
      · simp [h0]

lemma addNode_cases (nodes : Nodes) (t : ThreadId) (func callSite : ℕ) :
    (∃ i, ((nodes i).tid = t ∨ (nodes i).tid = 0 ∧ ∀ j, (nodes j).tid ≠ t)
        ∧ addNode nodes t func callSite
          = Function.update nodes i ⟨t, (nodes i).list ++ [⟨func, callSite⟩]⟩)
      ∨ (∀ i, (nodes i).tid ≠ t) ∧ (∀ i, (nodes i).tid ≠ 0) ∧ addNode nodes t func callSite = nodes := by
  rw [addNode, addIndex_eq]
  cases ht : (List.finRange maxTraceThreads).find? fun i => (nodes i).tid = t with
  | some i =>
    have hi : (nodes i).tid = t := by simpa using List.find?_some ht
    exact .inl ⟨i, .inl hi, rfl⟩
  | none =>
    have hnot (j : Fin maxTraceThreads) : (nodes j).tid ≠ t := by
      simpa using List.find?_eq_none.mp ht j (List.mem_finRange j)
    cases h0 : (List.finRange maxTraceThreads).find? fun i => (nodes i).tid = 0 with
    | some i =>
      have hi : (nodes i).tid = 0 := by simpa using List.find?_some h0
      exact .inl ⟨i, .inr ⟨hi, hnot⟩, rfl⟩
    | none =>
      have hfull (j : Fin maxTraceThreads) : (nodes j).tid ≠ 0 := by
        simpa using List.find?_eq_none.mp h0 j (List.mem_finRange j)
      exact .inr ⟨hnot, hfull, rfl⟩

lemma recorded_addNode (h : Proper nodes) (t : ThreadId) (func callSite : ℕ) :
    Proper (addNode nodes t func callSite)
      ∧ (∀ u ≠ t, recorded (addNode nodes t func callSite) u = recorded nodes u)
      ∧ (recorded (addNode nodes t func callSite) t = recorded nodes t ++ [⟨func, callSite⟩]
        ∨ recorded (addNode nodes t func callSite) t = [] ∧ recorded nodes t = []
          ∧ ∀ i, (nodes i).tid ≠ 0) := by
  rcases addNode_cases nodes t func callSite with ⟨i, hi, hadd⟩ | ⟨hnot, hfull, hadd⟩
  · have hold : recorded nodes t = (nodes i).list := by
      rcases hi with hi | ⟨h0, hnot⟩
      · exact recorded_of_owner h hi
      · rw [recorded_of_not_owned hnot, (h.free i).mp h0]
    obtain ⟨hp, hself, hothers⟩ := replace h hi ⟨t, (nodes i).list ++ [⟨func, callSite⟩]⟩
      (.inl ⟨rfl, by simp⟩)
    rw [hadd, hold]
    exact ⟨hp, hothers, .inl hself⟩
  · rw [hadd]
    exact ⟨h, fun _ _ => rfl, .inr ⟨recorded_of_not_owned hnot, recorded_of_not_owned hnot, hfull⟩⟩

lemma delNode_of_owner (h : Proper nodes) (hi : (nodes i).tid = t) (func callSite : ℕ) :
    delNode nodes t func callSite
      = (Function.update nodes i (if (nodes i).list.dropLast = [] then ⟨0, []⟩
          else ⟨t, (nodes i).list.dropLast⟩), .silent) := by
  rw [delNode]
  cases ht : (List.finRange maxTraceThreads).find? fun i => (nodes i).tid = t with
  | none => exact absurd hi (by simpa using List.find?_eq_none.mp ht i (List.mem_finRange i))
  | some j =>
    have hj : (nodes j).tid = t := by simpa using List.find?_some ht
    obtain rfl := h.owner j i (hj.trans hi.symm) (hj ▸ t.2)
    cases hlast : (nodes j).list.getLast? with
    | none =>
      exact absurd (hi.symm.trans ((h.free j).mpr (List.getLast?_eq_none_iff.mp hlast))) t.2
    | some tail =>
      simp only [hlast, ne_eq, not_true_eq_false, if_false, hi]

lemma recorded_delNode (h : Proper nodes) (t : ThreadId) (func callSite : ℕ) :
    Proper (delNode nodes t func callSite).1
      ∧ (∀ u ≠ t, recorded (delNode nodes t func callSite).1 u = recorded nodes u)
      ∧ recorded (delNode nodes t func callSite).1 t = (recorded nodes t).dropLast := by
  rcases owner_or_not nodes t with ⟨i, hi⟩ | hnot
  · rw [delNode_of_owner h hi, recorded_of_owner h hi]
    by_cases hrest : (nodes i).list.dropLast = []
    · obtain ⟨hp, hself, hothers⟩ := replace h (.inl hi) ⟨0, []⟩ (.inr ⟨rfl, rfl⟩)
      rw [if_pos hrest, hrest]
      exact ⟨hp, hothers, hself⟩
    · obtain ⟨hp, hself, hothers⟩ := replace h (.inl hi) ⟨t, (nodes i).list.dropLast⟩
        (.inl ⟨rfl, hrest⟩)
      rw [if_neg hrest]
      exact ⟨hp, hothers, hself⟩
  · have hfind : (List.finRange maxTraceThreads).find? (fun i => (nodes i).tid = t) = none := by
      rw [List.find?_eq_none]
      intro j _
      simpa using hnot j
    rw [delNode, hfind]
    refine ⟨h, fun _ _ => rfl, ?_⟩
    rw [recorded_of_not_owned hnot]
    rfl

end Table

section Check

variable {nodes nodes' : Nodes} {i : Fin maxTraceThreads}

def slotOf (nodes : Nodes) (threadid : ℕ) : Option (Fin maxTraceThreads) :=
  (List.finRange maxTraceThreads).find? fun i => (nodes i).tid = threadid

structure Removes (nodes nodes' : Nodes) (i : Fin maxTraceThreads) : Prop where
  list : (nodes' i).list = (nodes i).list.dropLast
  tid : (nodes' i).tid = if (nodes i).list.dropLast = [] then 0 else (nodes i).tid
  others : ∀ j ≠ i, nodes' j = nodes j

lemma removes_update (nodes : Nodes) (i : Fin maxTraceThreads) :
    Removes nodes (Function.update nodes i (if (nodes i).list.dropLast = [] then ⟨0, []⟩
      else ⟨(nodes i).tid, (nodes i).list.dropLast⟩)) i := by
  refine ⟨?_, ?_, fun j hj => Function.update_of_ne hj _ _⟩
  · rw [Function.update_self]
    split
    · exact (by assumption : (nodes i).list.dropLast = []).symm
    · rfl
  · rw [Function.update_self]
    split <;> rfl

lemma delNode_of_slot {threadid : ℕ} {frame : DebugNode} (hi : slotOf nodes threadid = some i)
    (hframe : (nodes i).list.getLast? = some frame) (func callSite : ℕ) :
    delNode nodes threadid func callSite
      = (Function.update nodes i (if (nodes i).list.dropLast = [] then ⟨0, []⟩
          else ⟨(nodes i).tid, (nodes i).list.dropLast⟩), .silent) := by
  rw [slotOf] at hi
  simp only [delNode, hi, hframe, ne_eq, not_true_eq_false, if_false]

theorem delNode_checks_iff (nodes : Nodes) (threadid func callSite : ℕ) :
    (∀ i frame, slotOf nodes threadid = some i → (nodes i).list.getLast? = some frame →
      (frame.func = func → Removes nodes (delNode nodes threadid func callSite).1 i
        ∧ (delNode nodes threadid func callSite).2 = .silent)
      ∧ (frame.func ≠ func → delNode nodes threadid func callSite = (nodes, .stackIsDestroyed)))
    ↔ ∀ i frame, slotOf nodes threadid = some i → (nodes i).list.getLast? = some frame →
      frame.func = func := by
  constructor
  · intro h i frame hi hframe
    by_contra hne
    have hreport := (h i frame hi hframe).2 hne
    rw [delNode_of_slot hi hframe] at hreport
    cases congrArg Prod.snd hreport
  · intro h i frame hi hframe
    rw [delNode_of_slot hi hframe]
    exact ⟨fun _ => ⟨removes_update nodes i, rfl⟩, fun hne => absurd (h i frame hi hframe) hne⟩

theorem delNode_unchecked : ¬ ∀ (nodes : Nodes) (threadid func callSite : ℕ) i frame,
    slotOf nodes threadid = some i → (nodes i).list.getLast? = some frame → frame.func ≠ func →
      delNode nodes threadid func callSite = (nodes, .stackIsDestroyed) := by
  intro h
  have hslot : slotOf (addNode initialNodes 7 40 1) 7 = some ⟨0, by decide⟩ := by
    decide +kernel
  have hframe : (addNode initialNodes 7 40 1 ⟨0, by decide⟩).list.getLast? = some ⟨40, 1⟩ := by
    decide +kernel
  have hreport := h (addNode initialNodes 7 40 1) 7 50 2 ⟨0, by decide⟩ ⟨40, 1⟩ hslot
    hframe (by decide)
  rw [delNode_of_slot hslot hframe] at hreport
  cases congrArg Prod.snd hreport

end Check

structure World where
  nodes : Nodes
  -- The real calls of a thread that are active, the innermost first.
  stack : ThreadId → List DebugNode
  -- Whether a slot was free at the outermost of them.
  slotFree : ThreadId → Bool

inductive Event
  | enter (t : ThreadId) (func callSite : ℕ)
  | exit (t : ThreadId) (func callSite : ℕ)
deriving DecidableEq

namespace World

def initial : World := ⟨initialNodes, fun _ => [], fun _ => true⟩

-- An exit is possible for the innermost active call of its thread only.
def step (w : World) : Event → Option World
  | .enter t func callSite =>
    some
      { nodes := addNode w.nodes t func callSite
        stack := Function.update w.stack t (⟨func, callSite⟩ :: w.stack t)
        slotFree := if w.stack t = [] then
            Function.update w.slotFree t (decide (∃ i, (w.nodes i).tid = 0))
          else w.slotFree }
  | .exit t func callSite =>
    match w.stack t with
    | [] => none
    | call :: calls =>
      if call.func = func then
        some { w with
          nodes := (delNode w.nodes t func callSite).1
          stack := Function.update w.stack t calls }
      else none

structure Traced (w : World) : Prop where
  proper : Proper w.nodes
  innermost : ∀ t, recorded w.nodes t <:+ (w.stack t).reverse
  whole : ∀ t, w.slotFree t = true → recorded w.nodes t = (w.stack t).reverse

lemma traced_initial : Traced initial := by
  have hnone (t : ThreadId) : recorded initial.nodes t = [] :=
    recorded_of_not_owned fun _ => t.2.symm
  refine ⟨⟨fun i j _ hne => absurd rfl hne, fun i => ⟨fun _ => rfl, fun _ => rfl⟩⟩, ?_, ?_⟩
  · intro t
    rw [hnone]
    exact List.nil_suffix
  · intro t _
    exact hnone t

lemma traced_enter {w w' : World} {t : ThreadId} {func callSite : ℕ} (h : Traced w)
    (hw : w.step (.enter t func callSite) = some w') : Traced w' := by
  obtain rfl := Option.some.inj hw
  obtain ⟨hproper, hothers, hself⟩ := recorded_addNode h.proper t func callSite
  refine ⟨hproper, fun u => ?_, fun u hu => ?_⟩
  · by_cases hut : u = t
    · subst hut
      simp only [Function.update_self, List.reverse_cons]
      rcases hself with hself | ⟨hself, -⟩
      · rw [hself]
        obtain ⟨outer, houter⟩ := h.innermost u
        exact ⟨outer, by rw [← List.append_assoc, houter]⟩
      · rw [hself]
        exact List.nil_suffix
    · simp only [Function.update_of_ne hut, hothers u hut]
      exact h.innermost u
  · by_cases hut : u = t
    · subst hut
      simp only [Function.update_self, List.reverse_cons]
      rcases hself with hself | ⟨hself, hempty, hfull⟩
      · rw [hself]
        by_cases hs : w.stack u = []
        · have := h.innermost u
          rw [hs, List.reverse_nil, List.suffix_nil] at this
          rw [hs, this]
          rfl
        · simp only [if_neg hs] at hu
          rw [h.whole u hu]
      · by_cases hs : w.stack u = []
        · simp only [if_pos hs, Function.update_self, decide_eq_true_eq] at hu
          obtain ⟨i, hi⟩ := hu
          exact absurd hi (hfull i)
        · simp only [if_neg hs] at hu
          have := h.whole u hu
          rw [hempty] at this
          exact absurd (List.reverse_eq_nil_iff.mp this.symm) hs
    · have hfree : w.slotFree u = true := by
        by_cases hs : w.stack t = []
        · simpa only [if_pos hs, Function.update_of_ne hut] using hu
        · simpa only [if_neg hs] using hu
      simp only [Function.update_of_ne hut, hothers u hut]
      exact h.whole u hfree

lemma traced_exit {w w' : World} {t : ThreadId} {func callSite : ℕ} (h : Traced w)
    (hw : w.step (.exit t func callSite) = some w') : Traced w' := by
  obtain ⟨hproper, hothers, hself⟩ := recorded_delNode h.proper t func callSite
  cases hs : w.stack t with
  | nil => simp [step, hs] at hw
  | cons call calls =>
    simp only [step, hs] at hw
    split at hw
    · obtain rfl := Option.some.inj hw
      have hdrop : (w.stack t).reverse.dropLast = calls.reverse := by
        rw [hs, List.reverse_cons, List.dropLast_concat]
      refine ⟨hproper, fun u => ?_, fun u hu => ?_⟩
      · by_cases hut : u = t
        · subst hut
          simp only [Function.update_self, hself, ← hdrop]
          obtain ⟨outer, houter⟩ := h.innermost u
          by_cases hempty : recorded w.nodes u = []
          · rw [hempty]
            exact List.nil_suffix
          · exact ⟨outer, by rw [← houter, List.dropLast_append_of_ne_nil hempty]⟩
        · simp only [Function.update_of_ne hut, hothers u hut]
          exact h.innermost u
      · by_cases hut : u = t
        · subst hut
          simp only [Function.update_self, hself, ← hdrop]
          rw [h.whole u hu]
        · simp only [Function.update_of_ne hut, hothers u hut]
          exact h.whole u hu
    · exact absurd hw nofun

theorem run_traced {w : World} {es : List Event} (h : run step initial es = some w) :
    Proper w.nodes ∧ ∀ t, recorded w.nodes t <:+ (w.stack t).reverse
      ∧ (w.slotFree t = true → recorded w.nodes t = (w.stack t).reverse) := by
  have ht : Traced w := by
    refine run_invariant (fun s e s' hI hstep => ?_) traced_initial h
    cases e with
    | enter t func callSite => exact traced_enter hI hstep
    | exit t func callSite => exact traced_exit hI hstep
  exact ⟨ht.proper, fun t => ⟨ht.innermost t, ht.whole t⟩⟩

theorem run_traced_two_threads :
    ∃ w, run step initial [.enter ⟨7, by decide⟩ 40 1, .enter ⟨9, by decide⟩ 50 2,
        .exit ⟨9, by decide⟩ 50 2] = some w
      ∧ Proper w.nodes ∧ ∀ t, recorded w.nodes t <:+ (w.stack t).reverse
        ∧ (w.slotFree t = true → recorded w.nodes t = (w.stack t).reverse) := by
  have h : ∃ w, run step initial [.enter ⟨7, by decide⟩ 40 1, .enter ⟨9, by decide⟩ 50 2,
      .exit ⟨9, by decide⟩ 50 2] = some w := ⟨_, rfl⟩
  obtain ⟨w, hw⟩ := h
  exact ⟨w, hw, run_traced hw⟩

end World

end SimpleCode.Debug
