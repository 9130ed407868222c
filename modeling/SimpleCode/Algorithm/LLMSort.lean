import SimpleCode.Foundations.MergePasses

set_option autoImplicit false

/-! The memory sort of linked lists. A tape is the list of its records from `first` on, and its
`count` is the length of that list. -/

namespace SimpleCode.Algorithm.LLMSort

open Foundations Foundations.Comp

variable {α : Type}

structure Merge (α : Type) where
  tape0 : List α
  tape1 : List α
  n0 : ℕ
  n1 : ℕ
  output : List α

def Merge.choose0 (s : Merge α) : Merge α :=
  match s.tape0 with
  | [] => s
  | record :: next =>
    { s with tape0 := next, n0 := s.n0 - 1, output := s.output ++ [record] }

def Merge.choose1 (s : Merge α) : Merge α :=
  match s.tape1 with
  | [] => s
  | record :: next =>
    { s with tape1 := next, n1 := s.n1 - 1, output := s.output ++ [record] }

def Merge.more (s : Merge α) : Bool :=
  (s.n0 != 0 && !s.tape0.isEmpty) || (s.n1 != 0 && !s.tape1.isEmpty)

def Merge.choose (compare : α → α → ℤ) (s : Merge α) : Merge α :=
  if s.n0 == 0 || s.tape0.isEmpty then s.choose1
  else if s.n1 == 0 || s.tape1.isEmpty then s.choose0
  else
    match s.tape0.head?, s.tape1.head? with
    | some record0, some record1 => if 0 < compare record0 record1 then s.choose1 else s.choose0
    | _, _ => s

structure Pass (α : Type) where
  tape0 : List α
  tape1 : List α
  output : Bool → List α
  dest : Bool

def Pass.mergeRun (compare : α → α → ℤ) (blockSize : ℕ) (s : Pass α) : Comp Empty (Pass α) := do
  let m ← loop Merge.more (fun m => pure (m.choose compare))
    ⟨s.tape0, s.tape1, blockSize, blockSize, s.output s.dest⟩
  pure ⟨m.tape0, m.tape1, Function.update s.output s.dest m.output, !s.dest⟩

-- `tape pair side` is `tape[2 * pair + side]` of the source, and `base` is a pair.
structure Tapes (α : Type) where
  tape : Bool → Bool → List α
  base : Bool
  blockSize : ℕ

def Tapes.pass (compare : α → α → ℤ) (s : Tapes α) : Comp Empty (Tapes α) := do
  let p ← loop (fun p => !p.tape0.isEmpty) (Pass.mergeRun compare s.blockSize)
    ⟨s.tape s.base false, s.tape s.base true, fun _ => [], false⟩
  let source := fun side : Bool => if side then p.tape1 else p.tape0
  pure ⟨Function.update (Function.update s.tape s.base source) (!s.base) p.output, !s.base,
    s.blockSize * 2⟩

def distribute : (Bool → List α) → Bool → List α → Bool → List α
  | tape, _, [] => tape
  | tape, base, p :: next =>
    distribute (Function.update tape base (p :: tape base)) (!base) next

def sortLinkedList (compare : α → α → ℤ) (p : List α) : Comp Empty (List α × ℕ) := do
  let tape := Function.update (fun _ _ => []) false (distribute (fun _ => []) false p)
  let s ← loop (fun s : Tapes α => !(s.tape s.base true).isEmpty) (Tapes.pass compare)
    ⟨tape, false, 1⟩
  pure (s.tape s.base false, (s.tape s.base false).length)

section Correctness

variable {compare : α → α → ℤ}

def pick (compare : α → α → ℤ) (a b : α) : Bool := decide (compare a b ≤ 0)

lemma picks_pick {c : Comparison α} (h : c.Follows compare) : c.Picks (pick compare) where
  left a b hab := h.le a b (of_decide_eq_true hab)
  right a b hab := h.ge a b (not_le.mp (of_decide_eq_false hab)).le

def RunLeft (n : ℕ) (run rest : List α) : Prop := run.length = n ∨ run.length ≤ n ∧ rest = []

lemma RunLeft.next {n : ℕ} {x : α} {run rest : List α} (h : RunLeft n (x :: run) rest) :
    n ≠ 0 ∧ RunLeft (n - 1) run rest := by
  rcases h with h | ⟨h, hrest⟩
  · rw [List.length_cons] at h
    exact ⟨by omega, .inl (by omega)⟩
  · rw [List.length_cons] at h
    exact ⟨by omega, .inr ⟨by omega, hrest⟩⟩

lemma RunLeft.finished {n : ℕ} {rest : List α} (h : RunLeft n [] rest) : n = 0 ∨ rest = [] := by
  rcases h with h | ⟨-, hrest⟩
  · exact .inl h.symm
  · exact .inr hrest

structure AtRuns (rest0 rest1 : List α) (m : Merge α) (xs ys o : List α) : Prop where
  tape0 : m.tape0 = xs ++ rest0
  tape1 : m.tape1 = ys ++ rest1
  left0 : RunLeft m.n0 xs rest0
  left1 : RunLeft m.n1 ys rest1
  output : m.output = o

section

variable {m : Merge α} {x y : α} {xs ys o rest0 rest1 : List α}

lemma AtRuns.more_end (h : AtRuns rest0 rest1 m [] [] o) : m.more = false := by
  have h0 := h.left0.finished
  have h1 := h.left1.finished
  rw [Merge.more, h.tape0, h.tape1]
  rcases h0 with h0 | h0 <;> rcases h1 with h1 | h1 <;> simp [h0, h1]

lemma AtRuns.more_left (h : AtRuns rest0 rest1 m (x :: xs) ys o) : m.more = true := by
  rw [Merge.more, h.tape0]
  simp [h.left0.next.1]

lemma AtRuns.more_right (h : AtRuns rest0 rest1 m xs (y :: ys) o) : m.more = true := by
  rw [Merge.more, h.tape1]
  simp [h.left1.next.1]

lemma AtRuns.choose0 (h : AtRuns rest0 rest1 m (x :: xs) ys o) :
    AtRuns rest0 rest1 m.choose0 xs ys (o ++ [x]) := by
  have htape : m.tape0 = x :: (xs ++ rest0) := h.tape0
  simp only [Merge.choose0, htape]
  exact ⟨rfl, h.tape1, h.left0.next.2, h.left1, congrArg (· ++ [x]) h.output⟩

lemma AtRuns.choose1 (h : AtRuns rest0 rest1 m xs (y :: ys) o) :
    AtRuns rest0 rest1 m.choose1 xs ys (o ++ [y]) := by
  have htape : m.tape1 = y :: (ys ++ rest1) := h.tape1
  simp only [Merge.choose1, htape]
  exact ⟨h.tape0, rfl, h.left0, h.left1.next.2, congrArg (· ++ [y]) h.output⟩

lemma AtRuns.choose_left (h : AtRuns rest0 rest1 m (x :: xs) [] o) :
    m.choose compare = m.choose0 := by
  have hend : (m.n1 == 0 || m.tape1.isEmpty) = true := by
    rw [h.tape1]
    rcases h.left1.finished with h1 | h1 <;> simp [h1]
  have hmore : (m.n0 == 0 || m.tape0.isEmpty) = false := by
    rw [h.tape0]
    simp [h.left0.next.1]
  rw [Merge.choose, hmore, hend]
  rfl

lemma AtRuns.choose_right (h : AtRuns rest0 rest1 m [] (y :: ys) o) :
    m.choose compare = m.choose1 := by
  have hend : (m.n0 == 0 || m.tape0.isEmpty) = true := by
    rw [h.tape0]
    rcases h.left0.finished with h0 | h0 <;> simp [h0]
  rw [Merge.choose, hend, if_pos rfl]

lemma AtRuns.choose_both (h : AtRuns rest0 rest1 m (x :: xs) (y :: ys) o) :
    m.choose compare = if pick compare x y then m.choose0 else m.choose1 := by
  have hmore0 : (m.n0 == 0 || m.tape0.isEmpty) = false := by
    rw [h.tape0]
    simp [h.left0.next.1]
  have hmore1 : (m.n1 == 0 || m.tape1.isEmpty) = false := by
    rw [h.tape1]
    simp [h.left1.next.1]
  have hhead0 : m.tape0.head? = some x := by rw [h.tape0]; rfl
  have hhead1 : m.tape1.head? = some y := by rw [h.tape1]; rfl
  rw [Merge.choose, hmore0, hmore1, hhead0, hhead1, pick]
  by_cases hle : compare x y ≤ 0
  · simp [hle, not_lt.mpr hle]
  · simp [hle, not_le.mp hle]

end

theorem mergeRun_returns {blockSize : ℕ} {run0 run1 rest0 rest1 : List α} (out : List α)
    (h0 : RunLeft blockSize run0 rest0) (h1 : RunLeft blockSize run1 rest1) :
    ∃ m, (loop Merge.more (fun m => pure (m.choose compare))
        ⟨run0 ++ rest0, run1 ++ rest1, blockSize, blockSize, out⟩ : Comp Empty (Merge α)).Returns m
      ∧ m.tape0 = rest0 ∧ m.tape1 = rest1 ∧ m.output = out ++ List.merge run0 run1 (pick compare) := by
  have hrun : ∃ m, (loop Merge.more (fun m => pure (m.choose compare))
      ⟨run0 ++ rest0, run1 ++ rest1, blockSize, blockSize, out⟩ : Comp Empty (Merge α)).Returns m
      ∧ AtRuns rest0 rest1 m [] [] (out ++ List.merge run0 run1 (pick compare)) := by
    refine loop_merge (pick compare) (R := AtRuns rest0 rest1) ?_ ?_ ?_ ?_ ⟨rfl, rfl, h0, h1, rfl⟩
    · intro m o h
      exact h.more_end
    · intro m x xs o h
      exact ⟨h.more_left, _, yields_pure.mpr rfl, h.choose_left ▸ h.choose0⟩
    · intro m y ys o h
      exact ⟨h.more_right, _, yields_pure.mpr rfl, h.choose_right ▸ h.choose1⟩
    · intro m x xs y ys o h
      refine ⟨h.more_left, _, yields_pure.mpr rfl, ?_⟩
      rw [h.choose_both]
      split
      · exact h.choose0
      · exact h.choose1
  obtain ⟨m, hm, h⟩ := hrun
  exact ⟨m, hm, h.tape0, h.tape1, h.output⟩

structure InPass (b : ℕ) (p : Pass α) (rs done : List (List α)) : Prop where
  tape0 : p.tape0 = (deal rs).1.flatten
  tape1 : p.tape1 = (deal rs).2.flatten
  blocks : Blocks b rs
  written : Written p.output p.dest done

lemma inPass_mergeRun {b : ℕ} {p : Pass α} {r : List α} {rs done : List (List α)}
    (h : InPass b p (r :: rs) done) : ∃ q, (p.mergeRun compare b).Returns q
      ∧ InPass b q rs.tail (done ++ [List.merge r (rs.headD []) (pick compare)]) := by
  obtain ⟨m, hm, h0, h1, hout⟩ := @mergeRun_returns α compare b r (rs.headD []) _ _ (p.output p.dest)
    h.blocks.first_end h.blocks.second_end
  refine ⟨⟨m.tape0, m.tape1, Function.update p.output p.dest m.output, !p.dest⟩, ?_, h0, h1, ?_, ?_⟩
  · refine returns_bind.mpr ⟨m, ?_, yields_pure.mpr rfl⟩
    rw [h.tape0, h.tape1, (deal_cons r rs).1, (deal_cons r rs).2]
    exact hm
  · cases rs with
    | nil => trivial
    | cons s rs => exact h.blocks.tail.tail
  · simp only [hout]
    exact h.written.put _

structure AtPass (s : Tapes α) (runs : List (List α)) : Prop where
  tape0 : s.tape s.base false = (deal runs).1.flatten
  tape1 : s.tape s.base true = (deal runs).2.flatten
  blocks : Blocks s.blockSize runs
  pos : 0 < s.blockSize

lemma atPass_pass {s : Tapes α} {runs : List (List α)} (h : AtPass s runs) :
    ∃ t, (s.pass compare).Returns t ∧ AtPass t (pairUp (List.merge · · (pick compare)) runs) := by
  have hloop : ∃ p, (loop (fun p : Pass α => !p.tape0.isEmpty)
      (Pass.mergeRun compare s.blockSize)
      ⟨s.tape s.base false, s.tape s.base true, fun _ => [], false⟩).Returns p
      ∧ InPass s.blockSize p [] ([] ++ pairUp (List.merge · · (pick compare)) runs) := by
    refine loop_pairs List.merge_right (R := InPass s.blockSize) ?_ ?_
      ⟨h.tape0, h.tape1, h.blocks, ⟨rfl, rfl, rfl⟩⟩
    · intro p done hp
      rw [hp.tape0]
      rfl
    · intro p r rs done hp
      refine ⟨?_, inPass_mergeRun hp⟩
      rw [hp.tape0, (deal_cons r rs).1]
      simp [hp.blocks.ne_nil h.pos r List.mem_cons_self]
  obtain ⟨p, hp, hend⟩ := hloop
  refine ⟨_, returns_bind.mpr ⟨p, hp, yields_pure.mpr rfl⟩, ?_, ?_, ?_, ?_⟩
  · simp only [Function.update_self]
    exact hend.written.first
  · simp only [Function.update_self]
    exact hend.written.second
  · rw [mul_comm]
    exact pairUp_blocks h.pos h.blocks
  · exact Nat.mul_pos h.pos Nat.two_pos

lemma distribute_spec (p : List α) (tape : Bool → List α) (base : Bool)
    (h : (tape false).length = (tape true).length + if base then 1 else 0) :
    (distribute tape base p true).length ≤ (distribute tape base p false).length
      ∧ (distribute tape base p false).length ≤ (distribute tape base p true).length + 1
      ∧ (distribute tape base p false ++ distribute tape base p true).Perm
        (tape false ++ tape true ++ p) := by
  induction p generalizing tape base with
  | nil =>
    rw [distribute, List.append_nil]
    refine ⟨?_, ?_, .refl _⟩
    · omega
    · split at h <;> omega
  | cons x next ih =>
    rw [distribute]
    cases base with
    | false =>
      obtain ⟨hle, hlt, hperm⟩ := ih (Function.update tape false (x :: tape false)) true (by
        simpa using h)
      refine ⟨hle, hlt, hperm.trans ?_⟩
      rw [Function.update_self, Function.update_of_ne Bool.false_ne_true.symm, List.cons_append,
        List.cons_append]
      exact List.perm_middle.symm
    | true =>
      obtain ⟨hle, hlt, hperm⟩ := ih (Function.update tape true (x :: tape true)) false (by
        simpa using h)
      refine ⟨hle, hlt, hperm.trans ?_⟩
      rw [Function.update_self, Function.update_of_ne Bool.false_ne_true]
      refine (List.perm_middle.append_right next).trans ?_
      rw [List.cons_append]
      exact List.perm_middle.symm

theorem sortLinkedList_sorts {c : Comparison α} (hc : c.Follows compare) (p : List α) :
    ∃ out, (sortLinkedList compare p).Returns (out, p.length) ∧ out.Perm p ∧ c.Sorted out := by
  obtain ⟨hle, hlt, hperm⟩ := distribute_spec p (fun _ => []) false rfl
  obtain ⟨xs, hxs⟩ := exists_deal hle hlt
  have hdeal := deal_map (fun x => [x]) xs
  rw [hxs] at hdeal
  have hxsperm : xs.Perm p := by
    refine (deal_perm xs).symm.trans ?_
    rw [hxs]
    exact hperm
  have hstart : AtPass ⟨Function.update (fun _ _ => []) false (distribute (fun _ => []) false p),
      false, 1⟩ (xs.map fun x => [x]) := by
    refine ⟨?_, ?_, blocks_of_length Nat.one_pos (by simp), Nat.one_pos⟩
    · rw [hdeal, flatten_singletons]
      simp only [Function.update_self]
    · rw [hdeal, flatten_singletons]
      simp only [Function.update_self]
  have hloop : ∃ s runs, (loop (fun s : Tapes α => !(s.tape s.base true).isEmpty)
      (Tapes.pass compare) ⟨Function.update (fun _ _ => []) false
        (distribute (fun _ => []) false p), false, 1⟩).Returns s
      ∧ AtPass s runs ∧ runs.length ≤ 1 ∧ runs.flatten.Perm (xs.map fun x => [x]).flatten
      ∧ ∀ r ∈ runs, c.Sorted r := by
    refine loop_passes (R := AtPass) (picks_pick hc).merging Nat.one_pos (fun s runs h => ?_)
      (fun s runs h _ => atPass_pass h) hstart (by simp [Comparison.Sorted])
    rw [Bool.not_eq_true', List.isEmpty_eq_false_iff, h.tape1]
    exact second_ne_nil (h.blocks.ne_nil h.pos)
  obtain ⟨s, runs, hs, hR, hlen, hruns, hsorted⟩ := hloop
  have hout : s.tape s.base false = runs.flatten := hR.tape0.trans (deal_of_length_le_one hlen)
  have hfinal : runs.flatten.Perm p := by
    rw [flatten_singletons] at hruns
    exact hruns.trans hxsperm
  refine ⟨runs.flatten, ?_, hfinal, (picks_pick hc).merging.good_flatten hlen hsorted⟩
  refine returns_bind.mpr ⟨s, hs, yields_pure.mpr ?_⟩
  rw [hout, hfinal.length_eq]

end Correctness

end SimpleCode.Algorithm.LLMSort
