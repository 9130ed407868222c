import SimpleCode.Foundations.LinkedList
import SimpleCode.Algorithm.LLMSort

set_option autoImplicit false

/-! The memory sort of linked lists on the records themselves. Only the `next[index]` of the records
is accessed, and `next` is that field of the memory. -/

namespace SimpleCode.Algorithm.LLMSort.Links

open Foundations Foundations.Comp

inductive Fault
  | nullPointer
deriving DecidableEq, Repr

structure Tape (α : Type) where
  first : Option α
  last : Option α
  count : ℕ

section Model

variable {α : Type}

def deref (p : Option α) : Except Fault α :=
  match p with
  | none => .error .nullPointer
  | some record => .ok record

def Tape.take (next : α → Option α) (t : Tape α) : Except Fault (α × Tape α) := do
  let record ← deref t.first
  pure (record, { t with count := t.count - 1, first := next record })

variable [DecidableEq α]

def Tape.append (next : α → Option α) (output : Tape α) (record : α) :
    Except Fault ((α → Option α) × Tape α) :=
  if output.count = 0 then .ok (next, ⟨some record, some record, 1⟩)
  else do
    let last ← deref output.last
    pure (Function.update next last (some record),
      { output with last := some record, count := output.count + 1 })

structure Merge (α : Type) where
  next : α → Option α
  tape0 : Tape α
  tape1 : Tape α
  n0 : ℕ
  n1 : ℕ
  output : Tape α

def Merge.more (s : Merge α) : Bool :=
  !(s.n0 == 0 || s.tape0.count == 0) || !(s.n1 == 0 || s.tape1.count == 0)

def Merge.choice (compare : α → α → ℤ) (s : Merge α) : Except Fault Bool :=
  if s.n0 == 0 || s.tape0.count == 0 then .ok true
  else if s.n1 == 0 || s.tape1.count == 0 then .ok false
  else do
    let record0 ← deref s.tape0.first
    let record1 ← deref s.tape1.first
    pure (decide (0 < compare record0 record1))

def Merge.step (compare : α → α → ℤ) (s : Merge α) : Except Fault (Merge α) := do
  if ← s.choice compare then
    let (chosenRecord, tape1) ← s.tape1.take s.next
    let (next, output) ← s.output.append s.next chosenRecord
    pure { s with next := next, tape1 := tape1, n1 := s.n1 - 1, output := output }
  else
    let (chosenRecord, tape0) ← s.tape0.take s.next
    let (next, output) ← s.output.append s.next chosenRecord
    pure { s with next := next, tape0 := tape0, n0 := s.n0 - 1, output := output }

structure Pass (α : Type) where
  next : α → Option α
  tape0 : Tape α
  tape1 : Tape α
  output : Bool → Tape α
  dest : Bool

def Pass.mergeRun (compare : α → α → ℤ) (blockSize : ℕ) (s : Pass α) : Comp Fault (Pass α) := do
  let m ← loop Merge.more (fun m => ofExcept (m.step compare))
    ⟨s.next, s.tape0, s.tape1, blockSize, blockSize, s.output s.dest⟩
  pure ⟨m.next, m.tape0, m.tape1, Function.update s.output s.dest m.output, !s.dest⟩

structure Tapes (α : Type) where
  next : α → Option α
  tape : Bool → Bool → Tape α
  base : Bool
  blockSize : ℕ

def Tapes.pass (compare : α → α → ℤ) (s : Tapes α) : Comp Fault (Tapes α) := do
  let output := fun side : Bool => { s.tape (!s.base) side with count := 0 }
  let p ← loop (fun p => p.tape0.count != 0) (Pass.mergeRun compare s.blockSize)
    ⟨s.next, s.tape s.base false, s.tape s.base true, output, false⟩
  let source := fun side : Bool => if side then p.tape1 else p.tape0
  pure ⟨p.next, Function.update (Function.update s.tape s.base source) (!s.base) p.output, !s.base,
    s.blockSize * 2⟩

structure Distribution (α : Type) where
  next : α → Option α
  tape : Bool → Tape α
  p : Option α
  base : Bool

def Distribution.step (s : Distribution α) : Except Fault (Distribution α) := do
  let record ← deref s.p
  let t := s.tape s.base
  pure ⟨Function.update s.next record t.first,
    Function.update s.tape s.base { t with first := some record, count := t.count + 1 },
    s.next record, !s.base⟩

-- The tapes hold anything before they are set.
def start (garbage : Bool → Tape α) (next : α → Option α) (p : Option α) : Distribution α :=
  ⟨next, fun side => if side then { garbage side with count := 0 }
    else { garbage side with count := 0, first := none }, p, false⟩

-- The memory after the call, the list returned, and what is stored through `pcount`.
def sortLinkedList (compare : α → α → ℤ) (garbage : Bool → Bool → Tape α) (next : α → Option α)
    (p : Option α) (pcount : Bool) : Comp Fault ((α → Option α) × Option α × Option ℕ) := do
  let d ← loop (fun d => d.p.isSome) (fun d => ofExcept d.step) (start (garbage false) next p)
  let s ← loop (fun s : Tapes α => (s.tape s.base true).count != 0) (Tapes.pass compare)
    ⟨d.next, Function.update garbage false d.tape, false, 1⟩
  let t := s.tape s.base false
  let stored := if pcount then some t.count else none
  if 1 < t.count then do
    let last ← ofExcept (deref t.last)
    pure (Function.update s.next last none, t.first, stored)
  else pure (s.next, t.first, stored)

end Model

section Tapes

variable {α : Type} {next next' : α → Option α} {t : Tape α} {x : α} {xs : List α}

-- The records of a tape, from its first on. What is behind the last one is left open.
def Tape.Holds (next : α → Option α) (t : Tape α) (xs : List α) : Prop :=
  t.count = xs.length ∧ ∃ r, Segment next t.first xs r

def Tape.LastOf (t : Tape α) (xs : List α) : Prop := xs ≠ [] → t.last = xs.getLast?

lemma Tape.Holds.congr (h : t.Holds next xs) (hsame : ∀ b ∈ xs, next' b = next b) :
    t.Holds next' xs := by
  obtain ⟨hcount, r, hr⟩ := h
  exact ⟨hcount, r, hr.congr hsame⟩

lemma Tape.Holds.count_ne (h : t.Holds next xs) : (t.count != 0) = !xs.isEmpty := by
  rw [h.1]
  cases xs <;> rfl

lemma Tape.Holds.count_eq (h : t.Holds next xs) : (t.count == 0) = xs.isEmpty := by
  rw [h.1]
  cases xs <;> rfl

lemma Tape.Holds.first_eq (h : t.Holds next (x :: xs)) : t.first = some x := by
  obtain ⟨-, r, hr⟩ := h
  exact hr.1

lemma Tape.Holds.take (h : t.Holds next (x :: xs)) :
    ∃ t', t.take next = .ok (x, t') ∧ t'.Holds next xs := by
  refine ⟨{ t with count := t.count - 1, first := next x }, ?_, ?_, ?_⟩
  · rw [Tape.take, h.first_eq]
    rfl
  · dsimp only
    rw [h.1]
    rfl
  · obtain ⟨-, r, hr⟩ := h
    exact ⟨r, hr.2⟩

variable [DecidableEq α]

lemma Tape.Holds.append (h : t.Holds next xs) (hlast : t.LastOf xs) (hnodup : xs.Nodup)
    (hx : x ∉ xs) : ∃ next' t', t.append next x = .ok (next', t') ∧ t'.Holds next' (xs ++ [x])
      ∧ t'.LastOf (xs ++ [x]) ∧ ∀ b ∉ xs, next' b = next b := by
  rcases List.eq_nil_or_concat xs with rfl | ⟨ys, l, rfl⟩
  · refine ⟨next, ⟨some x, some x, 1⟩, ?_, ⟨rfl, next x, rfl, rfl⟩, fun _ => rfl, fun _ _ => rfl⟩
    have hzero : t.count = 0 := h.1
    rw [Tape.append, if_pos hzero]
  · rw [List.concat_eq_append] at *
    obtain ⟨hcount, r, hr⟩ := h
    have hl : t.last = some l := by
      rw [hlast (by simp), List.getLast?_append]
      rfl
    have hne : t.count ≠ 0 := by
      rw [hcount, List.length_append]
      exact Nat.succ_ne_zero _
    refine ⟨Function.update next l (some x), { t with last := some x, count := t.count + 1 }, ?_,
      ⟨?_, next x, ?_⟩, fun _ => ?_, fun b hb => ?_⟩
    · rw [Tape.append, if_neg hne, hl]
      rfl
    · simp only [hcount, List.length_append, List.length_singleton]
    · have hys : l ∉ ys := by
        intro hmem
        rw [List.nodup_append] at hnodup
        exact hnodup.2.2 l hmem l (List.mem_singleton_self l) rfl
      have hxl : x ≠ l := by
        rintro rfl
        exact hx (List.mem_append_right ys (List.mem_singleton_self x))
      rw [List.append_assoc, List.singleton_append]
      refine segment_middle.mpr ⟨(segment_middle.mp hr).1.update hys _, ?_⟩
      rw [Function.update_self]
      refine ⟨rfl, ?_⟩
      exact Function.update_of_ne hxl _ _
    · rw [List.getLast?_append]
      rfl
    · refine Function.update_of_ne (fun heq => hb ?_) _ _
      rw [heq]
      exact List.mem_append_right ys (List.mem_singleton_self l)

lemma Tape.Holds.cut (h : t.Holds next xs) (hlast : t.LastOf xs) (hne : xs ≠ []) (hnodup : xs.Nodup) :
    ∃ l ∈ xs, t.last = some l ∧ Segment (Function.update next l none) t.first xs none := by
  obtain ⟨ys, l, rfl⟩ := (List.eq_nil_or_concat xs).resolve_left hne
  rw [List.concat_eq_append] at *
  obtain ⟨-, r, hr⟩ := h
  have hys : l ∉ ys := by
    intro hmem
    rw [List.nodup_append] at hnodup
    exact hnodup.2.2 l hmem l (List.mem_singleton_self l) rfl
  refine ⟨l, List.mem_append_right ys (List.mem_singleton_self l), ?_, ?_⟩
  · rw [hlast hne, List.getLast?_append]
    rfl
  · refine segment_middle.mpr ⟨(segment_middle.mp hr).1.update hys _, ?_⟩
    exact Function.update_self _ _ _

end Tapes

section Merges

variable {α : Type} [DecidableEq α] {c : Comparison α}

structure Merge.Shows (next : α → Option α) (all : List α) (m : LLMSort.Merge α) (s : Merge α) :
    Prop where
  tape0 : s.tape0.Holds s.next m.tape0
  tape1 : s.tape1.Holds s.next m.tape1
  output : s.output.Holds s.next m.output
  last : s.output.LastOf m.output
  n0 : s.n0 = m.n0
  n1 : s.n1 = m.n1
  perm : (m.tape0 ++ (m.tape1 ++ m.output)).Perm all
  others : ∀ b ∉ all, s.next b = next b

variable {next : α → Option α} {all : List α} {m : LLMSort.Merge α} {s : Merge α}

omit [DecidableEq α] in
lemma Merge.Shows.more (h : s.Shows next all m) : m.more = s.more := by
  rw [LLMSort.Merge.more, Merge.more, h.tape0.count_eq, h.tape1.count_eq, h.n0, h.n1]
  cases m.tape0.isEmpty <;> cases m.tape1.isEmpty <;> simp [bne]

omit [DecidableEq α] in
lemma moved_perm (xs ys out : List α) (x : α) :
    (xs ++ (ys ++ (out ++ [x]))).Perm (xs ++ (x :: ys ++ out)) := by
  rw [← List.append_assoc ys]
  exact (List.perm_append_singleton x (ys ++ out)).append_left xs

lemma take_append {t u output : Tape α} {x : α} {xs ys out : List α}
    (ht : t.Holds next (x :: xs)) (hu : u.Holds next ys) (hout : output.Holds next out)
    (hlast : output.LastOf out) (hnodup : (ys ++ (x :: xs ++ out)).Nodup) :
    ∃ t' next' output', t.take next = .ok (x, t') ∧ output.append next x = .ok (next', output')
      ∧ t'.Holds next' xs ∧ u.Holds next' ys ∧ output'.Holds next' (out ++ [x])
      ∧ output'.LastOf (out ++ [x]) ∧ ∀ b ∉ out, next' b = next b := by
  obtain ⟨t', htake, ht'⟩ := ht.take
  rw [List.nodup_append] at hnodup
  obtain ⟨-, hrest, hys⟩ := hnodup
  rw [List.nodup_append] at hrest
  obtain ⟨-, hno, hxs⟩ := hrest
  obtain ⟨next', output', happend, hout', hlast', hsame⟩ := hout.append hlast hno
    (fun hx => hxs x List.mem_cons_self x hx rfl)
  refine ⟨t', next', output', htake, happend, ht'.congr fun b hb => hsame b fun hmem => ?_,
    hu.congr fun b hb => hsame b fun hmem => ?_, hout', hlast', hsame⟩
  · exact hxs b (List.mem_cons_of_mem x hb) b hmem rfl
  · exact hys b hb b (List.mem_append_right _ hmem) rfl

lemma Merge.Shows.take1 (h : s.Shows next all m) (hall : all.Nodup) {x : α} {xs : List α}
    (hm : m.tape1 = x :: xs) (hchoice : s.choice c.compare = .ok true) :
    ∃ s', s.step c.compare = .ok s' ∧ s'.Shows next all m.choose1 := by
  have hperm := h.perm
  have h1 := h.tape1
  rw [hm] at h1 hperm
  obtain ⟨t', next', output', htake, happend, ht', hu', hout', hlast', hsame⟩ :=
    take_append h1 h.tape0 h.output h.last (hperm.nodup_iff.mpr hall)
  refine ⟨{ s with next := next', tape1 := t', n1 := s.n1 - 1, output := output' }, ?_, ?_⟩
  · rw [Merge.step, hchoice, ok_bind, if_pos rfl, htake, ok_bind]
    dsimp only
    rw [happend]
    rfl
  · rw [LLMSort.Merge.choose1, hm]
    refine ⟨hu', ht', hout', hlast', h.n0, congrArg (· - 1) h.n1,
      (moved_perm _ _ _ _).trans hperm, fun b hb => ?_⟩
    refine (hsame b fun hmem => hb (hperm.mem_iff.mp ?_)).trans (h.others b hb)
    exact List.mem_append_right _ (List.mem_append_right _ hmem)

lemma Merge.Shows.take0 (h : s.Shows next all m) (hall : all.Nodup) {x : α} {xs : List α}
    (hm : m.tape0 = x :: xs) (hchoice : s.choice c.compare = .ok false) :
    ∃ s', s.step c.compare = .ok s' ∧ s'.Shows next all m.choose0 := by
  have hperm : (m.tape1 ++ (m.tape0 ++ m.output)).Perm all :=
    (List.perm_append_comm_assoc _ _ _).trans h.perm
  have h0 := h.tape0
  rw [hm] at h0 hperm
  obtain ⟨t', next', output', htake, happend, ht', hu', hout', hlast', hsame⟩ :=
    take_append h0 h.tape1 h.output h.last (hperm.nodup_iff.mpr hall)
  refine ⟨{ s with next := next', tape0 := t', n0 := s.n0 - 1, output := output' }, ?_, ?_⟩
  · rw [Merge.step, hchoice, ok_bind, if_neg Bool.false_ne_true, htake, ok_bind]
    dsimp only
    rw [happend]
    rfl
  · rw [LLMSort.Merge.choose0, hm]
    refine ⟨ht', hu', hout', hlast', congrArg (· - 1) h.n0, h.n1, ?_, fun b hb => ?_⟩
    · exact (List.perm_append_comm_assoc _ _ _).trans ((moved_perm _ _ _ _).trans hperm)
    · refine (hsame b fun hmem => hb (hperm.mem_iff.mp ?_)).trans (h.others b hb)
      exact List.mem_append_right _ (List.mem_append_right _ hmem)

lemma Merge.Shows.step (h : s.Shows next all m) (hall : all.Nodup) (hmore : m.more = true) :
    ∃ s', s.step c.compare = .ok s' ∧ s'.Shows next all (m.choose c.compare) := by
  have hend0 : (s.n0 == 0 || s.tape0.count == 0) = (m.n0 == 0 || m.tape0.isEmpty) := by
    rw [h.n0, h.tape0.count_eq]
  have hend1 : (s.n1 == 0 || s.tape1.count == 0) = (m.n1 == 0 || m.tape1.isEmpty) := by
    rw [h.n1, h.tape1.count_eq]
  rw [h.more, Merge.more, hend0, hend1] at hmore
  rw [LLMSort.Merge.choose]
  cases he0 : m.n0 == 0 || m.tape0.isEmpty with
  | true =>
    rw [if_pos rfl]
    cases hm : m.tape1 with
    | nil => simp [he0, hm] at hmore
    | cons x xs =>
      refine h.take1 hall hm ?_
      rw [Merge.choice, hend0, he0, if_pos rfl]
  | false =>
    obtain ⟨x, xs, hm0⟩ := List.exists_cons_of_ne_nil (l := m.tape0) fun hnil => by
      simp [hnil] at he0
    rw [if_neg Bool.false_ne_true]
    cases he1 : m.n1 == 0 || m.tape1.isEmpty with
    | true =>
      rw [if_pos rfl]
      refine h.take0 hall hm0 ?_
      rw [Merge.choice, hend0, he0, if_neg Bool.false_ne_true, hend1, he1, if_pos rfl]
    | false =>
      obtain ⟨y, ys, hm1⟩ := List.exists_cons_of_ne_nil (l := m.tape1) fun hnil => by
        simp [hnil] at he1
      have hchoice : s.choice c.compare = .ok (decide (0 < c.compare x y)) := by
        have h0 := h.tape0
        have h1 := h.tape1
        rw [hm0] at h0
        rw [hm1] at h1
        rw [Merge.choice, hend0, he0, if_neg Bool.false_ne_true, hend1, he1,
          if_neg Bool.false_ne_true, h0.first_eq, h1.first_eq]
        rfl
      have hhead0 : m.tape0.head? = some x := by rw [hm0]; rfl
      have hhead1 : m.tape1.head? = some y := by rw [hm1]; rfl
      rw [if_neg Bool.false_ne_true, hhead0, hhead1]
      by_cases hlt : 0 < c.compare x y
      · rw [decide_eq_true hlt] at hchoice
        simp only [hlt, if_true]
        exact h.take1 hall hm1 hchoice
      · rw [decide_eq_false hlt] at hchoice
        simp only [hlt, if_false]
        exact h.take0 hall hm0 hchoice

lemma merge_simulates (h : s.Shows next all m) (hall : all.Nodup) {m' : LLMSort.Merge α}
    (hm : (loop LLMSort.Merge.more (fun m => pure (m.choose c.compare)) m :
      Comp Empty (LLMSort.Merge α)).Returns m') :
    ∃ s', (loop Merge.more (fun s => ofExcept (s.step c.compare)) s).Returns s'
      ∧ s'.Shows next all m' := by
  refine loop_simulates (fun m (s : Merge α) => s.Shows next all m) (fun m s h => h.more)
    (fun m m' s h hmore hm' => ?_) h hm
  obtain rfl := Except.ok.inj (yields_pure.mp hm')
  obtain ⟨s', hs', h'⟩ := h.step hall hmore
  exact ⟨s', yields_ofExcept.mpr hs'.symm, h'⟩

end Merges

section Passes

variable {α : Type} [DecidableEq α] {c : Comparison α}

structure Pass.Shows (next : α → Option α) (all : List α) (p : LLMSort.Pass α) (s : Pass α) :
    Prop where
  tape0 : s.tape0.Holds s.next p.tape0
  tape1 : s.tape1.Holds s.next p.tape1
  output : ∀ side, (s.output side).Holds s.next (p.output side)
  last : ∀ side, (s.output side).LastOf (p.output side)
  dest : s.dest = p.dest
  nodup : (p.tape0 ++ (p.tape1 ++ (p.output p.dest ++ p.output (!p.dest)))).Nodup
  mem_all : ∀ b ∈ p.tape0 ++ (p.tape1 ++ (p.output p.dest ++ p.output (!p.dest))), b ∈ all
  others : ∀ b ∉ all, s.next b = next b

variable {next : α → Option α} {all : List α} {p : LLMSort.Pass α} {s : Pass α}

lemma Pass.Shows.mergeRun (h : s.Shows next all p) {blockSize : ℕ} {p' : LLMSort.Pass α}
    (hp : (p.mergeRun c.compare blockSize).Returns p') :
    ∃ s', (s.mergeRun c.compare blockSize).Returns s' ∧ s'.Shows next all p' := by
  obtain ⟨m, hm, hp'⟩ := returns_bind.mp hp
  obtain rfl := Except.ok.inj (yields_pure.mp hp')
  have hassoc : p.tape0 ++ (p.tape1 ++ (p.output p.dest ++ p.output (!p.dest)))
      = p.tape0 ++ (p.tape1 ++ p.output p.dest) ++ p.output (!p.dest) := by
    simp only [List.append_assoc]
  have hnodup := h.nodup
  have hmem := h.mem_all
  rw [hassoc] at hnodup hmem
  obtain ⟨hin, hother, hapart⟩ := List.nodup_append.mp hnodup
  have hstart : (⟨s.next, s.tape0, s.tape1, blockSize, blockSize, s.output s.dest⟩ : Merge α).Shows
      s.next (p.tape0 ++ (p.tape1 ++ p.output p.dest))
      ⟨p.tape0, p.tape1, blockSize, blockSize, p.output p.dest⟩ := by
    rw [h.dest]
    exact ⟨h.tape0, h.tape1, h.output _, h.last _, rfl, rfl, List.Perm.refl _, fun _ _ => rfl⟩
  obtain ⟨t, ht, hshows⟩ := merge_simulates hstart hin hm
  have hperm : (m.tape0 ++ (m.tape1 ++ (Function.update p.output p.dest m.output (!p.dest)
      ++ Function.update p.output p.dest m.output (!!p.dest)))).Perm
      (p.tape0 ++ (p.tape1 ++ p.output p.dest) ++ p.output (!p.dest)) := by
    rw [Bool.not_not, Function.update_self, Function.update_of_ne (Bool.not_ne_self _)]
    refine List.Perm.trans ?_ (hshows.perm.append_right _)
    simp only [List.append_assoc]
    exact (List.perm_append_comm.append_left _).append_left _
  have hsame : ∀ b ∈ p.output (!p.dest), t.next b = s.next b := by
    intro b hb
    exact hshows.others b fun hmem => hapart b hmem b hb rfl
  refine ⟨_, returns_bind.mpr ⟨t, ht, yields_pure.mpr rfl⟩, hshows.tape0, hshows.tape1,
    fun side => ?_, fun side => ?_, congrArg not h.dest, hperm.nodup_iff.mpr hnodup,
    fun b hb => hmem b (hperm.mem_iff.mp hb), fun b hb => ?_⟩
  · rw [h.dest]
    by_cases hside : side = p.dest
    · subst hside
      simp only [Function.update_self]
      exact hshows.output
    · simp only [Function.update_of_ne hside]
      obtain rfl := Bool.eq_not_of_ne hside
      exact (h.output _).congr hsame
  · rw [h.dest]
    by_cases hside : side = p.dest
    · subst hside
      simp only [Function.update_self]
      exact hshows.last
    · simp only [Function.update_of_ne hside]
      exact h.last side
  · refine (hshows.others b fun hin => hb (hmem b ?_)).trans (h.others b hb)
    exact List.mem_append_left _ hin

omit [DecidableEq α] in
lemma Pass.Shows.outputs (h : s.Shows next all p) :
    (p.output false ++ p.output true).Nodup ∧ ∀ b ∈ p.output false ++ p.output true, b ∈ all := by
  have hperm : (p.output p.dest ++ p.output (!p.dest)).Perm (p.output false ++ p.output true) := by
    cases p.dest with
    | false => exact List.Perm.refl _
    | true => exact List.perm_append_comm
  have hnodup := h.nodup
  have hmem := h.mem_all
  rw [← List.append_assoc] at hnodup hmem
  refine ⟨hperm.nodup_iff.mp (List.nodup_append.mp hnodup).2.1, fun b hb => hmem b ?_⟩
  exact List.mem_append_right _ (hperm.mem_iff.mpr hb)

lemma pass_simulates (h : s.Shows next all p) {blockSize : ℕ} {p' : LLMSort.Pass α}
    (hp : (loop (fun p => !p.tape0.isEmpty) (LLMSort.Pass.mergeRun c.compare blockSize) p).Returns
      p') :
    ∃ s', (loop (fun s => s.tape0.count != 0) (Pass.mergeRun c.compare blockSize) s).Returns s'
      ∧ s'.Shows next all p' :=
  loop_simulates (fun p (s : Pass α) => s.Shows next all p) (fun _ _ h => h.tape0.count_ne.symm)
    (fun _ _ _ h _ hp => h.mergeRun hp) h hp

structure Tapes.Shows (next : α → Option α) (all : List α) (t : LLMSort.Tapes α) (s : Tapes α) :
    Prop where
  tape0 : (s.tape s.base false).Holds s.next (t.tape t.base false)
  tape1 : (s.tape s.base true).Holds s.next (t.tape t.base true)
  base : s.base = t.base
  blockSize : s.blockSize = t.blockSize
  nodup : (t.tape t.base false ++ t.tape t.base true).Nodup
  mem_all : ∀ b ∈ t.tape t.base false ++ t.tape t.base true, b ∈ all
  others : ∀ b ∉ all, s.next b = next b
  ends : (t.tape t.base true).length ≤ (t.tape t.base false).length
      ∧ (t.tape t.base false).length ≤ (t.tape t.base true).length + 1
      ∧ Segment s.next (s.tape s.base false).first (t.tape t.base false) none
    ∨ 2 ≤ all.length ∧ (s.tape s.base false).LastOf (t.tape t.base false)

variable {t : LLMSort.Tapes α} {u : Tapes α}

omit [DecidableEq α] in
lemma Tapes.Shows.two_le (h : u.Shows next all t) (hmore : t.tape t.base true ≠ []) :
    2 ≤ all.length := by
  rcases h.ends with ⟨hle, -, -⟩ | ⟨htwo, -⟩
  · have hlength := (List.subperm_of_subset h.nodup h.mem_all).length_le
    rw [List.length_append] at hlength
    have := List.length_pos_of_ne_nil hmore
    omega
  · exact htwo

lemma Tapes.Shows.pass (h : u.Shows next all t) (hmore : t.tape t.base true ≠ [])
    {t' : LLMSort.Tapes α} (ht : (t.pass c.compare).Returns t') :
    ∃ u', (u.pass c.compare).Returns u' ∧ u'.Shows next all t' := by
  obtain ⟨p, hp, ht'⟩ := returns_bind.mp ht
  obtain rfl := Except.ok.inj (yields_pure.mp ht')
  have hstart : (⟨u.next, u.tape u.base false, u.tape u.base true,
      fun side => { u.tape (!u.base) side with count := 0 }, false⟩ : Pass α).Shows next all
      ⟨t.tape t.base false, t.tape t.base true, fun _ => [], false⟩ := by
    refine ⟨h.tape0, h.tape1, fun _ => ⟨rfl, _, rfl⟩, fun _ hne => absurd rfl hne, rfl, ?_, ?_, h.others⟩
    · simpa using h.nodup
    · simpa using h.mem_all
  obtain ⟨q, hq, hshows⟩ := pass_simulates hstart hp
  rw [← h.blockSize] at hq
  refine ⟨_, returns_bind.mpr ⟨q, hq, yields_pure.mpr rfl⟩, ?_, ?_, congrArg not h.base,
    congrArg (· * 2) h.blockSize, ?_, ?_, hshows.others, .inr ⟨?_, ?_⟩⟩
  · simp only [Function.update_self]
    exact hshows.output false
  · simp only [Function.update_self]
    exact hshows.output true
  · simp only [Function.update_self]
    exact hshows.outputs.1
  · simp only [Function.update_self]
    exact hshows.outputs.2
  · exact h.two_le hmore
  · simp only [Function.update_self]
    exact hshows.last false

lemma tapes_simulate (h : u.Shows next all t) {t' : LLMSort.Tapes α}
    (ht : (loop (fun t : LLMSort.Tapes α => !(t.tape t.base true).isEmpty)
      (LLMSort.Tapes.pass c.compare) t).Returns t') :
    ∃ u', (loop (fun u : Tapes α => (u.tape u.base true).count != 0) (Tapes.pass c.compare)
      u).Returns u' ∧ u'.Shows next all t' := by
  refine loop_simulates (fun t (u : Tapes α) => u.Shows next all t)
    (fun _ _ h => h.tape1.count_ne.symm) (fun t t' u h hmore ht => ?_) h ht
  refine h.pass (fun hnil => ?_) ht
  rw [hnil] at hmore
  cases hmore

end Passes

section Distribution

variable {α : Type} [DecidableEq α]

structure Distribution.Shows (next : α → Option α) (all : List α) (tape : Bool → List α)
    (base : Bool) (xs : List α) (d : Distribution α) : Prop where
  tape0 : (d.tape false).count = (tape false).length ∧ Segment d.next (d.tape false).first (tape false) none
  tape1 : (d.tape true).Holds d.next (tape true)
  rest : Segment d.next d.p xs none
  base : d.base = base
  perm : (xs ++ (tape false ++ tape true)).Perm all
  others : ∀ b ∉ all, d.next b = next b

variable {next : α → Option α} {all xs : List α} {tape : Bool → List α} {base : Bool} {x : α}
  {d : Distribution α}

lemma Distribution.Shows.step (h : d.Shows next all tape base (x :: xs)) (hall : all.Nodup) :
    ∃ d', d.step = .ok d'
      ∧ d'.Shows next all (Function.update tape base (x :: tape base)) (!base) xs := by
  have hnodup := h.perm.nodup_iff.mpr hall
  rw [List.cons_append, List.nodup_cons, List.mem_append, List.mem_append, not_or, not_or] at hnodup
  obtain ⟨⟨hxs, hx0, hx1⟩, -⟩ := hnodup
  obtain ⟨hp, hrest⟩ := h.rest
  have hbase := h.base
  refine ⟨⟨Function.update d.next x (d.tape base).first, Function.update d.tape base
    { d.tape base with first := some x, count := (d.tape base).count + 1 }, d.next x, !base⟩, ?_, ?_⟩
  · rw [Distribution.step, hp, hbase]
    rfl
  have hothers : ∀ b ∉ all, Function.update d.next x (d.tape base).first b = next b := by
    intro b hb
    rw [Function.update_of_ne]
    · exact h.others b hb
    · rintro rfl
      exact hb (h.perm.mem_iff.mp (List.mem_append_left _ List.mem_cons_self))
  cases base with
  | false =>
    refine ⟨⟨?_, ?_⟩, ?_, hrest.update hxs _, rfl, ?_, hothers⟩
    · simp only [Function.update_self, h.tape0.1, List.length_cons]
    · simp only [Function.update_self]
      refine ⟨rfl, ?_⟩
      rw [Function.update_self]
      exact h.tape0.2.update hx0 _
    · simp only [Function.update_of_ne Bool.false_ne_true.symm]
      exact h.tape1.congr fun b hb => Function.update_of_ne (ne_of_mem_of_not_mem hb hx1) _ _
    · rw [Function.update_self, Function.update_of_ne Bool.false_ne_true.symm]
      exact List.perm_middle.trans h.perm
  | true =>
    refine ⟨⟨?_, ?_⟩, ⟨?_, ?_⟩, hrest.update hxs _, rfl, ?_, hothers⟩
    · simp only [Function.update_of_ne Bool.false_ne_true]
      exact h.tape0.1
    · simp only [Function.update_of_ne Bool.false_ne_true]
      exact h.tape0.2.update hx0 _
    · simp only [Function.update_self, h.tape1.1, List.length_cons]
    · obtain ⟨-, r, hr⟩ := h.tape1
      simp only [Function.update_self]
      refine ⟨r, rfl, ?_⟩
      rw [Function.update_self]
      exact hr.update hx1 _
    · rw [Function.update_self, Function.update_of_ne Bool.false_ne_true, ← List.append_assoc]
      refine List.perm_middle.trans ?_
      rw [List.append_assoc]
      exact h.perm

lemma distribute_returns (h : d.Shows next all tape base xs) (hall : all.Nodup) :
    ∃ d' base', (loop (fun d => d.p.isSome) (fun d => ofExcept d.step) d : Comp Fault _).Returns d'
      ∧ d'.Shows next all (distribute tape base xs) base' [] := by
  induction xs generalizing tape base d with
  | nil =>
    have hp : d.p = none := h.rest
    exact ⟨d, base, loop_end (Option.isSome_eq_false_iff.mpr (Option.isNone_iff_eq_none.mpr hp)), h⟩
  | cons x xs ih =>
    obtain ⟨d₁, hstep, h₁⟩ := h.step hall
    obtain ⟨d', base', hd', h'⟩ := ih h₁
    have hp : d.p.isSome = true := Option.isSome_of_eq_some h.rest.1
    exact ⟨d', base', loop_step hp (yields_ofExcept.mpr hstep.symm) hd', h'⟩

end Distribution

/-- A list that ends is sorted in place: what comes back ends again, and its records are those of
the list, sorted. -/
theorem sortLinkedList_links {α : Type} [DecidableEq α] (c : Comparison α)
    (garbage : Bool → Bool → Tape α) (next : α → Option α) (p : Option α) (pcount : Bool)
    {records : List α} (h : Segment next p records none) :
    ∃ next' first sorted, (sortLinkedList c.compare garbage next p pcount).Returns
        (next', first, if pcount then some records.length else none)
      ∧ Segment next' first sorted none ∧ sorted.Perm records ∧ c.Sorted sorted
      ∧ ∀ b ∉ records, next' b = next b := by
  have hall := h.nodup
  have hstart : (start (garbage false) next p).Shows next records (fun _ => []) false records := by
    refine ⟨⟨rfl, rfl⟩, ⟨rfl, _, rfl⟩, h, rfl, ?_, fun _ _ => rfl⟩
    rw [List.append_nil, List.append_nil]
  obtain ⟨d, base, hd, hshows⟩ := distribute_returns hstart hall
  obtain ⟨out, hsort, hperm, hsorted⟩ := LLMSort.sortLinkedList_sorts c.follows_self records
  obtain ⟨t, ht, hout⟩ := returns_bind.mp hsort
  obtain ⟨hle, hlt, -⟩ := distribute_spec records (fun _ => []) false rfl
  have htapes : (⟨d.next, Function.update garbage false d.tape, false, 1⟩ : Tapes α).Shows next
      records ⟨Function.update (fun _ _ => []) false (distribute (fun _ => []) false records),
        false, 1⟩ := by
    have hnodup := hshows.perm.nodup_iff.mpr hall
    refine ⟨?_, ?_, rfl, rfl, ?_, ?_, hshows.others, .inl ⟨?_, ?_, ?_⟩⟩
    · simp only [Function.update_self]
      exact ⟨hshows.tape0.1, none, hshows.tape0.2⟩
    · simp only [Function.update_self]
      exact hshows.tape1
    · simp only [Function.update_self]
      exact hnodup
    · simp only [Function.update_self]
      exact fun b hb => hshows.perm.mem_iff.mp hb
    · simp only [Function.update_self]
      exact hle
    · simp only [Function.update_self]
      exact hlt
    · simp only [Function.update_self]
      exact hshows.tape0.2
  obtain ⟨u, hu, hend⟩ := tapes_simulate htapes ht
  obtain ⟨rfl, -⟩ := Prod.mk.inj (Except.ok.inj (yields_pure.mp hout))
  have hcount : (u.tape u.base false).count = records.length := hend.tape0.1.trans hperm.length_eq
  have hshort : (t.tape t.base true).length = 0 := by
    have hlength := (List.subperm_of_subset hend.nodup hend.mem_all).length_le
    rw [List.length_append, hperm.length_eq] at hlength
    omega
  have hlength := hperm.length_eq
  have hreturns : ∀ r, (sortLinkedList c.compare garbage next p pcount).Returns r
      ↔ (if 1 < (u.tape u.base false).count then do
          let last ← ofExcept (deref (u.tape u.base false).last)
          pure (Function.update u.next last none, (u.tape u.base false).first,
            if pcount then some (u.tape u.base false).count else none)
        else pure (u.next, (u.tape u.base false).first,
          if pcount then some (u.tape u.base false).count else none) : Comp Fault _).Returns r := by
    intro r
    rw [sortLinkedList, Returns, yields_bind_of_returns hd, yields_bind_of_returns hu]
  by_cases hone : 1 < (u.tape u.base false).count
  · have hlast : (u.tape u.base false).LastOf (t.tape t.base false) := by
      rcases hend.ends with ⟨-, hle', -⟩ | ⟨-, hlast⟩
      · omega
      · exact hlast
    have hne : t.tape t.base false ≠ [] := by
      intro hnil
      rw [hnil, List.length_nil] at hlength
      omega
    obtain ⟨l, hl, hlasteq, hsegment⟩ := hend.tape0.cut hlast hne (hperm.nodup_iff.mpr hall)
    refine ⟨Function.update u.next l none, (u.tape u.base false).first, t.tape t.base false, ?_,
      hsegment, hperm, hsorted, fun b hb => ?_⟩
    · rw [hreturns, if_pos hone, hlasteq, hcount]
      exact yields_pure.mpr rfl
    · rw [Function.update_of_ne]
      · exact hend.others b hb
      · rintro rfl
        exact hb (hperm.mem_iff.mp hl)
  · refine ⟨u.next, (u.tape u.base false).first, t.tape t.base false, ?_, ?_, hperm, hsorted,
      hend.others⟩
    · rw [hreturns, if_neg hone, hcount]
      exact yields_pure.mpr rfl
    · rcases hend.ends with ⟨-, -, hsegment⟩ | ⟨htwo, -⟩
      · exact hsegment
      · omega

def threeLinks : ℕ → Option ℕ := fun b => if b < 2 then some (b + 1) else none

def descending : Comparison ℕ where
  compare a b := (b : ℤ) - a
  flip a b := by omega
  trans a b c := by omega

theorem sortLinkedList_links_three :
    ∃ next' first sorted, (sortLinkedList descending.compare (fun _ _ => ⟨some 7, none, 5⟩) threeLinks
        (some 0) true).Returns (next', first, some 3)
      ∧ Segment next' first sorted none ∧ sorted.Perm [0, 1, 2] ∧ descending.Sorted sorted
      ∧ ∀ b ∉ [0, 1, 2], next' b = threeLinks b := by
  have h : Segment threeLinks (some 0) [0, 1, 2] none := ⟨rfl, rfl, rfl, rfl⟩
  exact sortLinkedList_links descending _ threeLinks (some 0) true h

end SimpleCode.Algorithm.LLMSort.Links
