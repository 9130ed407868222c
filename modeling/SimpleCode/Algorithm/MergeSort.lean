import SimpleCode.Algorithm.LLMSort

set_option autoImplicit false

/-! The merge sort of a file with the help of temporary files. A file that is read is the list of
the records ahead of its position, one that is written the list of the records written so far; the
file operations succeed. -/

namespace SimpleCode.Algorithm.MergeSort

open Foundations Foundations.Comp
open LLMSort (sortLinkedList sortLinkedList_sorts RunLeft)

variable {α : Type}

structure SourceTape (α : Type) where
  fp : List α
  count : ℕ
  record : Option α

def SourceTape.read (tape : SourceTape α) : SourceTape α :=
  match tape.fp with
  | [] => tape
  | record :: fp => { tape with fp := fp, record := some record }

def SourceTape.advance (tape : SourceTape α) : SourceTape α :=
  let tape := if 1 < tape.count then tape.read else tape
  { tape with count := tape.count - 1 }

structure BlockMerge (α : Type) where
  source0 : SourceTape α
  source1 : SourceTape α
  count0 : ℕ
  count1 : ℕ
  destination : List α

def BlockMerge.more (s : BlockMerge α) : Bool := s.count0 + s.count1 != 0

def BlockMerge.select (compare : α → α → ℤ) (s : BlockMerge α) : Bool :=
  if s.count0 = 0 then true
  else if s.count1 = 0 then false
  else
    match s.source0.record, s.source1.record with
    | some record0, some record1 => if compare record0 record1 < 0 then false else true
    | _, _ => true

def BlockMerge.move (compare : α → α → ℤ) (s : BlockMerge α) : BlockMerge α :=
  if s.select compare then
    { s with
      destination := s.destination ++ s.source1.record.toList
      source1 := s.source1.advance
      count1 := s.count1 - 1 }
  else
    { s with
      destination := s.destination ++ s.source0.record.toList
      source0 := s.source0.advance
      count0 := s.count0 - 1 }

structure TapeMerge (α : Type) where
  source0 : SourceTape α
  source1 : SourceTape α
  destinationTape : Bool → List α
  destination : Bool

def TapeMerge.mergeBlocks (compare : α → α → ℤ) (blockSize : ℕ) (s : TapeMerge α) :
    Comp Empty (TapeMerge α) := do
  let count0 := if blockSize < s.source0.count then blockSize else s.source0.count
  let count1 := if blockSize < s.source1.count then blockSize else s.source1.count
  let m ← loop BlockMerge.more (fun m => pure (m.move compare))
    ⟨s.source0, s.source1, count0, count1, s.destinationTape s.destination⟩
  pure ⟨m.source0, m.source1, Function.update s.destinationTape s.destination m.destination,
    !s.destination⟩

structure Files (α : Type) where
  source0 : SourceTape α
  source1 : SourceTape α
  blockSize : ℕ
  sortedFile : List α

-- Destination tape 0 is the sorted file itself when tape 0 holds one block only.
def Files.mergeTapes (compare : α → α → ℤ) (s : Files α) : Comp Empty (Files α) := do
  let last := decide (s.source0.count ≤ s.blockSize)
  let m ← loop (fun m => m.source0.count != 0) (TapeMerge.mergeBlocks compare s.blockSize)
    ⟨s.source0.read, s.source1.read, fun _ => [], false⟩
  let rewind := fun (side : Bool) (record : Option α) =>
    (⟨m.destinationTape side, (m.destinationTape side).length, record⟩ : SourceTape α)
  pure ⟨rewind false m.source0.record, rewind true m.source1.record, s.blockSize * 2,
    if last then m.destinationTape false else s.sortedFile⟩

def sortBlock (compare : α → α → ℤ) (first : List α) (tape : Bool → List α)
    (destination : Bool) : Comp Empty (Bool → List α) := do
  let (sorted, _) ← sortLinkedList compare first
  pure (Function.update tape destination (tape destination ++ sorted))

def readBlocks (compare : α → α → ℤ) (blockSize : ℕ) :
    List α → List α → ℕ → (Bool → List α) → Bool → Comp Empty (Bool → List α)
  | [], first, blockCount, tape, destination =>
    if blockCount = blockSize ∨ blockCount ≠ 0 then sortBlock compare first tape destination
    else pure tape
  | record :: unsorted, first, blockCount, tape, destination =>
    if blockCount + 1 = blockSize then do
      let tape ← sortBlock compare (record :: first) tape destination
      readBlocks compare blockSize unsorted [] 0 tape (!destination)
    else readBlocks compare blockSize unsorted (record :: first) (blockCount + 1) tape destination

-- `while (source_tape[1].count-- != 0L)`
def copyRecords : ℕ → SourceTape α → List α → List α
  | 0, _, sortedFile => sortedFile
  | count + 1, tape, sortedFile =>
    copyRecords count tape.read (sortedFile ++ tape.read.record.toList)

def mergeSort (compare : α → α → ℤ) (blockSize : ℕ) (unsorted : List α) :
    Comp Empty (List α × ℕ) := do
  let tape ← readBlocks compare blockSize unsorted [] 0 (fun _ => []) false
  let source := fun side => (⟨tape side, (tape side).length, none⟩ : SourceTape α)
  if (source true).count = 0 then
    pure (copyRecords (source false).count (source false) [], (source false).count)
  else
    let s ← loop (fun s : Files α => s.source1.count != 0) (Files.mergeTapes compare)
      ⟨source false, source true, blockSize, []⟩
    pure (s.sortedFile, s.source0.count)

section Correctness

variable {compare : α → α → ℤ}

def pick (compare : α → α → ℤ) (a b : α) : Bool := decide (compare a b < 0)

lemma picks_pick {c : Comparison α} (h : c.Follows compare) : c.Picks (pick compare) where
  left a b hab := h.le a b (of_decide_eq_true hab).le
  right a b hab := h.ge a b (not_lt.mp (of_decide_eq_false hab))

def Holds (tape : SourceTape α) : List α → Prop
  | [] => tape.count = 0
  | x :: rest => tape.count = rest.length + 1 ∧ tape.record = some x ∧ tape.fp = rest

section

variable {tape : SourceTape α} {x : α} {rest records : List α}

lemma Holds.count (h : Holds tape records) : tape.count = records.length := by
  cases records with
  | nil => exact h
  | cons x rest => exact h.1

lemma Holds.advance (h : Holds tape (x :: rest)) : Holds tape.advance rest := by
  obtain ⟨hcount, -, hfp⟩ := h
  cases rest with
  | nil =>
    rw [SourceTape.advance, if_neg (by simp [hcount])]
    exact congrArg (· - 1) hcount
  | cons y rest =>
    rw [SourceTape.advance, if_pos (by simp [hcount]), SourceTape.read, hfp]
    exact ⟨congrArg (· - 1) hcount, rfl, rfl⟩

lemma holds_read (h : tape.fp = records) (hcount : tape.count = records.length) :
    Holds tape.read records := by
  cases records with
  | nil =>
    rw [SourceTape.read, h]
    exact hcount
  | cons x rest =>
    rw [SourceTape.read, h]
    exact ⟨hcount, rfl, rfl⟩

end

structure AtBlocks (rest0 rest1 : List α) (m : BlockMerge α) (xs ys o : List α) : Prop where
  source0 : Holds m.source0 (xs ++ rest0)
  source1 : Holds m.source1 (ys ++ rest1)
  count0 : m.count0 = xs.length
  count1 : m.count1 = ys.length
  destination : m.destination = o

section

variable {m : BlockMerge α} {x y : α} {xs ys o rest0 rest1 : List α}

lemma AtBlocks.more_iff (h : AtBlocks rest0 rest1 m xs ys o) :
    m.more = true ↔ xs.length + ys.length ≠ 0 := by
  rw [BlockMerge.more, h.count0, h.count1, bne_iff_ne]

lemma AtBlocks.move0 (h : AtBlocks rest0 rest1 m (x :: xs) ys o)
    (hselect : m.select compare = false) :
    AtBlocks rest0 rest1 (m.move compare) xs ys (o ++ [x]) := by
  rw [BlockMerge.move, hselect, if_neg Bool.false_ne_true]
  refine ⟨h.source0.advance, h.source1, ?_, h.count1, ?_⟩
  · rw [h.count0]
    rfl
  · rw [h.destination, h.source0.2.1]
    rfl

lemma AtBlocks.move1 (h : AtBlocks rest0 rest1 m xs (y :: ys) o)
    (hselect : m.select compare = true) :
    AtBlocks rest0 rest1 (m.move compare) xs ys (o ++ [y]) := by
  rw [BlockMerge.move, hselect, if_pos rfl]
  refine ⟨h.source0, h.source1.advance, h.count0, ?_, ?_⟩
  · rw [h.count1]
    rfl
  · rw [h.destination, h.source1.2.1]
    rfl

lemma AtBlocks.select_left (h : AtBlocks rest0 rest1 m (x :: xs) [] o) :
    m.select compare = false := by
  rw [BlockMerge.select, h.count0, h.count1]
  rfl

lemma AtBlocks.select_right (h : AtBlocks rest0 rest1 m [] ys o) :
    m.select compare = true := by
  rw [BlockMerge.select, h.count0]
  rfl

lemma AtBlocks.chosen (h : AtBlocks rest0 rest1 m xs ys o) (hmore : m.more = true) :
    m.select compare = true ∧ ys ≠ [] ∨ m.select compare = false ∧ xs ≠ [] := by
  rcases xs with _ | ⟨x, xs⟩ <;> rcases ys with _ | ⟨y, ys⟩
  · exact absurd rfl (h.more_iff.mp hmore)
  · exact .inl ⟨h.select_right, List.cons_ne_nil _ _⟩
  · exact .inr ⟨h.select_left, List.cons_ne_nil _ _⟩
  · cases hselect : m.select compare with
    | true => exact .inl ⟨rfl, List.cons_ne_nil _ _⟩
    | false => exact .inr ⟨rfl, List.cons_ne_nil _ _⟩

lemma AtBlocks.select_both (h : AtBlocks rest0 rest1 m (x :: xs) (y :: ys) o) :
    m.select compare = !pick compare x y := by
  rw [BlockMerge.select, h.count0, h.count1, List.length_cons, List.length_cons,
    if_neg (Nat.succ_ne_zero _), if_neg (Nat.succ_ne_zero _), h.source0.2.1, h.source1.2.1, pick]
  by_cases hlt : compare x y < 0
  · simp [hlt]
  · simp [hlt]

end

theorem loop_move {m : BlockMerge α} {run0 run1 rest0 rest1 o : List α}
    (h : AtBlocks rest0 rest1 m run0 run1 o) :
    ∃ m', (loop BlockMerge.more (fun m => pure (m.move compare)) m :
        Comp Empty (BlockMerge α)).Returns m'
      ∧ AtBlocks rest0 rest1 m' [] [] (o ++ List.merge run0 run1 (pick compare)) := by
  refine loop_merge (pick compare) (R := AtBlocks rest0 rest1) ?_ ?_ ?_ ?_ h
  · intro m o h
    exact Bool.eq_false_iff.mpr fun hmore => h.more_iff.mp hmore rfl
  · intro m x xs o h
    exact ⟨h.more_iff.mpr (by simp), _, yields_pure.mpr rfl, h.move0 h.select_left⟩
  · intro m y ys o h
    exact ⟨h.more_iff.mpr (by simp), _, yields_pure.mpr rfl, h.move1 h.select_right⟩
  · intro m x xs y ys o h
    refine ⟨h.more_iff.mpr (by simp), _, yields_pure.mpr rfl, ?_⟩
    have hselect : m.select compare = !pick compare x y := h.select_both
    cases hpick : pick compare x y with
    | true =>
      rw [if_pos rfl]
      exact h.move0 (by rw [hselect, hpick]; rfl)
    | false =>
      rw [if_neg Bool.false_ne_true]
      exact h.move1 (by rw [hselect, hpick]; rfl)

lemma block_count {n : ℕ} {run rest : List α} (h : RunLeft n run rest) :
    (if n < (run ++ rest).length then n else (run ++ rest).length) = run.length := by
  rw [List.length_append]
  rcases h with h | ⟨h, rfl⟩
  · split <;> omega
  · rw [List.length_nil, Nat.add_zero, if_neg h.not_gt]

structure InPass (b : ℕ) (s : TapeMerge α) (rs done : List (List α)) : Prop where
  source0 : Holds s.source0 (deal rs).1.flatten
  source1 : Holds s.source1 (deal rs).2.flatten
  blocks : Blocks b rs
  written : Written s.destinationTape s.destination done

lemma InPass.atBlocks {b : ℕ} {s : TapeMerge α} {r : List α} {rs done : List (List α)}
    (h : InPass b s (r :: rs) done) :
    AtBlocks (deal rs.tail).1.flatten (deal rs.tail).2.flatten
      ⟨s.source0, s.source1, if b < s.source0.count then b else s.source0.count,
        if b < s.source1.count then b else s.source1.count, s.destinationTape s.destination⟩
      r (rs.headD []) (s.destinationTape s.destination) := by
  have h0 := h.source0
  have h1 := h.source1
  rw [(deal_cons r rs).1] at h0
  rw [(deal_cons r rs).2] at h1
  refine ⟨h0, h1, ?_, ?_, rfl⟩
  · rw [h0.count]
    exact block_count h.blocks.first_end
  · rw [h1.count]
    exact block_count h.blocks.second_end

lemma inPass_mergeBlocks {b : ℕ} {s : TapeMerge α} {r : List α} {rs done : List (List α)}
    (h : InPass b s (r :: rs) done) : ∃ t, (s.mergeBlocks compare b).Returns t
      ∧ InPass b t rs.tail (done ++ [List.merge r (rs.headD []) (pick compare)]) := by
  obtain ⟨m, hm, hend⟩ := loop_move h.atBlocks
  refine ⟨_, returns_bind.mpr ⟨m, hm, yields_pure.mpr rfl⟩, hend.source0, hend.source1, ?_, ?_⟩
  · cases rs with
    | nil => trivial
    | cons s rs => exact h.blocks.tail.tail
  · simp only [hend.destination]
    exact h.written.put _

structure AtPass (s : Files α) (runs : List (List α)) : Prop where
  fp0 : s.source0.fp = (deal runs).1.flatten
  count0 : s.source0.count = (deal runs).1.flatten.length
  fp1 : s.source1.fp = (deal runs).2.flatten
  count1 : s.source1.count = (deal runs).2.flatten.length
  blocks : Blocks s.blockSize runs
  pos : 0 < s.blockSize
  sortedFile : runs.length ≤ 1 → s.sortedFile = runs.flatten

lemma AtPass.last_iff {s : Files α} {runs : List (List α)} (h : AtPass s runs)
    (hlt : 1 < runs.length) : s.source0.count ≤ s.blockSize ↔ runs.length = 2 := by
  have hne := h.blocks.ne_nil h.pos
  match runs, hlt with
  | [r, r'], _ =>
    rw [h.count0, (deal_cons r [r']).1]
    exact iff_of_true (by simp [deal, h.blocks.1]) rfl
  | r :: r' :: t :: rs, _ =>
    rw [h.count0, (deal_cons r (r' :: t :: rs)).1, List.length_append, h.blocks.1, List.tail_cons,
      (deal_cons t rs).1, List.length_append]
    have ht : 0 < t.length := List.length_pos_iff.mpr (hne t (by simp))
    refine iff_of_false (by omega) ?_
    simp

lemma atPass_mergeTapes {s : Files α} {runs : List (List α)} (h : AtPass s runs)
    (hlt : 1 < runs.length) :
    ∃ t, (s.mergeTapes compare).Returns t ∧ AtPass t (pairUp (List.merge · · (pick compare)) runs) := by
  have hloop : ∃ m, (loop (fun m : TapeMerge α => m.source0.count != 0)
      (TapeMerge.mergeBlocks compare s.blockSize)
      ⟨s.source0.read, s.source1.read, fun _ => [], false⟩).Returns m
      ∧ InPass s.blockSize m [] ([] ++ pairUp (List.merge · · (pick compare)) runs) := by
    refine loop_pairs List.merge_right (R := InPass s.blockSize) ?_ ?_
      ⟨holds_read h.fp0 h.count0, holds_read h.fp1 h.count1, h.blocks, ⟨rfl, rfl, rfl⟩⟩
    · intro m done hm
      rw [hm.source0.count]
      rfl
    · intro m r rs done hm
      refine ⟨?_, inPass_mergeBlocks hm⟩
      rw [hm.source0.count, (deal_cons r rs).1, bne_iff_ne, List.length_append]
      have hr := List.length_pos_iff.mpr (hm.blocks.ne_nil h.pos r List.mem_cons_self)
      omega
  obtain ⟨m, hm, hend⟩ := hloop
  have hfirst := hend.written.first
  have hsecond := hend.written.second
  rw [List.nil_append] at hfirst hsecond
  refine ⟨_, returns_bind.mpr ⟨m, hm, yields_pure.mpr rfl⟩, hfirst, congrArg List.length hfirst,
    hsecond, congrArg List.length hsecond, ?_, Nat.mul_pos h.pos Nat.two_pos, fun hle => ?_⟩
  · rw [mul_comm]
    exact pairUp_blocks h.pos h.blocks
  · rw [pairUp_length] at hle
    have hlast : s.source0.count ≤ s.blockSize := (h.last_iff hlt).mpr (by omega)
    simp only [hlast, decide_true, if_true]
    rw [hfirst]
    exact deal_of_length_le_one (by rw [pairUp_length]; exact hle)

structure Distributed (c : Comparison α) (b : ℕ) (tape : Bool → List α) (destination : Bool)
    (done : List (List α)) : Prop where
  written : Written tape destination done
  length : ∀ r ∈ done, r.length = b
  sorted : ∀ r ∈ done, c.Sorted r

variable {c : Comparison α}

lemma sortBlock_returns (hc : c.Follows compare) (first : List α) (tape : Bool → List α)
    (destination : Bool) :
    ∃ r, (sortBlock compare first tape destination).Returns
        (Function.update tape destination (tape destination ++ r))
      ∧ r.Perm first ∧ c.Sorted r := by
  obtain ⟨r, hr, hperm, hsorted⟩ := sortLinkedList_sorts hc first
  exact ⟨r, returns_bind.mpr ⟨_, hr, yields_pure.mpr rfl⟩, hperm, hsorted⟩

lemma distributed_nil (c : Comparison α) (b : ℕ) :
    Distributed c b (fun _ => ([] : List α)) false [] :=
  ⟨⟨rfl, rfl, rfl⟩, by simp, by simp⟩

lemma Distributed.put {b : ℕ} {tape : Bool → List α} {destination : Bool} {done : List (List α)}
    (h : Distributed c b tape destination done) {r : List α} (hlen : r.length = b)
    (hr : c.Sorted r) :
    Distributed c b (Function.update tape destination (tape destination ++ r)) (!destination)
      (done ++ [r]) := by
  refine ⟨h.written.put r, ?_, ?_⟩
  · rw [List.forall_mem_append, List.forall_mem_singleton]
    exact ⟨h.length, hlen⟩
  · rw [List.forall_mem_append, List.forall_mem_singleton]
    exact ⟨h.sorted, hr⟩

lemma readBlocks_returns (hc : c.Follows compare) {b : ℕ} (hb : 0 < b) (unsorted first : List α)
    (hfirst : first.length < b) {tape : Bool → List α} {destination : Bool}
    {done : List (List α)} (h : Distributed c b tape destination done) :
    ∃ tape' destination' runs,
      (readBlocks compare b unsorted first first.length tape destination).Returns tape'
        ∧ Written tape' destination' runs ∧ Blocks b runs ∧ (∀ r ∈ runs, c.Sorted r)
        ∧ runs.flatten.Perm (done.flatten ++ (first ++ unsorted)) := by
  induction unsorted generalizing first tape destination done with
  | nil =>
    rw [readBlocks]
    by_cases hnil : first = []
    · subst hnil
      rw [if_neg (by simp only [List.length_nil]; omega)]
      refine ⟨tape, destination, done, yields_pure.mpr rfl, h.written, blocks_of_length hb h.length,
        h.sorted, ?_⟩
      rw [List.append_nil, List.append_nil]
    · rw [if_pos (.inr fun hzero => hnil (List.eq_nil_of_length_eq_zero hzero))]
      obtain ⟨r, hr, hperm, hsorted⟩ := sortBlock_returns hc first tape destination
      refine ⟨_, _, done ++ [r], hr, h.written.put r, .concat h.length ?_ ?_, ?_, ?_⟩
      · exact fun hr => hnil (List.perm_nil.mp (hr ▸ hperm.symm))
      · exact hperm.length_eq.trans_le hfirst.le
      · rw [List.forall_mem_append, List.forall_mem_singleton]
        exact ⟨h.sorted, hsorted⟩
      · rw [List.flatten_append, List.flatten_singleton, List.append_nil]
        exact hperm.append_left _
  | cons record unsorted ih =>
    rw [readBlocks]
    by_cases hfull : first.length + 1 = b
    · obtain ⟨r, hr, hperm, hsorted⟩ := sortBlock_returns hc (record :: first) tape destination
      have hlen : r.length = b := hperm.length_eq.trans hfull
      obtain ⟨tape', destination', runs, hret, hw, hblocks, hs, hruns⟩ :=
        ih [] hb (h.put hlen hsorted)
      rw [if_pos hfull]
      refine ⟨tape', destination', runs, returns_bind.mpr ⟨_, hr, hret⟩, hw, hblocks, hs,
        hruns.trans ?_⟩
      rw [List.flatten_append, List.flatten_singleton, List.nil_append, List.append_assoc]
      refine (hperm.append_right unsorted).trans ?_ |>.append_left done.flatten
      exact List.perm_middle.symm
    · obtain ⟨tape', destination', runs, hret, hw, hblocks, hs, hruns⟩ :=
        ih (record :: first) (by rw [List.length_cons]; omega) h
      rw [if_neg hfull]
      refine ⟨tape', destination', runs, hret, hw, hblocks, hs, hruns.trans ?_⟩
      exact List.perm_middle.symm.append_left done.flatten

lemma copyRecords_eq (records : List α) (count : ℕ) (record : Option α) (sortedFile : List α) :
    copyRecords records.length ⟨records, count, record⟩ sortedFile = sortedFile ++ records := by
  induction records generalizing record sortedFile with
  | nil => exact (List.append_nil sortedFile).symm
  | cons x records ih =>
    rw [List.length_cons, copyRecords]
    refine (ih (some x) (sortedFile ++ [x])).trans ?_
    rw [List.append_assoc]
    rfl

lemma mergeSort_blocks (hc : c.Follows compare) {blockSize : ℕ} (hpos : 0 < blockSize)
    (unsorted : List α) :
    ∃ sortedFile, (mergeSort compare blockSize unsorted).Returns (sortedFile, unsorted.length)
      ∧ sortedFile.Perm unsorted ∧ c.Sorted sortedFile := by
  obtain ⟨tape, _, runs, hread, hw, hblocks, hs, hperm⟩ :=
    readBlocks_returns hc hpos unsorted [] hpos (distributed_nil c blockSize)
  rw [List.flatten_nil, List.nil_append, List.nil_append] at hperm
  by_cases hone : runs.length ≤ 1
  · -- one block is sorted in memory and copied
    have hfirst : tape false = runs.flatten := hw.first.trans (deal_of_length_le_one hone)
    have hsecond : tape true = [] := by
      rw [hw.second]
      exact not_not.mp fun hne => hone.not_gt ((second_ne_nil (hblocks.ne_nil hpos)).mp hne)
    refine ⟨runs.flatten, ?_, hperm, (picks_pick hc).merging.good_flatten hone hs⟩
    refine returns_bind.mpr ⟨tape, hread, ?_⟩
    simp only [hsecond, List.length_nil, if_true]
    refine yields_pure.mpr ?_
    rw [copyRecords_eq, hfirst, List.nil_append, hperm.length_eq]
  · have hne : (deal runs).2.flatten ≠ [] :=
      (second_ne_nil (hblocks.ne_nil hpos)).mpr (not_le.mp hone)
    have hloop : ∃ s runs', (loop (fun s : Files α => s.source1.count != 0)
        (Files.mergeTapes compare)
        ⟨⟨tape false, (tape false).length, none⟩, ⟨tape true, (tape true).length, none⟩,
          blockSize, []⟩).Returns s
        ∧ AtPass s runs' ∧ runs'.length ≤ 1 ∧ runs'.flatten.Perm runs.flatten
        ∧ ∀ r ∈ runs', c.Sorted r := by
      refine loop_passes (R := AtPass) (picks_pick hc).merging Nat.one_pos (fun s runs h => ?_)
        (fun s runs h hlt => atPass_mergeTapes h hlt) ?_ hs
      · rw [bne_iff_ne, h.count1, Ne, List.length_eq_zero_iff]
        exact second_ne_nil (h.blocks.ne_nil h.pos)
      · exact ⟨hw.first, congrArg List.length hw.first, hw.second, congrArg List.length hw.second,
          hblocks, hpos, fun h => absurd h hone⟩
    obtain ⟨s, runs', hret, hend, hle, hperm', hs'⟩ := hloop
    have hfinal := hperm'.trans hperm
    refine ⟨runs'.flatten, ?_, hfinal, (picks_pick hc).merging.good_flatten hle hs'⟩
    refine returns_bind.mpr ⟨tape, hread, ?_⟩
    rw [if_neg fun hzero => hne (hw.second ▸ List.eq_nil_of_length_eq_zero hzero)]
    refine returns_bind.mpr ⟨s, hret, yields_pure.mpr ?_⟩
    rw [hend.sortedFile hle, hend.count0, deal_of_length_le_one hle, hfinal.length_eq]

-- A block of this size is full before its first record only, so that all records go into one.
lemma readBlocks_zero (hc : c.Follows compare) (unsorted first : List α) (tape : Bool → List α)
    (destination : Bool) : ∃ r, (readBlocks compare 0 unsorted first first.length tape destination).Returns
        (Function.update tape destination (tape destination ++ r))
      ∧ r.Perm (first ++ unsorted) ∧ c.Sorted r := by
  induction unsorted generalizing first with
  | nil =>
    obtain ⟨r, hr, hperm, hsorted⟩ := sortBlock_returns hc first tape destination
    rw [readBlocks, if_pos (eq_or_ne first.length 0), List.append_nil]
    exact ⟨r, hr, hperm, hsorted⟩
  | cons record unsorted ih =>
    obtain ⟨r, hr, hperm, hsorted⟩ := ih (record :: first)
    rw [readBlocks, if_neg (Nat.succ_ne_zero _)]
    exact ⟨r, hr, hperm.trans List.perm_middle.symm, hsorted⟩

lemma mergeSort_zero (hc : c.Follows compare) (unsorted : List α) :
    ∃ sortedFile, (mergeSort compare 0 unsorted).Returns (sortedFile, unsorted.length)
      ∧ sortedFile.Perm unsorted ∧ c.Sorted sortedFile := by
  obtain ⟨r, hread, hperm, hsorted⟩ := readBlocks_zero hc unsorted [] (fun _ => []) false
  refine ⟨r, returns_bind.mpr ⟨_, hread, ?_⟩, hperm, hsorted⟩
  simp only [Function.update_self, List.nil_append]
  rw [if_pos (by rfl)]
  refine yields_pure.mpr ?_
  rw [copyRecords_eq, List.nil_append, hperm.length_eq]
  rfl

theorem mergeSort_returns (hc : c.Follows compare) (blockSize : ℕ) (unsorted : List α) :
    ∃ sortedFile, (mergeSort compare blockSize unsorted).Returns (sortedFile, unsorted.length)
      ∧ sortedFile.Perm unsorted ∧ c.Sorted sortedFile := by
  rcases Nat.eq_zero_or_pos blockSize with rfl | hpos
  · exact mergeSort_zero hc unsorted
  · exact mergeSort_blocks hc hpos unsorted

theorem mergeSort_sorts (c : Comparison α) {blockSize : ℕ} (hpos : 0 < blockSize)
    (unsorted : List α) :
    ∃ sortedFile, (mergeSort c.compare blockSize unsorted).Returns (sortedFile, unsorted.length)
      ∧ sortedFile.Perm unsorted ∧ c.Sorted sortedFile :=
  mergeSort_blocks c.follows_self hpos unsorted

theorem mergeSort_sorts_five : ∃ sortedFile,
    (mergeSort Comparison.bytes.compare 2 [5, 3, 9, 1, 4]).Returns (sortedFile, 5)
      ∧ sortedFile.Perm [5, 3, 9, 1, 4] ∧ Comparison.bytes.Sorted sortedFile :=
  mergeSort_sorts Comparison.bytes Nat.two_pos [5, 3, 9, 1, 4]

end Correctness

end SimpleCode.Algorithm.MergeSort
