import SimpleCode.Algorithm.MergeSort

set_option autoImplicit false

namespace SimpleCode.Algorithm.FileSort

open Foundations Foundations.Comp
open LLMSort (sortLinkedList)

inductive Role
  | unsorted
  | sorted
  | temporary
deriving DecidableEq

-- `read`, which answers with a record or with the end of the file, `write`, and the state behind
-- their `pointer`.
structure Callbacks (φ σ β : Type) where
  empty : φ
  read : Role → φ → σ → Option β × φ × σ
  write : Role → φ → β → φ

section Model

variable {φ σ β : Type} (cb : Callbacks φ σ β) (compare : β → β → ℤ)

structure SourceTape (φ β : Type) where
  fp : φ
  count : ℕ
  record : Option β

def SourceTape.read (tape : SourceTape φ β) (state : σ) : SourceTape φ β × σ :=
  let (record, fp, state) := cb.read .temporary tape.fp state
  ({ tape with fp := fp, record := record.or tape.record }, state)

def SourceTape.advance (tape : SourceTape φ β) (state : σ) : SourceTape φ β × σ :=
  let (tape, state) := if 1 < tape.count then tape.read cb state else (tape, state)
  ({ tape with count := tape.count - 1 }, state)

structure BlockMerge (φ σ β : Type) where
  source0 : SourceTape φ β
  source1 : SourceTape φ β
  count0 : ℕ
  count1 : ℕ
  destination : φ
  destinationCount : ℕ
  state : σ

def BlockMerge.more (s : BlockMerge φ σ β) : Bool := s.count0 + s.count1 != 0

def BlockMerge.select (s : BlockMerge φ σ β) : Bool :=
  if s.count0 = 0 then true
  else if s.count1 = 0 then false
  else
    match s.source0.record, s.source1.record with
    | some record0, some record1 => if compare record0 record1 < 0 then false else true
    | _, _ => true

def BlockMerge.move (role : Role) (s : BlockMerge φ σ β) : BlockMerge φ σ β :=
  if s.select compare then
    let destination := s.source1.record.toList.foldl (cb.write role) s.destination
    let (source1, state) := s.source1.advance cb s.state
    { s with
      source1 := source1
      count1 := s.count1 - 1
      destination := destination
      destinationCount := s.destinationCount + 1
      state := state }
  else
    let destination := s.source0.record.toList.foldl (cb.write role) s.destination
    let (source0, state) := s.source0.advance cb s.state
    { s with
      source0 := source0
      count0 := s.count0 - 1
      destination := destination
      destinationCount := s.destinationCount + 1
      state := state }

structure TapeMerge (φ σ β : Type) where
  source0 : SourceTape φ β
  source1 : SourceTape φ β
  destinationTape : Bool → φ
  destinationCount : Bool → ℕ
  destination : Bool
  state : σ

def destinationRole (last destination : Bool) : Role :=
  if last && !destination then .sorted else .temporary

def TapeMerge.mergeBlocks (blockSize : ℕ) (last : Bool) (s : TapeMerge φ σ β) :
    Comp Empty (TapeMerge φ σ β) := do
  let count0 := if blockSize < s.source0.count then blockSize else s.source0.count
  let count1 := if blockSize < s.source1.count then blockSize else s.source1.count
  let m ← loop BlockMerge.more
    (fun m => pure (m.move cb compare (destinationRole last s.destination)))
    ⟨s.source0, s.source1, count0, count1, s.destinationTape s.destination,
      s.destinationCount s.destination, s.state⟩
  pure ⟨m.source0, m.source1, Function.update s.destinationTape s.destination m.destination,
    Function.update s.destinationCount s.destination m.destinationCount, !s.destination, m.state⟩

structure Files (φ σ β : Type) where
  source0 : SourceTape φ β
  source1 : SourceTape φ β
  blockSize : ℕ
  sortedFile : φ
  state : σ

def Files.mergeTapes (s : Files φ σ β) : Comp Empty (Files φ σ β) := do
  let last := decide (s.source0.count ≤ s.blockSize)
  let (source0, state) := s.source0.read cb s.state
  let (source1, state) := s.source1.read cb state
  let m ← loop (fun m => m.source0.count != 0) (TapeMerge.mergeBlocks cb compare s.blockSize last)
    ⟨source0, source1, fun _ => cb.empty, fun _ => 0, false, state⟩
  let rewind := fun (side : Bool) (record : Option β) =>
    (⟨m.destinationTape side, m.destinationCount side, record⟩ : SourceTape φ β)
  pure ⟨rewind false m.source0.record, rewind true m.source1.record, s.blockSize * 2,
    if last then m.destinationTape false else s.sortedFile, m.state⟩

structure Reading (φ σ β : Type) where
  unsorted : φ
  state : σ
  first : List β
  blockCount : ℕ
  tape : Bool → φ
  count : Bool → ℕ
  destination : Bool
  more : Bool

def Reading.step (blockSize : ℕ) (s : Reading φ σ β) : Comp Empty (Reading φ σ β) := do
  let (record, unsorted, state) := cb.read .unsorted s.unsorted s.state
  let first := record.toList ++ s.first
  let blockCount := s.blockCount + record.toList.length
  if blockCount = blockSize ∨ record.isNone ∧ blockCount ≠ 0 then do
    let (sorted, _) ← sortLinkedList compare first
    let d := s.destination
    pure ⟨unsorted, state, [], 0,
      Function.update s.tape d (sorted.foldl (cb.write .temporary) (s.tape d)),
      Function.update s.count d (s.count d + sorted.length), !d, record.isSome⟩
  else pure ⟨unsorted, state, first, blockCount, s.tape, s.count, s.destination, record.isSome⟩

def copyRecords : ℕ → SourceTape φ β → σ → φ → φ
  | 0, _, _, sortedFile => sortedFile
  | count + 1, tape, state, sortedFile =>
    let (tape, state) := tape.read cb state
    copyRecords count tape state (tape.record.toList.foldl (cb.write .sorted) sortedFile)

def mergeSort (blockSize : ℕ) (unsorted : φ) (state : σ) : Comp Empty (φ × ℕ) := do
  let r ← loop Reading.more (Reading.step cb compare blockSize)
    ⟨unsorted, state, [], 0, fun _ => cb.empty, fun _ => 0, false, true⟩
  let source := fun side => (⟨r.tape side, r.count side, none⟩ : SourceTape φ β)
  if (source true).count = 0 then
    pure (copyRecords cb (source false).count (source false) r.state cb.empty, (source false).count)
  else
    let s ← loop (fun s : Files φ σ β => s.source1.count != 0) (Files.mergeTapes cb compare)
      ⟨source false, source true, blockSize, cb.empty, r.state⟩
    pure (s.sortedFile, s.source0.count)

end Model

section Agreement

variable {φ σ β : Type} (cb : Callbacks φ σ β)

def Callbacks.file (role : Role) (records : List β) : φ := records.foldl (cb.write role) cb.empty

-- What goes into a temporary file comes out of it again.
structure Callbacks.ReadsBack : Prop where
  next : ∀ x xs state, ∃ state',
    cb.read .temporary (cb.file .temporary (x :: xs)) state = (some x, cb.file .temporary xs, state')
  end_ : ∀ state, ∃ state',
    cb.read .temporary (cb.file .temporary []) state = (none, cb.file .temporary [], state')

def Callbacks.Delivers : φ → σ → List β → Prop
  | unsorted, state, [] => ∃ unsorted' state',
    cb.read .unsorted unsorted state = (none, unsorted', state')
  | unsorted, state, x :: xs => ∃ unsorted' state',
    cb.read .unsorted unsorted state = (some x, unsorted', state')
      ∧ Callbacks.Delivers unsorted' state' xs

variable {cb} {compare : β → β → ℤ}

lemma file_append (role : Role) (xs ys : List β) :
    cb.file role (xs ++ ys) = ys.foldl (cb.write role) (cb.file role xs) := List.foldl_append

structure SourceTape.Shows (cb : Callbacks φ σ β) (tape : MergeSort.SourceTape β)
    (t : SourceTape φ β) : Prop where
  fp : t.fp = cb.file .temporary tape.fp
  count : t.count = tape.count
  record : t.record = tape.record

variable {tape : MergeSort.SourceTape β} {t : SourceTape φ β}

lemma SourceTape.Shows.read (h : t.Shows cb tape) (hcb : cb.ReadsBack) (state : σ) :
    (t.read cb state).1.Shows cb tape.read := by
  rw [SourceTape.read, h.fp, MergeSort.SourceTape.read]
  cases hfp : tape.fp with
  | nil =>
    obtain ⟨state', hread⟩ := hcb.end_ state
    rw [hread]
    exact ⟨by rw [hfp], h.count, h.record⟩
  | cons x xs =>
    obtain ⟨state', hread⟩ := hcb.next x xs state
    rw [hread]
    exact ⟨rfl, h.count, rfl⟩

lemma SourceTape.Shows.advance (h : t.Shows cb tape) (hcb : cb.ReadsBack) (state : σ) :
    (t.advance cb state).1.Shows cb tape.advance := by
  rw [SourceTape.advance, MergeSort.SourceTape.advance, h.count]
  split
  · have hread := h.read hcb state
    exact ⟨hread.fp, congrArg (· - 1) hread.count, hread.record⟩
  · exact ⟨h.fp, congrArg (· - 1) h.count, h.record⟩

structure BlockMerge.Shows (cb : Callbacks φ σ β) (role : Role) (m : MergeSort.BlockMerge β)
    (s : BlockMerge φ σ β) : Prop where
  source0 : s.source0.Shows cb m.source0
  source1 : s.source1.Shows cb m.source1
  count0 : s.count0 = m.count0
  count1 : s.count1 = m.count1
  destination : s.destination = cb.file role m.destination
  records : s.destinationCount = m.destination.length

variable {role : Role} {m : MergeSort.BlockMerge β} {s : BlockMerge φ σ β}

lemma BlockMerge.Shows.select (h : s.Shows cb role m) : s.select compare = m.select compare := by
  have h0 := h.source0.record
  have h1 := h.source1.record
  cases hm0 : m.source0.record <;> cases hm1 : m.source1.record <;> rw [hm0] at h0 <;>
    rw [hm1] at h1 <;> simp only [BlockMerge.select, MergeSort.BlockMerge.select, h.count0, h.count1,
      h0, h1, hm0, hm1]

lemma BlockMerge.Shows.move (h : s.Shows cb role m) (hcb : cb.ReadsBack) {rest0 rest1 xs ys o : List β}
    (hm : MergeSort.AtBlocks rest0 rest1 m xs ys o) (hmore : m.more = true) :
    (s.move cb compare role).Shows cb role (m.move compare)
      ∧ ∃ xs' ys' o', MergeSort.AtBlocks rest0 rest1 (m.move compare) xs' ys' o' := by
  rw [BlockMerge.move, h.select]
  rcases hm.chosen hmore with ⟨hselect, hne⟩ | ⟨hselect, hne⟩
  · obtain ⟨y, ys, rfl⟩ := List.exists_cons_of_ne_nil hne
    have hrecord := hm.source1.2.1
    refine ⟨?_, _, _, _, hm.move1 hselect⟩
    rw [MergeSort.BlockMerge.move, hselect, if_pos rfl, if_pos rfl]
    refine ⟨h.source0, h.source1.advance hcb s.state, h.count0, congrArg (· - 1) h.count1, ?_, ?_⟩
    · dsimp only
      rw [file_append, h.destination, h.source1.record]
    · dsimp only
      rw [List.length_append, hrecord, h.records]
      rfl
  · obtain ⟨x, xs, rfl⟩ := List.exists_cons_of_ne_nil hne
    have hrecord := hm.source0.2.1
    refine ⟨?_, _, _, _, hm.move0 hselect⟩
    rw [MergeSort.BlockMerge.move, hselect, if_neg Bool.false_ne_true, if_neg Bool.false_ne_true]
    refine ⟨h.source0.advance hcb s.state, h.source1, congrArg (· - 1) h.count0, h.count1, ?_, ?_⟩
    · dsimp only
      rw [file_append, h.destination, h.source0.record]
    · dsimp only
      rw [List.length_append, hrecord, h.records]
      rfl

lemma moves_simulate (h : s.Shows cb role m) (hcb : cb.ReadsBack) {rest0 rest1 xs ys o : List β}
    (hm : MergeSort.AtBlocks rest0 rest1 m xs ys o) {m' : MergeSort.BlockMerge β}
    (hloop : (loop MergeSort.BlockMerge.more (fun m => pure (m.move compare)) m :
      Comp Empty (MergeSort.BlockMerge β)).Returns m') :
    ∃ s', (loop BlockMerge.more (fun s => pure (s.move cb compare role)) s : Comp Empty _).Returns s'
      ∧ s'.Shows cb role m' := by
  have hsim : ∃ s', (loop BlockMerge.more (fun s => pure (s.move cb compare role)) s :
      Comp Empty _).Returns s'
      ∧ s'.Shows cb role m' ∧ ∃ xs ys o, MergeSort.AtBlocks rest0 rest1 m' xs ys o := by
    refine loop_simulates (fun m (s : BlockMerge φ σ β) => s.Shows cb role m
      ∧ ∃ xs ys o, MergeSort.AtBlocks rest0 rest1 m xs ys o) (fun m s h => ?_)
      (fun m m' s h hmore hstep => ?_) ⟨h, xs, ys, o, hm⟩ hloop
    · rw [MergeSort.BlockMerge.more, BlockMerge.more, h.1.count0, h.1.count1]
    · obtain ⟨hshows, xs, ys, o, hm⟩ := h
      obtain rfl := Except.ok.inj (yields_pure.mp hstep)
      exact ⟨_, yields_pure.mpr rfl, hshows.move hcb hm hmore⟩
  obtain ⟨s', hs', h', -⟩ := hsim
  exact ⟨s', hs', h'⟩

lemma destinationRole_second (last : Bool) : destinationRole last true = .temporary := by
  cases last <;> rfl

structure TapeMerge.Shows (cb : Callbacks φ σ β) (last : Bool) (m : MergeSort.TapeMerge β)
    (s : TapeMerge φ σ β) : Prop where
  source0 : s.source0.Shows cb m.source0
  source1 : s.source1.Shows cb m.source1
  destinationTape : ∀ side,
    s.destinationTape side = cb.file (destinationRole last side) (m.destinationTape side)
  records : ∀ side, s.destinationCount side = (m.destinationTape side).length
  destination : s.destination = m.destination

lemma TapeMerge.Shows.mergeBlocks {last : Bool} {m m' : MergeSort.TapeMerge β}
    {s : TapeMerge φ σ β} (h : s.Shows cb last m) (hcb : cb.ReadsBack) {b : ℕ} {r : List β}
    {rs done : List (List β)} (hm : MergeSort.InPass b m (r :: rs) done)
    (hret : (m.mergeBlocks compare b).Returns m') :
    ∃ s', (s.mergeBlocks cb compare b last).Returns s' ∧ s'.Shows cb last m' := by
  obtain ⟨k, hk, hm'⟩ := returns_bind.mp hret
  obtain rfl := Except.ok.inj (yields_pure.mp hm')
  have hstart : (⟨s.source0, s.source1, if b < s.source0.count then b else s.source0.count,
      if b < s.source1.count then b else s.source1.count, s.destinationTape s.destination,
      s.destinationCount s.destination, s.state⟩ : BlockMerge φ σ β).Shows cb
      (destinationRole last s.destination)
      ⟨m.source0, m.source1, if b < m.source0.count then b else m.source0.count,
        if b < m.source1.count then b else m.source1.count, m.destinationTape m.destination⟩ := by
    refine ⟨h.source0, h.source1, ?_, ?_, ?_, ?_⟩
    · simp only [h.source0.count]
    · simp only [h.source1.count]
    · rw [← h.destination]
      exact h.destinationTape _
    · rw [← h.destination]
      exact h.records _
  obtain ⟨t, ht, hend⟩ := moves_simulate hstart hcb hm.atBlocks hk
  refine ⟨_, returns_bind.mpr ⟨t, ht, yields_pure.mpr rfl⟩, hend.source0, hend.source1,
    fun side => ?_, fun side => ?_, congrArg not h.destination⟩
  · rw [← h.destination]
    by_cases hside : side = s.destination
    · subst hside
      simp only [Function.update_self]
      exact hend.destination
    · simp only [Function.update_of_ne hside]
      exact h.destinationTape side
  · rw [← h.destination]
    by_cases hside : side = s.destination
    · subst hside
      simp only [Function.update_self]
      exact hend.records
    · simp only [Function.update_of_ne hside]
      exact h.records side

lemma tapes_simulate {last : Bool} {m m' : MergeSort.TapeMerge β} {s : TapeMerge φ σ β}
    (h : s.Shows cb last m) (hcb : cb.ReadsBack) {b : ℕ} {rs done : List (List β)}
    (hm : MergeSort.InPass b m rs done)
    (hret : (loop (fun m => m.source0.count != 0)
      (MergeSort.TapeMerge.mergeBlocks compare b) m).Returns m') :
    ∃ s', (loop (fun s => s.source0.count != 0) (TapeMerge.mergeBlocks cb compare b last) s).Returns s'
      ∧ s'.Shows cb last m' := by
  have hsim : ∃ s', (loop (fun s => s.source0.count != 0)
      (TapeMerge.mergeBlocks cb compare b last) s).Returns s'
      ∧ s'.Shows cb last m' ∧ ∃ rs done, MergeSort.InPass b m' rs done := by
    refine loop_simulates (fun m (s : TapeMerge φ σ β) => s.Shows cb last m
      ∧ ∃ rs done, MergeSort.InPass b m rs done) (fun m s h => by rw [h.1.source0.count])
      (fun m m' s h hmore hstep => ?_) ⟨h, rs, done, hm⟩ hret
    obtain ⟨hshows, rs, done, hm⟩ := h
    cases rs with
    | nil =>
      rw [hm.source0.count] at hmore
      cases hmore
    | cons r rs =>
      obtain ⟨s', hs', h'⟩ := hshows.mergeBlocks hcb hm hstep
      obtain ⟨m'', hm'', hin⟩ : ∃ t, (m.mergeBlocks compare b).Returns t
        ∧ MergeSort.InPass b t _ _ := MergeSort.inPass_mergeBlocks hm
      obtain rfl := Returns.unique hm'' hstep
      exact ⟨s', hs', h', _, _, hin⟩
  obtain ⟨s', hs', h', -⟩ := hsim
  exact ⟨s', hs', h'⟩

structure Files.Shows (cb : Callbacks φ σ β) (s : MergeSort.Files β) (t : Files φ σ β) : Prop where
  source0 : s.source1.count ≠ 0 → t.source0.Shows cb s.source0
  count0 : t.source0.count = s.source0.count
  source1 : t.source1.Shows cb s.source1
  blockSize : t.blockSize = s.blockSize
  sortedFile : t.sortedFile = cb.file .sorted s.sortedFile
  runs : ∃ runs, MergeSort.AtPass s runs

lemma Files.Shows.mergeTapes {s s' : MergeSort.Files β} {t : Files φ σ β} (h : t.Shows cb s)
    (hcb : cb.ReadsBack) (hmore : s.source1.count ≠ 0) (hret : (s.mergeTapes compare).Returns s') :
    ∃ t', (t.mergeTapes cb compare).Returns t' ∧ t'.Shows cb s' := by
  obtain ⟨runs, hpass⟩ := h.runs
  have hlt : 1 < runs.length := by
    rw [hpass.count1, Ne, List.length_eq_zero_iff] at hmore
    exact (second_ne_nil (hpass.blocks.ne_nil hpass.pos)).mp hmore
  obtain ⟨s'', hs'', hnext⟩ : ∃ u, (s.mergeTapes compare).Returns u
    ∧ MergeSort.AtPass u (pairUp (List.merge · · (MergeSort.pick compare)) runs) :=
    MergeSort.atPass_mergeTapes hpass hlt
  obtain rfl := Returns.unique hs'' hret
  have hlastpass : s.source0.count ≤ s.blockSize → s''.source1.count = 0 := by
    intro hle
    have htwo := (hpass.last_iff hlt).mp hle
    have hone : ¬ 1 < (pairUp (List.merge · · (MergeSort.pick compare)) runs).length := by
      rw [pairUp_length, htwo]
      decide
    rw [hnext.count1, List.length_eq_zero_iff]
    exact not_not.mp fun hne => hone ((second_ne_nil (hnext.blocks.ne_nil hnext.pos)).mp hne)
  obtain ⟨m, hm, hs'⟩ := returns_bind.mp hret
  have hs' := Except.ok.inj (yields_pure.mp hs')
  have hin : MergeSort.InPass s.blockSize ⟨s.source0.read, s.source1.read, fun _ => [], false⟩ runs
      [] := ⟨MergeSort.holds_read hpass.fp0 hpass.count0, MergeSort.holds_read hpass.fp1 hpass.count1,
    hpass.blocks, ⟨rfl, rfl, rfl⟩⟩
  have hread0 := (h.source0 hmore).read hcb t.state
  have hread1 := h.source1.read hcb (t.source0.read cb t.state).2
  have hstart : (⟨(t.source0.read cb t.state).1, (t.source1.read cb (t.source0.read cb t.state).2).1,
      fun _ => cb.empty, fun _ => 0, false, (t.source1.read cb (t.source0.read cb t.state).2).2⟩ :
      TapeMerge φ σ β).Shows cb (decide (s.source0.count ≤ s.blockSize))
      ⟨s.source0.read, s.source1.read, fun _ => [], false⟩ :=
    ⟨hread0, hread1, fun _ => rfl, fun _ => rfl, rfl⟩
  obtain ⟨n, hn, hend⟩ := tapes_simulate hstart hcb hin hm
  have hlast : decide (t.source0.count ≤ t.blockSize) = decide (s.source0.count ≤ s.blockSize) := by
    rw [h.count0, h.blockSize]
  refine ⟨_, returns_bind.mpr ⟨n, ?_, yields_pure.mpr rfl⟩, ?_⟩
  · rw [hlast, h.blockSize]
    exact hn
  · rw [hlast]
    have hruns : ∃ runs, MergeSort.AtPass s'' runs := ⟨_, hnext⟩
    have hsecond := hend.destinationTape true
    rw [destinationRole_second] at hsecond
    rw [hs'] at hlastpass hruns ⊢
    refine ⟨fun hne => ⟨?_, hend.records false, hend.source0.record⟩, hend.records false,
      ⟨hsecond, hend.records true, hend.source1.record⟩,
      congrArg (· * 2) h.blockSize, ?_, hruns⟩
    · have hmid : decide (s.source0.count ≤ s.blockSize) = false :=
        decide_eq_false fun hle => hne (hlastpass hle)
      have htape := hend.destinationTape false
      rw [hmid] at htape
      exact htape
    · have htape := hend.destinationTape false
      dsimp only
      cases hl : decide (s.source0.count ≤ s.blockSize) with
      | true =>
        rw [hl] at htape
        exact htape
      | false => exact h.sortedFile

lemma files_simulate {s s' : MergeSort.Files β} {t : Files φ σ β} (h : t.Shows cb s)
    (hcb : cb.ReadsBack)
    (hret : (loop (fun s : MergeSort.Files β => s.source1.count != 0)
      (MergeSort.Files.mergeTapes compare) s).Returns s') :
    ∃ t', (loop (fun t : Files φ σ β => t.source1.count != 0) (Files.mergeTapes cb compare) t).Returns
      t' ∧ t'.Shows cb s' :=
  loop_simulates (fun s (t : Files φ σ β) => t.Shows cb s) (fun s t h => by rw [h.source1.count])
    (fun _ _ _ h hmore hstep => h.mergeTapes hcb (bne_iff_ne.mp hmore) hstep) h hret

structure Reading.Shows (cb : Callbacks φ σ β) (first : List β) (blockCount : ℕ)
    (tapes : Bool → List β) (destination : Bool) (r : Reading φ σ β) : Prop where
  first : r.first = first
  blockCount : r.blockCount = blockCount
  tape : ∀ side, r.tape side = cb.file .temporary (tapes side)
  count : ∀ side, r.count side = (tapes side).length
  destination : r.destination = destination

section

variable {b blockCount : ℕ} {first : List β} {tapes : Bool → List β} {destination : Bool}
  {r : Reading φ σ β} {record : Option β} {unsorted : φ} {state : σ}

lemma Reading.Shows.keep (h : r.Shows cb first blockCount tapes destination)
    (hread : cb.read .unsorted r.unsorted r.state = (record, unsorted, state))
    (hblock : ¬ (blockCount + record.toList.length = b
      ∨ record.isNone ∧ blockCount + record.toList.length ≠ 0)) :
    ∃ r', (r.step cb compare b).Returns r'
      ∧ r'.Shows cb (record.toList ++ first) (blockCount + record.toList.length) tapes destination
      ∧ r'.unsorted = unsorted ∧ r'.state = state ∧ r'.more = record.isSome := by
  refine ⟨⟨unsorted, state, record.toList ++ r.first, r.blockCount + record.toList.length, r.tape,
    r.count, r.destination, record.isSome⟩, ?_, ⟨?_, ?_, h.tape, h.count, h.destination⟩, rfl, rfl, rfl⟩
  · rw [Reading.step, hread, h.blockCount]
    dsimp only
    rw [if_neg hblock]
    exact yields_pure.mpr rfl
  · exact congrArg _ h.first
  · exact congrArg (· + _) h.blockCount

lemma Reading.Shows.sort (h : r.Shows cb first blockCount tapes destination)
    (hread : cb.read .unsorted r.unsorted r.state = (record, unsorted, state))
    (hblock : blockCount + record.toList.length = b
      ∨ record.isNone ∧ blockCount + record.toList.length ≠ 0) {tapes' : Bool → List β}
    (hsort : (MergeSort.sortBlock compare (record.toList ++ first) tapes destination).Returns tapes') :
    ∃ r', (r.step cb compare b).Returns r' ∧ r'.Shows cb [] 0 tapes' (!destination)
      ∧ r'.unsorted = unsorted ∧ r'.state = state ∧ r'.more = record.isSome := by
  obtain ⟨⟨sorted, n⟩, hs, htapes⟩ := returns_bind.mp hsort
  obtain rfl := Except.ok.inj (yields_pure.mp htapes)
  refine ⟨⟨unsorted, state, [], 0, Function.update r.tape r.destination
      (sorted.foldl (cb.write .temporary) (r.tape r.destination)), Function.update r.count
      r.destination (r.count r.destination + sorted.length), !r.destination, record.isSome⟩, ?_,
    ⟨rfl, rfl, fun side => ?_, fun side => ?_, congrArg not h.destination⟩, rfl, rfl, rfl⟩
  · rw [Reading.step, hread, h.blockCount, h.first]
    dsimp only
    rw [if_pos hblock]
    exact returns_bind.mpr ⟨_, hs, yields_pure.mpr rfl⟩
  · rw [h.destination]
    by_cases hside : side = destination
    · subst hside
      simp only [Function.update_self]
      rw [file_append, h.tape]
    · simp only [Function.update_of_ne hside]
      exact h.tape side
  · rw [h.destination]
    by_cases hside : side = destination
    · subst hside
      simp only [Function.update_self]
      rw [List.length_append, h.count]
    · simp only [Function.update_of_ne hside]
      exact h.count side

end

lemma reading_simulates {b : ℕ} {records first : List β} {blockCount : ℕ}
    {tapes tapes' : Bool → List β} {destination : Bool} {r : Reading φ σ β}
    (h : r.Shows cb first blockCount tapes destination) (hmore : r.more = true)
    (hdelivers : cb.Delivers r.unsorted r.state records)
    (hret : (MergeSort.readBlocks compare b records first blockCount tapes destination).Returns
      tapes') :
    ∃ r', (loop Reading.more (Reading.step cb compare b) r).Returns r'
      ∧ (∀ side, r'.tape side = cb.file .temporary (tapes' side))
      ∧ ∀ side, r'.count side = (tapes' side).length := by
  induction records generalizing r first blockCount tapes destination with
  | nil =>
    obtain ⟨unsorted, state, hread⟩ := hdelivers
    rw [MergeSort.readBlocks] at hret
    have hround : ∃ r', (r.step cb compare b).Returns r' ∧ r'.more = false
        ∧ (∀ side, r'.tape side = cb.file .temporary (tapes' side))
        ∧ ∀ side, r'.count side = (tapes' side).length := by
      split at hret
      · next hblock =>
        obtain ⟨r', hr', h', -, -, hmore'⟩ := h.sort hread (by simpa using hblock) hret
        exact ⟨r', hr', hmore', h'.tape, h'.count⟩
      · next hblock =>
        obtain rfl := Except.ok.inj (yields_pure.mp hret)
        obtain ⟨r', hr', h', -, -, hmore'⟩ := h.keep hread (by simpa using hblock)
        exact ⟨r', hr', hmore', h'.tape, h'.count⟩
    obtain ⟨r', hr', hmore', htape, hcount⟩ := hround
    exact ⟨r', loop_step hmore hr' (loop_end hmore'), htape, hcount⟩
  | cons x records ih =>
    obtain ⟨unsorted, state, hread, hrest⟩ := hdelivers
    rw [MergeSort.readBlocks] at hret
    have hround : ∃ r', (r.step cb compare b).Returns r' ∧ ∃ r'',
        (loop Reading.more (Reading.step cb compare b) r').Returns r''
        ∧ (∀ side, r''.tape side = cb.file .temporary (tapes' side))
        ∧ ∀ side, r''.count side = (tapes' side).length := by
      split at hret
      · next hblock =>
        obtain ⟨mid, hmid, hret⟩ := returns_bind.mp hret
        obtain ⟨r', hr', h', hu, hs, hmore'⟩ := h.sort hread (.inl hblock) hmid
        exact ⟨r', hr', ih h' hmore' (by rw [hu, hs]; exact hrest) hret⟩
      · next hblock =>
        obtain ⟨r', hr', h', hu, hs, hmore'⟩ : ∃ r', (r.step cb compare b).Returns r' ∧ _ :=
          h.keep hread (by simpa using hblock)
        exact ⟨r', hr', ih h' hmore' (by rw [hu, hs]; exact hrest) hret⟩
    obtain ⟨r', hr', r'', hr'', htape, hcount⟩ := hround
    exact ⟨r'', loop_step hmore hr' hr'', htape, hcount⟩

lemma copyRecords_eq (hcb : cb.ReadsBack) (records : List β) (count : ℕ) (record : Option β)
    (state : σ) (sortedFile : φ) :
    copyRecords cb records.length ⟨cb.file .temporary records, count, record⟩ state sortedFile
      = records.foldl (cb.write .sorted) sortedFile := by
  induction records generalizing record state sortedFile with
  | nil => rfl
  | cons x records ih =>
    obtain ⟨state', hread⟩ := hcb.next x records state
    rw [List.length_cons, copyRecords, SourceTape.read, hread]
    exact ih (some x) state' (cb.write .sorted sortedFile x)

/-- The sort of files agrees with the sort of the records that the unsorted file delivers, once
temporary files give back what was written to them. -/
theorem mergeSort_simulates (hcb : cb.ReadsBack) {c : Comparison β} (hc : c.Follows compare)
    {blockSize : ℕ} {unsorted : φ} {state : σ} {records out : List β} {count : ℕ}
    (hdelivers : cb.Delivers unsorted state records)
    (hret : (MergeSort.mergeSort compare blockSize records).Returns (out, count)) :
    (mergeSort cb compare blockSize unsorted state).Returns (cb.file .sorted out, count) := by
  obtain ⟨tapes, hread, hrest⟩ := returns_bind.mp hret
  have hstart : (⟨unsorted, state, [], 0, fun _ => cb.empty, fun _ => 0, false, true⟩ :
      Reading φ σ β).Shows cb [] 0 (fun _ => []) false := ⟨rfl, rfl, fun _ => rfl, fun _ => rfl, rfl⟩
  obtain ⟨r, hr, htape, hcount⟩ := reading_simulates hstart rfl hdelivers hread
  refine returns_bind.mpr ⟨r, hr, ?_⟩
  simp only [hcount, htape]
  dsimp only at hrest
  split at hrest
  · next hzero =>
    obtain ⟨rfl, rfl⟩ := Prod.mk.inj (Except.ok.inj (yields_pure.mp hrest))
    rw [if_pos hzero]
    refine yields_pure.mpr ?_
    rw [copyRecords_eq hcb, MergeSort.copyRecords_eq, List.nil_append]
    rfl
  · next hzero =>
    obtain ⟨s, hs, hout⟩ := returns_bind.mp hrest
    obtain ⟨rfl, rfl⟩ := Prod.mk.inj (Except.ok.inj (yields_pure.mp hout))
    rw [if_neg hzero]
    have hpos : 0 < blockSize := by
      refine Nat.pos_of_ne_zero fun hnone => hzero ?_
      obtain ⟨r, hread', -⟩ := MergeSort.readBlocks_zero hc records [] (fun _ => []) false
      subst hnone
      obtain rfl := Returns.unique hread hread'
      rfl
    have hfiles : (⟨⟨cb.file .temporary (tapes false), (tapes false).length, none⟩,
        ⟨cb.file .temporary (tapes true), (tapes true).length, none⟩, blockSize, cb.empty, r.state⟩ :
        Files φ σ β).Shows cb ⟨⟨tapes false, (tapes false).length, none⟩,
          ⟨tapes true, (tapes true).length, none⟩, blockSize, []⟩ := by
      obtain ⟨tapes', _, runs, hread', hw, hblocks, -, -⟩ := MergeSort.readBlocks_returns hc hpos
        records [] hpos (MergeSort.distributed_nil c blockSize)
      obtain rfl := Returns.unique hread hread'
      refine ⟨fun _ => ⟨rfl, rfl, rfl⟩, rfl, ⟨rfl, rfl, rfl⟩, rfl, rfl, runs, hw.first,
        congrArg List.length hw.first, hw.second, congrArg List.length hw.second, hblocks, hpos,
        fun hle => ?_⟩
      have hsecond : 1 < runs.length := by
        rw [← second_ne_nil (hblocks.ne_nil hpos), ← hw.second]
        exact fun hnil => hzero (congrArg List.length hnil)
      omega
    obtain ⟨t, ht, hend⟩ := files_simulate hfiles hcb hs
    refine returns_bind.mpr ⟨t, ht, yields_pure.mpr ?_⟩
    rw [hend.sortedFile, hend.count0]

end Agreement

end SimpleCode.Algorithm.FileSort
