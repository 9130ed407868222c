import SimpleCode.Algorithm.ZSortOrder

set_option autoImplicit false

namespace SimpleCode.Algorithm.ZSort

open Foundations Foundations.Comp

variable {α : Type} {c : Comparison α} {compare : α → α → ℤ}

-- The comparison follows the order of the keys, and answers with a discard code where they are equal.
structure Discards (c : Comparison α) (compare : α → α → ℤ) : Prop where
  less : ∀ a b, c.compare a b < 0 → compare a b < 0 ∧ ¬ Reserved (compare a b)
  greater : ∀ a b, 0 < c.compare a b → 0 < compare a b
  equal : ∀ a b, c.compare a b = 0 → compare a b = zcompDupP ∨ compare a b = zcompDupQ

lemma reserved_neg {n : ℤ} (h : Reserved n) : n < 0 := by
  rcases h with rfl | rfl | rfl
  · decide
  · decide
  · decide

section DiscardingP

def discardVerdict (compare : α → α → ℤ) (a b : α) : Verdict :=
  if compare a b = zcompDupP then .drop else if compare a b < 0 then .left else .right

variable (hd : Discards c compare) (hq : ∀ a b, compare a b ≠ zcompDupQ)
include hd hq

lemma Discards.dupP_iff {a b : α} : compare a b = zcompDupP ↔ c.compare a b = 0 := by
  constructor
  · intro hp
    have hreserved : Reserved (compare a b) := .inr (.inl hp)
    rcases lt_trichotomy (c.compare a b) 0 with hlt | heq | hgt
    · exact absurd hreserved (hd.less a b hlt).2
    · exact heq
    · exact absurd (hd.greater a b hgt) (reserved_neg hreserved).not_gt
  · exact fun heq => (hd.equal a b heq).resolve_right (hq a b)

lemma Discards.decides : c.Decides (discardVerdict compare) where
  left {a b} h := by
    rw [discardVerdict] at h
    split_ifs at h with hp hlt
    refine not_le.mp fun hle => ?_
    rcases hle.lt_or_eq with hgt | heq
    · exact (hd.greater a b hgt).not_gt hlt
    · exact hp ((hd.dupP_iff hq).mpr heq.symm)
  right {a b} h := by
    rw [discardVerdict] at h
    split_ifs at h with hp hlt
    refine (c.flip a b).mp (not_le.mp fun hle => ?_)
    rcases hle.lt_or_eq with hlt' | heq
    · exact hlt (hd.less a b hlt').1
    · exact hp ((hd.dupP_iff hq).mpr heq)
  drop {a b} h := by
    rw [discardVerdict] at h
    split_ifs at h with hp
    exact (hd.dupP_iff hq).mp hp

lemma Discards.sorter :
    Sorter compare (discardVerdict compare) c.StrictlySorted c.Covers where
  toMerging := (hd.decides hq).merging
  left {a b} h := by
    have hlt := hd.less a b ((hd.decides hq).left h)
    exact ⟨hlt.2, hlt.1⟩
  right {a b} h := by
    have hgt := hd.greater a b ((c.flip a b).mpr ((hd.decides hq).right h))
    exact ⟨fun hreserved => (reserved_neg hreserved).not_gt hgt, hgt.not_gt⟩
  drop {a b} h := (hd.dupP_iff hq).mpr ((hd.decides hq).drop h)

end DiscardingP

section DiscardingQ

variable {a b : α}

def threeItems (a b : α) : Bool → MemoryStruct α :=
  sides ⟨[⟨a, true⟩, ⟨a, true⟩], 2⟩ ⟨[⟨b, true⟩], 1⟩

lemma submit_room {h : Zsort α} (hretrieving : h.retrieving = false)
    (hroom : (h.queue false false).count + (h.queue false true).count < h.memory) (p : α) :
    (zsortSubmit compare h p).Returns (h.putItem p) := by
  simp only [zsortSubmit, hretrieving, Bool.false_eq_true, if_false, hroom.not_ge]
  exact yields_pure.mpr rfl

lemma submit_three (compare : α → α → ℤ) (a b : α) (memory : ℕ) : ∃ h : Zsort α,
    ([a, b, a].foldlM (zsortSubmit compare) (zsortOpen memory)).Returns h
      ∧ h.retrieving = false ∧ h.queue false = threeItems a b := by
  let h0 : Zsort α := zsortOpen memory
  have hmemory : 4 ≤ h0.memory := by
    change 4 ≤ if memory < 4 then 4 else memory
    split
    · exact le_rfl
    · exact not_lt.mp ‹_›
  have h1 : (zsortSubmit compare h0 a).Returns (h0.putItem a) :=
    submit_room rfl (Nat.lt_of_lt_of_le (by decide : 0 < 4) hmemory) a
  have h2 : (zsortSubmit compare (h0.putItem a) b).Returns ((h0.putItem a).putItem b) :=
    submit_room (h := h0.putItem a) rfl (Nat.lt_of_lt_of_le (by decide : 1 < 4) hmemory) b
  have h3 : (zsortSubmit compare ((h0.putItem a).putItem b) a).Returns
      (((h0.putItem a).putItem b).putItem a) :=
    submit_room (h := (h0.putItem a).putItem b) rfl
      (Nat.lt_of_lt_of_le (by decide : 2 < 4) hmemory) a
  refine ⟨_, returns_bind.mpr ⟨_, h1, returns_bind.mpr ⟨_, h2, returns_bind.mpr ⟨_, h3,
    yields_pure.mpr rfl⟩⟩⟩, rfl, ?_⟩
  funext side
  cases side with
  | false => rfl
  | true => rfl

-- The first block of the first queue is discarded with the block behind it, which is still counted.
lemma step_loses (hq : compare a b = zcompDupQ) (empty : ℕ) :
    (⟨threeItems a b, fun _ => false, ⟨[], 0⟩, empty⟩ : QueueMerge α).step compare
      = .ok ⟨sides ⟨[], 1⟩ ⟨[], 0⟩, fun _ => true, ⟨[⟨b, false⟩], 1⟩, empty + 1⟩ := by
  have hended : Function.update (Function.update (fun _ => false) false true) true true
      = fun _ => true := by
    funext side
    cases side with
    | false => rfl
    | true => rfl
  have hchoose : (⟨threeItems a b, fun _ => false, ⟨[], 0⟩, empty⟩ : QueueMerge α).choose compare
      = .ok (⟨sides ⟨[], 1⟩ ⟨[⟨b, true⟩], 1⟩, Function.update (fun _ => false) false true, ⟨[], 0⟩,
        empty + 1⟩, true) := by
    rw [← update_sides_first ⟨[⟨a, true⟩, ⟨a, true⟩], 2⟩]
    simp [QueueMerge.choose, QueueMerge.discard, threeItems, sides, hq, zcompAbort, zcompDupP,
      zcompDupQ]
  rw [QueueMerge.step, hchoose]
  change Except.ok _ = _
  rw [update_sides_second]
  simp [hended, sides]

lemma pass_stops (hq : compare a b = zcompDupQ) (empty : ℕ) :
    (loop QueuePass.more (QueuePass.mergeBlocks compare)
      ⟨threeItems a b, fun _ => ⟨[], 0⟩, false, empty⟩).Yields (.error .nullPointer) := by
  have hended : (fun side => (threeItems a b side).count == 0) = fun _ => false := by
    funext side
    cases side with
    | false => rfl
    | true => rfl
  have hfirst : (QueuePass.mergeBlocks compare
      ⟨threeItems a b, fun _ => ⟨[], 0⟩, false, empty⟩).Returns
      ⟨sides ⟨[], 1⟩ ⟨[], 0⟩, Function.update (fun _ => ⟨[], 0⟩) false ⟨[⟨b, true⟩], 1⟩, true,
        empty + 1⟩ := by
    refine returns_bind.mpr ⟨⟨sides ⟨[], 1⟩ ⟨[], 0⟩, fun _ => true, ⟨[⟨b, false⟩], 1⟩, empty + 1⟩,
      ?_, yields_pure.mpr rfl⟩
    dsimp only
    rw [hended]
    exact loop_step rfl (yields_ofExcept.mpr (step_loses hq empty).symm) (loop_end rfl)
  refine (yields_loop_more rfl).mpr ((yields_bind_of_returns hfirst).mpr ((yields_loop_more rfl).mpr ?_))
  refine yields_bind_error (yields_bind_error ((yields_loop_more rfl).mpr ?_) _) _
  exact yields_bind_error (yields_ofExcept.mpr rfl) _

lemma sortQueues_stops (hq : compare a b = zcompDupQ) {h : Zsort α}
    (hqueue : h.queue false = threeItems a b) :
    (sortQueues compare h).Yields (.error .nullPointer) := by
  have hmore : ((h.queue false true).count != 0) = true := by
    rw [hqueue]
    rfl
  have hpass : (loop QueuePass.more (QueuePass.mergeBlocks compare)
      ⟨h.queue false, fun _ => ⟨[], 0⟩, false, h.empty⟩).Yields (.error .nullPointer) := by
    rw [hqueue]
    exact pass_stops hq h.empty
  have hloop : (loop (fun s : Queues α => (s.queue s.source true).count != 0) (Queues.pass compare)
      ⟨h.queue, h.empty, false⟩).Yields (.error .nullPointer) := by
    rw [yields_loop, if_pos hmore]
    exact yields_bind_error (yields_bind_error hpass _) _
  exact yields_bind_error hloop _

lemma not_retrieves (hq : compare a b = zcompDupQ) (memory : ℕ) (out : List α) :
    ¬ Retrieves compare memory [a, b, a] out := by
  intro hout
  obtain ⟨h, hsubmit, hretrieving, hqueue⟩ := submit_three compare a b memory
  have hstop : (sortRecords compare memory [a, b, a] 1).Yields (.error .nullPointer) := by
    refine (yields_bind_of_returns hsubmit).mpr (yields_bind_error ?_ _)
    rw [zsortRetrieve, if_neg (by simp [hretrieving])]
    exact yields_bind_error (yields_bind_error (sortQueues_stops hq hqueue) _) _
  cases Yields.unique hstop (hout 1)

end DiscardingQ

section Duplicates

def answering (code : ℤ) (a b : UInt8) : ℤ := if a = b then code else Comparison.bytes.compare a b

lemma discards_answering {code : ℤ} (hcode : code = zcompDupP ∨ code = zcompDupQ) :
    Discards Comparison.bytes (answering code) where
  less a b h := by
    have ha := a.toNat_lt
    have hb := b.toNat_lt
    have hne : a ≠ b := by
      rintro rfl
      exact h.ne (Comparison.compare_self a)
    rw [answering, if_neg hne]
    refine ⟨h, ?_⟩
    simp only [Reserved, Comparison.bytes, zcompAbort, zcompDupP, zcompDupQ]
    omega
  greater a b h := by
    have hne : a ≠ b := by
      rintro rfl
      exact h.ne' (Comparison.compare_self a)
    rwa [answering, if_neg hne]
  equal a b h := by
    have hab : a = b := UInt8.toNat_inj.mp (Int.natCast_inj.mp (sub_eq_zero.mp h))
    rwa [answering, if_pos hab]

end Duplicates

end SimpleCode.Algorithm.ZSort
